import Mathlib.Data.List.AList
import Jack2.Libjack
import Jack2.Run
import Jack2.Shared
import Jack2.TripleBuffer

/-!
# Port maps, their publication and their collection

`Client::register_ports`, `Client::unregister_ports` and the collector task, cut into
the steps between which the process thread can run. `Client.ports` and the three
slots of the triple buffer are maps of shared handles; every clone, overwrite,
removal and clear is charged to the strong counts, and the drop of a last handle
calls `jack_port_unregister`.

Iterators neither panic nor re-enter the client here, nothing that sets the collector up
panics, and every spawned task is run.
-/
namespace Jack2.Ports

open Shared (Counts)

/-- `HashMap<OwnedPortUuid, ProcessPortOuter>`; a value is an `Rc`, named by its port. -/
abbrev PortMap := AList (fun _ : OwnedPortUuid => JackPort)

/-- The handles a map holds. -/
def handles (m : PortMap) : List JackPort := m.entries.map Sigma.snd

/-- What the closure of `register_ports` makes of one `PortInfo`: a name with an
interior NUL, a null answer of `jack_port_register`, or a port with its UUID. -/
inductive Item where
  | nul
  | refused
  | created (uuid : OwnedPortUuid)
  deriving DecidableEq, Repr

/-- What runs on the main thread: the two API calls and one tick of the collector. -/
inductive Op where
  | registerPorts (items : List Item)
  | unregisterPorts (ports : List OwnedPortUuid)
  | tick
  deriving DecidableEq, Repr

/-- The next statement of the main thread. -/
inductive Pc where
  | idle
  | registering (items : List Item)
  | registered
  | unregistering (ports : List OwnedPortUuid)
  | unregistered
  | scheduling
  | spawning
  | collecting
  | checking
  | clearing
  | finishing
  deriving DecidableEq, Repr

/-- The callbacks that acquire the front buffer. -/
inductive ProcessCallback where
  | process | sync | timebase
  deriving DecidableEq, Repr

inductive Label where
  | call (op : Op)
  | main
  | acquire (callback : ProcessCallback)
  | release
  deriving DecidableEq, Repr

/-- The thread that takes a step. -/
def Label.thread : Label → Thread
  | .call _ => .main
  | .main => .main
  | .acquire _ => .process
  | .release => .process

structure State where
  ports : PortMap
  processPorts : TripleBuffer PortMap
  /-- A callback on the process thread holds the front guard. -/
  held : Bool
  pendingPortGc : Bool
  /-- The collector tasks that were spawned and have not finished. -/
  collectors : ℕ
  pc : Pc
  counts : Counts JackPort
  /-- The next port that libjack creates. -/
  next : JackPort
  calls : List (Thread × Call)

/-- The client as `ClientBuilder::build` leaves it. -/
def init : State where
  ports := ∅
  processPorts := .initial ∅
  held := false
  pendingPortGc := false
  collectors := 0
  pc := .idle
  counts := fun _ => 0
  next := 0
  calls := []

def State.log (s : State) (thread : Thread) (call : Call) : State :=
  { s with calls := s.calls ++ [(thread, call)] }

/-- Drop handles on a thread; `PortPtr::drop` unregisters a port with its last one. -/
def State.dropHandles (s : State) (thread : Thread) (ps : List JackPort) : State :=
  { s with
    counts := (Shared.drop s.counts ps).1
    calls := s.calls ++ (Shared.drop s.counts ps).2.map fun p => (thread, .portUnregister p) }

/-- `bufs.back_mut().ports = ports.clone()`: the clone comes before the drop of the old map. -/
def State.storeBack (s : State) (thread : Thread) : State :=
  State.dropHandles
    { s with
      counts := Shared.retain s.counts (handles s.ports)
      processPorts := s.processPorts.setBack s.ports }
    thread (handles s.processPorts.back)

/-- `self.ports.borrow_mut().insert(port, ProcessPortOuter::new(ptr, data))` of a new port. -/
def State.insertPort (s : State) (uuid : OwnedPortUuid) : State :=
  { s with
    ports := s.ports.insert uuid s.next
    counts := Function.update s.counts s.next 1
    next := s.next + 1 }

/-- `port_map.remove(&port)`, whose result is dropped at once. -/
def State.removePort (s : State) (thread : Thread) (uuid : OwnedPortUuid) : State :=
  State.dropHandles { s with ports := s.ports.erase uuid } thread (s.ports.lookup uuid).toList

/-- `bufs.back_mut().ports.clear()` -/
def State.clearBack (s : State) (thread : Thread) : State :=
  State.dropHandles { s with processPorts := s.processPorts.setBack ∅ } thread
    (handles s.processPorts.back)

/-- `pending.ports.clear()` -/
def State.clearPending (s : State) (thread : Thread) : State :=
  State.dropHandles { s with processPorts := s.processPorts.setPending ∅ } thread
    (handles s.processPorts.pending)

def State.swap (s : State) : State := { s with processPorts := s.processPorts.swap }

@[simp] theorem log_ports (s : State) (d : Thread) (c : Call) : (s.log d c).ports = s.ports := rfl
@[simp] theorem log_processPorts (s : State) (d : Thread) (c : Call) :
    (s.log d c).processPorts = s.processPorts := rfl
@[simp] theorem log_counts (s : State) (d : Thread) (c : Call) :
    (s.log d c).counts = s.counts := rfl
@[simp] theorem log_next (s : State) (d : Thread) (c : Call) : (s.log d c).next = s.next := rfl
@[simp] theorem log_held (s : State) (d : Thread) (c : Call) : (s.log d c).held = s.held := rfl
@[simp] theorem log_pendingPortGc (s : State) (d : Thread) (c : Call) :
    (s.log d c).pendingPortGc = s.pendingPortGc := rfl
@[simp] theorem log_collectors (s : State) (d : Thread) (c : Call) :
    (s.log d c).collectors = s.collectors := rfl
@[simp] theorem dropHandles_ports (s : State) (d : Thread) (ps : List JackPort) :
    (s.dropHandles d ps).ports = s.ports := rfl
@[simp] theorem dropHandles_processPorts (s : State) (d : Thread) (ps : List JackPort) :
    (s.dropHandles d ps).processPorts = s.processPorts := rfl
@[simp] theorem dropHandles_next (s : State) (d : Thread) (ps : List JackPort) :
    (s.dropHandles d ps).next = s.next := rfl
@[simp] theorem dropHandles_held (s : State) (d : Thread) (ps : List JackPort) :
    (s.dropHandles d ps).held = s.held := rfl
@[simp] theorem dropHandles_pendingPortGc (s : State) (d : Thread) (ps : List JackPort) :
    (s.dropHandles d ps).pendingPortGc = s.pendingPortGc := rfl
@[simp] theorem dropHandles_collectors (s : State) (d : Thread) (ps : List JackPort) :
    (s.dropHandles d ps).collectors = s.collectors := rfl
@[simp] theorem storeBack_ports (s : State) (d : Thread) : (s.storeBack d).ports = s.ports := rfl
@[simp] theorem storeBack_processPorts (s : State) (d : Thread) :
    (s.storeBack d).processPorts = s.processPorts.setBack s.ports := rfl
@[simp] theorem storeBack_next (s : State) (d : Thread) : (s.storeBack d).next = s.next := rfl
@[simp] theorem storeBack_held (s : State) (d : Thread) : (s.storeBack d).held = s.held := rfl
@[simp] theorem storeBack_pendingPortGc (s : State) (d : Thread) :
    (s.storeBack d).pendingPortGc = s.pendingPortGc := rfl
@[simp] theorem storeBack_collectors (s : State) (d : Thread) :
    (s.storeBack d).collectors = s.collectors := rfl
@[simp] theorem insertPort_ports (s : State) (u : OwnedPortUuid) :
    (s.insertPort u).ports = s.ports.insert u s.next := rfl
@[simp] theorem insertPort_processPorts (s : State) (u : OwnedPortUuid) :
    (s.insertPort u).processPorts = s.processPorts := rfl
@[simp] theorem insertPort_next (s : State) (u : OwnedPortUuid) :
    (s.insertPort u).next = s.next + 1 := rfl
@[simp] theorem insertPort_held (s : State) (u : OwnedPortUuid) :
    (s.insertPort u).held = s.held := rfl
@[simp] theorem insertPort_pendingPortGc (s : State) (u : OwnedPortUuid) :
    (s.insertPort u).pendingPortGc = s.pendingPortGc := rfl
@[simp] theorem insertPort_collectors (s : State) (u : OwnedPortUuid) :
    (s.insertPort u).collectors = s.collectors := rfl
@[simp] theorem removePort_ports (s : State) (d : Thread) (u : OwnedPortUuid) :
    (s.removePort d u).ports = s.ports.erase u := rfl
@[simp] theorem removePort_processPorts (s : State) (d : Thread) (u : OwnedPortUuid) :
    (s.removePort d u).processPorts = s.processPorts := rfl
@[simp] theorem removePort_next (s : State) (d : Thread) (u : OwnedPortUuid) :
    (s.removePort d u).next = s.next := rfl
@[simp] theorem removePort_held (s : State) (d : Thread) (u : OwnedPortUuid) :
    (s.removePort d u).held = s.held := rfl
@[simp] theorem removePort_pendingPortGc (s : State) (d : Thread) (u : OwnedPortUuid) :
    (s.removePort d u).pendingPortGc = s.pendingPortGc := rfl
@[simp] theorem removePort_collectors (s : State) (d : Thread) (u : OwnedPortUuid) :
    (s.removePort d u).collectors = s.collectors := rfl
@[simp] theorem clearBack_ports (s : State) (d : Thread) : (s.clearBack d).ports = s.ports := rfl
@[simp] theorem clearBack_processPorts (s : State) (d : Thread) :
    (s.clearBack d).processPorts = s.processPorts.setBack ∅ := rfl
@[simp] theorem clearBack_next (s : State) (d : Thread) : (s.clearBack d).next = s.next := rfl
@[simp] theorem clearBack_held (s : State) (d : Thread) : (s.clearBack d).held = s.held := rfl
@[simp] theorem clearBack_pendingPortGc (s : State) (d : Thread) :
    (s.clearBack d).pendingPortGc = s.pendingPortGc := rfl
@[simp] theorem clearBack_collectors (s : State) (d : Thread) :
    (s.clearBack d).collectors = s.collectors := rfl
@[simp] theorem clearPending_ports (s : State) (d : Thread) :
    (s.clearPending d).ports = s.ports := rfl
@[simp] theorem clearPending_processPorts (s : State) (d : Thread) :
    (s.clearPending d).processPorts = s.processPorts.setPending ∅ := rfl
@[simp] theorem clearPending_next (s : State) (d : Thread) : (s.clearPending d).next = s.next := rfl
@[simp] theorem clearPending_held (s : State) (d : Thread) : (s.clearPending d).held = s.held := rfl
@[simp] theorem clearPending_pendingPortGc (s : State) (d : Thread) :
    (s.clearPending d).pendingPortGc = s.pendingPortGc := rfl
@[simp] theorem clearPending_collectors (s : State) (d : Thread) :
    (s.clearPending d).collectors = s.collectors := rfl
@[simp] theorem swap_ports (s : State) : s.swap.ports = s.ports := rfl
@[simp] theorem swap_processPorts (s : State) : s.swap.processPorts = s.processPorts.swap := rfl
@[simp] theorem swap_next (s : State) : s.swap.next = s.next := rfl
@[simp] theorem swap_held (s : State) : s.swap.held = s.held := rfl
@[simp] theorem swap_pendingPortGc (s : State) : s.swap.pendingPortGc = s.pendingPortGc := rfl
@[simp] theorem swap_collectors (s : State) : s.swap.collectors = s.collectors := rfl

/-- An empty iterator returns before anything is borrowed, since `peek` finds no item. -/
def start (s : State) : Op → Option State
  | .registerPorts [] => some s
  | .registerPorts items => some { s with pc := .registering items }
  | .unregisterPorts [] => some s
  | .unregisterPorts ports => some { s with pc := .unregistering ports }
  | .tick => if s.collectors = 0 then none else some { s with pc := .collecting }

/-- libjack gives a new port a UUID that no port of the client has. -/
def registerItem (thread : Thread) (s : State) : Item → Option State
  | .nul => some s
  | .refused => some (s.log thread .portRegister)
  | .created uuid =>
    if uuid ∈ s.ports then none else some ((s.log thread .portRegister).insertPort uuid)

/-- The next statement, on the thread that runs it. -/
def mainStep (thread : Thread) (s : State) : Option State :=
  match s.pc with
  | .idle => none
  | .registering (item :: items) =>
    (registerItem thread s item).map fun t => { t with pc := .registering items }
  | .registering [] => some { s.storeBack thread with pc := .registered }
  | .registered => some { s.swap with pc := .idle }
  | .unregistering (port :: ports) => some { s.removePort thread port with pc := .unregistering ports }
  | .unregistering [] => some { s.storeBack thread with pc := .unregistered }
  | .unregistered => some { s.swap with pc := .scheduling }
  | .scheduling =>
    if s.pendingPortGc then some { s with pc := .idle }
    else some { s with pendingPortGc := true, pc := .spawning }
  | .spawning =>
    -- `frame_duration` asks libjack for the buffer size and the sample rate
    some { (s.log thread .getBufferSize).log thread .getSampleRate with
      collectors := s.collectors + 1, pc := .idle }
  | .collecting => some { s.clearBack thread with pc := .checking }
  | .checking =>
    match s.processPorts.pendingMut with
    | none => some { s with pc := .idle }
    | some _ => some { s with pc := .clearing }
  | .clearing => some { s.clearPending thread with pc := .finishing }
  | .finishing =>
    some { s with pendingPortGc := false, collectors := s.collectors - 1, pc := .idle }

/-- libjack runs the callbacks of one client one at a time. -/
def step (s : State) : Label → Option State
  | .call op => if s.pc = .idle then start s op else none
  | .main => mainStep Label.main.thread s
  | .acquire _ =>
    if s.held then none else some { s with processPorts := s.processPorts.frontBuffer, held := true }
  | .release => if s.held then some { s with held := false } else none

abbrev run : State → List Label → Option State := Run.run step

/-- Everything one step can do. -/
inductive Step (s : State) : Label → State → Prop where
  | registerNone (hpc : s.pc = .idle) : Step s (.call (.registerPorts [])) s
  | register (hpc : s.pc = .idle) (item : Item) (items : List Item) :
      Step s (.call (.registerPorts (item :: items))) { s with pc := .registering (item :: items) }
  | unregisterNone (hpc : s.pc = .idle) : Step s (.call (.unregisterPorts [])) s
  | unregister (hpc : s.pc = .idle) (port : OwnedPortUuid) (ports : List OwnedPortUuid) :
      Step s (.call (.unregisterPorts (port :: ports)))
        { s with pc := .unregistering (port :: ports) }
  | tick (hpc : s.pc = .idle) (hlive : s.collectors ≠ 0) :
      Step s (.call .tick) { s with pc := .collecting }
  | itemNul (items : List Item) (hpc : s.pc = .registering (.nul :: items)) :
      Step s .main { s with pc := .registering items }
  | itemRefused (items : List Item) (hpc : s.pc = .registering (.refused :: items)) :
      Step s .main { s.log .main .portRegister with pc := .registering items }
  | itemCreated (uuid : OwnedPortUuid) (items : List Item)
      (hpc : s.pc = .registering (.created uuid :: items)) (hnew : uuid ∉ s.ports) :
      Step s .main { (s.log .main .portRegister).insertPort uuid with pc := .registering items }
  | storeRegistered (hpc : s.pc = .registering []) :
      Step s .main { s.storeBack .main with pc := .registered }
  | swapRegistered (hpc : s.pc = .registered) : Step s .main { s.swap with pc := .idle }
  | remove (port : OwnedPortUuid) (ports : List OwnedPortUuid)
      (hpc : s.pc = .unregistering (port :: ports)) :
      Step s .main { s.removePort .main port with pc := .unregistering ports }
  | storeUnregistered (hpc : s.pc = .unregistering []) :
      Step s .main { s.storeBack .main with pc := .unregistered }
  | swapUnregistered (hpc : s.pc = .unregistered) :
      Step s .main { s.swap with pc := .scheduling }
  | alreadyScheduled (hpc : s.pc = .scheduling) (hgc : s.pendingPortGc = true) :
      Step s .main { s with pc := .idle }
  | schedule (hpc : s.pc = .scheduling) (hgc : s.pendingPortGc = false) :
      Step s .main { s with pendingPortGc := true, pc := .spawning }
  | spawn (hpc : s.pc = .spawning) :
      Step s .main { (s.log .main .getBufferSize).log .main .getSampleRate with
        collectors := s.collectors + 1, pc := .idle }
  | clearBack (hpc : s.pc = .collecting) : Step s .main { s.clearBack .main with pc := .checking }
  | keepPending (hpc : s.pc = .checking) (hfresh : s.processPorts.fresh = true) :
      Step s .main { s with pc := .idle }
  | lendPending (hpc : s.pc = .checking) (hstale : s.processPorts.fresh = false) :
      Step s .main { s with pc := .clearing }
  | clearPending (hpc : s.pc = .clearing) : Step s .main { s.clearPending .main with pc := .finishing }
  | finish (hpc : s.pc = .finishing) :
      Step s .main { s with pendingPortGc := false, collectors := s.collectors - 1, pc := .idle }
  | acquire (callback : ProcessCallback) (hfree : s.held = false) :
      Step s (.acquire callback)
        { s with processPorts := s.processPorts.frontBuffer, held := true }
  | release (hheld : s.held = true) : Step s .release { s with held := false }

theorem start_cases {s t : State} {op : Op} (hpc : s.pc = .idle) (h : start s op = some t) :
    Step s (.call op) t := by
  cases op with
  | registerPorts items =>
    cases items <;> cases h
    · exact .registerNone hpc
    · exact .register hpc _ _
  | unregisterPorts ports =>
    cases ports <;> cases h
    · exact .unregisterNone hpc
    · exact .unregister hpc _ _
  | tick =>
    simp only [start] at h
    split at h <;> cases h
    exact .tick hpc ‹_›

theorem item_cases {s t : State} {item : Item} {items : List Item}
    (hpc : s.pc = .registering (item :: items)) (h : registerItem .main s item = some t) :
    Step s .main { t with pc := .registering items } := by
  cases item with
  | nul => cases h; exact .itemNul items hpc
  | refused => cases h; exact .itemRefused items hpc
  | created uuid =>
    simp only [registerItem] at h
    split at h <;> cases h
    exact .itemCreated uuid items hpc ‹_›

theorem main_cases {s t : State} (h : mainStep .main s = some t) : Step s .main t := by
  unfold mainStep at h
  split at h
  · cases h
  · rename_i hpc
    obtain ⟨u, hu, rfl⟩ := Option.map_eq_some_iff.mp h
    exact item_cases hpc hu
  · cases h; exact .storeRegistered ‹_›
  · cases h; exact .swapRegistered ‹_›
  · cases h; exact .remove _ _ ‹_›
  · cases h; exact .storeUnregistered ‹_›
  · cases h; exact .swapUnregistered ‹_›
  · split at h <;> cases h
    · exact .alreadyScheduled ‹_› ‹_›
    · exact .schedule ‹_› (by simp_all)
  · cases h; exact .spawn ‹_›
  · cases h; exact .clearBack ‹_›
  · split at h <;> cases h
    · exact .keepPending ‹_› (TripleBuffer.pendingMut_eq_none.mp ‹_›)
    · exact .lendPending ‹_› (TripleBuffer.pendingMut_eq_some.mp ‹_›).1
  · cases h; exact .clearPending ‹_›
  · cases h; exact .finish ‹_›

/-- The inversion every invariant is derived from. -/
theorem step_cases {s t : State} {l : Label} (h : step s l = some t) : Step s l t := by
  cases l with
  | call op =>
    simp only [step] at h
    split at h
    · exact start_cases ‹_› h
    · cases h
  | main => exact main_cases h
  | acquire callback =>
    simp only [step] at h
    split at h <;> cases h
    exact .acquire callback (by simp_all)
  | release =>
    simp only [step] at h
    split at h <;> cases h
    exact .release ‹_›

end Jack2.Ports
