import Jack2.BorrowFlags
import Jack2.Calls
import Jack2.PortFlags
import Jack2.Uuid

/-!
# The scope of a callback

What a handler can do with `ProcessScope` and `ProcessPort` while the main thread goes on:
the methods of a port that give out a reference, the drop of such a reference, and
`mem::forget` of it. The guards of a port's two cells outlive the callback only where they
were forgotten. How each port was registered is a parameter, and two ports of libjack have
no buffer in common.
-/
namespace Jack2.ProcessScope

open BorrowFlags (Borrow Flags)
open Ports (Op ProcessCallback handles unregistered)

/-- The fields of `PortInfo` that `PortPtr` keeps. -/
structure Registered (sys : JackPortFlags) where
  mode : PortMode
  create : PortCreateFlags sys
  portType : PortType

def Registered.flags {sys : JackPortFlags} (r : Registered sys) : PortFlags :=
  registerFlags r.mode r.create

/-- The two cells of a `ProcessPortInner`. -/
inductive Cell where
  | data | bufferLock
  deriving DecidableEq, Repr

/-- The methods of `ProcessPort` whose results borrow from the scope; `data` with the
borrow that is then made of the cell. -/
inductive Method where
  | data (borrow : Borrow)
  | audioInBuffer | audioOutBuffer | midiInBuffer | midiOutBuffer
  deriving DecidableEq, Repr

/-- The guard that is kept in the result. -/
def Method.guard : Method → Option (Cell × Borrow)
  | .data borrow => some (.data, borrow)
  | .audioOutBuffer | .midiOutBuffer => some (.bufferLock, .mutable)
  | .audioInBuffer | .midiInBuffer => none

/-- A reference that a method gave out, with the `nframes` of its scope. -/
structure View where
  port : JackPort
  method : Method
  nframes : UInt32
  deriving DecidableEq, Repr

/-- What the process thread asks libjack about a port. -/
inductive Request where
  | portUuid (port : JackPort)
  | portGetBuffer (port : JackPort) (nframes : UInt32)
  | midiClearBuffer (port : JackPort)
  deriving DecidableEq, Repr

def Request.port : Request → JackPort
  | .portUuid port => port
  | .portGetBuffer port _ => port
  | .midiClearBuffer port => port

structure State where
  ports : Ports.State
  /-- Of the running callback. -/
  nframes : UInt32
  cells : Flags (JackPort × Cell)
  views : Multiset View
  forgotten : Multiset View
  requests : List Request

def init : State := ⟨Ports.init, 0, BorrowFlags.unused, 0, 0, []⟩

inductive Label where
  | call (op : Op)
  | main
  | enter (callback : ProcessCallback) (nframes : UInt32)
  | leave
  | uuid (port : JackPort)
  | request (port : JackPort) (method : Method)
  | drop (view : View)
  | forget (view : View)
  deriving DecidableEq, Repr

namespace State

/-- The ports of the scope: what `ports` iterates over and `port_by_owned_uuid` looks up. -/
def scopePorts (s : State) : List JackPort := handles s.ports.processPorts.front

/-- The mutable borrow of the lock, where a method makes one. -/
def lockBuffer (s : State) (port : JackPort) (locks : Bool) : Option (Flags (JackPort × Cell)) :=
  if locks then BorrowFlags.tryBorrow s.cells (port, .bufferLock) .mutable else some s.cells

/-- The assertion, the lock, and the calls of libjack. -/
def buffer (s : State) (port : JackPort) (method : Method) (assertion locks : Bool)
    (clear : List Request) : Outcome State :=
  if assertion then
    match s.lockBuffer port locks with
    | some cells => .done { s with
        cells
        views := ⟨port, method, s.nframes⟩ ::ₘ s.views
        requests := s.requests ++ .portGetBuffer port s.nframes :: clear }
    | none => .panic
  else .panic

variable {sys : JackPortFlags} (ports : JackPort → Registered sys)

def audioInBuffer (s : State) (port : JackPort) : Outcome State :=
  s.buffer port .audioInBuffer
    ((ports port).flags.isInput sys && (ports port).portType == .audio) false []

def audioOutBuffer (s : State) (port : JackPort) : Outcome State :=
  s.buffer port .audioOutBuffer
    ((ports port).flags.isOutput sys && (ports port).portType == .audio) true []

def midiInBuffer (s : State) (port : JackPort) : Outcome State :=
  s.buffer port .midiInBuffer
    ((ports port).flags.isInput sys && (ports port).portType == .midi) false []

def midiOutBuffer (s : State) (port : JackPort) : Outcome State :=
  s.buffer port .midiOutBuffer
    ((ports port).flags.isOutput sys && (ports port).portType == .midi) true
    [.midiClearBuffer port]

/-- `port.data().borrow()` and `port.data().borrow_mut()` -/
def data (s : State) (port : JackPort) (borrow : Borrow) : Outcome State :=
  match BorrowFlags.tryBorrow s.cells (port, .data) borrow with
  | some cells => .done { s with
      cells
      views := ⟨port, .data borrow, s.nframes⟩ ::ₘ s.views }
  | none => .panic

def request (s : State) (port : JackPort) : Method → Outcome State
  | .data borrow => s.data port borrow
  | .audioInBuffer => s.audioInBuffer ports port
  | .audioOutBuffer => s.audioOutBuffer ports port
  | .midiInBuffer => s.midiInBuffer ports port
  | .midiOutBuffer => s.midiOutBuffer ports port

/-- The flag that a guard gives back. -/
def releaseView (s : State) (view : View) : Flags (JackPort × Cell) :=
  match view.method.guard with
  | some (cell, borrow) => BorrowFlags.release s.cells (view.port, cell) borrow
  | none => s.cells

end State

section Step

variable {sys : JackPortFlags} (ports : JackPort → Registered sys)

/-- A panic of a method may be caught, and then leaves the state as it was. A callback ends
when none of its references is alive any more, and has no scope but its own. -/
def step (s : State) : Label → Option State
  | .call op => (Ports.step s.ports (.call op)).map fun t => { s with ports := t }
  | .main => (Ports.step s.ports .main).map fun t => { s with ports := t }
  | .enter callback nframes =>
    (Ports.step s.ports (.acquire callback)).map fun t =>
      { s with ports := t, nframes := if callback = .sync then 0 else nframes }
  | .leave =>
    if s.views = 0 then (Ports.step s.ports .release).map fun t => { s with ports := t } else none
  | .uuid port =>
    if s.ports.held ∧ port ∈ s.scopePorts then
      some { s with requests := s.requests ++ [.portUuid port] }
    else none
  | .request port method =>
    if s.ports.held ∧ port ∈ s.scopePorts then
      match s.request ports port method with
      | .done t => some t
      | _ => some s
    else none
  | .drop view =>
    if view ∈ s.views then some { s with cells := s.releaseView view, views := s.views.erase view }
    else none
  | .forget view =>
    if view ∈ s.views then
      some { s with views := s.views.erase view, forgotten := view ::ₘ s.forgotten }
    else none

abbrev run : State → List Label → Option State := Run.run (step ports)

end Step

section Aliasing

/-- The memory of a port that a reference leads to. -/
inductive Memory where
  | data | buffer
  deriving DecidableEq, Repr

def Method.memory : Method → Memory
  | .data _ => .data
  | _ => .buffer

/-- Whether the reference may be written through. -/
def Method.access : Method → Borrow
  | .data borrow => borrow
  | .audioInBuffer | .midiInBuffer => .shared
  | .audioOutBuffer | .midiOutBuffer => .mutable

end Aliasing

section Specs

variable {sys : JackPortFlags} {ports : JackPort → Registered sys} {s t : State}

/-- The assertion at the head of a method. -/
def Method.accepts (r : Registered sys) : Method → Bool
  | .data _ => true
  | .audioInBuffer => r.flags.isInput sys && r.portType == .audio
  | .audioOutBuffer => r.flags.isOutput sys && r.portType == .audio
  | .midiInBuffer => r.flags.isInput sys && r.portType == .midi
  | .midiOutBuffer => r.flags.isOutput sys && r.portType == .midi

/-- The guard that a reference holds. -/
def View.held (v : View) : Option ((JackPort × Cell) × Borrow) :=
  v.method.guard.map fun g => ((v.port, g.1), g.2)

/-- The guards that are alive, and those that will never be given back. -/
def State.guards (s : State) : Multiset ((JackPort × Cell) × Borrow) :=
  (s.views + s.forgotten).filterMap View.held

/-- The flag of a port's cell after a method was granted its guard. -/
def State.grant (s : State) (port : JackPort) (method : Method) :
    Option (Flags (JackPort × Cell)) :=
  match method.guard with
  | some (cell, borrow) => BorrowFlags.tryBorrow s.cells (port, cell) borrow
  | none => some s.cells

theorem buffer_cases (s : State) (port : JackPort) (method : Method) (assertion locks : Bool) (clear : List Request)
    (hgrant : s.grant port method = s.lockBuffer port locks) (hclear : ∀ r ∈ clear, r.port = port) :
    (s.buffer port method assertion locks clear = .panic ∧
      (assertion = false ∨ s.grant port method = none)) ∨
    ∃ cells requests, s.buffer port method assertion locks clear =
        .done { s with
          cells
          views := ⟨port, method, s.nframes⟩ ::ₘ s.views
          requests := s.requests ++ requests } ∧
      assertion = true ∧ s.grant port method = some cells ∧ ∀ r ∈ requests, r.port = port := by
  rw [hgrant, State.buffer]
  cases assertion with
  | false => exact Or.inl ⟨rfl, Or.inl rfl⟩
  | true =>
    cases s.lockBuffer port locks with
    | none => exact Or.inl ⟨rfl, Or.inr rfl⟩
    | some cells =>
      refine Or.inr ⟨cells, _, rfl, rfl, rfl, ?_⟩
      intro r hr
      cases List.mem_cons.mp hr with
      | inl h => rw [h]; rfl
      | inr h => exact hclear r h

/-- What every method does: it panics, or gives out a reference beside its guard. -/
theorem request_cases (ports : JackPort → Registered sys) (s : State) (port : JackPort) (method : Method) :
    (s.request ports port method = .panic ∧
      (method.accepts (ports port) = false ∨ s.grant port method = none)) ∨
    ∃ cells requests, s.request ports port method =
        .done { s with
          cells
          views := ⟨port, method, s.nframes⟩ ::ₘ s.views
          requests := s.requests ++ requests } ∧
      method.accepts (ports port) = true ∧ s.grant port method = some cells ∧
      ∀ r ∈ requests, r.port = port := by
  cases method with
  | data borrow =>
    simp only [State.request, State.data, State.grant, Method.guard]
    cases BorrowFlags.tryBorrow s.cells (port, .data) borrow with
    | none => exact Or.inl ⟨rfl, Or.inr rfl⟩
    | some cells => exact Or.inr ⟨cells, [], by simp, rfl, rfl, by simp⟩
  | audioInBuffer =>
    exact buffer_cases s port .audioInBuffer (Method.accepts (ports port) .audioInBuffer) false []
      rfl (by simp)
  | audioOutBuffer =>
    exact buffer_cases s port .audioOutBuffer (Method.accepts (ports port) .audioOutBuffer) true []
      rfl (by simp)
  | midiInBuffer =>
    exact buffer_cases s port .midiInBuffer (Method.accepts (ports port) .midiInBuffer) false []
      rfl (by simp)
  | midiOutBuffer =>
    exact buffer_cases s port .midiOutBuffer (Method.accepts (ports port) .midiOutBuffer) true
      [.midiClearBuffer port] rfl (by simp [Request.port])

/-- What a step can be. -/
inductive Turn (ports : JackPort → Registered sys) (s : State) : Label → State → Prop where
  | main {l : Label} {l' : Ports.Label} {q : Ports.State} (hlabel : ∀ v, l ≠ .forget v)
      (hstep : Ports.step s.ports l' = some q)
      (hmain : l' ≠ .release ∧ ∀ callback, l' ≠ .acquire callback) : Turn ports s l { s with ports := q }
  | entered (callback : ProcessCallback) (nframes : UInt32) {q : Ports.State}
      (hstep : Ports.step s.ports (.acquire callback) = some q) :
      Turn ports s (.enter callback nframes)
        { s with ports := q, nframes := if callback = .sync then 0 else nframes }
  | left {q : Ports.State} (hnone : s.views = 0) (hstep : Ports.step s.ports .release = some q) :
      Turn ports s .leave { s with ports := q }
  | asked {port : JackPort} (hport : port ∈ s.scopePorts) :
      Turn ports s (.uuid port) { s with requests := s.requests ++ [.portUuid port] }
  | panicked (port : JackPort) (method : Method) : Turn ports s (.request port method) s
  /-- A method gave out a reference, and asked libjack about its port only. -/
  | granted {port : JackPort} {method : Method} {cells : Flags (JackPort × Cell)}
      {requests : List Request} (hheld : s.ports.held = true) (hport : port ∈ s.scopePorts)
      (haccepts : method.accepts (ports port) = true) (hgrant : s.grant port method = some cells)
      (hsame : ∀ r ∈ requests, r.port = port) :
      Turn ports s (.request port method) { s with
        cells
        views := ⟨port, method, s.nframes⟩ ::ₘ s.views
        requests := s.requests ++ requests }
  | dropped {v : View} (hv : v ∈ s.views) :
      Turn ports s (.drop v) { s with cells := s.releaseView v, views := s.views.erase v }
  | forgot {v : View} (hv : v ∈ s.views) :
      Turn ports s (.forget v) { s with views := s.views.erase v, forgotten := v ::ₘ s.forgotten }

theorem turn_of_step {l : Label} (hstep : step ports s l = some t) : Turn ports s l t := by
  cases l with
  | call op =>
    obtain ⟨q, hq, rfl⟩ := Option.map_eq_some_iff.mp hstep
    exact .main nofun hq (by simp)
  | main =>
    obtain ⟨q, hq, rfl⟩ := Option.map_eq_some_iff.mp hstep
    exact .main nofun hq (by simp)
  | enter callback nframes =>
    obtain ⟨q, hq, rfl⟩ := Option.map_eq_some_iff.mp hstep
    exact .entered callback nframes hq
  | leave =>
    simp only [step, Option.ite_none_right_eq_some] at hstep
    obtain ⟨hnone, hstep⟩ := hstep
    obtain ⟨q, hq, rfl⟩ := Option.map_eq_some_iff.mp hstep
    exact .left hnone hq
  | uuid port =>
    simp only [step, Option.ite_none_right_eq_some, Option.some.injEq] at hstep
    obtain ⟨⟨_, hport⟩, rfl⟩ := hstep
    exact .asked hport
  | request port method =>
    simp only [step, Option.ite_none_right_eq_some] at hstep
    obtain ⟨⟨hheld, hport⟩, hstep⟩ := hstep
    obtain ⟨hpanic, _⟩ | ⟨cells, requests, hdone, haccepts, hgrant, hsame⟩ :=
      request_cases ports s port method
    · rw [hpanic] at hstep
      cases hstep
      exact .panicked port method
    · rw [hdone] at hstep
      cases hstep
      exact .granted hheld hport haccepts hgrant hsame
  | drop v =>
    simp only [step, Option.ite_none_right_eq_some, Option.some.injEq] at hstep
    obtain ⟨hv, rfl⟩ := hstep
    exact .dropped hv
  | forget v =>
    simp only [step, Option.ite_none_right_eq_some, Option.some.injEq] at hstep
    obtain ⟨hv, rfl⟩ := hstep
    exact .forgot hv

/-- What the scopes keep over a whole run. -/
structure Safe (ports : JackPort → Registered sys) (s : State) : Prop where
  invariant : Ports.Invariant s.ports
  held : BorrowFlags.Held s.cells s.guards
  views : ∀ v ∈ s.views, v.port ∈ s.scopePorts ∧ v.method.accepts (ports v.port) = true ∧
    v.nframes = s.nframes
  quiet : s.ports.held = false → s.views = 0

theorem safe_init : Safe ports init where
  invariant := Ports.invariant_init
  held := BorrowFlags.held_unused
  views := by simp [init]
  quiet := fun _ => rfl

/-- The main thread does not touch the front buffer. -/
theorem front_kept {p q : Ports.State} {l : Ports.Label} (h : Ports.Step p l q)
    (hl : l ≠ .release ∧ ∀ callback, l ≠ .acquire callback) :
    q.processPorts.front = p.processPorts.front ∧ q.held = p.held := by
  cases h with
  | acquire callback hfree => exact absurd rfl (hl.2 callback)
  | release hheld => exact absurd rfl hl.1
  | _ => exact ⟨rfl, rfl⟩

theorem Safe.main {q : Ports.State} {l : Ports.Label} (h : Safe ports s)
    (hstep : Ports.step s.ports l = some q)
    (hl : l ≠ .release ∧ ∀ callback, l ≠ .acquire callback) :
    Safe ports { s with ports := q } := by
  have hcases := Ports.step_cases hstep
  obtain ⟨hfront, hheld⟩ := front_kept hcases hl
  refine ⟨Ports.invariant_step h.invariant hcases, h.held, ?_, ?_⟩
  · simpa [State.scopePorts, hfront] using h.views
  · intro hq
    exact h.quiet (hheld.symm.trans hq)

/-- A reference that is given out adds its guard. -/
theorem held_grant {port : JackPort} {method : Method} {cells : Flags (JackPort × Cell)}
    (h : BorrowFlags.Held s.cells s.guards) (hgrant : s.grant port method = some cells)
    (nframes : UInt32) :
    BorrowFlags.Held cells
      ((⟨port, method, nframes⟩ ::ₘ (s.views + s.forgotten)).filterMap View.held) := by
  simp only [State.grant] at hgrant
  cases hguard : method.guard with
  | none =>
    rw [hguard] at hgrant
    cases hgrant
    rw [Multiset.filterMap_cons_none _ _ (by simp [View.held, hguard])]
    exact h
  | some guard =>
    rw [hguard] at hgrant
    rw [Multiset.filterMap_cons_some View.held _ _ (by simp [View.held, hguard]; rfl)]
    exact BorrowFlags.held_tryBorrow h hgrant

/-- A reference that is dropped takes its guard away. -/
theorem held_releaseView {v : View} (h : BorrowFlags.Held s.cells s.guards) (hv : v ∈ s.views) :
    BorrowFlags.Held (s.releaseView v)
      ((s.views.erase v + s.forgotten).filterMap View.held) := by
  have hsplit : s.views + s.forgotten = v ::ₘ (s.views.erase v + s.forgotten) := by
    rw [← Multiset.cons_add, Multiset.cons_erase hv]
  rw [State.guards, hsplit] at h
  simp only [State.releaseView]
  cases hguard : v.method.guard with
  | none =>
    rwa [Multiset.filterMap_cons_none _ _ (by simp [View.held, hguard])] at h
  | some guard =>
    rw [Multiset.filterMap_cons_some View.held _ _ (by simp [View.held, hguard]; rfl)] at h
    exact BorrowFlags.held_release h

theorem mem_of_mem_erase {v w : View} {views : Multiset View} (h : w ∈ views.erase v) : w ∈ views :=
  Multiset.mem_of_le (Multiset.erase_le v views) h

theorem safe_step (h : Safe ports s) {l : Label} (hstep : step ports s l = some t) :
    Safe ports t := by
  cases turn_of_step hstep with
  | main _ hq hmain => exact h.main hq hmain
  | entered callback nframes hq =>
    have hcases := Ports.step_cases hq
    have hinv := Ports.invariant_step h.invariant hcases
    cases hcases with
    | acquire _ hfree =>
      have hnone := h.quiet hfree
      exact ⟨hinv, h.held, by simp [hnone], by simp⟩
  | left hnone hq =>
    have hcases := Ports.step_cases hq
    have hinv := Ports.invariant_step h.invariant hcases
    cases hcases with
    | release hheld => exact ⟨hinv, h.held, by simp [hnone], fun _ => hnone⟩
  | asked _ => exact ⟨h.invariant, h.held, h.views, h.quiet⟩
  | panicked _ _ => exact h
  | granted hheld hport haccepts hgrant _ =>
    refine ⟨h.invariant, ?_, ?_, ?_⟩
    · simpa [State.guards] using held_grant h.held hgrant s.nframes
    · intro v hv
      cases Multiset.mem_cons.mp hv with
      | inl heq => rw [heq]; exact ⟨hport, haccepts, rfl⟩
      | inr hold => exact h.views v hold
    · intro hfree
      exact absurd (hheld.symm.trans hfree) (by decide)
  | dropped hv =>
    refine ⟨h.invariant, held_releaseView h.held hv, ?_, ?_⟩
    · intro w hw
      exact h.views w (mem_of_mem_erase hw)
    · intro hfree
      simp [h.quiet hfree]
  | @forgot v hv =>
    refine ⟨h.invariant, ?_, ?_, ?_⟩
    · have hsame : s.views.erase v + v ::ₘ s.forgotten = s.views + s.forgotten := by
        rw [Multiset.add_cons, ← Multiset.cons_add, Multiset.cons_erase hv]
      rw [State.guards, hsame]
      exact h.held
    · intro w hw
      exact h.views w (mem_of_mem_erase hw)
    · intro hfree
      simp [h.quiet hfree]

theorem safe_run {ls : List Label} (h : run ports init ls = some s) : Safe ports s :=
  Run.run_invariant (fun _ _ _ hi hstep => safe_step hi hstep) h safe_init

/-- The ports of a scope exist, and libjack has not been told to unregister them. -/
theorem Safe.live (h : Safe ports s) {port : JackPort} (hport : port ∈ s.scopePorts) :
    port < s.ports.next ∧ port ∉ unregistered s.ports.calls := by
  have howned := h.invariant.owned
  have hholds : port ∈ s.ports.holds := by
    rw [Ports.State.holds, Multiset.mem_add]
    exact Or.inr (Ports.mem_slots.mpr (Or.inl hport))
  refine ⟨howned.bound port hholds, ?_⟩
  rw [howned.collected.dead_iff, not_and]
  intro _ hzero
  exact (Shared.counted_eq_zero howned.counted).mp hzero hholds

/-- Two references with guards of one cell only read. -/
theorem Safe.shared (h : Safe ports s) {v w : View} {k : JackPort × Cell} {b b' : Borrow}
    (hpair : v ::ₘ {w} ≤ s.views) (hv : v.held = some (k, b)) (hw : w.held = some (k, b')) :
    b = .shared ∧ b' = .shared := by
  obtain ⟨rest, hrest⟩ := Multiset.le_iff_exists_add.mp hpair
  have hheld := h.held
  rw [State.guards, hrest, Multiset.cons_add, Multiset.cons_add, Multiset.singleton_add,
    Multiset.cons_add, Multiset.filterMap_cons_some _ _ _ hv,
    Multiset.filterMap_cons_some _ _ _ hw] at hheld
  exact hheld.shared (Multiset.mem_cons_self _ _)

/-- No port is asked for an input and for an output buffer. -/
theorem not_both_accepted (hsys : sys.Separate) {r : Registered sys} {m m' : Method}
    (hin : m = .audioInBuffer ∨ m = .midiInBuffer) (hout : m' = .audioOutBuffer ∨ m' = .midiOutBuffer)
    (h : m.accepts r = true) (h' : m'.accepts r = true) : False := by
  have hexclusive := registerFlags_exclusive hsys r.mode r.create
  have hinput : r.flags.isInput sys = true := by
    obtain rfl | rfl := hin
    · exact (Bool.and_eq_true_iff.mp h).1
    · exact (Bool.and_eq_true_iff.mp h).1
  have houtput : r.flags.isOutput sys = true := by
    obtain rfl | rfl := hout
    · exact (Bool.and_eq_true_iff.mp h').1
    · exact (Bool.and_eq_true_iff.mp h').1
  exact hexclusive (hinput.trans houtput.symm)

theorem method_kinds (m : Method) :
    (∃ b, m = .data b) ∨ (m = .audioInBuffer ∨ m = .midiInBuffer) ∨
      (m = .audioOutBuffer ∨ m = .midiOutBuffer) := by
  cases m <;> simp

theorem of_in {m : Method} (h : m = .audioInBuffer ∨ m = .midiInBuffer) :
    m.access = .shared ∧ m.memory = .buffer := by
  obtain rfl | rfl := h
  · exact ⟨rfl, rfl⟩
  · exact ⟨rfl, rfl⟩

theorem of_out {m : Method} (h : m = .audioOutBuffer ∨ m = .midiOutBuffer) :
    m.guard = some (.bufferLock, .mutable) ∧ m.memory = .buffer := by
  obtain rfl | rfl := h
  · exact ⟨rfl, rfl⟩
  · exact ⟨rfl, rfl⟩

/-- Whatever references are alive at once, none of them can be written through while
another leads to the same memory. -/
theorem Safe.unaliased (hsys : sys.Separate) (h : Safe ports s) {v w : View}
    (hpair : v ::ₘ {w} ≤ s.views) (hport : v.port = w.port)
    (hmemory : v.method.memory = w.method.memory) :
    v.method.access = .shared ∧ w.method.access = .shared := by
  have hv := (h.views v (Multiset.mem_of_le hpair (Multiset.mem_cons_self v _))).2.1
  have hw := (h.views w (Multiset.mem_of_le hpair (by simp))).2.1
  rw [hport] at hv
  obtain ⟨b, hdata⟩ | hin | hout := method_kinds v.method
  · obtain ⟨b', hdata'⟩ | hin' | hout' := method_kinds w.method
    · rw [hdata, hdata']
      have hheld : v.held = some ((w.port, .data), b) := by
        simp [View.held, hdata, Method.guard, hport]
      have hheld' : w.held = some ((w.port, .data), b') := by
        simp [View.held, hdata', Method.guard]
      exact h.shared hpair hheld hheld'
    · rw [hdata, (of_in hin').2] at hmemory
      cases hmemory
    · rw [hdata, (of_out hout').2] at hmemory
      cases hmemory
  · obtain ⟨b', hdata'⟩ | hin' | hout' := method_kinds w.method
    · rw [hdata', (of_in hin).2] at hmemory
      cases hmemory
    · exact ⟨(of_in hin).1, (of_in hin').1⟩
    · exact (not_both_accepted hsys hin hout' hv hw).elim
  · obtain ⟨b', hdata'⟩ | hin' | hout' := method_kinds w.method
    · rw [hdata', (of_out hout).2] at hmemory
      cases hmemory
    · exact (not_both_accepted hsys hin' hout hw hv).elim
    · -- the lock of the port has a mutable guard for each of the two
      have hheld : v.held = some ((w.port, .bufferLock), .mutable) := by
        simp [View.held, (of_out hout).1, hport]
      have hheld' : w.held = some ((w.port, .bufferLock), .mutable) := by
        simp [View.held, (of_out hout').1]
      cases (h.shared hpair hheld hheld').1

/-- A step asks libjack only about ports that the scope has. -/
theorem requests_step {l : Label} (hstep : step ports s l = some t) :
    ∃ new, t.requests = s.requests ++ new ∧ ∀ r ∈ new, r.port ∈ s.scopePorts := by
  cases turn_of_step hstep with
  | @asked port hport => exact ⟨[.portUuid port], rfl, by simpa [Request.port] using hport⟩
  | @granted _ _ _ requests _ hport _ _ hsame =>
    exact ⟨requests, rfl, fun r hr => hsame r hr ▸ hport⟩
  | _ => exact ⟨[], by simp, by simp⟩

/-- In every run each reference that is alive belongs to the running callback, and its port
is not unregistered; no reference can be written through while another leads to the same
memory; and what the process thread asks libjack is about ports that are not unregistered. -/
theorem references_safe (hsys : sys.Separate) {ls : List Label} (h : run ports init ls = some s) :
    (∀ v ∈ s.views, s.ports.held = true ∧ v.nframes = s.nframes ∧ v.port < s.ports.next ∧
      v.port ∉ unregistered s.ports.calls) ∧
    (∀ v w, v ::ₘ {w} ≤ s.views → v.port = w.port → v.method.memory = w.method.memory →
      v.method.access = .shared ∧ w.method.access = .shared) ∧
    (∀ l t, step ports s l = some t → ∃ new, t.requests = s.requests ++ new ∧
      ∀ r ∈ new, r.port < s.ports.next ∧ r.port ∉ unregistered s.ports.calls) := by
  have hsafe := safe_run h
  refine ⟨?_, fun v w => hsafe.unaliased hsys, ?_⟩
  · intro v hv
    obtain ⟨hport, _, hnframes⟩ := hsafe.views v hv
    have hheld : s.ports.held = true := by
      cases hfree : s.ports.held with
      | true => rfl
      | false =>
        rw [hsafe.quiet hfree] at hv
        exact absurd hv (Multiset.notMem_zero v)
    exact ⟨hheld, hnframes, hsafe.live hport⟩
  · intro l t hstep
    obtain ⟨new, hnew, hall⟩ := requests_step hstep
    exact ⟨new, hnew, fun r hr => hsafe.live (hall r hr)⟩

section Panics

/-- What the documentation of a method asks of its port. -/
def Method.fits (r : Registered sys) : Method → Prop
  | .data _ => True
  | .audioInBuffer => r.mode = .input ∧ r.portType = .audio
  | .audioOutBuffer => r.mode = .output ∧ r.portType = .audio
  | .midiInBuffer => r.mode = .input ∧ r.portType = .midi
  | .midiOutBuffer => r.mode = .output ∧ r.portType = .midi

theorem accepts_iff (hsys : sys.Separate) (r : Registered sys) (m : Method) :
    m.accepts r = true ↔ m.fits r := by
  have hin := registerFlags_isInput hsys r.mode r.create
  have hout := registerFlags_isOutput hsys r.mode r.create
  cases m <;> simp [Method.accepts, Method.fits, Registered.flags, hin, hout]

/-- The guards of the two would be of one cell, and one of them mutable. -/
def Method.conflicts (m m' : Method) : Prop :=
  ∃ cell b b', m.guard = some (cell, b) ∧ m'.guard = some (cell, b') ∧
    ¬(b = .shared ∧ b' = .shared)

theorem grant_eq_none (h : Safe ports s) (port : JackPort) (m : Method) :
    s.grant port m = none ↔ ∃ v ∈ s.views + s.forgotten, v.port = port ∧ m.conflicts v.method := by
  simp only [State.grant]
  cases hguard : m.guard with
  | none => simp [Method.conflicts, hguard]
  | some guard =>
    obtain ⟨cell, b⟩ := guard
    have hgranted := BorrowFlags.tryBorrow_isSome (k := (port, cell)) (b := b) h.held
    rw [← Option.not_isSome_iff_eq_none, hgranted]
    simp only [State.guards, Multiset.mem_filterMap, not_forall]
    constructor
    · rintro ⟨b', ⟨v, hv, hheld⟩, hboth⟩
      obtain ⟨⟨cell', c⟩, hguard', heq⟩ := Option.map_eq_some_iff.mp hheld
      simp only [Prod.mk.injEq] at heq
      obtain ⟨⟨hport, rfl⟩, rfl⟩ := heq
      exact ⟨v, hv, hport, cell', b, c, hguard, hguard', hboth⟩
    · rintro ⟨v, hv, hport, cell', c, b', hsame, hguard', hboth⟩
      obtain ⟨rfl, rfl⟩ := Prod.mk.inj (Option.some.inj (hguard.symm.trans hsame))
      exact ⟨b', ⟨v, hv, by simp [View.held, hguard', hport]⟩, hboth⟩

theorem forgotten_step {l : Label} (hstep : step ports s l = some t) (v : View) :
    v ∈ t.forgotten ↔ v ∈ s.forgotten ∨ l = .forget v := by
  cases turn_of_step hstep with
  | main hlabel _ _ => simp [hlabel v]
  | forgot _ =>
    simp only [Multiset.mem_cons, Label.forget.injEq]
    tauto
  | _ => simp

theorem forgotten_run {ls : List Label} (h : run ports s ls = some t) (v : View) :
    v ∈ t.forgotten ↔ v ∈ s.forgotten ∨ .forget v ∈ ls := by
  induction ls generalizing s with
  | nil =>
    cases h
    simp
  | cons l ls ih =>
    obtain ⟨u, hu, hrest⟩ := Run.run_cons_some h
    rw [ih hrest, forgotten_step hu, List.mem_cons, or_assoc, eq_comm]

/-- A method panics exactly where its port is not of the documented kind, or where a
reference of the port is in conflict that is still alive or was ever forgotten. -/
theorem request_panics_iff (hsys : sys.Separate) {ls : List Label} (h : run ports init ls = some s)
    (port : JackPort) (method : Method) : s.request ports port method = .panic ↔
      ¬method.fits (ports port) ∨
        ∃ v, (v ∈ s.views ∨ .forget v ∈ ls) ∧ v.port = port ∧ method.conflicts v.method := by
  have hsafe := safe_run h
  have hconflict : s.grant port method = none ↔
      ∃ v, (v ∈ s.views ∨ .forget v ∈ ls) ∧ v.port = port ∧ method.conflicts v.method := by
    rw [grant_eq_none hsafe]
    have hforgotten : ∀ v, v ∈ s.forgotten ↔ Label.forget v ∈ ls := by
      intro v
      rw [forgotten_run h]
      simp [init]
    simp only [Multiset.mem_add, hforgotten]
  rw [← hconflict, ← accepts_iff hsys, Bool.not_eq_true]
  obtain ⟨hpanic, hwhy⟩ | ⟨cells, requests, hdone, haccepts, hgrant, _⟩ :=
    request_cases ports s port method
  · exact ⟨fun _ => hwhy, fun _ => hpanic⟩
  · simp [hdone, haccepts, hgrant]

end Panics

end Specs

/-- Audio outputs. -/
def outputs (_ : JackPort) : Registered .header := ⟨.output, ⟨0, rfl⟩, .audio⟩

/-- The buffer of a port is forgotten in one callback; in the next one the port is
unregistered while its data is borrowed. -/
def forgetRun : List Label :=
  [.call (.registerPorts [.created ⟨⟨7⟩⟩]), .main, .main, .main, .enter .process 64,
    .request 0 .audioOutBuffer, .forget ⟨0, .audioOutBuffer, 64⟩, .leave,
    .enter .process 64, .request 0 (.data .mutable), .call (.unregisterPorts [⟨⟨7⟩⟩]), .main,
    .main, .main]

theorem references_safe_forgetRun :
    ∃ s, run outputs init forgetRun = some s ∧ s.views = {⟨0, .data .mutable, 64⟩} ∧
      0 ∉ unregistered s.ports.calls := by
  have hmap : (run outputs init forgetRun).map State.views =
      some {⟨0, .data .mutable, 64⟩} := rfl
  obtain ⟨s, hrun, hviews⟩ := Option.map_eq_some_iff.mp hmap
  obtain ⟨hall, _, _⟩ := references_safe JackPortFlags.separate_header hrun
  exact ⟨s, hrun, hviews, (hall ⟨0, .data .mutable, 64⟩ (by simp [hviews])).2.2.2⟩

theorem request_panics_forgetRun :
    ∃ s, run outputs init forgetRun = some s ∧
      s.request outputs 0 .audioOutBuffer = .panic ∧ s.request outputs 0 .audioInBuffer = .panic := by
  have hmap : (run outputs init forgetRun).map (fun _ => ()) = some () := rfl
  obtain ⟨s, hrun, _⟩ := Option.map_eq_some_iff.mp hmap
  refine ⟨s, hrun, ?_, ?_⟩
  · refine (request_panics_iff JackPortFlags.separate_header hrun 0 _).mpr (Or.inr ?_)
    refine ⟨⟨0, .audioOutBuffer, 64⟩, Or.inr (by decide), rfl, .bufferLock, .mutable, .mutable, ?_⟩
    simp [Method.guard]
  · refine (request_panics_iff JackPortFlags.separate_header hrun 0 _).mpr (Or.inl ?_)
    simp [Method.fits, outputs]

end Jack2.ProcessScope
