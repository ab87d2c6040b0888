import Jack2.Calls
import Jack2.Simulation

/-!
# The port map as an atomic object

What the two threads can see of the port maps: when the calls of `register_ports` and
`unregister_ports` begin and return, when a callback begins and ends, and what the lookups
of `Client` and of `ProcessScope` answer. The object that the maps implement is a list of
calls, each performed at one instant between its beginning and its return; a lookup
answers from the calls performed one after another. The instant is the swap of the buffers.
-/
namespace Jack2.Ports

/-- The steps of the machine, and the lookups between them: `Client::port_by_owned_uuid` on
the main thread, `port_by_owned_uuid` and `ports` of the scope of a running callback. -/
inductive Action where
  | step (l : Label)
  | portByOwnedUuid (port : OwnedPortUuid)
  | scopePortByOwnedUuid (port : OwnedPortUuid)
  | scopePorts
  deriving DecidableEq, Repr

/-- What can be seen. The order in which a scope lists its ports is unspecified. -/
inductive Observation where
  | called (op : Op)
  | returned
  | entered
  | left
  | found (port : OwnedPortUuid) (result : Option JackPort)
  | scopeFound (port : OwnedPortUuid) (result : Option JackPort)
  | scopeListed (ports : Multiset (Σ _ : OwnedPortUuid, JackPort))

open Observation

namespace State

/-- `Client::port_by_owned_uuid`: a handle is never null, so `Port::new` gives a port. -/
def portByOwnedUuid (s : State) (port : OwnedPortUuid) : Option JackPort := s.ports.lookup port

/-- `ProcessScope::port_by_owned_uuid` -/
def scopePortByOwnedUuid (s : State) (port : OwnedPortUuid) : Option JackPort :=
  s.processPorts.front.lookup port

/-- `ProcessScope::ports` -/
def scopePorts (s : State) : Multiset (Σ _ : OwnedPortUuid, JackPort) :=
  s.processPorts.front.entries

end State

/-- The calls that return at once show both their ends, and ticks show nothing. -/
def callSeen : Op → List Observation
  | .tick => []
  | .registerPorts [] => [called (.registerPorts []), returned]
  | .unregisterPorts [] => [called (.unregisterPorts []), returned]
  | op => [called op]

/-- The statement of the main thread that ends a call shows its return. -/
def mainSeen (s : State) : List Observation :=
  match s.pc with
  | .registered | .spawning => [returned]
  | .scheduling => if s.pendingPortGc then [returned] else []
  | _ => []

def actionStep (s : State) : Action → Option State
  | .step l => step s l
  | .portByOwnedUuid _ => if s.pc = .idle then some s else none
  | .scopePortByOwnedUuid _ => if s.held then some s else none
  | .scopePorts => if s.held then some s else none

def actionSeen (s : State) : Action → List Observation
  | .step (.call op) => callSeen op
  | .step .main => mainSeen s
  | .step (.acquire _) => [entered]
  | .step .release => [left]
  | .portByOwnedUuid port => [found port (s.portByOwnedUuid port)]
  | .scopePortByOwnedUuid port => [scopeFound port (s.scopePortByOwnedUuid port)]
  | .scopePorts => [scopeListed s.scopePorts]

/-- The port maps as they are seen. -/
def portMaps : Machine State Action Observation := ⟨actionStep, actionSeen⟩

section Sequential

/-- One item of a registration: libjack numbers the ports that it creates. -/
def registerOne (m : PortMap × JackPort) : Item → PortMap × JackPort
  | .created uuid => (m.1.insert uuid m.2, m.2 + 1)
  | _ => m

def registerAll (m : PortMap × JackPort) (items : List Item) : PortMap × JackPort :=
  items.foldl registerOne m

/-- A whole call, at one instant. -/
def perform (m : PortMap × JackPort) : Op → PortMap × JackPort
  | .registerPorts items => registerAll m items
  | .unregisterPorts ports => (eraseAll m.1 ports, m.2)
  | .tick => m

/-- The ports after calls made one after another, and the number of the next one. -/
def replay (ops : List Op) : PortMap × JackPort := ops.foldl perform (∅, 0)

@[simp] theorem registerAll_nil (m : PortMap × JackPort) : registerAll m [] = m := rfl
@[simp] theorem registerAll_cons (m : PortMap × JackPort) (item : Item) (items : List Item) :
    registerAll m (item :: items) = registerAll (registerOne m item) items := rfl
@[simp] theorem replay_nil : replay [] = (∅, 0) := rfl
@[simp] theorem replay_snoc (ops : List Op) (op : Op) :
    replay (ops ++ [op]) = perform (replay ops) op := by
  simp [replay]

end Sequential

/-- Where the main thread is in its call. -/
inductive Status where
  | idle
  | invoked (op : Op)
  | performed
  deriving DecidableEq, Repr

/-- The atomic object: the calls performed so far, and those that the running callback sees. -/
structure Object where
  performed : List Op
  status : Status
  view : Option (List Op)
  deriving DecidableEq, Repr

namespace Object

inductive Label where
  | call (op : Op)
  | perform
  | ret
  | enter
  | leave
  | portByOwnedUuid (port : OwnedPortUuid)
  | scopePortByOwnedUuid (port : OwnedPortUuid)
  | scopePorts
  deriving DecidableEq, Repr

def init : Object := ⟨[], .idle, none⟩

/-- What the running callback sees is fixed when it begins. -/
def step (t : Object) : Label → Option Object
  | .call op =>
    if t.status = .idle ∧ op ≠ .tick then some { t with status := .invoked op } else none
  | .perform =>
    match t.status with
    | .invoked op => some { t with performed := t.performed ++ [op], status := .performed }
    | _ => none
  | .ret => if t.status = .performed then some { t with status := .idle } else none
  | .enter => if t.view = none then some { t with view := some t.performed } else none
  | .leave => if t.view = none then none else some { t with view := none }
  | .portByOwnedUuid _ => if t.status = .idle then some t else none
  | .scopePortByOwnedUuid _ => if t.view = none then none else some t
  | .scopePorts => if t.view = none then none else some t

/-- The ports that the running callback sees. -/
def seen (t : Object) : PortMap := (replay (t.view.getD [])).1

def out (t : Object) : Label → List Observation
  | .call op => [called op]
  | .perform => []
  | .ret => [returned]
  | .enter => [entered]
  | .leave => [left]
  | .portByOwnedUuid port => [found port ((replay t.performed).1.lookup port)]
  | .scopePortByOwnedUuid port => [scopeFound port (t.seen.lookup port)]
  | .scopePorts => [scopeListed t.seen.entries]

end Object

/-- The object that the port maps implement. -/
def portObject : Machine Object Object.Label Observation := ⟨Object.step, Object.out⟩

/-- The ports as the running call will leave them, the object as it stands. -/
def Due (s : State) (t : Object) : Prop :=
  match s.pc with
  | .registering items =>
    ∃ op, t.status = .invoked op ∧
      registerAll (s.ports, s.next) items = perform (replay t.performed) op
  | .unregistering ports =>
    ∃ op, t.status = .invoked op ∧
      (eraseAll s.ports ports, s.next) = perform (replay t.performed) op
  | .registered | .unregistered =>
    ∃ op, t.status = .invoked op ∧ (s.ports, s.next) = perform (replay t.performed) op
  | .scheduling | .spawning => t.status = .performed ∧ (s.ports, s.next) = replay t.performed
  | _ => t.status = .idle ∧ (s.ports, s.next) = replay t.performed

/-- The map last published is that of the calls performed, and the front buffer of a
callback is that of the calls performed when it began. -/
structure Implements (s : State) (t : Object) : Prop where
  aligned : Aligned s
  latest : s.processPorts.latest = (replay t.performed).1
  view : if s.held then ∃ ops, t.view = some ops ∧ s.processPorts.front = (replay ops).1
    else t.view = none
  due : Due s t

theorem implements_init : Implements init Object.init where
  aligned := aligned_init
  latest := rfl
  view := rfl
  due := ⟨rfl, rfl⟩

section Steps

variable {s s' : State} {t u : Object}

/-- The object takes no step, and nothing is seen. -/
theorem matched_silent (h : Implements s' t) :
    ∃ ls t', portObject.exec t ls = some (t', []) ∧ Implements s' t' :=
  ⟨[], t, rfl, h⟩

theorem matched_step {l : Object.Label} (hstep : t.step l = some u) (h : Implements s' u) :
    ∃ ls t', portObject.exec t ls = some (t', t.out l) ∧ Implements s' t' :=
  ⟨[l], u, Machine.exec_single (m := portObject) hstep, h⟩

/-- A call is performed, and nothing is seen of it. -/
theorem object_perform {op : Op} (h : t.status = .invoked op) :
    portObject.exec t [.perform] =
      some ({ t with performed := t.performed ++ [op], status := .performed }, []) := by
  simp [Machine.exec, portObject, Object.step, Object.out, h]

theorem object_return (h : t.status = .performed) :
    portObject.exec t [.ret] = some ({ t with status := .idle }, [returned]) := by
  simp [Machine.exec, portObject, Object.step, Object.out, h]

theorem object_call {op : Op} (h : t.status = .idle) (hop : op ≠ .tick) :
    portObject.exec t [.call op] = some ({ t with status := .invoked op }, [called op]) := by
  simp [Machine.exec, portObject, Object.step, Object.out, h, hop]

/-- A call that does nothing is performed as soon as it is made. -/
theorem matched_empty {op : Op} (hpc : s.pc = .idle) (h : Implements s t) (hop : op ≠ .tick)
    (hnothing : ∀ m, perform m op = m) :
    ∃ ls t', portObject.exec t ls = some (t', [called op, returned]) ∧ Implements s t' := by
  obtain ⟨ha, hlatest, hview, hdue⟩ := h
  simp only [Due, hpc] at hdue
  have hcall := object_call hdue.1 hop
  have hperform := object_perform (t := { t with status := .invoked op }) rfl
  have hreturn := object_return
    (t := { t with performed := t.performed ++ [op], status := .performed }) rfl
  refine ⟨_, _, Machine.exec_append (Machine.exec_append hcall hperform) hreturn, ha, ?_, hview, ?_⟩
  · simpa [hnothing] using hlatest
  · simpa [Due, hpc, hnothing] using hdue.2

/-- The swap of the buffers performs the call, and `register_ports` returns with it. -/
theorem matched_swap_return (hpc : s.pc = .registered) (h : Implements s t)
    (hal : Aligned { s.swap with pc := .idle }) :
    ∃ ls t', portObject.exec t ls = some (t', [returned]) ∧
      Implements { s.swap with pc := .idle } t' := by
  obtain ⟨ha, hlatest, hview, hdue⟩ := h
  simp only [Due, hpc] at hdue
  simp only [Aligned, hpc] at ha
  obtain ⟨op, hstatus, hperformed⟩ := hdue
  have hreturn := object_return
    (t := { t with performed := t.performed ++ [op], status := .performed }) rfl
  refine ⟨_, _, Machine.exec_append (object_perform hstatus) hreturn, hal, ?_, hview, rfl, ?_⟩
  · simp [← hperformed, ha]
  · simpa using hperformed

theorem matched_swap (hpc : s.pc = .unregistered) (h : Implements s t)
    (hal : Aligned { s.swap with pc := .scheduling }) :
    ∃ ls t', portObject.exec t ls = some (t', []) ∧
      Implements { s.swap with pc := .scheduling } t' := by
  obtain ⟨ha, hlatest, hview, hdue⟩ := h
  simp only [Due, hpc] at hdue
  simp only [Aligned, hpc] at ha
  obtain ⟨op, hstatus, hperformed⟩ := hdue
  refine ⟨_, _, object_perform hstatus, hal, ?_, hview, rfl, ?_⟩
  · simp [← hperformed, ha]
  · simpa using hperformed

end Steps

theorem matched_call {s s' : State} {t : Object} {op : Op} (h : Implements s t)
    (hal : Aligned s') (hstep : Step s (.call op) s') :
    ∃ ls t', portObject.exec t ls = some (t', callSeen op) ∧ Implements s' t' := by
  have hdue := h.due
  cases hstep with
  | registerNone hpc => exact matched_empty hpc h (by simp) fun _ => rfl
  | unregisterNone hpc => exact matched_empty hpc h (by simp) fun _ => rfl
  | register hpc item items =>
    simp only [Due, hpc] at hdue
    refine ⟨_, _, object_call hdue.1 (by simp), hal, h.latest, h.view, _, rfl, ?_⟩
    rw [← hdue.2]
    rfl
  | unregister hpc port ports =>
    simp only [Due, hpc] at hdue
    refine ⟨_, _, object_call hdue.1 (by simp), hal, h.latest, h.view, _, rfl, ?_⟩
    rw [← hdue.2]
    rfl
  | tick hpc hlive =>
    simp only [Due, hpc] at hdue
    exact matched_silent ⟨hal, h.latest, h.view, hdue⟩

theorem matched_main {s s' : State} {t : Object} (h : Implements s t)
    (hal : Aligned s') (hstep : Step s .main s') :
    ∃ ls t', portObject.exec t ls = some (t', mainSeen s) ∧ Implements s' t' := by
  have hdue := h.due
  cases hstep with
  | swapRegistered hpc =>
    rw [mainSeen, hpc]
    exact matched_swap_return hpc h hal
  | swapUnregistered hpc =>
    rw [mainSeen, hpc]
    exact matched_swap hpc h hal
  | alreadyScheduled hpc hgc =>
    simp only [Due, hpc] at hdue
    simp only [mainSeen, hpc, hgc, if_true]
    exact ⟨_, _, object_return hdue.1, hal, h.latest, h.view, rfl, hdue.2⟩
  | spawn hpc =>
    simp only [Due, hpc] at hdue
    simp only [mainSeen, hpc]
    exact ⟨_, _, object_return hdue.1, hal, h.latest, h.view, rfl, hdue.2⟩
  | clearPending hpc =>
    have hstale := h.aligned
    simp only [Due, hpc] at hdue
    simp only [Aligned, hpc] at hstale
    simp only [mainSeen, hpc]
    refine matched_silent ⟨hal, ?_, h.view, hdue⟩
    simp [TripleBuffer.latest_setPending hstale.2, h.latest]
  | schedule hpc hgc =>
    simp only [Due, hpc] at hdue
    simp only [mainSeen, hpc, hgc]
    exact matched_silent ⟨hal, h.latest, h.view, hdue⟩
  | itemNul items hpc | itemRefused items hpc =>
    simp only [Due, hpc] at hdue
    simp only [mainSeen, hpc]
    exact matched_silent ⟨hal, h.latest, h.view, hdue⟩
  | itemCreated uuid items hpc hnew =>
    simp only [Due, hpc] at hdue
    simp only [mainSeen, hpc]
    exact matched_silent ⟨hal, h.latest, h.view, hdue⟩
  | remove port ports hpc =>
    simp only [Due, hpc] at hdue
    simp only [mainSeen, hpc]
    exact matched_silent ⟨hal, h.latest, h.view, hdue⟩
  -- the other statements change nothing that can be seen
  | _ hpc =>
    simp only [Due, hpc] at hdue
    simp only [mainSeen, hpc]
    exact matched_silent ⟨hal, h.latest, h.view, hdue⟩

theorem matched_acquire {s : State} {t : Object} (h : Implements s t) (hfree : s.held = false)
    (hal : Aligned { s with processPorts := s.processPorts.frontBuffer, held := true }) :
    ∃ ls t', portObject.exec t ls = some (t', [entered]) ∧
      Implements { s with processPorts := s.processPorts.frontBuffer, held := true } t' := by
  obtain ⟨ha, hlatest, hview, hdue⟩ := h
  simp only [hfree, Bool.false_eq_true, if_false] at hview
  apply matched_step (l := .enter) (u := { t with view := some t.performed })
  · simp [Object.step, hview]
  · refine ⟨hal, ?_, ?_, hdue⟩
    · simpa using hlatest
    · simpa using hlatest

theorem matched_release {s : State} {t : Object} (h : Implements s t) (hheld : s.held = true)
    (hal : Aligned { s with held := false }) :
    ∃ ls t', portObject.exec t ls = some (t', [left]) ∧ Implements { s with held := false } t' := by
  obtain ⟨ha, hlatest, hview, hdue⟩ := h
  simp only [hheld, if_true] at hview
  obtain ⟨ops, hops, _⟩ := hview
  apply matched_step (l := .leave) (u := { t with view := none })
  · simp [Object.step, hops]
  · exact ⟨hal, hlatest, rfl, hdue⟩

/-- A running callback has the map of the calls that it sees. -/
theorem Implements.front {s : State} {t : Object} (h : Implements s t) (hheld : s.held = true) :
    t.view ≠ none ∧ s.processPorts.front = t.seen := by
  have hview := h.view
  simp only [hheld, if_true] at hview
  obtain ⟨ops, hops, hfront⟩ := hview
  simp [hops, hfront, Object.seen]

/-- Between two calls `Client.ports` is what the calls performed leave. -/
theorem Implements.ports {s : State} {t : Object} (h : Implements s t) (hpc : s.pc = .idle) :
    t.status = .idle ∧ s.ports = (replay t.performed).1 := by
  have hdue := h.due
  simp only [Due, hpc] at hdue
  exact ⟨hdue.1, by rw [← hdue.2]⟩

/-- Each step of the port maps is matched by the atomic object. -/
theorem portMaps_simulates : portMaps.Simulates portObject Implements := by
  intro s t a s' h hstep
  cases a with
  | step l =>
    have hcases := step_cases hstep
    have hal := aligned_step h.aligned hcases
    cases l with
    | call op => exact matched_call h hal hcases
    | main => exact matched_main h hal hcases
    | acquire callback =>
      cases hcases with
      | acquire _ hfree => exact matched_acquire h hfree hal
    | release =>
      cases hcases with
      | release hheld => exact matched_release h hheld hal
  | portByOwnedUuid port =>
    simp only [portMaps, actionStep, Option.ite_none_right_eq_some, Option.some.injEq] at hstep
    obtain ⟨hpc, rfl⟩ := hstep
    obtain ⟨hstatus, hports⟩ := h.ports hpc
    have hsame : portMaps.out s (.portByOwnedUuid port) = t.out (.portByOwnedUuid port) := by
      simp [portMaps, actionSeen, State.portByOwnedUuid, Object.out, hports]
    rw [hsame]
    exact matched_step (by simp [Object.step, hstatus]) h
  | scopePortByOwnedUuid port =>
    simp only [portMaps, actionStep, Option.ite_none_right_eq_some, Option.some.injEq] at hstep
    obtain ⟨hheld, rfl⟩ := hstep
    obtain ⟨hview, hfront⟩ := h.front hheld
    have hsame : portMaps.out s (.scopePortByOwnedUuid port) =
        t.out (.scopePortByOwnedUuid port) := by
      simp [portMaps, actionSeen, State.scopePortByOwnedUuid, Object.out, hfront]
    rw [hsame]
    exact matched_step (by simp [Object.step, hview]) h
  | scopePorts =>
    simp only [portMaps, actionStep, Option.ite_none_right_eq_some, Option.some.injEq] at hstep
    obtain ⟨hheld, rfl⟩ := hstep
    obtain ⟨hview, hfront⟩ := h.front hheld
    have hsame : portMaps.out s .scopePorts = t.out .scopePorts := by
      simp [portMaps, actionSeen, State.scopePorts, Object.out, hfront]
    rw [hsame]
    exact matched_step (by simp [Object.step, hview]) h

/-- Whatever can be seen of a run of the port maps, the atomic object could have shown. -/
theorem portMaps_linearizable {as : List Action} {s : State} {tr : List Observation}
    (h : portMaps.exec init as = some (s, tr)) :
    ∃ ls t, portObject.exec Object.init ls = some (t, tr) ∧ Implements s t :=
  portMaps_simulates.exec implements_init h

/-- A port is registered and looked up; then it is being unregistered when a callback begins,
and the callback still finds it. -/
def lookupRun : List Action :=
  [.step (.call (.registerPorts [.created ⟨⟨7⟩⟩, .refused])), .step .main, .step .main,
    .step .main, .step .main, .portByOwnedUuid ⟨⟨7⟩⟩,
    .step (.call (.unregisterPorts [⟨⟨7⟩⟩])), .step .main, .step (.acquire .process),
    .scopePortByOwnedUuid ⟨⟨7⟩⟩]

def lookupsSeen : List Observation :=
  [called (.registerPorts [.created ⟨⟨7⟩⟩, .refused]), returned, found ⟨⟨7⟩⟩ (some 0),
    called (.unregisterPorts [⟨⟨7⟩⟩]), entered, scopeFound ⟨⟨7⟩⟩ (some 0)]

theorem lookupRun_seen : ∃ s, portMaps.exec init lookupRun = some (s, lookupsSeen) := by
  have hmap : (portMaps.exec init lookupRun).map Prod.snd = some lookupsSeen := rfl
  obtain ⟨⟨s, tr⟩, hrun, rfl⟩ := Option.map_eq_some_iff.mp hmap
  exact ⟨s, hrun⟩

theorem portMaps_linearizable_lookupRun :
    ∃ s ls t, portMaps.exec init lookupRun = some (s, lookupsSeen) ∧
      portObject.exec Object.init ls = some (t, lookupsSeen) ∧ Implements s t := by
  obtain ⟨s, hrun⟩ := lookupRun_seen
  obtain ⟨ls, t, hobject, himplements⟩ := portMaps_linearizable hrun
  exact ⟨s, ls, t, hrun, hobject, himplements⟩

end Jack2.Ports
