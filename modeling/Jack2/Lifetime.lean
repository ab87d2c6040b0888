import Jack2.Collection
import Jack2.Session

/-!
# A client from its opening to its drop

The ports, their collector and the callbacks run beside the activations of one client, and
its value is dropped in whatever phase it is. `Drop for Client` closes the client in its
body; the fields, and with them the handles of `ports` and of the triple buffer, are
dropped only after the body, and the process data only after the whole `Client`.
-/
namespace Jack2.Lifetime

open Ports (handles unregistered Owned)
open Session (Phase)

variable {P N : Type*}

structure State (P N : Type*) where
  ports : Ports.State
  session : Session.State P N
  /-- The strong count of the triple buffer. -/
  arcs : ℕ
  dropped : Bool

inductive Label (P N : Type*) where
  | ports (l : Ports.Label)
  | session (l : Session.Label P N)
  | drop

def init (client : Client) : State P N := ⟨Ports.init, Session.init client, 1, false⟩

/-- The calls of an operation, in order. -/
def callsOf (trace : List Event) : List (Thread × Call) :=
  trace.filterMap fun
    | .call _ c _ => some (.main, c)
    | .spawn => none

/-- Drop one `Arc` of the triple buffer, and with the last one its three maps. -/
def State.dropArc (s : State P N) : State P N :=
  if s.arcs = 1 then
    { s with
      arcs := 0
      ports := { s.ports with processPorts := .initial ∅ }.dropHandles .main
        (handles s.ports.processPorts.front ++ handles s.ports.processPorts.pending ++
          handles s.ports.processPorts.back) }
  else { s with arcs := s.arcs - 1 }

/-- Drop a `Client`: the body of its destructor, then the fields that own something. -/
def State.dropClient (s : State P N) : State P N :=
  let s := { s with ports := s.ports.log .main .clientClose }
  let s := { s with
    ports := { s.ports with ports := ∅ }.dropHandles .main (handles s.ports.ports) }
  s.dropArc

def holdsArc : Phase P N → Bool
  | .active client => client.processData.isSome
  | _ => false

/-- Drop the value that the user holds. The process data of an `ActiveClient` comes after
its `client` field. -/
def State.drop (s : State P N) : State P N :=
  let t := s.dropClient
  let t := if holdsArc s.session.phase then t.dropArc else t
  { t with dropped := true }

/-- The process data of a new activation holds an `Arc`; that of a deactivated client is freed. -/
def State.setSession (s : State P N) (session : Session.State P N) : State P N :=
  let t := { s with
    session := session
    ports := { s.ports with calls := s.ports.calls ++ callsOf session.world.trace } }
  match holdsArc s.session.phase, holdsArc session.phase with
  | false, true => { t with arcs := t.arcs + 1 }
  | true, false => t.dropArc
  | _, _ => t

/-- Every operation records its calls anew. -/
def fresh (s : Session.State P N) : Session.State P N :=
  { s with world := { s.world with trace := [] } }

/-- `jack_client_close` returns once no callback runs. After the drop only the collector is
left; its next tick cannot upgrade its `Weak` and ends the task. -/
def step (s : State P N) (l : Label P N) : Option (State P N) :=
  match s.dropped, l with
  | false, .ports l => (Ports.step s.ports l).map fun p => { s with ports := p }
  | false, .session l =>
    if s.ports.pc = .idle then (Session.step (fresh s.session) l).map s.setSession else none
  | false, .drop => if s.ports.pc = .idle ∧ s.ports.held = false then some s.drop else none
  | true, .ports (.call .tick) =>
    if s.ports.collectors = 0 then none
    else some { s with ports := { s.ports with collectors := s.ports.collectors - 1 } }
  | true, _ => none

abbrev run : State P N → List (Label P N) → Option (State P N) := Run.run step

/-- No call follows the closing of the client. -/
def ClosedLast (s : State P N) : Prop :=
  ∀ before after, s.ports.calls.map Prod.snd = before ++ Call.clientClose :: after → after = []

/-- The condition on one step: the client is dropped with no port handle left, neither in
`Client.ports` nor in a slot. -/
def DroppedEmpty (s : State P N) (l : Label P N) : Prop :=
  match l with
  | .drop => s.ports.holds = 0
  | _ => True

section Calls

variable {σ : Type*}

/-- The calls that activation, deactivation and the sync and timebase methods make. -/
def sessionCall : Call → Bool
  | .set _ _ | .setTimebase _ _ | .releaseTimebase | .activate | .deactivate => true
  | _ => false

/-- Nothing but such calls is on record. -/
def Recorded (w : World σ) : Prop :=
  ∀ client c ret, Event.call client c ret ∈ w.trace → sessionCall c = true

theorem sessionCall_of_kind {c : Call} (h : c.kind.isSome = true) : sessionCall c = true := by
  cases c <;> first | rfl | cases h

theorem recorded_call (lib : Libjack σ) {w : World σ} (h : Recorded w) (client : JackClient)
    {c : Call} (hc : sessionCall c = true) : Recorded (w.call lib client c).2 := by
  intro client' c' ret' hmem
  rcases List.mem_append.mp hmem with hmem | hmem
  · exact h client' c' ret' hmem
  · rw [List.mem_singleton, Event.call.injEq] at hmem
    rw [hmem.2.1]
    exact hc

theorem recorded_checkedCalls (lib : Libjack σ) {w : World σ} (h : Recorded w)
    (client : JackClient) {cs : List Call} (hcs : ∀ c ∈ cs, sessionCall c = true) :
    Recorded (checkedCalls lib client cs w).2 := by
  have hkeep : ∀ c ∈ cs, ∀ v : World σ, Recorded v → Recorded (v.call lib client c).2 :=
    fun c hc _ hv => recorded_call lib hv client (hcs c hc)
  exact Checked.exec_invariant hkeep h

theorem recorded_spawn {w : World σ} (h : Recorded w) : Recorded w.spawn := by
  intro client c ret hmem
  rcases List.mem_append.mp hmem with hmem | hmem
  · exact h client c ret hmem
  · cases List.mem_singleton.mp hmem

theorem recorded_activate (lib : Libjack σ) {w : World σ} (h : Recorded w)
    (self : InactiveClient) (processHandler : Option P) (notificationHandler : Option N)
    (flags : ActivateFlags) :
    Recorded (activate lib self processHandler notificationHandler flags w).2 := by
  have hsetters := recorded_checkedCalls lib h self.client.client
    (fun c (hc : c ∈ settersOf processHandler notificationHandler flags w) =>
      sessionCall_of_kind (setters_kind_isSome _ _ _ c hc))
  rcases hr : checkedCalls lib self.client.client
    (settersOf processHandler notificationHandler flags w) w with ⟨e | u, v⟩
  · rw [hr] at hsetters
    obtain ⟨heap, _, _, hact⟩ := activate_error hr
    rw [hact]
    have hundo : Recorded (undo lib self.client flags v) := by
      simp only [undo]
      split
      · exact recorded_call lib (recorded_call lib hsetters _ rfl) _ rfl
      · exact recorded_call lib hsetters _ rfl
    exact hundo
  · rw [hr] at hsetters
    rw [activate_ok hr]
    have hcall := recorded_call lib hsetters self.client.client (c := .activate) rfl
    cases notificationHandler with
    | none => exact hcall
    | some handler => exact recorded_spawn hcall

theorem recorded_freeBox {w : World σ} (h : Recorded w) (p : Option BoxPtr) :
    Recorded (freeBox p w) := by
  cases p <;> exact h

theorem recorded_deactivate (lib : Libjack σ) {w : World σ} (h : Recorded w)
    (self : ActiveClient P N) : Recorded (self.deactivate lib w).2 := by
  have hrelease := recorded_call lib h self.client.client (c := .releaseTimebase) rfl
  have hcalls := recorded_call lib hrelease self.client.client (c := .deactivate) rfl
  simp only [ActiveClient.deactivate, ActiveClient._deactivate]
  cases checkRet (((w.call lib self.client.client .releaseTimebase).2.call lib
    self.client.client .deactivate).1) with
  | error e => exact hcalls
  | ok _ => exact recorded_freeBox (recorded_freeBox hcalls _) _

theorem recorded_step {s t : Session.State P N} {l : Session.Label P N}
    (h : Session.step (fresh s) l = some t) : Recorded t.world := by
  have hnone : Recorded (fresh s).world := fun _ _ _ hmem => absurd hmem List.not_mem_nil
  obtain ⟨op, answers⟩ := l
  cases hphase : s.phase with
  | deactivated client => simp [Session.step, fresh, hphase] at h
  | inactive client =>
    cases op with
    | activate processHandler notificationHandler flags =>
      have hact := recorded_activate (tableJack answers) hnone client processHandler
        notificationHandler flags
      have hfresh : (fresh s).phase = .inactive client := hphase
      simp only [Session.step, hfresh] at h
      split at h
      · rename_i a w heq
        rw [heq] at hact
        cases h
        exact hact
      · rename_i e w heq
        rw [heq] at hact
        cases h
        exact hact
    | _ => simp [Session.step, fresh, hphase] at h
  | active client =>
    have hfresh : (fresh s).phase = .active client := hphase
    cases op with
    | activate processHandler notificationHandler flags => simp [Session.step, hfresh] at h
    | deactivate =>
      have hdeact := recorded_deactivate (tableJack answers) hnone client
      simp only [Session.step, hfresh] at h
      split at h
      · rename_i a p n w heq
        rw [heq] at hdeact
        cases h
        exact hdeact
      · rename_i e w heq
        rw [heq] at hdeact
        cases h
        exact hdeact
    | registerSyncCallback =>
      simp only [Session.step, hfresh] at h
      cases h
      simp only [ActiveClient.registerSyncCallback]
      split
      · exact recorded_checkedCalls _ hnone _ (by simp [setCall, sessionCall])
      · exact hnone
    | unregisterSyncCallback =>
      simp only [Session.step, hfresh] at h
      cases h
      exact recorded_checkedCalls _ hnone _ (by simp [setCall, sessionCall])
    | acquireTimebase force =>
      simp only [Session.step, hfresh] at h
      cases h
      simp only [ActiveClient.acquireTimebase]
      split
      · exact recorded_checkedCalls _ hnone _ (by simp [sessionCall])
      · exact hnone
    | releaseTimebase =>
      simp only [Session.step, hfresh] at h
      cases h
      exact recorded_call _ hnone _ rfl

end Calls

/-- What a drop does to the ports: the client is closed, then every map is dropped. -/
def dropAll (p : Ports.State) : Ports.State :=
  let q := { p.log .main .clientClose with ports := ∅ }.dropHandles .main (handles p.ports)
  { q with processPorts := .initial ∅ }.dropHandles .main
    (handles p.processPorts.front ++ handles p.processPorts.pending ++
      handles p.processPorts.back)

theorem drop_ports {s : State P N}
    (h : s.arcs = if holdsArc s.session.phase = true then 2 else 1) :
    s.drop.ports = dropAll s.ports := by
  by_cases hheld : holdsArc s.session.phase = true
  · simp [State.drop, State.dropClient, State.dropArc, h, hheld, dropAll]
  · simp [State.drop, State.dropClient, State.dropArc, h, hheld, dropAll]

theorem owned_dropAll {p : Ports.State} (h : Owned p p.holds) : Owned (dropAll p) 0 := by
  have hclose := Ports.owned_log (c := .clientClose) h .main (by simp)
  have hmap : Owned ({ p.log .main .clientClose with ports := ∅ }.dropHandles .main
      (handles p.ports)) p.slots := by
    refine Ports.owned_dropHandles (s := { p.log .main .clientClose with ports := ∅ })
      (hclose.congr rfl rfl rfl ?_)
    rfl
  refine Ports.owned_dropHandles (s := { ({ p.log .main .clientClose with ports := ∅ }.dropHandles .main
    (handles p.ports)) with processPorts := .initial ∅ }) (hmap.congr rfl rfl rfl ?_)
  simp only [Ports.State.slots, TripleBuffer.total, ← Multiset.coe_add, Multiset.add_zero]

/-- The ports that a drop unregisters, after the client was closed. -/
def unregisteredLate (p : Ports.State) : List JackPort :=
  (Shared.drop p.counts (handles p.ports)).2 ++
    (Shared.drop (Shared.drop p.counts (handles p.ports)).1
      (handles p.processPorts.front ++ handles p.processPorts.pending ++
        handles p.processPorts.back)).2

theorem dropAll_calls (p : Ports.State) : (dropAll p).calls =
    p.calls ++ (Thread.main, Call.clientClose) ::
      (unregisteredLate p).map fun q => (Thread.main, Call.portUnregister q) := by
  simp [dropAll, unregisteredLate, Ports.State.dropHandles, Ports.State.log]

/-- Every port that still has a handle is unregistered too late. -/
theorem unregisteredLate_eq_nil {p : Ports.State} (h : Owned p p.holds) :
    unregisteredLate p = [] ↔ p.holds = 0 := by
  constructor
  · intro hnil
    refine Multiset.eq_zero_of_forall_notMem fun q hq => ?_
    have hafter := owned_dropAll h
    have hbound : q < (dropAll p).next := h.bound q hq
    have hlate : q ∈ unregistered (dropAll p).calls := by
      rw [hafter.collected.dead_iff]
      exact ⟨hbound, (Shared.counted_eq_zero hafter.counted).mpr (Multiset.notMem_zero q)⟩
    have hbefore : q ∉ unregistered p.calls := by
      rw [h.collected.dead_iff]
      rintro ⟨_, hzero⟩
      exact (Shared.counted_eq_zero h.counted).mp hzero hq
    rw [dropAll_calls, hnil, Ports.unregistered_append] at hlate
    simp only [List.map_nil, unregistered, List.filterMap_cons, List.filterMap_nil,
      List.append_nil] at hlate
    exact hbefore hlate
  · intro hzero
    have hports : handles p.ports = [] := by
      rw [← Multiset.coe_eq_zero]
      exact Multiset.le_zero.mp (hzero ▸ Multiset.le_add_right _ _)
    have hslots : p.slots = 0 := by
      rw [Ports.State.holds, hports] at hzero
      simpa using hzero
    simp only [Ports.State.slots, TripleBuffer.total, Multiset.coe_add, Multiset.coe_eq_zero]
      at hslots
    simp [unregisteredLate, hports, hslots]

/-- What holds of the ports and the closing before and after the drop. -/
structure Inv (s : State P N) : Prop where
  owned : s.dropped = false → Owned s.ports s.ports.holds
  opened : s.dropped = false → ∀ c ∈ s.ports.calls, c.2 ≠ .clientClose
  arcs : s.dropped = false → s.arcs = if holdsArc s.session.phase = true then 2 else 1

theorem inv_init (client : Client) : Inv (init client : State P N) where
  owned := fun _ => Ports.owned_init
  opened := fun _ => by simp [init, Ports.init]
  arcs := fun _ => rfl

theorem inv_dropped {s : State P N} (h : s.dropped = true) : Inv s := by
  constructor <;> simp [h]

theorem inv_ports {s : State P N} (h : Inv s) (hopen : s.dropped = false) {l : Ports.Label}
    {p : Ports.State} (hstep : Ports.Step s.ports l p) : Inv { s with ports := p } where
  owned := fun _ => Ports.owned_step (h.owned hopen) hstep
  opened := by
    obtain ⟨cs, hcs, hcalls, _⟩ := Ports.calls_step hstep
    intro _ c hc
    simp only [hcalls] at hc
    rcases List.mem_append.mp hc with hc | hc
    · exact h.opened hopen c hc
    · obtain ⟨d, hd, rfl⟩ := List.mem_map.mp hc
      rintro rfl
      cases hcs _ hd
  arcs := fun _ => h.arcs hopen

theorem mem_callsOf {trace : List Event} {c : Thread × Call} (h : c ∈ callsOf trace) :
    ∃ client ret, Event.call client c.2 ret ∈ trace := by
  obtain ⟨e, he, hc⟩ := List.mem_filterMap.mp h
  cases e with
  | spawn => cases hc
  | call client d ret =>
    cases hc
    exact ⟨client, ret, he⟩

/-- A session unregisters no port. -/
theorem unregistered_eq_nil {calls : List (Thread × Call)}
    (h : ∀ c ∈ calls, sessionCall c.2 = true) : unregistered calls = [] := by
  rw [unregistered, List.filterMap_eq_nil_iff]
  rintro ⟨thread, call⟩ hc
  cases call with
  | portUnregister p => exact absurd (h _ hc) (by simp [sessionCall])
  | _ => rfl

theorem setSession_eq {s : State P N} (session : Session.State P N)
    (h : s.arcs = if holdsArc s.session.phase = true then 2 else 1) :
    s.setSession session =
      { s with
        session := session
        ports := { s.ports with calls := s.ports.calls ++ callsOf session.world.trace }
        arcs := if holdsArc session.phase = true then 2 else 1 } := by
  cases hs : holdsArc s.session.phase <;> cases ht : holdsArc session.phase <;>
    simp_all [State.setSession, State.dropArc]

theorem inv_session {s : State P N} (h : Inv s) (hopen : s.dropped = false)
    {l : Session.Label P N} {session : Session.State P N}
    (hstep : Session.step (fresh s.session) l = some session) : Inv (s.setSession session) := by
  have hrecorded := recorded_step hstep
  have hcalls : ∀ c ∈ callsOf session.world.trace, sessionCall c.2 = true := by
    intro c hc
    obtain ⟨client, ret, hmem⟩ := mem_callsOf hc
    exact hrecorded client c.2 ret hmem
  rw [setSession_eq session (h.arcs hopen)]
  refine ⟨fun _ => ?_, fun _ c hc => ?_, fun _ => rfl⟩
  · refine (h.owned hopen).congr rfl rfl ?_ rfl
    rw [Ports.unregistered_append]
    rw [unregistered_eq_nil hcalls, List.append_nil]
  · rcases List.mem_append.mp hc with hc | hc
    · exact h.opened hopen c hc
    · have := hcalls c hc
      intro he
      rw [he] at this
      cases this

/-- Everything one step can do. -/
inductive Step (s : State P N) : Label P N → State P N → Prop where
  | ports (hopen : s.dropped = false) (l : Ports.Label) (p : Ports.State)
      (hstep : Ports.Step s.ports l p) : Step s (.ports l) { s with ports := p }
  | session (hopen : s.dropped = false) (l : Session.Label P N) (session : Session.State P N)
      (hstep : Session.step (fresh s.session) l = some session) :
      Step s (.session l) (s.setSession session)
  | drop (hopen : s.dropped = false) (hpc : s.ports.pc = .idle) (hfree : s.ports.held = false) :
      Step s .drop s.drop
  | collectorEnds (hdropped : s.dropped = true) :
      Step s (.ports (.call .tick))
        { s with ports := { s.ports with collectors := s.ports.collectors - 1 } }

theorem step_cases {s t : State P N} {l : Label P N} (h : step s l = some t) : Step s l t := by
  unfold step at h
  split at h
  · obtain ⟨p, hp, rfl⟩ := Option.map_eq_some_iff.mp h
    exact .ports ‹_› _ p (Ports.step_cases hp)
  · split at h
    · obtain ⟨session, hs, rfl⟩ := Option.map_eq_some_iff.mp h
      exact .session ‹_› _ session hs
    · cases h
  · split at h
    · rename_i hready
      cases h
      exact .drop ‹_› hready.1 hready.2
    · cases h
  · split at h
    · cases h
    · cases h
      exact .collectorEnds ‹_›
  · cases h

theorem inv_step {s t : State P N} {l : Label P N} (h : Inv s) (hstep : Step s l t) : Inv t := by
  cases hstep with
  | ports hopen l p hp => exact inv_ports h hopen hp
  | session hopen l session hs => exact inv_session h hopen hs
  | drop hopen hpc hfree => exact inv_dropped rfl
  | collectorEnds hdropped => exact inv_dropped hdropped

/-- A client that is not closed yet has no call after its closing. -/
theorem closedLast_of_open {s : State P N} (h : Inv s) (hopen : s.dropped = false) :
    ClosedLast s := by
  intro before after hsplit
  have hmem : Call.clientClose ∈ s.ports.calls.map Prod.snd := by simp [hsplit]
  obtain ⟨c, hc, he⟩ := List.mem_map.mp hmem
  exact absurd he (h.opened hopen c hc)

/-- After a drop the closing is the last call exactly when no handle was left. -/
theorem closedLast_drop {s : State P N} (h : Inv s) (hopen : s.dropped = false) :
    ClosedLast s.drop ↔ s.ports.holds = 0 := by
  rw [← unregisteredLate_eq_nil (h.owned hopen)]
  have hcalls : s.drop.ports.calls.map Prod.snd = s.ports.calls.map Prod.snd ++
      Call.clientClose :: (unregisteredLate s.ports).map .portUnregister := by
    rw [drop_ports (h.arcs hopen), dropAll_calls]
    simp
  constructor
  · intro hclosed
    have := hclosed _ _ hcalls
    simpa using this
  · intro hnil before after hsplit
    rw [hcalls, hnil, List.map_nil] at hsplit
    have hnot : Call.clientClose ∉ s.ports.calls.map Prod.snd := by
      intro hmem
      obtain ⟨c, hc, he⟩ := List.mem_map.mp hmem
      exact h.opened hopen c hc he
    have hlast := List.append_eq_append_iff.mp hsplit
    rcases hlast with ⟨mid, hbefore, hafter⟩ | ⟨mid, hbefore, hafter⟩
    · cases mid with
      | nil => exact (List.cons.inj hafter).2.symm
      | cons m mid =>
        have := (List.cons.inj hafter).2
        simp at this
    · cases mid with
      | nil => exact (List.cons.inj hafter).2
      | cons m mid =>
        rw [List.cons_append] at hafter
        have hm := (List.cons.inj hafter).1
        refine absurd ?_ hnot
        rw [hbefore, hm]
        simp

theorem closedLast_step {s t : State P N} {l : Label P N} (h : Inv s) (hs : ClosedLast s)
    (hstep : Step s l t) : ClosedLast t ↔ DroppedEmpty s l := by
  cases hstep with
  | ports hopen l p hp =>
    exact iff_of_true (closedLast_of_open (inv_ports h hopen hp) hopen) trivial
  | session hopen l session hs' =>
    have hinv := inv_session h hopen hs'
    refine iff_of_true (closedLast_of_open hinv ?_) trivial
    rw [setSession_eq session (h.arcs hopen)]
    exact hopen
  | drop hopen hpc hfree => exact closedLast_drop h hopen
  | collectorEnds hdropped => exact iff_of_true hs trivial

/-- Throughout a run every call on the client comes before its closing if and only if the
client is only ever dropped with no port handle left. -/
theorem closedLast_iff_droppedEmpty {client : Client} {ls : List (Label P N)} {s : State P N}
    (hrun : run (init client) ls = some s) :
    Run.Throughout ClosedLast step (init client) ls ↔
      Run.Along DroppedEmpty step (init client) ls := by
  have hinv : ∀ (s : State P N) l t, Inv s → step s l = some t → Inv t :=
    fun _ _ _ hi h => inv_step hi (step_cases h)
  have hstep : ∀ (s : State P N) l t, Inv s → ClosedLast s → step s l = some t →
      (ClosedLast t ↔ DroppedEmpty s l) := fun _ _ _ hi hc h => closedLast_step hi hc (step_cases h)
  exact Run.throughout_iff_along hinv hstep hrun (inv_init client)
    (closedLast_of_open (inv_init client) rfl)

/-- An activated client registers a port, unregisters it, and lets the collector finish. -/
def collectedRun : List (Label Unit Unit) :=
  .session ⟨.activate (some ()) (some ()) ⟨0⟩, fun _ => 0⟩ ::
    ([.call (.registerPorts [.created ⟨⟨7⟩⟩]), .main, .main, .main, .acquire .process, .release,
      .call (.unregisterPorts [⟨⟨7⟩⟩]), .main, .main, .main, .main, .main, .acquire .process,
      .release, .call .tick, .main, .main, .main, .main].map Label.ports)

theorem closedLast_iff_droppedEmpty_collectedRun :
    ∃ s, run (init ⟨1, 1⟩) (collectedRun ++ [.drop]) = some s ∧
      Run.Throughout ClosedLast step (init ⟨1, 1⟩) (collectedRun ++ [.drop]) := by
  obtain ⟨s, hs⟩ : ∃ s, run (init ⟨1, 1⟩) (collectedRun ++ [.drop]) = some s := ⟨_, rfl⟩
  refine ⟨s, hs, (closedLast_iff_droppedEmpty hs).mpr (Run.along_append.mpr ⟨?_, ?_⟩)⟩
  · refine Run.along_of_forall ?_ _
    intro l hl s
    simp only [collectedRun, List.mem_cons, List.mem_map] at hl
    rcases hl with rfl | ⟨l, _, rfl⟩ <;> trivial
  · intro t ht
    have hempty : (run (init ⟨1, 1⟩) collectedRun).map (fun t => t.ports.holds) = some 0 := rfl
    simp only [run, ht, Option.map_some, Option.some.injEq] at hempty
    exact ⟨hempty, fun _ _ => trivial⟩

/-- A client with one registered port is dropped: the port is unregistered on the client
that was closed before. -/
theorem unregistered_after_close :
    ∃ s, run (init ⟨1, 1⟩ : State Unit Unit)
        [.ports (.call (.registerPorts [.created ⟨⟨7⟩⟩])), .ports .main, .ports .main,
          .ports .main, .drop] = some s ∧ ¬ClosedLast s := by
  refine ⟨_, rfl, ?_⟩
  intro h
  have hlate := h [.portRegister] [.portUnregister 0] rfl
  cases hlate

end Jack2.Lifetime
