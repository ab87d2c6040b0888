import Jack2.Calls
import Jack2.Lifetime

/-!
# Unregistering without a process thread

The sequences of port calls, collector ticks, activations, process callbacks and
deactivations in which the callbacks run only while the process data is installed, and
what a call of `unregister_ports` and one tick do where no callback can run any more.
-/
namespace Jack2.Unattended

open Lifetime (State Label holdsArc)
open Ports (handles unregistered eraseAll callRun Named NamedBy)

variable {P N : Type*}

/-- Callbacks acquire the front buffer only while a process handler is active, and no
callback outlives the deactivation. The client is not dropped. -/
def Allowed (s : State P N) (l : Label P N) (t : State P N) : Prop :=
  match l with
  | .ports (.acquire _) => holdsArc s.session.phase = true
  | .ports _ => True
  | .session _ => t.ports.held = true → holdsArc t.session.phase = true
  | .drop => False

instance (s : State P N) (l : Label P N) (t : State P N) : Decidable (Allowed s l t) := by
  unfold Allowed
  split <;> infer_instance

def step (s : State P N) (l : Label P N) : Option (State P N) :=
  (Lifetime.step s l).filter fun t => Allowed s l t

abbrev run : State P N → List (Label P N) → Option (State P N) := Run.run step

theorem step_cases {s t : State P N} {l : Label P N} (h : step s l = some t) :
    Lifetime.Step s l t ∧ Allowed s l t := by
  rw [step, Option.filter_eq_some_iff, decide_eq_true_eq] at h
  exact ⟨Lifetime.step_cases h.1, h.2⟩

/-- What the sequences keep. -/
structure Inv (s : State P N) : Prop where
  opened : s.dropped = false
  ports : Ports.Invariant s.ports
  named : ∃ owner, Named owner s.ports
  arcs : s.arcs = if holdsArc s.session.phase = true then 2 else 1
  held : s.ports.held = true → holdsArc s.session.phase = true

theorem inv_init (client : Client) : Inv (Lifetime.init client : State P N) where
  opened := rfl
  ports := Ports.invariant_init
  named := ⟨fun _ => ⟨⟨0⟩⟩, Ports.named_init _⟩
  arcs := rfl
  held := by simp [Lifetime.init, Ports.init]

/-- The calls of a session are on record beside those of the ports. -/
theorem invariant_calls {p : Ports.State} (h : Ports.Invariant p) {calls : List (Thread × Call)}
    (hmain : ∀ c ∈ calls, c.1 = .main) (hnone : unregistered calls = []) :
    Ports.Invariant { p with calls := p.calls ++ calls } where
  aligned := h.aligned
  owned := h.owned.congr rfl rfl (by rw [Ports.unregistered_append, hnone, List.append_nil]) rfl
  distinct := ⟨h.distinct.ports, h.distinct.front, h.distinct.pending, h.distinct.back⟩
  scheduled := ⟨h.scheduled.tasks, h.scheduled.spawning, h.scheduled.ticking, h.scheduled.cleared,
    h.scheduled.clean, h.scheduled.finishing⟩
  onMain := by
    intro c hc
    rcases List.mem_append.mp hc with hc | hc
    · exact h.onMain c hc
    · exact hmain c hc

theorem callsOf_main (trace : List Event) : ∀ c ∈ Lifetime.callsOf trace, c.1 = .main := by
  intro c hc
  obtain ⟨e, _, he⟩ := List.mem_filterMap.mp hc
  cases e <;> cases he
  rfl

theorem inv_session {s : State P N} (h : Inv s) {l : Session.Label P N}
    {session : Session.State P N}
    (hstep : Session.step (Lifetime.fresh s.session) l = some session)
    (hallowed : Allowed s (.session l) (s.setSession session)) : Inv (s.setSession session) := by
  have hrecorded := Lifetime.recorded_step hstep
  have hcalls : ∀ c ∈ Lifetime.callsOf session.world.trace, Lifetime.sessionCall c.2 = true := by
    intro c hc
    obtain ⟨client, ret, hmem⟩ := Lifetime.mem_callsOf hc
    exact hrecorded client c.2 ret hmem
  rw [Lifetime.setSession_eq session h.arcs] at hallowed ⊢
  obtain ⟨owner, hp, hf, hpe, hb⟩ := h.named
  exact ⟨h.opened, invariant_calls h.ports (callsOf_main _) (Lifetime.unregistered_eq_nil hcalls),
    ⟨owner, hp, hf, hpe, hb⟩, rfl, hallowed⟩

theorem inv_step {s t : State P N} {l : Label P N} (h : Inv s) (hstep : step s l = some t) :
    Inv t := by
  obtain ⟨hcases, hallowed⟩ := step_cases hstep
  cases hcases with
  | ports hopen l p hp =>
    obtain ⟨owner, hnamed⟩ := h.named
    refine ⟨hopen, Ports.invariant_step h.ports hp, Ports.named_step h.ports.owned hnamed hp,
      h.arcs, ?_⟩
    cases hp with
    | acquire callback hfree => exact fun _ => hallowed
    | release hheld => exact fun hf => absurd hf Bool.false_ne_true
    | _ => exact h.held
  | session hopen l session hs => exact inv_session h hs hallowed
  | drop hopen hpc hfree => exact hallowed.elim
  | collectorEnds hdropped => exact absurd (h.opened.symm.trans hdropped) Bool.false_ne_true

theorem inv_run {client : Client} {ls : List (Label P N)} {s : State P N}
    (hrun : run (Lifetime.init client) ls = some s) : Inv s :=
  Run.run_invariant (fun _ _ _ => inv_step) hrun (inv_init client)

/-- On a client that is not dropped, the main thread and its ports run by themselves. -/
theorem step_ports {s : State P N} (hopen : s.dropped = false) {l : Ports.Label}
    (hl : ∀ callback, l ≠ .acquire callback) :
    step s (.ports l) = (Ports.step s.ports l).map fun p => { s with ports := p } := by
  have hallowed : ∀ t, Allowed s (.ports l) t := by
    intro t
    cases l with
    | acquire callback => exact absurd rfl (hl callback)
    | _ => trivial
  obtain ⟨ports, session, arcs, dropped⟩ := s
  cases hopen
  simp only [step, Lifetime.step, hallowed, decide_true]
  cases Ports.step ports l <;> rfl

theorem run_ports {ls : List Ports.Label} (hls : ∀ l ∈ ls, ∀ callback, l ≠ .acquire callback)
    {s : State P N} (hopen : s.dropped = false) :
    run s (ls.map .ports) = (Ports.run s.ports ls).map fun p => { s with ports := p } := by
  induction ls generalizing s with
  | nil => rfl
  | cons l ls ih =>
    have hrest : ∀ m ∈ ls, ∀ callback, m ≠ .acquire callback :=
      fun m hm => hls m (List.mem_cons_of_mem _ hm)
    rw [List.map_cons, run, Run.run_cons, step_ports hopen (hls l List.mem_cons_self), Ports.run,
      Run.run_cons]
    cases Ports.step s.ports l with
    | none => rfl
    | some p =>
      have hopen' : { s with ports := p }.dropped = false := hopen
      exact ih hrest hopen'

theorem run_callRun {s : State P N} (hopen : s.dropped = false) (op : Ports.Op) (n : ℕ) :
    run s ((callRun op n).map .ports) =
      (Ports.run s.ports (callRun op n)).map fun p => { s with ports := p } := by
  refine run_ports ?_ hopen
  intro l hl callback
  rcases List.mem_cons.mp hl with rfl | hl
  · exact Ports.Label.noConfusion
  · rw [List.eq_of_mem_replicate hl]
    exact Ports.Label.noConfusion

/-- A statement of some thread, while the main thread is inside of a call. -/
def Beside (l : Label P N) : Prop := ∃ p, l = .ports p ∧ ∀ op, p ≠ .call op

/-- A call of `unregister_ports` and then one tick of the collector lead from `s` to `u`,
beside whatever the process thread can do. -/
def Collects (s : State P N) (uuids : List OwnedPortUuid) (u : State P N) : Prop :=
  ∃ before after t, (∀ l ∈ before, Beside l) ∧ (∀ l ∈ after, Beside l) ∧
    run s (.ports (.call (.unregisterPorts uuids)) :: before) = some t ∧ t.ports.pc = .idle ∧
    run t (.ports (.call .tick) :: after) = some u ∧ u.ports.pc = .idle

/-- Without a process handler only the main thread can take a step. -/
theorem quiet_run {s t : State P N} (h : Inv s) (hthread : holdsArc s.session.phase = false)
    {ls : List (Label P N)} (hls : ∀ l ∈ ls, Beside l) (hrun : run s ls = some t) :
    ls = (List.replicate ls.length .main).map .ports := by
  induction ls generalizing s with
  | nil => rfl
  | cons l ls ih =>
    obtain ⟨u, hu, hrest⟩ := Run.run_cons_some hrun
    obtain ⟨p, rfl, hp⟩ := hls l List.mem_cons_self
    obtain ⟨hcases, hallowed⟩ := step_cases hu
    have hmain : p = .main ∧ u.session = s.session := by
      cases hcases with
      | collectorEnds hdropped => exact absurd rfl (hp .tick)
      | ports hopen l q hq =>
        cases p with
        | call op => exact absurd rfl (hp op)
        | main => exact ⟨rfl, rfl⟩
        | acquire callback => exact absurd (hthread.symm.trans hallowed) Bool.false_ne_true
        | release =>
          cases hq with
          | release hheld => exact absurd (hthread.symm.trans (h.held hheld)) Bool.false_ne_true
    obtain ⟨rfl, hsession⟩ := hmain
    have hrec := ih (inv_step h hu) (hsession ▸ hthread)
      (fun l hl => hls l (List.mem_cons_of_mem _ hl)) hrest
    rw [List.length_cons, List.replicate_succ, List.map_cons, ← hrec]

theorem call_run_eq {s t : State P N} (h : Inv s) (hthread : holdsArc s.session.phase = false)
    {op : Ports.Op} {ls : List (Label P N)} (hls : ∀ l ∈ ls, Beside l)
    (hrun : run s (.ports (.call op) :: ls) = some t) :
    ∃ p, Ports.run s.ports (callRun op ls.length) = some p ∧ t = { s with ports := p } := by
  obtain ⟨u, hu, hrest⟩ := Run.run_cons_some hrun
  have hnone : ∀ callback, (Ports.Label.call op) ≠ .acquire callback :=
    fun _ => Ports.Label.noConfusion
  have hsession : u.session = s.session := by
    rw [step_ports h.opened hnone] at hu
    obtain ⟨p, _, rfl⟩ := Option.map_eq_some_iff.mp hu
    rfl
  have hquiet := quiet_run (inv_step h hu) (hsession ▸ hthread) hls hrest
  have hmap : Label.ports (.call op) :: ls = (callRun op ls.length).map .ports := by
    rw [callRun, List.map_cons, ← hquiet]
  rw [hmap, run_callRun h.opened] at hrun
  obtain ⟨p, hp, rfl⟩ := Option.map_eq_some_iff.mp hrun
  exact ⟨p, hp, rfl⟩

theorem beside_mains (n : ℕ) :
    ∀ l ∈ ((List.replicate n .main).map .ports : List (Label P N)), Beside l := by
  intro l hl
  obtain ⟨p, hp, rfl⟩ := List.mem_map.mp hl
  rw [List.eq_of_mem_replicate hp]
  exact ⟨.main, rfl, fun _ => Ports.Label.noConfusion⟩

/-- No handle is left under the listed UUIDs, and every port that was held under one of them
has been unregistered. -/
structure Released (s : State P N) (uuids : List OwnedPortUuid) (u : State P N) : Prop where
  ports : ∀ uuid ∈ uuids, uuid ∉ u.ports.ports
  front : ∀ uuid ∈ uuids, uuid ∉ u.ports.processPorts.front
  pending : ∀ uuid ∈ uuids, uuid ∉ u.ports.processPorts.pending
  back : ∀ uuid ∈ uuids, uuid ∉ u.ports.processPorts.back
  unregistered : ∀ uuid ∈ uuids, ∀ m ∈ [s.ports.ports, s.ports.processPorts.front,
    s.ports.processPorts.pending, s.ports.processPorts.back], ∀ p ∈ m.lookup uuid,
      p ∈ unregistered u.ports.calls

/-- The front slot holds none of the listed ports. -/
def FrontLacks (s : State P N) (uuids : List OwnedPortUuid) : Prop :=
  ∀ uuid ∈ uuids, uuid ∉ s.ports.processPorts.front

/-- Where the call and the tick end: the new map is pending, and the front is what it was. -/
structure Ended (s : State P N) (uuids : List OwnedPortUuid) (u : State P N) : Prop where
  ports : u.ports.ports = eraseAll s.ports.ports uuids
  processPorts : u.ports.processPorts =
    (s.ports.processPorts.setBack u.ports.ports).swap.setBack ∅
  invariant : Ports.Invariant u.ports
  next : s.ports.next ≤ u.ports.next

theorem next_run {p q : Ports.State} {ls : List Ports.Label} (h : Ports.run p ls = some q) :
    p.next ≤ q.next := by
  have hstep : ∀ (q : Ports.State) l r, p.next ≤ q.next → Ports.step q l = some r →
      p.next ≤ r.next :=
    fun q l r hle h => hle.trans (Ports.born_step (Ports.step_cases h) 0).1
  exact Run.run_invariant hstep h (Nat.le_refl _)

/-- With a port to unregister the call and the tick run to one end. -/
theorem ended_of_ne_nil {s : State P N} (h : Inv s) (hthread : holdsArc s.session.phase = false)
    (hpc : s.ports.pc = .idle) {uuids : List OwnedPortUuid} (hne : uuids ≠ []) :
    (∃ u, Collects s uuids u) ∧ ∀ u, Collects s uuids u → Ended s uuids u := by
  obtain ⟨m, p, hp, hunregistered⟩ := Ports.unregister_run hpc hne
  have hinv := Ports.invariant_run hp h.ports
  have hlive : p.collectors ≠ 0 := by
    simp [hinv.scheduled.tasks, hunregistered.flag, hunregistered.pc]
  have hfresh : p.processPorts.fresh = true := by
    rw [hunregistered.processPorts]
    rfl
  have htick := Ports.tick_fresh_run hunregistered.pc hlive hfresh
  have hcall : run s ((callRun (.unregisterPorts uuids) m).map .ports) =
      some { s with ports := p } := by
    rw [run_callRun h.opened, hp]
    rfl
  have hopen : ({ s with ports := p } : State P N).dropped = false := h.opened
  constructor
  · refine ⟨{ s with ports := { p.clearBack .main with pc := .idle } }, _, _, _, beside_mains m,
      beside_mains 2, hcall, hunregistered.pc, ?_, rfl⟩
    have hlast := run_callRun hopen .tick 2
    rw [htick] at hlast
    exact hlast
  · rintro u ⟨before, after, t, hbefore, hafter, ht, htpc, hu, hupc⟩
    have hreach : Inv t := Run.run_invariant (fun _ _ _ => inv_step) ht h
    obtain ⟨p', hp', rfl⟩ := call_run_eq h hthread hbefore ht
    obtain rfl := Ports.callRun_unique hp hp' hunregistered.pc htpc
    obtain ⟨q, hq, rfl⟩ := call_run_eq hreach hthread hafter hu
    obtain rfl := Ports.callRun_unique htick hq rfl hupc
    refine ⟨hunregistered.ports, ?_, Ports.invariant_run htick hinv,
      (next_run hp).trans (next_run htick)⟩
    change p.processPorts.setBack ∅ = _
    rw [hunregistered.processPorts]
    rfl

/-- A port that is held under a listed UUID is held nowhere else, so nothing holds it. -/
theorem notMem_holds {s u : State P N} {uuids : List OwnedPortUuid} (hended : Ended s uuids u)
    (hfront : FrontLacks s uuids) {owner : JackPort → OwnedPortUuid} (hnamed : Named owner s.ports)
    {uuid : OwnedPortUuid} (hmem : uuid ∈ uuids) {p : JackPort} (howner : owner p = uuid) :
    p ∉ u.ports.holds := by
  have hports : p ∉ handles u.ports.ports := by
    intro hp
    obtain ⟨e, he, rfl⟩ := List.mem_map.mp hp
    rw [hended.ports] at he
    have hkey : e.1 ∈ eraseAll s.ports.ports uuids := AList.mem_keys.mp (List.mem_keys_of_mem he)
    rw [← hnamed.ports e ((Ports.eraseAll_entries _ _).subset he), howner] at hkey
    exact (Ports.mem_eraseAll.mp hkey).2 hmem
  have hslot : p ∉ handles s.ports.processPorts.front := by
    intro hp
    obtain ⟨e, he, rfl⟩ := List.mem_map.mp hp
    have hkey : e.1 ∈ s.ports.processPorts.front := AList.mem_keys.mp (List.mem_keys_of_mem he)
    rw [← hnamed.front e he, howner] at hkey
    exact hfront uuid hmem hkey
  rw [Ports.State.holds, Multiset.mem_add, Ports.mem_slots, hended.processPorts]
  rintro (hp | hp | hp | hp)
  · exact hports hp
  · exact hslot hp
  · exact hports hp
  · cases hp

/-- The bound on the ports that a state holds. -/
theorem lt_next {s : State P N} (h : Inv s) {uuid : OwnedPortUuid} {p : JackPort} {m : Ports.PortMap}
    (hm : m ∈ [s.ports.ports, s.ports.processPorts.front, s.ports.processPorts.pending,
      s.ports.processPorts.back]) (hp : p ∈ m.lookup uuid) : p < s.ports.next := by
  have hhandle : p ∈ handles m := List.mem_map.mpr ⟨_, AList.mem_lookup_iff.mp hp, rfl⟩
  apply h.ports.owned.bound p
  rw [Ports.State.holds, Multiset.mem_add, Ports.mem_slots, Multiset.mem_coe]
  simp only [List.mem_cons, List.not_mem_nil, or_false] at hm
  rcases hm with rfl | rfl | rfl | rfl <;> simp [hhandle]

theorem owner_lookup {owner : JackPort → OwnedPortUuid} {s : Ports.State} (h : Named owner s)
    {uuid : OwnedPortUuid} {p : JackPort} {m : Ports.PortMap}
    (hm : m ∈ [s.ports, s.processPorts.front, s.processPorts.pending, s.processPorts.back])
    (hp : p ∈ m.lookup uuid) : owner p = uuid := by
  have hnamed : NamedBy owner m := by
    simp only [List.mem_cons, List.not_mem_nil, or_false] at hm
    rcases hm with rfl | rfl | rfl | rfl
    · exact h.ports
    · exact h.front
    · exact h.pending
    · exact h.back
  exact hnamed _ (AList.mem_lookup_iff.mp hp)

theorem released_iff {s u : State P N} (h : Inv s) {uuids : List OwnedPortUuid}
    (hended : Ended s uuids u) : Released s uuids u ↔ FrontLacks s uuids := by
  have hslots := hended.processPorts
  constructor
  · intro hr uuid hmem
    have hfront := hr.front uuid hmem
    rwa [hslots] at hfront
  · intro hfront
    obtain ⟨owner, hnamed⟩ := h.named
    have hports : ∀ uuid ∈ uuids, uuid ∉ u.ports.ports := by
      intro uuid hmem hkey
      rw [hended.ports] at hkey
      exact (Ports.mem_eraseAll.mp hkey).2 hmem
    refine ⟨hports, ?_, ?_, ?_, ?_⟩
    · intro uuid hmem
      rw [hslots]
      exact hfront uuid hmem
    · intro uuid hmem
      rw [hslots]
      exact hports uuid hmem
    · intro uuid _
      rw [hslots]
      exact AList.notMem_empty uuid
    · intro uuid hmem m hm p hp
      rw [hended.invariant.owned.collected.dead_iff]
      refine ⟨Nat.lt_of_lt_of_le (lt_next h hm hp) hended.next, ?_⟩
      apply (Shared.counted_eq_zero hended.invariant.owned.counted).mpr
      exact notMem_holds hended hfront hnamed hmem (owner_lookup hnamed hm hp)

/-- Only an acquisition puts anything into the front slot. -/
theorem front_step {s t : State P N} {l : Label P N} (h : Inv s)
    (hl : ∀ callback, l ≠ .ports (.acquire callback)) (hstep : step s l = some t) :
    t.ports.processPorts.front = s.ports.processPorts.front := by
  obtain ⟨hcases, hallowed⟩ := step_cases hstep
  cases hcases with
  | ports hopen l p hp =>
    cases hp with
    | acquire callback hfree => exact absurd rfl (hl callback)
    | _ => rfl
  | session hopen l session hs =>
    rw [Lifetime.setSession_eq session h.arcs]
  | drop hopen hidle hfree => exact hallowed.elim
  | collectorEnds hdropped => exact absurd (h.opened.symm.trans hdropped) Bool.false_ne_true

/-- A client on which no callback has run yet, in whatever way it was activated: the front
slot is empty. -/
theorem frontLacks_of_not_acquired {client : Client} {ls : List (Label P N)} {s : State P N}
    (hls : ∀ callback, .ports (.acquire callback) ∉ ls)
    (hrun : run (Lifetime.init client) ls = some s) (uuids : List OwnedPortUuid) :
    FrontLacks s uuids := by
  have hstep : ∀ (s : State P N) l t, (∀ callback, l ≠ .ports (.acquire callback)) →
      Inv s ∧ s.ports.processPorts.front = ∅ → step s l = some t →
      Inv t ∧ t.ports.processPorts.front = ∅ := by
    rintro s l t hl ⟨hinv, hfront⟩ hstep
    exact ⟨inv_step hinv hstep, (front_step hinv hl hstep).trans hfront⟩
  have hlabels : ∀ l ∈ ls, ∀ callback, l ≠ .ports (.acquire callback) := by
    rintro l hl callback rfl
    exact hls callback hl
  have hempty := (Run.run_invariant_of_labels hstep hlabels hrun ⟨inv_init client, rfl⟩).2
  intro uuid _
  rw [hempty]
  exact AList.notMem_empty uuid

/-- In every reachable state without a process thread, a call of `unregister_ports` and one
tick of the collector run to their end, and release every listed port exactly if the front
slot, which nothing rotates any more, held none of them. -/
theorem unattended_released_iff {client : Client} {ls : List (Label P N)} {s : State P N}
    (hrun : run (Lifetime.init client) ls = some s) (hpc : s.ports.pc = .idle)
    (hthread : holdsArc s.session.phase = false) (uuids : List OwnedPortUuid) :
    (uuids ≠ [] → ∃ u, Collects s uuids u) ∧
      ∀ u, Collects s uuids u → (Released s uuids u ↔ FrontLacks s uuids) := by
  have hinv := inv_run hrun
  constructor
  · intro hne
    exact (ended_of_ne_nil hinv hthread hpc hne).1
  · intro u hu
    cases uuids with
    | nil => exact iff_of_true (by constructor <;> simp) (by simp [FrontLacks])
    | cons uuid uuids =>
      have hended := (ended_of_ne_nil hinv hthread hpc (List.cons_ne_nil uuid uuids)).2 u hu
      exact released_iff hinv hended

def seventh : OwnedPortUuid := ⟨⟨7⟩⟩

/-- A port is registered on an active client, a callback acquires it, and the client is
deactivated. -/
def deactivatedRun : List (Label Unit Unit) :=
  [.session ⟨.activate (some ()) none ⟨0⟩, fun _ => 0⟩,
    .ports (.call (.registerPorts [.created seventh])), .ports .main, .ports .main, .ports .main,
    .ports (.acquire .process), .ports .release, .session ⟨.deactivate, fun _ => 0⟩]

theorem unattended_released_iff_deactivatedRun :
    ∃ s, run (Lifetime.init ⟨1, 1⟩) deactivatedRun = some s ∧
      handles s.ports.processPorts.front = [0] ∧
      ([seventh] ≠ [] → ∃ u, Collects s [seventh] u) ∧
      ∀ u, Collects s [seventh] u → (Released s [seventh] u ↔ FrontLacks s [seventh]) := by
  have hmap : (run (Lifetime.init ⟨1, 1⟩) deactivatedRun).map (fun s => (s.ports.pc,
      holdsArc s.session.phase, handles s.ports.processPorts.front)) = some (.idle, false, [0]) := rfl
  obtain ⟨s, hs, hfacts⟩ := Option.map_eq_some_iff.mp hmap
  simp only [Prod.mk.injEq] at hfacts
  obtain ⟨hpc, hthread, hfront⟩ := hfacts
  exact ⟨s, hs, hfront, unattended_released_iff hs hpc hthread [seventh]⟩

/-- The port is unregistered, the collector ticks, and the front slot still holds the port. -/
theorem deactivatedRun_retains :
    ∃ s u, run (Lifetime.init ⟨1, 1⟩) deactivatedRun = some s ∧
      holdsArc s.session.phase = false ∧ Collects s [seventh] u ∧
      handles u.ports.processPorts.front = [0] ∧ unregistered u.ports.calls = [] ∧
      ¬ Released s [seventh] u := by
  refine ⟨_, _, rfl, rfl, ⟨_, _, _, beside_mains 5, beside_mains 2, rfl, rfl, rfl, rfl⟩, rfl, rfl, ?_⟩
  intro h
  exact h.front seventh List.mem_cons_self (by decide)

end Jack2.Unattended
