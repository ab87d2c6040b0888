import Jack2.Calls

/-!
# Iterators that panic

The steps of the client with an iterator that may panic in place of its next answer: when
`peek` asks for the first item, at a later item, or where it should end. What the iterator
has yielded in the call is kept beside the client.
-/
namespace Jack2.Unwinding

open Ports (Invariant Item PortMap createdBy eraseAll handles)
open Run (Throughout Along)

inductive Label where
  | ports (l : Ports.Label)
  | panics
  deriving DecidableEq, Repr

structure State where
  client : Ports.State
  /-- `Client.ports` at the start of the last call. -/
  before : PortMap
  /-- What the closure of `register_ports` has made of the items of that call. -/
  items : List Item
  /-- What the iterator of `unregister_ports` has yielded in that call. -/
  uuids : List OwnedPortUuid
  /-- That call has unwound. -/
  unwound : Bool

def init : State := ⟨Ports.init, ∅, [], [], false⟩

def State.record (s : State) (l : Ports.Label) : State :=
  match l, s.client.pc with
  | .call _, _ => { s with before := s.client.ports, items := [], uuids := [], unwound := false }
  | .main, .registering (item :: _) => { s with items := s.items ++ [item] }
  | .main, .unregistering (uuid :: _) => { s with uuids := s.uuids ++ [uuid] }
  | _, _ => s

/-- A panic leaves the loop of the call with what it has done so far. -/
def step (s : State) : Label → Option State
  | .ports l => (Ports.step s.client l).map fun t => { s.record l with client := t }
  | .panics =>
    match s.client.pc with
    | .registering _ | .unregistering _ =>
      some { s with client := { s.client with pc := .idle }, unwound := true }
    | _ => none

/-- Between calls the map last published is `Client.ports`, and a call that has unwound after
it removed a port has left a collector. -/
structure InStep (s : State) : Prop where
  published : s.client.pc = .idle → s.client.processPorts.latest = s.client.ports
  scheduled : s.unwound = true → (∃ uuid ∈ s.before, uuid ∉ s.client.ports) →
    s.client.pendingPortGc = true ∧ s.client.collectors ≠ 0

/-- The condition on a panic: no item so far was a port that libjack has created, and none
was a port of the client. -/
def Harmless (s : State) : Label → Prop
  | .ports _ => True
  | .panics => createdBy s.items = [] ∧ ∀ uuid ∈ s.uuids, uuid ∉ s.before

section Loops

/-- What `register_ports` has done in its loop. -/
structure Registering (s : State) : Prop where
  uuids : s.uuids = []
  latest : s.client.processPorts.latest = s.before
  created : ∀ uuid ∈ createdBy s.items, uuid ∈ s.client.ports ∧ uuid ∉ s.before
  kept : ∀ uuid ∈ s.before, uuid ∈ s.client.ports
  same : createdBy s.items = [] → s.client.ports = s.before

/-- What `unregister_ports` has done in its loop. -/
structure Unregistering (s : State) : Prop where
  items : s.items = []
  latest : s.client.processPorts.latest = s.before
  ports : s.client.ports = eraseAll s.before s.uuids
  clean : s.client.pendingPortGc = false → ∀ p ∈ s.client.slots, p ∈ handles s.before

def Accounted (s : State) : Prop :=
  match s.client.pc with
  | .registering _ => Registering s
  | .unregistering _ => Unregistering s
  | _ => True

theorem createdBy_append (items : List Item) (item : Item) :
    createdBy (items ++ [item]) = createdBy items ++ createdBy [item] := List.filterMap_append

theorem eraseAll_append (m : PortMap) (uuids : List OwnedPortUuid) (uuid : OwnedPortUuid) :
    eraseAll m (uuids ++ [uuid]) = (eraseAll m uuids).erase uuid := List.foldl_append

/-- A call that has yielded only ports the client does not have has removed nothing. -/
theorem eraseAll_eq_self {m : PortMap} {uuids : List OwnedPortUuid} :
    eraseAll m uuids = m ↔ ∀ uuid ∈ uuids, uuid ∉ m := by
  constructor
  · intro h uuid huuid hm
    rw [← h, Ports.mem_eraseAll] at hm
    exact hm.2 huuid
  · intro h
    induction uuids with
    | nil => rfl
    | cons uuid uuids ih =>
      have hm : m.erase uuid = m := by
        apply AList.ext
        exact List.kerase_of_notMem_keys (h uuid List.mem_cons_self)
      rw [Ports.eraseAll_cons, hm]
      exact ih fun u hu => h u (List.mem_cons_of_mem _ hu)

/-- The process thread changes nothing that is accounted for. -/
theorem Accounted.frame {s : State} {u : Ports.State} (h : Accounted s)
    (hpc : u.pc = s.client.pc) (hports : u.ports = s.client.ports)
    (hlatest : u.processPorts.latest = s.client.processPorts.latest)
    (hslots : u.slots = s.client.slots) (hflag : u.pendingPortGc = s.client.pendingPortGc) :
    Accounted { s with client := u } := by
  unfold Accounted at h ⊢
  rw [hpc]
  split
  · rename_i hcase
    rw [hcase] at h
    constructor <;> simp only [hports, hlatest]
    exacts [h.uuids, h.latest, h.created, h.kept, h.same]
  · rename_i hcase
    rw [hcase] at h
    constructor <;> simp only [hports, hlatest, hslots, hflag]
    exacts [h.items, h.latest, h.ports, h.clean]
  · trivial

/-- An item that is no new port leaves what was accounted for. -/
theorem Registering.item {s t : State} (h : Registering s) (item : Item)
    (hnone : createdBy [item] = []) (hitems : t.items = s.items ++ [item])
    (hbefore : t.before = s.before) (huuids : t.uuids = s.uuids)
    (hports : t.client.ports = s.client.ports)
    (hslots : t.client.processPorts = s.client.processPorts) : Registering t := by
  have hcreated : createdBy t.items = createdBy s.items := by
    rw [hitems, createdBy_append, hnone, List.append_nil]
  constructor
  · rw [huuids]; exact h.uuids
  · rw [hslots, hbefore]; exact h.latest
  · rw [hcreated, hports, hbefore]; exact h.created
  · rw [hports, hbefore]; exact h.kept
  · rw [hcreated, hports, hbefore]; exact h.same

theorem Registering.insert {s : State} (h : Registering s) {uuid : OwnedPortUuid}
    (hnew : uuid ∉ s.client.ports) {t : State} (hitems : t.items = s.items ++ [.created uuid])
    (hbefore : t.before = s.before) (huuids : t.uuids = s.uuids)
    (hports : t.client.ports = s.client.ports.insert uuid s.client.next)
    (hslots : t.client.processPorts = s.client.processPorts) : Registering t := by
  have hcreated : createdBy t.items = createdBy s.items ++ [uuid] := by
    rw [hitems, createdBy_append]
    rfl
  refine ⟨huuids.trans h.uuids, ?_, ?_, ?_, ?_⟩
  · rw [hslots, hbefore]; exact h.latest
  · intro other hother
    rw [hports, hbefore, AList.mem_insert]
    rw [hcreated, List.mem_append, List.mem_singleton] at hother
    rcases hother with hother | rfl
    · exact ⟨Or.inr (h.created other hother).1, (h.created other hother).2⟩
    · exact ⟨Or.inl rfl, fun hmem => hnew (h.kept other hmem)⟩
  · intro other hother
    rw [hports, AList.mem_insert]
    exact Or.inr (h.kept other (hbefore ▸ hother))
  · intro hnone
    rw [hcreated] at hnone
    simp at hnone

end Loops

section Tracked

/-- What the steps keep as long as every panic is harmless. -/
structure Tracked (s : State) : Prop where
  client : Invariant s.client
  accounted : Accounted s
  unwound : s.unwound = true → s.client.pc = .idle ∧ s.client.ports = s.before

theorem tracked_init : Tracked init := ⟨Ports.invariant_init, trivial, nofun⟩

theorem inStep_of_tracked {s : State} (h : Tracked s) : InStep s := by
  constructor
  · intro hpc
    have haligned := h.client.aligned
    simpa only [Ports.Aligned, hpc] using haligned
  · rintro hunwound ⟨uuid, hmem, hn⟩
    rw [(h.unwound hunwound).2] at hn
    exact absurd hmem hn

theorem accounted_step {s : State} {l : Ports.Label} {u : Ports.State} (h : Tracked s)
    (hstep : Ports.Step s.client l u) : Accounted { s.record l with client := u } := by
  have haccounted := h.accounted
  have haligned := h.client.aligned
  cases hstep with
  | register hpc item items =>
    simp only [Ports.Aligned, hpc] at haligned
    exact ⟨rfl, haligned, by simp [State.record, createdBy], fun _ h => h, fun _ => rfl⟩
  | unregister hpc port ports =>
    simp only [Ports.Aligned, hpc] at haligned
    exact ⟨rfl, haligned, rfl, fun hgc => h.client.scheduled.clean hgc (by simp [hpc, Ports.Pc.removing])⟩
  | itemNul items hpc =>
    simp only [Accounted, hpc] at haccounted
    exact haccounted.item .nul rfl (by simp [State.record, hpc]) (by simp [State.record, hpc])
      (by simp [State.record, hpc]) rfl rfl
  | itemRefused items hpc =>
    simp only [Accounted, hpc] at haccounted
    exact haccounted.item .refused rfl (by simp [State.record, hpc]) (by simp [State.record, hpc])
      (by simp [State.record, hpc]) rfl rfl
  | itemCreated uuid items hpc hnew =>
    simp only [Accounted, hpc] at haccounted
    exact haccounted.insert hnew (by simp [State.record, hpc]) (by simp [State.record, hpc])
      (by simp [State.record, hpc]) rfl rfl
  | remove port ports hpc =>
    simp only [Accounted, hpc] at haccounted
    simp only [State.record, hpc]
    refine ⟨haccounted.items, haccounted.latest, ?_, haccounted.clean⟩
    rw [eraseAll_append, ← haccounted.ports]
    rfl
  | acquire callback hfree =>
    exact haccounted.frame rfl rfl (TripleBuffer.latest_frontBuffer _) (by simp [Ports.State.slots]) rfl
  | release hheld => exact haccounted.frame rfl rfl rfl rfl rfl
  | _ => simp_all [Accounted]

theorem tracked_step {s t : State} {l : Ports.Label} (h : Tracked s)
    (hstep : step s (.ports l) = some t) : Tracked t := by
  obtain ⟨u, hu, rfl⟩ := Option.map_eq_some_iff.mp hstep
  have hports := Ports.step_cases hu
  refine ⟨Ports.invariant_step h.client hports, accounted_step h hports, ?_⟩
  cases l with
  | call op =>
    intro hunwound
    cases hunwound
  | main =>
    intro hunwound
    have hkept : (s.record .main).unwound = s.unwound := by
      unfold State.record
      split <;> first | rfl | simp_all
    rw [Ports.step_main_idle (h.unwound (hkept ▸ hunwound)).1] at hu
    cases hu
  | acquire callback =>
    cases hports
    exact h.unwound
  | release =>
    cases hports
    exact h.unwound

/-- Whether the call has changed the map shows in what the iterator has yielded. -/
theorem harmless_iff_registering {s : State} (h : Registering s) :
    Harmless s .panics ↔ s.client.ports = s.before := by
  simp only [Harmless, h.uuids, List.not_mem_nil, false_implies, implies_true, and_true]
  refine ⟨h.same, fun hsame => ?_⟩
  apply List.eq_nil_iff_forall_not_mem.mpr
  intro uuid huuid
  obtain ⟨hmem, hn⟩ := h.created uuid huuid
  exact hn (hsame ▸ hmem)

theorem harmless_iff_unregistering {s : State} (h : Unregistering s) :
    Harmless s .panics ↔ s.client.ports = s.before := by
  rw [h.ports, eraseAll_eq_self]
  simp [Harmless, h.items, createdBy]

/-- Leaving a loop that has not changed the map is no more than returning from it. -/
theorem invariant_idle {s : Ports.State} (h : Invariant s)
    (hlatest : s.processPorts.latest = s.ports) (hpc : s.pc ≠ .spawning)
    (hclean : s.pendingPortGc = false → Ports.Clean s) : Invariant { s with pc := .idle } where
  aligned := hlatest
  owned := h.owned.congr rfl rfl rfl rfl
  distinct := ⟨h.distinct.ports, h.distinct.front, h.distinct.pending, h.distinct.back⟩
  scheduled := h.scheduled.frame rfl rfl hpc (by simp) (by simp [Ports.Pc.ticking]) (by simp)
    (fun hgc _ => hclean hgc) (by simp)
  onMain := h.onMain

/-- What either loop tells about the client when its iterator panics. -/
structure Panicking (s : State) : Prop where
  pc : s.client.pc ≠ .spawning
  latest : s.client.processPorts.latest = s.before
  harmless : Harmless s .panics ↔ s.client.ports = s.before
  clean : s.client.ports = s.before → s.client.pendingPortGc = false → Ports.Clean s.client

theorem panic_cases {s t : State} (h : Tracked s) (hstep : step s .panics = some t) :
    Panicking s ∧ t = { s with client := { s.client with pc := .idle }, unwound := true } := by
  have haccounted := h.accounted
  simp only [step] at hstep
  split at hstep
  · rename_i items hpc
    cases hstep
    simp only [Accounted, hpc] at haccounted
    refine ⟨⟨by simp [hpc], haccounted.latest, harmless_iff_registering haccounted, ?_⟩, rfl⟩
    intro _ hgc
    exact h.client.scheduled.clean hgc (by simp [hpc, Ports.Pc.removing])
  · rename_i uuids hpc
    cases hstep
    simp only [Accounted, hpc] at haccounted
    refine ⟨⟨by simp [hpc], haccounted.latest, harmless_iff_unregistering haccounted, ?_⟩, rfl⟩
    intro hsame hgc p hp
    rw [hsame]
    exact haccounted.clean hgc p hp
  · cases hstep

theorem tracked_panic {s t : State} (h : Tracked s) (hc : Harmless s .panics)
    (hstep : step s .panics = some t) : Tracked t := by
  obtain ⟨hpanicking, rfl⟩ := panic_cases h hstep
  have hsame := hpanicking.harmless.mp hc
  have hlatest := hpanicking.latest.trans hsame.symm
  exact ⟨invariant_idle h.client hlatest hpanicking.pc (hpanicking.clean hsame), trivial,
    fun _ => ⟨rfl, hsame⟩⟩

theorem panic_step {s t : State} (h : Tracked s) (hstep : step s .panics = some t) :
    InStep t ↔ Harmless s .panics := by
  constructor
  · intro hin
    obtain ⟨hpanicking, rfl⟩ := panic_cases h hstep
    exact hpanicking.harmless.mpr ((hin.published rfl).symm.trans hpanicking.latest)
  · intro hc
    exact inStep_of_tracked (tracked_panic h hc hstep)

/-- In every run, and wherever iterators panic, the published map is `Client.ports` and a
collector is there after each removal exactly if every call that unwinds has neither
created nor removed a port. -/
theorem unwound_in_step_iff {ls : List Label} {s : State}
    (hrun : Run.run step init ls = some s) :
    Throughout InStep step init ls ↔ Along Harmless step init ls := by
  have hkeep : ∀ s l t, Tracked s → InStep s → Harmless s l → step s l = some t → Tracked t := by
    intro s l t h _ hc hstep
    cases l with
    | ports l => exact tracked_step h hstep
    | panics => exact tracked_panic h hc hstep
  have hiff : ∀ s l t, Tracked s → InStep s → step s l = some t → (InStep t ↔ Harmless s l) := by
    intro s l t h _ hstep
    cases l with
    | ports l => exact iff_of_true (inStep_of_tracked (tracked_step h hstep)) trivial
    | panics => exact panic_step h hstep
  exact Run.throughout_iff_along_of_kept hkeep hiff hrun tracked_init
    (inStep_of_tracked tracked_init)

end Tracked

section Example

/-- One port is registered, and the iterator of the next call panics after another. -/
def registerPanicRun : List Label :=
  [.ports (.call (.registerPorts [.created ⟨⟨7⟩⟩])), .ports .main, .ports .main, .ports .main,
    .ports (.call (.registerPorts [.created ⟨⟨9⟩⟩])), .ports .main, .panics]

/-- The port is unregistered by an iterator that panics after it. -/
def unregisterPanicRun : List Label :=
  [.ports (.call (.registerPorts [.created ⟨⟨7⟩⟩])), .ports .main, .ports .main, .ports .main,
    .ports (.call (.unregisterPorts [⟨⟨7⟩⟩])), .ports .main, .panics]

/-- A port is in the map and not published, or published and not in the map, and then no
collector is there. -/
theorem panicRuns_not_inStep :
    (∃ s, Run.run step init registerPanicRun = some s ∧ handles s.client.ports = [1, 0] ∧
      handles s.client.processPorts.latest = [0] ∧ ¬ InStep s) ∧
    ∃ s, Run.run step init unregisterPanicRun = some s ∧ handles s.client.ports = [] ∧
      handles s.client.processPorts.latest = [0] ∧ s.client.collectors = 0 ∧ ¬ InStep s := by
  refine ⟨⟨_, rfl, rfl, rfl, ?_⟩, ⟨_, rfl, rfl, rfl, rfl, ?_⟩⟩
  · intro h
    have hhandles := congrArg handles (h.published rfl)
    cases hhandles
  · intro h
    have hhandles := congrArg handles (h.published rfl)
    cases hhandles

/-- An iterator panics for its first item, one after a name with a NUL and one after a port
that the client does not have. -/
def harmlessRun : List Label :=
  [.ports (.call (.registerPorts [.nul])), .panics,
    .ports (.call (.registerPorts [.nul, .refused])), .ports .main, .ports .main, .panics,
    .ports (.call (.unregisterPorts [⟨⟨7⟩⟩])), .ports .main, .panics]

theorem unwound_in_step_iff_harmlessRun : ∃ s, Run.run step init harmlessRun = some s ∧
    (Throughout InStep step init harmlessRun ↔ Along Harmless step init harmlessRun) := by
  obtain ⟨s, hs⟩ : ∃ s, Run.run step init harmlessRun = some s := ⟨_, rfl⟩
  exact ⟨s, hs, unwound_in_step_iff hs⟩

end Example

end Jack2.Unwinding
