import Jack2.Collection

/-!
# Whole calls on the main thread

The runs in which only the main thread takes steps, from the start of a call or a tick to
its end, and the UUID under which each port is held all along.
-/
namespace Jack2.Ports

/-- A call with the statements of the main thread that follow. -/
def callRun (op : Op) (n : ℕ) : List Label := .call op :: List.replicate n .main

theorem step_main_idle {s : State} (h : s.pc = .idle) : step s .main = none := by
  simp [step, mainStep, h]

/-- Left alone, the main thread comes to one state only where it has nothing left to do. -/
theorem mains_unique {s t u : State} {m n : ℕ} (ht : run s (List.replicate m .main) = some t)
    (hu : run s (List.replicate n .main) = some u) (htpc : t.pc = .idle) (hupc : u.pc = .idle) :
    t = u := by
  induction m generalizing s n with
  | zero =>
    cases ht
    cases n with
    | zero => cases hu; rfl
    | succ n =>
      obtain ⟨v, hv, _⟩ := Run.run_cons_some hu
      rw [step_main_idle htpc] at hv
      cases hv
  | succ m ih =>
    obtain ⟨v, hv, ht⟩ := Run.run_cons_some ht
    cases n with
    | zero =>
      cases hu
      rw [step_main_idle hupc] at hv
      cases hv
    | succ n =>
      obtain ⟨w, hw, hu⟩ := Run.run_cons_some hu
      cases Option.some.inj (hv.symm.trans hw)
      exact ih ht hu

theorem callRun_unique {s t u : State} {op : Op} {m n : ℕ} (ht : run s (callRun op m) = some t)
    (hu : run s (callRun op n) = some u) (htpc : t.pc = .idle) (hupc : u.pc = .idle) : t = u := by
  obtain ⟨v, hv, ht⟩ := Run.run_cons_some ht
  obtain ⟨w, hw, hu⟩ := Run.run_cons_some hu
  cases Option.some.inj (hv.symm.trans hw)
  exact mains_unique ht hu htpc hupc

section Unregister

/-- The map without the listed ports. -/
def eraseAll (m : PortMap) (uuids : List OwnedPortUuid) : PortMap :=
  uuids.foldl (fun m uuid => m.erase uuid) m

@[simp] theorem eraseAll_nil (m : PortMap) : eraseAll m [] = m := rfl
@[simp] theorem eraseAll_cons (m : PortMap) (uuid : OwnedPortUuid) (uuids : List OwnedPortUuid) :
    eraseAll m (uuid :: uuids) = eraseAll (m.erase uuid) uuids := rfl

theorem mem_eraseAll {m : PortMap} {uuid : OwnedPortUuid} {uuids : List OwnedPortUuid} :
    uuid ∈ eraseAll m uuids ↔ uuid ∈ m ∧ uuid ∉ uuids := by
  induction uuids generalizing m with
  | nil => simp
  | cons first uuids ih =>
    rw [eraseAll_cons, ih, AList.mem_erase, List.mem_cons, not_or]
    constructor
    · rintro ⟨⟨hne, hm⟩, hrest⟩
      exact ⟨hm, hne, hrest⟩
    · rintro ⟨hm, hne, hrest⟩
      exact ⟨⟨hne, hm⟩, hrest⟩

theorem eraseAll_entries (m : PortMap) (uuids : List OwnedPortUuid) :
    (eraseAll m uuids).entries.Sublist m.entries := by
  induction uuids generalizing m with
  | nil => exact List.Sublist.refl _
  | cons uuid uuids ih => exact (ih _).trans (List.kerase_sublist uuid m.entries)

theorem removing_run (uuids : List OwnedPortUuid) {s : State} (hpc : s.pc = .unregistering uuids) :
    ∃ t, run s (List.replicate uuids.length .main) = some t ∧ t.pc = .unregistering [] ∧
      t.ports = eraseAll s.ports uuids ∧ t.processPorts = s.processPorts ∧
      t.pendingPortGc = s.pendingPortGc ∧ t.held = s.held := by
  induction uuids generalizing s with
  | nil => exact ⟨s, rfl, hpc, rfl, rfl, rfl, rfl⟩
  | cons uuid uuids ih =>
    obtain ⟨t, hrun, ht⟩ := ih (s := { s.removePort .main uuid with pc := .unregistering uuids }) rfl
    refine ⟨t, ?_, ht⟩
    simp only [List.length_cons, List.replicate_succ, run, Run.run_cons, step, mainStep, hpc,
      Option.bind_some]
    exact hrun

/-- What a call of `unregister_ports` with a list that is not empty leaves. -/
structure Unregistered (s : State) (uuids : List OwnedPortUuid) (t : State) : Prop where
  pc : t.pc = .idle
  ports : t.ports = eraseAll s.ports uuids
  processPorts : t.processPorts = (s.processPorts.setBack t.ports).swap
  flag : t.pendingPortGc = true
  held : t.held = s.held

theorem unregister_run {s : State} (hpc : s.pc = .idle) {uuids : List OwnedPortUuid}
    (hne : uuids ≠ []) :
    ∃ n t, run s (callRun (.unregisterPorts uuids) n) = some t ∧ Unregistered s uuids t := by
  obtain ⟨first, rest, rfl⟩ := List.exists_cons_of_ne_nil hne
  have hstart : step s (.call (.unregisterPorts (first :: rest))) =
      some { s with pc := .unregistering (first :: rest) } := by
    simp [step, hpc, start]
  obtain ⟨u, hu, hupc, hports, hslots, hflag, hheld⟩ :=
    removing_run (first :: rest) (s := { s with pc := .unregistering (first :: rest) }) rfl
  -- the store, the swap and the look at the flag, and the spawn if it was clear
  have hend : ∃ n t, run u (List.replicate n .main) = some t ∧ t.pc = .idle ∧
      t.ports = u.ports ∧ t.processPorts = (u.processPorts.setBack u.ports).swap ∧
      t.pendingPortGc = true ∧ t.held = u.held := by
    cases hgc : u.pendingPortGc with
    | true =>
      refine ⟨3, { (u.storeBack .main).swap with pc := .idle }, ?_, rfl, rfl, rfl, hgc, rfl⟩
      simp [List.replicate_succ, run, step, mainStep, hupc, State.swap, hgc, Label.thread]
    | false =>
      refine ⟨4, { (((u.storeBack .main).swap).log .main .getBufferSize).log .main .getSampleRate with
        pendingPortGc := true, collectors := u.collectors + 1, pc := .idle }, ?_, rfl, rfl, rfl,
        rfl, rfl⟩
      simp [List.replicate_succ, run, step, mainStep, hupc, State.swap, hgc, State.log, Label.thread]
  obtain ⟨n, t, ht, htpc, htports, htslots, htflag, htheld⟩ := hend
  refine ⟨(first :: rest).length + n, t, ?_, htpc, htports.trans hports, ?_, htflag,
    htheld.trans hheld⟩
  · simp only [callRun, List.replicate_add, run, Run.run_cons, hstart, Option.bind_some]
    exact Run.run_join hu ht
  · rw [htslots, hslots, htports]

end Unregister

section Register

def Item.uuid : Item → Option OwnedPortUuid
  | .created uuid => some uuid
  | _ => none

/-- The UUIDs of the ports that libjack creates. -/
def createdBy (items : List Item) : List OwnedPortUuid := items.filterMap Item.uuid

theorem createdBy_cons (item : Item) (items : List Item) :
    createdBy (item :: items) = createdBy [item] ++ createdBy items := by
  cases item <;> rfl

/-- One item adds the port that libjack creates for it, if it creates one. -/
theorem registering_step {s : State} {item : Item} {items : List Item}
    (hpc : s.pc = .registering (item :: items)) (hnew : ∀ uuid ∈ createdBy [item], uuid ∉ s.ports) :
    ∃ t, step s .main = some t ∧ t.pc = .registering items ∧ t.processPorts = s.processPorts ∧
      ∀ uuid, uuid ∈ t.ports ↔ uuid ∈ createdBy [item] ∨ uuid ∈ s.ports := by
  simp only [step, mainStep, hpc]
  cases item with
  | nul => exact ⟨_, rfl, rfl, rfl, by simp [createdBy, Item.uuid]⟩
  | refused => exact ⟨_, rfl, rfl, rfl, by simp [createdBy, Item.uuid]⟩
  | created uuid =>
    have hunused : uuid ∉ s.ports := hnew uuid List.mem_cons_self
    simp only [registerItem, hunused, if_false]
    exact ⟨_, rfl, rfl, rfl, by simp [createdBy, Item.uuid, AList.mem_insert]⟩

theorem registering_run (items : List Item) {s : State} (hpc : s.pc = .registering items)
    (hnew : ∀ uuid ∈ createdBy items, uuid ∉ s.ports) (hnodup : (createdBy items).Nodup) :
    ∃ t, run s (List.replicate items.length .main) = some t ∧ t.pc = .registering [] ∧
      (∀ uuid, uuid ∈ t.ports ↔ uuid ∈ createdBy items ∨ uuid ∈ s.ports) ∧
      t.processPorts = s.processPorts := by
  induction items generalizing s with
  | nil => exact ⟨s, rfl, hpc, by simp [createdBy], rfl⟩
  | cons item items ih =>
    rw [createdBy_cons] at hnew hnodup ⊢
    obtain ⟨_, hrest, hdisjoint⟩ := List.nodup_append.mp hnodup
    obtain ⟨u, hu, hupc, huslots, huports⟩ :=
      registering_step hpc fun uuid h => hnew uuid (List.mem_append_left _ h)
    have hunew : ∀ uuid ∈ createdBy items, uuid ∉ u.ports := by
      intro uuid huuid hmem
      rcases (huports uuid).mp hmem with hitem | hold
      · exact hdisjoint uuid hitem uuid huuid rfl
      · exact hnew uuid (List.mem_append_right _ huuid) hold
    obtain ⟨t, ht, htpc, htports, htslots⟩ := ih hupc hunew hrest
    refine ⟨t, ?_, htpc, fun uuid => ?_, htslots.trans huslots⟩
    · rw [List.length_cons, List.replicate_succ, run, Run.run_cons, hu, Option.bind_some]
      exact ht
    · rw [htports, huports, List.mem_append]
      exact or_left_comm.trans or_assoc.symm

/-- A call of `register_ports` for a list that is not empty publishes the map it has made. -/
theorem register_run {s : State} (hpc : s.pc = .idle) {items : List Item} (hne : items ≠ [])
    (hnew : ∀ uuid ∈ createdBy items, uuid ∉ s.ports) (hnodup : (createdBy items).Nodup) :
    ∃ t, run s (callRun (.registerPorts items) (items.length + 2)) = some t ∧ t.pc = .idle ∧
      (∀ uuid, uuid ∈ t.ports ↔ uuid ∈ createdBy items ∨ uuid ∈ s.ports) ∧
      t.processPorts = (s.processPorts.setBack t.ports).swap := by
  have hstart : step s (.call (.registerPorts items)) = some { s with pc := .registering items } := by
    obtain ⟨first, rest, rfl⟩ := List.exists_cons_of_ne_nil hne
    simp [step, hpc, start]
  obtain ⟨u, hu, hupc, hports, hslots⟩ :=
    registering_run items (s := { s with pc := .registering items }) rfl hnew hnodup
  refine ⟨{ (u.storeBack .main).swap with pc := .idle }, ?_, rfl, hports, ?_⟩
  · rw [callRun, List.replicate_add, run, Run.run_cons, hstart, Option.bind_some]
    refine Run.run_join hu ?_
    simp [List.replicate_succ, step, mainStep, hupc, State.swap, Label.thread]
  · change (u.processPorts.setBack u.ports).swap = _
    rw [hslots]
    rfl

end Register

/-- A tick that finds the pending slot published clears the back slot and nothing else. -/
theorem tick_fresh_run {s : State} (hpc : s.pc = .idle) (hlive : s.collectors ≠ 0)
    (hfresh : s.processPorts.fresh = true) :
    run s (callRun .tick 2) = some { s.clearBack .main with pc := .idle } := by
  have hkeep : (s.processPorts.setBack ∅).pendingMut = none :=
    TripleBuffer.pendingMut_eq_none.mpr hfresh
  simp only [callRun, List.replicate_succ, List.replicate_zero, run, Run.run_cons, Run.run_nil,
    step, hpc, start, hlive, mainStep, if_true, if_false, Option.bind_some, clearBack_processPorts,
    hkeep]
  rfl

section Named

/-- The ports of a map are those that an assignment of UUIDs gives its keys. -/
def NamedBy (owner : JackPort → OwnedPortUuid) (m : PortMap) : Prop :=
  ∀ e ∈ m.entries, owner e.2 = e.1

/-- No port is held under two UUIDs. -/
structure Named (owner : JackPort → OwnedPortUuid) (s : State) : Prop where
  ports : NamedBy owner s.ports
  front : NamedBy owner s.processPorts.front
  pending : NamedBy owner s.processPorts.pending
  back : NamedBy owner s.processPorts.back

theorem namedBy_empty (owner : JackPort → OwnedPortUuid) : NamedBy owner ∅ := by
  intro e he
  cases he

theorem named_init (owner : JackPort → OwnedPortUuid) : Named owner init :=
  ⟨namedBy_empty owner, namedBy_empty owner, namedBy_empty owner, namedBy_empty owner⟩

theorem NamedBy.sublist {owner : JackPort → OwnedPortUuid} {m m' : PortMap} (h : NamedBy owner m)
    (hsub : m'.entries.Sublist m.entries) : NamedBy owner m' := fun e he => h e (hsub.subset he)

/-- The name of a port that is not in the map does not matter. -/
theorem NamedBy.update {owner : JackPort → OwnedPortUuid} {m : PortMap} (h : NamedBy owner m)
    {p : JackPort} (hp : p ∉ handles m) (uuid : OwnedPortUuid) :
    NamedBy (Function.update owner p uuid) m := by
  intro e he
  have hne : e.2 ≠ p := by
    rintro rfl
    exact hp (List.mem_map.mpr ⟨e, he, rfl⟩)
  rw [Function.update_of_ne hne]
  exact h e he

theorem named_step {owner : JackPort → OwnedPortUuid} {s t : State} {l : Label}
    (ho : Owned s s.holds) (h : Named owner s) (hstep : Step s l t) : ∃ owner', Named owner' t := by
  obtain ⟨hports, hfront, hpending, hback⟩ := h
  cases hstep with
  | itemCreated uuid items hpc hnew =>
    have hunused : s.next ∉ s.holds := fun hmem => Nat.lt_irrefl _ (ho.bound _ hmem)
    simp only [State.holds, Multiset.mem_add, Multiset.mem_coe, not_or, mem_slots] at hunused
    obtain ⟨hp, hf, hpe, hb⟩ := hunused
    refine ⟨Function.update owner s.next uuid, ?_, hfront.update hf uuid, hpending.update hpe uuid,
      hback.update hb uuid⟩
    intro e he
    rcases List.mem_cons.mp (AList.entries_insert_of_notMem hnew ▸ he) with rfl | he
    · exact Function.update_self ..
    · exact hports.update hp uuid e he
  | storeRegistered hpc => exact ⟨owner, hports, hfront, hpending, hports⟩
  | storeUnregistered hpc => exact ⟨owner, hports, hfront, hpending, hports⟩
  | swapRegistered hpc => exact ⟨owner, hports, hfront, hback, hpending⟩
  | swapUnregistered hpc => exact ⟨owner, hports, hfront, hback, hpending⟩
  | remove port ports hpc =>
    exact ⟨owner, hports.sublist (List.kerase_sublist port s.ports.entries), hfront, hpending, hback⟩
  | clearBack hpc => exact ⟨owner, hports, hfront, hpending, namedBy_empty owner⟩
  | clearPending hpc => exact ⟨owner, hports, hfront, namedBy_empty owner, hback⟩
  | acquire callback hfree =>
    refine ⟨owner, hports, ?_, ?_, ?_⟩ <;>
      simp only [TripleBuffer.frontBuffer] <;> split <;> assumption
  | _ => exact ⟨owner, hports, hfront, hpending, hback⟩

end Named

end Jack2.Ports
