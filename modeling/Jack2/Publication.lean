import Jack2.Ports

/-!
# Group-atomic publication

A history is kept beside the run and read by no step: how many swaps were made,
`Client.ports` at the end of each publishing call, and for each acquisition of the
front buffer the number of swaps before it together with the map the callback got.
-/
namespace Jack2.Ports

/-- Between two publishing calls the map last published is `Client.ports` itself. -/
def Aligned (s : State) : Prop :=
  match s.pc with
  | .registering _ | .unregistering _ => True
  | .registered | .unregistered => s.processPorts.back = s.ports
  | .clearing => s.processPorts.latest = s.ports ∧ s.processPorts.fresh = false
  | _ => s.processPorts.latest = s.ports

theorem aligned_init : Aligned init := rfl

theorem aligned_step {s t : State} {l : Label} (hs : Aligned s) (h : Step s l t) : Aligned t := by
  cases h with
  | acquire callback hfree =>
    cases hpc : s.pc <;> simp_all [Aligned]
  | release hheld => cases hpc : s.pc <;> simp_all [Aligned]
  | clearPending hpc =>
    simp only [Aligned, hpc] at hs
    simp [Aligned, TripleBuffer.latest_setPending hs.2, hs.1]
  | _ => simp_all [Aligned]

/-- One acquisition: how many swaps preceded it and the map the callback got. -/
structure View where
  epoch : ℕ
  map : PortMap

structure History where
  swaps : ℕ
  /-- `Client.ports` at the end of each publishing call that has returned. -/
  ends : List PortMap
  views : List View

namespace History

def init : History := ⟨0, [], []⟩

/-- What a step from `s` to `t` adds. `register_ports` returns with its swap,
`unregister_ports` once the collector is scheduled. -/
def record (s : State) (l : Label) (t : State) (h : History) : History :=
  match l, s.pc with
  | .acquire _, _ => { h with views := h.views ++ [⟨h.swaps, t.processPorts.front⟩] }
  | .main, .registered => { h with swaps := h.swaps + 1, ends := h.ends ++ [t.ports] }
  | .main, .unregistered => { h with swaps := h.swaps + 1 }
  | .main, .scheduling => if t.pc = .idle then { h with ends := h.ends ++ [t.ports] } else h
  | .main, .spawning => { h with ends := h.ends ++ [t.ports] }
  | _, _ => h

/-- The map with which a call that is past its swap, but has not returned, will end. -/
def opened (s : State) : List PortMap :=
  match s.pc with
  | .scheduling | .spawning => [s.ports]
  | _ => []

/-- Entry `n` is `Client.ports` at the end of the call that made swap `n`; entry zero
is the empty map of a client that has published nothing. -/
def published (s : State) (h : History) : List PortMap := ∅ :: h.ends ++ opened s

end History

open History (record published)

/-- One step of the client with its history. -/
def observe (o : State × History) (l : Label) : Option (State × History) :=
  (step o.1 l).map fun t => (t, record o.1 l t o.2)

theorem observe_cases {o p : State × History} {l : Label} (h : observe o l = some p) :
    Step o.1 l p.1 ∧ p.2 = record o.1 l p.1 o.2 := by
  obtain ⟨t, ht, rfl⟩ := Option.map_eq_some_iff.mp h
  exact ⟨step_cases ht, rfl⟩

/-- The list of published maps only grows, and by the whole of `Client.ports` at a swap. -/
theorem published_step {s t : State} {l : Label} (hs : Aligned s) (h : History)
    (hstep : Step s l t) :
    (published t (record s l t h) = published s h ∧ (record s l t h).swaps = h.swaps ∧
      t.processPorts.latest = s.processPorts.latest) ∨
    (published t (record s l t h) = published s h ++ [t.processPorts.latest] ∧
      (record s l t h).swaps = h.swaps + 1 ∧ (record s l t h).views = h.views ∧
      t.processPorts.front = s.processPorts.front ∧ t.held = s.held) := by
  cases hstep with
  | swapRegistered hpc =>
    right
    simp only [Aligned, hpc] at hs
    simp [record, published, History.opened, hpc, hs]
  | swapUnregistered hpc =>
    right
    simp only [Aligned, hpc] at hs
    simp [record, published, History.opened, hpc, hs]
  | clearPending hpc =>
    left
    simp only [Aligned, hpc] at hs
    simp [record, published, History.opened, hpc, TripleBuffer.latest_setPending hs.2]
  | acquire callback hfree => left; simp [record, published, History.opened]
  | release hheld => left; simp [record, published, History.opened]
  | _ => left; simp_all [record, published, History.opened]

/-- Only an acquisition adds a view, and nothing else touches a slot a callback holds. -/
theorem views_step {s t : State} {l : Label} (h : History) (hstep : Step s l t)
    (hl : ∀ callback, l ≠ .acquire callback) :
    (record s l t h).views = h.views ∧
      (t.held = true → s.held = true ∧ t.processPorts.front = s.processPorts.front) := by
  cases hstep with
  | acquire callback hfree => exact absurd rfl (hl callback)
  | _ => simp_all [record]

/-- What the history says about a state of the client. -/
structure Truthful (s : State) (h : History) : Prop where
  aligned : Aligned s
  latest : (published s h).getLast? = some s.processPorts.latest
  length : (published s h).length = h.swaps + 1
  views : ∀ v ∈ h.views, (published s h)[v.epoch]? = some v.map
  ordered : h.views.Pairwise (fun v w => v.epoch ≤ w.epoch)
  held : s.held = true → ∃ v, h.views.getLast? = some v ∧ v.map = s.processPorts.front

theorem truthful_init : Truthful init History.init where
  aligned := aligned_init
  latest := rfl
  length := rfl
  views := by simp [History.init]
  ordered := by simp [History.init]
  held := by simp [init]

theorem truthful_acquire {s t : State} {h : History} (callback : ProcessCallback)
    (hs : Truthful s h) (hstep : Step s (.acquire callback) t) :
    Truthful t (record s (.acquire callback) t h) := by
  have haligned := aligned_step hs.aligned hstep
  cases hstep with
  | acquire _ hfree =>
    have hlast : (published s h)[h.swaps]? = some s.processPorts.latest := by
      have := hs.latest
      rwa [List.getLast?_eq_getElem?, hs.length] at this
    have hbound : ∀ v ∈ h.views, v.epoch ≤ h.swaps := by
      intro v hv
      have hlt := (List.getElem?_eq_some_iff.mp (hs.views v hv)).1
      rw [hs.length] at hlt
      omega
    refine ⟨haligned, ?_, hs.length, ?_, ?_, ?_⟩
    · rw [TripleBuffer.latest_frontBuffer]
      exact hs.latest
    · intro v hv
      rcases List.mem_append.mp hv with hv | hv
      · exact hs.views v hv
      · rw [List.mem_singleton.mp hv]
        change (published s h)[h.swaps]? = some s.processPorts.frontBuffer.front
        rw [TripleBuffer.frontBuffer_front]
        exact hlast
    · simp only [record, List.pairwise_append, List.mem_singleton, forall_eq]
      exact ⟨hs.ordered, List.pairwise_singleton _ _, hbound⟩
    · intro _
      exact ⟨_, List.getLast?_concat, rfl⟩

theorem truthful_step {o p : State × History} {l : Label} (hs : Truthful o.1 o.2)
    (h : observe o l = some p) : Truthful p.1 p.2 := by
  obtain ⟨hstep, hrec⟩ := observe_cases h
  rw [hrec]
  by_cases hl : ∃ callback, l = .acquire callback
  · obtain ⟨callback, rfl⟩ := hl
    exact truthful_acquire callback hs hstep
  have hne : ∀ callback, l ≠ .acquire callback := fun callback he => hl ⟨callback, he⟩
  obtain ⟨hviews, hheld⟩ := views_step o.2 hstep hne
  have haligned := aligned_step hs.aligned hstep
  have hkeep : p.1.held = true → ∃ v, (record o.1 l p.1 o.2).views.getLast? = some v ∧
      v.map = p.1.processPorts.front := by
    intro ht
    obtain ⟨hold, hfront⟩ := hheld ht
    rw [hviews, hfront]
    exact hs.held hold
  rcases published_step hs.aligned o.2 hstep with ⟨hpub, hswaps, hlatest⟩ | ⟨hpub, hswaps, _⟩
  · refine ⟨haligned, ?_, ?_, ?_, by rw [hviews]; exact hs.ordered, hkeep⟩
    · rw [hpub, hlatest]; exact hs.latest
    · rw [hpub, hswaps]; exact hs.length
    · rw [hpub, hviews]; exact hs.views
  · refine ⟨haligned, by rw [hpub]; simp, ?_, ?_, by rw [hviews]; exact hs.ordered, hkeep⟩
    · rw [hpub, hswaps, List.length_append, hs.length]; rfl
    · rw [hpub, hviews]
      intro v hv
      exact List.getElem?_append_left (List.getElem?_eq_some_iff.mp (hs.views v hv)).1 ▸
        hs.views v hv

theorem truthful_run {ls : List Label} {s : State} {h : History}
    (hrun : Run.run observe (init, History.init) ls = some (s, h)) : Truthful s h :=
  have hstep : ∀ (o : State × History) l p, Truthful o.1 o.2 → observe o l = some p →
      Truthful p.1 p.2 := fun _ _ _ => truthful_step
  Run.run_invariant hstep hrun truthful_init

/-- No published map is ever withdrawn or altered later in the run. -/
theorem published_prefix {ls : List Label} {o p : State × History} (hs : Truthful o.1 o.2)
    (hrun : Run.run observe o ls = some p) : published o.1 o.2 <+: published p.1 p.2 := by
  induction ls generalizing o with
  | nil => cases hrun; exact List.prefix_rfl
  | cons l ls ih =>
    obtain ⟨q, hq, hrest⟩ := Run.run_cons_some hrun
    have hnext := ih (truthful_step hs hq) hrest
    obtain ⟨hstep, hrec⟩ := observe_cases hq
    rw [hrec] at hnext
    rcases published_step hs.aligned o.2 hstep with ⟨hpub, _⟩ | ⟨hpub, _⟩
    · rwa [hpub] at hnext
    · rw [hpub] at hnext
      exact (List.prefix_append _ _).trans hnext

/-- Whatever the interleaving: a callback that holds the front buffer sees what it saw
when it acquired it; that is the whole of `Client.ports` at the end of the publishing
call with the last swap before the acquisition; later acquisitions never see an earlier
call; and what a call published is never changed afterwards. -/
theorem publication_group_atomic {ls : List Label} {s : State} {h : History}
    (hrun : Run.run observe (init, History.init) ls = some (s, h)) :
    (s.held = true → ∃ v, h.views.getLast? = some v ∧ v.map = s.processPorts.front) ∧
    (∀ v ∈ h.views, (published s h)[v.epoch]? = some v.map) ∧
    h.views.Pairwise (fun v w => v.epoch ≤ w.epoch) ∧
    (∀ ls' p, Run.run observe (s, h) ls' = some p → published s h <+: published p.1 p.2) := by
  have ht := truthful_run hrun
  exact ⟨ht.held, ht.views, ht.ordered, fun _ _ hrest => published_prefix ht hrest⟩

/-- Two ports are registered beside a bad name, the group is acquired, and one of the
two is unregistered while the callback still runs. -/
def groupRun : List Label :=
  [.call (.registerPorts [.created ⟨⟨7⟩⟩, .nul, .created ⟨⟨9⟩⟩]), .main, .main, .main, .main, .main,
    .acquire .process, .call (.unregisterPorts [⟨⟨7⟩⟩]), .main, .main, .main]

theorem publication_group_atomic_groupRun :
    ∃ s h, Run.run observe (init, History.init) groupRun = some (s, h) ∧
      s.held = true ∧ handles s.processPorts.front = [1, 0] ∧
      (s.held = true → ∃ v, h.views.getLast? = some v ∧ v.map = s.processPorts.front) ∧
      (∀ v ∈ h.views, (published s h)[v.epoch]? = some v.map) ∧
      h.views.Pairwise (fun v w => v.epoch ≤ w.epoch) ∧
      (∀ ls' p, Run.run observe (s, h) ls' = some p → published s h <+: published p.1 p.2) := by
  have hmap : (Run.run observe (init, History.init) groupRun).map
      (fun o => (o.1.held, handles o.1.processPorts.front)) = some (true, [1, 0]) := rfl
  obtain ⟨⟨s, h⟩, hrun, hfront⟩ := Option.map_eq_some_iff.mp hmap
  simp only [Prod.mk.injEq] at hfront
  exact ⟨s, h, hrun, hfront.1, hfront.2, publication_group_atomic hrun⟩

end Jack2.Ports
