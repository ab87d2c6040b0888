import Jack2.Session

/-!
# When a callback argument dangles

The error path of `activate` and a successful `deactivate` free the boxes without clearing
the callbacks that were set with them. No stored argument dangles exactly in the runs in
which neither happens after a callback was set.
-/
namespace Jack2.Session

variable {P N : Type*}

/-- Every stored argument is the address of a box that is alive. -/
def NoDangling (s : State P N) : Prop :=
  ∀ k e, s.world.jack k = some e → e.arg ∈ s.world.heap.live

/-- The condition on one operation: an activation does not fail after a call of its own
that set a callback took effect, and a deactivation that succeeds finds the table empty but
for a timebase entry that it releases. -/
def Harmless (s : State P N) (l : Label P N) : Prop :=
  match s.phase, l.op with
  | .inactive _, .activate processHandler notificationHandler flags =>
    let cs := settersOf processHandler notificationHandler flags s.world
    (∀ c ∈ cs, 0 ≤ codeOf l.answers c) ∨
      ∀ c ∈ passing l.answers cs, c.value.isSome = true → codeOf l.answers c ≠ 0
  | .active _, .deactivate =>
    l.answers .deactivate < 0 ∨
      ∀ k, s.world.jack k ≠ none → k = .timebase ∧ l.answers .releaseTimebase = 0
  | _, _ => True

theorem owns_init (client : Client) : Owns (init client : State P N) := ⟨rfl, List.nodup_nil⟩

theorem noDangling_init (client : Client) : NoDangling (init client : State P N) := nofun

/-- Without a box alive nothing may be stored at all. -/
theorem noDangling_iff_empty {s : State P N} (h : s.world.heap.live = []) :
    NoDangling s ↔ ∀ k, s.world.jack k = none := by
  constructor
  · intro hs k
    cases he : s.world.jack k with
    | none => rfl
    | some e =>
      have := hs k e he
      rw [h] at this
      cases this
  · intro hs k e he
    rw [hs k] at he
    cases he

/-- An inactive client owns no box. -/
theorem Owns.live_inactive {s : State P N} (h : Owns s) {client : InactiveClient}
    (hphase : s.phase = .inactive client) : s.world.heap.live = [] := by
  have hlive := h.live
  rwa [hphase] at hlive

theorem activated_boxes (client : InactiveClient) (processHandler : Option P)
    (notificationHandler : Option N) (w : World Table) :
    (Phase.active (activated client processHandler notificationHandler w)).boxes =
      (notificationBox processHandler notificationHandler w).toList ++
        (processBox processHandler w).toList := by
  cases processHandler <;> cases notificationHandler <;> rfl

theorem activatedHeap_live (processHandler : Option P) (notificationHandler : Option N)
    (w : World Table) : (activatedHeap processHandler notificationHandler w).live =
      (notificationBox processHandler notificationHandler w).toList ++
        (processBox processHandler w).toList ++ w.heap.live := by
  cases processHandler <;> cases notificationHandler <;> rfl

theorem nodup_boxes (processHandler : Option P) (notificationHandler : Option N)
    (w : World Table) : ((notificationBox processHandler notificationHandler w).toList ++
      (processBox processHandler w).toList).Nodup := by
  cases processHandler <;> cases notificationHandler <;>
    simp [notificationBox, processBox, Heap.alloc]

/-- A deactivated client has given up all its boxes. -/
theorem live_deactivated {s : State P N} (h : Owns s) {client : ActiveClient P N}
    (hphase : s.phase = .active client) :
    (freeBox (client.notificationData.map NotificationHandle.ptr)
      (freeBox (client.processData.map Boxed.ptr) s.world)).heap.live = [] := by
  obtain ⟨hlive, hnodup⟩ := h
  rw [hphase] at hlive hnodup
  simp only [Phase.boxes] at hlive hnodup
  cases hp : client.processData <;> cases hn : client.notificationData <;>
    simp_all [freeBox, Heap.free]

theorem owns_step {s t : State P N} {l : Label P N} (h : Owns s) (hstep : Step s l t) :
    Owns t := by
  cases hstep with
  | activated client hphase processHandler notificationHandler flags answers w hpass hheap hjack =>
    constructor
    · rw [activated_boxes, hheap, activatedHeap_live, h.live_inactive hphase]
      exact List.append_nil _
    · rw [activated_boxes]
      exact nodup_boxes _ _ _
  | refused client hphase processHandler notificationHandler flags answers w hfail hheap hjack =>
    exact ⟨hheap.trans (h.live_inactive hphase), List.nodup_nil⟩
  | deactivated client hphase answers w hcode hheap hjack =>
    refine ⟨?_, List.nodup_nil⟩
    rw [hheap]
    exact live_deactivated h hphase
  | keep client hphase l w cs hcs hheap hjack hop =>
    obtain ⟨hlive, hnodup⟩ := h
    rw [hphase] at hlive hnodup
    exact ⟨by rw [hheap]; exact hlive, hnodup⟩

theorem owns_run {client : Client} {history : List (Label P N)} {s : State P N}
    (hrun : run (init client) history = some s) : Owns s :=
  Run.run_invariant (fun _ _ _ h hstep => owns_step h (step_cases hstep)) hrun (owns_init client)

/-- The undoing of a failed activation has no effect on the kinds other than the timebase,
and none at all where no timebase is set. -/
theorem effects_undoCalls (answers : Call → Int) (flags : ActivateFlags) {t : Table}
    (h : t .timebase = none) : effects answers (undoCalls flags) t = t := by
  have hrelease : Function.update t .timebase none = t := by
    rw [← h]
    exact Function.update_eq_self _ _
  unfold undoCalls
  split <;> simp [Call.effect, hrelease]

/-- What a failing activation leaves in an empty table. -/
theorem refused_empty_iff {process notification : Option BoxPtr} {flags : ActivateFlags}
    {answers : Call → Int} {t : Table} (ht : ∀ k, t k = none)
    (hfail : ∃ c ∈ setters process notification flags, codeOf answers c < 0) :
    (∀ k, effects answers (undoCalls flags)
        (effects answers (passing answers (setters process notification flags)) t) k = none) ↔
      ∀ c ∈ passing answers (setters process notification flags),
        c.value.isSome = true → codeOf answers c ≠ 0 := by
  have hset : ∀ c ∈ passing answers (setters process notification flags),
      c.kind.isSome = true := fun c hc => setters_kind_isSome _ _ _ c (passing_subset hc)
  have hnodup : ((passing answers (setters process notification flags)).map Call.kind).Nodup :=
    ((List.takeWhile_sublist _).map _).nodup (setters_kind_nodup _ _ _)
  have htimebase : effects answers (passing answers (setters process notification flags)) t
      .timebase = none := (effects_passing_timebase hfail t).trans (ht _)
  rw [effects_undoCalls answers flags htimebase]
  constructor
  · intro hempty c hc hvalue hzero
    obtain ⟨k, hk⟩ := Option.isSome_iff_exists.mp (hset c hc)
    have hstored : effects answers (passing answers (setters process notification flags)) t k =
        if codeOf answers c = 0 then c.value else t k := effects_of_mem hset hnodup hc hk t
    rw [hempty k, if_pos hzero] at hstored
    rw [← hstored] at hvalue
    cases hvalue
  · intro hnone k
    cases he : effects answers (passing answers (setters process notification flags)) t k with
    | none => rfl
    | some e =>
      refine absurd he (effects_forall (Q := fun _ => False) ?_ ?_ k e)
      · intro k e he
        rw [ht k] at he
        cases he
      · intro c hc hzero e hvalue
        exact hnone c hc (by rw [hvalue]; rfl) hzero

/-- One operation keeps every stored argument alive exactly when it is harmless. -/
theorem noDangling_step {s t : State P N} {l : Label P N} (h : Owns s) (hs : NoDangling s)
    (hstep : Step s l t) : NoDangling t ↔ Harmless s l := by
  cases hstep with
  | activated client hphase processHandler notificationHandler flags answers w hpass hheap hjack =>
    simp only [Harmless, hphase]
    refine ⟨fun _ => Or.inl hpass, fun _ k e he => ?_⟩
    have hempty := (noDangling_iff_empty (h.live_inactive hphase)).mp hs
    simp only [hheap, activatedHeap_live]
    simp only [hjack] at he
    refine effects_forall (Q := fun e => e.arg ∈ _) ?_ ?_ k e he
    · intro k e he
      rw [hempty k] at he
      cases he
    · intro c hc _ e hvalue
      rcases setters_value hc hvalue with hb | hb <;> simp [hb]
  | refused client hphase processHandler notificationHandler flags answers w hfail hheap hjack =>
    have hlive := h.live_inactive hphase
    have hempty := (noDangling_iff_empty hlive).mp hs
    rw [noDangling_iff_empty (hheap.trans hlive)]
    simp only [hjack, Harmless, hphase]
    rw [settersOf] at hfail
    rw [settersOf, refused_empty_iff hempty hfail]
    constructor
    · exact Or.inr
    · rintro (hpass | hnone)
      · obtain ⟨c, hc, hneg⟩ := hfail
        have := hpass c hc
        omega
      · exact hnone
  | deactivated client hphase answers w hcode hheap hjack =>
    have hlive : w.heap.live = [] := by
      rw [hheap]
      exact live_deactivated h hphase
    rw [noDangling_iff_empty hlive]
    have hnot : ¬answers .deactivate < 0 := by omega
    simp only [hjack, Harmless, hphase, hnot, false_or]
    refine forall_congr' fun k => ?_
    by_cases hk : k = .timebase
    · subst hk
      by_cases hzero : answers .releaseTimebase = 0 <;>
        simp [Call.effect, codeOf, Call.isVoid, hzero]
    · by_cases hzero : answers .releaseTimebase = 0 <;>
        simp [Call.effect, codeOf, Call.isVoid, hzero, hk]
  | keep client hphase l w cs hcs hheap hjack hop =>
    have hharmless : Harmless s l := by
      unfold Harmless
      rw [hphase]
      cases hl : l.op with
      | deactivate => exact Or.inl (hop hl)
      | _ => trivial
    refine ⟨fun _ => hharmless, fun _ k e he => ?_⟩
    simp only [hjack] at he
    simp only [hheap]
    refine effects_forall (Q := fun e => e.arg ∈ s.world.heap.live) hs ?_ k e he
    intro c hc _ e hvalue
    rw [h.live, hphase]
    simp [Phase.boxes, hcs c hc e hvalue]

/-- Throughout a run every stored argument is alive if and only if every operation of the
run is harmless in the state it meets. -/
theorem noDangling_iff_harmless {client : Client} {ls : List (Label P N)} {s : State P N}
    (hrun : run (init client) ls = some s) :
    Run.Throughout NoDangling step (init client) ls ↔
      Run.Along Harmless step (init client) ls := by
  have hinv : ∀ (s : State P N) l t, Owns s → step s l = some t → Owns t :=
    fun _ _ _ ho h => owns_step ho (step_cases h)
  have hstep : ∀ (s : State P N) l t, Owns s → NoDangling s → step s l = some t →
      (NoDangling t ↔ Harmless s l) := fun _ _ _ ho hd h => noDangling_step ho hd (step_cases h)
  exact Run.throughout_iff_along hinv hstep hrun (owns_init client) (noDangling_init client)

/-- A full activation, and a deactivation that libjack refuses. -/
def keptRun : List (Label Unit Unit) :=
  [⟨.activate (some ()) (some ()) ⟨7⟩, fun _ => 0⟩,
    ⟨.deactivate, fun c => if c = .deactivate then -1 else 0⟩]

theorem noDangling_iff_harmless_keptRun :
    ∃ s, run (init ⟨1, 1⟩) keptRun = some s ∧
      Run.Throughout NoDangling step (init ⟨1, 1⟩ : State Unit Unit) keptRun := by
  obtain ⟨s, hs⟩ : ∃ s, run (init ⟨1, 1⟩) keptRun = some s := ⟨_, rfl⟩
  refine ⟨s, hs, (noDangling_iff_harmless hs).mpr ⟨?_, ?_⟩⟩
  · exact Or.inl fun c _ => by simp [codeOf]
  · intro t ht
    obtain rfl := Option.some.inj ht
    exact ⟨Or.inl (by decide), fun _ _ => trivial⟩

/-- The freewheel setter fails: the shutdown callback keeps the address of the box that the
error path freed, on a client that is given back. -/
theorem dangling_after_refusal :
    ∃ s, run (init ⟨1, 1⟩ : State Unit Unit)
        [⟨.activate none (some ()) ⟨0⟩, fun c => if c.kind = some .freewheel then -1 else 0⟩] =
          some s ∧ ¬NoDangling s := by
  refine ⟨_, rfl, ?_⟩
  intro h
  have hlive := h .shutdown ⟨.shutdownCallback, 0⟩ rfl
  exact absurd hlive (by decide)

end Jack2.Session
