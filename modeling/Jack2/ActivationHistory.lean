import Jack2.Dangling

/-!
# What earlier failures leave for an activation

An activation clears the latency callback only when it has a notification handler, and the
sync callback only when it has a process handler. So the table it leaves is its own exactly
when an entry that it would not clear was not left over.
-/
namespace Jack2

variable {P N : Type*}

section Setters

variable {process notification : Option BoxPtr} {flags : ActivateFlags}

/-- Successful setter calls leave exactly the activation's own table when no other entry was there. -/
theorem effects_setters_eq_iff {t : Table} (htimebase : t .timebase = none) :
    effects (fun _ => 0) (setters process notification flags) t =
        activationTable process notification flags ↔
      (notification.isSome = true ∨ t .latency = none) ∧
        (process.isSome = true ∨ t .sync = none) := by
  have hleft : effects (fun _ => 0) (setters process notification flags) t =
      activationTable process notification flags ↔
        ∀ k, k ∉ setterKinds process.isSome notification.isSome (flags.contains .timebase) →
          t k = none := by
    rw [funext_iff]
    refine forall_congr' fun k => ?_
    rw [effects_setters]
    by_cases hk : k ∈ setterKinds process.isSome notification.isSome (flags.contains .timebase)
    · simp [hk]
    · simp [hk, activationTable_of_notMem hk]
  rw [hleft]
  constructor
  · intro h
    constructor
    · by_contra hn
      rw [not_or] at hn
      exact hn.2 (h .latency (by simp [mem_setterKinds, hn.1]))
    · by_contra hn
      rw [not_or] at hn
      exact hn.2 (h .sync (by simp [mem_setterKinds, hn.1]))
  · rintro ⟨hlatency, hsync⟩ k hk
    rw [mem_setterKinds] at hk
    cases k <;> simp_all

end Setters

namespace Session

/-- A client that is not active has no timebase entry. -/
def Untimed (s : State P N) : Prop :=
  ∀ client, s.phase = .inactive client → s.world.jack .timebase = none

theorem untimed_step {s t : State P N} {l : Label P N} (h : Untimed s) (hstep : Step s l t) :
    Untimed t := by
  cases hstep with
  | refused client hphase processHandler notificationHandler flags answers w hfail hheap hjack =>
    intro _ _
    have hkeep := effects_passing_timebase hfail s.world.jack
    simp only [hjack, settersOf]
    rw [effects_undoCalls answers flags (hkeep.trans (h client hphase)), hkeep]
    exact h client hphase
  | activated client hphase processHandler notificationHandler flags answers w hpass hheap hjack =>
    intro _ hinactive
    cases hinactive
  | deactivated client hphase answers w hcode hheap hjack =>
    intro _ hinactive
    cases hinactive
  | keep client hphase l w cs hcs hheap hjack hop =>
    intro _ hinactive
    cases hinactive

theorem untimed_run {client : Client} {ls : List (Label P N)} {s : State P N}
    (hrun : run (init client) ls = some s) : Untimed s :=
  Run.run_invariant (fun _ _ _ hu hstep => untimed_step hu (step_cases hstep)) hrun
    fun _ _ => rfl

/-- After any failed attempts, an activation whose calls all succeed leaves exactly its own
table if and only if it has a notification handler or no latency entry was left over, and
it has a process handler or no sync entry was left over. -/
theorem activate_table_iff {client : Client} {ls : List (Label P N)} {s : State P N}
    (hrun : run (init client) ls = some s) {inactive : InactiveClient}
    (hphase : s.phase = .inactive inactive) (processHandler : Option P)
    (notificationHandler : Option N) (flags : ActivateFlags) :
    (activate (tableJack fun _ => 0) inactive processHandler notificationHandler flags
        s.world).2.jack =
        activationTable (processBox processHandler s.world)
          (notificationBox processHandler notificationHandler s.world) flags ↔
      (notificationHandler.isSome = true ∨ s.world.jack .latency = none) ∧
        (processHandler.isSome = true ∨ s.world.jack .sync = none) := by
  have hpass : ∀ c ∈ settersOf processHandler notificationHandler flags s.world,
      0 ≤ codeOf (fun _ => 0) c := by simp [codeOf]
  have hresult := checkedCalls_isOk (fun _ => 0) inactive.client.client
    (settersOf processHandler notificationHandler flags s.world) s.world
  have hjack := checkedCalls_jack (fun _ => 0) inactive.client.client
    (settersOf processHandler notificationHandler flags s.world) s.world
  rw [if_pos hpass] at hresult
  rw [passing_eq_self hpass] at hjack
  have hfinish : (activate (tableJack fun _ => 0) inactive processHandler notificationHandler
      flags s.world).2.jack = effects (fun _ => 0)
        (settersOf processHandler notificationHandler flags s.world) s.world.jack := by
    rw [activate_ok (Prod.ext hresult rfl), ← hjack]
    cases notificationHandler <;> simp [finish, Call.effect]
  rw [hfinish, settersOf, effects_setters_eq_iff (untimed_run hrun inactive hphase)]
  cases processHandler <;> cases notificationHandler <;>
    simp [processBox, notificationBox]

/-- An attempt that sets the latency callback and fails at the sync callback. -/
def failedAttempt : List (Label Unit Unit) :=
  [⟨.activate (some ()) (some ()) ⟨3⟩, fun c => if c.kind = some .sync then -1 else 0⟩]

theorem activate_table_iff_failedAttempt :
    ∃ s inactive, run (init ⟨1, 1⟩) failedAttempt = some s ∧ s.phase = .inactive inactive ∧
      (activate (tableJack fun _ => 0) inactive (some ()) (some ()) ⟨0⟩ s.world).2.jack =
        activationTable (processBox (some ()) s.world)
          (notificationBox (some ()) (some ()) s.world) ⟨0⟩ := by
  have hmap : (run (init ⟨1, 1⟩) failedAttempt).map State.phase = some (.inactive ⟨⟨1, 1⟩⟩) := rfl
  obtain ⟨s, hs, hphase⟩ := Option.map_eq_some_iff.mp hmap
  refine ⟨s, _, hs, hphase, (activate_table_iff hs hphase _ _ _).mpr ⟨Or.inl rfl, Or.inl rfl⟩⟩

/-- The same attempt, and then an activation without handlers: the latency entry is left. -/
theorem activate_table_leftover :
    ∃ s inactive, run (init ⟨1, 1⟩) failedAttempt = some s ∧ s.phase = .inactive inactive ∧
      (activate (tableJack fun _ => 0) inactive (none : Option Unit) (none : Option Unit) ⟨0⟩
          s.world).2.jack ≠
        activationTable (processBox (none : Option Unit) s.world)
          (notificationBox (none : Option Unit) (none : Option Unit) s.world) ⟨0⟩ := by
  refine ⟨_, ⟨⟨1, 1⟩⟩, rfl, rfl, ?_⟩
  intro h
  have hlatency := congrFun h .latency
  exact absurd hlatency (by decide)

end Session

end Jack2
