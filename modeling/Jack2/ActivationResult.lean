import Jack2.Activation
import Jack2.CallbackTable

/-!
# Does activation report what happened

`res.map(|_| check_ret(jack_activate(..)))` leaves the code of `jack_activate` inside the
success of the stages before it, and only the outer result is looked at. The result is
therefore right exactly when `jack_activate` did not fail, or was never called.
-/
namespace Jack2

variable {σ P N : Type*}

/-- What the outcome of an activation should say of the calls it made. -/
structure TruthfulActivation (inactive : InactiveClient) (processHandler : Option P)
    (notificationHandler : Option N)
    (outcome : Except (ActivateError P N) (ActiveClient P N) × World σ) : Prop where
  ok_iff : outcome.1.isOk = true ↔
    ∀ client c ret, Event.call client c ret ∈ outcome.2.trace → 0 ≤ ret
  givesBack : ∀ e, outcome.1 = .error e → e = ⟨inactive, processHandler, notificationHandler⟩
  stops : outcome.1.isOk = false → ∀ before client c ret after,
    outcome.2.trace = before ++ Event.call client c ret :: after → ret < 0 →
      ∀ client' c' ret', Event.call client' c' ret' ∈ after → c'.isSetter = false
  deactivates : outcome.1.isOk = false →
    ∃ ret, Event.call inactive.client.client .deactivate ret ∈ outcome.2.trace
  quiet : outcome.1.isOk = false → Event.spawn ∉ outcome.2.trace

theorem call_mem_events {xs : List (Call × Int)} {client client' : JackClient} {c : Call}
    {ret : Int} (h : Event.call client' c ret ∈ xs.map fun y => Event.call client y.1 y.2) :
    (c, ret) ∈ xs := by
  obtain ⟨y, hy, he⟩ := List.mem_map.mp h
  obtain ⟨-, hc, hret⟩ := Event.call.inj he
  rwa [← hc, ← hret]

/-- Behind the one failing call of a list there is nothing of that list. -/
theorem after_failing {before after : List Event} {client client' : JackClient} {c : Call}
    {ret : Int} {passed : List (Call × Int)} {x : Call × Int} {rest : List Event}
    (hpassed : ∀ y ∈ passed, 0 ≤ y.2) (hret : ret < 0)
    (h : passed.map (fun y => Event.call client y.1 y.2) ++ Event.call client x.1 x.2 :: rest =
      before ++ Event.call client' c ret :: after) : ∀ e ∈ after, e ∈ rest := by
  induction passed generalizing before with
  | nil =>
    cases before with
    | nil =>
      intro e he
      rw [(List.cons.inj h).2]
      exact he
    | cons b before =>
      intro e he
      rw [List.map_nil, List.nil_append] at h
      rw [(List.cons.inj h).2]
      simp [he]
  | cons y passed ih =>
    cases before with
    | nil =>
      have hhead := (List.cons.inj h).1
      have hy := hpassed y List.mem_cons_self
      rw [Event.call.injEq] at hhead
      omega
    | cons b before =>
      exact ih (fun z hz => hpassed z (List.mem_cons_of_mem y hz)) (List.cons.inj h).2

section Table

variable {self : InactiveClient} {processHandler : Option P} {notificationHandler : Option N}
  {flags : ActivateFlags} {answers : Call → Int} {w : World Table}

/-- A failing activation passes some setters, fails at one and undoes. -/
theorem activate_failing (self : InactiveClient) (htrace : w.trace = [])
    (hfail : ∃ c ∈ settersOf processHandler notificationHandler flags w, codeOf answers c < 0) :
    ∃ (passed : List (Call × Int)) (x : Call × Int) (undone : List (Call × Int)),
      (∀ y ∈ passed, 0 ≤ y.2) ∧ x.2 < 0 ∧ undone.map Prod.fst = undoCalls flags ∧
        (activate (tableJack answers) self processHandler notificationHandler flags w).1 =
          .error ⟨self, processHandler, notificationHandler⟩ ∧
        (activate (tableJack answers) self processHandler notificationHandler flags w).2.trace =
          passed.map (fun y => Event.call self.client.client y.1 y.2) ++
            Event.call self.client.client x.1 x.2 ::
              undone.map fun y => Event.call self.client.client y.1 y.2 := by
  have hresult := checkedCalls_isOk answers self.client.client
    (settersOf processHandler notificationHandler flags w) w
  have hnot : ¬∀ c ∈ settersOf processHandler notificationHandler flags w,
      0 ≤ codeOf answers c := by
    obtain ⟨c, hc, hneg⟩ := hfail
    intro hall
    have := hall c hc
    omega
  rw [if_neg hnot] at hresult
  obtain ⟨made, hmade, hcalls⟩ := checkedCalls_made (tableJack answers) self.client.client
    (settersOf processHandler notificationHandler flags w) w
  obtain ⟨passed, x, rfl, hpassed, hx⟩ := hmade.fails (by rw [hresult]; rfl)
  obtain ⟨heap, _, _, hact⟩ := activate_error (Prod.ext hresult rfl)
  obtain ⟨undone, hundone, hundo⟩ := undo_trace (tableJack answers) self.client flags
    (checkedCalls (tableJack answers) self.client.client
      (settersOf processHandler notificationHandler flags w) w).2
  exists passed, x, undone
  rw [hact]
  refine ⟨hpassed, hx, hundone, rfl, ?_⟩
  simp [hundo, hcalls, htrace]

/-- With a failing setter call everything promised of a failure is kept. -/
theorem truthful_of_failing (htrace : w.trace = [])
    (hfail : ∃ c ∈ settersOf processHandler notificationHandler flags w, codeOf answers c < 0) :
    TruthfulActivation self processHandler notificationHandler
      (activate (tableJack answers) self processHandler notificationHandler flags w) := by
  obtain ⟨passed, x, undone, hpassed, hx, hundone, herror, hevents⟩ :=
    activate_failing self htrace hfail
  constructor
  · rw [herror, hevents]
    simp only [Except.isOk, Except.toBool, Bool.false_eq_true, false_iff]
    intro hnonneg
    have := hnonneg self.client.client x.1 x.2 (by simp)
    omega
  · intro e he
    rw [herror] at he
    cases he
    rfl
  · intro _ before client c ret after heq hret client' c' ret' hmem
    rw [hevents] at heq
    have hlate := call_mem_events (after_failing hpassed hret heq _ hmem)
    have hundo : c' ∈ undoCalls flags := by
      rw [← hundone]
      exact List.mem_map_of_mem hlate
    exact undoCalls_not_setter hundo
  · intro _
    have hmem := deactivate_mem_undoCalls flags
    rw [← hundone] at hmem
    obtain ⟨y, hy, he⟩ := List.mem_map.mp hmem
    exists y.2
    rw [hevents, ← he]
    simp only [List.mem_append, List.mem_cons, List.mem_map]
    exact Or.inr (Or.inr ⟨y, hy, rfl⟩)
  · intro _
    rw [hevents]
    simp

/-- Without one the result is a success, and right when `jack_activate` succeeded too. -/
theorem truthful_of_passing (htrace : w.trace = [])
    (hpass : ∀ c ∈ settersOf processHandler notificationHandler flags w, 0 ≤ codeOf answers c) :
    TruthfulActivation self processHandler notificationHandler
        (activate (tableJack answers) self processHandler notificationHandler flags w) ↔
      0 ≤ answers .activate := by
  have hresult := checkedCalls_isOk answers self.client.client
    (settersOf processHandler notificationHandler flags w) w
  rw [if_pos hpass] at hresult
  obtain ⟨made, hmade, hcalls⟩ := checkedCalls_made (tableJack answers) self.client.client
    (settersOf processHandler notificationHandler flags w) w
  obtain ⟨_, hnonneg⟩ := hmade.succeeds (by rw [hresult]; rfl)
  have hact := activate_ok (Prod.ext hresult rfl)
  have hmem : ∀ client c ret, Event.call client c ret ∈
      (activate (tableJack answers) self processHandler notificationHandler flags w).2.trace ↔
        (Event.call client c ret ∈ made.map fun x => Event.call self.client.client x.1 x.2) ∨
          Event.call client c ret =
            Event.call self.client.client .activate (answers .activate) := by
    intro client c ret
    rw [hact]
    simp only [finish_trace, call_tableJack_code, hcalls, htrace, List.nil_append, List.mem_append,
      List.mem_singleton, codeOf, Call.isVoid, Bool.false_eq_true, if_false]
    cases notificationHandler <;> simp
  constructor
  · intro h
    have hok : (activate (tableJack answers) self processHandler notificationHandler flags
        w).1.isOk = true := by rw [hact]; rfl
    exact h.ok_iff.mp hok self.client.client .activate _ ((hmem _ _ _).mpr (Or.inr rfl))
  · intro hret
    refine ⟨?_, ?_, ?_, ?_, ?_⟩
    · have hok : (activate (tableJack answers) self processHandler notificationHandler flags
          w).1.isOk = true := by rw [hact]; rfl
      refine ⟨fun _ client c ret hc => ?_, fun _ => hok⟩
      rw [hmem] at hc
      rcases hc with hc | hc
      · exact hnonneg _ (call_mem_events hc)
      · rw [Event.call.injEq] at hc
        rw [hc.2.2]
        exact hret
    all_goals rw [hact]; simp [Except.isOk, Except.toBool]

end Table

/-- For all handlers, flags and codes: the result of `activate` is truthful if and only if
a setter call failed or `jack_activate` did not. -/
theorem activate_truthful_iff (self : InactiveClient) (processHandler : Option P)
    (notificationHandler : Option N) (flags : ActivateFlags) (answers : Call → Int) (table : Table)
    (heap : Heap) :
    TruthfulActivation self processHandler notificationHandler
        (activate (tableJack answers) self processHandler notificationHandler flags
          ⟨table, [], heap⟩) ↔
      (∃ c ∈ settersOf processHandler notificationHandler flags ⟨table, [], heap⟩,
        codeOf answers c < 0) ∨ 0 ≤ answers .activate := by
  by_cases hfail : ∃ c ∈ settersOf processHandler notificationHandler flags ⟨table, [], heap⟩,
      codeOf answers c < 0
  · exact ⟨fun _ => Or.inl hfail, fun _ => truthful_of_failing rfl hfail⟩
  · have hpass : ∀ c ∈ settersOf processHandler notificationHandler flags ⟨table, [], heap⟩,
        0 ≤ codeOf answers c := by
      intro c hc
      by_contra hneg
      exact hfail ⟨c, hc, Int.not_le.mp hneg⟩
    rw [truthful_of_passing rfl hpass]
    simp [hfail]

/-- Only `jack_activate` fails, and the client is reported active. -/
theorem activate_not_truthful :
    ¬TruthfulActivation ⟨⟨1, 1⟩⟩ (some ()) (some ())
      (activate (tableJack fun c => if c = .activate then -1 else 0) ⟨⟨1, 1⟩⟩ (some ()) (some ())
        .latency ⟨emptyTable, [], ⟨0, []⟩⟩) := by
  intro h
  have hok := h.ok_iff.mp (by decide) 1 .activate (-1) (by decide)
  omega

end Jack2
