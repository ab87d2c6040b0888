import Jack2.Run

/-!
# Observed machines and forward simulation

A machine is a partial step function together with what each of its steps shows. If a
relation between the states of two machines matches every step of the first with a run of
the second that shows the same, then whatever a run of the first shows, some run of the
second shows too.
-/
namespace Jack2

structure Machine (σ α ω : Type*) where
  step : σ → α → Option σ
  /-- What an enabled step shows. -/
  out : σ → α → List ω

namespace Machine

variable {σ τ α β ω : Type*}

/-- Where a schedule ends, with all that its steps show, in order. -/
def exec (m : Machine σ α ω) : σ → List α → Option (σ × List ω)
  | s, [] => some (s, [])
  | s, a :: as => (m.step s a).bind fun t => (exec m t as).map fun r => (r.1, m.out s a ++ r.2)

@[simp] theorem exec_nil (m : Machine σ α ω) (s : σ) : m.exec s [] = some (s, []) := rfl

theorem exec_cons {m : Machine σ α ω} {s t u : σ} {a : α} {as : List α} {tr : List ω}
    (hstep : m.step s a = some t) (hrest : m.exec t as = some (u, tr)) :
    m.exec s (a :: as) = some (u, m.out s a ++ tr) := by
  simp [exec, hstep, hrest]

theorem exec_cons_some {m : Machine σ α ω} {s u : σ} {a : α} {as : List α} {tr : List ω}
    (h : m.exec s (a :: as) = some (u, tr)) :
    ∃ t rest, m.step s a = some t ∧ m.exec t as = some (u, rest) ∧ tr = m.out s a ++ rest := by
  obtain ⟨t, ht, hmap⟩ := Option.bind_eq_some_iff.mp h
  obtain ⟨⟨v, rest⟩, hrest, heq⟩ := Option.map_eq_some_iff.mp hmap
  obtain ⟨rfl, rfl⟩ := Prod.mk.inj heq
  exact ⟨t, rest, ht, hrest, rfl⟩

/-- One step shows what it shows. -/
theorem exec_single {m : Machine σ α ω} {s t : σ} {a : α} (h : m.step s a = some t) :
    m.exec s [a] = some (t, m.out s a) := by
  simpa using exec_cons h (exec_nil m t)

theorem exec_append {m : Machine σ α ω} {s t u : σ} {as bs : List α} {tr tr' : List ω}
    (h₁ : m.exec s as = some (t, tr)) (h₂ : m.exec t bs = some (u, tr')) :
    m.exec s (as ++ bs) = some (u, tr ++ tr') := by
  induction as generalizing s tr with
  | nil =>
    cases h₁
    exact h₂
  | cons a as ih =>
    obtain ⟨v, rest, hv, hrest, rfl⟩ := exec_cons_some h₁
    rw [List.append_assoc]
    exact exec_cons hv (ih hrest)

/-- What every step keeps of the state and of all that was shown so far. -/
theorem exec_invariant {m : Machine σ α ω} {P : σ → List ω → Prop}
    (hstep : ∀ s tr a t, P s tr → m.step s a = some t → P t (tr ++ m.out s a)) {s t : σ}
    {as : List α} {pre tr : List ω} (h : m.exec s as = some (t, tr)) (hs : P s pre) :
    P t (pre ++ tr) := by
  induction as generalizing s pre tr with
  | nil =>
    cases h
    simpa using hs
  | cons a as ih =>
    obtain ⟨u, rest, hu, hrest, rfl⟩ := exec_cons_some h
    rw [← List.append_assoc]
    exact ih hrest (hstep s pre a u hs hu)

/-- Where a step shows at most one thing, a run can be cut at each thing that it shows. -/
theorem exec_split {m : Machine σ α ω} (hone : ∀ s a, (m.out s a).length ≤ 1) {s u : σ}
    {as : List α} {pre post : List ω} {o : ω} (h : m.exec s as = some (u, pre ++ o :: post)) :
    ∃ bs a cs t t', as = bs ++ a :: cs ∧ m.exec s bs = some (t, pre) ∧ m.step t a = some t' ∧
      m.out t a = [o] ∧ m.exec t' cs = some (u, post) := by
  induction as generalizing s pre with
  | nil => simp at h
  | cons a as ih =>
    obtain ⟨t, rest, ht, hrest, htr⟩ := exec_cons_some h
    have hshort := hone s a
    match hout : m.out s a with
    | [] =>
      rw [hout, List.nil_append] at htr
      obtain ⟨bs, b, cs, v, v', rfl, hbs, hb, hseen, hcs⟩ := ih (htr ▸ hrest)
      refine ⟨a :: bs, b, cs, v, v', rfl, ?_, hb, hseen, hcs⟩
      simpa [hout] using exec_cons ht hbs
    | [x] =>
      rw [hout, List.singleton_append] at htr
      cases pre with
      | nil =>
        obtain ⟨rfl, rfl⟩ := List.cons.inj htr
        exact ⟨[], a, as, s, t, rfl, rfl, ht, hout, hrest⟩
      | cons y pre =>
        obtain ⟨rfl, rfl⟩ : y = x ∧ pre ++ o :: post = rest := List.cons.inj htr
        obtain ⟨bs, b, cs, v, v', rfl, hbs, hb, hseen, hcs⟩ := ih hrest
        refine ⟨a :: bs, b, cs, v, v', rfl, ?_, hb, hseen, hcs⟩
        simpa [hout] using exec_cons ht hbs
    | x :: y :: more => simp [hout] at hshort

/-- `R` matches every step of `c` with a run of `a` that shows the same. -/
def Simulates (c : Machine σ α ω) (a : Machine τ β ω) (R : σ → τ → Prop) : Prop :=
  ∀ s t l s', R s t → c.step s l = some s' → ∃ ls t', a.exec t ls = some (t', c.out s l) ∧ R s' t'

theorem Simulates.exec {c : Machine σ α ω} {a : Machine τ β ω} {R : σ → τ → Prop}
    (h : Simulates c a R) {s s' : σ} {t : τ} {as : List α} {tr : List ω} (hr : R s t)
    (hexec : c.exec s as = some (s', tr)) : ∃ bs t', a.exec t bs = some (t', tr) ∧ R s' t' := by
  induction as generalizing s t tr with
  | nil =>
    cases hexec
    exact ⟨[], t, rfl, hr⟩
  | cons l as ih =>
    obtain ⟨u, rest, hu, hrest, rfl⟩ := exec_cons_some hexec
    obtain ⟨ls, v, hv, hruv⟩ := h s t l u hr hu
    obtain ⟨bs, t', ht', hr'⟩ := ih hruv hrest
    exact ⟨ls ++ bs, t', exec_append hv ht', hr'⟩

end Machine

end Jack2
