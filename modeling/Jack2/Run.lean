import Mathlib.Data.List.Basic

/-!
# Finite runs of a partial transition function

A schedule is a list of labels. A label that is not enabled in the state it meets
ends the run with `none`, so `run step s as = some t` says that `as` is a possible
interleaving from `s` and that it ends in `t`.
-/
namespace Jack2.Run

variable {σ α : Type*}

def run (step : σ → α → Option σ) : σ → List α → Option σ
  | s, [] => some s
  | s, a :: as => (step s a).bind (fun t => run step t as)

@[simp] theorem run_nil (step : σ → α → Option σ) (s : σ) : run step s [] = some s := rfl
@[simp] theorem run_cons (step : σ → α → Option σ) (s : σ) (a : α) (as : List α) :
    run step s (a :: as) = (step s a).bind (fun t => run step t as) := rfl

theorem run_append (step : σ → α → Option σ) (s : σ) (as bs : List α) :
    run step s (as ++ bs) = (run step s as).bind (fun t => run step t bs) := by
  induction as generalizing s with
  | nil => rfl
  | cons a as ih =>
    simp only [List.cons_append, run_cons]
    cases step s a with
    | none => rfl
    | some t => exact ih t

/-- Concatenate two checked finite runs. -/
theorem run_join {step : σ → α → Option σ} {s t u : σ} {as bs : List α}
    (h₁ : run step s as = some t) (h₂ : run step t bs = some u) :
    run step s (as ++ bs) = some u := by
  rw [run_append, h₁]
  exact h₂

theorem run_cons_some {step : σ → α → Option σ} {s u : σ} {a : α} {as : List α}
    (h : run step s (a :: as) = some u) : ∃ t, step s a = some t ∧ run step t as = some u := by
  rw [run_cons] at h
  exact Option.bind_eq_some_iff.mp h

/-- What every enabled step with an allowed label preserves holds at the end of every run of
such labels. -/
theorem run_invariant_of_labels {step : σ → α → Option σ} {Inv : σ → Prop} {allowed : α → Prop}
    (hstep : ∀ s a t, allowed a → Inv s → step s a = some t → Inv t) {s t : σ} {as : List α}
    (hlabels : ∀ a ∈ as, allowed a) (h : run step s as = some t) (hs : Inv s) : Inv t := by
  induction as generalizing s with
  | nil => cases h; exact hs
  | cons a as ih =>
    obtain ⟨u, hu, hrest⟩ := run_cons_some h
    have hinv := hstep s a u (hlabels a List.mem_cons_self) hs hu
    exact ih (fun b hb => hlabels b (List.mem_cons_of_mem a hb)) hrest hinv

/-- What every enabled step preserves holds at the end of every run. -/
theorem run_invariant {step : σ → α → Option σ} {Inv : σ → Prop}
    (hstep : ∀ s a t, Inv s → step s a = some t → Inv t) {s t : σ} {as : List α}
    (h : run step s as = some t) (hs : Inv s) : Inv t :=
  have hall : ∀ s a t, True → Inv s → step s a = some t → Inv t := fun s a t _ => hstep s a t
  run_invariant_of_labels hall (fun _ _ => trivial) h hs

/-- `P` holds in the first state of the run and in every state it reaches. -/
def Throughout (P : σ → Prop) (step : σ → α → Option σ) : σ → List α → Prop
  | s, [] => P s
  | s, a :: as => P s ∧ ∀ t, step s a = some t → Throughout P step t as

/-- Every step of the run meets `C` in the state it is taken from. -/
def Along (C : σ → α → Prop) (step : σ → α → Option σ) : σ → List α → Prop
  | _, [] => True
  | s, a :: as => C s a ∧ ∀ t, step s a = some t → Along C step t as

theorem Throughout.head {P : σ → Prop} {step : σ → α → Option σ} {s : σ} {as : List α}
    (h : Throughout P step s as) : P s := by
  cases as with
  | nil => exact h
  | cons a as => exact h.1

/-- Where one step with an allowed label keeps `P` exactly when it meets `C`, a whole run of
such labels keeps `P` exactly when all its steps meet `C`. The invariant may be lost in a step
that does not meet `C`. -/
theorem throughout_iff_along_of_labels {step : σ → α → Option σ} {Inv P : σ → Prop}
    {C : σ → α → Prop} {allowed : α → Prop}
    (hinv : ∀ s a t, allowed a → Inv s → P s → C s a → step s a = some t → Inv t)
    (hstep : ∀ s a t, allowed a → Inv s → P s → step s a = some t → (P t ↔ C s a)) {s u : σ}
    {as : List α} (hlabels : ∀ a ∈ as, allowed a) (hrun : run step s as = some u) (hs : Inv s)
    (hp : P s) : Throughout P step s as ↔ Along C step s as := by
  induction as generalizing s with
  | nil => simp [Throughout, Along, hp]
  | cons a as ih =>
    obtain ⟨t, ht, hrest⟩ := run_cons_some hrun
    have ha := hlabels a List.mem_cons_self
    have htail : ∀ b ∈ as, allowed b := fun b hb => hlabels b (List.mem_cons_of_mem a hb)
    have hkeep := hstep s a t ha hs hp ht
    simp only [Throughout, Along, ht, Option.some.injEq, forall_eq', hp, true_and]
    constructor
    · intro h
      have hc := hkeep.mp h.head
      exact ⟨hc, (ih htail hrest (hinv s a t ha hs hp hc ht) h.head).mp h⟩
    · rintro ⟨hc, h⟩
      exact (ih htail hrest (hinv s a t ha hs hp hc ht) (hkeep.mpr hc)).mpr h

/-- The same for all labels. -/
theorem throughout_iff_along_of_kept {step : σ → α → Option σ} {Inv P : σ → Prop}
    {C : σ → α → Prop}
    (hinv : ∀ s a t, Inv s → P s → C s a → step s a = some t → Inv t)
    (hstep : ∀ s a t, Inv s → P s → step s a = some t → (P t ↔ C s a)) {s u : σ} {as : List α}
    (hrun : run step s as = some u) (hs : Inv s) (hp : P s) :
    Throughout P step s as ↔ Along C step s as :=
  have hall : ∀ a ∈ as, True := fun _ _ => trivial
  throughout_iff_along_of_labels (fun s a t _ => hinv s a t) (fun s a t _ => hstep s a t) hall
    hrun hs hp

/-- The same with an invariant of every step. -/
theorem throughout_iff_along {step : σ → α → Option σ} {Inv P : σ → Prop} {C : σ → α → Prop}
    (hinv : ∀ s a t, Inv s → step s a = some t → Inv t)
    (hstep : ∀ s a t, Inv s → P s → step s a = some t → (P t ↔ C s a)) {s u : σ} {as : List α}
    (hrun : run step s as = some u) (hs : Inv s) (hp : P s) :
    Throughout P step s as ↔ Along C step s as :=
  throughout_iff_along_of_kept (fun s a t hi _ _ => hinv s a t hi) hstep hrun hs hp

/-- Two properties of single steps that agree wherever the invariant holds agree on runs. -/
theorem along_iff {step : σ → α → Option σ} {Inv : σ → Prop} {C D : σ → α → Prop}
    (hinv : ∀ s a t, Inv s → step s a = some t → Inv t)
    (hiff : ∀ s a, Inv s → (C s a ↔ D s a)) {s : σ} (as : List α) (hs : Inv s) :
    Along C step s as ↔ Along D step s as := by
  induction as generalizing s with
  | nil => exact Iff.rfl
  | cons a as ih =>
    refine and_congr (hiff s a hs) (forall_congr' fun t => ?_)
    exact forall_congr' fun ht => ih (hinv s a t hs ht)

theorem along_append {C : σ → α → Prop} {step : σ → α → Option σ} {s : σ} {as bs : List α} :
    Along C step s (as ++ bs) ↔
      Along C step s as ∧ ∀ t, run step s as = some t → Along C step t bs := by
  induction as generalizing s with
  | nil => simp [Along]
  | cons a as ih =>
    simp only [List.cons_append, Along, ih, run_cons, Option.bind_eq_some_iff]
    constructor
    · rintro ⟨hc, h⟩
      exact ⟨⟨hc, fun t ht => (h t ht).1⟩, fun u ⟨t, ht, hu⟩ => (h t ht).2 u hu⟩
    · rintro ⟨⟨hc, h⟩, hrest⟩
      exact ⟨hc, fun t ht => ⟨h t ht, fun u hu => hrest u ⟨t, ht, hu⟩⟩⟩

/-- A property of the labels alone. -/
theorem along_label {step : σ → α → Option σ} {C : α → Prop} {s u : σ} {as : List α}
    (h : run step s as = some u) : Along (fun _ a => C a) step s as ↔ ∀ a ∈ as, C a := by
  induction as generalizing s with
  | nil => simp [Along]
  | cons a as ih =>
    obtain ⟨t, ht, hrest⟩ := run_cons_some h
    simp [Along, ht, ih hrest]

theorem along_of_forall {C : σ → α → Prop} {step : σ → α → Option σ} {as : List α}
    (h : ∀ a ∈ as, ∀ s, C s a) (s : σ) : Along C step s as := by
  induction as generalizing s with
  | nil => trivial
  | cons a as ih =>
    exact ⟨h a List.mem_cons_self s, fun t _ => ih (fun b hb => h b (List.mem_cons_of_mem a hb)) t⟩

section Termination

variable {step : σ → α → Option σ} {Inv : σ → Prop} {allowed : α → Prop} {size : σ → ℕ}

/-- Steps that make the state smaller soon come to an end. -/
theorem run_length_le
    (hstep : ∀ s a t, allowed a → Inv s → step s a = some t → Inv t ∧ size t < size s) {s t : σ}
    {as : List α} (hlabels : ∀ a ∈ as, allowed a) (h : run step s as = some t) (hs : Inv s) :
    as.length + size t ≤ size s := by
  induction as generalizing s with
  | nil => cases h; simp
  | cons a as ih =>
    obtain ⟨u, hu, hrest⟩ := run_cons_some h
    obtain ⟨hinv, hless⟩ := hstep s a u (hlabels a List.mem_cons_self) hs hu
    have htail := ih (fun b hb => hlabels b (List.mem_cons_of_mem a hb)) hrest hinv
    rw [List.length_cons]
    omega

/-- If every state that is not final has such a step, then a final state can be reached. -/
theorem exists_run_final {final : σ → Prop}
    (hstep : ∀ s a t, allowed a → Inv s → step s a = some t → Inv t ∧ size t < size s)
    (hprogress : ∀ s, Inv s → ¬final s → ∃ a t, allowed a ∧ step s a = some t) {s : σ}
    (hs : Inv s) : ∃ as t, (∀ a ∈ as, allowed a) ∧ run step s as = some t ∧ final t := by
  induction hn : size s using Nat.strongRecOn generalizing s with
  | _ n ih =>
    by_cases hfinal : final s
    · exact ⟨[], s, by simp, rfl, hfinal⟩
    · obtain ⟨a, u, ha, hu⟩ := hprogress s hs hfinal
      obtain ⟨hinv, hless⟩ := hstep s a u ha hs hu
      obtain ⟨as, t, hall, hrun, ht⟩ := ih (size u) (hn ▸ hless) hinv rfl
      refine ⟨a :: as, t, ?_, ?_, ht⟩
      · rintro b (_ | ⟨_, hb⟩)
        · exact ha
        · exact hall b hb
      · rw [run_cons, hu]
        exact hrun

end Termination

end Jack2.Run
