import Mathlib.Data.Multiset.Count
import Mathlib.Data.Multiset.AddSub
import Mathlib.Logic.Function.Basic
import Mathlib.Data.Int.Notation

/-!
# Borrow flags

Each cell of a family has a flag: the number of its shared borrows, or minus one while it
is borrowed mutably. A borrow that is granted gives out a guard, and the guard gives the
borrow back. `Held` says that the flags are those of a multiset of guards, none of them
mutable beside another of its cell; a guard that nobody ever gives back stays in it.
-/
namespace Jack2.BorrowFlags

variable {κ : Type*} [DecidableEq κ]

inductive Borrow where
  | shared | mutable
  deriving DecidableEq, Repr

abbrev Flags (κ : Type*) := κ → ℤ

/-- No cell is borrowed. -/
def unused : Flags κ := fun _ => 0

/-- The flag after a borrow, or nothing where the cell is borrowed in conflict. -/
def tryBorrow (c : Flags κ) (k : κ) : Borrow → Option (Flags κ)
  | .shared => if 0 ≤ c k then some (Function.update c k (c k + 1)) else none
  | .mutable => if c k = 0 then some (Function.update c k (-1)) else none

/-- The drop of a guard. -/
def release (c : Flags κ) (k : κ) : Borrow → Flags κ
  | .shared => Function.update c k (c k - 1)
  | .mutable => Function.update c k (c k + 1)

structure Held (c : Flags κ) (guards : Multiset (κ × Borrow)) : Prop where
  flag : ∀ k, c k = (guards.count (k, .shared) : ℤ) - guards.count (k, .mutable)
  alone : ∀ k, guards.count (k, .mutable) = 0 ∨
    (guards.count (k, .mutable) = 1 ∧ guards.count (k, .shared) = 0)

theorem held_unused : Held (unused : Flags κ) 0 := ⟨by simp [unused], by simp⟩

variable {c d : Flags κ} {guards : Multiset (κ × Borrow)} {k : κ} {b : Borrow}

/-- The guards of other cells do not change. -/
theorem count_guard_of_ne {j : κ} (hj : j ≠ k) (b' : Borrow) :
    ((k, b) ::ₘ guards).count (j, b') = guards.count (j, b') := by
  simp [hj]

theorem count_shared_self (guards : Multiset (κ × Borrow)) (k : κ) :
    ((k, .shared) ::ₘ guards).count (k, .shared) = guards.count (k, .shared) + 1 ∧
      ((k, .shared) ::ₘ guards).count (k, .mutable) = guards.count (k, .mutable) := by
  simp

theorem count_mutable_self (guards : Multiset (κ × Borrow)) (k : κ) :
    ((k, .mutable) ::ₘ guards).count (k, .shared) = guards.count (k, .shared) ∧
      ((k, .mutable) ::ₘ guards).count (k, .mutable) = guards.count (k, .mutable) + 1 := by
  simp

theorem tryBorrow_shared : (tryBorrow c k .shared).isSome ↔ 0 ≤ c k := by
  simp only [tryBorrow]
  split <;> simp_all

theorem tryBorrow_mutable : (tryBorrow c k .mutable).isSome ↔ c k = 0 := by
  simp only [tryBorrow]
  split <;> simp_all

/-- A borrow is granted exactly where it shares the cell with every guard there is. -/
theorem tryBorrow_isSome (h : Held c guards) :
    (tryBorrow c k b).isSome ↔ ∀ b', (k, b') ∈ guards → b = .shared ∧ b' = .shared := by
  have hflag := h.flag k
  have halone := h.alone k
  have hmem : ∀ b', (k, b') ∈ guards ↔ guards.count (k, b') ≠ 0 := by
    intro b'
    rw [Ne, Multiset.count_eq_zero, not_not]
  cases b with
  | shared =>
    rw [tryBorrow_shared]
    constructor
    · intro hk b' hb'
      cases b' with
      | shared => exact ⟨rfl, rfl⟩
      | mutable =>
        have := (hmem .mutable).mp hb'
        omega
    · intro hall
      by_contra hneg
      have hin : (k, Borrow.mutable) ∈ guards := (hmem .mutable).mpr (by omega)
      cases (hall .mutable hin).2
  | mutable =>
    rw [tryBorrow_mutable]
    constructor
    · intro hk b' hb'
      have hcount := (hmem b').mp hb'
      cases b' <;> omega
    · intro hall
      by_contra hne
      have hin : (k, Borrow.shared) ∈ guards ∨ (k, Borrow.mutable) ∈ guards := by
        rw [hmem, hmem]
        omega
      obtain hin | hin := hin
      · cases (hall _ hin).1
      · cases (hall _ hin).1

/-- What a change of one flag has to keep, where the guards of one cell change. -/
theorem Held.update {guards' : Multiset (κ × Borrow)} {n : ℤ} (h : Held c guards)
    (hothers : ∀ j b', j ≠ k → guards'.count (j, b') = guards.count (j, b'))
    (hflag : n = (guards'.count (k, .shared) : ℤ) - guards'.count (k, .mutable))
    (halone : guards'.count (k, .mutable) = 0 ∨
      (guards'.count (k, .mutable) = 1 ∧ guards'.count (k, .shared) = 0)) :
    Held (Function.update c k n) guards' := by
  constructor
  · intro j
    by_cases hj : j = k
    · subst j
      rw [Function.update_self]
      exact hflag
    · rw [Function.update_of_ne hj, hothers j _ hj, hothers j _ hj]
      exact h.flag j
  · intro j
    by_cases hj : j = k
    · subst j
      exact halone
    · rw [hothers j _ hj, hothers j _ hj]
      exact h.alone j

theorem held_tryBorrow (h : Held c guards) (hborrow : tryBorrow c k b = some d) :
    Held d ((k, b) ::ₘ guards) := by
  have hflag := h.flag k
  have halone := h.alone k
  cases b with
  | shared =>
    simp only [tryBorrow, Option.ite_none_right_eq_some, Option.some.injEq] at hborrow
    obtain ⟨hk, rfl⟩ := hborrow
    obtain ⟨hshared, hmutable⟩ := count_shared_self guards k
    apply h.update (fun j b' hj => count_guard_of_ne hj b') <;> omega
  | mutable =>
    simp only [tryBorrow, Option.ite_none_right_eq_some, Option.some.injEq] at hborrow
    obtain ⟨hk, rfl⟩ := hborrow
    obtain ⟨hshared, hmutable⟩ := count_mutable_self guards k
    apply h.update (fun j b' hj => count_guard_of_ne hj b') <;> omega

theorem held_release (h : Held c ((k, b) ::ₘ guards)) : Held (release c k b) guards := by
  have hflag := h.flag k
  have halone := h.alone k
  cases b with
  | shared =>
    obtain ⟨hshared, hmutable⟩ := count_shared_self guards k
    apply h.update (fun j b' hj => (count_guard_of_ne hj b').symm) <;> omega
  | mutable =>
    obtain ⟨hshared, hmutable⟩ := count_mutable_self guards k
    apply h.update (fun j b' hj => (count_guard_of_ne hj b').symm) <;> omega

/-- Two guards of one cell are both shared. -/
theorem Held.shared {b' : Borrow} (h : Held c ((k, b) ::ₘ guards)) (hmem : (k, b') ∈ guards) :
    b = .shared ∧ b' = .shared := by
  have halone := h.alone k
  have hpos := Multiset.count_pos.mpr hmem
  obtain ⟨hss, hsm⟩ := count_shared_self guards k
  obtain ⟨hms, hmm⟩ := count_mutable_self guards k
  cases b with
  | shared =>
    cases b' with
    | shared => exact ⟨rfl, rfl⟩
    | mutable => omega
  | mutable => cases b' <;> omega

end Jack2.BorrowFlags
