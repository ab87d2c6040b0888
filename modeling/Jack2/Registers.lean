import Mathlib.Data.List.Induction
import Mathlib.Logic.Function.Basic

/-!
# Registers that can be marked absent

A register for each key, with a value and a mark. Setting a register writes both, and
unsetting it clears the mark and keeps the value. What a sequence of operations leaves in a
register is decided by the operations on that key.
-/
namespace Jack2.Registers

universe u v

@[ext] structure Register (α : Type v) where
  present : Bool
  value : α
  deriving DecidableEq, Repr

inductive Op (K : Type u) (V : K → Type v) where
  | set (k : K) (v : V k)
  | unset (k : K)

variable {K : Type u} {V : K → Type v}

namespace Op

def key : Op K V → K
  | .set k _ => k
  | .unset k => k

def isSet : Op K V → Bool
  | .set _ _ => true
  | .unset _ => false

end Op

variable [DecidableEq K]

namespace Op

/-- The value that the operation writes at `k`, if it writes one there. -/
def valueAt (k : K) : Op K V → Option (V k)
  | .set j v => if h : j = k then some (h ▸ v) else none
  | .unset _ => none

def apply (op : Op K V) (s : (k : K) → Register (V k)) : (k : K) → Register (V k) :=
  match op with
  | .set k v => Function.update s k ⟨true, v⟩
  | .unset k => Function.update s k { s k with present := false }

end Op

def applyAll (ops : List (Op K V)) (s : (k : K) → Register (V k)) : (k : K) → Register (V k) :=
  ops.foldl (fun s op => op.apply s) s

/-- The mark that the last operation on `k` leaves, and the given one without any. -/
def lastPresent (k : K) (ops : List (Op K V)) (before : Bool) : Bool :=
  ((ops.filter fun op => op.key = k).getLast?.map Op.isSet).getD before

/-- The value of the last `set` of `k`, and the given one without any. -/
def lastValue (k : K) (ops : List (Op K V)) (before : V k) : V k :=
  (ops.filterMap (Op.valueAt k)).getLast?.getD before

section Operations

variable (s : (k : K) → Register (V k))

theorem apply_of_ne {op : Op K V} {k : K} (h : op.key ≠ k) : op.apply s k = s k := by
  cases op with
  | set j v => exact Function.update_of_ne (Ne.symm h) _ _
  | unset j => exact Function.update_of_ne (Ne.symm h) _ _

theorem apply_present (op : Op K V) (k : K) :
    (op.apply s k).present = if op.key = k then op.isSet else (s k).present := by
  by_cases h : op.key = k
  · subst h
    cases op with
    | set j v => simp [Op.apply, Op.key, Op.isSet]
    | unset j => simp [Op.apply, Op.key, Op.isSet]
  · rw [if_neg h, apply_of_ne s h]

theorem apply_value (op : Op K V) (k : K) :
    (op.apply s k).value = (op.valueAt k).getD (s k).value := by
  by_cases h : op.key = k
  · subst h
    cases op with
    | set j v => simp [Op.apply, Op.key, Op.valueAt]
    | unset j => simp [Op.apply, Op.key, Op.valueAt]
  · rw [apply_of_ne s h]
    cases op with
    | set j v => simp [Op.valueAt, show j ≠ k from h]
    | unset j => rfl

/-- What is left in a register depends on what was in it and on nothing else. -/
theorem apply_congr (op : Op K V) {s t : (k : K) → Register (V k)} {k : K} (h : s k = t k) :
    op.apply s k = op.apply t k := by
  by_cases hk : op.key = k
  · subst hk
    cases op with
    | set j v => simp [Op.apply, Op.key]
    | unset j =>
      have hj : s j = t j := h
      simp [Op.apply, Op.key, hj]
  · rw [apply_of_ne s hk, apply_of_ne t hk, h]

/-- Operations on different registers may be exchanged. -/
theorem apply_comm {a b : Op K V} (h : a.key ≠ b.key) :
    a.apply (b.apply s) = b.apply (a.apply s) := by
  funext k
  by_cases ha : a.key = k
  · have hb : b.key ≠ k := by
      intro hb
      exact h (ha.trans hb.symm)
    rw [apply_of_ne _ hb]
    exact apply_congr a (apply_of_ne s hb)
  · rw [apply_of_ne _ ha]
    exact (apply_congr b (apply_of_ne s ha)).symm

end Operations

section Sequences

variable (s : (k : K) → Register (V k))

theorem applyAll_append_one (ops : List (Op K V)) (op : Op K V) :
    applyAll (ops ++ [op]) s = op.apply (applyAll ops s) := by
  simp [applyAll, List.foldl_append]

theorem applyAll_present (ops : List (Op K V)) (k : K) :
    (applyAll ops s k).present = lastPresent k ops (s k).present := by
  induction ops using List.reverseRecOn with
  | nil => rfl
  | append_singleton ops op ih =>
    rw [applyAll_append_one, apply_present, ih, lastPresent, lastPresent, List.filter_append]
    by_cases h : op.key = k
    · simp [h]
    · simp [h]

theorem applyAll_value (ops : List (Op K V)) (k : K) :
    (applyAll ops s k).value = lastValue k ops (s k).value := by
  induction ops using List.reverseRecOn with
  | nil => rfl
  | append_singleton ops op ih =>
    rw [applyAll_append_one, apply_value, ih, lastValue, lastValue, List.filterMap_append]
    cases h : op.valueAt k with
    | none => simp [h]
    | some v => simp [h]

end Sequences

end Jack2.Registers
