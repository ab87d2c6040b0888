import Mathlib.Algebra.Group.Basic

/-!
# A triple buffer with a freshness bit

One writer owns the back slot, one reader owns the front slot, and the slot between
them is exchanged with either. `swap` publishes the back slot; `frontBuffer` takes
the pending slot if it was published since the last time; `pendingMut` lends the
pending slot to the writer while there is nothing to take from it.
-/
namespace Jack2

structure TripleBuffer (α : Type*) where
  front : α
  pending : α
  back : α
  fresh : Bool
  deriving DecidableEq, Repr

namespace TripleBuffer

variable {α M : Type*}

/-- All three slots start from one value, and nothing is published. -/
def initial (a : α) : TripleBuffer α := ⟨a, a, a, false⟩

def setBack (b : TripleBuffer α) (a : α) : TripleBuffer α := { b with back := a }

def setPending (b : TripleBuffer α) (a : α) : TripleBuffer α := { b with pending := a }

def setFront (b : TripleBuffer α) (a : α) : TripleBuffer α := { b with front := a }

def swap (b : TripleBuffer α) : TripleBuffer α :=
  { b with pending := b.back, back := b.pending, fresh := true }

def frontBuffer (b : TripleBuffer α) : TripleBuffer α :=
  if b.fresh then { b with front := b.pending, pending := b.front, fresh := false } else b

def pendingMut (b : TripleBuffer α) : Option α := if b.fresh then none else some b.pending

/-- The value last published, wherever it is now. -/
def latest (b : TripleBuffer α) : α := if b.fresh then b.pending else b.front

@[simp] theorem setBack_front (b : TripleBuffer α) (a : α) : (b.setBack a).front = b.front := rfl
@[simp] theorem setBack_pending (b : TripleBuffer α) (a : α) :
    (b.setBack a).pending = b.pending := rfl
@[simp] theorem setBack_back (b : TripleBuffer α) (a : α) : (b.setBack a).back = a := rfl
@[simp] theorem setBack_fresh (b : TripleBuffer α) (a : α) : (b.setBack a).fresh = b.fresh := rfl
@[simp] theorem setPending_front (b : TripleBuffer α) (a : α) :
    (b.setPending a).front = b.front := rfl
@[simp] theorem setPending_pending (b : TripleBuffer α) (a : α) :
    (b.setPending a).pending = a := rfl
@[simp] theorem setPending_back (b : TripleBuffer α) (a : α) :
    (b.setPending a).back = b.back := rfl
@[simp] theorem setPending_fresh (b : TripleBuffer α) (a : α) :
    (b.setPending a).fresh = b.fresh := rfl
@[simp] theorem swap_front (b : TripleBuffer α) : b.swap.front = b.front := rfl
@[simp] theorem swap_fresh (b : TripleBuffer α) : b.swap.fresh = true := rfl

@[simp] theorem frontBuffer_back (b : TripleBuffer α) : b.frontBuffer.back = b.back := by
  simp only [frontBuffer]; split <;> rfl

@[simp] theorem frontBuffer_fresh (b : TripleBuffer α) : b.frontBuffer.fresh = false := by
  cases h : b.fresh <;> simp [frontBuffer, h]

@[simp] theorem latest_initial (a : α) : (initial a).latest = a := rfl
@[simp] theorem latest_swap (b : TripleBuffer α) : b.swap.latest = b.back := rfl
@[simp] theorem latest_setBack (b : TripleBuffer α) (a : α) : (b.setBack a).latest = b.latest := rfl

@[simp] theorem latest_frontBuffer (b : TripleBuffer α) : b.frontBuffer.latest = b.latest := by
  cases h : b.fresh <;> simp [frontBuffer, latest, h]

/-- The reader always leaves `frontBuffer` with the value last published. -/
@[simp] theorem frontBuffer_front (b : TripleBuffer α) : b.frontBuffer.front = b.latest := by
  cases h : b.fresh <;> simp [frontBuffer, latest, h]

theorem latest_of_stale {b : TripleBuffer α} (h : b.fresh = false) : b.latest = b.front := by
  simp [latest, h]

/-- What the writer does to a slot that `pendingMut` lends it is never published. -/
theorem latest_setPending {b : TripleBuffer α} (h : b.fresh = false) (a : α) :
    (b.setPending a).latest = b.latest := by
  simp [latest, h]

/-- What the reader does to its own slot is lost with the next value. -/
theorem latest_setFront {b : TripleBuffer α} (h : b.fresh = false) (a : α) :
    (b.setFront a).latest = a := by
  simp [latest, setFront, h]

theorem frontBuffer_stale {b : TripleBuffer α} (h : b.fresh = false) : b.frontBuffer = b := by
  simp [frontBuffer, h]

theorem pendingMut_eq_some {b : TripleBuffer α} {a : α} :
    b.pendingMut = some a ↔ b.fresh = false ∧ b.pending = a := by
  cases h : b.fresh <;> simp [pendingMut, h]

theorem pendingMut_eq_none {b : TripleBuffer α} : b.pendingMut = none ↔ b.fresh = true := by
  cases h : b.fresh <;> simp [pendingMut, h]

section Total

variable [AddCommMonoid M]

/-- Any additive measure of the slots, summed over the three of them. -/
def total (f : α → M) (b : TripleBuffer α) : M := f b.front + f b.pending + f b.back

@[simp] theorem total_swap (f : α → M) (b : TripleBuffer α) : total f b.swap = total f b := by
  simp only [total, swap]
  rw [add_right_comm]

@[simp] theorem total_frontBuffer (f : α → M) (b : TripleBuffer α) :
    total f b.frontBuffer = total f b := by
  simp only [frontBuffer]
  split
  · simp only [total]
    rw [add_comm (f b.pending)]
  · rfl

end Total

end TripleBuffer

end Jack2
