import Mathlib.Data.List.Basic
import Mathlib.Data.List.Induction

/-!
# Buffers that a foreign function reads

The buffers that are created and dropped around foreign calls, in the order in which it
happens. A foreign function may read what it was given until it returns, so a buffer has to
stay until then. Functions and buffers are named by arbitrary types.
-/
namespace Jack2.Ownership

inductive Event (φ β : Type*) where
  | create (b : β)
  | drop (b : β)
  | enter (fn : φ) (ptrs : List (Option β))
  | leave (fn : φ) (ptrs : List (Option β))

variable {φ β : Type*}

/-- The call that returns with this event, if there is one. -/
def Event.isLeave : Event φ β → Bool
  | .leave _ _ => true
  | _ => false

section Memory

variable [DecidableEq β] (contents : β → List UInt8) (b : β)

/-- What is in the buffer after one more event. -/
def touch (m : Option (List UInt8)) : Event φ β → Option (List UInt8)
  | .create c => if c = b then some (contents b) else m
  | .drop c => if c = b then none else m
  | .enter _ _ => m
  | .leave _ _ => m

def memory (t : List (Event φ β)) : Option (List UInt8) := t.foldl (touch contents b) none

theorem memory_append_one (t : List (Event φ β)) (e : Event φ β) :
    memory contents b (t ++ [e]) = touch contents b (memory contents b t) e := by
  simp [memory, List.foldl_append]

/-- A buffer that was created and not dropped holds what it was created with. -/
theorem memory_of_kept {t : List (Event φ β)} (hcreate : .create b ∈ t) (hkept : .drop b ∉ t) :
    memory contents b t = some (contents b) := by
  induction t using List.reverseRecOn with
  | nil => cases hcreate
  | append_singleton t e ih =>
    rw [memory_append_one]
    rw [List.mem_append, not_or, List.mem_singleton] at hkept
    rw [List.mem_append, List.mem_singleton] at hcreate
    cases e with
    | create c =>
      by_cases hc : c = b
      · simp [touch, hc]
      · have hbefore : .create b ∈ t := by
          rcases hcreate with h | h
          · exact h
          · exact absurd (Event.create.inj h).symm hc
        simp [touch, hc, ih hbefore hkept.1]
    | drop c =>
      have hc : c ≠ b := by
        intro hc
        exact hkept.2 (by rw [hc])
      simp [touch, hc, ih (by simpa using hcreate) hkept.1]
    | enter fn ptrs => exact ih (by simpa using hcreate) hkept.1
    | leave fn ptrs => exact ih (by simpa using hcreate) hkept.1

end Memory

section Outlives

variable [DecidableEq β] (contents : β → List UInt8)

/-- Whenever a foreign function returns, the buffers it was given have not been dropped,
and hold what their owner wrote. -/
structure Outlives (t : List (Event φ β)) : Prop where
  kept : ∀ pre fn ptrs post, t = pre ++ .leave fn ptrs :: post →
    ∀ b, some b ∈ ptrs → .drop b ∉ pre
  read : ∀ pre fn ptrs post, t = pre ++ .leave fn ptrs :: post →
    ∀ b, some b ∈ ptrs → memory contents b pre = some (contents b)

variable {contents}

theorem outlives_of_no_leave {t : List (Event φ β)} (h : ∀ e ∈ t, e.isLeave = false) :
    Outlives contents t := by
  have hno : ∀ pre fn ptrs post, t ≠ pre ++ .leave fn ptrs :: post := by
    intro pre fn ptrs post ht
    exact absurd (h (.leave fn ptrs) (by simp [ht])) (by simp [Event.isLeave])
  constructor
  · intro pre fn ptrs post ht
    exact absurd ht (hno pre fn ptrs post)
  · intro pre fn ptrs post ht
    exact absurd ht (hno pre fn ptrs post)

/-- Where there is a single call, only what happens before its return matters. -/
theorem outlives_single_iff {before after : List (Event φ β)} {fn : φ} {ptrs : List (Option β)}
    (hbefore : ∀ e ∈ before, e.isLeave = false) (hafter : ∀ e ∈ after, e.isLeave = false)
    (hcreate : ∀ b, some b ∈ ptrs → .create b ∈ before) :
    Outlives contents (before ++ .leave fn ptrs :: after) ↔
      ∀ b, some b ∈ ptrs → .drop b ∉ before := by
  have hsplit : ∀ {pre gn qtrs post},
      before ++ .leave fn ptrs :: after = pre ++ .leave gn qtrs :: post →
        before = pre ∧ ptrs = qtrs := by
    intro pre gn qtrs post ht
    have hnb : Event.leave gn qtrs ∉ before := by
      intro hm
      exact absurd (hbefore _ hm) (by simp [Event.isLeave])
    have hna : Event.leave gn qtrs ∉ after := by
      intro hm
      exact absurd (hafter _ hm) (by simp [Event.isLeave])
    obtain ⟨hpre, hleave, -⟩ := (List.append_cons_inj_of_notMem hnb hna).mp ht
    exact ⟨hpre, (Event.leave.inj hleave).2⟩
  constructor
  · intro h b hb
    exact h.kept before fn ptrs after rfl b hb
  · intro h
    constructor
    · intro pre gn qtrs post ht b hb
      obtain ⟨rfl, rfl⟩ := hsplit ht
      exact h b hb
    · intro pre gn qtrs post ht b hb
      obtain ⟨rfl, rfl⟩ := hsplit ht
      exact memory_of_kept contents b (hcreate b hb) (h b hb)

end Outlives

end Jack2.Ownership
