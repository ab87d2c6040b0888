import Mathlib.Logic.Function.Basic

/-!
# Cells that are initialized once

The first that asks an empty cell runs its initializer while all others wait; the cell is
full once the initializer has ended, and empty again if it has unwound. What is known of
the cell follows from what each step does to it and to the control point of one thread.
-/
namespace Jack2

inductive OnceCell (ι α : Type*) where
  | empty
  | running (i : ι)
  | full (a : α)
  deriving DecidableEq, Repr

/-- The code of an initializer. -/
structure Initializer (σ α β : Type*) where
  /-- The control points in it. -/
  inside : σ → Bool
  /-- The value that it is about to return. -/
  value : σ → Option α
  /-- What it has done by then, of all that it does. -/
  done : σ → List β
  whole : List β

namespace OnceCell

variable {ι α β σ : Type*}

def get : OnceCell ι α → Option α
  | .full a => some a
  | _ => none

@[simp] theorem get_empty : (empty : OnceCell ι α).get = none := rfl
@[simp] theorem get_running (i : ι) : (running i : OnceCell ι α).get = none := rfl
@[simp] theorem get_full (a : α) : (full a : OnceCell ι α).get = some a := rfl

theorem eq_full {c : OnceCell ι α} {a : α} (h : c.get = some a) : c = .full a := by
  cases c with
  | empty => simp at h
  | running i => simp at h
  | full b => simpa using h

/-- Exactly the thread that runs the initializer is at the control points of it. -/
def InitializedAt (c : OnceCell ι α) (f : Initializer σ α β) (pc : ι → σ) : Prop :=
  ∀ i, f.inside (pc i) = true ↔ c = .running i

/-- What the initializer has done so far. -/
def effects (c : OnceCell ι α) (f : Initializer σ α β) (pc : ι → σ) : List β :=
  match c with
  | .empty => []
  | .running i => f.done (pc i)
  | .full _ => f.whole

/-- What a step of thread `i` from `p` to `q` may do to the cell, and what the initializer
does in it. -/
inductive Move (f : Initializer σ α β) (i : ι) (p q : σ) :
    OnceCell ι α → OnceCell ι α → List β → Prop where
  | stay {c : OnceCell ι α} {new : List β} (hsame : f.inside q = f.inside p)
      (hdone : f.inside p = true → f.done q = f.done p ++ new)
      (hnew : f.inside p = false → new = []) : Move f i p q c c new
  | enter (hq : f.inside q = true) (hdone : f.done q = []) : Move f i p q .empty (.running i) []
  | finish {c : OnceCell ι α} {a : α} (hp : f.inside p = true) (hq : f.inside q = false)
      (hvalue : f.value p = some a) (hdone : f.done p = f.whole) : Move f i p q c (.full a) []
  | unwind {c : OnceCell ι α} (hp : f.inside p = true) (hq : f.inside q = false)
      (hdone : f.done p = []) : Move f i p q c .empty []

section Move

variable {f : Initializer σ α β} {c d : OnceCell ι α} {pc : ι → σ} {i : ι} {q : σ}
  {new : List β}

/-- A step of a thread that is in none of the initializer's control points. -/
theorem Move.outside {p : σ} (hp : f.inside p = false) (hq : f.inside q = false) :
    Move f i p q c c [] :=
  .stay (hq.trans hp.symm) (fun h => by simp [hp] at h) fun _ => rfl

theorem InitializedAt.init (h : ∀ i, f.inside (pc i) = false) :
    (empty : OnceCell ι α).InitializedAt f pc := by
  intro i
  simp [h i]

/-- A full cell stays as it is. -/
theorem InitializedAt.get_step (h : c.InitializedAt f pc) (hmove : Move f i (pc i) q c d new) {a : α}
    (ha : c.get = some a) : d.get = some a := by
  cases hmove with
  | stay _ _ _ => exact ha
  | enter _ _ => simp at ha
  | finish hp _ _ _ =>
    rw [(h i).mp hp] at ha
    simp at ha
  | unwind hp _ _ =>
    rw [(h i).mp hp] at ha
    simp at ha

/-- What a cell holds is what its initializer returned. -/
theorem Move.stored {p : σ} (hmove : Move f i p q c d new) {P : α → Prop}
    (hc : ∀ a, c.get = some a → P a) (hp : ∀ a, f.inside p = true → f.value p = some a → P a) :
    ∀ a, d.get = some a → P a := by
  cases hmove with
  | stay _ _ _ => exact hc
  | enter _ _ => simp
  | finish hin _ hvalue _ =>
    rintro a ⟨⟩
    exact hp _ hin hvalue
  | unwind _ _ _ => simp

/-- A cell was asked for before, unless this step is the first to ask. -/
theorem InitializedAt.asked (h : c.InitializedAt f pc) (hmove : Move f i (pc i) q c d new)
    (hd : d ≠ .empty) : c ≠ .empty ∨ f.inside q = true := by
  cases hmove with
  | stay _ _ _ => exact .inl hd
  | enter hq _ => exact .inr hq
  | finish hp _ _ _ =>
    rw [(h i).mp hp]
    exact .inl nofun
  | unwind _ _ _ => exact absurd rfl hd

/-- A step in which the initializer does something is one of the initializer. -/
theorem InitializedAt.running_of_new (h : c.InitializedAt f pc)
    (hmove : Move f i (pc i) q c d new) (hnew : new ≠ []) : c = .running i := by
  cases hmove with
  | stay _ _ hnil =>
    by_contra hc
    exact hnew (hnil (Bool.eq_false_iff.mpr fun hin => hc ((h i).mp hin)))
  | enter _ _ => exact absurd rfl hnew
  | finish _ _ _ _ => exact absurd rfl hnew
  | unwind _ _ _ => exact absurd rfl hnew

section Update

variable [DecidableEq ι]

theorem InitializedAt.leave (h : (running i : OnceCell ι α).InitializedAt f pc)
    (hq : f.inside q = false) (hd : ∀ j, d ≠ .running j) :
    d.InitializedAt f (Function.update pc i q) := by
  intro j
  by_cases hj : j = i
  · subst j
    simp [hq, hd]
  · have hne : (running i : OnceCell ι α) ≠ .running j := fun heq => hj (running.inj heq).symm
    simp [Function.update_of_ne hj, h j, hne, hd]

theorem InitializedAt.step (h : c.InitializedAt f pc) (hmove : Move f i (pc i) q c d new) :
    d.InitializedAt f (Function.update pc i q) := by
  cases hmove with
  | stay hsame _ _ =>
    intro j
    by_cases hj : j = i
    · subst j
      rw [Function.update_self, hsame, h i]
    · rw [Function.update_of_ne hj, h j]
  | enter hq _ =>
    intro j
    by_cases hj : j = i
    · subst j
      simp [hq]
    · have hne : (running i : OnceCell ι α) ≠ .running j := fun heq => hj (running.inj heq).symm
      simp [Function.update_of_ne hj, h j, hne]
  | finish hp hq _ _ =>
    obtain rfl := (h i).mp hp
    exact h.leave hq nofun
  | unwind hp hq _ =>
    obtain rfl := (h i).mp hp
    exact h.leave hq nofun

/-- What the step adds to the effects. -/
theorem InitializedAt.effects_step (h : c.InitializedAt f pc) (hmove : Move f i (pc i) q c d new) :
    d.effects f (Function.update pc i q) = c.effects f pc ++ new := by
  cases hmove with
  | stay _ hdone hnew =>
    by_cases hi : f.inside (pc i) = true
    · obtain rfl := (h i).mp hi
      simp [effects, hdone hi]
    · rw [hnew (Bool.eq_false_iff.mpr hi), List.append_nil]
      cases c with
      | empty => rfl
      | full a => rfl
      | running j =>
        have hj : j ≠ i := fun heq => hi ((h i).mpr (heq ▸ rfl))
        simp [effects, Function.update_of_ne hj]
  | enter _ hdone => simp [effects, hdone]
  | finish hp _ _ hdone =>
    obtain rfl := (h i).mp hp
    simp [effects, hdone]
  | unwind hp _ hdone =>
    obtain rfl := (h i).mp hp
    simp [effects, hdone]

end Update

end Move

end OnceCell

end Jack2
