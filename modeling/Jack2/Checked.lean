import Mathlib.Logic.Basic

/-!
# Fallible calls with early exit

Calls are made in order on a shared state until the first one whose answer does not
pass the check. `andThen` is `Result::and_then` with the state threaded through.
-/
namespace Jack2.Checked

variable {α σ ρ ε : Type*}

def andThen (r : Except ε Unit × σ) (f : σ → Except ε Unit × σ) : Except ε Unit × σ :=
  match r with
  | (.ok (), s) => f s
  | (.error e, s) => (.error e, s)

/-- `check(call(a))?; check(call(b))?; ..; Ok(())` -/
def exec (check : ρ → Except ε Unit) (call : α → σ → ρ × σ) :
    List α → σ → Except ε Unit × σ
  | [], s => (.ok (), s)
  | a :: as, s => andThen (check (call a s).1, (call a s).2) (exec check call as)

@[simp] theorem andThen_ok (s : σ) (f : σ → Except ε Unit × σ) : andThen (.ok (), s) f = f s := rfl
@[simp] theorem andThen_error (e : ε) (s : σ) (f : σ → Except ε Unit × σ) :
    andThen (.error e, s) f = (.error e, s) := rfl

theorem andThen_assoc (r : Except ε Unit × σ) (f g : σ → Except ε Unit × σ) :
    andThen (andThen r f) g = andThen r (fun s => andThen (f s) g) := by
  obtain ⟨_ | _, s⟩ := r <;> rfl

/-- Without a further call the result stands. -/
@[simp] theorem andThen_pure (r : Except ε Unit × σ) : andThen r (fun s => (.ok (), s)) = r := by
  obtain ⟨_ | _, s⟩ := r <;> rfl

section Exec

variable {check : ρ → Except ε Unit} {call : α → σ → ρ × σ}

@[simp] theorem exec_nil (s : σ) : exec check call [] s = (.ok (), s) := rfl

theorem exec_cons (a : α) (as : List α) (s : σ) :
    exec check call (a :: as) s =
      andThen (check (call a s).1, (call a s).2) (exec check call as) := rfl

theorem exec_append (as bs : List α) (s : σ) :
    exec check call (as ++ bs) s = andThen (exec check call as s) (exec check call bs) := by
  induction as generalizing s with
  | nil => rfl
  | cons a as ih =>
    rw [List.cons_append, exec_cons, exec_cons, andThen_assoc]
    congr 1
    funext t
    exact ih t

/-- What every call keeps, passing or failing, is kept by the whole sequence. -/
theorem exec_invariant {Inv : σ → Prop} {as : List α}
    (hcall : ∀ a ∈ as, ∀ s, Inv s → Inv (call a s).2) {s : σ} (hs : Inv s) :
    Inv (exec check call as s).2 := by
  induction as generalizing s with
  | nil => exact hs
  | cons a as ih =>
    have hnext := hcall a List.mem_cons_self s hs
    have hrest := ih (fun b hb => hcall b (List.mem_cons_of_mem a hb)) hnext
    rw [exec_cons]
    cases check (call a s).1 with
    | ok _ => exact hrest
    | error e => exact hnext

/-- A part of the state that no call looks at passes through unchanged. -/
theorem exec_frame {f : σ → σ} (hf : ∀ a s, call a (f s) = ((call a s).1, f (call a s).2))
    (as : List α) (s : σ) :
    exec check call as (f s) = ((exec check call as s).1, f (exec check call as s).2) := by
  induction as generalizing s with
  | nil => rfl
  | cons a as ih =>
    rw [exec_cons, exec_cons, hf]
    cases check (call a s).1 with
    | ok _ => exact ih _
    | error e => rfl

end Exec

end Jack2.Checked
