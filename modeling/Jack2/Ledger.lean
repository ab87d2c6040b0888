import Mathlib.Data.Multiset.AddSub
import Mathlib.Data.Multiset.ZeroCons

/-!
# A ledger of resources

Resources are taken over and given back, and the entries of the ledger say in which order.
`Live` relates the entries to a multiset of resources that have an owner; `Settled` says
that only what was taken is given back, nothing twice, and that everything taken is given
back or has an owner.
-/
namespace Jack2.Ledger

variable {κ : Type*}

inductive Entry (κ : Type*) where
  | taken (k : κ)
  | given (k : κ)
  deriving DecidableEq, Repr

/-- The resources with an owner are taken, not given back, and have one owner each. -/
structure Live (es : List (Entry κ)) (owned : Multiset κ) : Prop where
  nodup : owned.Nodup
  live : ∀ k ∈ owned, Entry.taken k ∈ es ∧ Entry.given k ∉ es

structure Settled (es : List (Entry κ)) (owned : Multiset κ) : Prop where
  rightful : ∀ before k after, es = before ++ Entry.given k :: after →
    Entry.taken k ∈ before ∧ Entry.given k ∉ before
  accounted : ∀ k, Entry.taken k ∈ es → Entry.given k ∈ es ∨ k ∈ owned

/-- A resource that no entry mentions. -/
def Fresh (es : List (Entry κ)) (k : κ) : Prop := Entry.taken k ∉ es ∧ Entry.given k ∉ es

theorem live_nil : Live ([] : List (Entry κ)) 0 := ⟨Multiset.nodup_zero, by simp⟩

theorem settled_nil : Settled ([] : List (Entry κ)) 0 := ⟨by simp, by simp⟩

theorem live_notMem {es : List (Entry κ)} {owned : Multiset κ} (h : Live es owned) {k : κ}
    (hk : Fresh es k) : k ∉ owned := fun hmem => hk.1 (h.live k hmem).1

theorem live_take {es : List (Entry κ)} {owned : Multiset κ} (h : Live es owned) {k : κ}
    (hk : Fresh es k) : Live (es ++ [.taken k]) (k ::ₘ owned) := by
  refine ⟨Multiset.nodup_cons.mpr ⟨live_notMem h hk, h.nodup⟩, ?_⟩
  intro j hj
  rcases Multiset.mem_cons.mp hj with rfl | hj
  · simp [hk.2]
  · simp [h.live j hj]

/-- A resource that is taken but gets no owner leaves the others alone. -/
theorem live_leak {es : List (Entry κ)} {owned : Multiset κ} (h : Live es owned) (k : κ) :
    Live (es ++ [.taken k]) owned := by
  refine ⟨h.nodup, ?_⟩
  intro j hj
  simp [h.live j hj]

theorem live_give {es : List (Entry κ)} {owned : Multiset κ} {k : κ}
    (h : Live es (k ::ₘ owned)) : Live (es ++ [.given k]) owned := by
  obtain ⟨hk, hnodup⟩ := Multiset.nodup_cons.mp h.nodup
  refine ⟨hnodup, ?_⟩
  intro j hj
  have hne : j ≠ k := by
    rintro rfl
    exact hk hj
  simp [h.live j (Multiset.mem_cons_of_mem hj), hne]

/-- So does the release of a resource without an owner. -/
theorem live_stray {es : List (Entry κ)} {owned : Multiset κ} (h : Live es owned) {k : κ}
    (hk : k ∉ owned) : Live (es ++ [.given k]) owned := by
  refine ⟨h.nodup, ?_⟩
  intro j hj
  have hne : j ≠ k := by
    rintro rfl
    exact hk hj
  simp [h.live j hj, hne]

/-- Where a release stands in a ledger with one more entry. -/
theorem split_concat {es before after : List (Entry κ)} {e : Entry κ} {k : κ}
    (h : es ++ [e] = before ++ Entry.given k :: after) :
    (∃ rest, after = rest ++ [e] ∧ es = before ++ Entry.given k :: rest) ∨
      (after = [] ∧ e = .given k ∧ before = es) := by
  rcases List.eq_nil_or_concat' after with rfl | ⟨rest, last, rfl⟩
  · right
    have hparts := List.append_inj' h rfl
    exact ⟨rfl, (List.cons.inj hparts.2).1, hparts.1.symm⟩
  · left
    rw [← List.cons_append, ← List.append_assoc] at h
    have hparts := List.append_inj' h rfl
    exact ⟨rest, by rw [(List.cons.inj hparts.2).1], hparts.1⟩

theorem settled_take {es : List (Entry κ)} {owned : Multiset κ} (h : Settled es owned) (k : κ) :
    Settled (es ++ [.taken k]) (k ::ₘ owned) := by
  constructor
  · intro before j after heq
    rcases split_concat heq with ⟨rest, _, hes⟩ | ⟨_, he, _⟩
    · exact h.rightful before j rest hes
    · cases he
  · intro j hj
    rcases List.mem_append.mp hj with hj | hj
    · rcases h.accounted j hj with hg | ho
      · exact Or.inl (by simp [hg])
      · exact Or.inr (Multiset.mem_cons_of_mem ho)
    · cases List.mem_singleton.mp hj
      exact Or.inr (Multiset.mem_cons_self k owned)

theorem settled_give {es : List (Entry κ)} {owned : Multiset κ} {k : κ}
    (hlive : Live es (k ::ₘ owned)) (h : Settled es (k ::ₘ owned)) :
    Settled (es ++ [.given k]) owned := by
  constructor
  · intro before j after heq
    rcases split_concat heq with ⟨rest, _, hes⟩ | ⟨_, he, rfl⟩
    · exact h.rightful before j rest hes
    · cases he
      exact hlive.live k (Multiset.mem_cons_self k owned)
  · intro j hj
    have hold : Entry.taken j ∈ es := by simpa using hj
    rcases h.accounted j hold with hg | ho
    · exact Or.inl (by simp [hg])
    · rcases Multiset.mem_cons.mp ho with rfl | ho
      · exact Or.inl (by simp)
      · exact Or.inr ho

/-- Giving back what was never taken cannot be settled. -/
theorem not_settled_stray {es : List (Entry κ)} {owned : Multiset κ} {k : κ}
    (hk : Entry.taken k ∉ es) : ¬Settled (es ++ [.given k]) owned := by
  intro h
  exact hk (h.rightful es k [] rfl).1

/-- Nor can taking what neither gets an owner nor is given back. -/
theorem not_settled_leak {es : List (Entry κ)} {owned : Multiset κ} {k : κ} (hk : Fresh es k)
    (hn : k ∉ owned) : ¬Settled (es ++ [.taken k]) owned := by
  intro h
  rcases h.accounted k (by simp) with hg | ho
  · exact hk.2 (by simpa using hg)
  · exact hn ho

end Jack2.Ledger
