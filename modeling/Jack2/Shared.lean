import Mathlib.Data.Multiset.AddSub
import Mathlib.Data.Multiset.Count
import Mathlib.Logic.Function.Basic

/-!
# Reference counts

Every allocation has a strong count. Cloning a list of handles adds to the counts,
dropping one subtracts, and the destructor of an allocation runs at the drop that
brings its count to zero. `Counted` says that the counts are exactly the handles
held somewhere; `Collected` that a destructor ran exactly once for exactly the
allocations without a handle.
-/
namespace Jack2.Shared

variable {κ : Type*} [DecidableEq κ]

abbrev Counts (κ : Type*) := κ → ℕ

/-- Clone every handle of a list. -/
def retain (c : Counts κ) (ks : List κ) : Counts κ := fun k => c k + ks.count k

/-- Drop the handles of a list in order. The second component lists the allocations
whose destructors ran, in the order in which they did. -/
def drop : Counts κ → List κ → Counts κ × List κ
  | c, [] => (c, [])
  | c, k :: ks =>
    let r := drop (Function.update c k (c k - 1)) ks
    (r.1, if c k = 1 then k :: r.2 else r.2)

/-- Every handle that is held anywhere is counted, and no other. -/
def Counted (c : Counts κ) (held : Multiset κ) : Prop := ∀ k, c k = held.count k

/-- A destructor ran once for each allocation that lost its last handle. -/
structure Collected (c : Counts κ) (born : κ → Prop) (dead : List κ) : Prop where
  nodup : dead.Nodup
  dead_iff : ∀ k, k ∈ dead ↔ born k ∧ c k = 0

@[simp] theorem drop_nil (c : Counts κ) : drop c [] = (c, []) := rfl

theorem counted_pos {c : Counts κ} {held : Multiset κ} (h : Counted c held) {k : κ}
    (hk : k ∈ held) : 0 < c k := by
  rw [h k]
  exact Multiset.count_pos.mpr hk

theorem counted_eq_zero {c : Counts κ} {held : Multiset κ} (h : Counted c held) {k : κ} :
    c k = 0 ↔ k ∉ held := by
  rw [h k]
  exact Multiset.count_eq_zero

theorem counted_retain {c : Counts κ} {held : Multiset κ} (h : Counted c held) (ks : List κ) :
    Counted (retain c ks) ((ks : Multiset κ) + held) := by
  intro k
  simp only [retain, h k, Multiset.count_add, Multiset.coe_count]
  omega

/-- A new allocation comes with one handle. -/
theorem counted_birth {c : Counts κ} {held : Multiset κ} (h : Counted c held) {k : κ}
    (hk : k ∉ held) : Counted (Function.update c k 1) (({k} : Multiset κ) + held) := by
  intro j
  by_cases hj : j = k
  · subst j
    simp [Multiset.count_eq_zero_of_notMem hk]
  · simp [h j, hj]

theorem counted_update {c : Counts κ} {held : Multiset κ} {k : κ} (h : Counted c (({k} : Multiset κ) + held)) :
    Counted (Function.update c k (c k - 1)) held := by
  intro j
  by_cases hj : j = k
  · subst j
    have := h k
    simp only [Multiset.count_add, Multiset.count_singleton_self] at this
    simp only [Function.update_self]
    omega
  · have := h j
    simpa [hj] using this

omit [DecidableEq κ] in
theorem coe_cons_add (k : κ) (ks : List κ) (held : Multiset κ) :
    (((k :: ks : List κ) : Multiset κ) + held) = ({k} : Multiset κ) + (ks + held) := by
  rw [← Multiset.cons_coe, ← Multiset.singleton_add, Multiset.add_assoc]

theorem counted_drop {c : Counts κ} {ks : List κ} {held : Multiset κ}
    (h : Counted c ((ks : Multiset κ) + held)) : Counted (drop c ks).1 held := by
  induction ks generalizing c with
  | nil => simpa using h
  | cons k ks ih =>
    rw [coe_cons_add] at h
    exact ih (counted_update h)

/-- The destructors that a drop runs are those of the allocations whose handles were
all among the dropped ones. -/
theorem mem_dropped {c : Counts κ} {ks : List κ} {held : Multiset κ}
    (h : Counted c ((ks : Multiset κ) + held)) (j : κ) : j ∈ (drop c ks).2 ↔ j ∈ ks ∧ j ∉ held := by
  induction ks generalizing c with
  | nil => simp
  | cons k ks ih =>
    rw [coe_cons_add] at h
    have hrest := ih (counted_update h)
    have hone : c k = 1 ↔ k ∉ ks ∧ k ∉ held := by
      have hk := h k
      simp only [Multiset.count_add, Multiset.count_singleton_self, Multiset.coe_count] at hk
      rw [← List.count_eq_zero, ← Multiset.count_eq_zero]
      omega
    simp only [drop]
    split
    · rename_i hlast
      simp only [List.mem_cons, hrest]
      have hk := (hone.mp hlast).2
      constructor
      · rintro (rfl | ⟨hj, hh⟩)
        · exact ⟨Or.inl rfl, hk⟩
        · exact ⟨Or.inr hj, hh⟩
      · rintro ⟨hj | hj, hh⟩
        · exact Or.inl hj
        · exact Or.inr ⟨hj, hh⟩
    · rename_i hmore
      rw [hone, not_and_or, not_not, not_not] at hmore
      simp only [List.mem_cons, hrest]
      constructor
      · rintro ⟨hj, hh⟩
        exact ⟨Or.inr hj, hh⟩
      · rintro ⟨rfl | hj, hh⟩
        · exact ⟨hmore.resolve_right hh, hh⟩
        · exact ⟨hj, hh⟩

theorem nodup_dropped {c : Counts κ} {ks : List κ} {held : Multiset κ}
    (h : Counted c ((ks : Multiset κ) + held)) : (drop c ks).2.Nodup := by
  induction ks generalizing c with
  | nil => simp
  | cons k ks ih =>
    rw [coe_cons_add] at h
    have hu := counted_update h
    simp only [drop]
    split
    · rename_i hlast
      refine List.nodup_cons.mpr ⟨?_, ih hu⟩
      rw [mem_dropped hu]
      have hk := h k
      simp only [Multiset.count_add, Multiset.count_singleton_self, Multiset.coe_count] at hk
      intro hmem
      have := List.count_pos_iff.mpr hmem.1
      omega
    · exact ih hu

theorem collected_birth {c : Counts κ} {born : κ → Prop} {dead : List κ}
    (h : Collected c born dead) {k : κ} (hk : ¬born k) :
    Collected (Function.update c k 1) (fun j => born j ∨ j = k) dead := by
  refine ⟨h.nodup, fun j => ?_⟩
  rw [h.dead_iff]
  by_cases hj : j = k
  · subst j
    simp [hk]
  · simp [hj]

theorem collected_retain {c : Counts κ} {born : κ → Prop} {dead : List κ}
    (h : Collected c born dead) {ks : List κ} (hks : ∀ k ∈ ks, 0 < c k) :
    Collected (retain c ks) born dead := by
  refine ⟨h.nodup, fun j => ?_⟩
  rw [h.dead_iff]
  have hpos : c j = 0 → ks.count j = 0 := by
    intro hz
    rw [List.count_eq_zero]
    intro hj
    have := hks j hj
    omega
  simp only [retain]
  constructor
  · rintro ⟨hb, hz⟩
    exact ⟨hb, by have := hpos hz; omega⟩
  · rintro ⟨hb, hz⟩
    exact ⟨hb, by omega⟩

/-- Dropping handles of live allocations keeps the record of destructors exact. -/
theorem collected_drop {c : Counts κ} {born : κ → Prop} {dead ks : List κ} {held : Multiset κ}
    (hc : Counted c ((ks : Multiset κ) + held)) (h : Collected c born dead) (hks : ∀ k ∈ ks, born k) :
    Collected (drop c ks).1 born (dead ++ (drop c ks).2) := by
  have hlive : ∀ k ∈ ks, k ∉ dead := by
    intro k hk hd
    have hpos := counted_pos hc (k := k) (by simp [hk])
    have hzero := ((h.dead_iff k).mp hd).2
    omega
  refine ⟨?_, fun j => ?_⟩
  · rw [List.nodup_append]
    refine ⟨h.nodup, nodup_dropped hc, ?_⟩
    rintro a ha b hb rfl
    exact hlive a ((mem_dropped hc a).mp hb).1 ha
  · rw [List.mem_append, h.dead_iff, mem_dropped hc, counted_eq_zero (counted_drop hc),
      counted_eq_zero hc]
    simp only [Multiset.mem_add, Multiset.mem_coe, not_or]
    constructor
    · rintro (⟨hb, hn, hh⟩ | ⟨hj, hh⟩)
      · exact ⟨hb, hh⟩
      · exact ⟨hks j hj, hh⟩
    · rintro ⟨hb, hh⟩
      by_cases hj : j ∈ ks
      · exact Or.inr ⟨hj, hh⟩
      · exact Or.inl ⟨hb, hj, hh⟩

end Jack2.Shared
