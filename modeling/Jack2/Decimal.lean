import Mathlib.Algebra.Group.Nat.Defs

/-!
# Decimal numbers in a byte string

The number that `strtoull` and its relatives find: white space is skipped, and the digits
that follow are read for as long as the number stays below a bound. `text` writes one.
-/
namespace Jack2.Decimal

def isSpace (b : UInt8) : Bool := b == 0x20 || (0x09 ≤ b && b ≤ 0x0D)

def isDigit (b : UInt8) : Bool := 0x30 ≤ b && b ≤ 0x39

/-- The number after one more digit. -/
def push (n : ℕ) (b : UInt8) : ℕ := 10 * n + (b.toNat - 48)

def number (ds : List UInt8) : ℕ := ds.foldl push 0

/-- The longest run of digits in front of `s` that, read after `n`, stays below `bound`. -/
def digitsFrom (bound : ℕ) : ℕ → List UInt8 → List UInt8
  | _, [] => []
  | n, b :: s => if isDigit b ∧ push n b < bound then b :: digitsFrom bound (push n b) s else []

def spaces (s : List UInt8) : List UInt8 := s.takeWhile isSpace

/-- The digits of the number that `s` starts with, white space apart. -/
def digits (bound : ℕ) (s : List UInt8) : List UInt8 := digitsFrom bound 0 (s.dropWhile isSpace)

/-- Where the number ends in `s`. -/
def numberEnd (bound : ℕ) (s : List UInt8) : ℕ := (spaces s).length + (digits bound s).length

def text (n : ℕ) : List UInt8 := (Nat.toDigits 10 n).map fun c => c.toNat.toUInt8

section Number

theorem number_append_one (ds : List UInt8) (b : UInt8) :
    number (ds ++ [b]) = push (number ds) b := by
  simp [number, List.foldl_append]

theorem le_number_append (ds es : List UInt8) : number ds ≤ number (ds ++ es) := by
  induction es generalizing ds with
  | nil => simp
  | cons b es ih =>
    have h := ih (ds ++ [b])
    rw [number_append_one, List.append_assoc, List.singleton_append] at h
    unfold push at h
    omega

theorem number_take_le (ds : List UInt8) (n : ℕ) : number (ds.take n) ≤ number ds := by
  have h := le_number_append (ds.take n) (ds.drop n)
  rwa [List.take_append_drop] at h

/-- A digit that is dropped at the end costs a factor of ten. -/
theorem number_take_lt {ds : List UInt8} {n : ℕ} (hn : n < ds.length) (hd : 0 < number ds) :
    number (ds.take n) < number ds := by
  have h := le_number_append (ds.take n ++ [ds[n]]) (ds.drop (n + 1))
  rw [number_append_one, List.append_assoc, List.singleton_append, List.getElem_cons_drop,
    List.take_append_drop] at h
  unfold push at h
  omega

end Number

section Reading

variable {bound : ℕ}

theorem digitsFrom_take (n : ℕ) (s : List UInt8) (k : ℕ) :
    digitsFrom bound n (s.take k) = (digitsFrom bound n s).take k := by
  induction s generalizing n k with
  | nil => simp [digitsFrom]
  | cons b s ih =>
    cases k with
    | zero => simp [digitsFrom]
    | succ k =>
      simp only [List.take_succ_cons, digitsFrom]
      split
      · rw [ih, List.take_succ_cons]
      · simp

theorem foldl_digitsFrom_lt (n : ℕ) (hn : n < bound) (s : List UInt8) :
    (digitsFrom bound n s).foldl push n < bound := by
  induction s generalizing n with
  | nil => exact hn
  | cons b s ih =>
    simp only [digitsFrom]
    split
    · rename_i h
      exact ih _ h.2
    · exact hn

theorem number_digits_lt (hb : 0 < bound) (s : List UInt8) : number (digits bound s) < bound :=
  foldl_digitsFrom_lt 0 hb _

theorem dropWhile_take {α : Type*} (p : α → Bool) (s : List α) (k : ℕ) :
    (s.take k).dropWhile p = (s.dropWhile p).take (k - (s.takeWhile p).length) := by
  induction s generalizing k with
  | nil => simp
  | cons b s ih =>
    cases k with
    | zero => simp
    | succ k =>
      cases h : p b with
      | true => simp [h, ih]
      | false => simp [h]

/-- Cutting a string cuts the number in it. -/
theorem digits_take (s : List UInt8) (k : ℕ) :
    digits bound (s.take k) = (digits bound s).take (k - (spaces s).length) := by
  rw [digits, dropWhile_take, digitsFrom_take]
  rfl

theorem digits_take_of_end_le {s : List UInt8} {k : ℕ} (h : numberEnd bound s ≤ k) :
    digits bound (s.take k) = digits bound s := by
  rw [digits_take, List.take_of_length_le]
  unfold numberEnd at h
  omega

theorem number_digits_take_le (s : List UInt8) (k : ℕ) :
    number (digits bound (s.take k)) ≤ number (digits bound s) := by
  rw [digits_take]
  exact number_take_le _ _

theorem number_digits_take_lt {s : List UInt8} {k : ℕ} (hk : k < numberEnd bound s)
    (hd : 0 < number (digits bound s)) :
    number (digits bound (s.take k)) < number (digits bound s) := by
  rw [digits_take]
  unfold numberEnd at hk
  by_cases hc : k - (spaces s).length < (digits bound s).length
  · exact number_take_lt hc hd
  · have hz : (digits bound s).length = 0 := by omega
    rw [List.length_eq_zero_iff.mp hz] at hd
    exact absurd hd (by decide)

end Reading

section Text

theorem toUInt8_of_isDigit {c : Char} (h : c.isDigit) :
    isDigit c.toNat.toUInt8 ∧ c.toNat.toUInt8.toNat = c.toNat := by
  simp only [Char.isDigit, Bool.and_eq_true, decide_eq_true_eq, ge_iff_le, UInt32.le_iff_toNat_le] at h
  have hlow : 48 ≤ c.toNat := h.1
  have hhigh : c.toNat ≤ 57 := h.2
  have hbyte : c.toNat.toUInt8.toNat = c.toNat := by
    simp [Nat.toUInt8, UInt8.toNat_ofNat']
    omega
  refine ⟨?_, hbyte⟩
  simp [isDigit, UInt8.le_iff_toNat_le, hbyte, hlow, hhigh]

theorem isDigit_of_mem_text {n : ℕ} {b : UInt8} (h : b ∈ text n) : isDigit b := by
  obtain ⟨c, hc, rfl⟩ := List.mem_map.mp h
  exact (toUInt8_of_isDigit (Nat.isDigit_of_mem_toDigits (by decide) (by decide) hc)).1

theorem foldl_push_map (cs : List Char) (hc : ∀ c ∈ cs, c.isDigit) (n : ℕ) :
    (cs.map fun c => c.toNat.toUInt8).foldl push n = Nat.ofDigitChars 10 cs n := by
  induction cs generalizing n with
  | nil => rfl
  | cons c cs ih =>
    have hhead := (toUInt8_of_isDigit (hc c (by simp))).2
    have htail : ∀ d ∈ cs, d.isDigit := by intro d hd; exact hc d (by simp [hd])
    rw [List.map_cons, List.foldl_cons, ih htail, Nat.ofDigitChars_cons, push, hhead]
    rfl

theorem number_text (n : ℕ) : number (text n) = n := by
  rw [number, text, foldl_push_map]
  · exact Nat.ofDigitChars_ten_toDigits
  · intro c hc
    exact Nat.isDigit_of_mem_toDigits (by decide) (by decide) hc

theorem length_text_le {n k : ℕ} (hk : 0 < k) : (text n).length ≤ k ↔ n < 10 ^ k := by
  rw [text, List.length_map]
  exact Nat.length_toDigits_le_iff (by decide) hk

theorem foldl_push_ge (ds : List UInt8) (n : ℕ) : n ≤ ds.foldl push n := by
  induction ds generalizing n with
  | nil => exact Nat.le_refl n
  | cons b ds ih =>
    have h := ih (push n b)
    rw [List.foldl_cons]
    unfold push at h ⊢
    omega

theorem digitsFrom_eq_self {bound : ℕ} (ds : List UInt8) (hd : ∀ b ∈ ds, isDigit b) (n : ℕ)
    (hn : ds.foldl push n < bound) : digitsFrom bound n ds = ds := by
  induction ds generalizing n with
  | nil => rfl
  | cons b ds ih =>
    have htail : ∀ c ∈ ds, isDigit c := by intro c hc; exact hd c (by simp [hc])
    have hfirst : push n b < bound := by
      have h := foldl_push_ge ds (push n b)
      rw [List.foldl_cons] at hn
      omega
    rw [digitsFrom, if_pos ⟨hd b (by simp), hfirst⟩, ih htail _ hn]

theorem isSpace_eq_false {b : UInt8} (h : isDigit b) : isSpace b = false := by
  simp only [isDigit, Bool.and_eq_true, decide_eq_true_eq, UInt8.le_iff_toNat_le] at h
  simp only [isSpace, Bool.or_eq_false_iff, Bool.and_eq_false_iff, beq_eq_false_iff_ne,
    decide_eq_false_iff_not, UInt8.le_iff_toNat_le]
  constructor
  · intro he
    subst he
    exact absurd h.1 (by decide)
  · right
    have hlow : (48 : UInt8).toNat = 48 := rfl
    have hhigh : (13 : UInt8).toNat = 13 := rfl
    omega

/-- A number that fits is read back from its own text. -/
theorem digits_text {bound n : ℕ} (hn : n < bound) : digits bound (text n) = text n := by
  have hall : ∀ b ∈ text n, isDigit b := by intro b hb; exact isDigit_of_mem_text hb
  have hdrop : (text n).dropWhile isSpace = text n := by
    cases ht : text n with
    | nil => rfl
    | cons b ds => simp [isSpace_eq_false (hall b (by simp [ht]))]
  rw [digits, hdrop]
  apply digitsFrom_eq_self _ hall
  have h := number_text n
  unfold number at h
  omega

end Text

end Jack2.Decimal
