import Jack2.Decimal
import Jack2.Uuid
import Mathlib.Tactic.ByContra

/-!
# The text of a UUID

`FromStr for Uuid` hands libjack the first 36 bytes of its argument, and `Display for Uuid`
has libjack write into a buffer of 37. Parsing is compared with what libjack makes of the
whole argument, and printing with what parsing makes of the text.
-/
namespace Jack2

open Decimal

/-- The numbers of `jack_uuid_t` are below this. -/
def uuidBound : ℕ := 18446744073709551616

/-- A UUID has its type in the upper half, so the valid ones start here. -/
def firstUuid : ℕ := 4294967296

/-- The number that libjack finds in a string, and zero where there is none. -/
def uuidNumber (s : List UInt8) : ℕ := number (digits uuidBound s)

/-- `jack_uuid_parse`: the code it returns and the number it leaves behind. -/
def jackUuidParse (s : List UInt8) : Int × UInt64 :=
  if digits uuidBound s = [] ∨ uuidNumber s < firstUuid then (-1, UInt64.ofNat (uuidNumber s))
  else (0, UInt64.ofNat (uuidNumber s))

/-- `weak_library`, which may have failed to load. -/
def libjackParse (loaded : Bool) : UuidParse := if loaded then some jackUuidParse else none

theorem uuidNumber_lt (s : List UInt8) : uuidNumber s < uuidBound :=
  number_digits_lt (by decide) s

theorem toNat_ofNat_uuidNumber (s : List UInt8) :
    (UInt64.ofNat (uuidNumber s)).toNat = uuidNumber s := by
  have h := uuidNumber_lt s
  unfold uuidBound at h
  rw [UInt64.toNat_ofNat']
  omega

theorem ofParsed_jackUuidParse (s : List UInt8) :
    Uuid.ofParsed (jackUuidParse s).1 (jackUuidParse s).2 =
      if uuidNumber s < firstUuid then .error .invalidOption
      else .ok ⟨UInt64.ofNat (uuidNumber s)⟩ := by
  by_cases hsmall : uuidNumber s < firstUuid
  · simp [jackUuidParse, Uuid.ofParsed, hsmall]
  · have hdigits : digits uuidBound s ≠ [] := by
      intro he
      apply hsmall
      rw [uuidNumber, he]
      decide
    have hne : UInt64.ofNat (uuidNumber s) ≠ 0 := by
      intro he
      have h := congrArg UInt64.toNat he
      rw [toNat_ofNat_uuidNumber] at h
      apply hsmall
      rw [h]
      decide
    simp [jackUuidParse, Uuid.ofParsed, hsmall, hdigits, hne]

section Parsing

/-- What the library makes of a string that it is given as a whole. -/
def Uuid.fromWhole (lib : UuidParse) (s : List UInt8) : Except Error Uuid :=
  match lib with
  | none => .error .libraryError
  | some parse => Uuid.ofParsed (parse s).1 (parse s).2

/-- Parsing returns, refuses a NUL wherever it stands, and agrees otherwise with what
libjack makes of the whole string. -/
structure TotalAndFaithful (lib : UuidParse) (s : List UInt8) : Prop where
  total : ∃ r, Uuid.fromStr lib s = .done r
  nul : 0 ∈ s → ∃ e, Uuid.fromStr lib s = .done (.error e)
  faithful : 0 ∉ s → Uuid.fromStr lib s = .done (Uuid.fromWhole lib s)

/-- The 36 bytes end between two characters, a NUL beyond them comes after no valid
number, and a valid number ends within them. -/
structure CutHarmless (loaded : Bool) (s : List UInt8) : Prop where
  boundary : isCharBoundary s (min s.length uuidStringSize)
  nul : loaded → 0 ∈ s → 0 ∉ s.take uuidStringSize →
    uuidNumber (s.take uuidStringSize) < firstUuid
  number : loaded → 0 ∉ s →
    numberEnd uuidBound s ≤ uuidStringSize ∨ uuidNumber s < firstUuid

theorem fromWhole_loaded (s : List UInt8) :
    Uuid.fromWhole (libjackParse true) s =
      if uuidNumber s < firstUuid then .error .invalidOption
      else .ok ⟨UInt64.ofNat (uuidNumber s)⟩ :=
  ofParsed_jackUuidParse s

theorem fromStr_of_not_boundary {lib : UuidParse} {s : List UInt8}
    (h : ¬ isCharBoundary s (min s.length uuidStringSize)) : Uuid.fromStr lib s = .panic := by
  rw [Uuid.fromStr, if_neg h]

theorem fromStr_of_boundary {lib : UuidParse} {s : List UInt8}
    (h : isCharBoundary s (min s.length uuidStringSize)) :
    Uuid.fromStr lib s =
      if 0 ∈ s.take uuidStringSize then .done (.error .invalidCString)
      else .done (Uuid.fromWhole lib (s.take uuidStringSize)) := by
  have hcut : s.take (min s.length uuidStringSize) = s.take uuidStringSize := by
    rw [Nat.min_comm, ← List.take_eq_take_min]
  rw [Uuid.fromStr, if_pos h, hcut]
  cases lib <;> rfl

theorem zero_notMem_take {s : List UInt8} (h : 0 ∉ s) (k : ℕ) : 0 ∉ s.take k := by
  intro hmem
  exact h (List.mem_of_mem_take hmem)

/-- Cutting a string never makes a number of it that was none. -/
theorem uuidNumber_take_lt {s : List UInt8} (h : uuidNumber s < firstUuid) (k : ℕ) :
    uuidNumber (s.take k) < firstUuid := by
  have hle : uuidNumber (s.take k) ≤ uuidNumber s := number_digits_take_le s k
  omega

/-- A valid number that reaches beyond the cut is not the number that is left. -/
theorem fromWhole_take_ne {s : List UInt8} {k : ℕ} (hend : k < numberEnd uuidBound s)
    (hvalid : firstUuid ≤ uuidNumber s) :
    Uuid.fromWhole (libjackParse true) (s.take k) ≠ Uuid.fromWhole (libjackParse true) s := by
  have hpos : 0 < uuidNumber s := Nat.lt_of_lt_of_le (by decide) hvalid
  have hlt : uuidNumber (s.take k) < uuidNumber s := number_digits_take_lt hend hpos
  rw [fromWhole_loaded s, if_neg (Nat.not_lt.mpr hvalid), fromWhole_loaded]
  split
  · simp
  · intro he
    have hsame := congrArg UInt64.toNat (congrArg Uuid.value (Except.ok.inj he))
    rw [toNat_ofNat_uuidNumber, toNat_ofNat_uuidNumber] at hsame
    omega

theorem cutHarmless_of_faithful {loaded : Bool} {s : List UInt8}
    (h : TotalAndFaithful (libjackParse loaded) s) : CutHarmless loaded s := by
  have hboundary : isCharBoundary s (min s.length uuidStringSize) := by
    by_contra hb
    obtain ⟨r, hr⟩ := h.total
    rw [fromStr_of_not_boundary hb] at hr
    cases hr
  constructor
  · exact hboundary
  · intro hloaded hnul hcut
    subst hloaded
    obtain ⟨e, he⟩ := h.nul hnul
    rw [fromStr_of_boundary hboundary, if_neg hcut, fromWhole_loaded] at he
    by_contra hvalid
    rw [if_neg hvalid] at he
    cases he
  · intro hloaded hnul
    subst hloaded
    by_contra hno
    rw [not_or, Nat.not_le, Nat.not_lt] at hno
    have hf := h.faithful hnul
    rw [fromStr_of_boundary hboundary, if_neg (zero_notMem_take hnul _)] at hf
    exact fromWhole_take_ne hno.1 hno.2 (Outcome.done.inj hf)

theorem faithful_of_cutHarmless {loaded : Bool} {s : List UInt8}
    (h : CutHarmless loaded s) : TotalAndFaithful (libjackParse loaded) s := by
  constructor
  · rw [fromStr_of_boundary h.boundary]
    split
    · exact ⟨_, rfl⟩
    · exact ⟨_, rfl⟩
  · intro hnul
    rw [fromStr_of_boundary h.boundary]
    split
    · exact ⟨_, rfl⟩
    · rename_i hcut
      cases loaded with
      | false => exact ⟨_, rfl⟩
      | true =>
        rw [fromWhole_loaded, if_pos (h.nul rfl hnul hcut)]
        exact ⟨_, rfl⟩
  · intro hnul
    rw [fromStr_of_boundary h.boundary, if_neg (zero_notMem_take hnul _)]
    cases loaded with
    | false => rfl
    | true =>
      rcases h.number rfl hnul with hend | hsmall
      · rw [fromWhole_loaded, fromWhole_loaded, uuidNumber, digits_take_of_end_le hend]
        rfl
      · rw [fromWhole_loaded, fromWhole_loaded, if_pos hsmall, if_pos (uuidNumber_take_lt hsmall _)]

/-- The first 36 bytes are enough for exactly the strings that are cut between two
characters, with no NUL after a valid number and no valid number beyond the cut. -/
theorem fromStr_total_faithful_iff (loaded : Bool) (s : List UInt8) :
    TotalAndFaithful (libjackParse loaded) s ↔ CutHarmless loaded s := by
  constructor
  · exact cutHarmless_of_faithful
  · exact faithful_of_cutHarmless

/-- Thirty-five letters and an e with an acute accent. -/
def straddling : List UInt8 := List.replicate 35 0x61 ++ [0xC3, 0xA9]

/-- A valid number, spaces as far as the cut, and then a NUL. -/
def lateNul : List UInt8 := text 4294967296 ++ List.replicate 26 0x20 ++ [0x00]

/-- A valid number behind twenty-seven spaces loses its last digit. -/
def pushedOut : List UInt8 := List.replicate 27 0x20 ++ text 4294967296

theorem straddling_harmed : ¬ TotalAndFaithful (libjackParse true) straddling := by
  intro h
  obtain ⟨r, hr⟩ := h.total
  have hpanic : Uuid.fromStr (libjackParse true) straddling = .panic := rfl
  rw [hpanic] at hr
  cases hr

theorem lateNul_harmed : ¬ TotalAndFaithful (libjackParse true) lateNul := by
  intro h
  obtain ⟨e, he⟩ := h.nul (by decide)
  have hok : Uuid.fromStr (libjackParse true) lateNul = .done (.ok ⟨4294967296⟩) := rfl
  rw [hok] at he
  cases he

theorem pushedOut_harmed : ¬ TotalAndFaithful (libjackParse true) pushedOut := by
  intro h
  have hwhole : Uuid.fromWhole (libjackParse true) pushedOut = .ok ⟨4294967296⟩ := rfl
  have hcut : Uuid.fromStr (libjackParse true) pushedOut = .done (.error .invalidOption) := rfl
  have hf := h.faithful (by decide)
  rw [hwhole, hcut] at hf
  cases hf

theorem fromStr_cut_harms :
    ¬ TotalAndFaithful (libjackParse true) straddling ∧
      ¬ TotalAndFaithful (libjackParse true) lateNul ∧
      ¬ TotalAndFaithful (libjackParse true) pushedOut :=
  ⟨straddling_harmed, lateNul_harmed, pushedOut_harmed⟩

end Parsing

section Printing

/-- `Uuid::new` of a `NonZeroU64`. -/
def Uuid.new (uuid : UInt64) (_ : uuid ≠ 0) : Uuid := ⟨uuid⟩

/-- `JACK_UUID_STRING_SIZE`. -/
def uuidBufferSize : ℕ := 37

/-- What `jack_uuid_unparse` writes into the buffer. -/
def jackUuidUnparse (uuid : UInt64) : List UInt8 := text uuid.toNat ++ [0]

def libjackUnparse (loaded : Bool) : Option (UInt64 → List UInt8) :=
  if loaded then some jackUuidUnparse else none

/-- `CStr::from_ptr` on the buffer. The rest of it is not initialised, and what is written
has to fit and to bring its own NUL. -/
def readBuffer (written : List UInt8) : Outcome (List UInt8) :=
  if written.length ≤ uuidBufferSize ∧ 0 ∈ written then .done (written.takeWhile (· != 0))
  else .undefined

/-- `std::fmt::Error`. -/
structure FmtError where
  deriving DecidableEq, Repr

/-- `<Uuid as Display>::fmt` into a formatter without width or precision. -/
def Uuid.fmt (lib : Option (UInt64 → List UInt8)) (u : Uuid) :
    Outcome (Except FmtError (List UInt8)) :=
  match lib with
  | none => .done (.error ⟨⟩)
  | some unparse => (readBuffer (unparse u.value)).map .ok

/-- `ToString::to_string`, which takes an error of `fmt` for a bug. -/
def Uuid.toString (lib : Option (UInt64 → List UInt8)) (u : Uuid) : Outcome (List UInt8) :=
  (u.fmt lib).unwrap

/-- `u.to_string().parse::<Uuid>()`. -/
def Uuid.roundTrip (loaded : Bool) (u : Uuid) : Outcome (Except Error Uuid) :=
  (u.toString (libjackUnparse loaded)).bind (Uuid.fromStr (libjackParse loaded))

theorem zero_notMem_text (n : ℕ) : 0 ∉ text n := by
  intro h
  exact absurd (isDigit_of_mem_text h) (by decide)

theorem length_text_value_le (u : Uuid) : (text u.value.toNat).length ≤ 20 := by
  rw [length_text_le (by decide)]
  have h := u.value.toNat_lt
  omega

/-- Twenty digits and the NUL leave sixteen bytes of the buffer unused. -/
theorem readBuffer_jackUuidUnparse (u : Uuid) :
    readBuffer (jackUuidUnparse u.value) = .done (text u.value.toNat) := by
  have hlen := length_text_value_le u
  have hfits : (jackUuidUnparse u.value).length ≤ uuidBufferSize := by
    simp only [jackUuidUnparse, uuidBufferSize, List.length_append, List.length_singleton]
    omega
  have hread : (jackUuidUnparse u.value).takeWhile (· != 0) = text u.value.toNat := by
    have hall : ∀ b ∈ text u.value.toNat, (b != 0) = true := by
      intro b hb
      rw [bne_iff_ne]
      intro he
      exact zero_notMem_text _ (he ▸ hb)
    rw [jackUuidUnparse, List.takeWhile_append_of_pos hall]
    simp
  rw [readBuffer, if_pos ⟨hfits, by simp [jackUuidUnparse]⟩, hread]

theorem toString_eq (u : Uuid) :
    u.toString (libjackUnparse true) = .done (text u.value.toNat) := by
  have h := readBuffer_jackUuidUnparse u
  simp [Uuid.toString, Uuid.fmt, libjackUnparse, h, Outcome.map, Outcome.unwrap]

/-- A text of digits is short enough to be read as a whole. -/
theorem fromStr_text {n : ℕ} (hlen : (text n).length ≤ uuidStringSize) (hn : n < uuidBound) :
    Uuid.fromStr (libjackParse true) (text n) =
      .done (if n < firstUuid then .error .invalidOption else .ok ⟨UInt64.ofNat n⟩) := by
  have hboundary : isCharBoundary (text n) (min (text n).length uuidStringSize) := by
    rw [Nat.min_eq_left hlen]
    simp [isCharBoundary]
  have hnumber : uuidNumber (text n) = n := by
    rw [uuidNumber, digits_text hn, number_text]
  rw [fromStr_of_boundary hboundary, List.take_of_length_le hlen, if_neg (zero_notMem_text n),
    fromWhole_loaded, hnumber]

/-- A UUID is read back from its own text when its type bits are set, and refused when
they are not. -/
theorem roundTrip_eq (u : Uuid) :
    u.roundTrip true =
      .done (if firstUuid ≤ u.value.toNat then .ok u else .error .invalidOption) := by
  have hlen : (text u.value.toNat).length ≤ uuidStringSize := by
    have h := length_text_value_le u
    unfold uuidStringSize
    omega
  rw [Uuid.roundTrip, toString_eq, Outcome.bind, fromStr_text hlen u.value.toNat_lt]
  by_cases hvalid : firstUuid ≤ u.value.toNat
  · rw [if_pos hvalid, if_neg (Nat.not_lt.mpr hvalid), UInt64.ofNat_toNat]
  · rw [if_neg hvalid, if_pos (Nat.not_le.mp hvalid)]

/-- The constructor takes a one, and parsing does not. -/
theorem roundTrip_one :
    (Uuid.new 1 (by decide)).roundTrip true ≠ .done (.ok (Uuid.new 1 (by decide))) := by
  have h : (Uuid.new 1 (by decide)).roundTrip true = .done (.error .invalidOption) := rfl
  rw [h]
  simp

end Printing

end Jack2
