import Jack2.Libjack
import Jack2.Registers
import Mathlib.Tactic.ByContra

/-!
# The transport

The codes of `TransportState`, `TransportPosition` with its sections, each of which has a bit in `valid`, and
`Transport::reposition`. The bits come from the generated bindings and are a parameter, and
the floating point numbers are only copied, so their types are parameters too.
-/
namespace Jack2.Transport

open Registers

inductive TransportState where
  | stopped | rolling | starting | netStarting
  deriving DecidableEq, Repr

/-- The constants `jack_transport_state_t_*`. -/
structure StateCodes where
  stopped : UInt32
  rolling : UInt32
  starting : UInt32
  netStarting : UInt32

/-- `TransportState::from_jack`. A code that is none of these counts as stopped. -/
def TransportState.fromJack (codes : StateCodes) (state : UInt32) : TransportState :=
  if state = codes.stopped then .stopped
  else if state = codes.rolling then .rolling
  else if state = codes.starting then .starting
  else if state = codes.netStarting then .netStarting
  else .stopped

/-- `TransportBBT`. -/
structure TransportBBT (F32 F64 : Type) where
  bar : Int32
  beat : Int32
  tick : Int32
  barStartTick : F64
  beatsPerBar : F32
  beatType : F32
  ticksPerBeat : F64
  beatsPerMinute : F64

structure TransportTimecode (F64 : Type) where
  frameTime : F64
  nextTime : F64

/-- `jack_position_t`. -/
structure TransportPosition (F32 F64 : Type) where
  usecs : UInt64
  frameRate : UInt32
  frame : UInt32
  valid : UInt32
  bar : Int32
  beat : Int32
  tick : Int32
  barStartTick : F64
  beatsPerBar : F32
  beatType : F32
  ticksPerBeat : F64
  beatsPerMinute : F64
  frameTime : F64
  nextTime : F64
  bbtOffset : UInt32
  audioFramesPerVideoFrame : F32
  videoOffset : UInt32
  tickDouble : F64

inductive Section where
  | bbt | timecode | bbtOffset | audioVideoRatio | videoOffset | tickDouble
  deriving DecidableEq, Repr

/-- The constants `jack_position_bits_t_*`, one for each section. -/
abbrev Bits := Section → UInt32

/-- The header gives every section a bit of its own. -/
structure Bits.Separate (bits : Bits) : Prop where
  ne_zero : ∀ x, bits x ≠ 0
  disjoint : ∀ x y, x ≠ y → bits x &&& bits y = 0

/-- The bits of the C header. -/
def header : Bits
  | .bbt => 0x10
  | .timecode => 0x20
  | .bbtOffset => 0x40
  | .audioVideoRatio => 0x80
  | .videoOffset => 0x100
  | .tickDouble => 0x200

theorem separate_header : Bits.Separate header := by
  constructor
  · intro x
    cases x <;> decide
  · intro x y h
    cases x <;> cases y <;> first | decide | exact absurd rfl h

variable {F32 F64 : Type}

namespace TransportPosition

variable (bits : Bits) (self : TransportPosition F32 F64)

/-- The test of the `has_*` methods. -/
def test (x : Section) : Bool := self.valid &&& bits x != 0

def hasBbt : Bool := self.test bits .bbt
def hasTimecode : Bool := self.test bits .timecode
def hasBbtOffset : Bool := self.test bits .bbtOffset
def hasAudioVideoRatio : Bool := self.test bits .audioVideoRatio
def hasVideoOffset : Bool := self.test bits .videoOffset
def hasTickDouble : Bool := self.test bits .tickDouble

def audioVideoRatio : F32 := self.audioFramesPerVideoFrame

/-- `valid |= bit` and `valid &= !bit`. -/
def mark (x : Section) : TransportPosition F32 F64 := { self with valid := self.valid ||| bits x }

def unmark (x : Section) : TransportPosition F32 F64 :=
  { self with valid := self.valid &&& ~~~bits x }

def setBbt (bbt : TransportBBT F32 F64) : TransportPosition F32 F64 :=
  { self.mark bits .bbt with
    bar := bbt.bar
    beat := bbt.beat
    tick := bbt.tick
    barStartTick := bbt.barStartTick
    beatsPerBar := bbt.beatsPerBar
    beatType := bbt.beatType
    ticksPerBeat := bbt.ticksPerBeat
    beatsPerMinute := bbt.beatsPerMinute }

def unsetBbt : TransportPosition F32 F64 := self.unmark bits .bbt

def setTimecode (timecode : TransportTimecode F64) : TransportPosition F32 F64 :=
  { self.mark bits .timecode with
    frameTime := timecode.frameTime
    nextTime := timecode.nextTime }

def unsetTimecode : TransportPosition F32 F64 := self.unmark bits .timecode

def setBbtOffset (bbtOffset : UInt32) : TransportPosition F32 F64 :=
  { self.mark bits .bbtOffset with bbtOffset }

def unsetBbtOffset : TransportPosition F32 F64 := self.unmark bits .bbtOffset

def setAudioVideoRatio (audioVideoRatio : F32) : TransportPosition F32 F64 :=
  { self.mark bits .audioVideoRatio with audioFramesPerVideoFrame := audioVideoRatio }

def unsetAudioVideoRatio : TransportPosition F32 F64 := self.unmark bits .audioVideoRatio

def setVideoOffset (videoOffset : UInt32) : TransportPosition F32 F64 :=
  { self.mark bits .videoOffset with videoOffset }

def unsetVideoOffset : TransportPosition F32 F64 := self.unmark bits .videoOffset

def setTickDouble (tickDouble : F64) : TransportPosition F32 F64 :=
  { self.mark bits .tickDouble with tickDouble }

def unsetTickDouble : TransportPosition F32 F64 := self.unmark bits .tickDouble

end TransportPosition

/-- `Transport::reposition`: the result, and the positions that libjack was given. -/
def reposition (bits : Bits) (jackTransportReposition : TransportPosition F32 F64 → Int)
    (pos : TransportPosition F32 F64) : Except Error Unit × List (TransportPosition F32 F64) :=
  if pos.valid &&& ~~~(bits .bbt ||| bits .timecode) ≠ 0 then (.error .invalidOption, [])
  else (checkRet (jackTransportReposition pos), [pos])

section Operations

/-- What the setter of a section takes and its getters return. -/
abbrev Value (F32 F64 : Type) : Section → Type
  | .bbt => TransportBBT F32 F64
  | .timecode => TransportTimecode F64
  | .bbtOffset => UInt32
  | .audioVideoRatio => F32
  | .videoOffset => UInt32
  | .tickDouble => F64

abbrev Operation (F32 F64 : Type) := Op Section (Value F32 F64)

def apply (bits : Bits) (p : TransportPosition F32 F64) :
    Operation F32 F64 → TransportPosition F32 F64
  | .set .bbt v => p.setBbt bits v
  | .set .timecode v => p.setTimecode bits v
  | .set .bbtOffset v => p.setBbtOffset bits v
  | .set .audioVideoRatio v => p.setAudioVideoRatio bits v
  | .set .videoOffset v => p.setVideoOffset bits v
  | .set .tickDouble v => p.setTickDouble bits v
  | .unset .bbt => p.unsetBbt bits
  | .unset .timecode => p.unsetTimecode bits
  | .unset .bbtOffset => p.unsetBbtOffset bits
  | .unset .audioVideoRatio => p.unsetAudioVideoRatio bits
  | .unset .videoOffset => p.unsetVideoOffset bits
  | .unset .tickDouble => p.unsetTickDouble bits

def applyAll (bits : Bits) (ops : List (Operation F32 F64)) (p : TransportPosition F32 F64) :
    TransportPosition F32 F64 :=
  ops.foldl (apply bits) p

def has (bits : Bits) (p : TransportPosition F32 F64) : Section → Bool
  | .bbt => p.hasBbt bits
  | .timecode => p.hasTimecode bits
  | .bbtOffset => p.hasBbtOffset bits
  | .audioVideoRatio => p.hasAudioVideoRatio bits
  | .videoOffset => p.hasVideoOffset bits
  | .tickDouble => p.hasTickDouble bits

/-- What the getters of a section return. -/
def get (p : TransportPosition F32 F64) : (x : Section) → Value F32 F64 x
  | .bbt => ⟨p.bar, p.beat, p.tick, p.barStartTick, p.beatsPerBar, p.beatType, p.ticksPerBeat,
      p.beatsPerMinute⟩
  | .timecode => ⟨p.frameTime, p.nextTime⟩
  | .bbtOffset => p.bbtOffset
  | .audioVideoRatio => p.audioVideoRatio
  | .videoOffset => p.videoOffset
  | .tickDouble => p.tickDouble

/-- A position seen as one register for each section. -/
def registers (bits : Bits) (p : TransportPosition F32 F64) :
    (x : Section) → Register (Value F32 F64 x) :=
  fun x => ⟨has bits p x, get p x⟩

def Bits.all (bits : Bits) : UInt32 :=
  bits .bbt ||| bits .timecode ||| bits .bbtOffset ||| bits .audioVideoRatio |||
    bits .videoOffset ||| bits .tickDouble

/-- The bits of `valid` that belong to no section. -/
def unknownBits (bits : Bits) (p : TransportPosition F32 F64) : UInt32 := p.valid &&& ~~~bits.all

end Operations

section Masks

/-- Bit `i` of a mask. -/
def bit (w : UInt32) (i : ℕ) : Bool := w.toBitVec.getLsbD i

variable {v a b : UInt32} {i : ℕ}

@[simp] theorem bit_zero : bit 0 i = false := by simp [bit]
@[simp] theorem bit_and : bit (a &&& b) i = (bit a i && bit b i) := by simp [bit]
@[simp] theorem bit_or : bit (a ||| b) i = (bit a i || bit b i) := by simp [bit]
theorem bit_not (hi : i < 32) : bit (~~~a) i = !bit a i := by simp [bit, hi]

/-- Masks that agree in every bit are equal. -/
theorem mask_ext (h : ∀ i, i < 32 → bit a i = bit b i) : a = b :=
  UInt32.toBitVec_inj.mp (BitVec.eq_of_getLsbD_eq h)

/-- Masks are disjoint when no bit is in both. -/
theorem and_eq_zero_iff :
    a &&& b = 0 ↔ ∀ i, i < 32 → bit a i = true → bit b i = false := by
  constructor
  · intro h i _ ha
    have hbit : bit (a &&& b) i = false := by rw [h, bit_zero]
    simpa [ha] using hbit
  · intro h
    apply mask_ext
    intro i hi
    rw [bit_and, bit_zero]
    cases ha : bit a i with
    | false => rfl
    | true => exact h i hi ha

/-- A mask without the bits of another is empty when it is a part of it. -/
theorem and_not_eq_zero_iff :
    a &&& ~~~b = 0 ↔ ∀ i, i < 32 → bit a i = true → bit b i = true := by
  rw [and_eq_zero_iff]
  constructor
  · intro h i hi ha
    have hnot := h i hi ha
    rwa [bit_not hi, Bool.not_eq_false'] at hnot
  · intro h i hi ha
    rw [bit_not hi, h i hi ha]
    rfl

theorem bit_of_and_eq_zero (h : a &&& b = 0) (i : ℕ) : (bit a i && bit b i) = false := by
  rw [← bit_and, h, bit_zero]

theorem or_and_self_ne_zero (hb : b ≠ 0) : (v ||| b) &&& b ≠ 0 := by
  intro h
  rw [and_eq_zero_iff] at h
  apply hb
  apply mask_ext
  intro i hi
  rw [bit_zero]
  by_contra hbit
  rw [Bool.not_eq_false] at hbit
  rw [h i hi (by simp [hbit])] at hbit
  cases hbit

theorem or_and_of_disjoint (h : a &&& b = 0) : (v ||| a) &&& b = v &&& b := by
  apply mask_ext
  intro i hi
  rw [bit_and, bit_or, bit_and, Bool.and_or_distrib_right, bit_of_and_eq_zero h, Bool.or_false]

theorem and_not_and_self (v b : UInt32) : (v &&& ~~~b) &&& b = 0 := by
  apply mask_ext
  intro i hi
  simp [bit_not hi, Bool.and_assoc]

theorem and_not_and_of_disjoint (h : a &&& b = 0) : (v &&& ~~~a) &&& b = v &&& b := by
  apply mask_ext
  intro i hi
  have hbit := bit_of_and_eq_zero h i
  simp only [bit_and, bit_not hi]
  cases hb : bit b i with
  | false => simp
  | true =>
    have ha : bit a i = false := by simpa [hb] using hbit
    simp [ha]

theorem or_or_comm (v a b : UInt32) : v ||| a ||| b = v ||| b ||| a := by
  rw [UInt32.or_assoc, UInt32.or_comm a, ← UInt32.or_assoc]

theorem and_and_comm (v a b : UInt32) : v &&& a &&& b = v &&& b &&& a := by
  rw [UInt32.and_assoc, UInt32.and_comm a, ← UInt32.and_assoc]

theorem or_and_not_comm (h : a &&& b = 0) : (v ||| a) &&& ~~~b = v &&& ~~~b ||| a := by
  apply mask_ext
  intro i hi
  have hbit := bit_of_and_eq_zero h i
  simp only [bit_and, bit_or, bit_not hi]
  cases ha : bit a i with
  | false => simp
  | true =>
    have hb : bit b i = false := by simpa [ha] using hbit
    simp [hb]

/-- A bit that belongs to a section belongs to one of the six. -/
theorem Bits.bit_all (bits : Bits) (i : ℕ) : bit bits.all i = true ↔ ∃ x, bit (bits x) i = true := by
  simp only [Bits.all, bit_or, Bool.or_eq_true]
  constructor
  · rintro (((((h | h) | h) | h) | h) | h)
    · exact ⟨.bbt, h⟩
    · exact ⟨.timecode, h⟩
    · exact ⟨.bbtOffset, h⟩
    · exact ⟨.audioVideoRatio, h⟩
    · exact ⟨.videoOffset, h⟩
    · exact ⟨.tickDouble, h⟩
  · rintro ⟨x, hx⟩
    cases x <;> simp [hx]

/-- A section's bit is among all of them. -/
theorem Bits.and_not_all (bits : Bits) (x : Section) : bits x &&& ~~~bits.all = 0 := by
  rw [and_not_eq_zero_iff]
  intro i _ hx
  exact (bits.bit_all i).mpr ⟨x, hx⟩

end Masks

section Registers

variable {bits : Bits}

theorem has_eq_test (p : TransportPosition F32 F64) (x : Section) : has bits p x = p.test bits x := by
  cases x <;> rfl

theorem valid_apply (p : TransportPosition F32 F64) (op : Operation F32 F64) :
    (apply bits p op).valid =
      if op.isSet then p.valid ||| bits op.key else p.valid &&& ~~~bits op.key := by
  cases op with
  | set x v => cases x <;> rfl
  | unset x => cases x <;> rfl

theorem get_apply (p : TransportPosition F32 F64) (op : Operation F32 F64) (y : Section) :
    get (apply bits p op) y = (op.valueAt y).getD (get p y) := by
  cases op with
  | set x v => cases x <;> cases y <;> rfl
  | unset x => cases x <;> cases y <;> rfl

theorem has_apply (hbits : bits.Separate) (p : TransportPosition F32 F64)
    (op : Operation F32 F64) (y : Section) :
    has bits (apply bits p op) y = if op.key = y then op.isSet else has bits p y := by
  rw [has_eq_test, has_eq_test, TransportPosition.test, TransportPosition.test, valid_apply]
  by_cases hy : op.key = y
  · subst hy
    cases hset : op.isSet with
    | true => simp [or_and_self_ne_zero (hbits.ne_zero op.key)]
    | false => simp [and_not_and_self]
  · have hdisjoint := hbits.disjoint op.key y hy
    cases hset : op.isSet with
    | true => simp [hy, or_and_of_disjoint hdisjoint]
    | false => simp [hy, and_not_and_of_disjoint hdisjoint]

/-- An operation of the position is the operation of the register bank. -/
theorem registers_apply (hbits : bits.Separate) (p : TransportPosition F32 F64)
    (op : Operation F32 F64) :
    registers bits (apply bits p op) = op.apply (registers bits p) := by
  funext y
  apply Register.ext
  · rw [apply_present]
    exact has_apply hbits p op y
  · rw [apply_value]
    exact get_apply p op y

theorem registers_applyAll (hbits : bits.Separate) (ops : List (Operation F32 F64))
    (p : TransportPosition F32 F64) :
    registers bits (applyAll bits ops p) = Registers.applyAll ops (registers bits p) := by
  induction ops generalizing p with
  | nil => rfl
  | cons op ops ih =>
    have h := ih (apply bits p op)
    rw [registers_apply hbits] at h
    exact h

/-- What no operation touches: the time, the rate, the frame and the other bits. -/
structure SameFrame (bits : Bits) (p q : TransportPosition F32 F64) : Prop where
  usecs : q.usecs = p.usecs
  frameRate : q.frameRate = p.frameRate
  frame : q.frame = p.frame
  unknown : unknownBits bits q = unknownBits bits p

theorem SameFrame.trans {p q r : TransportPosition F32 F64} (h : SameFrame bits p q)
    (h' : SameFrame bits q r) : SameFrame bits p r :=
  ⟨h'.usecs.trans h.usecs, h'.frameRate.trans h.frameRate, h'.frame.trans h.frame,
    h'.unknown.trans h.unknown⟩

theorem unknownBits_apply (p : TransportPosition F32 F64) (op : Operation F32 F64) :
    unknownBits bits (apply bits p op) = unknownBits bits p := by
  have hdisjoint := bits.and_not_all op.key
  rw [unknownBits, unknownBits, valid_apply]
  cases hset : op.isSet with
  | true => exact or_and_of_disjoint hdisjoint
  | false => exact and_not_and_of_disjoint hdisjoint

theorem sameFrame_apply (p : TransportPosition F32 F64) (op : Operation F32 F64) :
    SameFrame bits p (apply bits p op) := by
  refine ⟨?_, ?_, ?_, unknownBits_apply p op⟩
  all_goals cases op with
    | set x v => cases x <;> rfl
    | unset x => cases x <;> rfl

theorem sameFrame_applyAll (ops : List (Operation F32 F64)) (p : TransportPosition F32 F64) :
    SameFrame bits p (applyAll bits ops p) := by
  induction ops generalizing p with
  | nil => exact ⟨rfl, rfl, rfl, rfl⟩
  | cons op ops ih => exact (sameFrame_apply p op).trans (ih (apply bits p op))

theorem position_ext {p q : TransportPosition F32 F64} (husecs : q.usecs = p.usecs)
    (hrate : q.frameRate = p.frameRate) (hframe : q.frame = p.frame) (hvalid : q.valid = p.valid)
    (hget : ∀ x, get q x = get p x) : q = p := by
  have hbbt := hget .bbt
  have htimecode := hget .timecode
  have hbbtOffset : q.bbtOffset = p.bbtOffset := hget .bbtOffset
  have hratio : q.audioFramesPerVideoFrame = p.audioFramesPerVideoFrame := hget .audioVideoRatio
  have hvideo : q.videoOffset = p.videoOffset := hget .videoOffset
  have htick : q.tickDouble = p.tickDouble := hget .tickDouble
  simp only [get, TransportBBT.mk.injEq] at hbbt
  simp only [get, TransportTimecode.mk.injEq] at htimecode
  cases p
  cases q
  simp_all

theorem valid_comm (hbits : bits.Separate) {a b : Operation F32 F64} (h : a.key ≠ b.key)
    (p : TransportPosition F32 F64) :
    (apply bits (apply bits p a) b).valid = (apply bits (apply bits p b) a).valid := by
  have hdisjoint := hbits.disjoint a.key b.key h
  have hdisjoint' := hbits.disjoint b.key a.key (Ne.symm h)
  rw [valid_apply, valid_apply, valid_apply, valid_apply]
  cases a.isSet with
  | true =>
    cases b.isSet with
    | true => exact or_or_comm _ _ _
    | false => exact or_and_not_comm hdisjoint
  | false =>
    cases b.isSet with
    | true => exact (or_and_not_comm hdisjoint').symm
    | false => exact and_and_comm _ _ _

/-- Operations on different sections may be exchanged. -/
theorem apply_comm (hbits : bits.Separate) {a b : Operation F32 F64} (h : a.key ≠ b.key)
    (p : TransportPosition F32 F64) :
    apply bits (apply bits p a) b = apply bits (apply bits p b) a := by
  have hsame : ∀ c d : Operation F32 F64, SameFrame bits p (apply bits (apply bits p c) d) := by
    intro c d
    exact (sameFrame_apply p c).trans (sameFrame_apply _ d)
  apply position_ext
  · exact (hsame a b).usecs.trans (hsame b a).usecs.symm
  · exact (hsame a b).frameRate.trans (hsame b a).frameRate.symm
  · exact (hsame a b).frame.trans (hsame b a).frame.symm
  · exact valid_comm hbits h p
  · intro x
    have hregisters : registers bits (apply bits (apply bits p a) b) x =
        registers bits (apply bits (apply bits p b) a) x := by
      rw [registers_apply hbits, registers_apply hbits, registers_apply hbits,
        registers_apply hbits, Registers.apply_comm _ (Ne.symm h)]
    exact congrArg Register.value hregisters

end Registers

section Reposition

variable {bits : Bits}

/-- Only the sections of `reposition` are set, and no bit outside the sections. -/
def OnlyBbtAndTimecode (bits : Bits) (p : TransportPosition F32 F64) : Prop :=
  (∀ x, x ≠ .bbt → x ≠ .timecode → has bits p x = false) ∧ unknownBits bits p = 0

theorem has_eq_false_iff {p : TransportPosition F32 F64} {x : Section} :
    has bits p x = false ↔ ∀ i, i < 32 → bit p.valid i = true → bit (bits x) i = false := by
  rw [has_eq_test, TransportPosition.test, bne_eq_false_iff_eq, and_eq_zero_iff]

theorem unknownBits_eq_zero_iff {p : TransportPosition F32 F64} :
    unknownBits bits p = 0 ↔ ∀ i, i < 32 → bit p.valid i = true → ∃ x, bit (bits x) i = true := by
  simp only [unknownBits, and_not_eq_zero_iff, bits.bit_all]

theorem mask_eq_zero_iff (hbits : bits.Separate) (p : TransportPosition F32 F64) :
    p.valid &&& ~~~(bits .bbt ||| bits .timecode) = 0 ↔ OnlyBbtAndTimecode bits p := by
  simp only [and_not_eq_zero_iff, OnlyBbtAndTimecode, has_eq_false_iff, unknownBits_eq_zero_iff,
    bit_or, Bool.or_eq_true]
  constructor
  · intro h
    constructor
    · intro x hbbt htimecode i hi hbit
      -- The bit is in one of the two sections, and the section `x` is neither.
      rcases h i hi hbit with hb | ht
      · exact and_eq_zero_iff.mp (hbits.disjoint .bbt x (Ne.symm hbbt)) i hi hb
      · exact and_eq_zero_iff.mp (hbits.disjoint .timecode x (Ne.symm htimecode)) i hi ht
    · intro i hi hbit
      rcases h i hi hbit with hb | ht
      · exact ⟨.bbt, hb⟩
      · exact ⟨.timecode, ht⟩
  · rintro ⟨hsections, hunknown⟩ i hi hbit
    obtain ⟨x, hx⟩ := hunknown i hi hbit
    by_cases hbbt : x = .bbt
    · left
      rwa [hbbt] at hx
    · by_cases htimecode : x = .timecode
      · right
        rwa [htimecode] at hx
      · rw [hsections x hbbt htimecode i hi hbit] at hx
        cases hx

theorem reposition_forwards (hbits : bits.Separate) (lib : TransportPosition F32 F64 → Int)
    {p : TransportPosition F32 F64} (h : OnlyBbtAndTimecode bits p) :
    reposition bits lib p = (checkRet (lib p), [p]) := by
  rw [reposition, if_neg]
  rw [not_not]
  exact (mask_eq_zero_iff hbits p).mpr h

theorem reposition_refuses (hbits : bits.Separate) (lib : TransportPosition F32 F64 → Int)
    {p : TransportPosition F32 F64} (h : ¬ OnlyBbtAndTimecode bits p) :
    reposition bits lib p = (.error .invalidOption, []) := by
  rw [reposition, if_pos]
  intro hz
  exact h ((mask_eq_zero_iff hbits p).mp hz)

end Reposition

section Independence

variable {bits : Bits}

/-- What a sequence of operations on a position comes to, and what `reposition` makes of a
position. -/
structure SectionsIndependent (bits : Bits) (lib : TransportPosition F32 F64 → Int)
    (p : TransportPosition F32 F64) (ops : List (Operation F32 F64)) : Prop where
  has : ∀ x, has bits (applyAll bits ops p) x = lastPresent x ops (has bits p x)
  get : ∀ x, get (applyAll bits ops p) x = lastValue x ops (get p x)
  frame : SameFrame bits p (applyAll bits ops p)
  comm : ∀ a b : Operation F32 F64, a.key ≠ b.key →
    apply bits (apply bits p a) b = apply bits (apply bits p b) a
  forwarded : (reposition bits lib p).2 = [p] ↔ OnlyBbtAndTimecode bits p
  answered : OnlyBbtAndTimecode bits p → (reposition bits lib p).1 = checkRet (lib p)
  refused : ¬ OnlyBbtAndTimecode bits p → reposition bits lib p = (.error .invalidOption, [])

/-- The sections of a position are written independently of each other, and `reposition`
forwards exactly what libjack can use. -/
theorem position_sections_independent (hbits : bits.Separate)
    (lib : TransportPosition F32 F64 → Int) (p : TransportPosition F32 F64)
    (ops : List (Operation F32 F64)) : SectionsIndependent bits lib p ops := by
  have hregisters := registers_applyAll hbits ops p
  constructor
  · intro x
    exact (congrArg Register.present (congrFun hregisters x)).trans
      (applyAll_present (registers bits p) ops x)
  · intro x
    exact (congrArg Register.value (congrFun hregisters x)).trans
      (applyAll_value (registers bits p) ops x)
  · exact sameFrame_applyAll ops p
  · intro a b h
    exact apply_comm hbits h p
  · constructor
    · intro h
      by_contra hno
      rw [reposition_refuses hbits lib hno] at h
      cases h
    · intro h
      rw [reposition_forwards hbits lib h]
  · intro h
    rw [reposition_forwards hbits lib h]
  · exact reposition_refuses hbits lib

/-- A zeroed position, with the floating point numbers as bit patterns. -/
def zeroed : TransportPosition UInt32 UInt64 :=
  ⟨0, 0, 0, 0, 0, 0, 0, 0, 0, 0, 0, 0, 0, 0, 0, 0, 0, 0⟩

theorem position_sections_independent_header :
    Bits.Separate header ∧ SectionsIndependent header (fun _ => 0) zeroed
      [.set .bbtOffset 5, .set .timecode ⟨1, 2⟩, .unset .bbtOffset] :=
  ⟨separate_header, position_sections_independent separate_header _ _ _⟩

/-- An offset that was unset keeps its value and loses its bit. -/
example : has header (applyAll header [.set .bbtOffset 5, .unset .bbtOffset] zeroed) .bbtOffset =
    false ∧ get (applyAll header [.set .bbtOffset 5, .unset .bbtOffset] zeroed) .bbtOffset = 5 := by
  decide

end Independence

end Jack2.Transport
