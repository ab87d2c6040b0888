import Jack2.Libjack
import Jack2.PortFlags
import Jack2.Uuid
import Mathlib.Data.List.Basic

/-!
# MIDI buffers on the process thread

`MidiInput`, its iterator and `MidiWriter`, over any memory in which libjack keeps the
buffers of its ports. An address stands for a place in that memory.
-/
namespace Jack2.Midi

abbrev Addr := ℕ

/-- The bytes of an event are those that its pointer points to. -/
structure MidiEvent where
  time : UInt32
  data : List UInt8
  deriving DecidableEq, Repr

/-- The memory of the process: the word it has at an address, and what the functions of
libjack do to it. -/
structure Machine (σ : Type*) where
  load : σ → Addr → Addr
  portGetBuffer : σ → JackPort → UInt32 → Addr × σ
  midiGetEventCount : σ → Addr → UInt32
  midiEventGet : σ → Addr → UInt32 → Int × MidiEvent
  midiClearBuffer : σ → Addr → σ
  midiEventWrite : σ → Addr → UInt32 → List UInt8 → Int × σ
  midiMaxEventSize : σ → Addr → ℕ
  midiGetLostEventCount : σ → Addr → UInt32

variable {σ : Type*} (machine : Machine σ) (memory : σ)

structure MidiInput where
  portBuffer : Addr
  deriving DecidableEq, Repr

structure MidiInputIter where
  portBuffer : Addr
  index : UInt32
  len : UInt32
  deriving DecidableEq, Repr

namespace MidiInput

def len (self : MidiInput) : UInt32 := machine.midiGetEventCount memory self.portBuffer

/-- The error is the number of an operating system error. -/
def bufferGet (portBuffer : Addr) (eventIndex : UInt32) : Except Int MidiEvent :=
  match machine.midiEventGet memory portBuffer eventIndex with
  | (ret, event) => if ret < 0 then .error (-ret) else .ok event

def iter (self : MidiInput) : MidiInputIter := ⟨self.portBuffer, 0, self.len machine memory⟩

def intoIter (self : MidiInput) : MidiInputIter := ⟨self.portBuffer, 0, self.len machine memory⟩

end MidiInput

namespace MidiInputIter

def next (self : MidiInputIter) : Option MidiEvent × MidiInputIter :=
  if self.index ≥ self.len then (none, self)
  else
    match MidiInput.bufferGet machine memory self.portBuffer self.index with
    | .error _ => (none, self)
    | .ok event => (some event, { self with index := self.index + 1 })

/-- An underflow of the subtraction panics in a build that checks for it. -/
def sizeHint (self : MidiInputIter) : Outcome ℕ :=
  if self.len < self.index then .panic else .done (self.len - self.index).toNat

def nextBack (self : MidiInputIter) : Option MidiEvent × MidiInputIter :=
  if self.len = 0 then (none, self)
  else
    match MidiInput.bufferGet machine memory self.portBuffer (self.len - 1) with
    | .error _ => (none, self)
    | .ok event => (some event, { self with len := self.len - 1 })

end MidiInputIter

section Cursors

theorem toNat_add_one {i n : UInt32} (h : i < n) : (i + 1).toNat = i.toNat + 1 := by
  have hlt := UInt32.lt_iff_toNat_lt.mp h
  have hsize := n.toNat_lt
  rw [UInt32.toNat_add, UInt32.toNat_one]
  omega

theorem toNat_sub_one {n : UInt32} (h : n ≠ 0) : (n - 1).toNat = n.toNat - 1 := by
  have hpos : 0 < n.toNat := by
    apply Nat.pos_of_ne_zero
    intro hzero
    exact h (UInt32.toNat_inj.mp hzero)
  exact UInt32.toNat_sub_of_le _ _ (UInt32.le_iff_toNat_le.mpr hpos)

end Cursors

/-- The buffer has these events, and each of them can be got. -/
structure Holds (buffer : Addr) (events : List MidiEvent) : Prop where
  count : (machine.midiGetEventCount memory buffer).toNat = events.length
  get : ∀ i : UInt32, ∀ h : i.toNat < events.length,
    ∃ ret, 0 ≤ ret ∧ machine.midiEventGet memory buffer i = (ret, events[i.toNat])

section Events

variable {machine memory} {buffer : Addr} {events : List MidiEvent}

theorem Holds.bufferGet (h : Holds machine memory buffer events) {i : UInt32}
    (hi : i.toNat < events.length) :
    MidiInput.bufferGet machine memory buffer i = .ok events[i.toNat] := by
  obtain ⟨ret, hret, hget⟩ := h.get i hi
  simp only [MidiInput.bufferGet, hget]
  exact if_neg (Int.not_lt.mpr hret)

theorem next_of_le {it : MidiInputIter} (h : it.len ≤ it.index) :
    it.next machine memory = (none, it) := if_pos h

theorem next_of_lt (h : Holds machine memory buffer events) {index len : UInt32}
    (hlt : index < len) (hi : index.toNat < events.length) :
    MidiInputIter.next machine memory ⟨buffer, index, len⟩ =
      (some events[index.toNat], ⟨buffer, index + 1, len⟩) := by
  simp only [MidiInputIter.next, h.bufferGet hi]
  exact if_neg (UInt32.not_le.mpr hlt)

theorem nextBack_zero (index : UInt32) :
    MidiInputIter.nextBack machine memory ⟨buffer, index, 0⟩ = (none, ⟨buffer, index, 0⟩) := if_pos rfl

theorem nextBack_of_ne (h : Holds machine memory buffer events) {index len : UInt32}
    (hne : len ≠ 0) (hi : (len - 1).toNat < events.length) :
    MidiInputIter.nextBack machine memory ⟨buffer, index, len⟩ =
      (some events[(len - 1).toNat], ⟨buffer, index, len - 1⟩) := by
  simp only [MidiInputIter.nextBack, h.bufferGet hi]
  exact if_neg hne

theorem next_some {it it' : MidiInputIter} {event : MidiEvent}
    (h : it.next machine memory = (some event, it')) :
    it.index < it.len ∧ it' = { it with index := it.index + 1 } := by
  unfold MidiInputIter.next at h
  split at h
  · cases h
  · rename_i hlt
    split at h <;> cases h
    exact ⟨UInt32.not_le.mp hlt, rfl⟩

end Events

namespace MidiInputIter

/-- The events that `next` returns until it returns none. -/
def toList (self : MidiInputIter) : List MidiEvent :=
  match _h : self.next machine memory with
  | (none, _) => []
  | (some event, it) => event :: toList it
termination_by self.len.toNat - self.index.toNat
decreasing_by
  obtain ⟨hlt, rfl⟩ := next_some _h
  have hindex := toNat_add_one hlt
  have hnat := UInt32.lt_iff_toNat_lt.mp hlt
  simp only [hindex]
  omega

end MidiInputIter

section Events

variable {machine memory} {buffer : Addr} {events : List MidiEvent}

theorem toList_drop (h : Holds machine memory buffer events) (index : UInt32) {len : UInt32}
    (hlen : len.toNat = events.length) :
    MidiInputIter.toList machine memory ⟨buffer, index, len⟩ = events.drop index.toNat := by
  induction hn : len.toNat - index.toNat generalizing index with
  | zero =>
    have hle : len ≤ index := UInt32.le_iff_toNat_le.mpr (by omega)
    have hnext : MidiInputIter.next machine memory ⟨buffer, index, len⟩ = (none, ⟨buffer, index, len⟩) :=
      next_of_le hle
    rw [MidiInputIter.toList, hnext, List.drop_of_length_le (by omega)]
  | succ n ih =>
    have hlt : index < len := UInt32.lt_iff_toNat_lt.mpr (by omega)
    have hi : index.toNat < events.length := by omega
    have hrest := ih (index + 1) (by rw [toNat_add_one hlt]; omega)
    rw [MidiInputIter.toList, next_of_lt h hlt hi, List.drop_eq_getElem_cons hi,
      ← toNat_add_one hlt, ← hrest]

/-- Reading a buffer from the front gives its events. -/
theorem toList_iter (h : Holds machine memory buffer events) :
    ((MidiInput.mk buffer).iter machine memory).toList machine memory = events :=
  toList_drop h 0 h.count

end Events

end Jack2.Midi
