import Mathlib.Algebra.Group.Nat.Defs
import Jack2.Midi
import Jack2.Run

/-!
# Writing MIDI events

`ProcessPort::midi_out_buffer` and the calls on the `MidiWriter` it returns, in one cycle.
The `RefMut` is mapped to the pointer itself: the buffer's address becomes the address of a
`MidiWriter`, and the `port_buffer` of that writer is whatever word is stored there.
-/
namespace Jack2.Midi

open Jack2.Run

/-- `buffer_lock` is locked while a `RefMut` of an earlier call lives. -/
structure ProcessPort where
  port : JackPort
  flags : PortFlags
  portType : PortType
  locked : Bool
  deriving DecidableEq, Repr

structure MidiWriter where
  portBuffer : Addr
  deriving DecidableEq, Repr

/-- `RefMut<MidiWriter>`, by the address it refers to. -/
structure MidiWriterRef where
  addr : Addr
  deriving DecidableEq, Repr

section Calls

variable {σ : Type*} (machine : Machine σ)

/-- `RefMut::map(refmut, |_| transmute(port_buffer))` of the buffer just cleared. -/
def midiOutBuffer (sys : JackPortFlags) (self : ProcessPort) (nframes : UInt32) (memory : σ) :
    Outcome (MidiWriterRef × σ) :=
  if self.flags.isOutput sys && self.portType == .midi then
    if self.locked then .panic
    else
      let buffer := machine.portGetBuffer memory self.port nframes
      .done (⟨buffer.1⟩, machine.midiClearBuffer buffer.2 buffer.1)
  else .panic

/-- A transparent struct of one pointer is read as one word. -/
def MidiWriterRef.deref (memory : σ) (self : MidiWriterRef) : MidiWriter :=
  ⟨machine.load memory self.addr⟩

namespace MidiWriter

def maxEventSize (memory : σ) (self : MidiWriter) : ℕ :=
  machine.midiMaxEventSize memory self.portBuffer

def lostEventCount (memory : σ) (self : MidiWriter) : UInt32 :=
  machine.midiGetLostEventCount memory self.portBuffer

def write (memory : σ) (self : MidiWriter) (time : UInt32) (event : MidiEvent) :
    Except Int Unit × σ :=
  match machine.midiEventWrite memory self.portBuffer time event.data with
  | (ret, memory) => if ret < 0 then (.error (-ret), memory) else (.ok (), memory)

end MidiWriter

end Calls

inductive WriterCall where
  | write (time : UInt32) (event : MidiEvent)
  | maxEventSize
  | lostEventCount
  deriving DecidableEq, Repr

structure Writing (σ : Type*) where
  memory : σ
  writer : MidiWriterRef
  /-- The pointers that the calls have handed to libjack. -/
  handed : List Addr
  /-- The writes that returned `Ok`. -/
  written : List MidiEvent

section Steps

variable {σ : Type*} (machine : Machine σ)

def Writing.start (writer : MidiWriterRef) (memory : σ) : Writing σ := ⟨memory, writer, [], []⟩

/-- Every call goes through the reference, and looks up the writer again. -/
def writerStep (s : Writing σ) (call : WriterCall) : Option (Writing σ) :=
  let writer := s.writer.deref machine s.memory
  let handed := s.handed ++ [writer.portBuffer]
  match call with
  | .write time event =>
    match writer.write machine s.memory time event with
    | (.ok (), memory) =>
      some { s with memory, handed, written := s.written ++ [⟨time, event.data⟩] }
    | (.error _, memory) => some { s with memory, handed }
  | .maxEventSize | .lostEventCount => some { s with handed }

/-- What libjack promises of one buffer. -/
structure Buffer (buffer : Addr) : Prop where
  clear : ∀ memory, Holds machine (machine.midiClearBuffer memory buffer) buffer []
  write : ∀ memory events time data, Holds machine memory buffer events →
    ((machine.midiEventWrite memory buffer time data).1 = 0 ∧
      Holds machine (machine.midiEventWrite memory buffer time data).2 buffer
        (events ++ [⟨time, data⟩])) ∨
    ((machine.midiEventWrite memory buffer time data).1 < 0 ∧
      Holds machine (machine.midiEventWrite memory buffer time data).2 buffer events)

/-- Only the port's own buffer was handed to libjack, and it reads as what was written. -/
structure ReadsBack (buffer : Addr) (s : Writing σ) : Prop where
  handed : ∀ a ∈ s.handed, a = buffer
  reads : ((MidiInput.mk buffer).iter machine s.memory).toList machine s.memory = s.written

/-- The word at the address of the buffer is that address. -/
def PointsToItself (buffer : Addr) (s : Writing σ) (_ : WriterCall) : Prop :=
  machine.load s.memory buffer = buffer

/-- What a call keeps that finds the buffer through the reference. -/
structure Written (buffer : Addr) (s : Writing σ) : Prop where
  writer : s.writer = ⟨buffer⟩
  holds : Holds machine s.memory buffer s.written

end Steps

section Runs

variable {σ : Type*} {machine : Machine σ} {buffer : Addr}

theorem writerRun_total (s : Writing σ) (calls : List WriterCall) :
    ∃ t, run (writerStep machine) s calls = some t := by
  induction calls generalizing s with
  | nil => exact ⟨s, rfl⟩
  | cons call calls ih =>
    obtain ⟨u, hu⟩ : ∃ u, writerStep machine s call = some u := by
      cases call with
      | write time event =>
        simp only [writerStep]
        split <;> exact ⟨_, rfl⟩
      | maxEventSize => exact ⟨_, rfl⟩
      | lostEventCount => exact ⟨_, rfl⟩
    obtain ⟨t, ht⟩ := ih u
    exact ⟨t, by rw [run_cons, hu, Option.bind_some, ht]⟩

/-- Whatever a call does, it hands over the word that is stored where the reference points. -/
theorem writerStep_handed {s t : Writing σ} {call : WriterCall}
    (h : writerStep machine s call = some t) :
    t.writer = s.writer ∧ t.handed = s.handed ++ [machine.load s.memory s.writer.addr] := by
  cases call with
  | write time event =>
    simp only [writerStep] at h
    split at h <;> cases h <;> exact ⟨rfl, rfl⟩
  | maxEventSize => cases h; exact ⟨rfl, rfl⟩
  | lostEventCount => cases h; exact ⟨rfl, rfl⟩

theorem written_start (hbuffer : Buffer machine buffer) (memory : σ) :
    Written machine buffer (.start ⟨buffer⟩ (machine.midiClearBuffer memory buffer)) :=
  ⟨rfl, hbuffer.clear memory⟩

theorem written_step (hbuffer : Buffer machine buffer) {s t : Writing σ} {call : WriterCall}
    (h : Written machine buffer s) (hload : machine.load s.memory buffer = buffer)
    (hstep : writerStep machine s call = some t) : Written machine buffer t := by
  have hderef : s.writer.deref machine s.memory = ⟨buffer⟩ := by
    rw [h.writer, MidiWriterRef.deref, hload]
  cases call with
  | write time event =>
    simp only [writerStep, hderef, MidiWriter.write] at hstep
    rcases hbuffer.write s.memory s.written time event.data h.holds with
      ⟨hret, hholds⟩ | ⟨hret, hholds⟩
    · simp only [hret, Int.lt_irrefl, if_false] at hstep
      cases hstep
      exact ⟨h.writer, hholds⟩
    · simp only [if_pos hret] at hstep
      cases hstep
      exact ⟨h.writer, hholds⟩
  | maxEventSize => cases hstep; exact ⟨h.writer, h.holds⟩
  | lostEventCount => cases hstep; exact ⟨h.writer, h.holds⟩

theorem readsBack_step (hbuffer : Buffer machine buffer) {s t : Writing σ} {call : WriterCall}
    (h : Written machine buffer s) (hs : ReadsBack machine buffer s)
    (hstep : writerStep machine s call = some t) :
    ReadsBack machine buffer t ↔ PointsToItself machine buffer s call := by
  obtain ⟨_, hhanded⟩ := writerStep_handed hstep
  rw [h.writer] at hhanded
  constructor
  · intro ht
    exact ht.handed _ (by rw [hhanded]; exact List.mem_concat_self)
  · intro hload
    have ht := written_step hbuffer h hload hstep
    refine ⟨?_, toList_iter ht.holds⟩
    intro a ha
    rw [hhanded] at ha
    rcases List.mem_append.mp ha with ha | ha
    · exact hs.handed a ha
    · rw [List.mem_singleton.mp ha]
      exact hload

end Runs

theorem midiOutBuffer_done {σ : Type*} {machine : Machine σ} {sys : JackPortFlags}
    {port : ProcessPort} {nframes : UInt32} {memory cleared : σ} {writer : MidiWriterRef}
    (h : midiOutBuffer machine sys port nframes memory = .done (writer, cleared)) :
    writer = ⟨(machine.portGetBuffer memory port.port nframes).1⟩ ∧
      cleared = machine.midiClearBuffer (machine.portGetBuffer memory port.port nframes).2
        (machine.portGetBuffer memory port.port nframes).1 := by
  unfold midiOutBuffer at h
  split at h
  · split at h
    · cases h
    · cases h
      exact ⟨rfl, rfl⟩
  · cases h

/-- On the writer of any MIDI output port, every call of a cycle gets the port's own buffer,
and the buffer then reads as the writes that returned `Ok`, exactly as long as each call
finds at the buffer's address the word that is this address. -/
theorem midi_output_iff {σ : Type*} {machine : Machine σ} {sys : JackPortFlags}
    {port : ProcessPort} {nframes : UInt32} {memory cleared : σ} {writer : MidiWriterRef}
    (hout : midiOutBuffer machine sys port nframes memory = .done (writer, cleared))
    (hbuffer : Buffer machine (machine.portGetBuffer memory port.port nframes).1)
    (calls : List WriterCall) :
    Throughout (ReadsBack machine (machine.portGetBuffer memory port.port nframes).1)
        (writerStep machine) (.start writer cleared) calls ↔
      Along (PointsToItself machine (machine.portGetBuffer memory port.port nframes).1)
        (writerStep machine) (.start writer cleared) calls := by
  obtain ⟨rfl, rfl⟩ := midiOutBuffer_done hout
  have hstart := written_start hbuffer (machine.portGetBuffer memory port.port nframes).2
  obtain ⟨t, hrun⟩ := writerRun_total _ calls
  refine throughout_iff_along_of_kept (fun s call t h _ hload => written_step hbuffer h hload)
    (fun s call t h hs => readsBack_step hbuffer h hs) hrun hstart ?_
  exact ⟨by simp [Writing.start], toList_iter hstart.holds⟩

section Example

/-- One port with a buffer of two events at address 4096, which starts with a header. -/
def twoEvents (header : Addr) : Machine (List MidiEvent) where
  load _ _ := header
  portGetBuffer events _ _ := (4096, events)
  midiGetEventCount events _ := UInt32.ofNat events.length
  midiEventGet events _ i :=
    match events[i.toNat]? with
    | some event => (0, event)
    | none => (-61, ⟨0, []⟩)
  midiClearBuffer events a := if a = 4096 then [] else events
  midiEventWrite events a time data :=
    if a = 4096 ∧ events.length < 2 then (0, events ++ [⟨time, data⟩]) else (-105, events)
  midiMaxEventSize _ _ := 3
  midiGetLostEventCount _ _ := 0

theorem twoEvents_holds (header : Addr) {events : List MidiEvent} (h : events.length < 2 ^ 32) :
    Holds (twoEvents header) events 4096 events where
  count := UInt32.toNat_ofNat_of_lt' h
  get := by
    intro i hi
    refine ⟨0, Int.le_refl 0, ?_⟩
    simp only [twoEvents, List.getElem?_eq_getElem hi]

/-- Two short buffers that hold the same events are the same. -/
theorem twoEvents_memory {header : Addr} {memory events : List MidiEvent}
    (h : Holds (twoEvents header) memory 4096 events) (hlen : memory.length < 2 ^ 32) :
    memory = events := by
  have hcount : memory.length = events.length := (UInt32.toNat_ofNat_of_lt' hlen).symm.trans h.count
  apply List.ext_getElem hcount
  intro i hi hi'
  have hnat : (UInt32.ofNat i).toNat = i := UInt32.toNat_ofNat_of_lt' (Nat.lt_trans hi hlen)
  obtain ⟨ret, _, hget⟩ := h.get (.ofNat i) (by rw [hnat]; exact hi')
  simp only [twoEvents, hnat, List.getElem?_eq_getElem hi] at hget
  exact (Prod.mk.inj hget).2

theorem twoEvents_buffer (header : Addr) : Buffer (twoEvents header) 4096 where
  clear _ := twoEvents_holds header (Nat.two_pow_pos 32)
  write memory events time data h := by
    by_cases hroom : memory.length < 2
    · left
      have hlen : memory.length < 2 ^ 32 := by omega
      obtain rfl := twoEvents_memory h hlen
      simp only [twoEvents, hroom, and_self, if_true, true_and]
      apply twoEvents_holds
      rw [List.length_append, List.length_singleton]
      omega
    · right
      simp only [twoEvents, hroom, and_false, if_false]
      exact ⟨by decide, h⟩

def midiOut : ProcessPort := ⟨0, ⟨2⟩, .midi, false⟩

def notes : List WriterCall :=
  [.write 0 ⟨7, [144, 60, 100]⟩, .maxEventSize, .write 5 ⟨7, [128, 60, 0]⟩, .write 6 ⟨7, [0]⟩]

theorem midi_output_iff_notes :
    midiOutBuffer (twoEvents 4096) .header midiOut 64 [] = .done (⟨4096⟩, []) ∧
    (∃ t, run (writerStep (twoEvents 4096)) (.start ⟨4096⟩ []) notes = some t ∧
      t.written = [⟨0, [144, 60, 100]⟩, ⟨5, [128, 60, 0]⟩]) ∧
    (Throughout (ReadsBack (twoEvents 4096) 4096) (writerStep (twoEvents 4096))
        (.start ⟨4096⟩ []) notes ↔
      Along (PointsToItself (twoEvents 4096) 4096) (writerStep (twoEvents 4096))
        (.start ⟨4096⟩ []) notes) := by
  have hout : midiOutBuffer (twoEvents 4096) .header midiOut 64 [] = .done (⟨4096⟩, []) := rfl
  exact ⟨hout, ⟨_, rfl, rfl⟩, midi_output_iff hout (twoEvents_buffer 4096) notes⟩

/-- The first write after the buffer was cleared goes to the address that its header reads as. -/
theorem midi_output_header : ∃ t,
    run (writerStep (twoEvents 0)) (.start ⟨4096⟩ []) [.write 0 ⟨7, [144, 60, 100]⟩] = some t ∧
      midiOutBuffer (twoEvents 0) .header midiOut 64 [] = .done (⟨4096⟩, []) ∧
      t.handed = [0] ∧ ¬ ReadsBack (twoEvents 0) 4096 t := by
  refine ⟨_, rfl, rfl, rfl, ?_⟩
  intro h
  exact absurd (h.handed 0 (by decide)) (by decide)

end Example

end Jack2.Midi
