import Jack2.Midi
import Jack2.Run

/-!
# Iterating over a MIDI buffer from both ends

Sequences of `next`, `next_back` and `size_hint` on one `MidiInputIter`, with what the two
ends have returned so far.
-/
namespace Jack2.Midi

open Jack2.Run

inductive IterCall where
  | next
  | nextBack
  | sizeHint
  deriving DecidableEq, Repr

/-- The two ways to make the iterator. -/
inductive Making where
  | iter
  | intoIter
  deriving DecidableEq, Repr

structure Iteration where
  iter : MidiInputIter
  fronts : List MidiEvent
  backs : List MidiEvent
  /-- Of the last call that was not a `size_hint`: the number of events returned before it,
  and what it returned. -/
  last : Option (ℕ × Option MidiEvent)
  deriving DecidableEq

def Iteration.returned (s : Iteration) : ℕ := s.fronts.length + s.backs.length

section Steps

variable {σ : Type*} (machine : Machine σ) (memory : σ)

def Making.make : Making → MidiInput → MidiInputIter
  | .iter => MidiInput.iter machine memory
  | .intoIter => MidiInput.intoIter machine memory

def Iteration.start (making : Making) (buffer : Addr) : Iteration :=
  ⟨making.make machine memory ⟨buffer⟩, [], [], none⟩

def iterStep (s : Iteration) : IterCall → Option Iteration
  | .next =>
    let r := s.iter.next machine memory
    some { s with iter := r.2, fronts := s.fronts ++ r.1.toList, last := some (s.returned, r.1) }
  | .nextBack =>
    let r := s.iter.nextBack machine memory
    some { s with iter := r.2, backs := s.backs ++ r.1.toList, last := some (s.returned, r.1) }
  | .sizeHint => some s

theorem iterRun_total (s : Iteration) (calls : List IterCall) :
    ∃ t, run (iterStep machine memory) s calls = some t := by
  induction calls generalizing s with
  | nil => exact ⟨s, rfl⟩
  | cons call calls ih =>
    cases call with
    | next => exact ih _
    | nextBack => exact ih _
    | sizeHint => exact ih s

end Steps

/-- What was returned is a prefix and a suffix of the events that do not overlap, the last
call returned none exactly if all events had been returned, and the size is exact. -/
structure Exact (events : List MidiEvent) (s : Iteration) : Prop where
  split : ∃ mid, s.fronts ++ mid ++ s.backs.reverse = events
  ends : ∀ before result, s.last = some (before, result) →
    (result = none ↔ before = events.length)
  sizeHint : s.iter.sizeHint = .done (events.length - s.returned)

/-- Wherever the cursors are, each end has returned what is on its side of its own cursor. -/
structure Cursors (buffer : Addr) (events : List MidiEvent) (s : Iteration) : Prop where
  buffer : s.iter.portBuffer = buffer
  index : s.iter.index.toNat ≤ events.length
  len : s.iter.len.toNat ≤ events.length
  fronts : s.fronts = events.take s.iter.index.toNat
  backs : s.backs.reverse = events.drop s.iter.len.toNat

/-- `next_back` is not called once all events were returned, unless `next` returned none of
them. -/
def Within (events : List MidiEvent) (s : Iteration) : IterCall → Prop
  | .nextBack => s.returned = events.length → s.fronts = []
  | _ => True

section Cursors

variable {σ : Type*} {machine : Machine σ} {memory : σ} {buffer : Addr} {events : List MidiEvent}

theorem cursors_start (h : Holds machine memory buffer events) (making : Making) :
    Cursors buffer events (.start machine memory making buffer) := by
  cases making <;>
    exact ⟨rfl, Nat.zero_le _, Nat.le_of_eq h.count, rfl,
      (List.drop_of_length_le (Nat.le_of_eq h.count.symm)).symm⟩

theorem Cursors.returned {s : Iteration} (h : Cursors buffer events s) :
    s.returned = s.iter.index.toNat + (events.length - s.iter.len.toNat) := by
  have hbacks : s.backs.length = events.length - s.iter.len.toNat := by
    rw [← List.length_reverse, h.backs, List.length_drop]
  rw [Iteration.returned, hbacks, h.fronts, List.length_take, Nat.min_eq_left h.index]

theorem Cursors.fronts_nil {s : Iteration} (h : Cursors buffer events s) :
    s.fronts = [] ↔ s.iter.index.toNat = 0 := by
  have hlength : s.fronts.length = s.iter.index.toNat := by
    rw [h.fronts, List.length_take, Nat.min_eq_left h.index]
  rw [← hlength, List.length_eq_zero_iff]

/-- Everything a call can do whose cursors are inside of the buffer. -/
inductive IterStep (events : List MidiEvent) (s : Iteration) : IterCall → Iteration → Prop where
  | sizeHint : IterStep events s .sizeHint s
  | next (hlt : s.iter.index < s.iter.len) (hi : s.iter.index.toNat < events.length) :
      IterStep events s .next
        { s with
          iter := { s.iter with index := s.iter.index + 1 }
          fronts := s.fronts ++ [events[s.iter.index.toNat]]
          last := some (s.returned, some events[s.iter.index.toNat]) }
  | nextNone (hle : s.iter.len ≤ s.iter.index) :
      IterStep events s .next { s with last := some (s.returned, none) }
  | nextBack (hne : s.iter.len ≠ 0) (hi : (s.iter.len - 1).toNat < events.length) :
      IterStep events s .nextBack
        { s with
          iter := { s.iter with len := s.iter.len - 1 }
          backs := s.backs ++ [events[(s.iter.len - 1).toNat]]
          last := some (s.returned, some events[(s.iter.len - 1).toNat]) }
  | nextBackNone (hzero : s.iter.len = 0) :
      IterStep events s .nextBack { s with last := some (s.returned, none) }

theorem iterStep_cases (hb : Holds machine memory buffer events) {s t : Iteration} {call : IterCall}
    (h : Cursors buffer events s) (hstep : iterStep machine memory s call = some t) :
    IterStep events s call t := by
  obtain ⟨⟨port, index, len⟩, fronts, backs, last⟩ := s
  obtain rfl := h.buffer
  have hlen := h.len
  dsimp only at hlen hb
  cases call with
  | sizeHint => cases hstep; exact .sizeHint
  | next =>
    by_cases hlt : index < len
    · have hltNat := UInt32.lt_iff_toNat_lt.mp hlt
      have hi : index.toNat < events.length := by omega
      simp only [iterStep, next_of_lt hb hlt hi] at hstep
      cases hstep
      exact .next (s := ⟨⟨port, index, len⟩, fronts, backs, last⟩) hlt hi
    · have hle := UInt32.not_lt.mp hlt
      have hnext : MidiInputIter.next machine memory ⟨port, index, len⟩ = (none, ⟨port, index, len⟩) :=
        next_of_le hle
      simp only [iterStep, hnext, Option.toList_none, List.append_nil] at hstep
      cases hstep
      exact .nextNone hle
  | nextBack =>
    by_cases hzero : len = 0
    · subst hzero
      simp only [iterStep, nextBack_zero, Option.toList_none, List.append_nil] at hstep
      cases hstep
      exact .nextBackNone rfl
    · have hsub := toNat_sub_one hzero
      have hpos : len.toNat ≠ 0 := fun he => hzero (UInt32.toNat_inj.mp he)
      have hi : (len - 1).toNat < events.length := by omega
      simp only [iterStep, nextBack_of_ne hb hzero hi] at hstep
      cases hstep
      exact .nextBack (s := ⟨⟨port, index, len⟩, fronts, backs, last⟩) hzero hi

theorem cursors_step {s t : Iteration} {call : IterCall} (h : Cursors buffer events s)
    (hstep : IterStep events s call t) : Cursors buffer events t := by
  cases hstep with
  | sizeHint => exact h
  | next hlt hi =>
    refine ⟨h.buffer, ?_, h.len, ?_, h.backs⟩
    · rw [toNat_add_one hlt]
      exact hi
    · rw [toNat_add_one hlt, List.take_succ_eq_append_getElem hi, h.fronts]
  | nextNone hle => exact ⟨h.buffer, h.index, h.len, h.fronts, h.backs⟩
  | nextBack hne hi =>
    have hpos : s.iter.len.toNat ≠ 0 := fun he => hne (UInt32.toNat_inj.mp he)
    have hnext : (s.iter.len - 1).toNat + 1 = s.iter.len.toNat := by
      rw [toNat_sub_one hne]
      omega
    refine ⟨h.buffer, h.index, Nat.le_of_lt hi, h.fronts, ?_⟩
    rw [List.drop_eq_getElem_cons hi, hnext, ← h.backs]
    simp
  | nextBackNone hzero => exact ⟨h.buffer, h.index, h.len, h.fronts, h.backs⟩

/-- Beside what the last call returned, it is enough that the cursors have not crossed. -/
theorem exact_iff {s : Iteration} (h : Cursors buffer events s) :
    Exact events s ↔ s.iter.index ≤ s.iter.len ∧
      ∀ before result, s.last = some (before, result) → (result = none ↔ before = events.length) := by
  have hreturned := h.returned
  have hindex := h.index
  have hlen := h.len
  constructor
  · intro hs
    refine ⟨?_, hs.ends⟩
    obtain ⟨mid, hmid⟩ := hs.split
    have hlength := congrArg List.length hmid
    simp only [List.length_append, List.length_reverse] at hlength
    rw [Iteration.returned] at hreturned
    apply UInt32.le_iff_toNat_le.mpr
    omega
  · rintro ⟨hle, hends⟩
    have hnat := UInt32.le_iff_toNat_le.mp hle
    refine ⟨⟨(events.take s.iter.len.toNat).drop s.iter.index.toNat, ?_⟩, hends, ?_⟩
    · have hprefix : events.take s.iter.index.toNat =
          (events.take s.iter.len.toNat).take s.iter.index.toNat := by
        rw [List.take_take, Nat.min_eq_left hnat]
      rw [h.fronts, h.backs, hprefix, List.take_append_drop, List.take_append_drop]
    · have hsub := UInt32.toNat_sub_of_le _ _ hle
      simp only [MidiInputIter.sizeHint, if_neg (UInt32.not_lt.mpr hle), hsub, Outcome.done.injEq]
      omega

theorem ends_some {before n : ℕ} {event : MidiEvent} :
    (∀ b result, some (before, some event) = some (b, result) → (result = none ↔ b = n)) ↔
      before ≠ n := by
  constructor
  · intro h he
    exact Option.some_ne_none event ((h before (some event) rfl).mpr he)
  · rintro hne _ _ ⟨⟩
    simpa using hne

theorem ends_none {before n : ℕ} :
    (∀ b result, some (before, (none : Option MidiEvent)) = some (b, result) →
      (result = none ↔ b = n)) ↔ before = n := by
  constructor
  · intro h
    exact (h before none rfl).mp rfl
  · rintro he _ _ ⟨⟩
    exact iff_of_true rfl he

/-- Each call keeps the iterator exact, but for a `next_back` that finds the cursors
together where `next` has left them. -/
theorem exact_step {s t : Iteration} {call : IterCall} (h : Cursors buffer events s)
    (hs : Exact events s) (hstep : IterStep events s call t) :
    Exact events t ↔ Within events s call := by
  have hreturned := h.returned
  have hfronts := h.fronts_nil
  have hindex := h.index
  have hlen := h.len
  have hle := ((exact_iff h).mp hs).1
  have hnat := UInt32.le_iff_toNat_le.mp hle
  have ht := cursors_step h hstep
  rw [exact_iff ht]
  cases hstep with
  | sizeHint => simpa [Within] using (exact_iff h).mp hs
  | next hlt hi =>
    have hltNat := UInt32.lt_iff_toNat_lt.mp hlt
    simp only [Within, iff_true, UInt32.le_iff_toNat_le, toNat_add_one hlt]
    exact ⟨hltNat, ends_some.mpr (by omega)⟩
  | nextNone hge =>
    have hgeNat := UInt32.le_iff_toNat_le.mp hge
    simp only [Within, iff_true]
    exact ⟨hle, ends_none.mpr (by omega)⟩
  | nextBack hne hi =>
    have hpos : s.iter.len.toNat ≠ 0 := fun he => hne (UInt32.toNat_inj.mp he)
    rw [ends_some, UInt32.le_iff_toNat_le]
    simp only [Within, hfronts, toNat_sub_one hne]
    omega
  | nextBackNone hzero =>
    have hzeroNat : s.iter.len.toNat = 0 := congrArg UInt32.toNat hzero
    have hnone : s.iter.index.toNat = 0 := by omega
    simp only [Within, hfronts, hnone, implies_true, iff_true]
    exact ⟨hle, ends_none.mpr (by omega)⟩

end Cursors

/-- However the calls of `next`, `next_back` and `size_hint` are mixed, each event is visited
once, from both ends, exactly as long as `next_back` is not called after `next` has returned
the last event. -/
theorem midi_iteration_iff {σ : Type*} {machine : Machine σ} {memory : σ} {buffer : Addr}
    {events : List MidiEvent} (h : Holds machine memory buffer events) (making : Making)
    (calls : List IterCall) :
    Throughout (Exact events) (iterStep machine memory) (.start machine memory making buffer) calls ↔
      Along (Within events) (iterStep machine memory) (.start machine memory making buffer)
        calls := by
  obtain ⟨t, hrun⟩ := iterRun_total machine memory (.start machine memory making buffer) calls
  have hstart := cursors_start h making
  have hkeep : ∀ s call t, Cursors buffer events s → iterStep machine memory s call = some t →
      Cursors buffer events t := fun s call t hs hstep => cursors_step hs (iterStep_cases h hs hstep)
  have hstep : ∀ s call t, Cursors buffer events s → Exact events s →
      iterStep machine memory s call = some t → (Exact events t ↔ Within events s call) :=
    fun s call t hs he hstep => exact_step hs he (iterStep_cases h hs hstep)
  refine throughout_iff_along hkeep hstep hrun hstart ((exact_iff hstart).mpr ⟨?_, ?_⟩)
  · cases making <;> exact UInt32.le_iff_toNat_le.mpr (Nat.zero_le _)
  · cases making <;> rintro _ _ ⟨⟩

/-- A buffer with these events, wherever it is looked for. -/
def buffered (events : List MidiEvent) : Machine Unit where
  load _ a := a
  portGetBuffer _ _ _ := (8, ())
  midiGetEventCount _ _ := .ofNat events.length
  midiEventGet _ _ i :=
    match events[i.toNat]? with
    | some event => (0, event)
    | none => (-61, ⟨0, []⟩)
  midiClearBuffer _ _ := ()
  midiEventWrite _ _ _ _ := (-28, ())
  midiMaxEventSize _ _ := 0
  midiGetLostEventCount _ _ := 0

theorem buffered_holds {events : List MidiEvent} (h : events.length < UInt32.size) :
    Holds (buffered events) () 8 events where
  count := UInt32.toNat_ofNat_of_lt' h
  get i hi := ⟨0, Int.le_refl 0, by simp [buffered, hi]⟩

/-- A note, a bend and the end of the note. -/
def threeEvents : List MidiEvent := [⟨0, [144, 60, 100]⟩, ⟨5, [224, 0, 96]⟩, ⟨9, [128, 60, 0]⟩]

/-- From both ends, until they meet. -/
def bothEnds : List IterCall := [.next, .nextBack, .sizeHint, .nextBack, .next, .sizeHint]

theorem midi_iteration_iff_threeEvents :
    (Throughout (Exact threeEvents) (iterStep (buffered threeEvents) ())
        (.start (buffered threeEvents) () .iter 8) bothEnds ↔
      Along (Within threeEvents) (iterStep (buffered threeEvents) ())
        (.start (buffered threeEvents) () .iter 8) bothEnds) ∧
    ∃ t, run (iterStep (buffered threeEvents) ()) (.start (buffered threeEvents) () .iter 8)
        bothEnds = some t ∧ t.returned = 3 ∧ t.fronts = [⟨0, [144, 60, 100]⟩] ∧
      t.backs = [⟨9, [128, 60, 0]⟩, ⟨5, [224, 0, 96]⟩] :=
  ⟨midi_iteration_iff (buffered_holds (by decide)) .iter bothEnds, _, rfl, rfl, rfl, rfl⟩

def oneEvent : Machine Unit := buffered [⟨5, [144, 60, 100]⟩]

/-- `next` returns the one event, and `next_back` returns it again. -/
theorem next_nextBack_not_exact : ∃ t,
    run (iterStep oneEvent ()) (.start oneEvent () .iter 8) [.next, .nextBack] = some t ∧
      t.fronts = [⟨5, [144, 60, 100]⟩] ∧ t.backs = [⟨5, [144, 60, 100]⟩] ∧
      t.iter.sizeHint = .panic ∧ ¬ Exact [⟨5, [144, 60, 100]⟩] t := by
  refine ⟨_, rfl, rfl, rfl, rfl, ?_⟩
  intro h
  cases h.sizeHint

end Jack2.Midi
