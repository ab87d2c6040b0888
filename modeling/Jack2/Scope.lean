import Mathlib.Data.List.Basic
import Mathlib.Logic.Function.Iterate
import Jack2.Run
import Jack2.TripleBuffer

/-!
# The scope example

`examples/scope.rs`: the callback copies the audio of each port into a triple buffer, pushes a
request into a ring and unparks a thread, which hands the requests on to the main thread; there
they make GTK render. Rendering may also happen for other reasons. `park` may return without an
`unpark`, and a label of its own says so.
-/
namespace Jack2.Scope

/-- The frames that were written are within the data. -/
structure PortBuffer (F : Type*) where
  data : List F
  nframes : ℕ
  within : nframes ≤ data.length

/-- The transform, which uses its input as scratch space. -/
structure Fft (F : Type*) where
  zero : F
  scramble : List F → List F
  length_scramble : ∀ frames, (scramble frames).length = frames.length

variable {κ F : Type*}

namespace PortBuffer

def new (fft : Fft F) (bufsize : ℕ) : PortBuffer F where
  data := List.replicate bufsize fft.zero
  nframes := 0
  within := Nat.zero_le _

/-- `data[..nframes]` -/
def frames (b : PortBuffer F) : List F := b.data.take b.nframes

/-- `copy_from_slice` of what fits. -/
def copyFrom (out : PortBuffer F) (buf : List F) : PortBuffer F where
  data := buf.take (min buf.length out.data.length) ++
    out.data.drop (min buf.length out.data.length)
  nframes := min buf.length out.data.length
  within := by simp

/-- `process_with_scratch` -/
def process (fft : Fft F) (b : PortBuffer F) : PortBuffer F where
  data := fft.scramble b.frames ++ b.data.drop b.nframes
  nframes := b.nframes
  within := by simp [fft.length_scramble, frames, b.within]

/-- The data only ever grows. -/
def resize (fft : Fft F) (bufsize : ℕ) (b : PortBuffer F) : PortBuffer F :=
  if b.data.length < bufsize then
    ⟨b.data ++ List.replicate (bufsize - b.data.length) fft.zero, b.nframes, by
      have hwithin := b.within
      rw [List.length_append]
      omega⟩
  else b

@[simp] theorem frames_new (fft : Fft F) (bufsize : ℕ) : (new fft bufsize).frames = [] := rfl

@[simp] theorem frames_copyFrom (out : PortBuffer F) (buf : List F) :
    (out.copyFrom buf).frames = buf.take out.data.length := by
  have hlength : (buf.take (min buf.length out.data.length)).length =
      min buf.length out.data.length := by
    simp
  rw [frames, copyFrom, List.take_left' hlength]
  rcases Nat.le_total buf.length out.data.length with h | h
  · rw [Nat.min_eq_left h, List.take_length, List.take_of_length_le h]
  · rw [Nat.min_eq_right h]

@[simp] theorem frames_process (fft : Fft F) (b : PortBuffer F) :
    (b.process fft).frames = fft.scramble b.frames := by
  have hlength : (fft.scramble b.frames).length = b.nframes := by
    simp [fft.length_scramble, frames, b.within]
  rw [frames, process, List.take_left' hlength]

@[simp] theorem frames_resize (fft : Fft F) (bufsize : ℕ) (b : PortBuffer F) :
    (b.resize fft bufsize).frames = b.frames := by
  rw [resize]
  split
  · rw [frames, List.take_append_of_le_length b.within, frames]
  · rfl

@[simp] theorem length_copyFrom (out : PortBuffer F) (buf : List F) :
    (out.copyFrom buf).data.length = out.data.length := by
  simp only [copyFrom, List.length_append, List.length_take, List.length_drop]
  omega

@[simp] theorem length_process (fft : Fft F) (b : PortBuffer F) :
    (b.process fft).data.length = b.data.length := by
  have hwithin := b.within
  simp only [process, frames, List.length_append, fft.length_scramble, List.length_take,
    List.length_drop]
  omega

theorem length_resize_ge (fft : Fft F) (bufsize : ℕ) (b : PortBuffer F) :
    b.data.length ≤ (b.resize fft bufsize).data.length := by
  rw [resize]
  split
  · simp
  · exact Nat.le_refl _

end PortBuffer

/-- The data of a new port, when libjack's buffers have `bufferSize` frames. -/
def bufsize (bufferSize : ℕ) : ℕ := max bufferSize.nextPowerOfTwo 8192

/-- `rtrb::RingBuffer::new(1024)` -/
def ringCapacity : ℕ := 1024

/-- `ClientState::process`; `empty` is its local. -/
inductive Callback (κ F : Type*) where
  | idle
  | copying (rest : List (κ × List F)) (empty : Bool)
  | push (empty : Bool)
  | unpark (empty : Bool)
  deriving DecidableEq

/-- The thread of `ClientState::new`. -/
inductive Receiver where
  /-- At the load of `quit`. -/
  | check
  /-- At `rx.pop()`. -/
  | draining
  | sending
  | parked
  | exited
  deriving DecidableEq, Repr

/-- The main thread, in a method of `Scope` or in the drop of the `ClientState`. -/
inductive Main (κ : Type*) where
  | idle
  /-- In `add_port`, behind `register_ports`. -/
  | adding (port : κ)
  | rendering (rest : List κ)
  /-- At the `join`. -/
  | joining
  | gone
  deriving DecidableEq, Repr

structure State (κ F : Type*) where
  buffers : κ → TripleBuffer (PortBuffer F)
  /-- The keys of `Scope::ports`, and of all ports that ever were registered. -/
  ports : List κ
  registered : List κ
  main : Main κ
  callback : Callback κ F
  lastEmpty : Bool
  /-- The requests in the ring. -/
  ring : ℕ
  receiver : Receiver
  /-- The token of the thread. -/
  token : Bool
  quit : Bool
  /-- The requests in the channel to the main thread. -/
  queue : ℕ
  /-- `queue_render` was called. -/
  renderQueued : Bool
  /-- What the callback last copied of a port, and what was last transformed and drawn. -/
  heard : κ → Option (List F)
  drawn : κ → Option (List F)
  /-- How often a port was drawn since. -/
  draws : κ → ℕ

inductive Label (κ F : Type*) where
  | addPort (port : κ)
  | insertPort
  | removePort (port : κ)
  /-- A callback begins, with the ports and the audio that its scope has. -/
  | beginCycle (inputs : List (κ × List F))
  | callback
  | receiver
  /-- `park` returns for no reason. -/
  | spurious
  /-- The future that waits for requests. -/
  | poll
  | beginRender
  | render (bufferSize : ℕ)
  | dropState
  | join

def init (fft : Fft F) : State κ F where
  buffers := fun _ => .initial (.new fft 0)
  ports := []
  registered := []
  main := .idle
  callback := .idle
  lastEmpty := false
  ring := 0
  receiver := .check
  token := false
  quit := false
  queue := 0
  renderQueued := false
  heard := fun _ => none
  drawn := fun _ => none
  draws := fun _ => 0

section Steps

variable [DecidableEq κ]

namespace State

/-- The body of the loop over the ports of the scope. -/
def copy (s : State κ F) (port : κ) (buf : List F) : State κ F :=
  let b := s.buffers port
  { s with
    buffers := Function.update s.buffers port (b.setBack (b.back.copyFrom buf)).swap
    heard := Function.update s.heard port (some buf)
    draws := Function.update s.draws port 0 }

/-- The body of the loop over the ports in `render`. -/
def draw (fft : Fft F) (bufferSize : ℕ) (s : State κ F) (port : κ) : State κ F :=
  let b := (s.buffers port).frontBuffer
  let used := (b.front.process fft).resize fft bufferSize.nextPowerOfTwo
  { s with
    buffers := Function.update s.buffers port (b.setFront used)
    drawn := Function.update s.drawn port (some b.front.frames)
    draws := Function.update s.draws port (s.draws port + 1) }

def process (s : State κ F) : Callback κ F → Option (State κ F)
  | .idle => none
  | .copying ((port, buf) :: rest) _ =>
    some { s.copy port buf with callback := .copying rest false }
  | .copying [] empty =>
    if !empty || s.lastEmpty != empty then some { s with callback := .push empty }
    else some { s with callback := .idle, lastEmpty := empty }
  | .push empty =>
    some { s with
      ring := if s.ring < ringCapacity then s.ring + 1 else s.ring
      callback := .unpark empty }
  | .unpark empty => some { s with token := true, callback := .idle, lastEmpty := empty }

def receive (s : State κ F) : Receiver → Option (State κ F)
  | .check => some { s with receiver := if s.quit then .exited else .draining }
  | .draining =>
    match s.ring with
    | 0 => some { s with receiver := .parked }
    | ring + 1 => some { s with ring := ring, receiver := .sending }
  | .sending => some { s with queue := s.queue + 1, receiver := .draining }
  | .parked => if s.token then some { s with token := false, receiver := .check } else none
  | .exited => none

end State

/-- When a port is added libjack's buffers have `sizes port` frames. -/
def step (fft : Fft F) (sizes : κ → ℕ) (s : State κ F) : Label κ F → Option (State κ F)
  | .addPort port =>
    if s.main = .idle ∧ port ∉ s.registered then
      some { s with
        buffers := Function.update s.buffers port (.initial (.new fft (bufsize (sizes port))))
        registered := port :: s.registered
        main := .adding port }
    else none
  | .insertPort =>
    match s.main with
    | .adding port => some { s with ports := port :: s.ports, main := .idle }
    | _ => none
  | .removePort port =>
    if s.main = .idle ∧ port ∈ s.ports then some { s with ports := s.ports.erase port } else none
  | .beginCycle inputs =>
    match s.callback with
    | .idle =>
      if s.quit = false ∧ ∀ input ∈ inputs, input.1 ∈ s.registered then
        some { s with callback := .copying inputs true }
      else none
    | _ => none
  | .callback => s.process s.callback
  | .receiver => s.receive s.receiver
  | .spurious =>
    if s.receiver = .parked then some { s with token := false, receiver := .check } else none
  | .poll =>
    match s.main, s.queue with
    | .idle, queue + 1 => some { s with queue := queue, renderQueued := true }
    | _, _ => none
  | .beginRender =>
    if s.main = .idle then some { s with main := .rendering s.ports, renderQueued := false }
    else none
  | .render bufferSize =>
    match s.main with
    | .rendering (port :: rest) => some { s.draw fft bufferSize port with main := .rendering rest }
    | .rendering [] => some { s with main := .idle }
    | _ => none
  | .dropState =>
    match s.main, s.callback with
    | .idle, .idle => some { s with quit := true, main := .joining }
    | _, _ => none
  | .join => if s.main = .joining ∧ s.receiver = .exited then some { s with main := .gone } else none

abbrev run (fft : Fft F) (sizes : κ → ℕ) : State κ F → List (Label κ F) → Option (State κ F) :=
  Run.run (step fft sizes)

end Steps

/-- The callback is going to push a request. -/
def Callback.Pushes : Callback κ F → Prop
  | .copying _ empty => empty = false
  | .push _ => True
  | _ => False

namespace State

/-- `Scope` knows the port, or will as soon as it is used again. -/
def Live (s : State κ F) (port : κ) : Prop := port ∈ s.ports ∨ s.main = .adding port

/-- A request is on its way to GTK. -/
def Requested (s : State κ F) : Prop :=
  0 < s.ring ∨ s.receiver = .sending ∨ 0 < s.queue ∨ s.renderQueued = true

/-- The port is among those that `render` comes to yet. -/
def Rendering (s : State κ F) (port : κ) : Prop := ∃ rest, s.main = .rendering rest ∧ port ∈ rest

end State

/-- The receiver never sleeps over a request. -/
structure Attended (s : State κ F) : Prop where
  parked : s.receiver = .parked → s.token = false → s.ring = 0 ∨ ∃ empty, s.callback = .unpark empty
  bounded : s.ring ≤ ringCapacity
  exited : s.receiver = .exited → s.quit = true
  quit : s.quit = true ↔ s.main = .joining ∨ s.main = .gone
  stopped : s.quit = true → s.callback = .idle

/-- A port that was copied and not drawn yet will be drawn. -/
structure Announced (s : State κ F) : Prop where
  fresh : ∀ port, s.Live port → (s.buffers port).fresh = true →
    s.Requested ∨ s.callback.Pushes ∨ s.Rendering port
  registered : ∀ port, s.Live port → port ∈ s.registered

/-- What the buffers hold of the audio that was copied last. -/
structure Held (fft : Fft F) (b : TripleBuffer (PortBuffer F)) (size : ℕ) (audio : List F)
    (draws : ℕ) (drawn : Option (List F)) : Prop where
  held : ∃ n, size ≤ n ∧ b.latest.frames = fft.scramble^[draws] (audio.take n) ∧
    ∀ k, draws = k + 1 → drawn = some (fft.scramble^[k] (audio.take n))
  fresh : b.fresh = true ↔ draws = 0

/-- All three slots are as large as they were made. -/
structure Sized (b : TripleBuffer (PortBuffer F)) (size : ℕ) : Prop where
  front : size ≤ b.front.data.length
  pending : size ≤ b.pending.data.length
  back : size ≤ b.back.data.length

structure Contents (fft : Fft F) (sizes : κ → ℕ) (s : State κ F) : Prop where
  sized : ∀ port ∈ s.registered, Sized (s.buffers port) (bufsize (sizes port))
  unheard : ∀ port, port ∉ s.registered → s.heard port = none
  heard : ∀ port audio, s.heard port = some audio →
    Held fft (s.buffers port) (bufsize (sizes port)) audio (s.draws port) (s.drawn port)

structure Valid (fft : Fft F) (sizes : κ → ℕ) (s : State κ F) : Prop where
  attended : Attended s
  announced : Announced s
  contents : Contents fft sizes s
  /-- A callback sees ports that were registered. -/
  inputs : ∀ rest empty, s.callback = .copying rest empty → ∀ input ∈ rest, input.1 ∈ s.registered

section Frames

variable {fft : Fft F} {sizes : κ → ℕ} {s t : State κ F}

theorem valid_init : Valid fft sizes (init fft : State κ F) where
  attended :=
    { parked := nofun
      bounded := Nat.zero_le _
      exited := nofun
      quit := by simp [init]
      stopped := nofun }
  announced :=
    { fresh := nofun
      registered := by simp [State.Live, init] }
  contents :=
    { sized := nofun
      unheard := fun _ _ => rfl
      heard := nofun }
  inputs := nofun

/-- A step of the main thread, of which the other two take no notice. -/
theorem Attended.congr (hs : Attended s) (hreceiver : t.receiver = s.receiver)
    (htoken : t.token = s.token) (hring : t.ring = s.ring) (hcallback : t.callback = s.callback)
    (hquit : t.quit = s.quit) (hmain : t.main = .joining ∨ t.main = .gone ↔
      s.main = .joining ∨ s.main = .gone) : Attended t := by
  refine ⟨?_, ?_, ?_, ?_, ?_⟩
  · rw [hreceiver, htoken, hring, hcallback]
    exact hs.parked
  · rw [hring]
    exact hs.bounded
  · rw [hreceiver, hquit]
    exact hs.exited
  · rw [hquit, hmain]
    exact hs.quit
  · rw [hquit, hcallback]
    exact hs.stopped

/-- Nothing is copied or drawn, and what was announced stays so. -/
theorem Announced.congr (hs : Announced s) (hbuffers : t.buffers = s.buffers)
    (hregistered : t.registered = s.registered) (hlive : ∀ port, t.Live port → s.Live port)
    (hannounced : ∀ port, s.Requested ∨ s.callback.Pushes ∨ s.Rendering port →
      t.Requested ∨ t.callback.Pushes ∨ t.Rendering port) : Announced t := by
  constructor
  · intro port hport hfresh
    rw [hbuffers] at hfresh
    exact hannounced port (hs.fresh port (hlive port hport) hfresh)
  · intro port hport
    rw [hregistered]
    exact hs.registered port (hlive port hport)

theorem Contents.congr (hs : Contents fft sizes s) (hbuffers : t.buffers = s.buffers)
    (hregistered : t.registered = s.registered) (hheard : t.heard = s.heard)
    (hdrawn : t.drawn = s.drawn) (hdraws : t.draws = s.draws) : Contents fft sizes t := by
  refine ⟨?_, ?_, ?_⟩
  · rw [hbuffers, hregistered]
    exact hs.sized
  · rw [hregistered, hheard]
    exact hs.unheard
  · rw [hbuffers, hheard, hdrawn, hdraws]
    exact hs.heard

theorem sized_new (fft : Fft F) (n : ℕ) : Sized (.initial (PortBuffer.new fft n)) n := by
  constructor <;> simp [TripleBuffer.initial, PortBuffer.new]

theorem Sized.copy {b : TripleBuffer (PortBuffer F)} {n : ℕ} (h : Sized b n) (buf : List F) :
    Sized (b.setBack (b.back.copyFrom buf)).swap n where
  front := h.front
  pending := by simpa [TripleBuffer.swap] using h.back
  back := h.pending

theorem Sized.frontBuffer {b : TripleBuffer (PortBuffer F)} {n : ℕ} (h : Sized b n) :
    Sized b.frontBuffer n := by
  rw [TripleBuffer.frontBuffer]
  split
  · exact ⟨h.pending, h.front, h.back⟩
  · exact h

theorem Sized.draw {b : TripleBuffer (PortBuffer F)} {n : ℕ} (h : Sized b n) (m : ℕ) :
    Sized (b.frontBuffer.setFront ((b.frontBuffer.front.process fft).resize fft m)) n where
  front := by
    have hgrow := (b.frontBuffer.front.process fft).length_resize_ge fft m
    rw [PortBuffer.length_process] at hgrow
    exact Nat.le_trans h.frontBuffer.front hgrow
  pending := h.frontBuffer.pending
  back := h.frontBuffer.back

/-- A copy starts anew, with as much of the audio as there is room for. -/
theorem held_copy {b : TripleBuffer (PortBuffer F)} {n : ℕ} (h : Sized b n) (buf : List F)
    (drawn : Option (List F)) : Held fft (b.setBack (b.back.copyFrom buf)).swap n buf 0 drawn where
  held := ⟨b.back.data.length, h.back, by simp, nofun⟩
  fresh := by simp

/-- What is drawn is what is held, and drawing scrambles it. -/
theorem Held.draw {b : TripleBuffer (PortBuffer F)} {n draws : ℕ} {audio : List F}
    {drawn : Option (List F)} (h : Held fft b n audio draws drawn) (m : ℕ) :
    Held fft (b.frontBuffer.setFront ((b.frontBuffer.front.process fft).resize fft m)) n audio
      (draws + 1) (some b.frontBuffer.front.frames) where
  held := by
    obtain ⟨room, hroom, hlatest, _⟩ := h.held
    have hframes : b.frontBuffer.front.frames = fft.scramble^[draws] (audio.take room) := by
      rw [TripleBuffer.frontBuffer_front, hlatest]
    refine ⟨room, hroom, ?_, ?_⟩
    · rw [TripleBuffer.latest_setFront (TripleBuffer.frontBuffer_fresh b), PortBuffer.frames_resize,
        PortBuffer.frames_process, hframes, Function.iterate_succ_apply']
    · rintro k hk
      obtain rfl : draws = k := by omega
      rw [hframes]
  fresh := by simp [TripleBuffer.setFront]

theorem State.not_rendering (hmain : ∀ rest, s.main ≠ .rendering rest) {port : κ} :
    ¬s.Rendering port := fun ⟨rest, hrest, _⟩ => hmain rest hrest

/-- No port is being added behind the step. -/
theorem State.Live.before {port : κ} (h : t.Live port) (hports : t.ports = s.ports)
    (hmain : ∀ p, t.main ≠ .adding p) : s.Live port := by
  rcases h with h | h
  · exact .inl (hports ▸ h)
  · exact absurd h (hmain port)

theorem State.Requested.mono (h : s.Requested) (hring : t.ring = s.ring)
    (hqueue : t.queue = s.queue) (hqueued : t.renderQueued = s.renderQueued)
    (hreceiver : s.receiver = .sending → t.receiver = .sending) : t.Requested := by
  rcases h with h | h | h | h
  · exact .inl (hring ▸ h)
  · exact .inr (.inl (hreceiver h))
  · exact .inr (.inr (.inl (hqueue ▸ h)))
  · exact .inr (.inr (.inr (hqueued.trans h)))

theorem valid_receive (hs : Valid fft sizes s) (h : s.receive s.receiver = some t) :
    Valid fft sizes t := by
  obtain ⟨ha, hn, hc, hi⟩ := hs
  cases hr : s.receiver with
  | check =>
    rw [hr, State.receive] at h
    cases h
    refine ⟨⟨?_, ha.bounded, ?_, ha.quit, ha.stopped⟩, ?_, hc.congr rfl rfl rfl rfl rfl, hi⟩
    · intro hparked
      dsimp only at hparked
      split at hparked <;> cases hparked
    · intro hexited
      by_contra hquit
      simp [hquit] at hexited
    · exact hn.congr rfl rfl (fun _ hport => hport)
        fun _ => Or.imp_left fun hreq => hreq.mono rfl rfl rfl (by simp [hr])
  | draining =>
    rw [hr, State.receive] at h
    cases hring : s.ring with
    | zero =>
      obtain rfl : _ = t := by simpa [hring] using h
      refine ⟨⟨fun _ _ => .inl rfl, Nat.zero_le _, nofun, ha.quit, ha.stopped⟩, ?_,
        hc.congr rfl rfl rfl rfl rfl, hi⟩
      exact hn.congr rfl rfl (fun _ hport => hport)
        fun _ => Or.imp_left fun hreq => hreq.mono hring.symm rfl rfl (by simp [hr])
    | succ ring =>
      obtain rfl : _ = t := by simpa [hring] using h
      have hbounded : ring ≤ ringCapacity := by
        have hle := ha.bounded
        omega
      refine ⟨⟨nofun, hbounded, nofun, ha.quit, ha.stopped⟩, ?_, hc.congr rfl rfl rfl rfl rfl, hi⟩
      exact hn.congr rfl rfl (fun _ hport => hport) fun _ _ => .inl (.inr (.inl rfl))
  | sending =>
    obtain rfl : _ = t := by simpa [hr, State.receive] using h
    refine ⟨⟨nofun, ha.bounded, nofun, ha.quit, ha.stopped⟩, ?_, hc.congr rfl rfl rfl rfl rfl, hi⟩
    exact hn.congr rfl rfl (fun _ hport => hport)
      fun _ _ => .inl (.inr (.inr (.inl (Nat.succ_pos _))))
  | parked =>
    rw [hr, State.receive] at h
    split at h
    · cases h
      refine ⟨⟨nofun, ha.bounded, nofun, ha.quit, ha.stopped⟩, ?_, hc.congr rfl rfl rfl rfl rfl, hi⟩
      exact hn.congr rfl rfl (fun _ hport => hport)
        fun _ => Or.imp_left fun hreq => hreq.mono rfl rfl rfl (by simp [hr])
    · cases h
  | exited => simp [hr, State.receive] at h

end Frames

section Steps

variable [DecidableEq κ] {fft : Fft F} {sizes : κ → ℕ} {s t : State κ F}

/-- The callback stays announced until it has pushed its request. -/
theorem announced_copy (hs : Announced s) (port : κ) (buf : List F) (rest : List (κ × List F)) :
    Announced { s.copy port buf with callback := .copying rest false } :=
  ⟨fun _ _ _ => .inr (.inl rfl), hs.registered⟩

theorem contents_copy (hs : Contents fft sizes s) {port : κ} (hport : port ∈ s.registered)
    (buf : List F) (c : Callback κ F) : Contents fft sizes { s.copy port buf with callback := c } where
  sized := by
    intro p hp
    by_cases heq : p = port
    · subst p
      simpa [State.copy] using (hs.sized port hport).copy buf
    · simpa [State.copy, Function.update_of_ne heq] using hs.sized p hp
  unheard := by
    intro p hp
    have hne : p ≠ port := fun heq => hp (heq ▸ hport)
    simpa [State.copy, Function.update_of_ne hne] using hs.unheard p hp
  heard := by
    intro p audio haudio
    by_cases heq : p = port
    · subst p
      obtain rfl : buf = audio := by simpa [State.copy] using haudio
      simpa [State.copy] using held_copy (hs.sized port hport) buf (s.drawn port)
    · simp only [State.copy, Function.update_of_ne heq] at haudio ⊢
      exact hs.heard p audio haudio

theorem contents_draw (hs : Contents fft sizes s) (port : κ) (bufferSize : ℕ) (m : Main κ) :
    Contents fft sizes { s.draw fft bufferSize port with main := m } where
  sized := by
    intro p hp
    by_cases heq : p = port
    · subst p
      simpa [State.draw] using (hs.sized port hp).draw _
    · simpa [State.draw, Function.update_of_ne heq] using hs.sized p hp
  unheard := hs.unheard
  heard := by
    intro p audio haudio
    by_cases heq : p = port
    · subst p
      simpa [State.draw] using (hs.heard port audio haudio).draw bufferSize.nextPowerOfTwo
    · simp only [State.draw, Function.update_of_ne heq]
      exact hs.heard p audio haudio

/-- The port that is drawn is not fresh any more; the others wait for the rest of the loop. -/
theorem announced_draw (hs : Announced s) {port : κ} {rest : List κ}
    (hmain : s.main = .rendering (port :: rest)) (bufferSize : ℕ) :
    Announced { s.draw fft bufferSize port with main := .rendering rest } where
  fresh := by
    rintro p (hp | hp) hfresh
    · by_cases heq : p = port
      · subst p
        simp [State.draw, TripleBuffer.setFront] at hfresh
      · simp only [State.draw, Function.update_of_ne heq] at hfresh
        rcases hs.fresh p (.inl hp) hfresh with hreq | hpush | ⟨all, hall, hmem⟩
        · exact .inl hreq
        · exact .inr (.inl hpush)
        · obtain rfl : port :: rest = all := Main.rendering.inj (hmain.symm.trans hall)
          exact .inr (.inr ⟨rest, rfl, (List.mem_cons.mp hmem).resolve_left heq⟩)
    · cases hp
  registered := by
    rintro p (hp | hp)
    · exact hs.registered p (.inl hp)
    · cases hp

theorem valid_process (hs : Valid fft sizes s) (h : s.process s.callback = some t) :
    Valid fft sizes t := by
  obtain ⟨ha, hn, hc, hi⟩ := hs
  have hrun : s.quit = false := by
    by_contra hquit
    rw [Bool.not_eq_false] at hquit
    simp [ha.stopped hquit, State.process] at h
  cases hcall : s.callback with
  | idle => simp [hcall, State.process] at h
  | copying rest empty =>
    have hparked : s.receiver = .parked → s.token = false → s.ring = 0 := by
      intro hr ht
      simpa [hcall] using ha.parked hr ht
    cases rest with
    | nil =>
      rw [hcall, State.process] at h
      split at h
      · cases h
        refine ⟨⟨fun hr ht => .inl (hparked hr ht), ha.bounded, ha.exited, ha.quit, by simp [hrun]⟩,
          ?_, hc.congr rfl rfl rfl rfl rfl, nofun⟩
        exact hn.congr rfl rfl (fun _ hport => hport) fun _ _ => .inr (.inl trivial)
      · rename_i hpush
        cases h
        refine ⟨⟨fun hr ht => .inl (hparked hr ht), ha.bounded, ha.exited, ha.quit, by simp⟩,
          ?_, hc.congr rfl rfl rfl rfl rfl, nofun⟩
        refine hn.congr rfl rfl (fun _ hport => hport) fun _ => Or.imp_right (Or.imp_left ?_)
        intro hpushes
        rw [hcall] at hpushes
        simp [show empty = false from hpushes] at hpush
    | cons input rest =>
      obtain rfl : _ = t := by simpa [hcall, State.process] using h
      have hinputs := hi _ _ hcall
      refine ⟨⟨fun hr ht => .inl (hparked hr ht), ha.bounded, ha.exited, ha.quit, ?_⟩,
        announced_copy hn _ _ _, contents_copy hc (hinputs input List.mem_cons_self) _ _, ?_⟩
      · simp [State.copy, hrun]
      · rintro rest _ ⟨⟩ later hlater
        exact hinputs later (List.mem_cons_of_mem input hlater)
  | push empty =>
    obtain rfl : _ = t := by simpa [hcall, State.process] using h
    have hbounded := ha.bounded
    refine ⟨⟨fun _ _ => .inr ⟨empty, rfl⟩, ?_, ha.exited, ha.quit, by simp [hrun]⟩, ?_,
      hc.congr rfl rfl rfl rfl rfl, nofun⟩
    · dsimp only
      split <;> omega
    · refine hn.congr rfl rfl (fun _ hport => hport) fun _ _ => .inl (.inl ?_)
      dsimp only
      split
      · omega
      · have hroom : 0 < ringCapacity := by decide
        omega
  | unpark empty =>
    obtain rfl : _ = t := by simpa [hcall, State.process] using h
    refine ⟨⟨by simp, ha.bounded, ha.exited, ha.quit, by simp⟩, ?_, hc.congr rfl rfl rfl rfl rfl, nofun⟩
    refine hn.congr rfl rfl (fun _ hport => hport) fun _ => Or.imp_right (Or.imp_left ?_)
    intro hpushes
    rw [hcall] at hpushes
    exact hpushes.elim

theorem contents_add (hs : Contents fft sizes s) {port : κ} (hnew : port ∉ s.registered) :
    Contents fft sizes { s with
      buffers := Function.update s.buffers port (.initial (.new fft (bufsize (sizes port))))
      registered := port :: s.registered
      main := .adding port } where
  sized := by
    intro p hp
    by_cases heq : p = port
    · subst p
      simpa using sized_new fft (bufsize (sizes port))
    · simpa [Function.update_of_ne heq] using
        hs.sized p ((List.mem_cons.mp hp).resolve_left heq)
  unheard := fun p hp => hs.unheard p fun hmem => hp (List.mem_cons_of_mem port hmem)
  heard := by
    intro p audio haudio
    have hne : p ≠ port := by
      rintro rfl
      rw [hs.unheard p hnew] at haudio
      cases haudio
    simpa [Function.update_of_ne hne] using hs.heard p audio haudio

theorem announced_add (hs : Announced s) {port : κ} (hmain : s.main = .idle) (new : PortBuffer F) :
    Announced { s with
      buffers := Function.update s.buffers port (.initial new)
      registered := port :: s.registered
      main := .adding port } where
  fresh := by
    intro p hp hfresh
    by_cases heq : p = port
    · subst p
      simp [TripleBuffer.initial] at hfresh
    · simp only [Function.update_of_ne heq] at hfresh
      rcases hp with hp | hp
      · rcases hs.fresh p (.inl hp) hfresh with hreq | hpush | ⟨all, hall, _⟩
        · exact .inl hreq
        · exact .inr (.inl hpush)
        · rw [hmain] at hall
          cases hall
      · cases hp
        exact absurd rfl heq
  registered := by
    rintro p (hp | hp)
    · exact List.mem_cons_of_mem port (hs.registered p (.inl hp))
    · cases hp
      exact List.mem_cons_self

theorem valid_step (hs : Valid fft sizes s) {l : Label κ F} (h : step fft sizes s l = some t) :
    Valid fft sizes t := by
  obtain ⟨ha, hn, hc, hi⟩ := hs
  cases l with
  | addPort port =>
    simp only [step, Option.ite_none_right_eq_some, Option.some.injEq] at h
    obtain ⟨⟨hmain, hnew⟩, rfl⟩ := h
    refine ⟨ha.congr rfl rfl rfl rfl rfl (by simp [hmain]), announced_add hn hmain _,
      contents_add hc hnew, ?_⟩
    exact fun rest empty hrest input hinput =>
      List.mem_cons_of_mem port (hi rest empty hrest input hinput)
  | insertPort =>
    cases hmain : s.main with
    | adding port =>
      obtain rfl : _ = t := by simpa [step, hmain] using h
      refine ⟨ha.congr rfl rfl rfl rfl rfl (by simp [hmain]), ?_, hc.congr rfl rfl rfl rfl rfl, hi⟩
      refine hn.congr rfl rfl ?_ fun p => Or.imp_right (Or.imp_right ?_)
      · rintro p (hp | hp)
        · rcases List.mem_cons.mp hp with rfl | hp
          · exact .inr hmain
          · exact .inl hp
        · cases hp
      · exact fun hrendering => absurd hrendering (State.not_rendering (by simp [hmain]))
    | _ => simp [step, hmain] at h
  | removePort port =>
    simp only [step, Option.ite_none_right_eq_some, Option.some.injEq] at h
    obtain ⟨-, rfl⟩ := h
    refine ⟨ha.congr rfl rfl rfl rfl rfl Iff.rfl, ?_, hc.congr rfl rfl rfl rfl rfl, hi⟩
    exact hn.congr rfl rfl (fun p => Or.imp_left List.mem_of_mem_erase) fun _ => id
  | beginCycle inputs =>
    cases hcall : s.callback with
    | idle =>
      simp only [step, hcall, Option.ite_none_right_eq_some, Option.some.injEq] at h
      obtain ⟨⟨hquit, hinputs⟩, rfl⟩ := h
      refine ⟨⟨fun hr ht => .inl ?_, ha.bounded, ha.exited, ha.quit, by simp [hquit]⟩, ?_,
        hc.congr rfl rfl rfl rfl rfl, ?_⟩
      · simpa [hcall] using ha.parked hr ht
      · refine hn.congr rfl rfl (fun _ hport => hport) fun _ => Or.imp_right (Or.imp_left ?_)
        intro hpushes
        rw [hcall] at hpushes
        exact hpushes.elim
      · rintro rest _ ⟨⟩
        exact hinputs
    | _ => simp [step, hcall] at h
  | callback => exact valid_process ⟨ha, hn, hc, hi⟩ h
  | receiver => exact valid_receive ⟨ha, hn, hc, hi⟩ h
  | spurious =>
    simp only [step, Option.ite_none_right_eq_some, Option.some.injEq] at h
    obtain ⟨hr, rfl⟩ := h
    refine ⟨⟨nofun, ha.bounded, nofun, ha.quit, ha.stopped⟩, ?_, hc.congr rfl rfl rfl rfl rfl, hi⟩
    exact hn.congr rfl rfl (fun _ hport => hport)
      fun _ => Or.imp_left fun hreq => hreq.mono rfl rfl rfl (by simp [hr])
  | poll =>
    cases hmain : s.main with
    | idle =>
      cases hqueue : s.queue with
      | zero => simp [step, hmain, hqueue] at h
      | succ queue =>
        obtain rfl : _ = t := by simpa [step, hmain, hqueue] using h
        refine ⟨ha.congr rfl rfl rfl rfl rfl (by simp [hmain]), ?_, hc.congr rfl rfl rfl rfl rfl, hi⟩
        exact hn.congr rfl rfl (fun _ hport => hport.before rfl nofun)
          fun _ _ => .inl (.inr (.inr (.inr rfl)))
    | _ => simp [step, hmain] at h
  | beginRender =>
    simp only [step, Option.ite_none_right_eq_some, Option.some.injEq] at h
    obtain ⟨hmain, rfl⟩ := h
    refine ⟨ha.congr rfl rfl rfl rfl rfl (by simp [hmain]), ⟨?_, ?_⟩, hc.congr rfl rfl rfl rfl rfl, hi⟩
    · rintro p (hp | hp) _
      · exact .inr (.inr ⟨s.ports, rfl, hp⟩)
      · cases hp
    · rintro p (hp | hp)
      · exact hn.registered p (.inl hp)
      · cases hp
  | render bufferSize =>
    cases hmain : s.main with
    | rendering rest =>
      cases rest with
      | nil =>
        obtain rfl : _ = t := by simpa [step, hmain] using h
        refine ⟨ha.congr rfl rfl rfl rfl rfl (by simp [hmain]), ?_, hc.congr rfl rfl rfl rfl rfl, hi⟩
        refine hn.congr rfl rfl (fun _ hport => hport.before rfl nofun)
          fun p => Or.imp_right (Or.imp_right ?_)
        rintro ⟨all, hall, hmem⟩
        obtain rfl := Main.rendering.inj (hmain.symm.trans hall)
        cases hmem
      | cons port rest =>
        obtain rfl : _ = t := by simpa [step, hmain] using h
        exact ⟨ha.congr rfl rfl rfl rfl rfl (by simp [hmain]), announced_draw hn hmain bufferSize,
          contents_draw hc port bufferSize _, hi⟩
    | _ => simp [step, hmain] at h
  | dropState =>
    cases hmain : s.main with
    | idle =>
      cases hcall : s.callback with
      | idle =>
        obtain rfl : _ = t := by simpa [step, hmain, hcall] using h
        refine ⟨⟨fun hr ht => .inl ?_, ha.bounded, fun _ => rfl, by simp, fun _ => rfl⟩, ?_,
          hc.congr rfl rfl rfl rfl rfl, nofun⟩
        · simpa [hcall] using ha.parked hr ht
        · refine hn.congr rfl rfl (fun _ hport => hport.before rfl nofun)
            fun p => Or.imp_right (Or.imp ?_ ?_)
          · intro hpushes
            rw [hcall] at hpushes
            exact hpushes.elim
          · exact fun hrendering => absurd hrendering (State.not_rendering (by simp [hmain]))
      | _ => simp [step, hmain, hcall] at h
    | _ => simp [step, hmain] at h
  | join =>
    simp only [step, Option.ite_none_right_eq_some, Option.some.injEq] at h
    obtain ⟨⟨hmain, -⟩, rfl⟩ := h
    refine ⟨ha.congr rfl rfl rfl rfl rfl (by simp [hmain]), ?_, hc.congr rfl rfl rfl rfl rfl, hi⟩
    refine hn.congr rfl rfl (fun _ hport => hport.before rfl nofun)
      fun p => Or.imp_right (Or.imp_right ?_)
    exact fun hrendering => absurd hrendering (State.not_rendering (by simp [hmain]))

theorem valid_run {ls : List (Label κ F)} (h : run fft sizes (init fft) ls = some t) :
    Valid fft sizes t :=
  Run.run_invariant (fun _ _ _ hs hstep => valid_step hs hstep) h valid_init

/-- Once no callback runs and every request has been dealt with, the picture of each port is
made of the audio that was copied last, from as much of it as the data of the port has room for;
but each further time that the port was drawn since, the transform began with what it had left
behind the time before. -/
theorem picture_current {ls : List (Label κ F)} (h : run fft sizes (init fft) ls = some s)
    (hcallback : s.callback = .idle) (hmain : s.main = .idle) (hrequested : ¬s.Requested)
    {port : κ} (hport : port ∈ s.ports) {audio : List F} (haudio : s.heard port = some audio) :
    ∃ n k, bufsize (sizes port) ≤ n ∧ s.draws port = k + 1 ∧
      s.drawn port = some (fft.scramble^[k] (audio.take n)) := by
  obtain ⟨-, hn, hc, -⟩ := valid_run h
  have hheld := hc.heard port audio haudio
  have hdrawn : s.draws port ≠ 0 := by
    intro hzero
    rcases hn.fresh port (.inl hport) (hheld.fresh.mpr hzero) with hreq | hpushes | hrendering
    · exact hrequested hreq
    · rw [hcallback] at hpushes
      exact hpushes
    · exact State.not_rendering (by simp [hmain]) hrendering
  obtain ⟨k, hk⟩ := Nat.exists_eq_succ_of_ne_zero hdrawn
  obtain ⟨n, hn, _, hlast⟩ := hheld.held
  exact ⟨n, k, hn, hk, hlast k hk⟩

end Steps

section Rest

variable {s t : State κ F}

/-- How far the receiver is from its next rest. -/
def Receiver.distance : Receiver → ℕ
  | .exited => 0
  | .parked => 1
  | .draining => 2
  | .check | .sending => 3

/-- The steps of the receiver before it rests, at most. -/
def State.work (s : State κ F) : ℕ := s.receiver.distance + 2 * s.ring + 3 * s.token.toNat

/-- The requests that have not got to the main thread. -/
def State.behind (s : State κ F) : ℕ := s.ring + if s.receiver = .sending then 1 else 0

/-- A step of the receiver. -/
structure Received (s t : State κ F) : Prop where
  work : t.work < s.work
  handed : t.queue + t.behind = s.queue + s.behind
  quit : t.quit = s.quit
  callback : t.callback = s.callback
  main : t.main = s.main

theorem received (h : s.receive s.receiver = some t) : Received s t := by
  cases hr : s.receiver with
  | check =>
    rw [hr, State.receive] at h
    cases h
    constructor <;> cases hquit : s.quit <;>
      simp [State.work, State.behind, Receiver.distance, hr]
  | draining =>
    rw [hr, State.receive] at h
    cases hring : s.ring with
    | zero =>
      obtain rfl : _ = t := by simpa [hring] using h
      constructor <;> simp [State.work, State.behind, Receiver.distance, hr, hring]
    | succ ring =>
      obtain rfl : _ = t := by simpa [hring] using h
      constructor <;> simp [State.work, State.behind, Receiver.distance, hr, hring]
      omega
  | sending =>
    obtain rfl : _ = t := by simpa [hr, State.receive] using h
    constructor <;> simp [State.work, State.behind, Receiver.distance, hr]
    omega
  | parked =>
    rw [hr, State.receive] at h
    split at h
    · rename_i htoken
      cases h
      constructor <;> simp [State.work, State.behind, Receiver.distance, hr, htoken]
      omega
    · cases h
  | exited => simp [hr, State.receive] at h

theorem receive_eq_none (h : s.receive s.receiver = none) :
    s.receiver = .parked ∧ s.token = false ∨ s.receiver = .exited := by
  cases hr : s.receiver with
  | parked =>
    cases htoken : s.token with
    | false => exact .inl ⟨rfl, rfl⟩
    | true => simp [hr, State.receive, htoken] at h
  | exited => exact .inr rfl
  | draining => cases hring : s.ring <;> simp [hr, State.receive, hring] at h
  | _ => simp [hr, State.receive] at h

theorem work_le (hs : Attended s) : s.work ≤ 2 * ringCapacity + 6 := by
  have hbounded := hs.bounded
  have hdistance : s.receiver.distance ≤ 3 := by cases s.receiver <;> decide
  have htoken : s.token.toNat ≤ 1 := Bool.toNat_le s.token
  rw [State.work]
  omega

/-- The receiver will see `quit`. -/
def State.Leaving (s : State κ F) : Prop :=
  s.main = .joining ∧ s.quit = true ∧
    (s.receiver = .check ∨ s.receiver = .exited ∨ s.token = true)

theorem leaving_receive (hs : s.Leaving) (h : s.receive s.receiver = some t) : t.Leaving := by
  obtain ⟨hmain, hquit, hready⟩ := hs
  have hreceived := received h
  refine ⟨hreceived.main.trans hmain, hreceived.quit.trans hquit, ?_⟩
  cases hr : s.receiver with
  | check =>
    rw [hr, State.receive, hquit] at h
    cases h
    exact .inr (.inl rfl)
  | draining =>
    have htoken : s.token = true := by simpa [hr] using hready
    rw [hr, State.receive] at h
    cases hring : s.ring with
    | zero =>
      obtain rfl : _ = t := by simpa [hring] using h
      exact .inr (.inr htoken)
    | succ ring =>
      obtain rfl : _ = t := by simpa [hring] using h
      exact .inr (.inr htoken)
  | sending =>
    have htoken : s.token = true := by simpa [hr] using hready
    obtain rfl : _ = t := by simpa [State.receive, hr] using h
    exact .inr (.inr htoken)
  | parked =>
    rw [hr, State.receive] at h
    split at h
    · cases h
      exact .inl rfl
    · cases h
  | exited => simp [hr, State.receive] at h

end Rest

section Runs

variable [DecidableEq κ] {fft : Fft F} {sizes : κ → ℕ} {s t : State κ F}

/-- Left alone, with no callback in progress and the state not dropped (the drop has the receiver
exit), the receiver comes to rest, and then every request in the ring has got to the main
thread. A push on a full ring is dropped and is no request in it. -/
theorem requests_delivered {ls : List (Label κ F)} (h : run fft sizes (init fft) ls = some s)
    (hcallback : s.callback = .idle) (hquit : s.quit = false) :
    (∀ n t, run fft sizes s (List.replicate n .receiver) = some t →
      n ≤ 2 * ringCapacity + 6 ∧ (step fft sizes t .receiver = none →
        t.ring = 0 ∧ t.queue = s.queue + s.behind)) ∧
    ∃ n t, run fft sizes s (List.replicate n .receiver) = some t ∧
      step fft sizes t .receiver = none := by
  let Inv (u : State κ F) : Prop := Valid fft sizes u ∧ u.callback = .idle ∧ u.quit = false ∧
    u.queue + u.behind = s.queue + s.behind
  have hs : Inv s := ⟨valid_run h, hcallback, hquit, rfl⟩
  have hstep : ∀ u l v, l = Label.receiver → Inv u → step fft sizes u l = some v →
      Inv v ∧ v.work < u.work := by
    rintro u _ v rfl ⟨hvalid, hcall, hrun, hsum⟩ huv
    have hreceived := received huv
    exact ⟨⟨valid_step hvalid huv, hreceived.callback.trans hcall, hreceived.quit.trans hrun,
      hreceived.handed.trans hsum⟩, hreceived.work⟩
  constructor
  · intro n t hrun
    have hall : ∀ l ∈ List.replicate n Label.receiver, l = (Label.receiver : Label κ F) :=
      fun l hl => List.eq_of_mem_replicate hl
    obtain ⟨hvalid, hcall, hopen, hsum⟩ := Run.run_invariant_of_labels
      (fun u l v hl hu huv => (hstep u l v hl hu huv).1) hall hrun hs
    constructor
    · have hlength := Run.run_length_le hstep hall hrun hs
      have hwork := work_le hs.1.attended
      rw [List.length_replicate] at hlength
      omega
    · intro hrest
      rcases receive_eq_none hrest with ⟨hparked, htoken⟩ | hexited
      · have hring : t.ring = 0 := by simpa [hcall] using hvalid.attended.parked hparked htoken
        refine ⟨hring, ?_⟩
        simpa [State.behind, hring, hparked] using hsum
      · rw [hvalid.attended.exited hexited] at hopen
        cases hopen
  · have hrest : ∃ as t, (∀ l ∈ as, l = Label.receiver) ∧ run fft sizes s as = some t ∧
        step fft sizes t .receiver = none := by
      refine Run.exists_run_final hstep (fun u _ hnot => ?_) hs
      obtain ⟨v, hv⟩ := Option.ne_none_iff_exists'.mp hnot
      exact ⟨.receiver, v, rfl, hv⟩
    obtain ⟨as, t, hall, hrun, hnone⟩ := hrest
    rw [List.eq_replicate_of_mem hall] at hrun
    exact ⟨as.length, t, hrun, hnone⟩

/-- Behind the store of `quit` nobody unparks the receiver. -/
def State.Stuck (s : State κ F) : Prop :=
  s.main = .joining ∧ s.callback = .idle ∧ s.quit = true ∧ s.token = false ∧
    s.receiver ≠ .check ∧ s.receiver ≠ .exited

theorem stuck_step (hs : s.Stuck) {l : Label κ F} (hl : l ≠ .spurious)
    (h : step fft sizes s l = some t) : t.Stuck := by
  obtain ⟨hmain, hcall, hquit, htoken, hcheck, hexited⟩ := hs
  cases l with
  | spurious => exact absurd rfl hl
  | receiver =>
    cases hr : s.receiver with
    | draining =>
      cases hring : s.ring with
      | zero =>
        obtain rfl : _ = t := by simpa [step, State.receive, hr, hring] using h
        exact ⟨hmain, hcall, hquit, htoken, nofun, nofun⟩
      | succ ring =>
        obtain rfl : _ = t := by simpa [step, State.receive, hr, hring] using h
        exact ⟨hmain, hcall, hquit, htoken, nofun, nofun⟩
    | sending =>
      obtain rfl : _ = t := by simpa [step, State.receive, hr] using h
      exact ⟨hmain, hcall, hquit, htoken, nofun, nofun⟩
    | parked => simp [step, State.receive, hr, htoken] at h
    | _ => contradiction
  | callback => simp [step, State.process, hcall] at h
  | beginCycle inputs => simp [step, hcall, hquit] at h
  | join => simp [step, hexited] at h
  | _ => simp [step, hmain] at h

theorem exists_exited (hs : s.Leaving) :
    ∃ ls t, (∀ l ∈ ls, l = Label.receiver) ∧ run fft sizes s ls = some t ∧
      (t.main = .joining ∧ t.receiver = .exited) := by
  have hstep : ∀ u l v, l = Label.receiver → u.Leaving → step fft sizes u l = some v →
      v.Leaving ∧ v.work < u.work := by
    rintro u _ v rfl hu huv
    exact ⟨leaving_receive hu huv, (received huv).work⟩
  refine Run.exists_run_final hstep (fun u hu hnot => ?_) hs
  refine ⟨.receiver, ?_⟩
  cases hnext : step fft sizes u .receiver with
  | some v => exact ⟨v, rfl, rfl⟩
  | none =>
    obtain ⟨hmain, _, hready⟩ := hu
    rcases receive_eq_none hnext with ⟨hparked, htoken⟩ | hexited
    · simp [hparked, htoken] at hready
    · exact absurd ⟨hmain, hexited⟩ hnot

/-- The drop of the client's state joins the receiver exactly if the receiver has still to look
at `quit`, or has a token that makes it look again. -/
theorem drop_returns_iff {ls : List (Label κ F)} (h : run fft sizes (init fft) ls = some s)
    (hmain : s.main = .joining) :
    (∃ ls t, (∀ l ∈ ls, l ≠ .spurious) ∧ run fft sizes s ls = some t ∧ t.main = .gone) ↔
      s.receiver = .check ∨ s.receiver = .exited ∨ s.token = true := by
  have hvalid := valid_run h
  have hquit : s.quit = true := hvalid.attended.quit.mpr (.inl hmain)
  constructor
  · rintro ⟨ls, t, hall, hrun, hgone⟩
    by_contra hnot
    simp only [not_or, Bool.not_eq_true] at hnot
    have hstuck : s.Stuck :=
      ⟨hmain, hvalid.attended.stopped hquit, hquit, hnot.2.2, hnot.1, hnot.2.1⟩
    have hend : t.Stuck := Run.run_invariant_of_labels
      (fun _ _ _ hl hu huv => stuck_step hu hl huv) hall hrun hstuck
    rw [hend.1] at hgone
    cases hgone
  · intro hready
    obtain ⟨ls, t, hall, hrun, hjoining, hexited⟩ := exists_exited ⟨hmain, hquit, hready⟩
    have hjoin : run fft sizes t [.join] = some { t with main := .gone } := by
      simp [Run.run, step, hjoining, hexited]
    refine ⟨ls ++ [.join], _, ?_, Run.run_join hrun hjoin, rfl⟩
    intro l hl
    rcases List.mem_append.mp hl with hl | hl
    · rw [hall l hl]
      exact nofun
    · rw [List.mem_singleton.mp hl]
      exact nofun

end Runs

section Example

def plusOne : Fft ℕ := ⟨0, List.map (· + 1), by simp⟩

/-- One port is copied in one callback. -/
def copiedOnce : List (Label ℕ ℕ) :=
  [.addPort 0, .insertPort, .beginCycle [(0, [5, 6])], .callback, .callback, .callback, .callback]

def drawnOnce : List (Label ℕ ℕ) :=
  copiedOnce ++ [.receiver, .receiver, .receiver, .poll, .beginRender, .render 1024, .render 1024]

theorem picture_current_drawnOnce :
    ∃ s, run plusOne (fun _ => 1024) (init plusOne) drawnOnce = some s ∧
      ∃ n k, bufsize 1024 ≤ n ∧ s.draws 0 = k + 1 ∧
        s.drawn 0 = some (plusOne.scramble^[k] ([5, 6].take n)) := by
  have hmap : (run plusOne (fun _ => 1024) (init plusOne) drawnOnce).map
      (fun s => ((s.callback, s.main), (s.ring, s.receiver, s.queue, s.renderQueued),
        s.ports, s.heard 0)) =
      some ((.idle, .idle), (0, .draining, 0, false), [0], some [5, 6]) := rfl
  obtain ⟨s, hrun, hfields⟩ := Option.map_eq_some_iff.mp hmap
  simp only [Prod.mk.injEq] at hfields
  obtain ⟨⟨hcallback, hmain⟩, ⟨hring, hreceiver, hqueue, hqueued⟩, hports, hheard⟩ := hfields
  have hrequested : ¬s.Requested := by
    simp [State.Requested, hring, hreceiver, hqueue, hqueued]
  have hport : 0 ∈ s.ports := by simp [hports]
  exact ⟨s, hrun, picture_current hrun hcallback hmain hrequested hport hheard⟩

theorem requests_delivered_copiedOnce :
    ∃ s, run plusOne (fun _ => 1024) (init plusOne) copiedOnce = some s ∧
      ∃ n t, run plusOne (fun _ => 1024) s (List.replicate n .receiver) = some t ∧
        t.ring = 0 ∧ t.queue = 1 := by
  have hmap : (run plusOne (fun _ => 1024) (init plusOne) copiedOnce).map
      (fun s => (s.callback, s.quit, s.queue, s.behind)) = some (.idle, false, 0, 1) := rfl
  obtain ⟨s, hrun, hfields⟩ := Option.map_eq_some_iff.mp hmap
  simp only [Prod.mk.injEq] at hfields
  obtain ⟨hcallback, hquit, hqueue, hbehind⟩ := hfields
  obtain ⟨hall, n, t, ht, hrest⟩ := requests_delivered hrun hcallback hquit
  obtain ⟨hring, hsum⟩ := (hall n t ht).2 hrest
  refine ⟨s, hrun, n, t, ht, hring, ?_⟩
  rw [hsum, hqueue, hbehind]

/-- The receiver has parked before the state is dropped, and is never unparked again. -/
theorem drop_returns_iff_parked :
    ∃ s, run plusOne (fun _ => 1024) (init plusOne)
        ([.receiver, .receiver, .dropState] : List (Label ℕ ℕ)) = some s ∧
      ¬∃ ls t, (∀ l ∈ ls, l ≠ .spurious) ∧ run plusOne (fun _ => 1024) s ls = some t ∧
        t.main = .gone := by
  have hmap : (run plusOne (fun _ => 1024) (init plusOne)
      ([.receiver, .receiver, .dropState] : List (Label ℕ ℕ))).map
      (fun s => (s.main, s.receiver, s.token)) = some (.joining, .parked, false) := rfl
  obtain ⟨s, hrun, hfields⟩ := Option.map_eq_some_iff.mp hmap
  simp only [Prod.mk.injEq] at hfields
  obtain ⟨hmain, hreceiver, htoken⟩ := hfields
  refine ⟨s, hrun, ?_⟩
  rw [drop_returns_iff hrun hmain, hreceiver, htoken]
  decide

end Example

end Jack2.Scope
