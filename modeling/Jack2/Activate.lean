import Jack2.Callbacks

/-!
# Activation and deactivation

`InactiveClient::activate` with its six gated stages, and the methods of `ActiveClient`.
A `Result` that the source threads by `and_then` and `map` is threaded in the same way
here, so a code that the source drops is dropped.
-/
namespace Jack2

open Checked (andThen)

variable {σ P N : Type*}

/-- The bits of the `bitflags!` type. -/
structure ActivateFlags where
  bits : UInt32
  deriving DecidableEq, Repr

namespace ActivateFlags

def latency : ActivateFlags := ⟨1⟩
def sync : ActivateFlags := ⟨2⟩
def timebase : ActivateFlags := ⟨4⟩
def timebaseForce : ActivateFlags := ⟨8 ||| 4⟩

/-- Every bit of `other` is set. -/
def contains (self other : ActivateFlags) : Bool := self.bits &&& other.bits == other.bits

end ActivateFlags

/-- The address of the triple buffer that an `Arc` points to. -/
abbrev ArcPtr := ℕ

/-- The part of `Client` that activation reads: the handle and the `process_ports`. -/
structure Client where
  client : JackClient
  processPorts : ArcPtr
  deriving DecidableEq, Repr

structure InactiveClient where
  client : Client
  deriving DecidableEq, Repr

structure ProcessData (P : Type*) where
  client : JackClient
  ports : ArcPtr
  handler : P

structure Boxed (α : Type*) where
  ptr : BoxPtr
  value : α

/-- The box of the sender, and the handler that the notification task owns and will
return over the oneshot channel. -/
structure NotificationHandle (N : Type*) where
  ptr : BoxPtr
  handler : N

structure ActiveClient (P N : Type*) where
  client : Client
  processData : Option (Boxed (ProcessData P))
  notificationData : Option (NotificationHandle N)

structure ActivateError (P N : Type*) where
  client : InactiveClient
  processHandler : Option P
  notificationHandler : Option N

structure DeactivateError (P N : Type*) where
  client : ActiveClient P N

section Activate

variable (lib : Libjack σ)

/-- Box the process data and set the callbacks that take it, or clear them. -/
def installProcess (self : Client) (processHandler : Option P) (w : World σ) :
    Option (Boxed (ProcessData P)) × Except Error Unit × World σ :=
  match processHandler with
  | some handler =>
    let box := ⟨w.heap.next, ⟨self.client, self.processPorts, handler⟩⟩
    (some box, setProcessCallbacks lib self.client box.ptr (w.setHeap w.heap.alloc))
  | none => (none, unsetProcessCallbacks lib self.client w)

/-- Only after a success: box the sender and set the callbacks that take it, or clear them. -/
def installNotification (self : Client) (notificationHandler : Option N)
    (r : Except Error Unit × World σ) : Option BoxPtr × Except Error Unit × World σ :=
  match r with
  | (.ok (), w) =>
    match notificationHandler with
    | some _ =>
      let ptr := w.heap.next
      (some ptr, setNotificationCallbacks lib self.client ptr (w.setHeap w.heap.alloc))
    | none => (none, unsetNotificationCallbacks lib self.client w)
  | (.error e, w) => (none, .error e, w)

def installLatency (self : Client) (notificationData : Option BoxPtr) (flags : ActivateFlags)
    (r : Except Error Unit × World σ) : Except Error Unit × World σ :=
  match notificationData with
  | some notification =>
    andThen r fun w =>
      if flags.contains .latency then setLatencyCallback lib self.client notification w
      else unsetLatencyCallback lib self.client w
  | none => r

def installSync (self : Client) (processData : Option (Boxed (ProcessData P)))
    (flags : ActivateFlags) (r : Except Error Unit × World σ) : Except Error Unit × World σ :=
  match processData with
  | some process =>
    andThen r fun w =>
      if flags.contains .sync then setSyncCallback lib self.client process.ptr w
      else unsetSyncCallback lib self.client w
  | none => r

def installTimebase (self : Client) (processData : Option (Boxed (ProcessData P)))
    (flags : ActivateFlags) (r : Except Error Unit × World σ) : Except Error Unit × World σ :=
  match processData with
  | some process =>
    andThen r fun w =>
      if flags.contains .timebase then
        setTimebaseCallback lib self.client (!flags.contains .timebaseForce) process.ptr w
      else (.ok (), w)
  | none => r

/-- `res.map(|_| check_ret(jack_activate(..)))`: the code of `jack_activate` ends up inside
the success of the stages before it. -/
def mapActivate (self : Client) (r : Except Error Unit × World σ) :
    Except Error (Except Error Unit) × World σ :=
  match r with
  | (.ok (), w) =>
    let (ret, w) := w.call lib self.client .activate
    (.ok (checkRet ret), w)
  | (.error e, w) => (.error e, w)

/-- What the error path calls before it gives the client back. -/
def undo (self : Client) (flags : ActivateFlags) (w : World σ) : World σ :=
  let w := if flags.contains .timebase then (w.call lib self.client .releaseTimebase).2 else w
  (w.call lib self.client .deactivate).2

/-- Moving the handler out of a box, or dropping the box, frees it. -/
def freeBox (ptr : Option BoxPtr) (w : World σ) : World σ :=
  match ptr with
  | some p => w.setHeap (w.heap.free p)
  | none => w

@[simp] theorem freeBox_jack (ptr : Option BoxPtr) (w : World σ) :
    (freeBox ptr w).jack = w.jack := by
  cases ptr <;> rfl

def activate (self : InactiveClient) (processHandler : Option P) (notificationHandler : Option N)
    (flags : ActivateFlags) (w : World σ) :
    Except (ActivateError P N) (ActiveClient P N) × World σ :=
  let (processData, r) := installProcess lib self.client processHandler w
  let (notificationData, r) := installNotification lib self.client notificationHandler r
  let r := installLatency lib self.client notificationData flags r
  let r := installSync lib self.client processData flags r
  let r := installTimebase lib self.client processData flags r
  match mapActivate lib self.client r with
  | (.error _, w) =>
    let w := undo lib self.client flags w
    let w := freeBox (processData.map Boxed.ptr) w
    let w := freeBox notificationData w
    (.error ⟨self, processData.map (·.value.handler), notificationHandler⟩, w)
  | (.ok _, w) =>
    match notificationData, notificationHandler with
    | some ptr, some handler =>
      (.ok ⟨self.client, processData, some ⟨ptr, handler⟩⟩, w.spawn)
    | _, _ => (.ok ⟨self.client, processData, none⟩, w)

namespace ActiveClient

def _deactivate (self : ActiveClient P N) (w : World σ) : Except Error Unit × World σ :=
  let (_, w) := w.call lib self.client.client .releaseTimebase
  let (ret, w) := w.call lib self.client.client .deactivate
  (checkRet ret, w)

/-- The handler comes back over the oneshot channel once the sender's box is dropped. -/
def deactivate (self : ActiveClient P N) (w : World σ) :
    Except (DeactivateError P N) (Client × Option P × Option N) × World σ :=
  match self._deactivate lib w with
  | (.error _, w) => (.error ⟨self⟩, w)
  | (.ok (), w) =>
    let process := self.processData.map (·.value.handler)
    let w := freeBox (self.processData.map Boxed.ptr) w
    let notify := self.notificationData.map NotificationHandle.handler
    let w := freeBox (self.notificationData.map NotificationHandle.ptr) w
    (.ok (self.client, process, notify), w)

def registerSyncCallback (self : ActiveClient P N) (w : World σ) : Except Error Unit × World σ :=
  match self.processData with
  | some process => setSyncCallback lib self.client.client process.ptr w
  | none => (.error .invalidOption, w)

def unregisterSyncCallback (self : ActiveClient P N) (w : World σ) :
    Except Error Unit × World σ :=
  unsetSyncCallback lib self.client.client w

def acquireTimebase (self : ActiveClient P N) (force : Bool) (w : World σ) :
    Except Error Unit × World σ :=
  match self.processData with
  | some process => setTimebaseCallback lib self.client.client (!force) process.ptr w
  | none => (.error .invalidOption, w)

def releaseTimebase (self : ActiveClient P N) (w : World σ) : Except Error Unit × World σ :=
  let (ret, w) := w.call lib self.client.client .releaseTimebase
  (checkRet ret, w)

end ActiveClient

end Activate

end Jack2
