import Mathlib.Algebra.Order.Group.Multiset
import Jack2.Delivery

/-!
# The future of `deactivate`

An active client, its notification task and the future that `deactivate` makes of it. The
future may be polled or dropped at any time, the executor may drop the task, a handler may
panic, and the client may be dropped instead; meanwhile libjack runs the callbacks that it
stores from its own threads, until the client is closed. The task and the future are polled
on the same thread.
-/
namespace Jack2.Handback

open Delivery (Channel isData)
open Session (Phase)

variable {P N : Type*}

/-- What an option holds. -/
def bag {α : Type*} : Option α → Multiset α
  | none => 0
  | some a => {a}

@[simp] theorem bag_none {α : Type*} : bag (none : Option α) = 0 := rfl
@[simp] theorem bag_some {α : Type*} (a : α) : bag (some a) = {a} := rfl

/-- The fields of an `ActiveClient`, which are dropped in this order. -/
inductive Field where
  | client | processData | notificationData
  deriving DecidableEq, Repr

/-- What the user has of the client. -/
inductive User (P N : Type*) where
  | active
  /-- The future of `deactivate`, not polled yet. -/
  | future
  /-- Its first poll, behind `_deactivate`. -/
  | deactivated
  /-- The first poll with its local `process`. -/
  | moved (process : Option P)
  /-- The first poll behind `drop(data)`. -/
  | dropped (process : Option P)
  /-- The future, which has found `end_rx` pending. -/
  | awaiting (process : Option P)
  | returned (process : Option P) (notify : Option N)
  /-- The `ActiveClient` is being dropped, down to these fields. -/
  | dropping (fields : List Field)
  | gone
  deriving DecidableEq

/-- The main thread is inside a poll of the future. -/
def User.polling : User P N → Bool
  | .deactivated => true
  | .moved _ => true
  | .dropped _ => true
  | _ => false

/-- The notification task, which owns the handler, the receiver and `end_tx`. -/
inductive Task (N : Type*) where
  | unspawned
  | running (handler : N)
  | finished
  /-- The executor dropped it, or the handler panicked. -/
  | dead
  deriving DecidableEq

structure State (P N : Type*) where
  user : User P N
  /-- What libjack stores, and the boxes that are alive. -/
  world : World Table
  /-- The handler in the box of the process data. -/
  processData : Option P
  /-- The box of the notification data, and in it the sender. -/
  notificationData : Bool
  channel : Channel Notification
  task : Task N
  /-- The handler that was sent to `end_rx`. -/
  oneshot : Option N
  /-- `end_rx` is alive. -/
  receiver : Bool
  /-- The calls of `jack_client_close`. -/
  closes : ℕ
  panicked : Bool
  droppedProcess : Multiset P
  droppedNotify : Multiset N
  /-- The method calls made on the notification handler. -/
  calls : List HandlerCall

inductive Label where
  /-- A notification callback. -/
  | callback (c : ServerCall)
  /-- A callback of the process handler. -/
  | cycle
  | pollTask
  | panicTask
  | dropTask
  /-- The call of the async function. -/
  | deactivate
  /-- A poll of its future begins. The codes are those of the calls of `_deactivate`, where
  they are made. -/
  | poll (answers : Call → Int)
  /-- The next statement of the poll. -/
  | main
  /-- The drop of the client, or of the future. -/
  | drop
  | dropField

/-- The handlers that the client was activated with. -/
def processOf (client : ActiveClient P N) : Option P := client.processData.map (·.value.handler)

def notifyOf (client : ActiveClient P N) : Option N :=
  client.notificationData.map NotificationHandle.handler

/-- The client as `activate` returns it, in the world that it leaves. -/
def init (client : ActiveClient P N) (w : World Table) : State P N where
  user := .active
  world := w
  processData := processOf client
  notificationData := (notifyOf client).isSome
  channel := ⟨[], false⟩
  task := (notifyOf client).elim .unspawned .running
  oneshot := none
  receiver := (notifyOf client).isSome
  closes := 0
  panicked := false
  droppedProcess := 0
  droppedNotify := 0
  calls := []

/-- `Drop for Client`, which ignores what `jack_client_close` returns. -/
def close (client : ActiveClient P N) (w : World Table) : World Table :=
  (w.call (tableJack fun _ => 0) client.client.client .clientClose).2

namespace State

/-- `tx.unbounded_send(n).ok()`, which drops the message if the receiver is gone. -/
def send (s : State P N) (n : Notification) : State P N :=
  match s.task with
  | .running _ => { s with channel := s.channel.unboundedSend n }
  | _ => s

/-- A callback that does not find the notification data sends nothing. -/
def runCallback (sys : Sys) (client : ActiveClient P N) (s : State P N) (c : ServerCall)
    (entry : Entry) : State P N :=
  if isData client s.world entry.arg then (c.sends sys).elim s s.send else s

/-- `end_tx.send(handler).ok()` -/
def finish (s : State P N) (handler : N) : State P N :=
  if s.receiver then { s with task := .finished, oneshot := some handler }
  else { s with task := .finished, droppedNotify := handler ::ₘ s.droppedNotify }

/-- One turn of the loop of the task, or its end. -/
def runTask (s : State P N) (handler : N) : State P N :=
  match s.channel.next with
  | (.ready (some msg), rx) => { s with channel := rx, calls := s.calls ++ [msg.notification] }
  | (.ready none, _) => s.finish handler
  | (.pending, _) => s

/-- The task goes with all that it owns. -/
def killTask (s : State P N) (handler : N) : State P N :=
  { s with
    task := .dead
    channel := { s.channel with queue := [] }
    droppedNotify := handler ::ₘ s.droppedNotify }

/-- `end_rx` is dropped, with the handler if one was sent. -/
def dropReceiver (s : State P N) : State P N :=
  { s with
    receiver := false
    oneshot := none
    droppedNotify := bag s.oneshot + s.droppedNotify }

/-- `process` and the client go, the future is cancelled or unwinds. -/
def dropAwaiting (client : ActiveClient P N) (s : State P N) (process : Option P) : State P N :=
  { s.dropReceiver with
    user := .gone
    world := close client s.world
    closes := s.closes + 1
    droppedProcess := bag process + s.droppedProcess }

/-- `Some(rx.await.unwrap())` -/
def await (client : ActiveClient P N) (s : State P N) (process : Option P) : State P N :=
  match s.oneshot, s.task with
  | some handler, _ =>
    { s with user := .returned process (some handler), oneshot := none, receiver := false }
  | none, .running _ => { s with user := .awaiting process }
  | none, _ => { s.dropAwaiting client process with panicked := true }

/-- `let process = self.process_data.map(|p| p.into_inner().handler);` -/
def moveProcess (client : ActiveClient P N) (s : State P N) : State P N :=
  { s with
    user := .moved s.processData
    world := freeBox (client.processData.map Boxed.ptr) s.world
    processData := none }

/-- `drop(data)`, which closes the channel. Without notification data the future is ready. -/
def dropData (client : ActiveClient P N) (s : State P N) (process : Option P) : State P N :=
  if s.notificationData then
    { s with
      user := .dropped process
      world := freeBox (client.notificationData.map NotificationHandle.ptr) s.world
      notificationData := false
      channel := s.channel.close }
  else { s with user := .returned process none }

def dropField (client : ActiveClient P N) (s : State P N) (fields : List Field) :
    Field → State P N
  | .client =>
    { s with user := .dropping fields, world := close client s.world, closes := s.closes + 1 }
  | .processData =>
    { s with
      user := .dropping fields
      world := freeBox (client.processData.map Boxed.ptr) s.world
      processData := none
      droppedProcess := bag s.processData + s.droppedProcess }
  | .notificationData =>
    { s.dropReceiver with
      user := .dropping fields
      world := freeBox (client.notificationData.map NotificationHandle.ptr) s.world
      notificationData := false
      channel := s.channel.close }

end State

def step (sys : Sys) (client : ActiveClient P N) (s : State P N) : Label → Option (State P N)
  | .callback c => (s.world.jack c.kind).map (s.runCallback sys client c)
  | .cycle => (s.world.jack .process).map fun _ => s
  | .pollTask =>
    match s.user.polling, s.task with
    | false, .running handler => some (s.runTask handler)
    | _, _ => none
  | .panicTask =>
    match s.user.polling, s.task, s.channel.queue with
    | false, .running handler, msg :: _ =>
      some { s.killTask handler with calls := s.calls ++ [msg.notification] }
    | _, _, _ => none
  | .dropTask =>
    match s.user.polling, s.task with
    | false, .running handler => some (s.killTask handler)
    | _, _ => none
  | .deactivate =>
    match s.user with
    | .active => some { s with user := .future }
    | _ => none
  | .poll answers =>
    match s.user with
    | .future =>
      match client._deactivate (tableJack answers) s.world with
      | (.ok (), w) => some { s with user := .deactivated, world := w }
      | (.error _, w) => some { s with user := .active, world := w }
    | .awaiting process => some (s.await client process)
    | _ => none
  | .main =>
    match s.user with
    | .deactivated => some (s.moveProcess client)
    | .moved process => some (s.dropData client process)
    | .dropped process => some (s.await client process)
    | _ => none
  | .drop =>
    match s.user with
    | .active | .future =>
      some { s with user := .dropping [.client, .processData, .notificationData] }
    | .awaiting process => some (s.dropAwaiting client process)
    | _ => none
  | .dropField =>
    match s.user with
    | .dropping (field :: fields) => some (s.dropField client fields field)
    | .dropping [] => some { s with user := .gone }
    | _ => none

abbrev run (sys : Sys) (client : ActiveClient P N) :
    State P N → List Label → Option (State P N) :=
  Run.run (step sys client)

/-- The task dies in the step. -/
def Label.kills : Label → Bool
  | .dropTask | .panicTask => true
  | _ => false

/-- What a step can be. -/
inductive Turn (client : ActiveClient P N) (s : State P N) : Label → State P N → Prop where
  /-- A callback that sends nothing. -/
  | unchanged {l : Label} (hlabel : l.kills = false) : Turn client s l s
  | sent (c : ServerCall) (n : Notification) : Turn client s (.callback c) (s.send n)
  | polledTask {handler : N} (hrunning : s.task = .running handler) :
      Turn client s .pollTask (s.runTask handler)
  | panickedTask {handler : N} (msg : Notification) (hrunning : s.task = .running handler) :
      Turn client s .panicTask { s.killTask handler with calls := s.calls ++ [msg.notification] }
  | droppedTask {handler : N} (hrunning : s.task = .running handler) :
      Turn client s .dropTask (s.killTask handler)
  | begun (huser : s.user = .active) : Turn client s .deactivate { s with user := .future }
  | deactivated (huser : s.user = .future) (answers : Call → Int) (w : World Table)
      (hok : client._deactivate (tableJack answers) s.world = (.ok (), w)) :
      Turn client s (.poll answers) { s with user := .deactivated, world := w }
  | refused (huser : s.user = .future) (answers : Call → Int) (e : Error) (w : World Table)
      (herror : client._deactivate (tableJack answers) s.world = (.error e, w)) :
      Turn client s (.poll answers) { s with user := .active, world := w }
  | movedProcess (huser : s.user = .deactivated) : Turn client s .main (s.moveProcess client)
  | droppedData {p : Option P} (huser : s.user = .moved p) :
      Turn client s .main (s.dropData client p)
  | awaited {l : Label} {p : Option P} (hlabel : l.kills = false)
      (huser : s.user = .dropped p ∨ s.user = .awaiting p) : Turn client s l (s.await client p)
  | cancelled {p : Option P} (huser : s.user = .awaiting p) :
      Turn client s .drop (s.dropAwaiting client p)
  | dropped (huser : s.user = .active ∨ s.user = .future) :
      Turn client s .drop { s with user := .dropping [.client, .processData, .notificationData] }
  | droppedField {field : Field} {fields : List Field}
      (huser : s.user = .dropping (field :: fields)) :
      Turn client s .dropField (s.dropField client fields field)
  | emptied (huser : s.user = .dropping []) : Turn client s .dropField { s with user := .gone }

theorem turn_of_step {client : ActiveClient P N} {sys : Sys} {s t : State P N} {l : Label}
    (hstep : step sys client s l = some t) : Turn client s l t := by
  cases l with
  | callback c =>
    obtain ⟨entry, -, rfl⟩ := Option.map_eq_some_iff.mp hstep
    simp only [State.runCallback]
    split
    · cases c.sends sys with
      | none => exact .unchanged rfl
      | some n => exact .sent c n
    · exact .unchanged rfl
  | cycle =>
    obtain ⟨_, -, rfl⟩ := Option.map_eq_some_iff.mp hstep
    exact .unchanged rfl
  | pollTask =>
    simp only [step] at hstep
    split at hstep
    · cases hstep
      exact .polledTask ‹_›
    · cases hstep
  | panicTask =>
    simp only [step] at hstep
    split at hstep
    · cases hstep
      exact .panickedTask _ ‹_›
    · cases hstep
  | dropTask =>
    simp only [step] at hstep
    split at hstep
    · cases hstep
      exact .droppedTask ‹_›
    · cases hstep
  | deactivate =>
    simp only [step] at hstep
    split at hstep
    · cases hstep
      exact .begun ‹_›
    · cases hstep
  | poll answers =>
    simp only [step] at hstep
    split at hstep
    · rename_i huser
      split at hstep
      · cases hstep
        exact .deactivated huser answers _ ‹_›
      · cases hstep
        exact .refused huser answers _ _ ‹_›
    · cases hstep
      exact .awaited rfl (.inr ‹_›)
    · cases hstep
  | main =>
    simp only [step] at hstep
    split at hstep
    · cases hstep
      exact .movedProcess ‹_›
    · cases hstep
      exact .droppedData ‹_›
    · cases hstep
      exact .awaited rfl (.inl ‹_›)
    · cases hstep
  | drop =>
    simp only [step] at hstep
    split at hstep
    · cases hstep
      exact .dropped (.inl ‹_›)
    · cases hstep
      exact .dropped (.inr ‹_›)
    · cases hstep
      exact .cancelled ‹_›
    · cases hstep
  | dropField =>
    simp only [step] at hstep
    split at hstep
    · cases hstep
      exact .droppedField ‹_›
    · cases hstep
      exact .emptied ‹_›
    · cases hstep

namespace User

/-- The process handler that the future or the user holds. -/
def process : User P N → Option P
  | .moved process => process
  | .dropped process => process
  | .awaiting process => process
  | .returned process _ => process
  | _ => none

def notify : User P N → Option N
  | .returned _ notify => notify
  | _ => none

/-- The box of the process data is there. -/
def hasProcess : User P N → Bool
  | .active | .future | .deactivated => true
  | .dropping fields => .processData ∈ fields
  | _ => false

/-- The box of the notification data is there. -/
def hasNotification : User P N → Bool
  | .active | .future | .deactivated => true
  | .moved _ => true
  | .dropping fields => .notificationData ∈ fields
  | _ => false

/-- The client was closed. -/
def closed : User P N → Bool
  | .dropping fields => .client ∉ fields
  | .gone => true
  | _ => false

/-- A successful deactivation has come to free the boxes. -/
def freed : User P N → Bool
  | .moved _ => true
  | .dropped _ => true
  | .awaiting _ => true
  | .returned _ _ => true
  | _ => false

/-- Nothing was taken out of the `ActiveClient` yet. -/
def Whole (user : User P N) : Prop :=
  user = .active ∨ user = .future ∨ user = .deactivated ∨
    user = .dropping [.client, .processData, .notificationData]

theorem Whole.of_active {user : User P N} (h : user = .active) : user.Whole := .inl h

theorem Whole.of_future {user : User P N} (h : user = .future) : user.Whole := .inr (.inl h)

theorem Whole.fields {user : User P N} (h : user.Whole) :
    user.hasProcess = true ∧ user.hasNotification = true ∧ user.closed = false := by
  obtain rfl | rfl | rfl | rfl := h <;> exact ⟨rfl, rfl, rfl⟩

/-- The boxes that are alive. -/
def boxes (client : ActiveClient P N) (user : User P N) : List BoxPtr :=
  (if user.hasNotification then (client.notificationData.map NotificationHandle.ptr).toList
    else []) ++
    if user.hasProcess then (client.processData.map Boxed.ptr).toList else []

theorem Whole.handlers {user : User P N} (h : user.Whole) :
    user.process = none ∧ user.notify = none := by
  obtain rfl | rfl | rfl | rfl := h <;> exact ⟨rfl, rfl⟩

theorem Whole.boxes {client : ActiveClient P N} {user : User P N} (h : user.Whole) :
    user.boxes client = (Phase.active client).boxes := by
  simp [User.boxes, h.fields, Phase.boxes]

@[simp] theorem process_active : (active : User P N).process = none := rfl
@[simp] theorem process_future : (future : User P N).process = none := rfl
@[simp] theorem process_deactivated : (deactivated : User P N).process = none := rfl
@[simp] theorem process_moved (p : Option P) : (moved p : User P N).process = p := rfl
@[simp] theorem process_dropped (p : Option P) : (dropped p : User P N).process = p := rfl
@[simp] theorem process_awaiting (p : Option P) : (awaiting p : User P N).process = p := rfl
@[simp] theorem process_returned (p : Option P) (n : Option N) : (returned p n).process = p := rfl
@[simp] theorem process_dropping (fields : List Field) :
    (dropping fields : User P N).process = none := rfl
@[simp] theorem process_gone : (gone : User P N).process = none := rfl
@[simp] theorem notify_active : (active : User P N).notify = none := rfl
@[simp] theorem notify_future : (future : User P N).notify = none := rfl
@[simp] theorem notify_deactivated : (deactivated : User P N).notify = none := rfl
@[simp] theorem notify_moved (p : Option P) : (moved p : User P N).notify = none := rfl
@[simp] theorem notify_dropped (p : Option P) : (dropped p : User P N).notify = none := rfl
@[simp] theorem notify_awaiting (p : Option P) : (awaiting p : User P N).notify = none := rfl
@[simp] theorem notify_returned (p : Option P) (n : Option N) : (returned p n).notify = n := rfl
@[simp] theorem notify_dropping (fields : List Field) :
    (dropping fields : User P N).notify = none := rfl
@[simp] theorem notify_gone : (gone : User P N).notify = none := rfl

end User

def Task.handler : Task N → Option N
  | .running handler => some handler
  | _ => none

/-- The process handler, wherever it is. -/
def State.processes (s : State P N) : Multiset P :=
  bag s.processData + bag s.user.process + s.droppedProcess

/-- The notification handler, wherever it is. -/
def State.notifies (s : State P N) : Multiset N :=
  bag s.task.handler + bag s.oneshot + bag s.user.notify + s.droppedNotify
section Example

open Delivery (bindings firstClient firstWorld)

/-- The client of a first activation with both handlers. -/
def first : State ℕ ℕ := init (firstClient 1 2) (firstWorld 1 2)

/-- A notification is queued when the future is polled, and waits for the task. The server
shuts down within the poll. -/
def awaitingRun : List Label :=
  [.callback .xrun, .deactivate, .poll fun _ => 0, .main, .callback .shutdown, .main, .main]

theorem first_history : Session.run (Session.init ⟨1, 1⟩)
    [⟨.activate (some 1) (some 2) ⟨1⟩, fun _ => 0⟩] =
      some (⟨firstWorld 1 2, .active (firstClient 1 2)⟩ : Session.State ℕ ℕ) := rfl

end Example

end Jack2.Handback
