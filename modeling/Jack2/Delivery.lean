import Jack2.Dangling
import Jack2.Notification

/-!
# Delivery of notifications

The channel, the notification task and `deactivate`, from the moment the callbacks are set
until the handler is handed back, over the table that libjack stores and the boxes that are
alive. The sender lives in the notification data, which `deactivate` drops after
`jack_deactivate` succeeded. Nothing takes the callbacks that were set with it from the
table, so libjack may run one of them at any time.
-/
namespace Jack2.Delivery

open Run (Throughout Along)
open Session (NoDangling Owns Phase)

variable {α P N : Type*}

/-- An unbounded channel: the messages that are queued, oldest first, and whether its one
sender was dropped. -/
structure Channel (α : Type*) where
  queue : List α
  closed : Bool
  deriving DecidableEq

/-- What polling the receiver's `next` comes to. -/
inductive Poll (α : Type*) where
  | ready (item : Option α)
  | pending

namespace Channel

def unboundedSend (c : Channel α) (a : α) : Channel α := { c with queue := c.queue ++ [a] }

def close (c : Channel α) : Channel α := { c with closed := true }

/-- The receiver yields what is queued, and `none` once the sender is gone as well. -/
def next (c : Channel α) : Poll α × Channel α :=
  match c.queue with
  | a :: rest => (.ready (some a), { c with queue := rest })
  | [] => (if c.closed then .ready none else .pending, c)

end Channel

/-- Where the activation and the deactivation of the client stand. -/
inductive Stage where
  | activating
  | active
  /-- `jack_deactivate` has succeeded. -/
  | deactivated
  /-- The process handler was moved out of its box. -/
  | moved
  /-- The notification data was dropped. -/
  | awaiting
  | handedBack
  deriving DecidableEq, Repr

structure State where
  stage : Stage
  world : World Table
  channel : Channel Notification
  /-- The task has sent the handler back over the oneshot channel. -/
  finished : Bool
  /-- The callbacks that libjack has run, in order. -/
  received : List ServerCall
  /-- The method calls made on the handler. -/
  calls : List HandlerCall

inductive Label where
  | callback (c : ServerCall)
  | activated
  | poll
  | deactivate (answers : Call → Int)
  | moveProcess
  | dropData
  | handBack

/-- The world is the one that `activate` leaves. -/
def init (w : World Table) : State := ⟨.activating, w, ⟨[], false⟩, false, [], []⟩

/-- `&*(arg as *const NotificationData)` is the notification data of this client: the
argument is the address of its box, and the box is alive. -/
def isData (client : ActiveClient P N) (w : World Table) (arg : BoxPtr) : Bool :=
  client.notificationData.map NotificationHandle.ptr = some arg && arg ∈ w.heap.live

/-- A callback that reads anything else sends nothing to this client. -/
def runCallback (sys : Sys) (client : ActiveClient P N) (s : State) (c : ServerCall)
    (entry : Entry) : State :=
  let t := { s with received := s.received ++ [c] }
  if isData client s.world entry.arg then
    match c.sends sys with
    | some n => { t with channel := s.channel.unboundedSend n }
    | none => t
  else t

/-- One turn of `while let Some(msg) = rx.next().await { handler.notification(msg) }`, and
behind the loop `end_tx.send(handler)`. -/
def runTask (s : State) : State :=
  match s.channel.next with
  | (.ready (some msg), rx) => { s with channel := rx, calls := s.calls ++ [msg.notification] }
  | (.ready none, rx) => { s with channel := rx, finished := true }
  | (.pending, rx) => { s with channel := rx }

/-- libjack runs a callback whenever one is stored. `deactivate` is cut where another thread
can run between its statements. -/
def step (sys : Sys) (client : ActiveClient P N) (s : State) : Label → Option State
  | .callback c => (s.world.jack c.kind).map fun entry => runCallback sys client s c entry
  | .activated => if s.stage = .activating then some { s with stage := .active } else none
  | .poll => if s.stage = .activating ∨ s.finished then none else some (runTask s)
  | .deactivate answers =>
    if s.stage = .active then
      match client._deactivate (tableJack answers) s.world with
      | (.ok (), w) => some { s with world := w, stage := .deactivated }
      | (.error _, w) => some { s with world := w }
    else none
  | .moveProcess =>
    if s.stage = .deactivated then
      some { s with stage := .moved, world := freeBox (client.processData.map Boxed.ptr) s.world }
    else none
  | .dropData =>
    if s.stage = .moved then
      some { s with
        stage := .awaiting
        world := freeBox (client.notificationData.map NotificationHandle.ptr) s.world
        channel := s.channel.close }
    else none
  | .handBack =>
    if s.stage = .awaiting ∧ s.finished then some { s with stage := .handedBack } else none

abbrev run (sys : Sys) (client : ActiveClient P N) : State → List Label → Option State :=
  Run.run (step sys client)

/-- The method calls made and those that the queue still stands for. -/
def State.due (s : State) : List HandlerCall := s.calls ++ s.channel.queue.map Notification.notification

/-- The method calls made on the handler, and then those that are still queued, are the
decodings of the callbacks that ran; when it is handed back, none is queued any more. -/
structure Delivered (sys : Sys) (s : State) : Prop where
  due : s.due = s.received.map (ServerCall.decoding sys)
  drained : s.stage = .handedBack → s.channel.queue = []

/-- The condition on a step: a callback runs before `deactivate` has dropped the notification
data. -/
def Undropped (s : State) : Label → Prop
  | .callback _ => s.stage ≠ .awaiting ∧ s.stage ≠ .handedBack
  | _ => True

/-- And it runs with the argument of this activation, not with one that a setter has left
there by returning a positive code. -/
def Current (client : ActiveClient P N) (s : State) : Label → Prop
  | .callback c => ∀ entry, s.world.jack c.kind = some entry →
      some entry.arg = client.notificationData.map NotificationHandle.ptr
  | _ => True

/-- Everything one step can do. -/
inductive Step (sys : Sys) (client : ActiveClient P N) (s : State) : Label → State → Prop where
  | callback (c : ServerCall) (entry : Entry) (hstored : s.world.jack c.kind = some entry) :
      Step sys client s (.callback c) (runCallback sys client s c entry)
  | activated (hstage : s.stage = .activating) :
      Step sys client s .activated { s with stage := .active }
  | poll (hstage : s.stage ≠ .activating) (hrunning : s.finished = false) :
      Step sys client s .poll (runTask s)
  | deactivated (hstage : s.stage = .active) (answers : Call → Int) (w : World Table)
      (hok : client._deactivate (tableJack answers) s.world = (.ok (), w))
      (hheap : w.heap = s.world.heap)
      (hjack : ∀ k, k ≠ .timebase → w.jack k = s.world.jack k) :
      Step sys client s (.deactivate answers) { s with world := w, stage := .deactivated }
  | refused (hstage : s.stage = .active) (answers : Call → Int) (e : Error) (w : World Table)
      (herror : client._deactivate (tableJack answers) s.world = (.error e, w))
      (hheap : w.heap = s.world.heap)
      (hjack : ∀ k, k ≠ .timebase → w.jack k = s.world.jack k) :
      Step sys client s (.deactivate answers) { s with world := w }
  | moveProcess (hstage : s.stage = .deactivated) :
      Step sys client s .moveProcess
        { s with stage := .moved, world := freeBox (client.processData.map Boxed.ptr) s.world }
  | dropData (hstage : s.stage = .moved) :
      Step sys client s .dropData { s with
        stage := .awaiting
        world := freeBox (client.notificationData.map NotificationHandle.ptr) s.world
        channel := s.channel.close }
  | handBack (hstage : s.stage = .awaiting) (hfinished : s.finished = true) :
      Step sys client s .handBack { s with stage := .handedBack }

theorem step_cases {sys : Sys} {client : ActiveClient P N} {s t : State} {l : Label}
    (h : step sys client s l = some t) : Step sys client s l t := by
  cases l with
  | callback c =>
    obtain ⟨entry, hstored, rfl⟩ := Option.map_eq_some_iff.mp h
    exact .callback c entry hstored
  | activated =>
    simp only [step] at h
    split at h <;> cases h
    exact .activated ‹_›
  | poll =>
    simp only [step] at h
    split at h
    · cases h
    · rename_i hready
      cases h
      exact .poll (fun hs => hready (Or.inl hs))
        (Bool.eq_false_iff.mpr fun hf => hready (Or.inr hf))
  | deactivate answers =>
    obtain ⟨-, hheap, -⟩ := Session.deactivate_answers client answers s.world
    have hjack := fun k => Session.deactivate_jack client answers s.world (k := k)
    simp only [step] at h
    split at h
    · rename_i hstage
      split at h
      · rename_i w hok
        rw [hok] at hheap hjack
        cases h
        exact .deactivated hstage answers w hok hheap hjack
      · rename_i e w herror
        rw [herror] at hheap hjack
        cases h
        exact .refused hstage answers e w herror hheap hjack
    · cases h
  | moveProcess =>
    simp only [step] at h
    split at h <;> cases h
    exact .moveProcess ‹_›
  | dropData =>
    simp only [step] at h
    split at h <;> cases h
    exact .dropData ‹_›
  | handBack =>
    simp only [step] at h
    split at h
    · rename_i hready
      cases h
      exact .handBack hready.1 hready.2
    · cases h

section Boxes

variable {client : ActiveClient P N} {s t : State} {l : Label} {sys : Sys}

/-- The boxes alive, as far as `deactivate` has come. -/
def Stage.boxes (client : ActiveClient P N) : Stage → List BoxPtr
  | .activating | .active | .deactivated => (Phase.active client).boxes
  | .moved => (client.notificationData.map NotificationHandle.ptr).toList
  | .awaiting | .handedBack => []

/-- Exactly the boxes that were not freed yet are alive. -/
def Live (client : ActiveClient P N) (s : State) : Prop :=
  s.world.heap.live = s.stage.boxes client

theorem live_init {w : World Table} (h : Owns ⟨w, .active client⟩) : Live client (init w) := h.live

@[simp] theorem runCallback_stage (c : ServerCall) (entry : Entry) :
    (runCallback sys client s c entry).stage = s.stage := by
  simp only [runCallback]
  split
  · split <;> rfl
  · rfl

@[simp] theorem runCallback_world (c : ServerCall) (entry : Entry) :
    (runCallback sys client s c entry).world = s.world := by
  simp only [runCallback]
  split
  · split <;> rfl
  · rfl

@[simp] theorem runTask_stage (s : State) : (runTask s).stage = s.stage := by
  simp only [runTask]
  split <;> rfl

@[simp] theorem runTask_world (s : State) : (runTask s).world = s.world := by
  simp only [runTask]
  split <;> rfl

/-- Moving the process handler out leaves the box of the notification data. -/
theorem freeBox_process {w : World Table} (hnodup : (Phase.active client).boxes.Nodup)
    (hlive : w.heap.live = (Phase.active client).boxes) :
    (freeBox (client.processData.map Boxed.ptr) w).heap.live =
      (client.notificationData.map NotificationHandle.ptr).toList := by
  simp only [Phase.boxes] at hnodup hlive
  cases hp : client.processData <;> cases hn : client.notificationData <;>
    simp_all [freeBox, Heap.free]

theorem freeBox_notification {w : World Table}
    (hlive : w.heap.live = (client.notificationData.map NotificationHandle.ptr).toList) :
    (freeBox (client.notificationData.map NotificationHandle.ptr) w).heap.live = [] := by
  cases hn : client.notificationData <;> simp_all [freeBox, Heap.free]

theorem live_step (hnodup : (Phase.active client).boxes.Nodup) (h : Live client s)
    (hstep : Step sys client s l t) : Live client t := by
  cases hstep with
  | callback c entry hstored => simpa [Live] using h
  | activated hstage => simpa [Live, Stage.boxes, hstage] using h
  | poll hstage hrunning => simpa [Live] using h
  | deactivated hstage answers w hok hheap hjack => simpa [Live, Stage.boxes, hstage, hheap] using h
  | refused hstage answers e w herror hheap hjack => simpa [Live, Stage.boxes, hstage, hheap] using h
  | moveProcess hstage =>
    rw [Live, hstage] at h
    exact freeBox_process hnodup h
  | dropData hstage =>
    rw [Live, hstage] at h
    exact freeBox_notification h
  | handBack hstage hfinished => simpa [Live, Stage.boxes, hstage] using h

/-- An argument is read as the notification data of the client until that is dropped. -/
theorem isData_iff (hnotified : client.notificationData.isSome = true) (h : Live client s)
    {arg : BoxPtr} : isData client s.world arg = true ↔
      (s.stage ≠ .awaiting ∧ s.stage ≠ .handedBack) ∧
        some arg = client.notificationData.map NotificationHandle.ptr := by
  obtain ⟨handle, hhandle⟩ := Option.isSome_iff_exists.mp hnotified
  rw [Live] at h
  simp only [isData, h, hhandle, Option.map_some, Option.some.injEq, Bool.and_eq_true,
    decide_eq_true_eq]
  constructor
  · rintro ⟨rfl, hmem⟩
    refine ⟨⟨?_, ?_⟩, rfl⟩
    · intro hstage
      simp [hstage, Stage.boxes] at hmem
    · intro hstage
      simp [hstage, Stage.boxes] at hmem
  · rintro ⟨⟨hawaiting, hback⟩, rfl⟩
    refine ⟨rfl, ?_⟩
    cases hstage : s.stage with
    | awaiting => exact absurd hstage hawaiting
    | handedBack => exact absurd hstage hback
    | moved => simp [Stage.boxes, hhandle]
    | _ => simp [Stage.boxes, Phase.boxes, hhandle]

end Boxes

section Runs

variable {sys : Sys} {client : ActiveClient P N} {s t : State} {l : Label}

@[simp] theorem runCallback_received (c : ServerCall) (entry : Entry) :
    (runCallback sys client s c entry).received = s.received ++ [c] := by
  simp only [runCallback]
  split
  · split <;> rfl
  · rfl

theorem due_runCallback {c : ServerCall} (h : c.WellFormed sys) {entry : Entry}
    (hdata : isData client s.world entry.arg = true) :
    (runCallback sys client s c entry).due = s.due ++ [c.decoding sys] := by
  obtain ⟨n, hn, hdecoding⟩ := sends_of_wellFormed h
  simp [runCallback, hdata, hn, State.due, Channel.unboundedSend, hdecoding]

/-- The message of a callback that reads a freed box is lost. -/
theorem runCallback_lost (c : ServerCall) {entry : Entry}
    (hdata : isData client s.world entry.arg = false) :
    runCallback sys client s c entry = { s with received := s.received ++ [c] } := by
  simp [runCallback, hdata]

/-- The task loses and reorders nothing. -/
theorem due_runTask (s : State) : (runTask s).due = s.due ∧ (runTask s).received = s.received := by
  cases hq : s.channel.queue with
  | nil =>
    cases hc : s.channel.closed <;>
      simp [runTask, Channel.next, hq, hc, State.due]
  | cons n rest => simp [runTask, Channel.next, hq, State.due]

/-- The task ends only on an empty queue without a sender. -/
structure Drained (s : State) : Prop where
  finished : s.finished = true → s.channel.queue = [] ∧ s.channel.closed = true
  closed : s.channel.closed = true ↔ s.stage = .awaiting ∨ s.stage = .handedBack
  handedBack : s.stage = .handedBack → s.finished = true

theorem drained_init (w : World Table) : Drained (init w) := ⟨nofun, by simp [init], nofun⟩

theorem drained_runTask (h : Drained s) (hrunning : s.finished = false) : Drained (runTask s) := by
  obtain ⟨_, hclosed, hback⟩ := h
  have hnot : s.stage ≠ .handedBack := by
    intro hs
    rw [hback hs] at hrunning
    cases hrunning
  cases hq : s.channel.queue with
  | nil =>
    cases hc : s.channel.closed with
    | true =>
      simp only [runTask, Channel.next, hq, hc, if_true]
      exact ⟨fun _ => ⟨hq, hc⟩, hclosed, fun _ => rfl⟩
    | false =>
      simp only [runTask, Channel.next, hq, hc, Bool.false_eq_true, if_false]
      exact ⟨fun hf => absurd (hf.symm.trans hrunning) (by decide), hclosed, hback⟩
  | cons n rest =>
    simp only [runTask, Channel.next, hq]
    exact ⟨fun hf => absurd (hf.symm.trans hrunning) (by decide), hclosed,
      fun hs => absurd hs hnot⟩

theorem drained_runCallback (h : Drained s) (c : ServerCall) (entry : Entry)
    (hopen : isData client s.world entry.arg = true → s.channel.closed = false) :
    Drained (runCallback sys client s c entry) := by
  cases hdata : isData client s.world entry.arg with
  | false =>
    rw [runCallback_lost c hdata]
    exact ⟨h.finished, h.closed, h.handedBack⟩
  | true =>
    have hrunning : s.finished ≠ true := by
      intro hf
      have := (h.finished hf).2
      simp [hopen hdata] at this
    simp only [runCallback, hdata, if_true]
    split
    · exact ⟨fun hf => absurd hf hrunning, h.closed, h.handedBack⟩
    · exact ⟨fun hf => absurd hf hrunning, h.closed, h.handedBack⟩

/-- What every step keeps. -/
structure Valid (client : ActiveClient P N) (s : State) : Prop where
  live : Live client s
  drained : Drained s

theorem drained_step (hnotified : client.notificationData.isSome = true) (h : Valid client s)
    (hstep : Step sys client s l t) : Drained t := by
  obtain ⟨hlive, hdrained⟩ := h
  have hclosed := hdrained.closed
  cases hstep with
  | callback c entry hstored =>
    refine drained_runCallback hdrained c entry ?_
    intro hdata
    obtain ⟨⟨hawaiting, hback⟩, -⟩ := (isData_iff hnotified hlive).mp hdata
    rw [Bool.eq_false_iff]
    intro hc
    rcases hclosed.mp hc with hs | hs
    · exact hawaiting hs
    · exact hback hs
  | activated hstage => exact ⟨hdrained.finished, by simpa [hstage] using hclosed, nofun⟩
  | poll hstage hrunning => exact drained_runTask hdrained hrunning
  | deactivated hstage answers w hok hheap hjack =>
    exact ⟨hdrained.finished, by simpa [hstage] using hclosed, nofun⟩
  | refused hstage answers e w herror hheap hjack =>
    exact ⟨hdrained.finished, hclosed, hdrained.handedBack⟩
  | moveProcess hstage => exact ⟨hdrained.finished, by simpa [hstage] using hclosed, nofun⟩
  | dropData hstage =>
    exact ⟨fun hf => ⟨(hdrained.finished hf).1, rfl⟩, by simp [Channel.close], nofun⟩
  | handBack hstage hfinished =>
    exact ⟨hdrained.finished, by simpa [hstage] using hclosed, fun _ => hfinished⟩

theorem delivered_init (w : World Table) : Delivered sys (init w) := ⟨rfl, nofun⟩

/-- A step other than a callback changes neither what is due nor what was received. -/
theorem due_step (hstep : Step sys client s l t) (hl : ∀ c, l ≠ .callback c) :
    t.due = s.due ∧ t.received = s.received := by
  cases hstep with
  | callback c entry hstored => exact absurd rfl (hl c)
  | poll hstage hrunning => exact due_runTask s
  | _ => exact ⟨rfl, rfl⟩

/-- A callback is delivered exactly if it reads the notification data. -/
theorem delivered_callback (hnotified : client.notificationData.isSome = true)
    (h : Valid client s) (hs : Delivered sys s) {c : ServerCall} (hwf : c.WellFormed sys)
    (entry : Entry) : Delivered sys (runCallback sys client s c entry) ↔
      isData client s.world entry.arg = true := by
  constructor
  · intro ht
    by_contra hdata
    have hdue := ht.due
    rw [runCallback_lost c (by simpa using hdata)] at hdue
    have hlength := congrArg List.length (hdue.symm.trans hs.due)
    simp at hlength
  · intro hdata
    refine ⟨?_, ?_⟩
    · rw [due_runCallback hwf hdata, hs.due, runCallback_received, List.map_append]
      rfl
    · intro hback
      rw [runCallback_stage] at hback
      exact absurd hback ((isData_iff hnotified h.live).mp hdata).1.2

theorem delivered_step (hnotified : client.notificationData.isSome = true) (h : Valid client s)
    (hs : Delivered sys s) (hwf : ∀ c, l = .callback c → c.WellFormed sys)
    (hstep : Step sys client s l t) (ht : Drained t) :
    Delivered sys t ↔ Undropped s l ∧ Current client s l := by
  by_cases hl : ∃ c, l = .callback c
  · obtain ⟨c, rfl⟩ := hl
    cases hstep with
    | callback _ entry hstored =>
      rw [delivered_callback hnotified h hs (hwf c rfl) entry, isData_iff hnotified h.live]
      simp [Undropped, Current, hstored]
  · obtain ⟨hdue, hreceived⟩ := due_step hstep fun c hc => hl ⟨c, hc⟩
    refine iff_of_true ⟨?_, ?_⟩ ?_
    · rw [hdue, hreceived]
      exact hs.due
    · intro hback
      exact (ht.finished (ht.handedBack hback)).1
    · cases l with
      | callback c => exact absurd ⟨c, rfl⟩ hl
      | _ => exact ⟨trivial, trivial⟩

theorem valid_step (hnotified : client.notificationData.isSome = true)
    (hnodup : (Phase.active client).boxes.Nodup) (h : Valid client s)
    (hstep : Step sys client s l t) : Valid client t :=
  ⟨live_step hnodup h.live hstep, drained_step hnotified h hstep⟩

/-- Once the sender is dropped, polling empties the queue and ends the task. -/
theorem polls_finish (sys : Sys) (client : ActiveClient P N) {s : State} (hstage : s.stage = .awaiting)
    (hclosed : s.channel.closed = true) (hrunning : s.finished = false) :
    ∃ t, run sys client s (List.replicate (s.channel.queue.length + 1) .poll) = some t ∧
      t.finished = true ∧ t.stage = .awaiting := by
  have hpoll : ∀ s : State, s.stage = .awaiting → s.finished = false →
      step sys client s .poll = some (runTask s) := by
    intro s hs hf
    simp [step, hs, hf]
  generalize hlen : s.channel.queue.length = n
  induction n generalizing s with
  | zero =>
    have hq := List.length_eq_zero_iff.mp hlen
    refine ⟨{ s with finished := true }, ?_, rfl, hstage⟩
    simp [hpoll s hstage hrunning, runTask, Channel.next, hq, hclosed]
  | succ n ih =>
    obtain ⟨msg, rest, hq⟩ := List.exists_cons_of_length_eq_add_one hlen
    have htask : runTask s = { s with
        channel := { s.channel with queue := rest }, calls := s.calls ++ [msg.notification] } := by
      simp [runTask, Channel.next, hq]
    have hrest : rest.length = n := by
      rw [hq, List.length_cons] at hlen
      omega
    obtain ⟨t, ht, hdone⟩ := ih (s := runTask s) (by simp [htask, hstage])
      (by simp [htask, hclosed]) (by simp [htask, hrunning]) (by simp [htask, hrest])
    refine ⟨t, ?_, hdone⟩
    rw [List.replicate_succ, run, Run.run_cons, hpoll s hstage hrunning]
    exact ht

/-- A deactivation that waits for the handler gets it. -/
theorem awaiting_handedBack (h : Drained s) (hstage : s.stage = .awaiting) : ∃ n t,
    run sys client s (List.replicate n .poll ++ [.handBack]) = some t ∧ t.stage = .handedBack := by
  have hhand : ∀ t : State, t.finished = true → t.stage = .awaiting →
      run sys client t [.handBack] = some { t with stage := .handedBack } := by
    intro t hf hs
    simp [step, hf, hs]
  cases hf : s.finished with
  | true => exact ⟨0, _, hhand s hf hstage, rfl⟩
  | false =>
    obtain ⟨t, ht, hdone, hs⟩ := polls_finish sys client hstage (h.closed.mpr (Or.inl hstage)) hf
    exact ⟨_, _, Run.run_join ht (hhand t hdone hs), rfl⟩

end Runs

section Session

variable {sys : Sys} {client : ActiveClient P N} {s t : State} {l : Label}

/-- The world once `deactivate` has freed what it still has to free. -/
def State.settled (client : ActiveClient P N) (s : State) : World Table :=
  match s.stage with
  | .deactivated =>
    freeBox (client.notificationData.map NotificationHandle.ptr)
      (freeBox (client.processData.map Boxed.ptr) s.world)
  | .moved => freeBox (client.notificationData.map NotificationHandle.ptr) s.world
  | _ => s.world

def State.phase (client : ActiveClient P N) (s : State) : Phase P N :=
  match s.stage with
  | .activating | .active => .active client
  | _ => .deactivated client.client

theorem session_step (hstep : Step sys client s l t) : ∃ ds : List (Session.Label P N),
    Session.run ⟨s.settled client, s.phase client⟩ ds =
      some ⟨t.settled client, t.phase client⟩ := by
  cases hstep with
  | callback c entry hstored => exact ⟨[], by simp [State.settled, State.phase]⟩
  | activated hstage => exact ⟨[], by simp [State.settled, State.phase, hstage]⟩
  | poll hstage hrunning => exact ⟨[], by simp [State.settled, State.phase]⟩
  | deactivated hstage answers w hok hheap hjack =>
    refine ⟨[⟨.deactivate, answers⟩], ?_⟩
    simp only [State.settled, State.phase, hstage, Run.run_cons, Session.step_deactivate_ok hok]
    rfl
  | refused hstage answers e w herror hheap hjack =>
    refine ⟨[⟨.deactivate, answers⟩], ?_⟩
    simp only [State.settled, State.phase, hstage, Run.run_cons,
      Session.step_deactivate_error herror]
    rfl
  | moveProcess hstage => exact ⟨[], by simp [State.settled, State.phase, hstage]⟩
  | dropData hstage => exact ⟨[], by simp [State.settled, State.phase, hstage]⟩
  | handBack hstage hfinished => exact ⟨[], by simp [State.settled, State.phase, hstage]⟩

/-- In every run libjack and the boxes are where the same deactivations of a session leave
them. -/
theorem session_run {ls : List Label} (hrun : run sys client s ls = some t) :
    ∃ ds : List (Session.Label P N), Session.run ⟨s.settled client, s.phase client⟩ ds =
      some ⟨t.settled client, t.phase client⟩ := by
  induction ls generalizing s with
  | nil =>
    cases hrun
    exact ⟨[], rfl⟩
  | cons l ls ih =>
    obtain ⟨u, hu, hrest⟩ := Run.run_cons_some hrun
    obtain ⟨ds, hds⟩ := session_step (step_cases hu)
    obtain ⟨es, hes⟩ := ih hrest
    exact ⟨ds ++ es, Run.run_join hds hes⟩

end Session

section Activation

variable {inner : Client} {history : List (Session.Label P N)} {s₀ : Session.State P N}
  {process : Option P} {handler : N} {flags : ActivateFlags} {answers : Call → Int}
  {w : World Table} {client : ActiveClient P N}

/-- The client that a successful activation makes, and the table that it leaves. -/
theorem activated_of_step
    (hactivate : Session.step s₀ ⟨.activate process (some handler) flags, answers⟩ =
      some ⟨w, .active client⟩) :
    client.notificationData.map NotificationHandle.ptr =
        notificationBox process (some handler) s₀.world ∧
      w.jack = effects answers (settersOf process (some handler) flags s₀.world) s₀.world.jack := by
  cases hphase : s₀.phase with
  | active c => simp [Session.step, hphase] at hactivate
  | deactivated c => simp [Session.step, hphase] at hactivate
  | inactive c =>
    cases Session.activate_cases hphase hactivate with
    | activated c' hphase' _ _ _ _ _ hpass hheap hjack => exact ⟨rfl, hjack⟩
    | keep c' hphase' =>
      rw [hphase] at hphase'
      cases hphase'

/-- It has notification data, and the boxes of the client are alive. -/
theorem owns_of_activate (hhistory : Session.run (Session.init inner) history = some s₀)
    (hactivate : Session.step s₀ ⟨.activate process (some handler) flags, answers⟩ =
      some ⟨w, .active client⟩) :
    client.notificationData.isSome = true ∧ Owns ⟨w, .active client⟩ := by
  refine ⟨?_, Session.owns_step (Session.owns_run hhistory) (Session.step_cases hactivate)⟩
  have hbox := congrArg Option.isSome (activated_of_step hactivate).1
  rw [Option.isSome_map] at hbox
  exact hbox

theorem activationTable_callback {p n : Option BoxPtr} (c : ServerCall) {entry : Entry}
    (h : activationTable p n flags c.kind = some entry) : n = some entry.arg := by
  cases c with
  | latency mode =>
    simp only [ServerCall.kind, activationTable] at h
    split at h
    · exact entry_arg h
    · cases h
  | _ => exact entry_arg h

/-- What libjack stores for the callbacks carries the argument of this activation. -/
def Stored (client : ActiveClient P N) (s : State) : Prop :=
  ∀ (c : ServerCall) (entry : Entry), s.world.jack c.kind = some entry →
    some entry.arg = client.notificationData.map NotificationHandle.ptr

/-- Every setter that returned zero took effect. -/
theorem stored_init (hanswers : ∀ c, answers c = 0)
    (hactivate : Session.step s₀ ⟨.activate process (some handler) flags, answers⟩ =
      some ⟨w, .active client⟩) : Stored client (init w) := by
  intro c entry hentry
  obtain ⟨hbox, hjack⟩ := activated_of_step hactivate
  obtain rfl : answers = fun _ => 0 := funext hanswers
  have hmem : c.kind ∈ setterKinds (processBox process s₀.world).isSome
      (notificationBox process (some handler) s₀.world).isSome (flags.contains .timebase) := by
    rw [mem_setterKinds]
    cases c <;> simp [ServerCall.kind, notificationBox]
  simp only [init, hjack, settersOf, effects_setters, hmem, if_true] at hentry
  rw [hbox, activationTable_callback c hentry]

theorem stored_step {sys : Sys} {s t : State} {l : Label} (h : Stored client s)
    (hstep : Step sys client s l t) : Stored client t := by
  cases hstep with
  | callback c entry hstored => simpa [Stored] using h
  | poll hstage hrunning => simpa [Stored] using h
  | deactivated hstage answers w hok hheap hjack =>
    intro c entry hentry
    exact h c entry ((hjack _ c.kind_ne_timebase).symm.trans hentry)
  | refused hstage answers e w herror hheap hjack =>
    intro c entry hentry
    exact h c entry ((hjack _ c.kind_ne_timebase).symm.trans hentry)
  | moveProcess hstage => simpa [Stored] using h
  | dropData hstage => simpa [Stored] using h
  | activated hstage => exact h
  | handBack hstage hfinished => exact h

end Activation

/-- Whatever runs between the activation and the handing back, all notifications are delivered
in order exactly if every callback runs before `deactivate` drops the notification data, with
the argument of this activation; where all setters returned zero it always has that
argument; and a deactivation that waits for the handler gets it. -/
theorem delivery_iff_undropped {sys : Sys} {inner : Client} {history : List (Session.Label P N)}
    {s₀ : Session.State P N} (hhistory : Session.run (Session.init inner) history = some s₀)
    {process : Option P} {handler : N} {flags : ActivateFlags} {answers : Call → Int}
    {w : World Table} {client : ActiveClient P N}
    (hactivate : Session.step s₀ ⟨.activate process (some handler) flags, answers⟩ =
      some ⟨w, .active client⟩)
    {ls : List Label} {s : State} (hwf : ∀ c, Label.callback c ∈ ls → c.WellFormed sys)
    (hrun : run sys client (init w) ls = some s) :
    (Throughout (Delivered sys) (step sys client) (init w) ls ↔
      Along (fun s l => Undropped s l ∧ Current client s l) (step sys client) (init w) ls) ∧
    ((∀ c, answers c = 0) → (Throughout (Delivered sys) (step sys client) (init w) ls ↔
      Along Undropped (step sys client) (init w) ls)) ∧
    (s.stage = .awaiting → ∃ n t,
      run sys client s (List.replicate n .poll ++ [.handBack]) = some t ∧
        t.stage = .handedBack) := by
  obtain ⟨hnotified, howns⟩ := owns_of_activate hhistory hactivate
  have hvalid : ∀ s l t, Valid client s → step sys client s l = some t → Valid client t :=
    fun _ _ _ h hstep => valid_step hnotified howns.nodup h (step_cases hstep)
  have hinit : Valid client (init w) := ⟨live_init howns, drained_init w⟩
  have hiff : Throughout (Delivered sys) (step sys client) (init w) ls ↔
      Along (fun s l => Undropped s l ∧ Current client s l) (step sys client) (init w) ls := by
    have hkeep : ∀ s l t, (∀ c, l = .callback c → c.WellFormed sys) → Valid client s →
        Delivered sys s → step sys client s l = some t →
          (Delivered sys t ↔ Undropped s l ∧ Current client s l) :=
      fun s l t hl hv hd hstep => delivered_step hnotified hv hd hl (step_cases hstep)
        (hvalid s l t hv hstep).drained
    have hlabels : ∀ l ∈ ls, ∀ c, l = .callback c → c.WellFormed sys :=
      fun l hl c hc => hwf c (hc ▸ hl)
    exact Run.throughout_iff_along_of_labels (fun s l t _ hv _ _ => hvalid s l t hv) hkeep hlabels
      hrun hinit (delivered_init w)
  refine ⟨hiff, ?_, ?_⟩
  · intro hanswers
    rw [hiff]
    refine Run.along_iff (fun _ _ _ h hstep => stored_step h (step_cases hstep)) ?_ ls
      (stored_init hanswers hactivate)
    intro s l hstored
    cases l with
    | callback c => exact and_iff_left fun entry => hstored c entry
    | _ => exact and_iff_left trivial
  · intro hstage
    exact awaiting_handedBack (Run.run_invariant hvalid hrun hinit).drained hstage

section Example

/-- A number for each constant of the bindings. -/
def bindings : Sys := ⟨0, 1, 0, 1, 2⟩

/-- A first activation, with both handlers and `LATENCY`, all of whose calls return zero. -/
def firstClient (process : P) (handler : N) : ActiveClient P N :=
  activated ⟨⟨1, 1⟩⟩ (some process) (some handler) (Session.init ⟨1, 1⟩ : Session.State P N).world

def firstWorld (process : P) (handler : N) : World Table :=
  (activate (tableJack fun _ => 0) ⟨⟨1, 1⟩⟩ (some process) (some handler) ⟨1⟩
    (Session.init ⟨1, 1⟩ : Session.State P N).world).2

theorem first_activate (process : P) (handler : N) : Session.step (Session.init ⟨1, 1⟩)
    ⟨.activate (some process) (some handler) ⟨1⟩, fun _ => 0⟩ =
      some ⟨firstWorld process handler, .active (firstClient process handler)⟩ := rfl

/-- Callbacks before `activate` returns, while the client is active, and while it is being
deactivated, with each kind of property change. -/
def deliveredRun : List Label :=
  [.callback (.bufferSize 64), .callback (.propertyChange 5 none 0), .activated,
    .callback (.clientRegistration ⟨[97], by decide⟩ 0), .callback (.latency 1), .poll,
    .deactivate fun _ => 0, .callback (.propertyChange 5 none 1), .moveProcess,
    .callback (.propertyChange 5 none 2), .dropData, .poll, .poll, .poll, .poll, .poll, .poll,
    .handBack]

theorem delivery_iff_undropped_deliveredRun :
    ∃ s, run bindings (firstClient () ()) (init (firstWorld () ())) deliveredRun = some s ∧
      s.stage = .handedBack ∧
      s.calls = [.bufferSize 64, .propertyChange ⟨5⟩ none .created,
        .clientUnregister ⟨[97], by decide⟩, .latency .playback,
        .propertyChange ⟨5⟩ none .changed, .propertyChange ⟨5⟩ none .deleted] ∧
      (Throughout (Delivered bindings) (step bindings (firstClient () ()))
          (init (firstWorld () ())) deliveredRun ↔
        Along Undropped (step bindings (firstClient () ())) (init (firstWorld () ()))
          deliveredRun) := by
  have hmap : (run bindings (firstClient () ()) (init (firstWorld () ())) deliveredRun).map
      (fun s => (s.stage, s.calls)) = some (.handedBack, [.bufferSize 64,
        .propertyChange ⟨5⟩ none .created, .clientUnregister ⟨[97], by decide⟩,
        .latency .playback, .propertyChange ⟨5⟩ none .changed,
        .propertyChange ⟨5⟩ none .deleted]) := rfl
  obtain ⟨s, hs, hfacts⟩ := Option.map_eq_some_iff.mp hmap
  obtain ⟨hstage, hcalls⟩ := Prod.mk.inj hfacts
  have hwf : ∀ c, Label.callback c ∈ deliveredRun → c.WellFormed bindings := by
    intro c hc
    simp only [deliveredRun, List.mem_cons, Label.callback.injEq, reduceCtorEq, false_or,
      List.not_mem_nil, or_false] at hc
    rcases hc with rfl | rfl | rfl | rfl | rfl | rfl
    · trivial
    · exact (by decide : (5 : UInt64) ≠ 0)
    · trivial
    · exact Or.inr rfl
    · exact (by decide : (5 : UInt64) ≠ 0)
    · exact (by decide : (5 : UInt64) ≠ 0)
  have hfirst : Session.run (Session.init ⟨1, 1⟩) [] =
      some (Session.init ⟨1, 1⟩ : Session.State Unit Unit) := rfl
  obtain ⟨_, hzero, _⟩ := delivery_iff_undropped hfirst (first_activate () ()) hwf hs
  exact ⟨s, hs, hstage, hcalls, hzero fun _ => rfl⟩

/-- The server shuts down while the future waits for the task. -/
def lostRun : List Label :=
  [.callback .xrun, .activated, .deactivate fun _ => 0, .moveProcess, .dropData,
    .callback .shutdown, .poll, .poll, .handBack]

theorem lostRun_not_delivered :
    ∃ s, run bindings (firstClient () ()) (init (firstWorld () ())) lostRun = some s ∧
      s.stage = .handedBack ∧ s.received = [.xrun, .shutdown] ∧ s.calls = [.xrun] ∧ ¬ Delivered bindings s := by
  refine ⟨_, rfl, rfl, rfl, rfl, ?_⟩
  intro h
  cases h.due

end Example

end Jack2.Delivery
