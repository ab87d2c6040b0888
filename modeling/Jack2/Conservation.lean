import Jack2.Handback

/-!
# The handlers of a client that is deactivated

No step loses or doubles a handler, and what is left of the client, its data and its channels
follows from how far the user has come.
-/
namespace Jack2.Handback

open Delivery (Channel)

variable {P N : Type*}

/-- Neither handler is lost or doubled. -/
structure Conserved (process : Option P) (notify : Option N) (s : State P N) : Prop where
  process : s.processes = bag process
  notify : s.notifies = bag notify

/-- What the client, its data and the channels are, as far as the user has come. -/
structure Staged (process : Option P) (notify : Option N) (s : State P N) : Prop where
  fields : ∀ fields, s.user = .dropping fields →
    fields <:+ [.client, .processData, .notificationData]
  closes : s.closes = s.user.closed.toNat
  processData : s.processData = if s.user.hasProcess then process else none
  notificationData : s.notificationData = (notify.isSome && s.user.hasNotification)
  channel : notify.isSome = true → s.channel.closed = !s.user.hasNotification
  receiver : s.user.hasNotification = true → s.receiver = notify.isSome
  moved : ∀ p, s.user = .moved p → p = process
  awaiting : ∀ p, s.user = .dropped p ∨ s.user = .awaiting p → p = process ∧ s.receiver = true
  returned : ∀ p n, s.user = .returned p n → p = process ∧ n = notify
  sent : s.task = .finished → s.receiver = true → s.oneshot.isSome = true
  panicked : s.panicked = true → s.user = .gone

theorem conserved_init (client : ActiveClient P N) (w : World Table) :
    Conserved (processOf client) (notifyOf client) (init client w) := by
  constructor
  · simp [State.processes, init]
  · cases h : notifyOf client <;> simp [State.notifies, init, h, User.notify, Task.handler]

theorem staged_init (client : ActiveClient P N) (w : World Table) :
    Staged (processOf client) (notifyOf client) (init client w) where
  fields := by simp [init]
  closes := rfl
  processData := rfl
  notificationData := by simp [init, User.hasNotification]
  channel := fun _ => rfl
  receiver := fun _ => rfl
  moved := by simp [init]
  awaiting := by simp [init]
  returned := by simp [init]
  sent := by cases h : notifyOf client <;> simp [init, h]
  panicked := by simp [init]

section Conserved

variable {client : ActiveClient P N} {process : Option P} {notify : Option N} {s : State P N}

theorem bag_eq_zero {α : Type*} {o : Option α} : bag o = 0 ↔ o = none := by
  cases o <;> simp

/-- While the task has the notification handler, nothing else has it. -/
theorem Conserved.one {handler : N} (h : Conserved process notify s)
    (hrunning : s.task = .running handler) :
    s.oneshot = none ∧ s.user.notify = none ∧ s.droppedNotify = 0 ∧ notify = some handler := by
  have hall := h.notify
  rw [State.notifies, hrunning, add_assoc, add_assoc] at hall
  cases notify with
  | none => simp [Task.handler] at hall
  | some handler' =>
    simp only [Task.handler, bag_some, Multiset.singleton_add] at hall
    obtain ⟨rfl, hrest⟩ := (Multiset.singleton_eq_cons_iff _).mp hall.symm
    rw [← Multiset.card_eq_zero, Multiset.card_add, Multiset.card_add, Nat.add_eq_zero_iff,
      Nat.add_eq_zero_iff, Multiset.card_eq_zero, Multiset.card_eq_zero, Multiset.card_eq_zero,
      bag_eq_zero, bag_eq_zero] at hrest
    exact ⟨hrest.1, hrest.2.1, hrest.2.2, rfl⟩

theorem Conserved.frame {t : State P N} (h : Conserved process notify s)
    (hdata : t.processData = s.processData) (hprocess : t.user.process = s.user.process)
    (hdropped : t.droppedProcess = s.droppedProcess) (htask : t.task.handler = s.task.handler)
    (honeshot : t.oneshot = s.oneshot) (hnotify : t.user.notify = s.user.notify)
    (hlost : t.droppedNotify = s.droppedNotify) : Conserved process notify t := by
  constructor
  · rw [State.processes, hdata, hprocess, hdropped]
    exact h.process
  · rw [State.notifies, htask, honeshot, hnotify, hlost]
    exact h.notify

theorem conserved_send (h : Conserved process notify s) (n : Notification) :
    Conserved process notify (s.send n) := by
  simp only [State.send]
  split
  · exact h.frame rfl rfl rfl rfl rfl rfl rfl
  · exact h

theorem conserved_finish {handler : N} (h : Conserved process notify s)
    (hrunning : s.task = .running handler) : Conserved process notify (s.finish handler) := by
  obtain ⟨hone, huser, hdropped, rfl⟩ := h.one hrunning
  simp only [State.finish]
  split
  · exact ⟨h.process, by simp [State.notifies, Task.handler, huser, hdropped]⟩
  · exact ⟨h.process, by simp [State.notifies, Task.handler, hone, huser, hdropped]⟩

theorem conserved_runTask {handler : N} (h : Conserved process notify s)
    (hrunning : s.task = .running handler) : Conserved process notify (s.runTask handler) := by
  simp only [State.runTask]
  split
  · exact h.frame rfl rfl rfl rfl rfl rfl rfl
  · exact conserved_finish h hrunning
  · exact h

theorem conserved_killTask {handler : N} (h : Conserved process notify s)
    (hrunning : s.task = .running handler) : Conserved process notify (s.killTask handler) := by
  obtain ⟨hone, huser, hdropped, rfl⟩ := h.one hrunning
  refine ⟨h.process, ?_⟩
  simp [State.notifies, State.killTask, Task.handler, hone, huser, hdropped]

theorem notifies_dropReceiver (s : State P N) : s.dropReceiver.notifies = s.notifies := by
  simp only [State.notifies, State.dropReceiver, bag_none, add_zero]
  ac_rfl

/-- What the drop of the future keeps, where the process handler is its local. -/
theorem conserved_dropAwaiting (h : Conserved process notify s) {p : Option P}
    (huser : s.user.process = p) (hnone : s.user.notify = none) :
    Conserved process notify (s.dropAwaiting client p) := by
  constructor
  · rw [← h.process]
    simp only [State.processes, huser, State.dropAwaiting, State.dropReceiver, User.process_gone,
      bag_none, add_zero, add_assoc]
  · rw [← h.notify, ← notifies_dropReceiver s]
    simp [State.notifies, State.dropAwaiting, State.dropReceiver, hnone]

theorem conserved_await (h : Conserved process notify s) {p : Option P}
    (huser : s.user.process = p) (hnone : s.user.notify = none) :
    Conserved process notify (s.await client p) := by
  have hprocess := h.process
  have hnotify := h.notify
  rw [State.processes, huser] at hprocess
  simp only [State.await]
  split
  · rename_i handler hone
    constructor
    · exact hprocess
    · rw [← hnotify]
      simp only [State.notifies, hone, hnone, User.notify_returned, bag_none, bag_some, add_zero]
  · constructor
    · exact hprocess
    · rw [← hnotify]
      simp [State.notifies, hnone]
  · have hdropped : Conserved process notify (s.dropAwaiting client p) :=
      conserved_dropAwaiting h huser hnone
    exact hdropped.frame rfl rfl rfl rfl rfl rfl rfl

theorem conserved_moveProcess (h : Conserved process notify s) (huser : s.user = .deactivated) :
    Conserved process notify (s.moveProcess client) := by
  have hprocess := h.process
  simp only [State.processes, huser, User.process_deactivated, bag_none, add_zero] at hprocess
  constructor
  · simpa [State.processes, State.moveProcess] using hprocess
  · rw [← h.notify]
    simp [State.notifies, State.moveProcess, huser]

theorem conserved_dropData (h : Conserved process notify s) {p : Option P}
    (huser : s.user = .moved p) : Conserved process notify (s.dropData client p) := by
  simp only [State.dropData]
  split
  · exact h.frame rfl (by simp [huser]) rfl rfl rfl (by simp [huser]) rfl
  · exact h.frame rfl (by simp [huser]) rfl rfl rfl (by simp [huser]) rfl

theorem conserved_dropField (h : Conserved process notify s) {field : Field} {fields : List Field}
    (huser : s.user = .dropping (field :: fields)) :
    Conserved process notify (s.dropField client fields field) := by
  have hprocess := h.process
  have hnotify := h.notify
  simp only [State.processes, huser, User.process_dropping, bag_none, add_zero] at hprocess
  cases field with
  | client =>
    exact h.frame rfl (by simp [State.dropField, huser]) rfl rfl rfl
      (by simp [State.dropField, huser]) rfl
  | processData =>
    constructor
    · simpa [State.processes, State.dropField] using hprocess
    · simpa [State.notifies, State.dropField, huser] using hnotify
  | notificationData =>
    constructor
    · simpa [State.processes, State.dropField, State.dropReceiver] using hprocess
    · rw [← hnotify, ← notifies_dropReceiver s]
      simp [State.notifies, State.dropField, State.dropReceiver, huser]

/-- The value of the user goes from one form to another, and is whole before and after. -/
theorem Conserved.turn {user : User P N} {w : World Table} (h : Conserved process notify s)
    (hfrom : s.user.Whole) (hto : user.Whole) :
    Conserved process notify { s with user, world := w } :=
  h.frame rfl (hto.handlers.1.trans hfrom.handlers.1.symm) rfl rfl rfl
    (hto.handlers.2.trans hfrom.handlers.2.symm) rfl

/-- Every step moves the handlers or leaves them. -/
theorem conserved_step {t : State P N} {l : Label} (h : Conserved process notify s)
    (hturn : Turn client s l t) : Conserved process notify t := by
  cases hturn with
  | unchanged _ => exact h
  | sent _ n => exact conserved_send h n
  | polledTask hrunning => exact conserved_runTask h hrunning
  | panickedTask _ hrunning =>
    exact (conserved_killTask h hrunning).frame rfl rfl rfl rfl rfl rfl rfl
  | droppedTask hrunning => exact conserved_killTask h hrunning
  | begun huser => exact h.turn (.of_active huser) (.inr (.inl rfl))
  | deactivated huser _ _ _ => exact h.turn (.of_future huser) (.inr (.inr (.inl rfl)))
  | refused huser _ _ _ _ => exact h.turn (.of_future huser) (.inl rfl)
  | movedProcess huser => exact conserved_moveProcess h huser
  | droppedData huser => exact conserved_dropData h huser
  | awaited _ huser =>
    obtain huser | huser := huser
    · exact conserved_await h (by simp [huser]) (by simp [huser])
    · exact conserved_await h (by simp [huser]) (by simp [huser])
  | cancelled huser => exact conserved_dropAwaiting h (by simp [huser]) (by simp [huser])
  | dropped huser => exact h.turn (huser.elim .of_active .of_future) (.inr (.inr (.inr rfl)))
  | droppedField huser => exact conserved_dropField h huser
  | emptied huser => exact h.frame rfl (by simp [huser]) rfl rfl rfl (by simp [huser]) rfl

end Conserved

section Staged

variable {client : ActiveClient P N} {process : Option P} {notify : Option N} {s : State P N}

/-- The task and the callbacks leave the user's side alone. -/
theorem Staged.frame {t : State P N} (h : Staged process notify s) (huser : t.user = s.user)
    (hcloses : t.closes = s.closes) (hdata : t.processData = s.processData)
    (hnotification : t.notificationData = s.notificationData)
    (hreceiver : t.receiver = s.receiver) (hclosed : t.channel.closed = s.channel.closed)
    (hpanicked : t.panicked = s.panicked)
    (hsent : t.task = .finished → t.receiver = true → t.oneshot.isSome = true) :
    Staged process notify t where
  fields := by rw [huser]; exact h.fields
  closes := by rw [hcloses, huser, h.closes]
  processData := by rw [hdata, huser]; exact h.processData
  notificationData := by rw [hnotification, huser]; exact h.notificationData
  channel := by rw [hclosed, huser]; exact h.channel
  receiver := by rw [hreceiver, huser]; exact h.receiver
  moved := by rw [huser]; exact h.moved
  awaiting := by rw [huser, hreceiver]; exact h.awaiting
  returned := by rw [huser]; exact h.returned
  sent := hsent
  panicked := by rw [huser, hpanicked]; exact h.panicked

theorem staged_send (h : Staged process notify s) (n : Notification) :
    Staged process notify (s.send n) := by
  simp only [State.send]
  split
  · exact h.frame rfl rfl rfl rfl rfl rfl rfl h.sent
  · exact h

theorem staged_finish {handler : N} (h : Staged process notify s) :
    Staged process notify (s.finish handler) := by
  simp only [State.finish]
  split
  · exact h.frame rfl rfl rfl rfl rfl rfl rfl (fun _ _ => rfl)
  · rename_i hgone
    exact h.frame rfl rfl rfl rfl rfl rfl rfl (fun _ halive => absurd halive hgone)

theorem next_closed (c : Channel Notification) : c.next.2.closed = c.closed := by
  simp only [Channel.next]
  split <;> rfl

theorem staged_runTask {handler : N} (h : Staged process notify s)
    (hrunning : s.task = .running handler) : Staged process notify (s.runTask handler) := by
  have hclosed := next_closed s.channel
  simp only [State.runTask]
  split
  · rename_i msg rx hnext
    rw [hnext] at hclosed
    exact h.frame rfl rfl rfl rfl rfl hclosed rfl (by simp [hrunning])
  · exact staged_finish h
  · exact h

theorem staged_killTask (h : Staged process notify s) (handler : N) :
    Staged process notify (s.killTask handler) :=
  h.frame rfl rfl rfl rfl rfl rfl rfl nofun

/-- Nothing is left of the client's data. -/
structure Freed (notify : Option N) (s : State P N) : Prop where
  processData : s.processData = none
  notificationData : s.notificationData = false
  channel : notify.isSome = true → s.channel.closed = true

theorem Staged.freed (h : Staged process notify s) (hprocess : s.user.hasProcess = false)
    (hnotification : s.user.hasNotification = false) : Freed notify s where
  processData := by simp [h.processData, hprocess]
  notificationData := by simp [h.notificationData, hnotification]
  channel := by simpa [hnotification] using h.channel

theorem Staged.gone (hfreed : Freed notify s) (huser : s.user = .gone) (hcloses : s.closes = 1)
    (hsent : s.task = .finished → s.receiver = true → s.oneshot.isSome = true) :
    Staged process notify s where
  fields := by simp [huser]
  closes := by rw [huser, hcloses]; rfl
  processData := by simp [hfreed.processData, huser, User.hasProcess]
  notificationData := by simp [hfreed.notificationData, huser, User.hasNotification]
  channel := by simpa [huser, User.hasNotification] using hfreed.channel
  receiver := by simp [huser, User.hasNotification]
  moved := by simp [huser]
  awaiting := by simp [huser]
  returned := by simp [huser]
  sent := hsent
  panicked := fun _ => huser

theorem not_panicked (h : Staged process notify s) (huser : s.user ≠ .gone) :
    s.panicked = false := by
  by_contra hpanicked
  exact huser (h.panicked (by simpa using hpanicked))

/-- The handler that was sent is the one that was given. -/
theorem sent_handler {handler : N} (hnotify : s.notifies = bag notify)
    (hone : s.oneshot = some handler) : notify = some handler := by
  have hmem : handler ∈ s.notifies := by simp [State.notifies, hone]
  rw [hnotify] at hmem
  cases notify with
  | none => simp at hmem
  | some handler' =>
    rw [bag_some, Multiset.mem_singleton] at hmem
    rw [hmem]

theorem staged_cancelled (h : Staged process notify s) {p : Option P}
    (huser : s.user = .dropped p ∨ s.user = .awaiting p) :
    Staged process notify (s.dropAwaiting client p) := by
  have hcloses : s.closes = 0 := by
    obtain huser | huser := huser <;> simp [h.closes, huser, User.closed]
  have hfreed : Freed notify s := by
    obtain huser | huser := huser <;>
      exact h.freed (by simp [huser, User.hasProcess]) (by simp [huser, User.hasNotification])
  refine .gone ⟨hfreed.processData, hfreed.notificationData, hfreed.channel⟩ rfl ?_ nofun
  simp [State.dropAwaiting, hcloses]

theorem staged_await (hconserved : Conserved process notify s) (h : Staged process notify s)
    {p : Option P} (huser : s.user = .dropped p ∨ s.user = .awaiting p) :
    Staged process notify (s.await client p) := by
  obtain ⟨rfl, hreceiver⟩ := h.awaiting p huser
  have hcloses : s.closes = 0 := by
    obtain huser | huser := huser <;> simp [h.closes, huser, User.closed]
  obtain ⟨hprocess, hdata, hclosed⟩ : Freed notify s := by
    obtain huser | huser := huser <;>
      exact h.freed (by simp [huser, User.hasProcess]) (by simp [huser, User.hasNotification])
  have hpanicked : s.panicked = false := by
    obtain huser | huser := huser <;> exact not_panicked h (by simp [huser])
  have hcancelled : Staged p notify (s.dropAwaiting client p) := staged_cancelled h huser
  simp only [State.await]
  split
  · rename_i handler hone
    constructor
    · simp
    · exact hcloses
    · exact hprocess
    · simpa [User.hasNotification] using hdata
    · exact hclosed
    · simp [User.hasNotification]
    · simp
    · simp
    · simp [sent_handler hconserved.notify hone]
    · simp
    · simp [hpanicked]
  · constructor
    · simp
    · exact hcloses
    · exact hprocess
    · simpa [User.hasNotification] using hdata
    · exact hclosed
    · simp [User.hasNotification]
    · simp
    · simp [hreceiver]
    · simp
    · exact h.sent
    · simp [hpanicked]
  · refine .gone ⟨?_, ?_, ?_⟩ rfl hcancelled.closes nofun
    · exact hprocess
    · exact hdata
    · exact hclosed

theorem staged_moveProcess (h : Staged process notify s) (huser : s.user = .deactivated) :
    Staged process notify (s.moveProcess client) := by
  have hprocess : s.processData = process := by simpa [huser, User.hasProcess] using h.processData
  have hdata := h.notificationData
  have hchannel := h.channel
  have hreceiver := h.receiver
  have hpanicked := not_panicked h (by simp [huser])
  rw [huser] at hdata hchannel hreceiver
  constructor
  · simp [State.moveProcess]
  · exact h.closes.trans (by rw [huser]; rfl)
  · rfl
  · exact hdata
  · exact hchannel
  · exact hreceiver
  · simp [State.moveProcess, hprocess]
  · simp [State.moveProcess]
  · simp [State.moveProcess]
  · exact h.sent
  · simp [State.moveProcess, hpanicked]

theorem staged_dropData (h : Staged process notify s) {p : Option P} (huser : s.user = .moved p) :
    Staged process notify (s.dropData client p) := by
  obtain rfl := h.moved p huser
  have hprocess : s.processData = none := by simpa [huser, User.hasProcess] using h.processData
  have hcloses : s.closes = 0 := by simp [h.closes, huser, User.closed]
  have hdata : s.notificationData = notify.isSome := by
    simpa [huser, User.hasNotification] using h.notificationData
  have hreceiver := h.receiver (by simp [huser, User.hasNotification])
  have hpanicked := not_panicked h (by simp [huser])
  simp only [State.dropData]
  split
  · rename_i hnotified
    rw [hdata] at hnotified
    constructor
    · simp
    · exact hcloses
    · exact hprocess
    · simp [User.hasNotification]
    · exact fun _ => rfl
    · simp [User.hasNotification]
    · simp
    · simp [hreceiver, hnotified]
    · simp
    · exact h.sent
    · simp [hpanicked]
  · rename_i hnone
    obtain rfl : notify = none := by simpa [hdata] using hnone
    constructor
    · simp
    · exact hcloses
    · exact hprocess
    · simp [hdata]
    · simp
    · simp [User.hasNotification]
    · simp
    · simp
    · simp
    · exact h.sent
    · simp [hpanicked]

theorem Staged.turn {user : User P N} {w : World Table} (h : Staged process notify s)
    (hfrom : s.user.Whole) (hto : user.Whole) :
    Staged process notify { s with user, world := w } := by
  have hp : user.hasProcess = s.user.hasProcess := hto.fields.1.trans hfrom.fields.1.symm
  have hn : user.hasNotification = s.user.hasNotification :=
    hto.fields.2.1.trans hfrom.fields.2.1.symm
  have hc : user.closed = s.user.closed := hto.fields.2.2.trans hfrom.fields.2.2.symm
  have hpanicked : s.panicked = false := by
    apply not_panicked h
    intro huser
    rw [huser] at hfrom
    cases hfrom.fields.1
  constructor
  · intro fields hfields
    obtain rfl | rfl | rfl | rfl := hto <;> cases hfields
    exact List.suffix_refl _
  · rw [hc]; exact h.closes
  · rw [hp]; exact h.processData
  · rw [hn]; exact h.notificationData
  · rw [hn]; exact h.channel
  · rw [hn]; exact h.receiver
  · obtain rfl | rfl | rfl | rfl := hto <;> simp
  · obtain rfl | rfl | rfl | rfl := hto <;> simp
  · obtain rfl | rfl | rfl | rfl := hto <;> simp
  · exact h.sent
  · simp [hpanicked]

/-- The fields that are still to be dropped. -/
theorem fields_cases {fields : List Field} {field : Field}
    (h : (field :: fields) <:+ [.client, .processData, .notificationData]) :
    (field = .client ∧ fields = [.processData, .notificationData]) ∨
    (field = .processData ∧ fields = [.notificationData]) ∨
    (field = .notificationData ∧ fields = []) := by
  simpa [List.suffix_cons_iff] using h

theorem staged_dropField (h : Staged process notify s) {field : Field} {fields : List Field}
    (huser : s.user = .dropping (field :: fields)) :
    Staged process notify (s.dropField client fields field) := by
  have hpanicked := not_panicked h (by simp [huser])
  obtain ⟨hfields, hcloses, hprocess, hdata, hchannel, hreceiver, _, _, _, hsent, _⟩ := h
  have hsuffix := hfields _ huser
  rw [huser] at hcloses hprocess hdata hchannel hreceiver
  obtain ⟨rfl, rfl⟩ | ⟨rfl, rfl⟩ | ⟨rfl, rfl⟩ := fields_cases hsuffix
  · constructor
    · simp [State.dropField, List.suffix_cons_iff]
    · simp [State.dropField, User.closed, hcloses]
    · simpa [State.dropField, User.hasProcess] using hprocess
    · simpa [State.dropField, User.hasNotification] using hdata
    · simpa [State.dropField, User.hasNotification] using hchannel
    · simpa [State.dropField, User.hasNotification] using hreceiver
    · simp [State.dropField]
    · simp [State.dropField]
    · simp [State.dropField]
    · exact hsent
    · simp [State.dropField, hpanicked]
  · constructor
    · simp [State.dropField, List.suffix_cons_iff]
    · simpa [State.dropField, User.closed] using hcloses
    · rfl
    · simpa [State.dropField, User.hasNotification] using hdata
    · simpa [State.dropField, User.hasNotification] using hchannel
    · simpa [State.dropField, User.hasNotification] using hreceiver
    · simp [State.dropField]
    · simp [State.dropField]
    · simp [State.dropField]
    · exact hsent
    · simp [State.dropField, hpanicked]
  · constructor
    · simp [State.dropField]
    · simpa [State.dropField, State.dropReceiver, User.closed] using hcloses
    · simpa [State.dropField, State.dropReceiver, User.hasProcess] using hprocess
    · simp [State.dropField, User.hasNotification]
    · exact fun _ => rfl
    · simp [State.dropField, User.hasNotification]
    · simp [State.dropField]
    · simp [State.dropField]
    · simp [State.dropField]
    · exact nofun
    · simp [State.dropField, State.dropReceiver, hpanicked]

/-- One case for each turn. -/
theorem staged_step {t : State P N} {l : Label} (hconserved : Conserved process notify s)
    (h : Staged process notify s) (hturn : Turn client s l t) : Staged process notify t := by
  cases hturn with
  | unchanged _ => exact h
  | sent _ n => exact staged_send h n
  | polledTask hrunning => exact staged_runTask h hrunning
  | @panickedTask handler _ _ =>
    exact (staged_killTask h handler).frame rfl rfl rfl rfl rfl rfl rfl nofun
  | droppedTask _ => exact staged_killTask h _
  | begun huser => exact h.turn (.of_active huser) (.inr (.inl rfl))
  | deactivated huser _ _ _ => exact h.turn (.of_future huser) (.inr (.inr (.inl rfl)))
  | refused huser _ _ _ _ => exact h.turn (.of_future huser) (.inl rfl)
  | movedProcess huser => exact staged_moveProcess h huser
  | droppedData huser => exact staged_dropData h huser
  | awaited _ huser => exact staged_await hconserved h huser
  | cancelled huser => exact staged_cancelled h (.inr huser)
  | dropped huser => exact h.turn (huser.elim .of_active .of_future) (.inr (.inr (.inr rfl)))
  | droppedField huser => exact staged_dropField h huser
  | emptied huser =>
    obtain ⟨hprocess, hdata, hchannel⟩ :=
      h.freed (by simp [huser, User.hasProcess]) (by simp [huser, User.hasNotification])
    refine .gone ⟨hprocess, hdata, hchannel⟩ rfl ?_ h.sent
    simp [h.closes, huser, User.closed]

end Staged

section Runs

variable {sys : Sys} {client : ActiveClient P N} {w : World Table} {s t : State P N}
  {ls : List Label}

/-- What every step keeps of the handlers. -/
structure Valid (client : ActiveClient P N) (s : State P N) : Prop where
  conserved : Conserved (processOf client) (notifyOf client) s
  staged : Staged (processOf client) (notifyOf client) s

theorem valid_step {l : Label} (h : Valid client s) (hstep : step sys client s l = some t) :
    Valid client t :=
  ⟨conserved_step h.conserved (turn_of_step hstep),
    staged_step h.conserved h.staged (turn_of_step hstep)⟩

theorem valid_init (client : ActiveClient P N) (w : World Table) : Valid client (init client w) :=
  ⟨conserved_init client w, staged_init client w⟩

theorem valid_run (hrun : run sys client (init client w) ls = some s) : Valid client s :=
  Run.run_invariant (fun _ _ _ => valid_step) hrun (valid_init client w)

end Runs

end Jack2.Handback
