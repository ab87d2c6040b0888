import Jack2.Conservation

/-!
# What the future of `deactivate` comes to

A poll of the future that gets as far as `end_rx` panics where the notification task died, is
ready where the task has ended, and waits while it runs.
-/
namespace Jack2.Handback

open Delivery (Channel bindings firstClient firstWorld)

variable {P N : Type*}

section Deactivate

variable {sys : Sys} {client : ActiveClient P N} {w : World Table} {s t : State P N}
  {ls : List Label}

/-- What a poll of `end_rx` comes to. -/
theorem await_cases (client : ActiveClient P N) (s : State P N) (p : Option P) :
    (∃ handler, s.oneshot = some handler ∧
      (s.await client p).user = .returned p (some handler) ∧
      (s.await client p).panicked = s.panicked) ∨
    (s.oneshot = none ∧ (∃ handler, s.task = .running handler) ∧
      (s.await client p).user = .awaiting p ∧ (s.await client p).panicked = s.panicked) ∨
    (s.oneshot = none ∧ (∀ handler, s.task ≠ .running handler) ∧
      (s.await client p).user = .gone ∧ (s.await client p).panicked = true) := by
  simp only [State.await]
  split
  · rename_i handler hone
    exact Or.inl ⟨handler, hone, rfl, rfl⟩
  · rename_i handler hone hrunning
    exact Or.inr (Or.inl ⟨hone, ⟨handler, hrunning⟩, rfl, rfl⟩)
  · rename_i hone hother
    exact Or.inr (Or.inr ⟨hone, hother, rfl, rfl⟩)

@[simp] theorem task_await (s : State P N) (p : Option P) : (s.await client p).task = s.task := by
  simp only [State.await]
  split <;> rfl

theorem oneshot_await (s : State P N) (p : Option P) :
    (s.await client p).oneshot = s.oneshot ∨ (s.await client p).oneshot = none := by
  simp only [State.await]
  split
  · exact Or.inr rfl
  · exact Or.inl rfl
  · exact Or.inr rfl

theorem task_dropData (client : ActiveClient P N) (s : State P N) (p : Option P) :
    (s.dropData client p).task = s.task ∧ (s.dropData client p).oneshot = s.oneshot := by
  simp only [State.dropData]
  split <;> exact ⟨rfl, rfl⟩

/-- What a step can do to the task and to the oneshot channel. -/
inductive TaskStep (s t : State P N) (l : Label) : Prop where
  | kept (htask : t.task = s.task) (hone : t.oneshot = s.oneshot ∨ t.oneshot = none)
      (hlabel : l.kills = false)
  | finished (handler : N) (hrunning : s.task = .running handler) (htask : t.task = .finished)
      (hlabel : l = .pollTask)
  | dead (handler : N) (hrunning : s.task = .running handler) (htask : t.task = .dead)
      (hone : t.oneshot = s.oneshot) (hlabel : l.kills = true)

/-- The task ends only in a poll of its own, and dies only where it is dropped or panics. -/
theorem task_step {l : Label} (hstep : step sys client s l = some t) : TaskStep s t l := by
  cases turn_of_step hstep with
  | unchanged hlabel => exact .kept rfl (Or.inl rfl) hlabel
  | sent c n =>
    simp only [State.send]
    split
    · exact .kept rfl (Or.inl rfl) rfl
    · exact .kept rfl (Or.inl rfl) rfl
  | @polledTask handler hrunning =>
    simp only [State.runTask]
    split
    · exact .kept rfl (Or.inl rfl) rfl
    · refine .finished handler hrunning ?_ rfl
      simp only [State.finish]
      split <;> rfl
    · exact .kept rfl (Or.inl rfl) rfl
  | panickedTask _ hrunning => exact .dead _ hrunning rfl rfl rfl
  | droppedTask hrunning => exact .dead _ hrunning rfl rfl rfl
  | begun _ => exact .kept rfl (Or.inl rfl) rfl
  | deactivated _ _ _ _ => exact .kept rfl (Or.inl rfl) rfl
  | refused _ _ _ _ _ => exact .kept rfl (Or.inl rfl) rfl
  | movedProcess _ => exact .kept rfl (Or.inl rfl) rfl
  | droppedData _ =>
    obtain ⟨htask, hone⟩ := task_dropData client s _
    exact .kept htask (Or.inl hone) rfl
  | awaited hlabel _ => exact .kept (task_await s _) (oneshot_await s _) hlabel
  | cancelled _ => exact .kept rfl (Or.inr rfl) rfl
  | dropped _ => exact .kept rfl (Or.inl rfl) rfl
  | @droppedField field _ _ =>
    cases field with
    | client => exact .kept rfl (Or.inl rfl) rfl
    | processData => exact .kept rfl (Or.inl rfl) rfl
    | notificationData => exact .kept rfl (Or.inr rfl) rfl
  | emptied _ => exact .kept rfl (Or.inl rfl) rfl

/-- The steps in which the task dies. -/
def killed (ls : List Label) : Prop := .dropTask ∈ ls ∨ .panicTask ∈ ls

theorem killed_cons {l : Label} : killed (l :: ls) ↔ l.kills = true ∨ killed ls := by
  cases l <;> simp [killed, Label.kills]

theorem killed_run (hrun : run sys client s ls = some t) :
    (t.task = .dead ↔ s.task = .dead ∨ killed ls) ∧ (t.task = .unspawned ↔ s.task = .unspawned) := by
  induction ls generalizing s with
  | nil =>
    cases hrun
    simp [killed]
  | cons l ls ih =>
    obtain ⟨u, hu, hrest⟩ := Run.run_cons_some hrun
    obtain ⟨hdead, hunspawned⟩ := ih hrest
    rw [hdead, hunspawned, killed_cons]
    cases task_step hu with
    | kept htask hone hlabel => simp [htask, hlabel]
    | finished handler hrunning htask hlabel => simp [htask, hrunning, hlabel, Label.kills]
    | dead handler hrunning htask hone hlabel => simp [htask, hrunning, hlabel]

/-- Only the task that has ended has sent its handler. -/
theorem sent_run (hrun : run sys client (init client w) ls = some s) :
    s.oneshot.isSome = true → s.task = .finished := by
  have hkeeps : ∀ (s : State P N) l t,
      Valid client s ∧ (s.oneshot.isSome = true → s.task = .finished) →
      step sys client s l = some t →
      Valid client t ∧ (t.oneshot.isSome = true → t.task = .finished) := by
    rintro s l t ⟨hvalid, hsent⟩ hstep
    refine ⟨valid_step hvalid hstep, ?_⟩
    intro hone
    cases task_step hstep with
    | kept htask hsame hlabel =>
      obtain hsame | hnone := hsame
      · rw [htask]
        exact hsent (hsame ▸ hone)
      · simp [hnone] at hone
    | finished handler hrunning htask hlabel => exact htask
    | dead handler hrunning htask hsame hlabel =>
      rw [hsame, (hvalid.conserved.one hrunning).1] at hone
      cases hone
  exact (Run.run_invariant hkeeps hrun ⟨valid_init client w, by simp [init]⟩).2

/-- The labels of the rest of a poll that has got this far, or of a whole one. -/
def User.rest (answers : Call → Int) : User P N → List Label
  | .future => [.poll answers, .main, .main, .main]
  | .deactivated => [.main, .main, .main]
  | .moved _ => [.main, .main]
  | .dropped _ => [.main]
  | .awaiting _ => [.poll answers]
  | _ => []

/-- The poll comes to `end_rx`: `jack_deactivate` has succeeded, or succeeds in it. -/
def Due (s : State P N) (answers : Call → Int) : Prop :=
  s.user.rest answers ≠ [] ∧ (s.user = .future → 0 ≤ answers .deactivate)

/-- From `s` to the poll of `end_rx` the statements leave the task and the oneshot alone. -/
def Awaits (sys : Sys) (client : ActiveClient P N) (s : State P N) (ls : List Label) : Prop :=
  ∃ u : State P N, run sys client s ls = some (u.await client (processOf client)) ∧
    u.oneshot = s.oneshot ∧ u.task = s.task ∧ u.panicked = s.panicked

theorem awaits_cons {u : State P N} {l : Label} (hstep : step sys client s l = some u)
    (hone : u.oneshot = s.oneshot) (htask : u.task = s.task) (hpanicked : u.panicked = s.panicked)
    (h : Awaits sys client u ls) : Awaits sys client s (l :: ls) := by
  obtain ⟨v, hrun, hone', htask', hpanicked'⟩ := h
  refine ⟨v, ?_, hone'.trans hone, htask'.trans htask, hpanicked'.trans hpanicked⟩
  rw [run, Run.run_cons, hstep]
  exact hrun

theorem awaits_dropped (huser : s.user = .dropped (processOf client)) :
    Awaits sys client s [.main] := ⟨s, by simp [run, step, huser], rfl, rfl, rfl⟩

theorem awaits_moved (huser : s.user = .moved (processOf client))
    (hdata : s.notificationData = true) : Awaits sys client s [.main, .main] := by
  have hstep : step sys client s .main = some { s with
      user := .dropped (processOf client)
      world := freeBox (client.notificationData.map NotificationHandle.ptr) s.world
      notificationData := false
      channel := s.channel.close } := by
    simp [step, huser, State.dropData, hdata]
  exact awaits_cons hstep rfl rfl rfl (awaits_dropped rfl)

theorem awaits_deactivated (huser : s.user = .deactivated)
    (hprocess : s.processData = processOf client) (hdata : s.notificationData = true) :
    Awaits sys client s [.main, .main, .main] := by
  have hstep : step sys client s .main = some (s.moveProcess client) := by simp [step, huser]
  exact awaits_cons hstep rfl rfl rfl (awaits_moved (by simp [State.moveProcess, hprocess]) hdata)

theorem awaits_future {answers : Call → Int} (huser : s.user = .future)
    (hprocess : s.processData = processOf client) (hdata : s.notificationData = true)
    (hcode : 0 ≤ answers .deactivate) :
    Awaits sys client s [.poll answers, .main, .main, .main] := by
  have hok := (Session.deactivate_answers client answers s.world).1
  rw [checkRet_of_nonneg hcode] at hok
  have hstep : step sys client s (.poll answers) = some { s with
      user := .deactivated
      world := (client._deactivate (tableJack answers) s.world).2 } := by
    simp only [step, huser]
    rw [← Prod.eta (client._deactivate (tableJack answers) s.world), hok]
  exact awaits_cons hstep rfl rfl rfl (awaits_deactivated rfl hprocess hdata)

/-- The rest of such a poll is one of `end_rx`. -/
theorem rest_awaits (sys : Sys) {handler : N} {answers : Call → Int}
    (hstaged : Staged (processOf client) (some handler) s) (hdue : Due s answers) :
    Awaits sys client s (s.user.rest answers) ∧
      (s.user.hasNotification = true ∨ s.receiver = true) ∧ s.user ≠ .gone := by
  obtain ⟨hrest, hcode⟩ := hdue
  have hprocess := hstaged.processData
  have hdata := hstaged.notificationData
  cases huser : s.user with
  | future =>
    simp only [huser, User.hasProcess, User.hasNotification] at hprocess hdata
    exact ⟨awaits_future huser hprocess hdata (hcode huser), Or.inl rfl, by simp⟩
  | deactivated =>
    simp only [huser, User.hasProcess, User.hasNotification] at hprocess hdata
    exact ⟨awaits_deactivated huser hprocess hdata, Or.inl rfl, by simp⟩
  | moved p =>
    obtain rfl := hstaged.moved p huser
    simp only [huser, User.hasNotification] at hdata
    exact ⟨awaits_moved huser hdata, Or.inl rfl, by simp⟩
  | dropped p =>
    obtain ⟨rfl, hreceiver⟩ := hstaged.awaiting p (Or.inl huser)
    exact ⟨awaits_dropped huser, Or.inr hreceiver, by simp⟩
  | awaiting p =>
    obtain ⟨rfl, hreceiver⟩ := hstaged.awaiting p (Or.inr huser)
    exact ⟨⟨s, by simp [run, step, huser, User.rest], rfl, rfl, rfl⟩, Or.inr hreceiver, by simp⟩
  | active => simp [huser, User.rest] at hrest
  | returned p n => simp [huser, User.rest] at hrest
  | dropping fields => simp [huser, User.rest] at hrest
  | gone => simp [huser, User.rest] at hrest

/-- Wherever a poll stands that comes to `end_rx`, its rest panics exactly if the task was
dropped or its handler panicked, is ready with both handlers exactly if the task has ended, and
is pending exactly while the task runs. -/
theorem deactivate_panics_iff {handle : NotificationHandle N}
    (hhandle : client.notificationData = some handle)
    (hrun : run sys client (init client w) ls = some s) {answers : Call → Int}
    (hdue : Due s answers) :
    ∃ t, run sys client s (s.user.rest answers) = some t ∧
      (t.panicked = true ↔ killed ls) ∧
      (t.user = .returned (processOf client) (some handle.handler) ↔ s.task = .finished) ∧
      (t.user = .awaiting (processOf client) ↔ ∃ handler, s.task = .running handler) := by
  obtain ⟨hconserved, hstaged⟩ := valid_run hrun
  obtain ⟨hdead, hunspawned⟩ := killed_run hrun
  have hnotify : notifyOf client = some handle.handler := by simp [notifyOf, hhandle]
  rw [hnotify] at hconserved hstaged
  have hspawned : s.task ≠ .unspawned := by simp [hunspawned, init, hnotify]
  have hkilled : s.task = .dead ↔ killed ls := by simp [hdead, init, hnotify]
  obtain ⟨⟨u, hpoll, hone, htask, hpanicked⟩, halive, hhere⟩ := rest_awaits sys hstaged hdue
  have hfresh := not_panicked hstaged hhere
  have hreceiver : s.receiver = true := halive.elim hstaged.receiver id
  refine ⟨_, hpoll, ?_⟩
  rw [← hkilled]
  obtain ⟨handler, hsome, huser, hsame⟩ | ⟨hnone, ⟨handler, hrunning⟩, huser, hsame⟩ |
    ⟨hnone, hother, huser, hpanic⟩ := await_cases client u (processOf client)
  · rw [hone] at hsome
    have hfinished := sent_run hrun (by simp [hsome])
    obtain rfl : handle.handler = handler := Option.some.inj (sent_handler hconserved.notify hsome)
    simp [huser, hsame, hpanicked, hfresh, hfinished]
  · rw [htask] at hrunning
    simp [huser, hsame, hpanicked, hfresh, hrunning]
  · rw [htask] at hother
    rw [hone] at hnone
    have hunfinished : s.task ≠ .finished := by
      intro hfinished
      have := hstaged.sent hfinished hreceiver
      simp [hnone] at this
    have hisDead : s.task = .dead := by
      cases hcase : s.task with
      | unspawned => exact absurd hcase hspawned
      | running handler => exact absurd hcase (hother handler)
      | finished => exact absurd hcase hunfinished
      | dead => rfl
    simp [huser, hpanic, hisDead]

theorem deactivate_panics_iff_dropTask :
    ∃ s t : State ℕ ℕ, run bindings (firstClient 1 2) first (awaitingRun ++ [.dropTask]) = some s ∧
      run bindings (firstClient 1 2) s [.poll fun _ => 0] = some t ∧ t.panicked = true := by
  have hmap : (run bindings (firstClient 1 2) first (awaitingRun ++ [.dropTask])).map State.user =
      some (.awaiting (some 1)) := rfl
  obtain ⟨s, hrun, huser⟩ := Option.map_eq_some_iff.mp hmap
  have hdue : Due s fun _ => 0 := by simp [Due, huser, User.rest]
  obtain ⟨t, hpoll, hpanic, _, _⟩ := deactivate_panics_iff rfl hrun hdue
  rw [huser] at hpoll
  exact ⟨s, t, hrun, hpoll, hpanic.mpr (Or.inl (by simp))⟩

/-- Polls of the task dispatch the queue in order. -/
theorem drain_run (sys : Sys) (client : ActiveClient P N) {handler : N} (queue : List Notification)
    {s : State P N} (hpolling : s.user.polling = false) (hrunning : s.task = .running handler)
    (hqueue : s.channel.queue = queue) :
    run sys client s (List.replicate queue.length .pollTask) =
      some { s with
        channel := { s.channel with queue := [] }
        calls := s.calls ++ queue.map Notification.notification } := by
  induction queue generalizing s with
  | nil =>
    obtain ⟨user, world, data, notification, ⟨queue, closed⟩, rest⟩ := s
    cases hqueue
    simp
  | cons msg queue ih =>
    have hstep : step sys client s .pollTask = some { s with
        channel := { s.channel with queue }
        calls := s.calls ++ [msg.notification] } := by
      simp [step, hpolling, hrunning, State.runTask, Channel.next, hqueue]
    have hrest := ih (s := { s with
      channel := { s.channel with queue }
      calls := s.calls ++ [msg.notification] }) hpolling hrunning rfl
    rw [List.length_cons, List.replicate_succ, run, Run.run_cons, hstep, Option.bind_some]
    exact hrest.trans (by simp)

/-- On an empty queue without a sender the task hands its handler to the future. -/
theorem finish_run (sys : Sys) (client : ActiveClient P N) {handler : N} {p : Option P}
    {s : State P N} (huser : s.user = .awaiting p) (hrunning : s.task = .running handler)
    (hqueue : s.channel.queue = []) (hclosed : s.channel.closed = true)
    (hreceiver : s.receiver = true) (answers : Call → Int) :
    ∃ t, run sys client s [.pollTask, .poll answers] = some t ∧
      t.user = .returned p (some handler) ∧ t.calls = s.calls := by
  have hfinish : s.runTask handler = { s with task := .finished, oneshot := some handler } := by
    simp [State.runTask, Channel.next, hqueue, hclosed, State.finish, hreceiver]
  have hpoll : step sys client s .pollTask = some (s.runTask handler) := by
    simp [step, huser, hrunning, User.polling]
  refine ⟨({ s with task := .finished, oneshot := some handler } : State P N).await client p, ?_,
    rfl, rfl⟩
  rw [run, Run.run_cons, hpoll, hfinish]
  simp [step, huser]

/-- While the task is alive, polls of it make the future ready with both handlers, after the
whole queue was dispatched. -/
theorem deactivate_completes {handle : NotificationHandle N}
    (hhandle : client.notificationData = some handle)
    (hrun : run sys client (init client w) ls = some s) {p : Option P}
    (huser : s.user = .awaiting p) {handler : N} (hrunning : s.task = .running handler)
    (answers : Call → Int) :
    ∃ t, run sys client s
        (List.replicate s.channel.queue.length .pollTask ++ [.pollTask, .poll answers]) = some t ∧
      t.user = .returned (processOf client) (some handle.handler) ∧
      t.calls = s.calls ++ s.channel.queue.map Notification.notification := by
  obtain ⟨hconserved, hstaged⟩ := valid_run hrun
  have hnotify : notifyOf client = some handle.handler := by simp [notifyOf, hhandle]
  rw [hnotify] at hconserved hstaged
  obtain ⟨rfl, hreceiver⟩ := hstaged.awaiting p (Or.inr huser)
  have hclosed : s.channel.closed = true := by
    simp [hstaged.channel, huser, User.hasNotification]
  obtain ⟨_, _, _, hgiven⟩ := hconserved.one hrunning
  obtain rfl : handle.handler = handler := Option.some.inj hgiven
  have hdrain := drain_run sys client s.channel.queue (by rw [huser]; rfl) hrunning rfl
  obtain ⟨t, hfinish, hready, hcalls⟩ := finish_run sys client (s := { s with
      channel := { s.channel with queue := [] }
      calls := s.calls ++ s.channel.queue.map Notification.notification })
    huser hrunning rfl hclosed hreceiver answers
  exact ⟨t, Run.run_join hdrain hfinish, hready, hcalls⟩

theorem deactivate_completes_awaitingRun :
    ∃ s t : State ℕ ℕ, run bindings (firstClient 1 2) first awaitingRun = some s ∧
      run bindings (firstClient 1 2) s
        (List.replicate s.channel.queue.length .pollTask ++ [.pollTask, .poll fun _ => 0]) = some t ∧
      t.user = .returned (some 1) (some 2) ∧
      t.calls = s.calls ++ s.channel.queue.map Notification.notification := by
  have hmap : (run bindings (firstClient 1 2) first awaitingRun).map
      (fun s => (s.user, s.task)) = some (.awaiting (some 1), .running 2) := rfl
  obtain ⟨s, hrun, hfacts⟩ := Option.map_eq_some_iff.mp hmap
  obtain ⟨huser, htask⟩ := Prod.mk.inj hfacts
  obtain ⟨t, hdone, hready, hcalls⟩ := deactivate_completes rfl hrun huser htask fun _ => 0
  exact ⟨s, t, hrun, hdone, hready, hcalls⟩

end Deactivate

end Jack2.Handback
