import Jack2.Conservation

/-!
# The boxes and the callbacks of a client that is deactivated

A deactivation frees the boxes one after the other and leaves the callbacks stored; only the
close of the client takes them from libjack. To libjack and the boxes the future is the
deactivation of a session.
-/
namespace Jack2.Handback

open Delivery (bindings firstClient firstWorld)
open Session (NoDangling Owns Phase)

variable {P N : Type*}

section Placed

variable {client : ActiveClient P N} {w : World Table} {s t : State P N} {l : Label}

/-- The boxes that are alive are those that the user has not come to free, and libjack keeps
what it stores, but for the timebase, until the client is closed. -/
structure Placed (client : ActiveClient P N) (w : World Table) (s : State P N) : Prop where
  live : s.world.heap.live = s.user.boxes client
  kept : s.user.closed = false → ∀ k, k ≠ .timebase → s.world.jack k = w.jack k
  shrunk : ∀ k e, s.world.jack k = some e → w.jack k = some e
  closed : s.user.closed = true → ∀ k, s.world.jack k = none

theorem placed_init (h : Owns ⟨w, .active client⟩) : Placed client w (init client w) where
  live := h.live
  kept := fun _ _ _ => rfl
  shrunk := fun _ _ => id
  closed := nofun

theorem Placed.frame (h : Placed client w s) (hlive : t.world.heap.live = t.user.boxes client)
    (hjack : ∀ k, k ≠ .timebase → t.world.jack k = s.world.jack k)
    (hshrunk : ∀ k e, t.world.jack k = some e → s.world.jack k = some e)
    (hclosed : t.user.closed = s.user.closed) : Placed client w t where
  live := hlive
  kept := fun hopen k hk => (hjack k hk).trans (h.kept (hclosed ▸ hopen) k hk)
  shrunk := fun k e he => h.shrunk k e (hshrunk k e he)
  closed := by
    intro hc k
    rw [hclosed] at hc
    cases he : t.world.jack k with
    | none => rfl
    | some e =>
      have := hshrunk k e he
      rw [h.closed hc k] at this
      cases this

/-- A step that changes at most the boxes. -/
theorem Placed.free (h : Placed client w s) (hlive : t.world.heap.live = t.user.boxes client)
    (hjack : t.world.jack = s.world.jack) (hclosed : t.user.closed = s.user.closed) :
    Placed client w t :=
  h.frame hlive (fun k _ => by rw [hjack]) (fun k e he => by rwa [hjack] at he) hclosed

theorem Placed.turn {user : User P N} (h : Placed client w s) (hfrom : s.user.Whole)
    (hto : user.Whole) : Placed client w { s with user } :=
  h.free (h.live.trans (hfrom.boxes.trans hto.boxes.symm)) rfl
    (hto.fields.2.2.trans hfrom.fields.2.2.symm)

/-- The close leaves nothing stored. -/
theorem placed_close (hworld : t.world = close client s.world)
    (hlive : s.world.heap.live = t.user.boxes client) (hclosed : t.user.closed = true) :
    Placed client w t := by
  have hnone : ∀ k, t.world.jack k = none := by
    intro k
    rw [hworld]
    rfl
  refine ⟨?_, ?_, ?_, fun _ => hnone⟩
  · rw [hworld]
    exact hlive
  · intro hopen
    rw [hclosed] at hopen
    cases hopen
  · intro k e he
    rw [hnone k] at he
    cases he

theorem send_frame (s : State P N) (n : Notification) :
    (s.send n).user = s.user ∧ (s.send n).world = s.world := by
  simp only [State.send]
  split <;> exact ⟨rfl, rfl⟩

theorem runTask_frame (s : State P N) (handler : N) :
    (s.runTask handler).user = s.user ∧ (s.runTask handler).world = s.world := by
  simp only [State.runTask, State.finish]
  split
  · exact ⟨rfl, rfl⟩
  · split <;> exact ⟨rfl, rfl⟩
  · exact ⟨rfl, rfl⟩

/-- The callbacks and the task touch neither the boxes nor the table. -/
theorem Placed.keep (h : Placed client w s) (hframe : t.user = s.user ∧ t.world = s.world) :
    Placed client w t := by
  obtain ⟨huser, hworld⟩ := hframe
  refine h.free ?_ (by rw [hworld]) (by rw [huser])
  rw [huser, hworld]
  exact h.live

/-- `_deactivate` frees nothing and takes at most the timebase. -/
theorem placed_deactivate {user : User P N} {v : World Table} {answers : Call → Int}
    {r : Except Error Unit} (h : Placed client w s) (huser : s.user = .future)
    (hdeactivate : client._deactivate (tableJack answers) s.world = (r, v)) (hto : user.Whole) :
    Placed client w { s with user, world := v } := by
  obtain ⟨-, hheap, -⟩ := Session.deactivate_answers client answers s.world
  have hjack := fun k => Session.deactivate_jack client answers s.world (k := k)
  have hshrunk := fun k e => Session.deactivate_shrinks client answers s.world (k := k) (e := e)
  have hlive := h.live
  rw [hdeactivate] at hheap hjack hshrunk
  rw [huser] at hlive
  refine h.frame ?_ hjack hshrunk (by rw [hto.fields.2.2, huser]; rfl)
  rw [hheap, hlive]
  exact hto.boxes.symm

theorem boxes_of_moved {user : User P N} (hprocess : user.hasProcess = false)
    (hnotification : user.hasNotification = true) :
    user.boxes client = (client.notificationData.map NotificationHandle.ptr).toList := by
  simp [User.boxes, hprocess, hnotification]

theorem placed_cancelled (h : Placed client w s) {p : Option P}
    (huser : s.user = .dropped p ∨ s.user = .awaiting p) :
    Placed client w (s.dropAwaiting client p) := by
  refine placed_close (s := s) rfl ?_ rfl
  obtain huser | huser := huser <;> rw [h.live, huser] <;> rfl

theorem placed_await (h : Placed client w s) {p : Option P}
    (huser : s.user = .dropped p ∨ s.user = .awaiting p) :
    Placed client w (s.await client p) := by
  have hlive : s.world.heap.live = [] := by
    obtain huser | huser := huser <;> rw [h.live, huser] <;> rfl
  have hopen : s.user.closed = false := by
    obtain huser | huser := huser <;> rw [huser] <;> rfl
  simp only [State.await]
  split
  · exact h.free hlive rfl hopen.symm
  · exact h.free hlive rfl hopen.symm
  · exact placed_close (s := s) rfl hlive rfl

theorem placed_dropData (h : Placed client w s)
    (hstaged : Staged (processOf client) (notifyOf client) s) {p : Option P}
    (huser : s.user = .moved p) : Placed client w (s.dropData client p) := by
  have hlive : s.world.heap.live = (client.notificationData.map NotificationHandle.ptr).toList := by
    rw [h.live, huser]
    exact boxes_of_moved rfl rfl
  simp only [State.dropData]
  split
  · refine h.free ?_ (freeBox_jack _ _) (by rw [huser]; rfl)
    exact Delivery.freeBox_notification hlive
  · rename_i hnone
    have hdata : client.notificationData = none := by
      simpa [hstaged.notificationData, huser, User.hasNotification, notifyOf] using hnone
    refine h.free ?_ rfl (by rw [huser]; rfl)
    rw [hlive, hdata]
    rfl

theorem placed_dropField (hnodup : (Phase.active client).boxes.Nodup) (h : Placed client w s)
    {field : Field} {fields : List Field} (huser : s.user = .dropping (field :: fields))
    (hsuffix : (field :: fields) <:+ [.client, .processData, .notificationData]) :
    Placed client w (s.dropField client fields field) := by
  have hlive := h.live
  rw [huser] at hlive
  obtain ⟨rfl, rfl⟩ | ⟨rfl, rfl⟩ | ⟨rfl, rfl⟩ := fields_cases hsuffix
  · exact placed_close (s := s) rfl hlive rfl
  · refine h.free ?_ (freeBox_jack _ _) (by rw [huser]; rfl)
    exact (Delivery.freeBox_process hnodup hlive).trans (boxes_of_moved rfl rfl).symm
  · refine h.free ?_ (freeBox_jack _ _) (by rw [huser]; rfl)
    exact Delivery.freeBox_notification (hlive.trans (boxes_of_moved rfl rfl))

/-- One case for each turn. -/
theorem placed_step {l : Label} (hnodup : (Phase.active client).boxes.Nodup)
    (h : Placed client w s) (hstaged : Staged (processOf client) (notifyOf client) s)
    (hturn : Turn client s l t) : Placed client w t := by
  have hlive := h.live
  cases hturn with
  | unchanged _ => exact h
  | sent _ n => exact h.keep (send_frame s n)
  | polledTask _ => exact h.keep (runTask_frame s _)
  | panickedTask _ _ => exact h.keep ⟨rfl, rfl⟩
  | droppedTask _ => exact h.keep ⟨rfl, rfl⟩
  | begun huser => exact h.turn (.of_active huser) (.inr (.inl rfl))
  | deactivated huser answers v hok => exact placed_deactivate h huser hok (.inr (.inr (.inl rfl)))
  | refused huser answers e v herror => exact placed_deactivate h huser herror (.inl rfl)
  | movedProcess huser =>
    rw [huser] at hlive
    refine h.free ?_ (freeBox_jack _ _) (by rw [huser]; rfl)
    exact (Delivery.freeBox_process hnodup hlive).trans (boxes_of_moved rfl rfl).symm
  | droppedData huser => exact placed_dropData h hstaged huser
  | awaited _ huser => exact placed_await h huser
  | cancelled huser => exact placed_cancelled h (.inr huser)
  | dropped huser => exact h.turn (huser.elim .of_active .of_future) (.inr (.inr (.inr rfl)))
  | droppedField huser => exact placed_dropField hnodup h huser (hstaged.fields _ huser)
  | emptied huser =>
    rw [huser] at hlive
    exact h.free hlive rfl (by rw [huser]; rfl)

end Placed

section Runs

variable {sys : Sys} {client : ActiveClient P N} {w : World Table} {s t : State P N}
  {ls : List Label}

theorem placed_run (howns : Owns ⟨w, .active client⟩)
    (hrun : run sys client (init client w) ls = some s) : Placed client w s := by
  have hkeeps : ∀ (s : State P N) l t, Valid client s ∧ Placed client w s →
      step sys client s l = some t → Valid client t ∧ Placed client w t := by
    rintro s l t ⟨hvalid, hplaced⟩ hstep
    exact ⟨valid_step hvalid hstep,
      placed_step howns.nodup hplaced hvalid.staged (turn_of_step hstep)⟩
  exact (Run.run_invariant hkeeps hrun ⟨valid_init client w, placed_init howns⟩).2

/-- Before the client is closed every field is still there. -/
theorem fields_of_client {fields : List Field}
    (h : fields <:+ [.client, .processData, .notificationData]) (hclient : .client ∈ fields) :
    fields = [.client, .processData, .notificationData] := by
  cases fields with
  | nil => simp at hclient
  | cons field fields =>
    obtain ⟨rfl, rfl⟩ | ⟨rfl, rfl⟩ | ⟨rfl, rfl⟩ := fields_cases h
    · rfl
    · simp at hclient
    · simp at hclient

/-- So all boxes are alive up to the close, but for those that a deactivation has freed. -/
theorem boxes_of_open {process : Option P} {notify : Option N} (h : Staged process notify s)
    (hopen : s.user.closed = false) (hunfreed : s.user.freed = false) :
    s.user.boxes client = (Phase.active client).boxes := by
  cases huser : s.user with
  | dropping fields =>
    rw [huser] at hopen
    have hclient : Field.client ∈ fields := by simpa [User.closed] using hopen
    rw [fields_of_client (h.fields fields huser) hclient]
    rfl
  | gone => simp [huser, User.closed] at hopen
  | moved p => simp [huser, User.freed] at hunfreed
  | dropped p => simp [huser, User.freed] at hunfreed
  | awaiting p => simp [huser, User.freed] at hunfreed
  | returned p n => simp [huser, User.freed] at hunfreed
  | _ => rfl

/-- In every run neither handler is lost or doubled; the client is closed at most once, when it
is dropped; until then libjack keeps the callbacks that it stores, but for the timebase, also
behind a deactivation; a stored argument that was good dangles only where `deactivate` has come
to free the boxes; and nothing is left in the end. -/
theorem handlers_conserved {inner : Client} {history : List (Session.Label P N)}
    (hhistory : Session.run (Session.init inner) history = some ⟨w, .active client⟩)
    (hrun : run sys client (init client w) ls = some s) :
    Conserved (processOf client) (notifyOf client) s ∧
    s.closes = s.user.closed.toNat ∧
    Placed client w s ∧
    (NoDangling (⟨w, .active client⟩ : Session.State P N) → ∀ k e, s.world.jack k = some e →
      e.arg ∈ s.world.heap.live ∨ s.user.freed = true) ∧
    (s.user = .gone → s.closes = 1 ∧ Freed (notifyOf client) s ∧ s.world.heap.live = [] ∧
      ∀ k, s.world.jack k = none) ∧
    (∀ p n, s.user = .returned p n → s.closes = 0 ∧ Freed (notifyOf client) s ∧
      s.world.heap.live = [] ∧ p = processOf client ∧ n = notifyOf client) := by
  have howns := Session.owns_run hhistory
  obtain ⟨hconserved, hstaged⟩ := valid_run hrun
  have hplaced := placed_run howns hrun
  refine ⟨hconserved, hstaged.closes, hplaced, ?_, ?_, ?_⟩
  · intro hgood k e he
    cases hfreed : s.user.freed with
    | true => exact Or.inr rfl
    | false =>
      have hopen : s.user.closed = false := by
        rw [Bool.eq_false_iff]
        intro hclosed
        rw [hplaced.closed hclosed k] at he
        cases he
      have hmem := hgood k e (hplaced.shrunk k e he)
      left
      rwa [hplaced.live, boxes_of_open hstaged hopen hfreed, ← howns.live]
  · intro huser
    refine ⟨?_, ?_, ?_, hplaced.closed (by rw [huser]; rfl)⟩
    · simp [hstaged.closes, huser, User.closed]
    · exact hstaged.freed (by rw [huser]; rfl) (by rw [huser]; rfl)
    · rw [hplaced.live, huser]
      rfl
  · intro p n huser
    refine ⟨?_, ?_, ?_, hstaged.returned p n huser⟩
    · simp [hstaged.closes, huser, User.closed]
    · exact hstaged.freed (by rw [huser]; rfl) (by rw [huser]; rfl)
    · rw [hplaced.live, huser]
      rfl

/-- While the future waits libjack has the callbacks of a client without boxes; the drop of the
future closes it. -/
theorem handlers_conserved_cancelled :
    ∃ s t : State ℕ ℕ, run bindings (firstClient 1 2) first awaitingRun = some s ∧
      s.user = .awaiting (some 1) ∧ s.closes = 0 ∧ s.world.heap.live = [] ∧
      s.world.jack .shutdown = some ⟨.shutdownCallback, 1⟩ ∧
      run bindings (firstClient 1 2) first (awaitingRun ++ [.drop]) = some t ∧
      t.processes = bag (some 1) ∧ t.notifies = bag (some 2) ∧ t.closes = 1 ∧
      t.world.jack .shutdown = none := by
  have hawaiting : (run bindings (firstClient 1 2) first awaitingRun).map
      (fun s => (s.user, s.world.jack .shutdown)) =
        some (.awaiting (some 1), some ⟨.shutdownCallback, 1⟩) := rfl
  have hgone : (run bindings (firstClient 1 2) first (awaitingRun ++ [.drop])).map State.user =
      some .gone := rfl
  obtain ⟨s, hs, hfacts⟩ := Option.map_eq_some_iff.mp hawaiting
  obtain ⟨huser, hshutdown⟩ := Prod.mk.inj hfacts
  obtain ⟨t, ht, hdone⟩ := Option.map_eq_some_iff.mp hgone
  obtain ⟨_, hcloses, hplaced, _⟩ := handlers_conserved first_history hs
  obtain ⟨⟨hprocess, hnotify⟩, _, _, _, hempty, _⟩ := handlers_conserved first_history ht
  obtain ⟨hclosed, _, _, hnone⟩ := hempty hdone
  rw [huser] at hcloses
  have hlive := hplaced.live
  rw [huser] at hlive
  exact ⟨s, t, hs, huser, hcloses, hlive, hshutdown, ht, hprocess, hnotify, hclosed, hnone _⟩

end Runs

section Session

variable {sys : Sys} {client : ActiveClient P N} {w : World Table} {s t : State P N}
  {ls : List Label}

/-- The world once the poll has freed what it still has to free. -/
def State.settled (client : ActiveClient P N) (s : State P N) : World Table :=
  match s.user with
  | .deactivated =>
    freeBox (client.notificationData.map NotificationHandle.ptr)
      (freeBox (client.processData.map Boxed.ptr) s.world)
  | .moved _ => freeBox (client.notificationData.map NotificationHandle.ptr) s.world
  | _ => s.world

/-- What the user has in a session, as long as nothing was dropped. -/
def User.phase (client : ActiveClient P N) : User P N → Option (Phase P N)
  | .active | .future => some (.active client)
  | .dropping _ | .gone => none
  | _ => some (.deactivated client.client)

/-- The session has come from `s` to `t`, which has this phase. -/
def Deactivates (client : ActiveClient P N) (s t : State P N) (phase : Phase P N) : Prop :=
  ∃ before ds, s.user.phase client = some before ∧
    Session.run ⟨s.settled client, before⟩ ds = some ⟨t.settled client, phase⟩

theorem deactivates_keep {phase : Phase P N} (hbefore : s.user.phase client = some phase)
    (hsettled : t.settled client = s.settled client) : Deactivates client s t phase :=
  ⟨phase, [], hbefore, by rw [hsettled]; rfl⟩

theorem deactivates_frame {phase : Phase P N} (hphase : t.user.phase client = some phase)
    (hframe : t.user = s.user ∧ t.world = s.world) : Deactivates client s t phase := by
  obtain ⟨huser, hworld⟩ := hframe
  rw [huser] at hphase
  exact deactivates_keep hphase (by simp only [State.settled, huser, hworld])

theorem deactivates_await {p : Option P} (huser : s.user = .dropped p ∨ s.user = .awaiting p)
    {phase : Phase P N} (hphase : (s.await client p).user.phase client = some phase) :
    Deactivates client s (s.await client p) phase := by
  have hbefore : s.user.phase client = some (.deactivated client.client) ∧
      s.settled client = s.world := by
    obtain huser | huser := huser <;> simp [State.settled, huser, User.phase]
  revert hphase
  simp only [State.await]
  split
  · exact fun hphase => deactivates_keep (hbefore.1.trans hphase) hbefore.2.symm
  · exact fun hphase => deactivates_keep (hbefore.1.trans hphase) hbefore.2.symm
  · intro hphase
    cases hphase

theorem deactivates_dropData (hstaged : Staged (processOf client) (notifyOf client) s)
    {p : Option P} (huser : s.user = .moved p) {phase : Phase P N}
    (hphase : (s.dropData client p).user.phase client = some phase) :
    Deactivates client s (s.dropData client p) phase := by
  have hbefore : s.user.phase client = some (.deactivated client.client) ∧
      s.settled client =
        freeBox (client.notificationData.map NotificationHandle.ptr) s.world := by
    simp [State.settled, huser, User.phase]
  revert hphase
  simp only [State.dropData]
  split
  · exact fun hphase => deactivates_keep (hbefore.1.trans hphase) hbefore.2.symm
  · rename_i hnone
    have hdata : client.notificationData = none := by
      simpa [hstaged.notificationData, huser, User.hasNotification, notifyOf] using hnone
    intro hphase
    refine deactivates_keep (hbefore.1.trans hphase) ?_
    rw [hbefore.2, hdata]
    rfl

/-- The future is a deactivation of the session, whose effect on the boxes comes in parts. -/
theorem session_step {l : Label} (hstaged : Staged (processOf client) (notifyOf client) s)
    (hturn : Turn client s l t) {phase : Phase P N}
    (hphase : t.user.phase client = some phase) : Deactivates client s t phase := by
  cases hturn with
  | unchanged _ => exact deactivates_frame hphase ⟨rfl, rfl⟩
  | sent c n => exact deactivates_frame hphase (send_frame s n)
  | polledTask _ => exact deactivates_frame hphase (runTask_frame s _)
  | panickedTask _ _ => exact deactivates_frame hphase ⟨rfl, rfl⟩
  | droppedTask _ => exact deactivates_frame hphase ⟨rfl, rfl⟩
  | begun huser =>
    refine deactivates_keep ?_ ?_
    · rw [huser]
      exact hphase
    · simp [State.settled, huser]
  | deactivated huser answers v hok =>
    cases hphase
    refine ⟨.active client, [⟨.deactivate, answers⟩], by rw [huser]; rfl, ?_⟩
    simp only [State.settled, huser, Run.run_cons, Session.step_deactivate_ok hok]
    rfl
  | refused huser answers e v herror =>
    cases hphase
    refine ⟨.active client, [⟨.deactivate, answers⟩], by rw [huser]; rfl, ?_⟩
    simp only [State.settled, huser, Run.run_cons, Session.step_deactivate_error herror]
    rfl
  | movedProcess huser =>
    refine deactivates_keep ?_ ?_
    · rw [huser]
      exact hphase
    · simp [State.settled, huser, State.moveProcess]
  | droppedData huser => exact deactivates_dropData hstaged huser hphase
  | awaited _ huser => exact deactivates_await huser hphase
  | cancelled _ => cases hphase
  | dropped _ => cases hphase
  | @droppedField field _ _ => cases field <;> cases hphase
  | emptied _ => cases hphase

/-- In every run libjack and the boxes are where the same deactivations of a session leave
them, as long as nothing was dropped. -/
theorem session_run (hvalid : Valid client s) (hrun : run sys client s ls = some t)
    {phase : Phase P N} (hphase : t.user.phase client = some phase) :
    Deactivates client s t phase := by
  induction ls generalizing s with
  | nil =>
    cases hrun
    exact deactivates_keep hphase rfl
  | cons l ls ih =>
    obtain ⟨u, hu, hrest⟩ := Run.run_cons_some hrun
    obtain ⟨between, es, hbetween, hes⟩ := ih (valid_step hvalid hu) hrest
    obtain ⟨before, ds, hbefore, hds⟩ := session_step hvalid.staged (turn_of_step hu) hbetween
    exact ⟨before, ds ++ es, hbefore, Run.run_join hds hes⟩

/-- So what is said of the table and the boxes of every session is said of these runs. -/
theorem session_of_run {inner : Client} {history : List (Session.Label P N)}
    (hhistory : Session.run (Session.init inner) history = some ⟨w, .active client⟩)
    (hrun : run sys client (init client w) ls = some s) {phase : Phase P N}
    (hphase : s.user.phase client = some phase) :
    ∃ ds, Session.run (Session.init inner) (history ++ ds) = some ⟨s.settled client, phase⟩ := by
  obtain ⟨before, ds, hbefore, hds⟩ := session_run (valid_init client w) hrun hphase
  obtain rfl := Option.some.inj hbefore
  exact ⟨ds, Run.run_join hhistory hds⟩

end Session

end Jack2.Handback
