import Jack2.ActivationTable
import Jack2.Run

/-!
# One client and the callback table

Every sequence of activations, re-activations of a client that was given back, the sync and
timebase methods and deactivation, with any codes for the calls of each.
-/
namespace Jack2.Session

variable {P N : Type*}

/-- The value that the user holds. -/
inductive Phase (P N : Type*) where
  | inactive (client : InactiveClient)
  | active (client : ActiveClient P N)
  | deactivated (client : Client)

structure State (P N : Type*) where
  world : World Table
  phase : Phase P N

inductive Op (P N : Type*) where
  | activate (processHandler : Option P) (notificationHandler : Option N) (flags : ActivateFlags)
  | deactivate
  | registerSyncCallback
  | unregisterSyncCallback
  | acquireTimebase (force : Bool)
  | releaseTimebase

/-- An operation and the codes that libjack answers its calls with. -/
structure Label (P N : Type*) where
  op : Op P N
  answers : Call → Int

def init (client : Client) : State P N := ⟨⟨emptyTable, [], ⟨0, []⟩⟩, .inactive ⟨client⟩⟩

def step (s : State P N) (l : Label P N) : Option (State P N) :=
  let lib := tableJack l.answers
  match s.phase, l.op with
  | .inactive client, .activate processHandler notificationHandler flags =>
    match activate lib client processHandler notificationHandler flags s.world with
    | (.ok client, w) => some ⟨w, .active client⟩
    | (.error e, w) => some ⟨w, .inactive e.client⟩
  | .active client, .deactivate =>
    match client.deactivate lib s.world with
    | (.ok (client, _, _), w) => some ⟨w, .deactivated client⟩
    | (.error e, w) => some ⟨w, .active e.client⟩
  | .active client, .registerSyncCallback =>
    some ⟨(client.registerSyncCallback lib s.world).2, .active client⟩
  | .active client, .unregisterSyncCallback =>
    some ⟨(client.unregisterSyncCallback lib s.world).2, .active client⟩
  | .active client, .acquireTimebase force =>
    some ⟨(client.acquireTimebase lib force s.world).2, .active client⟩
  | .active client, .releaseTimebase =>
    some ⟨(client.releaseTimebase lib s.world).2, .active client⟩
  | _, _ => none

abbrev run : State P N → List (Label P N) → Option (State P N) := Run.run step

/-- The boxes of the handlers that the user's value owns. -/
def Phase.boxes : Phase P N → List BoxPtr
  | .active client => (client.notificationData.map NotificationHandle.ptr).toList ++
      (client.processData.map Boxed.ptr).toList
  | _ => []

/-- The boxes alive are those that the user's value owns. -/
structure Owns (s : State P N) : Prop where
  live : s.world.heap.live = s.phase.boxes
  nodup : s.phase.boxes.Nodup

/-- Everything one step can do to the table, the boxes and the phase. -/
inductive Step (s : State P N) : Label P N → State P N → Prop where
  | activated (client : InactiveClient) (hphase : s.phase = .inactive client)
      (processHandler : Option P) (notificationHandler : Option N) (flags : ActivateFlags)
      (answers : Call → Int) (w : World Table)
      (hpass : ∀ c ∈ settersOf processHandler notificationHandler flags s.world,
        0 ≤ codeOf answers c)
      (hheap : w.heap = activatedHeap processHandler notificationHandler s.world)
      (hjack : w.jack = effects answers
        (settersOf processHandler notificationHandler flags s.world) s.world.jack) :
      Step s ⟨.activate processHandler notificationHandler flags, answers⟩
        ⟨w, .active (Jack2.activated client processHandler notificationHandler s.world)⟩
  | refused (client : InactiveClient) (hphase : s.phase = .inactive client)
      (processHandler : Option P) (notificationHandler : Option N) (flags : ActivateFlags)
      (answers : Call → Int) (w : World Table)
      (hfail : ∃ c ∈ settersOf processHandler notificationHandler flags s.world,
        codeOf answers c < 0)
      (hheap : w.heap.live = s.world.heap.live)
      (hjack : w.jack = effects answers (undoCalls flags) (effects answers (passing answers
        (settersOf processHandler notificationHandler flags s.world)) s.world.jack)) :
      Step s ⟨.activate processHandler notificationHandler flags, answers⟩
        ⟨w, .inactive client⟩
  | deactivated (client : ActiveClient P N) (hphase : s.phase = .active client)
      (answers : Call → Int) (w : World Table) (hcode : 0 ≤ answers .deactivate)
      (hheap : w.heap = (freeBox (client.notificationData.map NotificationHandle.ptr)
        (freeBox (client.processData.map Boxed.ptr) s.world)).heap)
      (hjack : w.jack = effects answers [.releaseTimebase] s.world.jack) :
      Step s ⟨.deactivate, answers⟩ ⟨w, .deactivated client.client⟩
  | keep (client : ActiveClient P N) (hphase : s.phase = .active client) (l : Label P N)
      (w : World Table) (cs : List Call) (hcs : ∀ c ∈ cs, ∀ e, c.value = some e →
        client.processData.map Boxed.ptr = some e.arg)
      (hheap : w.heap = s.world.heap) (hjack : w.jack = effects l.answers cs s.world.jack)
      (hop : l.op = .deactivate → l.answers .deactivate < 0) : Step s l ⟨w, .active client⟩

theorem undo_jack (answers : Call → Int) (self : Client) (flags : ActivateFlags)
    (w : World Table) : (undo (tableJack answers) self flags w).jack =
      effects answers (undoCalls flags) w.jack := by
  simp only [undo, undoCalls]
  split <;> rfl

theorem activate_cases {s t : State P N} {client : InactiveClient}
    (hphase : s.phase = .inactive client) {processHandler : Option P}
    {notificationHandler : Option N} {flags : ActivateFlags} {answers : Call → Int}
    (h : step s ⟨.activate processHandler notificationHandler flags, answers⟩ = some t) :
    Step s ⟨.activate processHandler notificationHandler flags, answers⟩ t := by
  have hresult := checkedCalls_isOk answers client.client.client
    (settersOf processHandler notificationHandler flags s.world) s.world
  have hjack := checkedCalls_jack answers client.client.client
    (settersOf processHandler notificationHandler flags s.world) s.world
  simp only [step, hphase] at h
  split at hresult
  · rename_i hpass
    rw [activate_ok (Prod.ext hresult rfl)] at h
    cases h
    refine .activated client hphase processHandler notificationHandler flags answers _ hpass ?_ ?_
    · cases notificationHandler <;> rfl
    · rw [passing_eq_self hpass] at hjack
      rw [← hjack]
      cases notificationHandler <;> simp [finish, Call.effect]
  · rename_i hfail
    obtain ⟨heap, hlive, _, hact⟩ := activate_error (Prod.ext hresult rfl)
    rw [hact] at h
    cases h
    refine .refused client hphase processHandler notificationHandler flags answers _ ?_ hlive ?_
    · simpa using hfail
    · rw [World.setHeap_jack, undo_jack, hjack]

theorem deactivate_cases {s t : State P N} {client : ActiveClient P N}
    (hphase : s.phase = .active client) {answers : Call → Int}
    (h : step s ⟨.deactivate, answers⟩ = some t) : Step s ⟨.deactivate, answers⟩ t := by
  by_cases hcode : 0 ≤ answers .deactivate
  · simp only [step, hphase, ActiveClient.deactivate, ActiveClient._deactivate,
      call_tableJack_code, codeOf, Call.isVoid, Bool.false_eq_true, if_false,
      checkRet_of_nonneg hcode] at h
    cases h
    refine .deactivated client hphase answers _ hcode ?_ ?_
    · cases client.processData <;> cases client.notificationData <;> rfl
    · cases client.processData <;> cases client.notificationData <;>
        simp [freeBox, Call.effect]
  · have hneg := Int.not_le.mp hcode
    simp only [step, hphase, ActiveClient.deactivate, ActiveClient._deactivate,
      call_tableJack_code, codeOf, Call.isVoid, Bool.false_eq_true, if_false,
      checkRet_of_neg hneg] at h
    cases h
    exact .keep client hphase _ _ [.releaseTimebase, .deactivate] (by simp [Call.value]) rfl rfl
      fun _ => hneg

section Deactivate

variable (client : ActiveClient P N) (answers : Call → Int) (w : World Table)

/-- `_deactivate` frees nothing, and takes nothing but the timebase from the table. -/
theorem deactivate_answers :
    (client._deactivate (tableJack answers) w).1 = checkRet (answers .deactivate) ∧
      (client._deactivate (tableJack answers) w).2.heap = w.heap ∧
      (client._deactivate (tableJack answers) w).2.jack =
        effects answers [.releaseTimebase] w.jack := by
  refine ⟨rfl, rfl, ?_⟩
  simp [ActiveClient._deactivate, Call.effect]

/-- So the callbacks that libjack has of the client stay. -/
theorem deactivate_jack {k : CallbackKind} (hk : k ≠ .timebase) :
    (client._deactivate (tableJack answers) w).2.jack k = w.jack k := by
  rw [(deactivate_answers client answers w).2.2, effects_cons, effects_nil]
  split
  · exact Function.update_of_ne hk _ _
  · rfl

/-- It adds none. -/
theorem deactivate_shrinks {k : CallbackKind} {e : Entry}
    (h : (client._deactivate (tableJack answers) w).2.jack k = some e) : w.jack k = some e := by
  by_cases hk : k = .timebase
  · subst k
    rw [(deactivate_answers client answers w).2.2, effects_cons, effects_nil] at h
    split at h
    · simp [Call.effect] at h
    · exact h
  · exact (deactivate_jack client answers w hk).symm.trans h

variable {client answers w}

theorem step_deactivate_error {v : World Table} {e : Error}
    (h : client._deactivate (tableJack answers) w = (.error e, v)) :
    step ⟨w, .active client⟩ ⟨.deactivate, answers⟩ = some ⟨v, .active client⟩ := by
  simp [step, ActiveClient.deactivate, h]

/-- Where libjack deactivates the client, both boxes are freed. -/
theorem step_deactivate_ok {v : World Table}
    (h : client._deactivate (tableJack answers) w = (.ok (), v)) :
    step ⟨w, .active client⟩ ⟨.deactivate, answers⟩ =
      some ⟨freeBox (client.notificationData.map NotificationHandle.ptr)
        (freeBox (client.processData.map Boxed.ptr) v), .deactivated client.client⟩ := by
  simp [step, ActiveClient.deactivate, h]

end Deactivate

/-- The methods other than `deactivate` make at most one checked call. -/
theorem keep_checkedCalls {s : State P N} {client : ActiveClient P N}
    (hphase : s.phase = .active client) {l : Label P N} (hop : l.op ≠ .deactivate)
    (cs : List Call) (hcs : ∀ c ∈ cs, ∀ e, c.value = some e →
      client.processData.map Boxed.ptr = some e.arg) :
    Step s l ⟨(checkedCalls (tableJack l.answers) client.client.client cs s.world).2,
      .active client⟩ :=
  .keep client hphase l _ (passing l.answers cs) (fun c hc => hcs c (passing_subset hc))
    (checkedCalls_heap _ _ _ _) (checkedCalls_jack _ _ _ _) (fun h => absurd h hop)

/-- The inversion every invariant of a session is derived from. -/
theorem step_cases {s t : State P N} {l : Label P N} (h : step s l = some t) : Step s l t := by
  obtain ⟨op, answers⟩ := l
  cases hphase : s.phase with
  | inactive client =>
    cases op with
    | activate processHandler notificationHandler flags => exact activate_cases hphase h
    | _ => simp [step, hphase] at h
  | deactivated client => simp [step, hphase] at h
  | active client =>
    cases op with
    | activate processHandler notificationHandler flags => simp [step, hphase] at h
    | deactivate => exact deactivate_cases hphase h
    | registerSyncCallback =>
      simp only [step, hphase, ActiveClient.registerSyncCallback] at h
      cases h
      cases hdata : client.processData with
      | none => exact keep_checkedCalls hphase (by simp) [] (by simp)
      | some box =>
        refine keep_checkedCalls hphase (by simp) [setCall .sync .syncCallback box.ptr] ?_
        intro c hc e he
        rw [List.mem_singleton.mp hc] at he
        simpa [hdata] using setCall_value he
    | unregisterSyncCallback =>
      simp only [step, hphase, ActiveClient.unregisterSyncCallback] at h
      cases h
      exact keep_checkedCalls hphase (by simp) [setCall .sync .syncCallback none]
        (by simp [setCall, Call.value])
    | acquireTimebase force =>
      simp only [step, hphase, ActiveClient.acquireTimebase] at h
      cases h
      cases hdata : client.processData with
      | none => exact keep_checkedCalls hphase (by simp) [] (by simp)
      | some box =>
        refine keep_checkedCalls hphase (by simp)
          [.setTimebase (!force) ⟨.timebaseCallback, box.ptr⟩] ?_
        intro c hc e he
        rw [List.mem_singleton.mp hc] at he
        cases he
        simp [hdata]
    | releaseTimebase =>
      simp only [step, hphase, ActiveClient.releaseTimebase] at h
      cases h
      exact .keep client hphase _ _ [.releaseTimebase] (by simp [Call.value]) rfl rfl
        (by simp)

end Jack2.Session
