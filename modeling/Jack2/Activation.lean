import Jack2.Activate

/-!
# What activation does, as one list of calls

The stages of `activate` make one list of setter calls up to the first negative code.
Everything about an activation is derived from that list and the two theorems below.
-/
namespace Jack2

open Checked (andThen)

variable {σ P N : Type*}

/-- The address and the heap of a box that is made only for a handler that is present. -/
def Heap.allocFor {α : Type*} (o : Option α) (h : Heap) : Option BoxPtr × Heap :=
  match o with
  | some _ => (some h.next, h.alloc)
  | none => (none, h)

@[simp] theorem allocFor_some {α : Type*} (a : α) (h : Heap) :
    h.allocFor (some a) = (some h.next, h.alloc) := rfl
@[simp] theorem allocFor_none {α : Type*} (h : Heap) :
    h.allocFor (none : Option α) = (none, h) := rfl

def latencyCalls (notification : Option BoxPtr) (flags : ActivateFlags) : List Call :=
  match notification with
  | some p => [setCall .latency .latencyCallback (if flags.contains .latency then some p else none)]
  | none => []

def syncCalls (process : Option BoxPtr) (flags : ActivateFlags) : List Call :=
  match process with
  | some p => [setCall .sync .syncCallback (if flags.contains .sync then some p else none)]
  | none => []

def timebaseCalls (process : Option BoxPtr) (flags : ActivateFlags) : List Call :=
  match process with
  | some p =>
    if flags.contains .timebase then
      [.setTimebase (!flags.contains .timebaseForce) ⟨.timebaseCallback, p⟩] else []
  | none => []

/-- The calls after the process callbacks. -/
def laterSetters (process notification : Option BoxPtr) (flags : ActivateFlags) : List Call :=
  notificationCalls notification ++ latencyCalls notification flags ++ syncCalls process flags ++
    timebaseCalls process flags

/-- Every call that sets or clears a callback, in the order of the stages. -/
def setters (process notification : Option BoxPtr) (flags : ActivateFlags) : List Call :=
  processCalls process ++ laterSetters process notification flags

section Stages

variable (lib : Libjack σ) (self : Client) (flags : ActivateFlags)

theorem installLatency_checkedCalls (notification : Option BoxPtr) (cs : List Call) (w : World σ) :
    installLatency lib self notification flags (checkedCalls lib self.client cs w) =
      checkedCalls lib self.client (cs ++ latencyCalls notification flags) w := by
  cases notification with
  | none => simp [installLatency, latencyCalls]
  | some p =>
    rw [checkedCalls_append]
    simp only [installLatency, latencyCalls]
    congr 1
    funext v
    split <;> rfl

theorem installSync_checkedCalls (process : Option (Boxed (ProcessData P))) (cs : List Call)
    (w : World σ) : installSync lib self process flags (checkedCalls lib self.client cs w) =
      checkedCalls lib self.client (cs ++ syncCalls (process.map Boxed.ptr) flags) w := by
  cases process with
  | none => simp [installSync, syncCalls]
  | some box =>
    rw [checkedCalls_append]
    simp only [installSync, syncCalls, Option.map_some]
    congr 1
    funext v
    split <;> rfl

theorem installTimebase_checkedCalls (process : Option (Boxed (ProcessData P))) (cs : List Call)
    (w : World σ) : installTimebase lib self process flags (checkedCalls lib self.client cs w) =
      checkedCalls lib self.client (cs ++ timebaseCalls (process.map Boxed.ptr) flags) w := by
  cases process with
  | none => simp [installTimebase, timebaseCalls]
  | some box =>
    rw [checkedCalls_append]
    simp only [installTimebase, timebaseCalls, Option.map_some]
    congr 1
    funext v
    split <;> rfl

end Stages

/-- The calls of the error path. -/
def undoCalls (flags : ActivateFlags) : List Call :=
  if flags.contains .timebase then [.releaseTimebase, .deactivate] else [.deactivate]

theorem undo_trace (lib : Libjack σ) (self : Client) (flags : ActivateFlags) (w : World σ) :
    ∃ codes : List (Call × Int), codes.map Prod.fst = undoCalls flags ∧
      (undo lib self flags w).trace =
        w.trace ++ codes.map fun x => Event.call self.client x.1 x.2 := by
  simp only [undo, undoCalls]
  split
  · refine ⟨[(.releaseTimebase, (w.call lib self.client .releaseTimebase).1),
      (.deactivate, ((w.call lib self.client .releaseTimebase).2.call lib self.client
        .deactivate).1)], rfl, ?_⟩
    simp [World.call]
  · exact ⟨[(.deactivate, (w.call lib self.client .deactivate).1)], rfl, by simp [World.call]⟩

theorem undoCalls_not_setter {flags : ActivateFlags} {c : Call} (h : c ∈ undoCalls flags) :
    c.isSetter = false := by
  unfold undoCalls at h
  split at h <;> simp at h
  · rcases h with rfl | rfl <;> rfl
  · rw [h]; rfl

theorem deactivate_mem_undoCalls (flags : ActivateFlags) : Call.deactivate ∈ undoCalls flags := by
  unfold undoCalls
  split <;> simp

section Spec

variable (lib : Libjack σ) (self : InactiveClient) (processHandler : Option P)
  (notificationHandler : Option N) (flags : ActivateFlags)

def processBox (w : World σ) : Option BoxPtr := (w.heap.allocFor processHandler).1

def notificationBox (w : World σ) : Option BoxPtr :=
  ((w.heap.allocFor processHandler).2.allocFor notificationHandler).1

/-- The setter calls of one activation, with the addresses its boxes get. -/
def settersOf (w : World σ) : List Call :=
  setters (processBox processHandler w) (notificationBox processHandler notificationHandler w) flags

def boxedProcess (w : World σ) : Option (Boxed (ProcessData P)) :=
  processHandler.map fun handler =>
    ⟨w.heap.next, ⟨self.client.client, self.client.processPorts, handler⟩⟩

/-- The client that a successful activation returns. -/
def activated (w : World σ) : ActiveClient P N where
  client := self.client
  processData := boxedProcess self processHandler w
  notificationData := notificationHandler.map fun handler =>
    ⟨(w.heap.allocFor processHandler).2.next, handler⟩

@[simp] theorem boxedProcess_ptr (w : World σ) :
    (boxedProcess self processHandler w).map Boxed.ptr = processBox processHandler w := by
  cases processHandler <;> rfl

@[simp] theorem boxedProcess_handler (w : World σ) :
    (boxedProcess self processHandler w).map (·.value.handler) = processHandler := by
  cases processHandler <;> rfl

theorem installProcess_eq (w : World σ) : installProcess lib self.client processHandler w =
    (boxedProcess self processHandler w,
      checkedCalls lib self.client.client (processCalls (processBox processHandler w))
        (w.setHeap (w.heap.allocFor processHandler).2)) := by
  cases processHandler <;> rfl

theorem installNotification_ok (w v : World σ)
    (hv : v.heap = (w.heap.allocFor processHandler).2) :
    installNotification lib self.client notificationHandler (.ok (), v) =
      (notificationBox processHandler notificationHandler w,
        checkedCalls lib self.client.client
          (notificationCalls (notificationBox processHandler notificationHandler w))
          (v.setHeap (v.heap.allocFor notificationHandler).2)) := by
  cases notificationHandler <;> simp only [installNotification, notificationBox, ← hv] <;> rfl

/-- The stages after the process callbacks, once those succeeded. -/
theorem laterStages (process : Option (Boxed (ProcessData P))) (notification : Option BoxPtr)
    (w : World σ) :
    installTimebase lib self.client process flags (installSync lib self.client process flags
      (installLatency lib self.client notification flags
        (checkedCalls lib self.client.client (notificationCalls notification) w))) =
      checkedCalls lib self.client.client
        (laterSetters (process.map Boxed.ptr) notification flags) w := by
  rw [installLatency_checkedCalls, installSync_checkedCalls, installTimebase_checkedCalls]
  rfl

theorem laterStages_error (process : Option (Boxed (ProcessData P))) (e : Error) (w : World σ) :
    installTimebase lib self.client process flags (installSync lib self.client process flags
      (installLatency lib self.client none flags (.error e, w))) = (.error e, w) := by
  cases process <;> rfl

theorem undo_setHeap (w : World σ) (h : Heap) :
    undo lib self.client flags (w.setHeap h) = (undo lib self.client flags w).setHeap h := by
  simp only [undo]
  split <;> rfl

/-- The heap of a successful activation holds the boxes of the handlers that are present. -/
def activatedHeap (w : World σ) : Heap :=
  ((w.heap.allocFor processHandler).2.allocFor notificationHandler).2

/-- The client is made active, and the task of a notification handler spawned. -/
def finish (w v : World σ) : World σ :=
  let v := (v.call lib self.client.client .activate).2
  (if notificationHandler.isSome then v.spawn else v).setHeap
    (activatedHeap processHandler notificationHandler w)

theorem finish_trace (w v : World σ) :
    (finish lib self processHandler notificationHandler w v).trace =
      v.trace ++ [.call self.client.client .activate
        (v.call lib self.client.client .activate).1] ++
          if notificationHandler.isSome then [.spawn] else [] := by
  cases notificationHandler <;> simp [finish, World.call]

variable {lib self processHandler notificationHandler flags}

/-- When no setter call fails the activation succeeds, whatever `jack_activate` returns. -/
theorem activate_ok {w v : World σ}
    (h : checkedCalls lib self.client.client (settersOf processHandler notificationHandler flags w)
      w = (.ok (), v)) :
    activate lib self processHandler notificationHandler flags w =
      (.ok (activated self processHandler notificationHandler w),
        finish lib self processHandler notificationHandler w v) := by
  simp only [settersOf, setters, checkedCalls_append] at h
  rcases hfirst : checkedCalls lib self.client.client
    (processCalls (processBox processHandler w)) w with ⟨_ | _, v₁⟩
  · simp [hfirst] at h
  rw [hfirst, Checked.andThen_ok] at h
  have hheap : (v₁.setHeap (w.heap.allocFor processHandler).2).heap =
      (w.heap.allocFor processHandler).2 := rfl
  simp only [activate, installProcess_eq lib self processHandler w, checkedCalls_setHeap, hfirst,
    installNotification_ok lib self processHandler notificationHandler w _ hheap,
    World.setHeap_setHeap]
  rw [← checkedCalls_setHeap, laterStages, boxedProcess_ptr, checkedCalls_setHeap, h]
  cases notificationHandler <;> rfl

/-- When a setter call fails everything passed in is given back, what took effect is undone
by `jack_release_timebase` and `jack_deactivate` alone, and the boxes are freed. -/
theorem activate_error {w v : World σ} {e : Error}
    (h : checkedCalls lib self.client.client (settersOf processHandler notificationHandler flags w)
      w = (.error e, v)) :
    ∃ heap : Heap, heap.live = w.heap.live ∧ w.heap.next ≤ heap.next ∧
      activate lib self processHandler notificationHandler flags w =
        (.error ⟨self, processHandler, notificationHandler⟩,
          (undo lib self.client flags v).setHeap heap) := by
  simp only [settersOf, setters, checkedCalls_append] at h
  rcases hfirst : checkedCalls lib self.client.client
    (processCalls (processBox processHandler w)) w with ⟨_ | _, v₁⟩
  · -- the process callbacks fail: the sender was never boxed
    rw [hfirst, Checked.andThen_error] at h
    cases h
    refine ⟨(freeBox (processBox processHandler w)
      (w.setHeap (w.heap.allocFor processHandler).2)).heap, ?_, ?_, ?_⟩
    · cases processHandler <;> simp [freeBox, processBox, Heap.free, Heap.alloc]
    · cases processHandler <;> simp [freeBox, processBox, Heap.free, Heap.alloc]
    · simp only [activate, installProcess_eq lib self processHandler w, checkedCalls_setHeap,
        hfirst, installNotification, laterStages_error, mapActivate, undo_setHeap,
        boxedProcess_ptr, boxedProcess_handler]
      cases processHandler <;> rfl
  · rw [hfirst, Checked.andThen_ok] at h
    have hheap : (v₁.setHeap (w.heap.allocFor processHandler).2).heap =
        (w.heap.allocFor processHandler).2 := rfl
    refine ⟨(freeBox (notificationBox processHandler notificationHandler w)
      (freeBox (processBox processHandler w)
        (w.setHeap (activatedHeap processHandler notificationHandler w)))).heap, ?_, ?_, ?_⟩
    · cases processHandler <;> cases notificationHandler <;>
        simp [freeBox, processBox, notificationBox, activatedHeap, Heap.free, Heap.alloc]
    · cases processHandler <;> cases notificationHandler <;>
        simp [freeBox, processBox, notificationBox, activatedHeap, Heap.free, Heap.alloc]
      exact Nat.le_add_right _ 2
    · simp only [activate, installProcess_eq lib self processHandler w, checkedCalls_setHeap,
        hfirst, installNotification_ok lib self processHandler notificationHandler w _ hheap,
        World.setHeap_setHeap]
      rw [← checkedCalls_setHeap, laterStages, boxedProcess_ptr, checkedCalls_setHeap, h]
      simp only [mapActivate, undo_setHeap, boxedProcess_handler]
      cases processHandler <;> cases notificationHandler <;> rfl

end Spec

end Jack2
