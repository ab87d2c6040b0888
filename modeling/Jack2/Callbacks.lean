import Jack2.Checked
import Jack2.Libjack

/-!
# Setting and clearing callbacks

The helpers of `callbacks.rs` over an arbitrary libjack: a state of its own and an answer
to every call. The world around the crate is that state, the record of what was done so
far and the boxes that are allocated.
-/
namespace Jack2

variable {σ : Type*}

/-- A libjack answers a call with a code and a state. -/
structure Libjack (σ : Type*) where
  call : JackClient → Call → σ → Int × σ

/-- A call with the code it returned, or the spawn of a notification task. -/
inductive Event where
  | call (client : JackClient) (call : Call) (ret : Int)
  | spawn
  deriving DecidableEq, Repr

structure Heap where
  next : BoxPtr
  live : List BoxPtr
  deriving DecidableEq, Repr

namespace Heap

/-- `Box::new` -/
def alloc (h : Heap) : Heap := ⟨h.next + 1, h.next :: h.live⟩

def free (h : Heap) (p : BoxPtr) : Heap := { h with live := h.live.erase p }

end Heap

structure World (σ : Type*) where
  jack : σ
  trace : List Event
  heap : Heap

namespace World

/-- A function without a return value is recorded with the code zero. -/
def call (lib : Libjack σ) (client : JackClient) (c : Call) (w : World σ) : Int × World σ :=
  let answer := lib.call client c w.jack
  let ret := if c.isVoid then 0 else answer.1
  (ret, { w with jack := answer.2, trace := w.trace ++ [.call client c ret] })

def spawn (w : World σ) : World σ := { w with trace := w.trace ++ [.spawn] }

def setHeap (w : World σ) (h : Heap) : World σ := { w with heap := h }

@[simp] theorem call_heap (lib : Libjack σ) (client : JackClient) (c : Call) (w : World σ) :
    (w.call lib client c).2.heap = w.heap := rfl
@[simp] theorem spawn_jack (w : World σ) : w.spawn.jack = w.jack := rfl
@[simp] theorem spawn_trace (w : World σ) : w.spawn.trace = w.trace ++ [.spawn] := rfl
@[simp] theorem spawn_heap (w : World σ) : w.spawn.heap = w.heap := rfl
@[simp] theorem setHeap_jack (w : World σ) (h : Heap) : (w.setHeap h).jack = w.jack := rfl
@[simp] theorem setHeap_trace (w : World σ) (h : Heap) : (w.setHeap h).trace = w.trace := rfl
@[simp] theorem setHeap_heap (w : World σ) (h : Heap) : (w.setHeap h).heap = h := rfl
@[simp] theorem setHeap_setHeap (w : World σ) (h h' : Heap) :
    (w.setHeap h).setHeap h' = w.setHeap h' := rfl
@[simp] theorem call_setHeap (lib : Libjack σ) (client : JackClient) (c : Call) (w : World σ)
    (h : Heap) : (w.setHeap h).call lib client c =
      ((w.call lib client c).1, (w.call lib client c).2.setHeap h) := rfl

end World

/-- Calls wrapped in `Error::check_ret(..)?`, one after the other. The code zero of a
function without a return value passes the check. -/
def checkedCalls (lib : Libjack σ) (client : JackClient) (calls : List Call) (w : World σ) :
    Except Error Unit × World σ :=
  Checked.exec checkRet (fun c w => w.call lib client c) calls w

/-- Set `kind` to `fn` with the argument, or to null without one. -/
def setCall (kind : CallbackKind) (fn : CallbackFn) (arg : Option BoxPtr) : Call :=
  .set kind (arg.map (Entry.mk fn))

/-- The calls of `set_process_callbacks` and `unset_process_callbacks`. -/
def processCalls (process : Option BoxPtr) : List Call :=
  [setCall .threadInit .threadInitCallback process, setCall .process .processCallback process]

/-- The calls of `set_notification_callbacks` and `unset_notification_callbacks`. -/
def notificationCalls (notification : Option BoxPtr) : List Call :=
  [setCall .shutdown .shutdownCallback notification,
    setCall .freewheel .freewheelCallback notification,
    setCall .bufferSize .bufferSizeCallback notification,
    setCall .sampleRate .sampleRateCallback notification,
    setCall .clientRegistration .clientRegistrationCallback notification,
    setCall .portRegistration .portRegistrationCallback notification,
    setCall .portConnect .portConnectCallback notification,
    setCall .portRename .portRenameCallback notification,
    setCall .graphOrder .graphOrderCallback notification,
    setCall .xrun .xrunCallback notification,
    setCall .propertyChange .propertyChangeCallback notification]

section Source

variable (lib : Libjack σ) (client : JackClient)

def setProcessCallbacks (process : BoxPtr) : World σ → Except Error Unit × World σ :=
  checkedCalls lib client (processCalls (some process))

def unsetProcessCallbacks : World σ → Except Error Unit × World σ :=
  checkedCalls lib client (processCalls none)

def setNotificationCallbacks (notification : BoxPtr) : World σ → Except Error Unit × World σ :=
  checkedCalls lib client (notificationCalls (some notification))

def unsetNotificationCallbacks : World σ → Except Error Unit × World σ :=
  checkedCalls lib client (notificationCalls none)

def setLatencyCallback (notification : BoxPtr) : World σ → Except Error Unit × World σ :=
  checkedCalls lib client [setCall .latency .latencyCallback (some notification)]

def unsetLatencyCallback : World σ → Except Error Unit × World σ :=
  checkedCalls lib client [setCall .latency .latencyCallback none]

def setSyncCallback (process : BoxPtr) : World σ → Except Error Unit × World σ :=
  checkedCalls lib client [setCall .sync .syncCallback (some process)]

def unsetSyncCallback : World σ → Except Error Unit × World σ :=
  checkedCalls lib client [setCall .sync .syncCallback none]

def setTimebaseCallback (conditional : Bool) (process : BoxPtr) :
    World σ → Except Error Unit × World σ :=
  checkedCalls lib client [.setTimebase conditional ⟨.timebaseCallback, process⟩]

end Source

theorem checkedCalls_cons (lib : Libjack σ) (client : JackClient) (c : Call) (cs : List Call)
    (w : World σ) : checkedCalls lib client (c :: cs) w =
      Checked.andThen (checkRet (w.call lib client c).1, (w.call lib client c).2)
        (checkedCalls lib client cs) := rfl

theorem checkedCalls_append (lib : Libjack σ) (client : JackClient) (as bs : List Call)
    (w : World σ) : checkedCalls lib client (as ++ bs) w =
      Checked.andThen (checkedCalls lib client as w) (checkedCalls lib client bs) :=
  Checked.exec_append as bs w

@[simp] theorem checkedCalls_setHeap (lib : Libjack σ) (client : JackClient) (cs : List Call)
    (w : World σ) (h : Heap) : checkedCalls lib client cs (w.setHeap h) =
      ((checkedCalls lib client cs w).1, (checkedCalls lib client cs w).2.setHeap h) := by
  have hframe : ∀ (c : Call) (v : World σ), (v.setHeap h).call lib client c =
      ((v.call lib client c).1, (v.call lib client c).2.setHeap h) := fun _ _ => rfl
  exact Checked.exec_frame hframe cs w

@[simp] theorem checkedCalls_heap (lib : Libjack σ) (client : JackClient) (cs : List Call)
    (w : World σ) : (checkedCalls lib client cs w).2.heap = w.heap := by
  have hkeep : ∀ c ∈ cs, ∀ v : World σ, v.heap = w.heap →
      (v.call lib client c).2.heap = w.heap := fun _ _ _ h => h
  exact Checked.exec_invariant hkeep rfl

/-- The calls made and their codes: all of them and none negative when the sequence
succeeds, and up to the first negative code when it fails. -/
structure Made (cs : List Call) (ok : Bool) (made : List (Call × Int)) : Prop where
  sublist : made.map Prod.fst <+: cs
  succeeds : ok = true → made.map Prod.fst = cs ∧ ∀ x ∈ made, 0 ≤ x.2
  fails : ok = false → ∃ before x, made = before ++ [x] ∧ (∀ y ∈ before, 0 ≤ y.2) ∧ x.2 < 0

theorem checkedCalls_made (lib : Libjack σ) (client : JackClient) (cs : List Call)
    (w : World σ) : ∃ made, Made cs (checkedCalls lib client cs w).1.isOk made ∧
      (checkedCalls lib client cs w).2.trace =
        w.trace ++ made.map fun x => .call client x.1 x.2 := by
  induction cs generalizing w with
  | nil => exact ⟨[], ⟨List.prefix_rfl, fun _ => ⟨rfl, by simp⟩, nofun⟩, by simp [checkedCalls]⟩
  | cons c cs ih =>
    rw [checkedCalls_cons]
    by_cases hret : (w.call lib client c).1 < 0
    · refine ⟨[(c, (w.call lib client c).1)], ⟨?_, ?_, ?_⟩, ?_⟩
      · exact ⟨cs, rfl⟩
      · simp [hret, Except.isOk, Except.toBool]
      · exact fun _ => ⟨[], _, rfl, by simp, hret⟩
      · simp only [checkRet_of_neg hret, Checked.andThen_error]
        rfl
    · have hok := checkRet_of_nonneg (Int.not_lt.mp hret)
      obtain ⟨made, hmade, htrace⟩ := ih (w.call lib client c).2
      rw [hok, Checked.andThen_ok]
      refine ⟨(c, (w.call lib client c).1) :: made, ⟨?_, ?_, ?_⟩, ?_⟩
      · simpa using hmade.sublist
      · intro h
        obtain ⟨hall, hnonneg⟩ := hmade.succeeds h
        refine ⟨by simp [hall], ?_⟩
        intro x hx
        rcases List.mem_cons.mp hx with rfl | hx
        · exact Int.not_lt.mp hret
        · exact hnonneg x hx
      · intro h
        obtain ⟨before, x, rfl, hbefore, hx⟩ := hmade.fails h
        refine ⟨(c, (w.call lib client c).1) :: before, x, rfl, ?_, hx⟩
        intro y hy
        rcases List.mem_cons.mp hy with rfl | hy
        · exact Int.not_lt.mp hret
        · exact hbefore y hy
      · rw [htrace]
        simp [World.call]

end Jack2
