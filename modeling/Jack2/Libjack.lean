import Mathlib.Data.Nat.Notation

/-!
# The vocabulary shared with libjack

The identifiers, callback kinds and foreign functions that the crate and libjack
exchange. Foreign addresses (`jack_client_t *`, `jack_port_t *`, callback
arguments) are natural numbers that stand for the object, not for its place in
memory, so an address that is handed out again is a different number.
-/
namespace Jack2

/-- `jack_client_t *`. -/
abbrev JackClient := ℕ

/-- `jack_port_t *`. The crate wraps each one in a single `Rc`. -/
abbrev JackPort := ℕ

/-- The address of a box that is passed to libjack as a callback argument. -/
abbrev BoxPtr := ℕ

/-- The field is a `NonZeroU64` in the source; `new_unchecked` can still put a zero there. -/
structure Uuid where
  value : UInt64
  deriving DecidableEq, Repr

structure OwnedPortUuid where
  uuid : Uuid
  deriving DecidableEq, Repr

/-- `crate::Error`. The last two are the `Failure`s of `Error::unknown` and
`Error::invalid_option`. -/
inductive Error where
  | invalidCString
  | libraryError
  | unknown
  | invalidOption
  deriving DecidableEq, Repr

/-- `Error::check_ret`. -/
def checkRet (ret : Int) : Except Error Unit :=
  if ret < 0 then .error .unknown else .ok ()

@[simp] theorem checkRet_of_neg {ret : Int} (h : ret < 0) : checkRet ret = .error .unknown := by
  simp [checkRet, h]

@[simp] theorem checkRet_of_nonneg {ret : Int} (h : 0 ≤ ret) : checkRet ret = .ok () := by
  simp [checkRet, Int.not_lt.mpr h]

/-- The callbacks libjack stores for a client, one entry each. -/
inductive CallbackKind where
  | threadInit | process | shutdown | freewheel | bufferSize | sampleRate
  | clientRegistration | portRegistration | portConnect | portRename | graphOrder
  | xrun | propertyChange | latency | sync | timebase
  deriving DecidableEq, Repr

/-- The `extern "C"` functions of `callbacks.rs`. -/
inductive CallbackFn where
  | threadInitCallback | processCallback | shutdownCallback | freewheelCallback
  | bufferSizeCallback | sampleRateCallback | clientRegistrationCallback
  | portRegistrationCallback | portConnectCallback | portRenameCallback
  | graphOrderCallback | xrunCallback | propertyChangeCallback | latencyCallback
  | syncCallback | timebaseCallback
  deriving DecidableEq, Repr

/-- A function together with the argument it will be called with. -/
structure Entry where
  fn : CallbackFn
  arg : BoxPtr
  deriving DecidableEq, Repr

/-- The libjack functions that take the client pointer. `set` stands for the fifteen
`jack_set_*_callback` and `jack_on_shutdown`, with `none` for a null function. -/
inductive Call where
  | set (kind : CallbackKind) (entry : Option Entry)
  | setTimebase (conditional : Bool) (entry : Entry)
  | releaseTimebase
  | activate
  | deactivate
  | clientClose
  | portRegister
  | portUnregister (port : JackPort)
  | getBufferSize
  | getSampleRate
  deriving DecidableEq, Repr

namespace Call

/-- `jack_on_shutdown` is the one callback setter that returns nothing. -/
def isVoid : Call → Bool
  | .set .shutdown _ => true
  | _ => false

/-- The calls that set or clear a callback. -/
def isSetter : Call → Bool
  | .set _ _ => true
  | .setTimebase _ _ => true
  | _ => false

end Call

/-- The thread a foreign call is made from. -/
inductive Thread where
  | main | process
  deriving DecidableEq, Repr

end Jack2
