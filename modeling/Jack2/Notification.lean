import Jack2.Libjack

/-!
# Notifications

The arguments with which libjack runs the notification callbacks, the message each callback
sends, and the handler method each message is dispatched to.
-/
namespace Jack2

/-- An owned C string: bytes without a NUL. -/
structure CString where
  bytes : List UInt8
  noNul : (0 : UInt8) ∉ bytes
  deriving DecidableEq

/-- The field is a `NonZeroU32` in the source; `new_unchecked` can still put a zero there. -/
structure PortId where
  value : UInt32
  deriving DecidableEq, Repr

/-- The constants of the generated bindings that the callbacks compare with. -/
structure Sys where
  captureLatency : UInt32
  playbackLatency : UInt32
  propertyCreated : UInt32
  propertyChanged : UInt32
  propertyDeleted : UInt32

inductive LatencyMode where
  | capture | playback
  deriving DecidableEq, Repr

def LatencyMode.fromJack (sys : Sys) (mode : UInt32) : Option LatencyMode :=
  if mode = sys.captureLatency then some .capture
  else if mode = sys.playbackLatency then some .playback
  else none

inductive PropertyChange where
  | created | changed | deleted
  deriving DecidableEq, Repr

/-- A code that is none of the three counts as a change. -/
def PropertyChange.fromJack (sys : Sys) (change : UInt32) : PropertyChange :=
  if change = sys.propertyCreated then .created
  else if change = sys.propertyChanged then .changed
  else if change = sys.propertyDeleted then .deleted
  else .changed

inductive Notification where
  | shutdown
  | freewheel (enabled : Bool)
  | bufferSize (frames : UInt32)
  | sampleRate (frames : UInt32)
  | clientRegister (name : CString)
  | clientUnregister (name : CString)
  | portRegister (port : PortId)
  | portUnregister (port : PortId)
  | portConnect (a b : PortId)
  | portDisconnect (a b : PortId)
  | portRename (port : PortId) (oldName newName : CString)
  | graphOrder
  | xrun
  | latency (mode : LatencyMode)
  | propertyChange (subject : Uuid) (key : Option CString) (change : PropertyChange)
  deriving DecidableEq

/-- The methods of `NotificationHandler`, with their arguments. -/
inductive HandlerCall where
  | shutdown
  | freewheel (enabled : Bool)
  | bufferSize (frames : UInt32)
  | sampleRate (frames : UInt32)
  | clientRegister (name : CString)
  | clientUnregister (name : CString)
  | portRegister (port : PortId)
  | portUnregister (port : PortId)
  | portConnect (a b : PortId)
  | portDisconnect (a b : PortId)
  | portRename (port : PortId) (oldName newName : CString)
  | graphOrder
  | xrun
  | latency (mode : LatencyMode)
  | propertyChange (subject : Uuid) (key : Option CString) (change : PropertyChange)
  deriving DecidableEq

/-- The default `NotificationHandler::notification`. -/
def Notification.notification : Notification → HandlerCall
  | .shutdown => .shutdown
  | .freewheel enabled => .freewheel enabled
  | .bufferSize frames => .bufferSize frames
  | .sampleRate frames => .sampleRate frames
  | .clientRegister name => .clientRegister name
  | .clientUnregister name => .clientUnregister name
  | .portRegister port => .portRegister port
  | .portUnregister port => .portUnregister port
  | .portConnect a b => .portConnect a b
  | .portDisconnect a b => .portDisconnect a b
  | .portRename port oldName newName => .portRename port oldName newName
  | .graphOrder => .graphOrder
  | .xrun => .xrun
  | .latency mode => .latency mode
  | .propertyChange subject key change => .propertyChange subject key change

/-- One callback of the server, with the C arguments it passes. A string is what its
pointer points to, and a null key is `none`. -/
inductive ServerCall where
  | shutdown
  | freewheel (starting : Int32)
  | bufferSize (frames : UInt32)
  | sampleRate (frames : UInt32)
  | clientRegistration (name : CString) (register : Int32)
  | portRegistration (port : UInt32) (register : Int32)
  | portConnect (a b : UInt32) (connect : Int32)
  | portRename (port : UInt32) (oldName newName : CString)
  | graphOrder
  | xrun
  | propertyChange (subject : UInt64) (key : Option CString) (change : UInt32)
  | latency (mode : UInt32)
  deriving DecidableEq

/-- The kind whose entry libjack looks up for a callback. -/
def ServerCall.kind : ServerCall → CallbackKind
  | .shutdown => .shutdown
  | .freewheel _ => .freewheel
  | .bufferSize _ => .bufferSize
  | .sampleRate _ => .sampleRate
  | .clientRegistration _ _ => .clientRegistration
  | .portRegistration _ _ => .portRegistration
  | .portConnect _ _ _ => .portConnect
  | .portRename _ _ _ => .portRename
  | .graphOrder => .graphOrder
  | .xrun => .xrun
  | .propertyChange _ _ _ => .propertyChange
  | .latency _ => .latency

theorem ServerCall.kind_ne_timebase (c : ServerCall) : c.kind ≠ .timebase := by
  cases c <;> simp [ServerCall.kind]

section Callbacks

def shutdownCallback : Option Notification := some .shutdown

def freewheelCallback (starting : Int32) : Option Notification :=
  let enabled := starting != 0
  some (.freewheel enabled)

def bufferSizeCallback (frames : UInt32) : Option Notification := some (.bufferSize frames)

def sampleRateCallback (frames : UInt32) : Option Notification := some (.sampleRate frames)

def clientRegistrationCallback (name : CString) (register : Int32) : Option Notification :=
  if register != 0 then some (.clientRegister name) else some (.clientUnregister name)

/-- `PortId(NonZeroU32::new_unchecked(port))` -/
def portRegistrationCallback (port : UInt32) (register : Int32) : Option Notification :=
  let port := PortId.mk port
  if register != 0 then some (.portRegister port) else some (.portUnregister port)

def portConnectCallback (a b : UInt32) (connect : Int32) : Option Notification :=
  let a := PortId.mk a
  let b := PortId.mk b
  if connect != 0 then some (.portConnect a b) else some (.portDisconnect a b)

def portRenameCallback (port : UInt32) (oldName newName : CString) : Option Notification :=
  let port := PortId.mk port
  some (.portRename port oldName newName)

def graphOrderCallback : Option Notification := some .graphOrder

def xrunCallback : Option Notification := some .xrun

/-- `Uuid(NonZeroU64::new_unchecked(subject))` -/
def propertyChangeCallback (sys : Sys) (subject : UInt64) (key : Option CString)
    (change : UInt32) : Option Notification :=
  some (.propertyChange ⟨subject⟩ key (.fromJack sys change))

def latencyCallback (sys : Sys) (mode : UInt32) : Option Notification :=
  match LatencyMode.fromJack sys mode with
  | some mode => some (.latency mode)
  | none => none

/-- The message that a callback sends, if any. -/
def ServerCall.sends (sys : Sys) : ServerCall → Option Notification
  | .shutdown => shutdownCallback
  | .freewheel starting => freewheelCallback starting
  | .bufferSize frames => bufferSizeCallback frames
  | .sampleRate frames => sampleRateCallback frames
  | .clientRegistration name register => clientRegistrationCallback name register
  | .portRegistration port register => portRegistrationCallback port register
  | .portConnect a b connect => portConnectCallback a b connect
  | .portRename port oldName newName => portRenameCallback port oldName newName
  | .graphOrder => graphOrderCallback
  | .xrun => xrunCallback
  | .propertyChange subject key change => propertyChangeCallback sys subject key change
  | .latency mode => latencyCallback sys mode

end Callbacks

/-- What libjack promises of the arguments. -/
def ServerCall.WellFormed (sys : Sys) : ServerCall → Prop
  | .portRegistration port _ => port ≠ 0
  | .portConnect a b _ => a ≠ 0 ∧ b ≠ 0
  | .portRename port _ _ => port ≠ 0
  | .propertyChange subject _ _ => subject ≠ 0
  | .latency mode => mode = sys.captureLatency ∨ mode = sys.playbackLatency
  | _ => True

/-- The one method call that a callback should come to. -/
def ServerCall.decoding (sys : Sys) : ServerCall → HandlerCall
  | .shutdown => .shutdown
  | .freewheel starting => .freewheel (starting ≠ 0)
  | .bufferSize frames => .bufferSize frames
  | .sampleRate frames => .sampleRate frames
  | .clientRegistration name register =>
    if register = 0 then .clientUnregister name else .clientRegister name
  | .portRegistration port register =>
    if register = 0 then .portUnregister ⟨port⟩ else .portRegister ⟨port⟩
  | .portConnect a b connect =>
    if connect = 0 then .portDisconnect ⟨a⟩ ⟨b⟩ else .portConnect ⟨a⟩ ⟨b⟩
  | .portRename port oldName newName => .portRename ⟨port⟩ oldName newName
  | .graphOrder => .graphOrder
  | .xrun => .xrun
  | .propertyChange subject key change =>
    if change = sys.propertyCreated then .propertyChange ⟨subject⟩ key .created
    else if change = sys.propertyChanged then .propertyChange ⟨subject⟩ key .changed
    else if change = sys.propertyDeleted then .propertyChange ⟨subject⟩ key .deleted
    else .propertyChange ⟨subject⟩ key .changed
  | .latency mode => .latency (if mode = sys.captureLatency then .capture else .playback)

/-- A well-formed callback sends one message, which is dispatched to its decoding. -/
theorem sends_of_wellFormed {sys : Sys} {c : ServerCall} (h : c.WellFormed sys) :
    ∃ n, c.sends sys = some n ∧ n.notification = c.decoding sys := by
  cases c with
  | clientRegistration name register =>
    by_cases hr : register = 0 <;>
      simp [ServerCall.sends, clientRegistrationCallback, ServerCall.decoding, hr,
        Notification.notification]
  | portRegistration port register =>
    by_cases hr : register = 0 <;>
      simp [ServerCall.sends, portRegistrationCallback, ServerCall.decoding, hr,
        Notification.notification]
  | portConnect a b connect =>
    by_cases hr : connect = 0 <;>
      simp [ServerCall.sends, portConnectCallback, ServerCall.decoding, hr,
        Notification.notification]
  | freewheel starting =>
    refine ⟨_, rfl, ?_⟩
    by_cases hr : starting = 0 <;> simp [Notification.notification, ServerCall.decoding, hr]
  | propertyChange subject key change =>
    refine ⟨_, rfl, ?_⟩
    simp only [Notification.notification, PropertyChange.fromJack, ServerCall.decoding]
    split
    · rfl
    · split
      · rfl
      · split
        · rfl
        · rfl
  | latency mode =>
    have hmode : LatencyMode.fromJack sys mode =
        some (if mode = sys.captureLatency then .capture else .playback) := by
      rcases h with rfl | rfl
      · simp [LatencyMode.fromJack]
      · simp only [LatencyMode.fromJack, if_true]
        split <;> rfl
    refine ⟨.latency (if mode = sys.captureLatency then .capture else .playback), ?_, rfl⟩
    simp only [ServerCall.sends, latencyCallback, hmode]
  | _ => exact ⟨_, rfl, rfl⟩

end Jack2
