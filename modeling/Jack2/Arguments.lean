import Jack2.Ownership
import Mathlib.Data.List.Dedup

/-!
# The string arguments of the API

The methods that take `impl AsRef<CStr>` or an `Option` of one. A parameter belongs to the
function and is dropped when it returns, unless it was moved; `Option::map` moves it into
its closure, and what the closure takes is dropped when the closure returns.
-/
namespace Jack2.Arguments

open Ownership

/-- A `CString`, or another value that frees its buffer when it is dropped, belongs to the
callee. What a reference or a `PropertyKey` points at stays with the caller. -/
inductive Arg where
  | owned
  | borrowed (place : ℕ)
  deriving DecidableEq, Repr

/-- The buffer of an owned argument goes by the position of its parameter. -/
inductive Buffer where
  | own (position : ℕ)
  | lent (place : ℕ)
  deriving DecidableEq, Repr

def Arg.buffer (position : ℕ) : Arg → Buffer
  | .owned => .own position
  | .borrowed place => .lent place

inductive ForeignFn where
  | jackGetPorts | jackPortByName | jackPortRename | jackPortRequestMonitorByName
  | jackConnect | jackDisconnect | jackGetUuidForClientName | jackSetProperty
  | jackRemoveProperty | jackGetProperty | jackPortConnectedTo | jackPortSetAlias
  | jackPortUnsetAlias
  deriving DecidableEq, Repr

abbrev Trace := List (Ownership.Event ForeignFn Buffer)

section Frames

/-- What a running function still owns, by position, and what has happened in it. -/
structure Frame where
  params : List (Option Arg)
  events : Trace

/-- How a call gets at the pointer of a string parameter. -/
inductive Access where
  | asRef (position : ℕ)
  | mapped (position : ℕ)

namespace Access

def position : Access → ℕ
  | .asRef i => i
  | .mapped i => i

end Access

def dropParam (position : ℕ) : Option Arg → Trace
  | some .owned => [.drop (.own position)]
  | _ => []

namespace Frame

/-- Nothing where the argument is absent, or was moved out. -/
def param (f : Frame) (position : ℕ) : Option Arg := f.params[position]?.join

def ptr (f : Frame) (position : ℕ) : Option Buffer := (f.param position).map (Arg.buffer position)

/-- `p.as_ref().as_ptr()`, and `p.map(|p| p.as_ref().as_ptr())` or a null pointer. The
closure owns its `p`. -/
def access (f : Frame) : Access → Option Buffer × Frame
  | .asRef i => (f.ptr i, f)
  | .mapped i =>
    (f.ptr i, { params := f.params.set i none, events := f.events ++ dropParam i (f.param i) })

/-- The arguments of a call, from the first to the last. -/
def accesses (f : Frame) : List Access → List (Option Buffer) × Frame
  | [] => ([], f)
  | a :: rest =>
    let first := f.access a
    let others := first.2.accesses rest
    (first.1 :: others.1, others.2)

def call (fn : ForeignFn) (args : List Access) (f : Frame) : Frame :=
  let given := f.accesses args
  { given.2 with events := given.2.events ++ [.enter fn given.1, .leave fn given.1] }

/-- Returning drops the parameters that are left, the last one first. -/
def ret (f : Frame) : Trace :=
  f.events ++ f.params.zipIdx.reverse.flatMap fun p => dropParam p.2 p.1

end Frame

end Frames

section Methods

/-! The string parameters of a method are counted from zero. -/

def ports : Frame → Frame := Frame.call .jackGetPorts [.mapped 0, .mapped 1]

def portByName : Frame → Frame := Frame.call .jackPortByName [.asRef 0]

/-- A port that is not in the map of registered ports is refused before the call. -/
def portRename (registered : Bool) (f : Frame) : Frame :=
  if registered then f.call .jackPortRename [.asRef 0] else f

def portRequestMonitorByName : Frame → Frame := Frame.call .jackPortRequestMonitorByName [.asRef 0]

def connect : Frame → Frame := Frame.call .jackConnect [.asRef 0, .asRef 1]

def disconnect : Frame → Frame := Frame.call .jackDisconnect [.asRef 0, .asRef 1]

def uuidForClientName : Frame → Frame := Frame.call .jackGetUuidForClientName [.asRef 0]

def setProperty : Frame → Frame := Frame.call .jackSetProperty [.asRef 0, .asRef 1, .mapped 2]

def removeProperty : Frame → Frame := Frame.call .jackRemoveProperty [.asRef 0]

/-- `weak_library()?` returns before the key is looked at. -/
def property (loaded : Bool) (f : Frame) : Frame :=
  if loaded then f.call .jackGetProperty [.asRef 0] else f

def connectedTo : Frame → Frame := Frame.call .jackPortConnectedTo [.asRef 0]

def setAlias : Frame → Frame := Frame.call .jackPortSetAlias [.asRef 0]

def unsetAlias : Frame → Frame := Frame.call .jackPortUnsetAlias [.asRef 0]

end Methods

section Callers

/-- The buffers of the arguments, wherever they are. -/
def buffers (args : List (Option Arg)) : List Buffer :=
  args.zipIdx.filterMap fun p => p.1.map (Arg.buffer p.2)

def Buffer.isLent : Buffer → Bool
  | .own _ => false
  | .lent _ => true

/-- The caller creates the strings, calls the method, and drops what it only lent. -/
def trace (args : List (Option Arg)) (body : Frame → Frame) : Trace :=
  (buffers args).dedup.map .create ++ (body ⟨args, []⟩).ret ++
    ((buffers args).dedup.filter Buffer.isLent).map .drop

/-- A call of the API with its string arguments. -/
inductive Request where
  | ports (portNamePattern typeNamePattern : Option Arg)
  | portByName (name : Arg)
  | portRename (registered : Bool) (portName : Arg)
  | portRequestMonitorByName (portName : Arg)
  | connect (sourcePort destinationPort : Arg)
  | disconnect (sourcePort destinationPort : Arg)
  | uuidForClientName (name : Arg)
  | setProperty (key value : Arg) (type : Option Arg)
  | removeProperty (key : Arg)
  | property (loaded : Bool) (key : Arg)
  | connectedTo (portName : Arg)
  | setAlias (alias_ : Arg)
  | unsetAlias (alias_ : Arg)

namespace Request

def trace : Request → Trace
  | .ports a b => Arguments.trace [a, b] Arguments.ports
  | .portByName a => Arguments.trace [some a] Arguments.portByName
  | .portRename registered a => Arguments.trace [some a] (Arguments.portRename registered)
  | .portRequestMonitorByName a => Arguments.trace [some a] Arguments.portRequestMonitorByName
  | .connect a b => Arguments.trace [some a, some b] Arguments.connect
  | .disconnect a b => Arguments.trace [some a, some b] Arguments.disconnect
  | .uuidForClientName a => Arguments.trace [some a] Arguments.uuidForClientName
  | .setProperty a b c => Arguments.trace [some a, some b, c] Arguments.setProperty
  | .removeProperty a => Arguments.trace [some a] Arguments.removeProperty
  | .property loaded a => Arguments.trace [some a] (Arguments.property loaded)
  | .connectedTo a => Arguments.trace [some a] Arguments.connectedTo
  | .setAlias a => Arguments.trace [some a] Arguments.setAlias
  | .unsetAlias a => Arguments.trace [some a] Arguments.unsetAlias

/-- The optional arguments: the two patterns of `ports` and the type of `set_property`. -/
def optional : Request → List (Option Arg)
  | .ports a b => [a, b]
  | .setProperty _ _ c => [c]
  | _ => []

end Request

end Callers

section Calls

/-- What is dropped as soon as the pointer is taken. -/
def Frame.dropped (f : Frame) : Access → Trace
  | .asRef _ => []
  | .mapped i => dropParam i (f.param i)

theorem param_access_of_ne {f : Frame} {a : Access} {i : ℕ} (hi : a.position ≠ i) :
    (f.access a).2.param i = f.param i := by
  cases a with
  | asRef j => rfl
  | mapped j =>
    have hij : j ≠ i := hi
    simp only [Frame.access, Frame.param, List.getElem?_set_ne hij]

theorem events_access (f : Frame) (a : Access) :
    (f.access a).2.events = f.events ++ f.dropped a := by
  cases a with
  | asRef i => exact (List.append_nil f.events).symm
  | mapped i => rfl

theorem ptr_access (f : Frame) (a : Access) : (f.access a).1 = f.ptr a.position := by
  cases a <;> rfl

theorem dropped_congr {f g : Frame} {a : Access} (h : g.param a.position = f.param a.position) :
    g.dropped a = f.dropped a := by
  cases a with
  | asRef i => rfl
  | mapped i =>
    have hi : g.param i = f.param i := h
    rw [Frame.dropped, Frame.dropped, hi]

/-- Parameters that are each used once are all found where they were at the start. -/
theorem accesses_eq (args : List Access) (hnodup : (args.map Access.position).Nodup) (f : Frame) :
    (f.accesses args).1 = args.map (fun a => f.ptr a.position) ∧
      (f.accesses args).2.events = f.events ++ args.flatMap f.dropped := by
  induction args generalizing f with
  | nil => simp [Frame.accesses]
  | cons a rest ih =>
    rw [List.map_cons, List.nodup_cons] at hnodup
    obtain ⟨hptrs, hevents⟩ := ih hnodup.2 (f.access a).2
    have hother : ∀ b ∈ rest, (f.access a).2.param b.position = f.param b.position := by
      intro b hb
      apply param_access_of_ne
      intro he
      exact hnodup.1 (List.mem_map.mpr ⟨b, hb, he.symm⟩)
    constructor
    · simp only [Frame.accesses, List.map_cons, hptrs, ptr_access]
      congr 1
      apply List.map_congr_left
      intro b hb
      rw [Frame.ptr, hother b hb, Frame.ptr]
    · simp only [Frame.accesses, hevents, List.flatMap_cons, events_access, List.append_assoc]
      congr 2
      apply List.flatMap_congr
      intro b hb
      exact dropped_congr (hother b hb)

theorem isLeave_dropParam {i : ℕ} {a : Option Arg} {e : Ownership.Event ForeignFn Buffer}
    (he : e ∈ dropParam i a) : e.isLeave = false := by
  unfold dropParam at he
  split at he
  · rw [List.mem_singleton] at he
    rw [he]
    rfl
  · cases he

theorem mem_dropped {f : Frame} {a : Access} {e : Ownership.Event ForeignFn Buffer} :
    e ∈ f.dropped a ↔ ∃ i, a = .mapped i ∧ f.param i = some .owned ∧ e = .drop (.own i) := by
  cases a with
  | asRef i => simp [Frame.dropped]
  | mapped i =>
    rcases hp : f.param i with _ | _ | place
    · simp [Frame.dropped, dropParam, hp]
    · simp [Frame.dropped, dropParam, hp]
    · simp [Frame.dropped, dropParam, hp]

theorem mem_buffers {args : List (Option Arg)} {i : ℕ} {a : Arg}
    (h : args[i]?.join = some a) : a.buffer i ∈ buffers args := by
  have hi : args[i]? = some (some a) := Option.join_eq_some_iff.mp h
  apply List.mem_filterMap.mpr
  refine ⟨(some a, i), ?_, rfl⟩
  exact List.mem_zipIdx_iff_getElem?.mpr hi

/-- The frame a method starts with, seen from the pointers of its call. -/
def given (params : List (Option Arg)) (args : List Access) : List (Option Buffer) :=
  args.map fun a => Frame.ptr ⟨params, []⟩ a.position

/-- The trace up to the return of the foreign function. -/
def beforeReturn (params : List (Option Arg)) (fn : ForeignFn) (args : List Access) : Trace :=
  (buffers params).dedup.map .create ++ args.flatMap (Frame.dropped ⟨params, []⟩) ++
    [.enter fn (given params args)]

theorem trace_call (params : List (Option Arg)) (fn : ForeignFn) {args : List Access}
    (hnodup : (args.map Access.position).Nodup) :
    ∃ after : Trace, (∀ e ∈ after, e.isLeave = false) ∧
      trace params (Frame.call fn args) =
        beforeReturn params fn args ++ .leave fn (given params args) :: after := by
  obtain ⟨hptrs, hevents⟩ := accesses_eq args hnodup ⟨params, []⟩
  exists ((Frame.accesses ⟨params, []⟩ args).2.params.zipIdx.reverse.flatMap fun p =>
    dropParam p.2 p.1) ++ ((buffers params).dedup.filter Buffer.isLent).map .drop
  constructor
  · intro e he
    simp only [List.mem_append, List.mem_map, List.mem_flatMap] at he
    rcases he with ⟨p, -, hp⟩ | ⟨b, -, rfl⟩
    · exact isLeave_dropParam hp
    · rfl
  · simp [trace, Frame.call, Frame.ret, hptrs, hevents, beforeReturn, given]

theorem isLeave_beforeReturn {params : List (Option Arg)} {fn : ForeignFn} {args : List Access}
    {e : Ownership.Event ForeignFn Buffer} (he : e ∈ beforeReturn params fn args) : e.isLeave = false := by
  simp only [beforeReturn, List.mem_append, List.mem_map, List.mem_flatMap,
    List.mem_singleton] at he
  rcases he with (⟨b, -, rfl⟩ | ⟨a, -, ha⟩) | rfl
  · rfl
  · obtain ⟨i, -, -, rfl⟩ := mem_dropped.mp ha
    rfl
  · rfl

theorem create_mem_beforeReturn {params : List (Option Arg)} {fn : ForeignFn}
    {args : List Access} {b : Buffer} (hb : some b ∈ given params args) :
    .create b ∈ beforeReturn params fn args := by
  obtain ⟨a, -, ha⟩ := List.mem_map.mp hb
  obtain ⟨p, hp, rfl⟩ := Option.map_eq_some_iff.mp ha
  have hmem : p.buffer a.position ∈ buffers params := mem_buffers hp
  simp [beforeReturn, hmem]

theorem drop_mem_beforeReturn {params : List (Option Arg)} {fn : ForeignFn}
    {args : List Access} {b : Buffer} :
    .drop b ∈ beforeReturn params fn args ↔
      ∃ i, .mapped i ∈ args ∧ params[i]?.join = some .owned ∧ b = .own i := by
  simp only [beforeReturn, List.mem_append, List.mem_map, List.mem_flatMap, List.mem_singleton,
    mem_dropped, reduceCtorEq, and_false, exists_false, false_or, or_false]
  constructor
  · rintro ⟨a, ha, i, rfl, hp, hb⟩
    exact ⟨i, ha, hp, Ownership.Event.drop.inj hb⟩
  · rintro ⟨i, ha, hp, rfl⟩
    exact ⟨_, ha, i, rfl, hp, rfl⟩

/-- A call is safe exactly when no owned argument is moved into a closure for its pointer. -/
theorem outlives_call_iff {contents : Buffer → List UInt8} (params : List (Option Arg))
    (fn : ForeignFn) {args : List Access} (hnodup : (args.map Access.position).Nodup) :
    Outlives contents (trace params (Frame.call fn args)) ↔
      ∀ i, .mapped i ∈ args → params[i]?.join ≠ some .owned := by
  obtain ⟨after, hafter, htrace⟩ := trace_call params fn hnodup
  rw [htrace, outlives_single_iff (fun e => isLeave_beforeReturn) hafter
    (fun b => create_mem_beforeReturn)]
  constructor
  · intro h i hi hp
    apply h (.own i)
    · apply List.mem_map.mpr
      refine ⟨.mapped i, hi, ?_⟩
      exact Option.map_eq_some_iff.mpr ⟨.owned, hp, rfl⟩
    · exact drop_mem_beforeReturn.mpr ⟨i, hi, hp, rfl⟩
  · intro h b hb hd
    obtain ⟨i, hi, hp, -⟩ := drop_mem_beforeReturn.mp hd
    exact h i hi hp

/-- A method that only takes references is safe whatever it is given. -/
theorem outlives_call_asRef {contents : Buffer → List UInt8} (params : List (Option Arg))
    (fn : ForeignFn) {args : List Access} (hnodup : (args.map Access.position).Nodup)
    (hrefs : ∀ i, .mapped i ∉ args) : Outlives contents (trace params (Frame.call fn args)) := by
  rw [outlives_call_iff params fn hnodup]
  intro i hi
  exact absurd hi (hrefs i)

/-- A method that returns before its call is safe too. -/
theorem outlives_uncalled {contents : Buffer → List UInt8} (params : List (Option Arg)) :
    Outlives contents (trace params fun f => f) := by
  apply outlives_of_no_leave
  intro e he
  simp only [trace, Frame.ret, List.mem_append, List.mem_map, List.mem_flatMap,
    List.not_mem_nil, false_or] at he
  rcases he with (⟨b, -, rfl⟩ | ⟨p, -, hp⟩) | ⟨b, -, rfl⟩
  · rfl
  · exact isLeave_dropParam hp
  · rfl

end Calls

section Requests

theorem outlives_ports_iff {contents : Buffer → List UInt8} (a b : Option Arg) :
    Outlives contents (Request.ports a b).trace ↔ a ≠ some .owned ∧ b ≠ some .owned := by
  rw [Request.trace, ports, outlives_call_iff _ _ (by decide)]
  constructor
  · intro h
    constructor
    · simpa using h 0 (by simp)
    · simpa using h 1 (by simp)
  · rintro ⟨ha, hb⟩ i hi
    simp only [List.mem_cons, Access.mapped.injEq, List.not_mem_nil, or_false] at hi
    rcases hi with rfl | rfl
    · simpa using ha
    · simpa using hb

theorem outlives_setProperty_iff {contents : Buffer → List UInt8} (a b : Arg) (c : Option Arg) :
    Outlives contents (Request.setProperty a b c).trace ↔ c ≠ some .owned := by
  rw [Request.trace, setProperty, outlives_call_iff _ _ (by decide)]
  constructor
  · intro h
    simpa using h 2 (by simp)
  · intro hc i hi
    simp only [List.mem_cons, reduceCtorEq, Access.mapped.injEq, List.not_mem_nil, or_false,
      false_or] at hi
    subst hi
    simpa using hc

theorem outlives_of_no_optional {contents : Buffer → List UInt8} (r : Request)
    (h : r.optional = []) : Outlives contents r.trace := by
  cases r with
  | ports a b => cases h
  | setProperty a b c => cases h
  | portRename registered a =>
    cases registered with
    | false => exact outlives_uncalled [some a]
    | true => exact outlives_call_asRef [some a] .jackPortRename (by decide) (by simp)
  | property loaded a =>
    cases loaded with
    | false => exact outlives_uncalled [some a]
    | true => exact outlives_call_asRef [some a] .jackGetProperty (by decide) (by simp)
  | _ => exact outlives_call_asRef _ _ (by decide) (by simp)

/-- What libjack is given outlives the call for exactly the requests whose optional
arguments are absent or borrowed. -/
theorem strings_outlive_call_iff (contents : Buffer → List UInt8) (r : Request) :
    Outlives contents r.trace ↔ ∀ a ∈ r.optional, a ≠ some .owned := by
  cases r with
  | ports a b =>
    rw [outlives_ports_iff]
    simp [Request.optional]
  | setProperty a b c =>
    rw [outlives_setProperty_iff]
    simp [Request.optional]
  | _ => simpa only [Request.optional, List.not_mem_nil, false_implies, implies_true, iff_true]
      using outlives_of_no_optional _ rfl

/-- An owned pattern is gone when `jack_get_ports` gets to read it. -/
theorem ports_owned_pattern_dropped :
    ¬ Outlives (fun _ => [0x73, 0x2e, 0x2a]) (Request.ports (some .owned) none).trace := by
  intro h
  have hdrop := h.kept [.create (.own 0), .drop (.own 0), .enter .jackGetPorts [some (.own 0), none]]
    .jackGetPorts [some (.own 0), none] [] rfl (.own 0) (by simp)
  exact hdrop (by simp)

end Requests

end Jack2.Arguments
