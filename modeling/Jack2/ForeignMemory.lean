import Jack2.Ledger
import Jack2.Notification
import Jack2.Run
import Jack2.Uuid
import Mathlib.Algebra.BigOperators.Group.Multiset.Basic

/-!
# Memory that belongs to libjack

The calls that are handed strings, port lists and property descriptions, and the
destructors that release them. What libjack answers is a parameter of each call, and a
pointer is numbered by the order in which libjack hands it over.
-/
namespace Jack2.ForeignMemory

open Jack2.Run Jack2.Ledger

/-- `jack_free` releases a block, `jack_free_description` what a description refers to. -/
inductive Kind where
  | block | description
  deriving DecidableEq, Repr

structure Ptr where
  kind : Kind
  number : ℕ
  deriving DecidableEq, Repr

/-- The string of `jack_get_client_name`. The client owns it, and nothing hands it over. -/
def clientName : Ptr := ⟨.block, 0⟩

structure Memory where
  entries : List (Ledger.Entry Ptr)
  next : ℕ

namespace Memory

def init : Memory := ⟨[], 1⟩

def take (m : Memory) (kind : Kind) : Memory :=
  { entries := m.entries ++ [.taken ⟨kind, m.next⟩], next := m.next + 1 }

def give (m : Memory) (p : Ptr) : Memory := { m with entries := m.entries ++ [.given p] }

@[simp] theorem take_entries (m : Memory) (kind : Kind) :
    (m.take kind).entries = m.entries ++ [.taken ⟨kind, m.next⟩] := rfl
@[simp] theorem take_next (m : Memory) (kind : Kind) : (m.take kind).next = m.next + 1 := rfl
@[simp] theorem give_entries (m : Memory) (p : Ptr) :
    (m.give p).entries = m.entries ++ [.given p] := rfl
@[simp] theorem give_next (m : Memory) (p : Ptr) : (m.give p).next = m.next := rfl

def jackFree (m : Memory) (ptr : ℕ) : Memory := m.give ⟨.block, ptr⟩

def jackFreeDescription (m : Memory) (desc : ℕ) : Memory := m.give ⟨.description, desc⟩

/-- A null pointer, or a block that libjack hands over with what it holds. -/
def answer {α : Type*} (m : Memory) : Option α → Option (ℕ × α) × Memory
  | none => (none, m)
  | some a => (some (m.next, a), m.take .block)

def handDescriptions : Memory → ℕ → List ℕ × Memory
  | m, 0 => ([], m)
  | m, count + 1 =>
    let rest := handDescriptions (m.take .description) count
    (m.next :: rest.1, rest.2)

end Memory

/-- Undefined behaviour does not run destructors; a return or an unwinding does. -/
def dropping {α : Type*} (r : Outcome α) (drop : Memory → Memory) (m : Memory) :
    Outcome α × Memory :=
  match r with
  | .done a => (.done a, drop m)
  | .panic => (.panic, drop m)
  | .undefined => (.undefined, m)

section Strings

/-- `JackStr`: a block that is never null, with the string in it. -/
structure JackStr where
  ptr : ℕ
  string : CString

def JackStr.asCString (s : JackStr) : CString := s.string

def JackStr.drop (s : JackStr) (m : Memory) : Memory := m.jackFree s.ptr

/-- `Client::name` -/
def name (string : CString) (m : Memory) : CString × Memory :=
  let ptr : JackStr := ⟨clientName.number, string⟩
  (ptr.asCString, ptr.drop m)

/-- `Uuid::from_raw` with the memory. The `unwrap` comes before the release. -/
def Uuid.fromRaw (lib : UuidParse) (ptr : Option (ℕ × CString)) (m : Memory) :
    Outcome (Option Uuid) × Memory :=
  match ptr with
  | none => (.done none, m)
  | some (ptr, string) =>
    match (Uuid.fromStr lib string.bytes).unwrap with
    | .done uuid => (.done (some uuid), m.jackFree ptr)
    | .panic => (.panic, m)
    | .undefined => (.undefined, m)

/-- `Client::uuid_for_client_name` -/
def uuidForClientName (lib : UuidParse) (answer : Option CString) (m : Memory) :
    Outcome (Option Uuid) × Memory :=
  let ptr := m.answer answer
  Uuid.fromRaw lib ptr.1 ptr.2

/-- `Client::uuid` -/
def uuid (lib : UuidParse) (answer : Option CString) (m : Memory) : Outcome Uuid × Memory :=
  let ptr := m.answer answer
  match Uuid.fromRaw lib ptr.1 ptr.2 with
  | (.done (some uuid), m) => (.done uuid, m)
  | (.done none, m) => (.panic, m)
  | (.panic, m) => (.panic, m)
  | (.undefined, m) => (.undefined, m)

/-- `Client::client_name_by_uuid` -/
def clientNameByUuid (answer : Option CString) (m : Memory) : Option CString × Memory :=
  match m.answer answer with
  | (none, m) => (none, m)
  | (some (ptr, string), m) =>
    let ptr : JackStr := ⟨ptr, string⟩
    (some ptr.asCString, ptr.drop m)

end Strings

section PortLists

/-- The cells of the array from `iter` on, where `none` is the null pointer that ends it.
The loop looks for a null `iter`, not for a null cell, and an address that was advanced
is not null: it reads on until it makes a string of a null pointer or leaves the array. -/
def PortList.readFrom : List (Option CString) → List CString → Outcome (List CString)
  | some name :: cells, names => PortList.readFrom cells (names ++ [name])
  | none :: _, _ => .undefined
  | [], _ => .undefined

abbrev PortList := Option (ℕ × List (Option CString))

def PortList.toVec : PortList → Outcome (List CString)
  | none => .done []
  | some (_, cells) => PortList.readFrom cells []

def PortList.drop (list : PortList) (m : Memory) : Memory :=
  match list with
  | none => m
  | some (ptr, _) => m.jackFree ptr

/-- The temporary `PortList` of a function that returns its `to_vec`. -/
def portNames (answer : Option (List (Option CString))) (m : Memory) :
    Outcome (List CString) × Memory :=
  let list := m.answer answer
  dropping (PortList.toVec list.1) (PortList.drop list.1) list.2

/-- `Client::ports` -/
def ports (answer : Option (List (Option CString))) (m : Memory) :
    Outcome (List CString) × Memory := portNames answer m

/-- `Client::port_get_all_connections` -/
def portGetAllConnections (answer : Option (List (Option CString))) (m : Memory) :
    Outcome (List CString) × Memory := portNames answer m

/-- `Port::connections` -/
def connections (answer : Option (List (Option CString))) (m : Memory) :
    Outcome (List CString) × Memory := portNames answer m

theorem PortList.readFrom_undefined (cells : List (Option CString)) (names : List CString) :
    PortList.readFrom cells names = .undefined := by
  induction cells generalizing names with
  | nil => rfl
  | cons cell cells ih =>
    cases cell with
    | none => rfl
    | some name => exact ih (names ++ [name])

end PortLists

section Properties

/-- What a property call is answered: `none` if the library failed to load. -/
abbrev Answer (α : Type*) := Option α

/-- `property`. The type is dropped by the closure that copies it, the value at the end.
Only a call that succeeds writes the pointers. -/
def property (answer : Answer (Int × CString × Option CString)) (m : Memory) :
    Except Error (CString × Option CString) × Memory :=
  match answer with
  | none => (.error .libraryError, m)
  | some (ret, string, type) =>
    match checkRet ret with
    | .error e => (.error e, m)
    | .ok () =>
      let value : JackStr := ⟨m.next, string⟩
      match (m.take .block).answer type with
      | (none, m) => (.ok (value.asCString, none), value.drop m)
      | (some (ptr, string), m) =>
        let type : JackStr := ⟨ptr, string⟩
        (.ok (value.asCString, some type.asCString), value.drop (type.drop m))

structure PropertyDescription where
  desc : ℕ
  deriving DecidableEq, Repr

def PropertyDescription.drop (d : PropertyDescription) (m : Memory) : Memory :=
  m.jackFreeDescription d.desc

/-- `properties` -/
def properties (answer : Answer Int) (m : Memory) :
    Except Error PropertyDescription × Memory :=
  match answer with
  | none => (.error .libraryError, m)
  | some ret =>
    match checkRet ret with
    | .error e => (.error e, m)
    | .ok () => (.ok ⟨m.next⟩, m.take .description)

/-- The descriptions are those of the array at `ptr`, `count` of them. -/
structure PropertyDescriptionList where
  ptr : Option ℕ
  descriptions : List ℕ
  deriving DecidableEq, Repr

def PropertyDescriptionList.drop (l : PropertyDescriptionList) (m : Memory) : Memory :=
  match l.ptr with
  | none => m
  | some ptr => (l.descriptions.foldl Memory.jackFreeDescription m).jackFree ptr

/-- `all_properties`. The answer is a count and whether an array was written. -/
def allProperties (answer : Answer (Int × Bool)) (m : Memory) :
    Except Error PropertyDescriptionList × Memory :=
  match answer with
  | none => (.error .libraryError, m)
  | some (count, array) =>
    match checkRet count with
    | .error e => (.error e, m)
    | .ok () =>
      if array then
        let descs := (m.take .block).handDescriptions count.toNat
        (.ok ⟨some m.next, descs.1⟩, descs.2)
      else (.ok ⟨none, []⟩, m)

end Properties

/-- The results that keep libjack memory. All the others are copies. -/
inductive Result where
  | description (d : PropertyDescription)
  | descriptionList (l : PropertyDescriptionList)
  deriving DecidableEq, Repr

def Result.drop : Result → Memory → Memory
  | .description d => d.drop
  | .descriptionList l => l.drop

/-- `defined` is false once the program has done what the language leaves undefined. -/
structure State where
  memory : Memory
  held : List Result
  defined : Bool

def init : State := ⟨.init, [], true⟩

/-- A call of the crate with the answer it gets, or the drop of a result. -/
inductive Label where
  | ports (answer : Option (List (Option CString)))
  | portGetAllConnections (answer : Option (List (Option CString)))
  | connections (answer : Option (List (Option CString)))
  | name (string : CString)
  | uuid (answer : Option CString)
  | uuidForClientName (answer : Option CString)
  | clientNameByUuid (answer : Option CString)
  | property (answer : Answer (Int × CString × Option CString))
  | properties (answer : Answer Int)
  | allProperties (answer : Answer (Int × Bool))
  | drop (r : Result)
  deriving DecidableEq

namespace State

/-- A call whose result is a copy. -/
def copied {α : Type*} (s : State) (r : Outcome α × Memory) : State :=
  { s with
    memory := r.2
    defined := match r.1 with | .undefined => false | _ => true }

/-- A call whose result owns what it was handed. -/
def holding {α : Type*} (s : State) (result : α → Result) (r : Except Error α × Memory) : State :=
  match r with
  | (.ok a, m) => { s with memory := m, held := result a :: s.held }
  | (.error _, m) => { s with memory := m }

end State

def perform (lib : UuidParse) (s : State) : Label → Option State
  | .ports answer => some (s.copied (ports answer s.memory))
  | .portGetAllConnections answer => some (s.copied (portGetAllConnections answer s.memory))
  | .connections answer => some (s.copied (connections answer s.memory))
  | .name string => some { s with memory := (name string s.memory).2 }
  | .uuid answer => some (s.copied (uuid lib answer s.memory))
  | .uuidForClientName answer => some (s.copied (uuidForClientName lib answer s.memory))
  | .clientNameByUuid answer => some { s with memory := (clientNameByUuid answer s.memory).2 }
  | .property answer => some { s with memory := (property answer s.memory).2 }
  | .properties answer => some (s.holding .description (properties answer s.memory))
  | .allProperties answer => some (s.holding .descriptionList (allProperties answer s.memory))
  | .drop r =>
    if r ∈ s.held then some { s with memory := r.drop s.memory, held := s.held.erase r } else none

def step (lib : UuidParse) (s : State) (l : Label) : Option State :=
  if s.defined then perform lib s l else none

section Ownership

def PropertyDescription.owned (d : PropertyDescription) : Multiset Ptr := {⟨.description, d.desc⟩}

def PropertyDescriptionList.owned (l : PropertyDescriptionList) : Multiset Ptr :=
  match l.ptr with
  | none => 0
  | some ptr => (l.descriptions.map (Ptr.mk .description) : List Ptr) + {⟨.block, ptr⟩}

/-- What is left to release by the drop of a result. -/
def Result.owned : Result → Multiset Ptr
  | .description d => d.owned
  | .descriptionList l => l.owned

def State.owned (s : State) : Multiset Ptr := (s.held.map Result.owned).sum

/-- Only what was handed over is released, nothing twice, and what was handed over is
released or waits for the drop of a result. -/
def State.Balanced (s : State) : Prop := Settled s.memory.entries s.owned

/-- The call with its answer does not reach one of the three defects. -/
def Label.Balances (lib : UuidParse) : Label → Prop
  | .ports answer => answer = none
  | .portGetAllConnections answer => answer = none
  | .connections answer => answer = none
  | .name _ => False
  | .uuid answer => ∀ s ∈ answer, ∃ uuid, Uuid.fromStr lib s.bytes = .done (.ok uuid)
  | .uuidForClientName answer => ∀ s ∈ answer, ∃ uuid, Uuid.fromStr lib s.bytes = .done (.ok uuid)
  | _ => True

end Ownership

end Jack2.ForeignMemory
