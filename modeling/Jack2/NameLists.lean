import Jack2.ForeignMemory

/-!
# What the walk over a port list reads

`PortList::to_vec` with the memory it touches: the cells of the array by their index, and
the strings whose pointers it finds in them. An array that libjack returns is a null
pointer, or the names it has followed by one null pointer.
-/
namespace Jack2.NameLists

open Jack2.ForeignMemory

inductive Access where
  | cell (index : ℕ)
  | string (ptr : Option CString)
  deriving DecidableEq

/-- What the loop reads, in order, and what it comes to. -/
structure Walk where
  accesses : List Access
  names : Outcome (List CString)
  deriving DecidableEq

def Walk.after (accesses : List Access) (w : Walk) : Walk :=
  { w with accesses := accesses ++ w.accesses }

@[simp] theorem after_accesses (accesses : List Access) (w : Walk) :
    (w.after accesses).accesses = accesses ++ w.accesses := rfl
@[simp] theorem after_names (accesses : List Access) (w : Walk) :
    (w.after accesses).names = w.names := rfl

/-- The loop with `iter` at an index of the array, or null. `iter.add(1)` is never null. -/
def walkFrom : Option ℕ → List (Option CString) → List CString → Walk
  | none, _, names => ⟨[], .done names⟩
  -- `iter.read()` outside of the array
  | some i, [], _ => ⟨[.cell i], .undefined⟩
  -- `CStr::from_ptr` of a null pointer
  | some i, none :: _, _ => ⟨[.cell i, .string none], .undefined⟩
  | some i, some name :: cells, names =>
    (walkFrom (some (i + 1)) cells (names ++ [name])).after [.cell i, .string (some name)]

/-- `PortList::to_vec` -/
def walk : PortList → Walk
  | none => walkFrom none [] []
  | some (_, cells) => walkFrom (some 0) cells []

theorem walkFrom_names (cells : List (Option CString)) (i : ℕ) (names : List CString) :
    (walkFrom (some i) cells names).names = PortList.readFrom cells names := by
  induction cells generalizing i names with
  | nil => rfl
  | cons cell cells ih =>
    cases cell with
    | none => rfl
    | some name => exact ih (i + 1) (names ++ [name])

/-- The walk has the result that its callers return. -/
theorem walk_names (list : PortList) : (walk list).names = PortList.toVec list := by
  match list with
  | none => rfl
  | some (_, cells) => exact walkFrom_names cells 0 []

/-- The cells of the array at a non-null address. -/
def terminated (names : List CString) : List (Option CString) := names.map some ++ [none]

@[simp] theorem terminated_nil : terminated [] = [none] := rfl
@[simp] theorem terminated_cons (name : CString) (names : List CString) :
    terminated (name :: names) = some name :: terminated names := rfl

/-- Every string is read before the next cell, the null pointer at the end like a name. -/
theorem walkFrom_accesses (names : List CString) (i : ℕ) (before : List CString) :
    (walkFrom (some i) (terminated names) before).accesses =
      ((terminated names).zipIdx i).flatMap fun c => [.cell c.2, .string c.1] := by
  induction names generalizing i before with
  | nil => rfl
  | cons name names ih =>
    simp only [terminated_cons, walkFrom, after_accesses, List.zipIdx_cons, List.flatMap_cons]
    rw [ih]

/-- It makes a string of the null pointer, whatever the names are. -/
theorem walk_null_string (names : List CString) (ptr : ℕ) :
    .string none ∈ (walk (some (ptr, terminated names))).accesses := by
  simp only [walk, walkFrom_accesses, List.mem_flatMap]
  refine ⟨(none, names.length), ?_, by simp⟩
  simp [terminated, List.mem_zipIdx_iff_getElem?]

/-- The three calls that return a `PortList` as a vector. -/
inductive Query where
  | ports
  | portGetAllConnections
  | connections
  deriving DecidableEq, Repr

def Query.run : Query → Option (List (Option CString)) → Memory → Outcome (List CString) × Memory
  | .ports => ForeignMemory.ports
  | .portGetAllConnections => ForeignMemory.portGetAllConnections
  | .connections => ForeignMemory.connections

theorem run_fst (q : Query) (answer : Option (List (Option CString))) (m : Memory) :
    (q.run answer m).1 = (walk (m.answer answer).1).names := by
  rw [walk_names]
  have hnames : (portNames answer m).1 = PortList.toVec (m.answer answer).1 := by
    simp only [portNames, dropping]
    cases PortList.toVec (m.answer answer).1 <;> rfl
  cases q <;> exact hnames

/-- What libjack answers: null, or a name list with the null pointer that ends it. -/
def answered (array : Option (List CString)) : Option (List (Option CString)) :=
  array.map terminated

/-- The names are returned in order, and nothing is read but the array up to its end and the
strings of its names. -/
structure ReadsExactly (q : Query) (array : Option (List CString)) (m : Memory) : Prop where
  names : (q.run (answered array) m).1 = .done (array.getD [])
  cells : ∀ i, .cell i ∈ (walk (m.answer (answered array)).1).accesses →
    ∃ names ∈ array, i ≤ names.length
  strings : ∀ ptr, .string ptr ∈ (walk (m.answer (answered array)).1).accesses → ptr ≠ none

/-- The loop tests the pointer into the array where it should test the cell it points to:
only a null array is read exactly. -/
theorem readsExactly_iff (q : Query) (array : Option (List CString)) (m : Memory) :
    ReadsExactly q array m ↔ array = none := by
  constructor
  · intro h
    cases array with
    | none => rfl
    | some names => exact absurd rfl (h.strings none (walk_null_string names m.next))
  · rintro rfl
    refine ⟨?_, ?_, ?_⟩
    · rw [run_fst]
      rfl
    · intro i hi
      cases hi
    · intro ptr hptr
      cases hptr

/-- A client with one port asks for all ports. -/
theorem readsExactly_onePort_false :
    ¬ ReadsExactly .ports (some [⟨[97], by decide⟩]) Memory.init := by
  intro h
  have hstring := h.strings none
  exact hstring (by decide) rfl

end Jack2.NameLists
