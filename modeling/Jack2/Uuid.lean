import Jack2.Libjack

/-!
# Reading a UUID from a string

`FromStr for Uuid` and the parsing in `Uuid::from_raw`. The parser itself belongs to libjack
and is a parameter: it returns a code and the number it wrote.
-/
namespace Jack2

/-- A call returns, unwinds, or does what the language leaves undefined. -/
inductive Outcome (α : Type*) where
  | done (a : α)
  | panic
  | undefined
  deriving DecidableEq, Repr

namespace Outcome

variable {α ε : Type*}

def unwrap : Outcome (Except ε α) → Outcome α
  | .done (.ok a) => .done a
  | .done (.error _) => .panic
  | .panic => .panic
  | .undefined => .undefined

def map {β : Type*} (f : α → β) : Outcome α → Outcome β
  | .done a => .done (f a)
  | .panic => .panic
  | .undefined => .undefined

def bind {β : Type*} (r : Outcome α) (f : α → Outcome β) : Outcome β :=
  match r with
  | .done a => f a
  | .panic => .panic
  | .undefined => .undefined

theorem unwrap_eq_done {r : Outcome (Except ε α)} {a : α} :
    r.unwrap = .done a ↔ r = .done (.ok a) := by
  rcases r with (_ | _) | _ | _ <;> simp [unwrap]

end Outcome

/-- The dynamically loaded library, as far as parsing goes; `none` if it failed to load. -/
abbrev UuidParse := Option (List UInt8 → Int × UInt64)

/-- The part of the string that `jack_uuid_parse` is given. -/
def uuidStringSize : ℕ := 36

/-- `str::is_char_boundary` for an index inside the string: the byte is not a continuation. -/
def isCharBoundary (s : List UInt8) (i : ℕ) : Bool :=
  match s[i]? with
  | some b => b &&& 0xC0 != 0x80
  | none => i == s.length

/-- The checks on what the parser returns and writes. -/
def Uuid.ofParsed (ret : Int) (uuid : UInt64) : Except Error Uuid :=
  if ret < 0 then .error .invalidOption
  else if uuid = 0 then .error .invalidOption
  else .ok ⟨uuid⟩

/-- `<Uuid as FromStr>::from_str`. Slicing inside a character panics. -/
def Uuid.fromStr (lib : UuidParse) (s : List UInt8) : Outcome (Except Error Uuid) :=
  if isCharBoundary s (min s.length uuidStringSize) then
    let s := s.take (min s.length uuidStringSize)
    if 0 ∈ s then .done (.error .invalidCString)
    else
      match lib with
      | none => .done (.error .libraryError)
      | some jackUuidParse => .done (ofParsed (jackUuidParse s).1 (jackUuidParse s).2)
  else .panic

/-- `Uuid::from_raw` as far as its value goes: a null string has none, and a string that
does not parse panics. -/
def Uuid.fromRaw (lib : UuidParse) (ptr : Option (List UInt8)) : Outcome (Option Uuid) :=
  match ptr with
  | none => .done none
  | some s => (Uuid.fromStr lib s).unwrap.map some

/-- Whatever the parser returns and writes, no zero gets through. -/
theorem Uuid.ofParsed_value_ne_zero {ret : Int} {number : UInt64} {uuid : Uuid}
    (h : Uuid.ofParsed ret number = .ok uuid) : uuid.value ≠ 0 := by
  unfold ofParsed at h
  split at h
  · cases h
  · split at h
    · cases h
    · cases h
      assumption

theorem Uuid.fromStr_value_ne_zero {lib : UuidParse} {s : List UInt8} {uuid : Uuid}
    (h : Uuid.fromStr lib s = .done (.ok uuid)) : uuid.value ≠ 0 := by
  simp only [fromStr] at h
  split at h
  · split at h
    · cases h
    · cases lib with
      | none => cases h
      | some jackUuidParse =>
        rw [Outcome.done.injEq] at h
        exact ofParsed_value_ne_zero h
  · cases h

end Jack2
