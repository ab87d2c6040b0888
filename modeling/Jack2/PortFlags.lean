import Mathlib.Data.Nat.Notation

/-!
# Port types, modes and flags

The flag bits come from the generated bindings and are a parameter; libjack gives each
flag a bit of its own.
-/
namespace Jack2

inductive PortType where
  | audio | midi
  deriving DecidableEq, Repr

inductive PortMode where
  | input | output
  deriving DecidableEq, Repr

/-- The constants `JackPortFlags_*`. -/
structure JackPortFlags where
  isInput : UInt32
  isOutput : UInt32
  isPhysical : UInt32
  canMonitor : UInt32
  isTerminal : UInt32

namespace JackPortFlags

/-- `PortCreateFlags::all` -/
def create (sys : JackPortFlags) : UInt32 := sys.isPhysical ||| sys.canMonitor ||| sys.isTerminal

/-- The two modes are bits apart from each other and from the flags of `PortCreateFlags`. -/
structure Separate (sys : JackPortFlags) : Prop where
  input : sys.isInput ≠ 0
  output : sys.isOutput ≠ 0
  modes : sys.isOutput &&& sys.isInput = 0
  createInput : sys.create &&& sys.isInput = 0
  createOutput : sys.create &&& sys.isOutput = 0

/-- The bits of the C header. -/
def header : JackPortFlags := ⟨1, 2, 4, 8, 16⟩

theorem separate_header : header.Separate := by constructor <;> decide

end JackPortFlags

/-- The bits are among those of the declared flags. -/
structure PortCreateFlags (sys : JackPortFlags) where
  bits : UInt32
  declared : bits &&& sys.create = bits

structure PortFlags where
  bits : UInt32
  deriving DecidableEq, Repr

def PortMode.flags (sys : JackPortFlags) : PortMode → UInt32
  | .input => sys.isInput
  | .output => sys.isOutput

namespace PortFlags

def isInput (sys : JackPortFlags) (self : PortFlags) : Bool := self.bits &&& sys.isInput != 0

def isOutput (sys : JackPortFlags) (self : PortFlags) : Bool := self.bits &&& sys.isOutput != 0

end PortFlags

/-- `mode.flags() | flags.bits()` -/
def registerFlags {sys : JackPortFlags} (mode : PortMode) (flags : PortCreateFlags sys) : PortFlags :=
  ⟨mode.flags sys ||| flags.bits⟩

section Bits

theorem or_and (a b c : UInt32) : (a ||| b) &&& c = (a &&& c) ||| (b &&& c) :=
  UInt32.toBitVec_inj.mp BitVec.and_or_distrib_right

/-- A flag of `PortCreateFlags` is no flag that is apart from all of them. -/
theorem PortCreateFlags.and_eq_zero {sys : JackPortFlags} (flags : PortCreateFlags sys) {bit : UInt32}
    (h : sys.create &&& bit = 0) : flags.bits &&& bit = 0 := by
  rw [← flags.declared, UInt32.and_assoc, h, UInt32.and_zero]

theorem registerFlags_isInput {sys : JackPortFlags} (hsys : sys.Separate) (mode : PortMode)
    (flags : PortCreateFlags sys) :
    (registerFlags mode flags).isInput sys = (mode == .input) := by
  cases mode with
  | input =>
    simp [registerFlags, PortMode.flags, PortFlags.isInput, or_and,
      flags.and_eq_zero hsys.createInput, hsys.input]
  | output =>
    simp [registerFlags, PortMode.flags, PortFlags.isInput, or_and,
      flags.and_eq_zero hsys.createInput, hsys.modes]

theorem registerFlags_isOutput {sys : JackPortFlags} (hsys : sys.Separate) (mode : PortMode)
    (flags : PortCreateFlags sys) :
    (registerFlags mode flags).isOutput sys = (mode == .output) := by
  cases mode with
  | input =>
    have hmodes : sys.isInput &&& sys.isOutput = 0 := by
      rw [UInt32.and_comm]
      exact hsys.modes
    simp [registerFlags, PortMode.flags, PortFlags.isOutput, or_and,
      flags.and_eq_zero hsys.createOutput, hmodes]
  | output =>
    simp [registerFlags, PortMode.flags, PortFlags.isOutput, or_and,
      flags.and_eq_zero hsys.createOutput, hsys.output]

/-- A registered port is an input or an output, and not both. -/
theorem registerFlags_exclusive {sys : JackPortFlags} (hsys : sys.Separate) (mode : PortMode)
    (flags : PortCreateFlags sys) :
    (registerFlags mode flags).isInput sys ≠ (registerFlags mode flags).isOutput sys := by
  rw [registerFlags_isInput hsys, registerFlags_isOutput hsys]
  cases mode <;> decide

end Bits

end Jack2
