import VgiDisasm.Batches
import VgiDisasm.Worker

/-!
# Table functions

Five functions fan one constant input out into rows.  A producer resolves the arguments, runs
the engine once and keeps the rows.  The engine's additions wrap, as in both shipped builds.
-/

namespace VgiDisasm.Worker

/-! ### Arguments -/

/-- The arguments of a call, as the framework hands them over: `none` where absent or of
another type. -/
structure Arguments where
  constBytes : ℕ → Option (List UInt8)
  constStr : ℕ → Option String
  namedStr : String → Option String
  namedI64 : String → Option Int64

section Producers

variable (B : Build Id) (fs : FileSystem) (K : Crates) (args : Arguments)

/-- The input of every table function. -/
def inputArg : Option (List UInt8) :=
  constInputBytes B fs (args.constBytes 0) (args.constStr 0)

/-- `Disassemble::producer`; a negative `base` is its two's complement. -/
def disassembleProducer : Producer Insn :=
  let arch := args.namedStr "arch"
  let mode := args.namedStr "mode"
  let base := (args.namedI64 "base").map Int64.toUInt64
  let sect := (args.namedStr "section").getD "auto"
  match inputArg B fs args with
  | some b => ⟨some (disassemble K b arch mode base sect)⟩
  | none => ⟨some []⟩

def sectionsProducer : Producer Section :=
  match inputArg B fs args with
  | some b => ⟨some (sections K b)⟩
  | none => ⟨some []⟩

def importsProducer : Producer Import :=
  match inputArg B fs args with
  | some b => ⟨some (imports K b)⟩
  | none => ⟨some []⟩

def stringsProducer : Producer StringHit :=
  ⟨some (stringsRows B fs (args.constBytes 0) (args.constStr 0) (args.namedI64 "min_len"))⟩

def capabilitiesProducer : Producer Capability :=
  match inputArg B fs args with
  | some b => ⟨some (capabilities K b)⟩
  | none => ⟨some []⟩

end Producers

end VgiDisasm.Worker
