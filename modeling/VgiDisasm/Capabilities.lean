import VgiDisasm.Library.Dedup
import VgiDisasm.Imports
import VgiDisasm.Mappings
import VgiDisasm.Strings
import VgiDisasm.Sweep

/-!
# Capability indicators

Three cheap signals: import names, printable strings and a few anti-analysis instructions,
matched against the reference tables and de-duplicated on `(rule, evidence)`.
-/

namespace VgiDisasm

open VgiDisasm.Text

/-- One capability match. -/
structure Capability where
  rule : String
  attackId : String
  attackName : String
  severity : String
  /-- The import name, string or instruction that matched. -/
  evidence : String
  deriving DecidableEq, Repr

def Capability.fromEntry (entry : MapEntry) (evidence : String) : Capability where
  rule := entry.rule
  attackId := entry.attackId
  attackName := entry.attackName
  severity := entry.severity
  evidence := evidence

namespace Capabilities

def truncateEvidence (s : String) : String :=
  if s.length ≤ 120 then s else String.ofList (s.toList.take 120) ++ "…"

/-! ### The accumulator -/

def key (cap : Capability) : String × String := (cap.rule, cap.evidence)

/-- `out` and `seen`. -/
abbrev State := Dedup.Acc Capability (String × String)

def push (s : State) (cap : Capability) : State := Dedup.pushNew MAX_CAPABILITIES key s cap

/-! ### Imports and strings -/

/-- One pass of the import loop: exact names, case-insensitive. -/
def pushImport (s : State) (imp : Import) : State :=
  match imp.name with
  | none => s
  | some name =>
    API_MAP.foldl
      (fun s entry =>
        if eqIgnoreAsciiCase entry.pattern name then push s (Capability.fromEntry entry name)
        else s)
      s

/-- One pass of the string loop: substrings, case-insensitive. -/
def pushString (s : State) (hit : StringHit) : State :=
  let hay := toAsciiLowercase hit.value
  STRING_MAP.foldl
    (fun s entry =>
      if contains hay entry.pattern then
        push s (Capability.fromEntry entry (truncateEvidence hit.value))
      else s)
    s

/-! ### Instructions -/

structure Saw where
  rdtsc : Bool := false
  cpuid : Bool := false
  int3 : Bool := false
  int2d : Bool := false

/-- One pass of the instruction loop. -/
def see (saw : Saw) (insn : Insn) : Saw :=
  match insn.mnemonic with
  | "rdtsc" | "rdtscp" => { saw with rdtsc := true }
  | "cpuid" => { saw with cpuid := true }
  | "int3" => { saw with int3 := true }
  | "int" => if trim insn.opStr = "0x2d" then { saw with int2d := true } else saw
  | _ => saw

def rdtscRow : Capability where
  rule := "antivm:rdtsc_timing"
  attackId := "T1497"
  attackName := "Virtualization/Sandbox Evasion"
  severity := "low"
  evidence := "rdtsc"

def cpuidRow : Capability where
  rule := "antivm:cpuid_check"
  attackId := "T1497.001"
  attackName := "Virtualization/Sandbox Evasion: System Checks"
  severity := "low"
  evidence := "cpuid"

def int3Row : Capability where
  rule := "antidbg:int3"
  attackId := "T1622"
  attackName := "Debugger Evasion"
  severity := "low"
  evidence := "int3"

def int2dRow : Capability where
  rule := "antidbg:int_0x2d"
  attackId := "T1622"
  attackName := "Debugger Evasion"
  severity := "medium"
  evidence := "int 0x2d"

end Capabilities

open Capabilities

def capabilities (K : Crates) (bytes : List UInt8) : List Capability :=
  let s : State := ⟨[], []⟩
  let s := (imports K bytes).foldl pushImport s
  let s := (strings bytes 4).foldl pushString s
  let insns := disassemble K bytes none none none "auto"
  let saw := insns.foldl see {}
  let s := if saw.rdtsc then push s rdtscRow else s
  let s := if saw.cpuid then push s cpuidRow else s
  let s := if saw.int3 then push s int3Row else s
  let s := if saw.int2d then push s int2dRow else s
  s.out

end VgiDisasm
