import VgiDisasm.Engine
import VgiDisasm.Sections

/-!
# `disassemble`

Arch and mode resolution, section selection, bounded linear sweep.  One handle is built per
call and reused over the selected regions, which share one row cap.
-/

namespace VgiDisasm

open VgiDisasm.Text

namespace Sweep

def sectionNameMatches (full requested : String) : Bool :=
  full == requested || splitNextBack full ',' == requested

/-- The regions of the picked sections.  `base` only overrides the start when a single
region is swept; across several sections each keeps its own address. -/
def placeRegions (blob : List UInt8) (explicitBase : Option UInt64) (picked : List Section) :
    List (UInt64 × List UInt8) :=
  let single := picked.length == 1
  picked.map fun s =>
    (if single then explicitBase.getD s.vaddr else s.vaddr, s.bytes blob)

/-- What to sweep: start addresses and bytes. -/
def selectRegions (blob : List UInt8) (secs : List Section) (sect : String)
    (explicitBase : Option UInt64) : List (UInt64 × List UInt8) :=
  let whole := blob.take MAX_SECTION_BYTES
  if sect = "all" then [(explicitBase.getD 0, whole)]
  -- raw blob with an explicit arch and no container
  else if secs.isEmpty then [(explicitBase.getD 0, whole)]
  else if sect = "auto" then placeRegions blob explicitBase (secs.filter (·.exec))
  else placeRegions blob explicitBase (secs.filter fun s => sectionNameMatches s.name sect)

/-- Step 1 of `disassemble`: the selection, from the arguments or else from the container. -/
def resolve (K : Crates) (blob : List UInt8) (arch mode : Option String) : Option ArchSel :=
  match arch with
  | some a => resolveExplicit a mode
  | none => (probe K blob).archSel

/-- Step 4: sweep the regions in order until the row cap. -/
def sweepRegions (cs : Capstone) (regions : List (UInt64 × List UInt8)) : List Insn :=
  Capped.runsCapped MAX_INSNS
    (fun region out => (Engine.sweepInto cs region.2 region.1 out MAX_INSNS).1) regions []

end Sweep

open Sweep

/-- Disassemble `blob` into instruction rows. -/
def disassemble (K : Crates) (blob : List UInt8) (arch mode : Option String)
    (base : Option UInt64) (sect : String) : List Insn :=
  match resolve K blob arch mode with
  | none => [Insn.archRequired]
  | some sel =>
    let secs := sections K blob
    let regions := selectRegions blob secs sect base
    match Engine.build K sel with
    | none => [Insn.archRequired]
    | some cs => sweepRegions cs regions

end VgiDisasm
