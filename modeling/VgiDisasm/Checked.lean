import VgiDisasm.Library.Panics
import VgiDisasm.Capabilities
import VgiDisasm.Entrypoint
import VgiDisasm.SectionRows

/-!
# The functions with their panics

The source once more, with every index, slice bound and subtraction that it writes, and with the
additions of the build: `none` is the panic.  What cannot panic (the parser, the decoder, the
tables, the text functions) is shared with the total definitions.  The additions of `usize`
positions are left exact: they stay below the length of a slice.
-/

namespace VgiDisasm

namespace Build

/-- The shipped native build, with its panics as the effect: `+` wraps and never panics. -/
def unwinding : Build Option where
  add := fun a b => some (a + b)
  usizeMax := 2 ^ 64 - 1

end Build

namespace Checked

open VgiDisasm.Panics VgiDisasm.Engine VgiDisasm.Strings

/-! ### Engine -/

/-- One pass of the loop of `sweep_into`: the inner `none` is its end, the outer one a panic. -/
def sweepStep (cs : Capstone) (code : List UInt8) (base : UInt64) (maxTotal : ℕ)
    (s : SweepState) : Option (Option SweepState) :=
  if s.offset < code.length then
    if s.out.length ≥ maxTotal then some none
    else do
      let addr := base + UInt64.ofNat s.offset
      let remaining ← sliceFrom code s.offset
      match cs.disasmAll remaining addr with
      | some (insn :: insns) =>
        let (out, consumed) := pushBatch cs maxTotal (insn :: insns) s.out 0
        if consumed = 0 then
          let byte ← index code s.offset
          pure (some ⟨s.offset + 1, out ++ [Insn.bad addr byte]⟩)
        else pure (some ⟨s.offset + consumed, out⟩)
      | _ =>
        let byte ← index code s.offset
        pure (some ⟨s.offset + 1, s.out ++ [Insn.bad addr byte]⟩)
  else some none

def sweepInto (cs : Capstone) (code : List UInt8) (base : UInt64) (out : List Insn)
    (maxTotal : ℕ) : Option (List Insn × ℕ) := do
  let s ← Panics.run (sweepStep cs code base maxTotal) code.length ⟨0, out⟩
  let appended ← sub s.out.length out.length
  pure (s.out, appended)

/-! ### Sections -/

def sectionBytes (s : Section) (blob : List UInt8) : Option (List UInt8) :=
  match s.dataRange with
  | some (off, len) =>
    if off ≤ blob.length then sliceRange blob off (min (off + len) blob.length) else some []
  | none => some []

/-- The `counts` array of `shannon_entropy`, filled byte by byte. -/
def countBytes (data : List UInt8) : Option (List ℕ) :=
  data.foldlM (fun counts b => update (· + 1) counts b.toNat) (List.replicate 256 0)

def shannonEntropy (data : List UInt8) : Option Float :=
  if data.isEmpty then some 0.0
  else do
    let counts ← countBytes data
    let len := data.length.toFloat
    pure (counts.foldl
      (fun h c =>
        if c > 0 then
          let p := c.toFloat / len
          h - p * p.log2
        else h)
      0.0)

def finalize (s : Section) (blob : List UInt8) : Option Section := do
  let bytes ← sectionBytes s blob
  let entropy ← shannonEntropy bytes
  pure { s with entropy := entropy }

def clampRange (usizeMax : ℕ) (off len : UInt64) (blobLen : ℕ) : Option (Option (ℕ × ℕ)) :=
  if off.toNat > usizeMax then some none
  else if off.toNat ≥ blobLen then some none
  else do
    let room ← sub blobLen off.toNat
    let len := min (min (min len.toNat usizeMax) room) MAX_SECTION_BYTES
    pure (if len = 0 then none else some (off.toNat, len))

def dataRange (usizeMax : ℕ) (blob : List UInt8) (h : Header) : Option (Option (ℕ × ℕ)) :=
  if h.skip then some none else clampRange usizeMax h.offset h.fileSize blob.length

/-- The body of the three loops over section headers: the range is clamped, the fields are
filled in (a PE's address is an addition of the build), the entropy is taken. -/
def row (B : Build Option) (blob : List UInt8) (h : Header) : Option Section := do
  let range ← dataRange B.usizeMax blob h
  let s ← h.rowWith B blob
  finalize { s with dataRange := range } blob

/-- The capped loop over the headers, in the form of `sectionsWith_eq`. -/
def sections (B : Build Option) (K : Crates) (bytes : List UInt8) : Option (List Section) := do
  let out ← Capped.pushCappedM MAX_SECTIONS (row B bytes) (K.headers bytes) []
  pure (out.take MAX_SECTIONS)

/-! ### Strings -/

/-- `printable(data[i]) && data[i + 1] == 0`; the second index is only reached behind the
first test. -/
def unitAt (data : List UInt8) (i : ℕ) : Option Bool := do
  let lo ← index data i
  if printable lo then
    let hi ← index data (i + 1)
    pure (hi == 0)
  else pure false

/-- One pass of the inner loop of `extract_utf16le`. -/
def unitStep (data : List UInt8) (s : ℕ × List Char) : Option (Option (ℕ × List Char)) :=
  if s.1 + 1 < data.length then do
    if ← unitAt data s.1 then
      let b ← index data s.1
      pure (some (s.1 + 2, s.2 ++ [Char.ofUInt8 b]))
    else pure none
  else pure none

/-- One pass of the outer loop. -/
def utf16Step (data : List UInt8) (minLen : ℕ) (s : Utf16State) : Option (Option Utf16State) :=
  if s.returned then some none
  else if s.i + 1 < data.length then do
    if ← unitAt data s.i then
      let start := s.i
      let (i, cur) ← Panics.run (unitStep data) data.length (s.i, [])
      let out := if cur.length ≥ minLen then pushRun s.out start "utf16le" cur else s.out
      pure (some ⟨i, out, out.length ≥ MAX_STRINGS⟩)
    else pure (some { s with i := s.i + 1 })
  else some none

def extractUtf16le (data : List UInt8) (minLen : ℕ) (out : List StringHit) :
    Option (List StringHit) := do
  let s ← Panics.run (utf16Step data minLen) data.length ⟨0, out, false⟩
  pure s.out

/-- The ASCII pass iterates over the bytes without an index. -/
def strings (bytes : List UInt8) (minLen : ℕ) : Option (List StringHit) := do
  let minLen := max minLen 1
  let data ← sliceTo bytes (min bytes.length MAX_SCAN_BYTES)
  let out := extractAscii data minLen []
  let out ← extractUtf16le data minLen out
  pure (out.take MAX_STRINGS)

/-! ### Entry point -/

/-- `va - s.vaddr`. -/
def subAddr (va vaddr : UInt64) : Option UInt64 := do
  let distance ← sub va.toNat vaddr.toNat
  pure (UInt64.ofNat distance)

def entrypoint (B : Build Option) (K : Crates) (bytes : List UInt8) : Option EntryPoint := do
  let p ← probeWith B K bytes
  if p.container = "raw" then pure {}
  else
    let secs ← sections B K bytes
    let vaddr := p.entry
    let containing := vaddr.bind fun va => secs.find? (·.containsVa va)
    let fileOff ← match vaddr, containing with
      | some va, some s => do
        let distance ← subAddr va s.vaddr
        some <$> B.add s.fileOff distance
      | _, _ => pure none
    pure
      { arch := p.arch
        mode := p.mode
        vaddr := vaddr
        fileOff := fileOff
        sect := containing.map (·.name) }

/-! ### `disassemble` -/

def placeRegions (blob : List UInt8) (explicitBase : Option UInt64) (picked : List Section) :
    Option (List (UInt64 × List UInt8)) :=
  let single := picked.length == 1
  picked.mapM fun s => do
    let bytes ← sectionBytes s blob
    pure (if single then explicitBase.getD s.vaddr else s.vaddr, bytes)

def selectRegions (blob : List UInt8) (secs : List Section) (sect : String)
    (explicitBase : Option UInt64) : Option (List (UInt64 × List UInt8)) := do
  let whole ← sliceTo blob (min blob.length MAX_SECTION_BYTES)
  if sect = "all" then pure [(explicitBase.getD 0, whole)]
  else if secs.isEmpty then pure [(explicitBase.getD 0, whole)]
  else if sect = "auto" then placeRegions blob explicitBase (secs.filter (·.exec))
  else placeRegions blob explicitBase (secs.filter fun s => Sweep.sectionNameMatches s.name sect)

/-- The first step of `disassemble`; only an absent `arch` probes the container. -/
def resolve (B : Build Option) (K : Crates) (blob : List UInt8) (arch mode : Option String) :
    Option (Option ArchSel) :=
  match arch with
  | some a => pure (resolveExplicit a mode)
  | none => do
    let p ← probeWith B K blob
    pure p.archSel

/-- The loop over the regions. -/
def sweepRegions (cs : Capstone) (regions : List (UInt64 × List UInt8)) (out : List Insn) :
    Option (List Insn) :=
  match regions with
  | [] => pure out
  | (start, code) :: rest =>
    if out.length ≥ MAX_INSNS then pure out
    else do
      let swept ← sweepInto cs code start out MAX_INSNS
      sweepRegions cs rest swept.1

def disassemble (B : Build Option) (K : Crates) (blob : List UInt8) (arch mode : Option String)
    (base : Option UInt64) (sect : String) : Option (List Insn) := do
  match ← resolve B K blob arch mode with
  | none => pure [Insn.archRequired]
  | some sel =>
    let secs ← sections B K blob
    let regions ← selectRegions blob secs sect base
    match Engine.build K sel with
    | none => pure [Insn.archRequired]
    | some cs => sweepRegions cs regions []

/-! ### Capabilities -/

open VgiDisasm.Capabilities in
def capabilities (B : Build Option) (K : Crates) (bytes : List UInt8) :
    Option (List Capability) := do
  let s : State := ⟨[], []⟩
  let s := (imports K bytes).foldl pushImport s
  let hits ← strings bytes 4
  let s := hits.foldl pushString s
  let insns ← disassemble B K bytes none none none "auto"
  let saw := insns.foldl see {}
  let s := if saw.rdtsc then push s rdtscRow else s
  let s := if saw.cpuid then push s cpuidRow else s
  let s := if saw.int3 then push s int3Row else s
  let s := if saw.int2d then push s int2dRow else s
  pure s.out

end Checked

end VgiDisasm
