import VgiDisasm.Probe
import VgiDisasm.Sections

/-!
# Entry-point resolution

The container's entry address, the section whose address range contains it, and the file
offset of the entry byte.
-/

namespace VgiDisasm

structure EntryPoint where
  arch : Option String := none
  mode : Option String := none
  vaddr : Option UInt64 := none
  fileOff : Option UInt64 := none
  sect : Option String := none
  deriving DecidableEq, Repr

/-- `u64::saturating_add`. -/
def saturatingAdd (a b : UInt64) : UInt64 := UInt64.ofNat (min (a.toNat + b.toNat) (2 ^ 64 - 1))

namespace Section

/-- The test of the search in `entrypoint`. -/
def containsVa (s : Section) (va : UInt64) : Bool :=
  s.vaddr ≤ va && va < saturatingAdd s.vaddr s.size

end Section

/-- The rest of `entrypoint`, once a container is probed and its sections are enumerated. -/
def locate {m : Type → Type} [Monad m] (B : Build m) (p : Probe) (secs : List Section) :
    m EntryPoint := do
  let vaddr := p.entry
  let containing := vaddr.bind fun va => secs.find? (·.containsVa va)
  let fileOff ← match vaddr, containing with
    | some va, some s => some <$> B.add s.fileOff (va - s.vaddr)
    | _, _ => pure none
  pure
    { arch := p.arch
      mode := p.mode
      vaddr := vaddr
      fileOff := fileOff
      sect := containing.map (·.name) }

/-- `entrypoint` under a build configuration. -/
def entrypointWith {m : Type → Type} [Monad m] (B : Build m) (K : Crates) (bytes : List UInt8) :
    m EntryPoint := do
  let p ← probeWith B K bytes
  if p.container = "raw" then pure {}
  else
    let secs ← sectionsWith B K bytes
    locate B p secs

def entrypoint (K : Crates) (bytes : List UInt8) : EntryPoint :=
  Id.run (entrypointWith Build.release K bytes)

theorem entrypoint_eq (K : Crates) (bytes : List UInt8) :
    entrypoint K bytes =
      if (probe K bytes).container = "raw" then {}
      else Id.run (locate Build.release (probe K bytes) (sections K bytes)) := by
  show (if (probe K bytes).container = "raw" then {} else _ : EntryPoint) = _
  rfl

end VgiDisasm
