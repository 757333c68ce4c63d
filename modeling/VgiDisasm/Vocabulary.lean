import VgiDisasm.RawTriage
import VgiDisasm.Resolution

/-!
# The vocabulary of a selection

A caller learns the `arch` and `mode` tokens from the `supported_targets` view.  The view is
exact: whatever resolves is one of its pairs, so `build` never reaches the arms it keeps for
other strings, and each of its pairs resolves to itself.  It is not complete for headers: one
handle that a header can ask for has no pair of arguments.

A caller learns from `format` whether a blob can be disassembled without arguments: an arch
there means rows, and no arch means the diagnostic row (`format_tells`).
-/

namespace VgiDisasm

open VgiDisasm.Sweep

/-! ### The image of the arguments -/

/-- Every selection that a pair of arguments resolves to. -/
def explicitSelections : List ArchSel :=
  [⟨"x86", "x16", false⟩, ⟨"x86", "x32", false⟩, ⟨"x86", "x64", false⟩, ⟨"arm", "arm", false⟩,
    ⟨"arm", "arm", true⟩, ⟨"arm", "thumb", false⟩, ⟨"arm64", "little", false⟩,
    ⟨"arm64", "big", true⟩, ⟨"mips", "little", false⟩, ⟨"mips", "big", true⟩,
    ⟨"ppc", "little", false⟩, ⟨"ppc", "big", true⟩, ⟨"sysz", "big", true⟩,
    ⟨"riscv", "little", false⟩, ⟨"riscv", "big", true⟩]

/-- The token that makes an arch resolve to the selection: `big` has to say both the mode and
the byte order of ARM. -/
def ArchSel.token (sel : ArchSel) : String := if sel.bigEndian then "big" else sel.mode

theorem resolveTokens_mem {arch : String} {m : Option String} {sel : ArchSel}
    (h : resolveTokens arch m = some sel) : sel ∈ explicitSelections := by
  unfold resolveTokens at h
  split at h
  case h_5 =>
    -- ARM: `thumb` and `big` are the same argument
    cases h
    by_cases hthumb : m = some "thumb"
    · subst hthumb
      decide
    · split
      · exact absurd rfl hthumb
      · cases (m == some "big") <;> decide
  case h_1 | h_2 | h_3 | h_4 =>
    -- x86: the mode alone
    cases h
    split <;> decide
  case h_15 => cases h
  all_goals
    cases h
    cases (m == some "big") <;> decide

theorem resolve_explicit (K : Crates) (blob : List UInt8) (arch : String) (mode : Option String) :
    resolve K blob (some arch) mode = resolveTokens (argToken arch) (mode.map argToken) := rfl

theorem explicitSelections_token : ∀ sel ∈ explicitSelections,
    resolveExplicit sel.arch (some sel.token) = some sel := by
  decide

theorem explicitSelections_supported : ∀ sel ∈ explicitSelections,
    sel.mode ∈ supportedModes sel.arch := by
  decide

theorem headerSelections_supported : ∀ t ∈ headerSelections, t.2.1 ∈ supportedModes t.1 := by
  decide

/-- An arch outside the view has no mode in it. -/
theorem mem_arches_of_mode {arch token : String} (h : token ∈ supportedModes arch) :
    arch ∈ SUPPORTED_ARCHES := by
  by_contra harch
  have hnone : supportedTargets.lookup arch = none := by
    rw [List.lookup_eq_none_iff]
    intro p hp
    have hname : p.1 ∈ supportedTargets.map Prod.fst := List.mem_map_of_mem hp
    rw [supportedTargets_choices.1] at hname
    rw [bne_iff_ne]
    intro heq
    exact harch (heq ▸ hname)
  rw [supportedModes, hnone] at h
  exact absurd h List.not_mem_nil

/-! ### Headers -/

theorem archSel_mem {K : Crates} {blob : List UInt8} {sel : ArchSel}
    (h : (probe K blob).archSel = some sel) :
    ∃ t ∈ headerSelections, sel = ⟨t.1, t.2.1, t.2.2 == "big"⟩ := by
  unfold Probe.archSel at h
  split at h
  · next a m ha hm =>
    obtain ⟨e, hendian, hmem⟩ := probe_listed K blob a m ha hm
    rw [hendian, Option.some.injEq] at h
    exact ⟨_, hmem, h.symm⟩
  · cases h

/-- Only the mode `thumb` on a big-endian header is a handle that no argument pair builds. -/
theorem headerSelections_spelled : ∀ t ∈ headerSelections,
    (∃ s ∈ explicitSelections, Engine.builder s = Engine.builder ⟨t.1, t.2.1, t.2.2 == "big"⟩) ↔
      ¬ (t.2.1 = "thumb" ∧ (t.2.2 == "big") = true) := by
  decide

theorem resolve_supported {K : Crates} {blob : List UInt8} {arch mode : Option String}
    {sel : ArchSel} (h : resolve K blob arch mode = some sel) :
    sel.mode ∈ supportedModes sel.arch := by
  cases arch with
  | some a =>
    rw [resolve_explicit] at h
    exact explicitSelections_supported sel (resolveTokens_mem h)
  | none =>
    obtain ⟨t, ht, rfl⟩ := archSel_mem h
    exact headerSelections_supported t ht

/-- **The view is exact.**  Whatever a request resolves to is a pair of the view, and every pair
of the view, however padded and capitalized, resolves to itself. -/
theorem resolve_in_view :
    (∀ K blob arch mode sel, resolve K blob arch mode = some sel →
        sel.mode ∈ supportedModes sel.arch) ∧
      ∀ arch mode, argToken mode ∈ supportedModes (argToken arch) →
        ∀ K blob, resolve K blob (some arch) (some mode) =
          some ⟨argToken arch, argToken mode, argToken mode == "big"⟩ := by
  constructor
  · intro K blob arch mode sel h
    exact resolve_supported h
  · intro arch mode hmode K blob
    rw [resolve_explicit]
    exact resolveTokens_supported _ (mem_arches_of_mode hmode) _ hmode

/-- **Which headers arguments can replace.**  Some argument pair asks for the handle of a probed
header exactly if the header is not big-endian Thumb; such a pair, with a mode, then answers the
same rows for every base and section. -/
theorem header_spelled_iff (K : Crates) (blob : List UInt8) (sel : ArchSel)
    (hsel : (probe K blob).archSel = some sel) :
    ((∃ arch mode, (resolveExplicit arch mode).map Engine.builder = some (Engine.builder sel)) ↔
        ¬ (sel.mode = "thumb" ∧ sel.bigEndian = true)) ∧
      (¬ (sel.mode = "thumb" ∧ sel.bigEndian = true) →
        ∃ arch mode,
          (resolveExplicit arch (some mode)).map Engine.builder = some (Engine.builder sel) ∧
            ∀ base sect, disassemble K blob (some arch) (some mode) base sect =
              disassemble K blob none none base sect) := by
  obtain ⟨t, ht, rfl⟩ := archSel_mem hsel
  have hspelled := headerSelections_spelled t ht
  constructor
  · rw [← hspelled]
    constructor
    · intro ⟨arch, mode, h⟩
      obtain ⟨s, hs, hbuilder⟩ := Option.map_eq_some_iff.mp h
      exact ⟨s, resolveTokens_mem hs, hbuilder⟩
    · intro ⟨s, hs, hbuilder⟩
      refine ⟨s.arch, some s.token, ?_⟩
      rw [explicitSelections_token s hs, Option.map_some, hbuilder]
  · intro hthumb
    obtain ⟨s, hs, hbuilder⟩ := hspelled.mpr hthumb
    have hasked : (resolveExplicit s.arch (some s.token)).map Engine.builder =
        some (Engine.builder ⟨t.1, t.2.1, t.2.2 == "big"⟩) := by
      rw [explicitSelections_token s hs, Option.map_some, hbuilder]
    refine ⟨s.arch, s.token, hasked, fun base sect => disassemble_congr ?_ base sect⟩
    have hcontainer : resolve K blob none none = some ⟨t.1, t.2.1, t.2.2 == "big"⟩ := hsel
    rw [hcontainer, Option.map_some]
    exact hasked

theorem header_spelled_iff_elf :
    ∃ arch mode,
      (resolveExplicit arch (some mode)).map Engine.builder =
          some (Engine.builder ⟨"x86", "x64", false⟩) ∧
        ∀ base sect,
          disassemble Fixtures.elfX64Crates Fixtures.elfX64Blob (some arch) (some mode) base sect =
            disassemble Fixtures.elfX64Crates Fixtures.elfX64Blob none none base sect :=
  (header_spelled_iff Fixtures.elfX64Crates Fixtures.elfX64Blob ⟨"x86", "x64", false⟩
    (by decide)).2 (by decide)

/-! ### What `format` promises -/

namespace Probe

/-- An arch comes with a mode. -/
def Paired (p : Probe) : Prop := p.arch.isSome = p.mode.isSome

theorem elfArch_paired (machine : UInt16) (big : Bool) (entry : UInt64) :
    (elfArch machine big entry).1.isSome = (elfArch machine big entry).2.isSome := by
  fun_cases elfArch machine big entry <;> rfl

theorem peArch_paired (machine : UInt16) :
    (peArch machine).1.isSome = (peArch machine).2.isSome := by
  fun_cases peArch machine <;> rfl

theorem machArch_paired (cputype : UInt32) (big : Bool) :
    (machArch cputype big).1.isSome = (machArch cputype big).2.isSome := by
  fun_cases machArch cputype big <;> rfl

theorem objectProbe_paired (obj : Object) : (Id.run (objectProbe Build.release obj)).Paired := by
  cases obj with
  | elf e => exact elfArch_paired _ _ _
  | pe p => exact peArch_paired _
  | mach mach =>
    cases mach with
    | binary macho => exact machArch_paired _ _
    | fat fat =>
      show (fatProbe fat).Paired
      unfold fatProbe
      cases fat.firstMachO with
      | none => rfl
      | some macho => exact machArch_paired _ _
  | other => rfl

theorem archSel_eq_none {p : Probe} (h : p.Paired) : p.archSel = none ↔ p.arch = none := by
  unfold Paired at h
  unfold archSel
  cases harch : p.arch with
  | none => simp
  | some a =>
    rw [harch] at h
    obtain ⟨m, hmode⟩ := Option.isSome_iff_exists.mp h.symm
    simp [hmode]

end Probe

theorem probe_paired (K : Crates) (blob : List UInt8) : (probe K blob).Paired := by
  cases hobj : K.objectParse blob with
  | none =>
    rw [probe_of_none hobj]
    rfl
  | some obj =>
    rw [probe_of_some hobj]
    exact Probe.objectProbe_paired obj

/-- `entrypoint` repeats the probe, for a raw blob too. -/
theorem entrypoint_probe (K : Crates) (blob : List UInt8) :
    (entrypoint K blob).arch = (probe K blob).arch ∧
      (entrypoint K blob).mode = (probe K blob).mode ∧
      (entrypoint K blob).vaddr = (probe K blob).entry := by
  by_cases hraw : K.Raw blob
  · obtain ⟨hprobe, -, -, hentry, -⟩ := raw_answers K blob hraw
    rw [hentry, hprobe]
    exact ⟨rfl, rfl, rfl⟩
  · have hcontainer : (probe K blob).container ≠ "raw" := hraw
    rw [entrypoint_eq, if_neg hcontainer]
    unfold locate
    cases (probe K blob).entry with
    | none => exact ⟨rfl, rfl, rfl⟩
    | some va =>
      simp only [Option.bind_some]
      cases (sections K blob).find? (·.containsVa va) <;> exact ⟨rfl, rfl, rfl⟩

/-- The crate builds a handle for every target of the view. -/
def Crates.BuildsTargets (K : Crates) : Prop :=
  ∀ sel : ArchSel, sel.mode ∈ supportedModes sel.arch → Engine.build K sel ≠ none

/-- **`format` tells what the other functions can do.**  `entrypoint` has its arch, mode and entry
address; and for every base and section `disassemble` without an arch has a row of size 0 exactly
if `format` has no arch, and then no other row. -/
theorem format_tells (K : Crates) (hK : K.Handles Capstone.LengthsPositive)
    (htargets : K.BuildsTargets) (blob : List UInt8) (mode : Option String)
    (base : Option UInt64) (sect : String) :
    ((entrypoint K blob).arch = (probe K blob).arch ∧
        (entrypoint K blob).mode = (probe K blob).mode ∧
        (entrypoint K blob).vaddr = (probe K blob).entry) ∧
      ((∃ r ∈ disassemble K blob none mode base sect, r.size = 0) ↔
        (probe K blob).arch = none) ∧
      ((probe K blob).arch = none →
        disassemble K blob none mode base sect = [Insn.archRequired]) := by
  have hnone : (probe K blob).arch = none →
      disassemble K blob none mode base sect = [Insn.archRequired] := by
    intro harch
    apply disassemble_of_unbuilt
    intro sel hsel
    have hsel' : (probe K blob).archSel = some sel := hsel
    rw [(Probe.archSel_eq_none (probe_paired K blob)).mpr harch] at hsel'
    cases hsel'
  refine ⟨entrypoint_probe K blob, ?_, hnone⟩
  constructor
  · intro ⟨r, hr, hsize⟩
    by_contra harch
    obtain ⟨sel, hsel⟩ := Option.ne_none_iff_exists'.mp
      ((Probe.archSel_eq_none (probe_paired K blob)).not.mpr harch)
    have hresolve : resolve K blob none mode = some sel := hsel
    obtain ⟨cs, hcs⟩ := Option.ne_none_iff_exists'.mp
      (htargets sel (resolve_supported hresolve))
    have hpos := hK _ cs hcs
    rw [disassemble_of_built hresolve hcs] at hr
    obtain ⟨region, -, hmem⟩ := mem_sweepRegions hpos hr
    exact sweepRows_size_ne_zero hpos r hmem hsize
  · intro harch
    rw [hnone harch]
    exact ⟨Insn.archRequired, List.mem_singleton_self _, rfl⟩

/-- Every handle of the fixture decodes as x86-64; the blob asks for no other. -/
def Fixtures.targetCrates : Crates :=
  { elfX64Crates with capstoneBuild := fun _ => some x64Handle }

theorem format_tells_elf :
    ¬ ∃ r ∈ disassemble Fixtures.targetCrates Fixtures.elfX64Blob none none none "auto",
      r.size = 0 := by
  have hhandles : Fixtures.targetCrates.Handles Capstone.LengthsPositive := by
    intro b cs hcs
    cases hcs
    exact Fixtures.x64Handle_tiles.len_pos
  have htargets : Fixtures.targetCrates.BuildsTargets := fun sel _ h => by cases h
  rw [(format_tells Fixtures.targetCrates hhandles htargets Fixtures.elfX64Blob none none
    "auto").2.1]
  decide

end VgiDisasm
