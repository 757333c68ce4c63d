import VgiDisasm.RowCap

/-!
# Resolution: arguments, container, or both

A selection comes from one of two tables: the container header's machine value, or the
caller's `arch` and `mode` strings.  The second is finite once its inputs are normalized
tokens, and so is the image of the first (`headerSelections`), so the laws relating them are
decided on the tables and lifted.

* `resolveExplicit_probe`: what a probe reports, fed back as arguments.
* `resolve_fieldwise_iff`: when explicit arguments win field by field and the container
  fills what is left, and when naming the detected arch makes no difference.
-/

namespace VgiDisasm

open VgiDisasm.Sweep

/-! ### The image of the header tables -/

/-- Every arch, mode and byte order a container header can be probed as. -/
def headerSelections : List (String × String × String) :=
  [("x86", "x32", "little"), ("x86", "x32", "big"), ("x86", "x64", "little"),
    ("x86", "x64", "big"), ("arm", "arm", "little"), ("arm", "arm", "big"),
    ("arm", "thumb", "little"), ("arm", "thumb", "big"), ("arm64", "little", "little"),
    ("arm64", "big", "big"), ("mips", "little", "little"), ("mips", "big", "big"),
    ("ppc", "little", "little"), ("ppc", "big", "little"), ("ppc", "big", "big"),
    ("sysz", "big", "little"), ("sysz", "big", "big"), ("riscv", "little", "little"),
    ("riscv", "big", "big")]

namespace Probe

theorem elfArch_mem {machine : UInt16} {big : Bool} {entry : UInt64} {a m : String}
    (h : elfArch machine big entry = (some a, some m)) :
    (a, m, endianStr big) ∈ headerSelections := by
  revert h
  fun_cases elfArch machine big entry with
  | case3 =>
    -- ARM: the entry decides the instruction set
    split <;> intro h <;> cases h <;> cases big <;> decide
  | _ =>
    intro h
    cases h
    try cases big <;> decide

theorem peArch_mem {machine : UInt16} {a m : String} (h : peArch machine = (some a, some m)) :
    (a, m, "little") ∈ headerSelections := by
  revert h
  fun_cases peArch machine with
  | _ =>
    intro h
    cases h
    try decide

theorem machArch_mem {cputype : UInt32} {big : Bool} {a m : String}
    (h : machArch cputype big = (some a, some m)) :
    (a, m, endianStr big) ∈ headerSelections := by
  revert h
  fun_cases machArch cputype big with
  | _ =>
    intro h
    cases h
    try cases big <;> decide

/-- The probe has an arch and a mode only as one of `headerSelections`. -/
def Listed (p : Probe) : Prop :=
  ∀ a m, p.arch = some a → p.mode = some m →
    ∃ e, p.endian = some e ∧ (a, m, e) ∈ headerSelections

theorem raw_listed : raw.Listed := by
  intro a m ha
  cases ha

theorem machProbe_listed (macho : MachO) : (machProbe macho).Listed := by
  intro a m ha hm
  exact ⟨_, rfl, machArch_mem (Prod.ext ha hm)⟩

theorem objectProbe_listed (obj : Object) : (Id.run (objectProbe Build.release obj)).Listed := by
  cases obj with
  | elf e =>
    intro a m ha hm
    exact ⟨_, rfl, elfArch_mem (Prod.ext ha hm)⟩
  | pe p =>
    intro a m ha hm
    exact ⟨_, rfl, peArch_mem (Prod.ext ha hm)⟩
  | mach mach =>
    cases mach with
    | binary macho => exact machProbe_listed macho
    | fat fat =>
      show (fatProbe fat).Listed
      unfold fatProbe
      cases fat.firstMachO with
      | none => intro a m ha; cases ha
      | some macho => exact machProbe_listed macho
  | other => exact raw_listed

end Probe

theorem probe_listed (K : Crates) (blob : List UInt8) : (probe K blob).Listed := by
  cases hobj : K.objectParse blob with
  | none =>
    rw [probe_of_none hobj]
    exact Probe.raw_listed
  | some obj =>
    rw [probe_of_some hobj]
    exact Probe.objectProbe_listed obj

/-! ### Feeding a probe back -/

/-- Arguments made of a listed arch and mode: the byte order is `big` exactly for the mode
`big`. -/
theorem headerSelections_resolve : ∀ t ∈ headerSelections,
    resolveExplicit t.1 (some t.2.1) = some ⟨t.1, t.2.1, t.2.1 == "big"⟩ := by
  decide

/-- Only ARM and PPC handles depend on a byte order the mode does not tell. -/
theorem headerSelections_builder : ∀ t ∈ headerSelections,
    ((t.2.1 = "big" ↔ t.2.2 = "big") ∨ (t.1 ≠ "arm" ∧ t.1 ≠ "ppc")) →
      Engine.builder ⟨t.1, t.2.1, t.2.1 == "big"⟩ =
        Engine.builder ⟨t.1, t.2.1, t.2.2 == "big"⟩ := by
  decide

/-- Mode and byte order disagree where the mode is an instruction set or is fixed by the arch. -/
theorem headerSelections_disagree : ∀ t ∈ headerSelections, ¬ (t.2.1 = "big" ↔ t.2.2 = "big") →
    ((t.1 = "x86" ∨ t.1 = "arm") ∧ t.2.2 = "big") ∨
      ((t.1 = "sysz" ∨ t.1 = "ppc") ∧ t.2.1 = "big" ∧ t.2.2 = "little") := by
  decide

/-- A request depends on its arch and mode arguments only through the handle's builder. -/
theorem disassemble_congr {K : Crates} {blob : List UInt8} {arch mode arch' mode' : Option String}
    (h : (resolve K blob arch mode).map Engine.builder =
      (resolve K blob arch' mode').map Engine.builder) (base : Option UInt64) (sect : String) :
    disassemble K blob arch mode base sect = disassemble K blob arch' mode' base sect := by
  have key : ∀ arch mode, disassemble K blob arch mode base sect =
      (((resolve K blob arch mode).map Engine.builder).bind K.capstoneBuild).elim
        [Insn.archRequired]
        fun cs => sweepRegions cs (selectRegions blob (sections K blob) sect base) := by
    intro arch mode
    unfold disassemble Engine.build
    cases resolve K blob arch mode with
    | none => rfl
    | some sel =>
      simp only [Option.map_some, Option.bind_some]
      cases K.capstoneBuild (Engine.builder sel) <;> rfl
  rw [key, key, h]

/-- **What a probe reports, fed back.**  The reported arch and mode resolve to themselves with
the byte order the mode names.  That is the probe's own selection exactly when its mode says
`big` just where its endian does, which fails only for x86 and ARM under a big-endian header
and for SystemZ and PPC under a little-endian one.  Where it holds, and for every arch other
than ARM and PPC regardless, feeding the report back changes no answer. -/
theorem resolveExplicit_probe (K : Crates) (blob : List UInt8) (a m : String)
    (ha : (probe K blob).arch = some a) (hm : (probe K blob).mode = some m) :
    resolveExplicit a (some m) = some ⟨a, m, m == "big"⟩ ∧
    (resolveExplicit a (some m) = (probe K blob).archSel ↔
      (m = "big" ↔ (probe K blob).endian = some "big")) ∧
    (¬ (m = "big" ↔ (probe K blob).endian = some "big") →
      ((a = "x86" ∨ a = "arm") ∧ (probe K blob).endian = some "big") ∨
        ((a = "sysz" ∨ a = "ppc") ∧ m = "big" ∧ (probe K blob).endian = some "little")) ∧
    ((m = "big" ↔ (probe K blob).endian = some "big") ∨ (a ≠ "arm" ∧ a ≠ "ppc") →
      ∀ base sect, disassemble K blob (some a) (some m) base sect =
        disassemble K blob none none base sect) := by
  obtain ⟨e, he, hmem⟩ := probe_listed K blob a m ha hm
  have hexplicit := headerSelections_resolve _ hmem
  have hsel : (probe K blob).archSel = some ⟨a, m, e == "big"⟩ := by
    simp [Probe.archSel, ha, hm, he]
  have hbig : (probe K blob).endian = some "big" ↔ e = "big" := by simp [he]
  have hlittle : (probe K blob).endian = some "little" ↔ e = "little" := by simp [he]
  rw [hbig, hlittle]
  refine ⟨hexplicit, ?_, headerSelections_disagree _ hmem, ?_⟩
  · rw [hexplicit, hsel, Option.some.injEq, ArchSel.mk.injEq, Bool.eq_iff_iff, beq_iff_eq,
      beq_iff_eq]
    simp only [true_and]
  · intro hagree base sect
    apply disassemble_congr
    rw [show resolve K blob none none = (probe K blob).archSel from rfl,
      show resolve K blob (some a) (some m) = resolveExplicit a (some m) from rfl, hexplicit, hsel,
      Option.map_some, Option.map_some, headerSelections_builder _ hmem hagree]

theorem resolveExplicit_probe_elf :
    let K := Fixtures.elfX64Crates
    let blob := Fixtures.elfX64Blob
    resolveExplicit "x86" (some "x64") = some ⟨"x86", "x64", "x64" == "big"⟩ ∧
    (resolveExplicit "x86" (some "x64") = (probe K blob).archSel ↔
      ("x64" = "big" ↔ (probe K blob).endian = some "big")) ∧
    (¬ ("x64" = "big" ↔ (probe K blob).endian = some "big") →
      (("x86" = "x86" ∨ "x86" = "arm") ∧ (probe K blob).endian = some "big") ∨
        (("x86" = "sysz" ∨ "x86" = "ppc") ∧ "x64" = "big" ∧
          (probe K blob).endian = some "little")) ∧
    (("x64" = "big" ↔ (probe K blob).endian = some "big") ∨ ("x86" ≠ "arm" ∧ "x86" ≠ "ppc") →
      ∀ base sect, disassemble K blob (some "x86") (some "x64") base sect =
        disassemble K blob none none base sect) :=
  resolveExplicit_probe Fixtures.elfX64Crates Fixtures.elfX64Blob "x86" "x64" (by decide)
    (by decide)

namespace Fixtures

/-- A big-endian 32-bit ARM header. -/
def elfArmBe : Elf := elf32 Probe.EM_ARM false 0x8000

def elfArmBeBlob : List UInt8 := elf32Blob be elfArmBe

def elfArmBeCrates : Crates := crates [(elfArmBeBlob, .elf elfArmBe)] []

end Fixtures

/-- A big-endian ARM header: the probe's mode names the instruction set and cannot name the
byte order as well. -/
theorem resolveExplicit_probe_arm_big :
    let p := probe Fixtures.elfArmBeCrates Fixtures.elfArmBeBlob
    p.arch = some "arm" ∧ p.mode = some "arm" ∧ p.endian = some "big" ∧
      resolveExplicit "arm" (some "arm") ≠ p.archSel := by
  decide

/-! ### Field by field -/

/-- The `supported_targets` view: the mode tokens of each arch. -/
def supportedTargets : List (String × List String) :=
  [("x86", ["x16", "x32", "x64"]), ("arm", ["arm", "thumb"]), ("arm64", ["little", "big"]),
    ("mips", ["little", "big"]), ("ppc", ["little", "big"]), ("sysz", ["big"]),
    ("riscv", ["little", "big"])]

/-- The view, the `arch` choices and the `mode` choices agree. -/
theorem supportedTargets_choices :
    supportedTargets.map Prod.fst = SUPPORTED_ARCHES ∧
      ∀ target ∈ supportedTargets, ∀ token ∈ target.2, token ∈ SUPPORTED_MODES := by
  decide

def supportedModes (arch : String) : List String := (supportedTargets.lookup arch).getD []

/-- What an arch decodes as when nothing else is said. -/
def defaultSel (arch : String) : ArchSel where
  arch := arch
  mode := if arch = "x86" then "x64" else if arch = "arm" then "arm"
    else if arch = "sysz" then "big" else "little"
  bigEndian := arch == "sysz"

/-- The byte order a mode token names, if it names one. -/
def namedEndian (token : String) : Option Bool :=
  if token = "big" then some true else if token = "little" then some false else none

/-- The selection with the argument's mode in the place of its own.  A token that names a byte
order sets this too, any other leaves it to the container. -/
def ArchSel.withMode (sel : ArchSel) : Option String → ArchSel
  | none => sel
  | some m =>
    { arch := sel.arch
      mode := argToken m
      bigEndian := (namedEndian (argToken m)).getD sel.bigEndian }

/-- The law: the arguments win field by field, the container's `sel` fills what is left. -/
def ResolvesFieldwise (K : Crates) (blob : List UInt8) (sel : ArchSel)
    (arch mode : Option String) : Prop :=
  resolve K blob arch mode = some (sel.withMode mode)

/-- Its consequence: naming the detected arch or not makes no difference. -/
def ArchRepeats (K : Crates) (blob : List UInt8) (arch mode : Option String) : Prop :=
  resolve K blob arch mode = resolve K blob none mode

/-- When the law holds: a lone mode must repeat what the container has, a lone arch must find
the container at that arch's default, and next to a mode without a byte order the container
must be little-endian. -/
def FieldwiseWhen (sel : ArchSel) : Option String → Option String → Prop
  | none, none => True
  | none, some m =>
    sel.mode = argToken m ∧ ∀ big ∈ namedEndian (argToken m), sel.bigEndian = big
  | some _, none => sel = defaultSel sel.arch
  | some _, some m => namedEndian (argToken m) = none → sel.bigEndian = false

/-- When naming the arch makes no difference: what it makes of the mode must be what the
container has. -/
def RepeatsWhen (sel : ArchSel) : Option String → Option String → Prop
  | none, _ => True
  | some _, none => sel = defaultSel sel.arch
  | some _, some m => sel.mode = argToken m ∧ (sel.bigEndian = true ↔ argToken m = "big")

/-- An alias resolves as its canonical arch does. -/
theorem resolveTokens_alias {token arch : String}
    (h : (resolveTokens token none).map ArchSel.arch = some arch) :
    arch ∈ SUPPORTED_ARCHES ∧ ∀ m, resolveTokens token m = resolveTokens arch m := by
  unfold resolveTokens at h
  split at h
  all_goals cases h
  all_goals exact ⟨by decide, fun m => rfl⟩

theorem resolveTokens_supported : ∀ arch ∈ SUPPORTED_ARCHES, ∀ token ∈ supportedModes arch,
    resolveTokens arch (some token) = some ⟨arch, token, token == "big"⟩ := by
  decide

theorem resolveTokens_none : ∀ arch ∈ SUPPORTED_ARCHES,
    resolveTokens arch none = some (defaultSel arch) := by
  decide

/-- Explicit arguments make of a token that names no byte order a little-endian selection. -/
theorem beq_big_iff (token : String) (big : Bool) :
    (token == "big") = (namedEndian token).getD big ↔ (namedEndian token = none → big = false) := by
  unfold namedEndian
  split_ifs with hbig hlittle
  · simp [hbig]
  · simp [hlittle]
  · rw [beq_eq_false_iff_ne.mpr hbig]
    simp [eq_comm]

/-- The container already has what a lone mode asks for. -/
theorem eq_withMode_iff (sel : ArchSel) (m : String) :
    sel = sel.withMode (some m) ↔ FieldwiseWhen sel none (some m) := by
  obtain ⟨arch, mode, big⟩ := sel
  show ArchSel.mk arch mode big = ⟨arch, argToken m, (namedEndian (argToken m)).getD big⟩ ↔
    mode = argToken m ∧ ∀ named ∈ namedEndian (argToken m), big = named
  cases namedEndian (argToken m) with
  | none => simp
  | some named => simp

/-- **When explicit arguments win field by field.**  For a container resolved to `sel`, an arch
argument that is absent or names `sel.arch`, and a mode argument that is absent or a token of
that arch: when the law holds, and when the arch argument makes no difference. -/
theorem resolve_fieldwise_iff (K : Crates) (blob : List UInt8) (sel : ArchSel)
    (hsel : (probe K blob).archSel = some sel) (arch mode : Option String)
    (harch : ∀ a ∈ arch, (resolveExplicit a none).map ArchSel.arch = some sel.arch)
    (hmode : ∀ m ∈ mode, argToken m ∈ supportedModes sel.arch) :
    (ResolvesFieldwise K blob sel arch mode ↔ FieldwiseWhen sel arch mode) ∧
      (ArchRepeats K blob arch mode ↔ RepeatsWhen sel arch mode) := by
  have hcontainer : ∀ mode, resolve K blob none mode = some sel := fun _ => hsel
  unfold ResolvesFieldwise ArchRepeats
  rw [hcontainer mode]
  cases arch with
  | none =>
    rw [hcontainer mode]
    refine ⟨?_, iff_of_true rfl trivial⟩
    cases mode with
    | none => exact iff_of_true rfl trivial
    | some m => rw [Option.some.injEq, eq_withMode_iff]
  | some a =>
    have hnames : (resolveTokens (argToken a) none).map ArchSel.arch = some sel.arch :=
      harch a rfl
    obtain ⟨hmem, halias⟩ := resolveTokens_alias hnames
    have hresolve : resolve K blob (some a) mode =
        resolveTokens sel.arch (mode.map argToken) := by
      rw [← halias]
      rfl
    cases mode with
    | none =>
      have hdefault : resolve K blob (some a) none = some (defaultSel sel.arch) :=
        hresolve.trans (resolveTokens_none _ hmem)
      rw [hdefault, Option.some.injEq, Option.some.injEq]
      exact ⟨eq_comm, eq_comm⟩
    | some m =>
      have hexplicit : resolve K blob (some a) (some m) =
          some ⟨sel.arch, argToken m, argToken m == "big"⟩ :=
        hresolve.trans (resolveTokens_supported _ hmem _ (hmode m rfl))
      rw [hexplicit, Option.some.injEq, Option.some.injEq]
      constructor
      · rw [ArchSel.withMode, ArchSel.mk.injEq, beq_big_iff]
        exact ⟨fun h => h.2.2, fun h => ⟨rfl, rfl, h⟩⟩
      · obtain ⟨arch, mode, big⟩ := sel
        rw [ArchSel.mk.injEq, Bool.eq_iff_iff, beq_iff_eq]
        exact ⟨fun h => ⟨h.2.1.symm, h.2.2.symm⟩, fun h => ⟨rfl, h.1.symm, h.2.symm⟩⟩

namespace Fixtures

/-- A 32-bit x86 header. -/
def elfX32 : Elf := elf32 Probe.EM_386 true 0

def elfX32Blob : List UInt8 := elf32Blob le elfX32

def elfX32Crates : Crates := crates [(elfX32Blob, .elf elfX32)] []

end Fixtures

/-- An alias and an unnormalized token on a 32-bit x86 header. -/
theorem resolve_fieldwise_iff_x32 :
    let K := Fixtures.elfX32Crates
    let blob := Fixtures.elfX32Blob
    let sel : ArchSel := ⟨"x86", "x32", false⟩
    (ResolvesFieldwise K blob sel (some "i386") (some " X16 ") ↔
        FieldwiseWhen sel (some "i386") (some " X16 ")) ∧
      (ArchRepeats K blob (some "i386") (some " X16 ") ↔
        RepeatsWhen sel (some "i386") (some " X16 ")) :=
  resolve_fieldwise_iff Fixtures.elfX32Crates Fixtures.elfX32Blob ⟨"x86", "x32", false⟩
    (by decide) (some "i386") (some " X16 ") (by decide) (by decide)

/-- On an x86-64 header the mode `x32` alone is not looked at.  On a 32-bit x86 header the arch
`x86` alone, which repeats the detected one, decodes as x64.  On a big-endian ARM header the
detected arch and mode, repeated, decode as little-endian. -/
theorem explicit_argument_lost :
    (resolve Fixtures.elfX64Crates Fixtures.elfX64Blob none (some "x32") =
        some ⟨"x86", "x64", false⟩ ∧
      ¬ ResolvesFieldwise Fixtures.elfX64Crates Fixtures.elfX64Blob ⟨"x86", "x64", false⟩ none
        (some "x32")) ∧
    (resolve Fixtures.elfX32Crates Fixtures.elfX32Blob (some "x86") none =
        some ⟨"x86", "x64", false⟩ ∧
      ¬ ResolvesFieldwise Fixtures.elfX32Crates Fixtures.elfX32Blob ⟨"x86", "x32", false⟩
        (some "x86") none) ∧
    resolve Fixtures.elfArmBeCrates Fixtures.elfArmBeBlob (some "arm") (some "arm") =
        some ⟨"arm", "arm", false⟩ ∧
      ¬ ResolvesFieldwise Fixtures.elfArmBeCrates Fixtures.elfArmBeBlob ⟨"arm", "arm", true⟩
        (some "arm") (some "arm") ∧
      ¬ ArchRepeats Fixtures.elfArmBeCrates Fixtures.elfArmBeBlob (some "arm") (some "arm") := by
  unfold ResolvesFieldwise ArchRepeats
  decide

end VgiDisasm
