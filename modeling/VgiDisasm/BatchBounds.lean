import Mathlib.Algebra.Order.BigOperators.Group.List
import Mathlib.Data.String.Basic
import VgiDisasm.Batches
import VgiDisasm.CapabilityMatches
import VgiDisasm.RowCap
import VgiDisasm.SectionRows
import VgiDisasm.StringsExact

/-!
# What fits into a batch

A column is as long as its rows are many and its cells are long.  The rows are capped
everywhere; the cells are bounded by Capstone's text buffers, by the group vocabulary, by
`MAX_STRING_LEN`, by the indicator tables and by the evidence cut, but the names of sections
and imports are as long as the container makes them.  `batchesEncodable_iff` says that these
names decide whether a batch can be built.
-/

namespace VgiDisasm

open VgiDisasm.Columnar VgiDisasm.Engine VgiDisasm.Sweep VgiDisasm.Text VgiDisasm.Worker

/-! ### The property and its condition -/

/-- The one batch of every table function is encodable. -/
structure BatchesEncodable (K : Crates) (blob : List UInt8) : Prop where
  disassemble : ∀ arch mode base sect,
    disasmTable.Encodable (disassemble K blob arch mode base sect)
  sections : sectionsTable.Encodable (sections K blob)
  imports : importsTable.Encodable (imports K blob)
  strings : ∀ minLen, stringsTable.Encodable (strings blob minLen)
  capabilities : capabilitiesTable.Encodable (capabilities K blob)

/-- The names of the sections within the row cap fit. -/
def SectionNamesFit (K : Crates) (blob : List UInt8) : Prop :=
  (((K.headers blob).take MAX_SECTIONS).map fun h => h.name.utf8ByteSize).sum ≤ i32Max

/-- So do those of the imports, libraries and symbols in a column each. -/
def ImportNamesFit (K : Crates) (blob : List UInt8) : Prop :=
  (((K.importRows blob).take MAX_IMPORTS).map fun imp =>
      (imp.library.getD "").utf8ByteSize).sum ≤ i32Max ∧
    (((K.importRows blob).take MAX_IMPORTS).map fun imp =>
      (imp.name.getD "").utf8ByteSize).sum ≤ i32Max

structure NamesFit (K : Crates) (blob : List UInt8) : Prop where
  sections : SectionNamesFit K blob
  imports : ImportNamesFit K blob

/-- Capstone's buffers: 24 instruction bytes, 32 bytes of mnemonic, 160 of operand text. -/
def Capstone.TextBounded (cs : Capstone) : Prop :=
  ∀ rem addr, ∀ i ∈ cs.answer rem addr,
    i.bytes.length ≤ 24 ∧ (i.mnemonic.getD "").utf8ByteSize ≤ 32 ∧
      (i.opStr.getD "").utf8ByteSize ≤ 160

/-! ### Sums and sizes -/

theorem sum_map_le {α : Type*} {f : α → ℕ} {l : List α} {n b : ℕ} (hl : l.length ≤ n)
    (hf : ∀ x ∈ l, f x ≤ b) : (l.map f).sum ≤ n * b := by
  have hsum := List.sum_le_card_nsmul (l.map f) b (by simpa using hf)
  rw [List.length_map, smul_eq_mul] at hsum
  exact hsum.trans (Nat.mul_le_mul_right b hl)

theorem utf8ByteSize_ofList_le {cs : List Char} {n : ℕ} (h : ∀ c ∈ cs, c.utf8Size ≤ n) :
    (String.ofList cs).utf8ByteSize ≤ cs.length * n := by
  rw [String.utf8ByteSize_ofList]
  induction cs with
  | nil => exact Nat.zero_le _
  | cons c cs ih =>
    obtain ⟨hc, hcs⟩ := List.forall_mem_cons.mp h
    have hrest := ih hcs
    rw [String.utf8Len_cons, List.length_cons, Nat.succ_mul]
    omega

/-- Four bytes a character. -/
theorem utf8ByteSize_le (s : String) : s.utf8ByteSize ≤ s.length * 4 := by
  have h : (String.ofList s.toList).utf8ByteSize ≤ s.toList.length * 4 :=
    utf8ByteSize_ofList_le fun c _ => c.utf8Size_le_four
  rwa [String.ofList_toList, String.length_toList] at h

/-- At least one. -/
theorem length_le_utf8ByteSize (s : String) : s.length ≤ s.utf8ByteSize := by
  have hlen : ∀ cs : List Char, cs.length ≤ String.utf8Len cs := by
    intro cs
    induction cs with
    | nil => exact Nat.zero_le _
    | cons c cs ih =>
      have hpos := c.utf8Size_pos
      rw [List.length_cons, String.utf8Len_cons]
      omega
  have h := hlen s.toList
  rwa [← String.utf8ByteSize_ofList, String.ofList_toList, String.length_toList] at h

/-! ### What the builders can take -/

namespace Worker

theorem fits_string (cells : List String) :
    stringBuilder.Fits cells ↔ (cells.map String.utf8ByteSize).sum ≤ i32Max := by
  show Chunks.total (cells.map fun s => some (utf8 s)) ≤ i32Max ↔ _
  rw [Chunks.total, List.map_map]
  rfl

theorem fits_option (cells : List (Option String)) :
    optionBuilder.Fits cells ↔
      (cells.map fun cell => (cell.getD "").utf8ByteSize).sum ≤ i32Max := by
  have hlen : ∀ cell : Option String,
      ((cell.map utf8).getD []).length = (cell.getD "").utf8ByteSize := by
    intro cell
    cases cell <;> rfl
  show Chunks.total (cells.map (·.map utf8)) ≤ i32Max ↔ _
  rw [Chunks.total, List.map_map]
  simp only [Function.comp_def, hlen]

theorem fits_binary (cells : List (List UInt8)) :
    binaryBuilder.Fits cells ↔ (cells.map List.length).sum ≤ i32Max := by
  show Chunks.total (cells.map some) ≤ i32Max ↔ _
  rw [Chunks.total, List.map_map]
  rfl

/-- Beside the value buffer, the offsets of the lists count their elements. -/
theorem fits_list (cells : List (List String)) :
    listBuilder.Fits cells ↔
      (cells.map fun cell => (cell.map String.utf8ByteSize).sum).sum ≤ i32Max ∧
        (cells.map List.length).sum ≤ i32Max := by
  show stringBuilder.Fits cells.flatten ∧ cells.flatten.length ≤ i32Max ↔ _
  rw [fits_string, List.length_flatten, List.map_flatten, List.sum_flatten, List.map_map]
  rfl

theorem encodable_disasm_iff (rows : List Insn) :
    disasmTable.Encodable rows ↔
      (rows.map (·.bytes.length)).sum ≤ i32Max ∧
        (rows.map (·.mnemonic.utf8ByteSize)).sum ≤ i32Max ∧
          (rows.map (·.opStr.utf8ByteSize)).sum ≤ i32Max ∧
            (rows.map fun r => (r.groups.map String.utf8ByteSize).sum).sum ≤ i32Max ∧
              (rows.map (·.groups.length)).sum ≤ i32Max := by
  simp [Table.Encodable, disasmTable, Builder.prod, Builder.plain, fits_string, fits_binary,
    fits_list, Function.comp_def]

theorem encodable_sections_iff (rows : List Section) :
    sectionsTable.Encodable rows ↔
      (rows.map (·.name.utf8ByteSize)).sum ≤ i32Max ∧
        (rows.map (·.kind.utf8ByteSize)).sum ≤ i32Max := by
  simp [Table.Encodable, sectionsTable, Builder.prod, Builder.plain, fits_string,
    Function.comp_def]

theorem encodable_imports_iff (rows : List Import) :
    importsTable.Encodable rows ↔
      (rows.map fun r => (r.library.getD "").utf8ByteSize).sum ≤ i32Max ∧
        (rows.map fun r => (r.name.getD "").utf8ByteSize).sum ≤ i32Max ∧
          (rows.map (·.kind.utf8ByteSize)).sum ≤ i32Max := by
  simp [Table.Encodable, importsTable, Builder.prod, Builder.plain, fits_string, fits_option,
    Function.comp_def]

theorem encodable_strings_iff (rows : List StringHit) :
    stringsTable.Encodable rows ↔
      (rows.map (·.encoding.utf8ByteSize)).sum ≤ i32Max ∧
        (rows.map (·.value.utf8ByteSize)).sum ≤ i32Max := by
  simp [Table.Encodable, stringsTable, Builder.prod, Builder.plain, fits_string,
    Function.comp_def]

theorem encodable_capabilities_iff (rows : List Capability) :
    capabilitiesTable.Encodable rows ↔
      (rows.map (·.rule.utf8ByteSize)).sum ≤ i32Max ∧
        (rows.map (·.attackId.utf8ByteSize)).sum ≤ i32Max ∧
          (rows.map (·.attackName.utf8ByteSize)).sum ≤ i32Max ∧
            (rows.map (·.severity.utf8ByteSize)).sum ≤ i32Max ∧
              (rows.map (·.evidence.utf8ByteSize)).sum ≤ i32Max := by
  simp [Table.Encodable, capabilitiesTable, Builder.prod, fits_string, Function.comp_def]

end Worker

/-! ### Instruction rows -/

/-- A row within Capstone's buffers and the group vocabulary. -/
structure Insn.Bounded (r : Insn) : Prop where
  bytes : r.bytes.length ≤ 24
  mnemonic : r.mnemonic.utf8ByteSize ≤ 32
  opStr : r.opStr.utf8ByteSize ≤ 160
  groups : (r.groups.map String.utf8ByteSize).sum ≤ 135
  groups_length : r.groups.length ≤ 9

/-- The nine words of the vocabulary at most. -/
theorem normalizeAll_length_le (raw : List String) : (Groups.normalizeAll raw).length ≤ 9 := by
  obtain ⟨hnodup, hsub⟩ := Groups.normalizeAll_nodup raw
  exact (hnodup.subperm hsub).length_le

/-- Nine words of at most 15 bytes. -/
theorem normalizeAll_size_le (raw : List String) :
    ((Groups.normalizeAll raw).map String.utf8ByteSize).sum ≤ 135 := by
  have hsub := (Groups.normalizeAll_nodup raw).2
  have hword : ∀ word ∈ Groups.vocabulary, word.utf8ByteSize ≤ 15 := by decide
  exact sum_map_le (normalizeAll_length_le raw) fun word hmem => hword word (hsub hmem)

theorem insnRow_bounded {cs : Capstone} (h : cs.TextBounded) {rem : List UInt8} {addr : UInt64}
    {i : CsInsn} (hi : i ∈ cs.answer rem addr) : (insnRow cs i).Bounded where
  bytes := (h rem addr i hi).1
  mnemonic := (h rem addr i hi).2.1
  opStr := (h rem addr i hi).2.2
  groups := by
    unfold insnRow
    cases cs.insnDetail i with
    | none => exact Nat.zero_le _
    | some ids => exact normalizeAll_size_le _
  groups_length := by
    unfold insnRow
    cases cs.insnDetail i with
    | none => exact Nat.zero_le _
    | some ids => exact normalizeAll_length_le _

theorem bad_bounded (a : UInt64) (b : UInt8) : (Insn.bad a b).Bounded where
  bytes := by
    show 1 ≤ 24
    decide
  mnemonic := by
    show ".byte".utf8ByteSize ≤ 32
    decide
  opStr := by
    have hlen : (hexByte b).length = 4 := String.length_ofList
    have hle := utf8ByteSize_le (hexByte b)
    show (hexByte b).utf8ByteSize ≤ 160
    omega
  groups := Nat.zero_le _
  groups_length := Nat.zero_le _

theorem archRequired_bounded : Insn.archRequired.Bounded where
  bytes := by decide
  mnemonic := by decide
  opStr := by decide
  groups := Nat.zero_le _
  groups_length := Nat.zero_le _

/-! ### The rows of `disassemble` -/

/-- The sweep may overshoot the cap by the defensive row. -/
structure RowsBounded (maxTotal : ℕ) (out : List Insn) : Prop where
  length : out.length ≤ maxTotal + 1
  rows : ∀ r ∈ out, r.Bounded

section Sweeps

variable {cs : Capstone} (h : cs.TextBounded)

include h

theorem rowsBounded_step {code : List UInt8} {base : UInt64} {maxTotal : ℕ}
    (s s' : SweepState) (hs : RowsBounded maxTotal s.out)
    (hstep : sweepStep cs code base maxTotal s = some s') : RowsBounded maxTotal s'.out := by
  obtain ⟨hoff, hcap⟩ := sweepStep_go hstep
  have hpushed : RowsBounded maxTotal (s.out ++
      ((cs.answer (code.drop s.offset) (s.offset +ᵥ base)).take (maxTotal - s.out.length)).map
        (insnRow cs)) := by
    constructor
    · rw [List.length_append, List.length_map, List.length_take]
      omega
    · rw [List.forall_mem_append, List.forall_mem_map]
      exact ⟨hs.rows, fun i hi => insnRow_bounded h (List.mem_of_mem_take hi)⟩
  rw [sweepStep_eq_some hoff hcap] at hstep
  simp only at hstep
  split at hstep
  · rename_i hzero
    cases hstep
    constructor
    · rw [List.length_append, List.length_append, List.length_map, List.length_take,
        List.length_singleton]
      omega
    · rw [List.forall_mem_append]
      refine ⟨hpushed.rows, fun r hr => ?_⟩
      rw [List.mem_singleton.mp hr]
      exact bad_bounded _ _
  · cases hstep
    exact hpushed

theorem rowsBounded_regions (regions : List (UInt64 × List UInt8)) (out : List Insn)
    (hout : RowsBounded MAX_INSNS out) :
    RowsBounded MAX_INSNS (Capped.runsCapped MAX_INSNS
      (fun region out => (sweepInto cs region.2 region.1 out MAX_INSNS).1) regions out) := by
  induction regions generalizing out with
  | nil => exact hout
  | cons region rest ih =>
    rw [Capped.runsCapped]
    split
    · exact hout
    · apply ih
      exact Loop.run_invariant (I := fun s : SweepState => RowsBounded MAX_INSNS s.out)
        (rowsBounded_step h) _ _ hout

end Sweeps

theorem rowsBounded_disassemble {K : Crates} (hK : K.Handles Capstone.TextBounded)
    (blob : List UInt8) (arch mode : Option String) (base : Option UInt64) (sect : String) :
    RowsBounded MAX_INSNS (disassemble K blob arch mode base sect) := by
  by_cases hbuilt : ∀ sel, resolve K blob arch mode = some sel → build K sel = none
  · rw [disassemble_of_unbuilt hbuilt]
    refine ⟨by decide, fun r hr => ?_⟩
    rw [List.mem_singleton.mp hr]
    exact archRequired_bounded
  · obtain ⟨sel, cs, hsel, hcs⟩ := exists_built hbuilt
    rw [disassemble_of_built hsel hcs]
    apply rowsBounded_regions (hK _ cs hcs)
    exact ⟨Nat.zero_le _, fun r hr => by cases hr⟩

theorem encodable_disassemble {K : Crates} (hK : K.Handles Capstone.TextBounded)
    (blob : List UInt8) (arch mode : Option String) (base : Option UInt64) (sect : String) :
    disasmTable.Encodable (disassemble K blob arch mode base sect) := by
  obtain ⟨hlen, hrows⟩ := rowsBounded_disassemble hK blob arch mode base sect
  rw [encodable_disasm_iff]
  refine ⟨?_, ?_, ?_, ?_, ?_⟩
  · exact (sum_map_le hlen fun r hr => (hrows r hr).bytes).trans (by decide)
  · exact (sum_map_le hlen fun r hr => (hrows r hr).mnemonic).trans (by decide)
  · exact (sum_map_le hlen fun r hr => (hrows r hr).opStr).trans (by decide)
  · exact (sum_map_le hlen fun r hr => (hrows r hr).groups).trans (by decide)
  · exact (sum_map_le hlen fun r hr => (hrows r hr).groups_length).trans (by decide)

/-! ### Strings -/

theorem utf8Size_ofUInt8_le (b : UInt8) : (Char.ofUInt8 b).utf8Size ≤ 2 := by
  have hval : (Char.ofUInt8 b).val ≤ 0x7ff := by
    show b.toUInt32 ≤ 0x7ff
    have := b.toNat_lt
    rw [UInt32.le_iff_toNat_le, UInt8.toNat_toUInt32]
    show b.toNat ≤ 2047
    omega
  rcases (Char.ofUInt8 b).utf8Size_eq with h | h | h | h
  · omega
  · omega
  · exact absurd (UInt32.lt_of_lt_of_le (Char.utf8Size_eq_three_iff.mp h).1 hval) (by decide)
  · have hlong := UInt32.lt_of_lt_of_le (Char.utf8Size_eq_four_iff.mp h) hval
    exact absurd hlong (by decide)

theorem size_chainHit_le (encoding : String) (d : ℕ) (data : List UInt8) (c : ℕ × ℕ) :
    (chainHit encoding d data c).value.utf8ByteSize ≤ MAX_STRING_LEN * 2 := by
  have hchars : ∀ ch ∈ (runChars data d c.1 c.2).take MAX_STRING_LEN,
      ch.utf8Size ≤ 2 := by
    intro ch hch
    obtain ⟨j, -, rfl⟩ := List.mem_map.mp (List.mem_of_mem_take hch)
    exact utf8Size_ofUInt8_le _
  exact (utf8ByteSize_ofList_le hchars).trans
    (Nat.mul_le_mul_right 2 (List.length_take_le _ _))

theorem encodable_strings (blob : List UInt8) (minLen : ℕ) :
    stringsTable.Encodable (strings blob minLen) := by
  have hlen : (strings blob minLen).length ≤ MAX_STRINGS := by
    rw [strings_eq]
    exact List.length_take_le _ _
  have hhit : ∀ hit ∈ strings blob minLen,
      hit.encoding.utf8ByteSize ≤ 7 ∧ hit.value.utf8ByteSize ≤ MAX_STRING_LEN * 2 := by
    intro hit hmem
    rw [strings_eq] at hmem
    rcases List.mem_append.mp (List.mem_of_mem_take hmem) with hmem | hmem
    · obtain ⟨c, -, rfl⟩ := List.mem_map.mp hmem
      refine ⟨?_, size_chainHit_le _ _ _ _⟩
      show "ascii".utf8ByteSize ≤ 7
      decide
    · obtain ⟨c, -, rfl⟩ := List.mem_map.mp hmem
      refine ⟨?_, size_chainHit_le _ _ _ _⟩
      show "utf16le".utf8ByteSize ≤ 7
      decide
  rw [encodable_strings_iff]
  constructor
  · exact (sum_map_le hlen fun r hr => (hhit r hr).1).trans (by decide)
  · exact (sum_map_le hlen fun r hr => (hhit r hr).2).trans (by decide)

/-! ### Capabilities -/

theorem catalogue_size : ∀ c ∈ catalogue,
    c.rule.utf8ByteSize ≤ 64 ∧ c.attackId.utf8ByteSize ≤ 64 ∧ c.attackName.utf8ByteSize ≤ 128 ∧
      c.severity.utf8ByteSize ≤ 64 := by
  decide +kernel

theorem apiMap_size : ∀ entry ∈ API_MAP, entry.pattern.utf8ByteSize ≤ 64 := by decide +kernel

theorem length_eq_of_eqIgnoreAsciiCase {s t : String} (h : eqIgnoreAsciiCase s t = true) :
    s.length = t.length := by
  have hlen := congrArg List.length (eqIgnoreAsciiCase_iff.mp h)
  rwa [List.length_map, List.length_map, String.length_toList, String.length_toList] at hlen

theorem length_truncateEvidence_le (s : String) :
    (Capabilities.truncateEvidence s).length ≤ 121 := by
  unfold Capabilities.truncateEvidence
  split
  · omega
  · rw [String.length_append, String.length_ofList, List.length_take]
    have hdots : "…".length = 1 := by decide
    omega

/-- Evidence is an import name that equals a pattern, a cut string, or an instruction. -/
theorem evidence_size {K : Crates} {blob : List UInt8} :
    ∀ m ∈ allMatches K blob, m.evidence.utf8ByteSize ≤ 484 := by
  intro m hm
  rcases mem_allMatches.mp hm with ⟨imp, -, hm⟩ | ⟨hit, -, hm⟩ | hm
  · obtain ⟨name, -, entry, hentry, heq, rfl⟩ := mem_importMatches.mp hm
    have hpattern := (length_le_utf8ByteSize entry.pattern).trans (apiMap_size entry hentry)
    have hlen := length_eq_of_eqIgnoreAsciiCase heq
    have hsize := utf8ByteSize_le name
    show name.utf8ByteSize ≤ 484
    omega
  · obtain ⟨entry, -, -, rfl⟩ := mem_stringMatches.mp hm
    have hlen := length_truncateEvidence_le hit.value
    have hsize := utf8ByteSize_le (Capabilities.truncateEvidence hit.value)
    show (Capabilities.truncateEvidence hit.value).utf8ByteSize ≤ 484
    omega
  · have hrows : ∀ row ∈ [Capabilities.rdtscRow, Capabilities.cpuidRow, Capabilities.int3Row,
        Capabilities.int2dRow], row.evidence.utf8ByteSize ≤ 484 := by decide
    exact hrows m (mem_insnMatches hm)

theorem encodable_capabilities (K : Crates) (blob : List UInt8) :
    capabilitiesTable.Encodable (capabilities K blob) := by
  have hlen : (capabilities K blob).length ≤ MAX_CAPABILITIES := by
    rw [capabilities_eq]
    exact List.length_take_le _ _
  have hmem : ∀ m ∈ capabilities K blob, m ∈ allMatches K blob := by
    intro m hm
    rw [capabilities_eq] at hm
    exact Dedup.fresh_subset _ (List.mem_of_mem_take hm)
  have hkind := fun m hm => catalogue_size _ (kind_mem_catalogue (hmem m hm))
  rw [encodable_capabilities_iff]
  refine ⟨?_, ?_, ?_, ?_, ?_⟩
  · exact (sum_map_le hlen fun m hm => (hkind m hm).1).trans (by decide)
  · exact (sum_map_le hlen fun m hm => (hkind m hm).2.1).trans (by decide)
  · exact (sum_map_le hlen fun m hm => (hkind m hm).2.2.1).trans (by decide)
  · exact (sum_map_le hlen fun m hm => (hkind m hm).2.2.2).trans (by decide)
  · exact (sum_map_le hlen fun m hm => evidence_size m (hmem m hm)).trans (by decide)

/-! ### Sections and imports -/

/-- The six kinds of a section row. -/
def sectionKinds : List String := ["code", "data", "rodata", "bss", "debug", "other"]

theorem Header.row_kind_mem (blob : List UInt8) (h : Header) :
    (h.row blob).kind ∈ sectionKinds := by
  cases h with
  | elf e sh =>
    show (if _ then "code" else if _ then "debug" else if _ then "bss" else if _ then "data"
      else if _ then "rodata" else "other" : String) ∈ sectionKinds
    split_ifs <;> decide
  | pe p s =>
    show (if _ then "code" else if _ then "debug" else if _ then "bss" else if _ then "data"
      else if _ then "rodata" else "other" : String) ∈ sectionKinds
    split_ifs <;> decide
  | mach segname sect =>
    show (if _ then "code" else if _ then "debug" else if _ then "bss" else if _ then "rodata"
      else if _ then "data" else "other" : String) ∈ sectionKinds
    split_ifs <;> decide

theorem sections_encodable_iff (K : Crates) (blob : List UInt8) :
    sectionsTable.Encodable (sections K blob) ↔ SectionNamesFit K blob := by
  have hname : ((sections K blob).map (·.name.utf8ByteSize)).sum =
      (((K.headers blob).take MAX_SECTIONS).map fun h => h.name.utf8ByteSize).sum := by
    rw [sections_eq, List.map_map]
    simp only [Function.comp_def, Header.row_name]
  have hkind : ((sections K blob).map (·.kind.utf8ByteSize)).sum ≤ i32Max := by
    have hsize : ∀ kind ∈ sectionKinds, kind.utf8ByteSize ≤ 6 := by decide
    refine (sum_map_le (n := MAX_SECTIONS) (b := 6) ?_ ?_).trans (by decide)
    · rw [sections_eq, List.length_map]
      exact List.length_take_le _ _
    · intro s hs
      obtain ⟨h, -, rfl⟩ := mem_sections hs
      exact hsize _ (h.row_kind_mem blob)
  rw [encodable_sections_iff, hname]
  exact and_iff_left hkind

/-- The three kinds of an import row. -/
def importKinds : List String := ["named", "ordinal", "delayed"]

theorem machImport_kind_mem (imp : MachImport) : (Imports.machImport imp).kind ∈ importKinds := by
  show (if imp.isLazy then "delayed" else "named") ∈ importKinds
  split_ifs <;> decide

theorem MachO.importRows_kind_mem (macho : MachO) :
    ∀ imp ∈ macho.importRows, imp.kind ∈ importKinds := by
  rw [MachO.importRows, List.forall_mem_map]
  exact fun imp _ => machImport_kind_mem imp

theorem Object.importRows_kind_mem (obj : Object) :
    ∀ imp ∈ obj.importRows, imp.kind ∈ importKinds := by
  cases obj with
  | elf e =>
    intro imp himp
    obtain ⟨sym, -, hsym⟩ := List.mem_filterMap.mp himp
    unfold Imports.elfImport at hsym
    split at hsym
    · cases hsym
    · split at hsym
      · cases hsym
      · split at hsym <;> cases hsym
        simp [importKinds]
  | pe p =>
    rw [Object.importRows, List.forall_mem_map]
    intro imp _
    unfold Imports.peImport
    simp only
    split_ifs <;> simp [importKinds]
  | mach mach =>
    cases mach with
    | binary macho => exact macho.importRows_kind_mem
    | fat fat =>
      rw [Object.importRows]
      cases fat.firstMachO with
      | none => exact fun imp himp => by cases himp
      | some macho => exact macho.importRows_kind_mem
  | other => exact fun imp himp => by cases himp

theorem importRows_kind_mem (K : Crates) (blob : List UInt8) :
    ∀ imp ∈ K.importRows blob, imp.kind ∈ importKinds := by
  rw [Crates.importRows]
  cases K.objectParse blob with
  | none => exact fun imp himp => by cases himp
  | some obj => exact obj.importRows_kind_mem

theorem imports_encodable_iff (K : Crates) (blob : List UInt8) :
    importsTable.Encodable (imports K blob) ↔ ImportNamesFit K blob := by
  have hkind : ((imports K blob).map (·.kind.utf8ByteSize)).sum ≤ i32Max := by
    have hsize : ∀ kind ∈ importKinds, kind.utf8ByteSize ≤ 7 := by decide
    rw [imports_eq]
    refine (sum_map_le (n := MAX_IMPORTS) (b := 7) (List.length_take_le _ _) ?_).trans (by decide)
    exact fun imp himp => hsize _ (importRows_kind_mem K blob imp (List.mem_of_mem_take himp))
  rw [encodable_imports_iff, and_iff_left hkind, imports_eq]
  rfl

/-- **When every batch can be built.**  Whatever the arguments, the batches of `disassemble`,
`strings` and `capabilities` always can; those of `sections` and `imports` exactly when the
names within the row caps fit. -/
theorem batchesEncodable_iff (K : Crates) (hK : K.Handles Capstone.TextBounded)
    (blob : List UInt8) : BatchesEncodable K blob ↔ NamesFit K blob := by
  have hsections := sections_encodable_iff K blob
  have himports := imports_encodable_iff K blob
  constructor
  · intro h
    exact ⟨hsections.mp h.sections, himports.mp h.imports⟩
  · intro h
    constructor
    · exact fun arch mode base sect => encodable_disassemble hK blob arch mode base sect
    · exact hsections.mpr h.sections
    · exact himports.mpr h.imports
    · exact fun minLen => encodable_strings blob minLen
    · exact encodable_capabilities K blob

theorem Fixtures.x64Handle_textBounded : Fixtures.x64Handle.TextBounded := by
  intro rem addr i hi
  rw [Fixtures.x64Handle_iterates] at hi
  obtain ⟨bs, a, hdecode⟩ := Fixtures.x64Decoder.decode_of_mem_bulk i hi
  have hx64 : Fixtures.x64Decode bs a = some i := hdecode
  unfold Fixtures.x64Decode at hx64
  split at hx64
  · cases hx64
  · split_ifs at hx64 <;> cases hx64 <;> simp only [List.length_singleton, Option.getD_some] <;>
      decide

/-- Three section names, `.shstrtab`, `.text` and `.init`, and no imports. -/
theorem batchesEncodable_iff_elf :
    BatchesEncodable Fixtures.elfTwoCodeCrates Fixtures.elfTwoCodeBlob :=
  (batchesEncodable_iff Fixtures.elfTwoCodeCrates
    (Fixtures.crates_handles Fixtures.x64Handle_textBounded) Fixtures.elfTwoCodeBlob).mpr
    ⟨by unfold SectionNamesFit; decide +kernel, by unfold ImportNamesFit; decide +kernel⟩

theorem utf8Len_replicate (n : ℕ) : String.utf8Len (List.replicate n 'a') = n := by
  induction n with
  | zero => rfl
  | succ n ih =>
    rw [List.replicate_succ, String.utf8Len_cons, ih]
    rfl

namespace Fixtures

theorem length_le (width n : ℕ) : (le width n).length = width := by
  rw [le, List.length_map, List.length_range]

theorem length_elf64NamedBlob (elf : Elf) (table : List UInt8) :
    (elf64NamedBlob elf table).length =
      64 + table.length + 64 * elf.sectionHeaders.length := by
  have hshdr : ∀ sh, (elf64Shdr sh).length = 64 := by
    intro sh
    simp only [elf64Shdr, List.length_append, length_le]
  have hall : (elf.sectionHeaders.flatMap elf64Shdr).length = 64 * elf.sectionHeaders.length := by
    rw [List.length_flatMap]
    simp only [hshdr, List.map_const', List.sum_replicate_nat, Nat.mul_comm]
  unfold elf64NamedBlob elf64Blob
  simp only [List.length_set, List.length_append, length_le, hall, List.length_cons,
    List.length_nil]

/-- The table of one name, `n` times `a`. -/
def longName (n : ℕ) : List UInt8 := 0 :: (List.replicate n 0x61 ++ [0])

theorem getAt_longName (n : ℕ) :
    getAt (longName n) 1 = some (String.ofList (List.replicate n 'a')) := by
  have htake : ((longName n).drop 1).takeWhile (· != 0) = List.replicate n (0x61 : UInt8) := by
    show (List.replicate n (0x61 : UInt8) ++ [0]).takeWhile (· != 0) = _
    rw [List.takeWhile_append_of_pos]
    · simp
    · intro b hb
      rw [List.eq_of_mem_replicate hb]
      decide
  have hlen : 1 < (longName n).length := by
    simp [longName]
  rw [getAt, if_pos hlen, htake, List.map_replicate]
  rfl

/-- An empty section with that name. -/
def longNameShdr : SectionHeader := ⟨1, 1, 0, 0, 0, 0⟩

/-- `k` sections share the one name. -/
def elfLongNames (n k : ℕ) : Elf :=
  elf64Named Probe.EM_X86_64 0 (longName n) (List.replicate k longNameShdr)

theorem elfLongNames_sectionHeaders (n k : ℕ) :
    (elfLongNames n k).sectionHeaders =
      nullShdr :: ⟨1, 3, 0, 0, 64, UInt64.ofNat (longName n).length⟩ ::
        List.replicate k longNameShdr := rfl

def elfLongNamesBlob (n k : ℕ) : List UInt8 := elf64NamedBlob (elfLongNames n k) (longName n)

theorem length_elfLongNamesBlob (n k : ℕ) :
    (elfLongNamesBlob n k).length = 64 + (n + 2) + 64 * (k + 2) := by
  rw [elfLongNamesBlob, length_elf64NamedBlob, elfLongNames_sectionHeaders]
  simp only [longName, List.length_cons, List.length_append, List.length_replicate,
    List.length_nil]

def elfLongNamesCrates (n k : ℕ) : Crates :=
  crates [(elfLongNamesBlob n k, .elf (elfLongNames n k))] []

variable (n k : ℕ)

theorem elfLongNames_parse : (elfLongNamesCrates n k).objectParse (elfLongNamesBlob n k) =
    some (.elf (elfLongNames n k)) :=
  crates_objectParse _ _ _

theorem elfLongNames_headers :
    (elfLongNamesCrates n k).headers (elfLongNamesBlob n k) =
      (elfLongNames n k).sectionHeaders.map (Header.elf (elfLongNames n k)) := by
  rw [Crates.headers, elfLongNames_parse]
  rfl

/-- Every section but the first has the long name. -/
theorem elfLongNames_name (sh : SectionHeader) (h : sh.shName = 1) :
    (Header.elf (elfLongNames n k) sh).name = String.ofList (List.replicate n 'a') := by
  show (getAt (longName n) sh.shName).getD "" = _
  rw [h, getAt_longName]
  rfl

theorem elfLongNames_null_name : (Header.elf (elfLongNames n k) nullShdr).name = "" := by
  show (getAt (longName n) 0).getD "" = ""
  simp [getAt, longName]

theorem elfLongNames_sectionNames {n k : ℕ} (hk : k + 2 ≤ MAX_SECTIONS) :
    SectionNamesFit (elfLongNamesCrates n k) (elfLongNamesBlob n k) ↔ (k + 1) * n ≤ i32Max := by
  have hsize : (String.ofList (List.replicate n 'a')).utf8ByteSize = n := by
    rw [String.utf8ByteSize_ofList, utf8Len_replicate]
  have hshared := elfLongNames_name n k longNameShdr rfl
  have htable := elfLongNames_name n k ⟨1, 3, 0, 0, 64, UInt64.ofNat (longName n).length⟩ rfl
  rw [SectionNamesFit, elfLongNames_headers, elfLongNames_sectionHeaders, List.take_of_length_le]
  · simp only [List.map_cons, List.map_replicate, List.sum_cons, List.sum_replicate_nat,
      elfLongNames_null_name, hshared, htable, hsize]
    rw [Nat.add_comm k 1, Nat.add_mul, Nat.one_mul]
    simp
  · rw [List.length_map, List.length_cons, List.length_cons, List.length_replicate]
    exact hk

theorem elfLongNames_importNames :
    ImportNamesFit (elfLongNamesCrates n k) (elfLongNamesBlob n k) := by
  rw [ImportNamesFit, Crates.importRows, elfLongNames_parse]
  exact ⟨Nat.zero_le _, Nat.zero_le _⟩

end Fixtures

/-- Sections that share one long name. -/
theorem longNames_not_encodable {n k : ℕ} (hk : k + 2 ≤ MAX_SECTIONS)
    (hsize : i32Max < (k + 1) * n) :
    ¬ BatchesEncodable (Fixtures.elfLongNamesCrates n k) (Fixtures.elfLongNamesBlob n k) := by
  intro h
  have hnames := (sections_encodable_iff _ _).mp h.sections
  rw [Fixtures.elfLongNames_sectionNames hk] at hnames
  omega

/-- 2048 headers share one name of a mebibyte, in a file of 1.1 MiB. -/
theorem long_names_overflow :
    (Fixtures.elfLongNamesBlob 1048576 2048).length ≤ MAX_SCAN_BYTES ∧
      ¬ BatchesEncodable (Fixtures.elfLongNamesCrates 1048576 2048)
        (Fixtures.elfLongNamesBlob 1048576 2048) := by
  constructor
  · rw [Fixtures.length_elfLongNamesBlob]
    decide
  · exact longNames_not_encodable (by decide) (by decide)

end VgiDisasm
