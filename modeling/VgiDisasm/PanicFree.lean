import VgiDisasm.Checked
import VgiDisasm.Overflow
import VgiDisasm.SweepBounds

/-!
# Where the engine can panic

No index, slice bound or subtraction of the engine is ever out of range, whatever the blob,
whatever the parser returns and whatever the decoder answers: each is behind a guard that
covers it.  What is left are the address additions, which the release build wraps.  So a
release build always returns, and under overflow checks `disassemble` and `capabilities` panic
exactly where an addition they reach overflows.
-/

namespace VgiDisasm

open VgiDisasm.Panics

namespace Checked

/-! ### Engine -/

theorem sweepStep_eq (cs : Capstone) (code : List UInt8) (base : UInt64) (maxTotal : ℕ)
    (s : Engine.SweepState) :
    sweepStep cs code base maxTotal s = some (Engine.sweepStep cs code base maxTotal s) := by
  unfold sweepStep Engine.sweepStep
  by_cases hoff : s.offset < code.length
  · rw [if_pos hoff, dif_pos hoff]
    by_cases hcap : s.out.length ≥ maxTotal
    · rw [if_pos hcap, if_pos hcap]
    · rw [if_neg hcap, if_neg hcap, sliceFrom_of_le hoff.le, index_of_lt hoff]
      simp only [Option.bind_eq_bind, Option.bind_some, Option.pure_def]
      cases cs.disasmAll (code.drop s.offset) (base + UInt64.ofNat s.offset) with
      | none => rfl
      | some insns =>
        cases insns with
        | nil => rfl
        | cons insn insns =>
          simp only
          split <;> rfl
  · rw [if_neg hoff, dif_neg hoff]

/-- The sweep returns, whatever the decoder answers. -/
theorem sweepInto_eq (cs : Capstone) (code : List UInt8) (base : UInt64) (out : List Insn)
    (maxTotal : ℕ) :
    sweepInto cs code base out maxTotal = some (Engine.sweepInto cs code base out maxTotal) := by
  have hgrows : out.length ≤
      (Loop.run (Engine.sweepStep cs code base maxTotal) code.length ⟨0, out⟩).out.length :=
    (prefix_run code.length ⟨0, out⟩).length_le
  unfold sweepInto
  rw [run_eq (sweepStep_eq cs code base maxTotal), Option.bind_eq_bind, Option.bind_some,
    sub_of_le hgrows]
  rfl

/-! ### Sections -/

theorem sectionBytes_eq (s : Section) (blob : List UInt8) :
    sectionBytes s blob = some (s.bytes blob) := by
  unfold sectionBytes Section.bytes
  cases s.dataRange with
  | none => rfl
  | some range =>
    obtain ⟨off, len⟩ := range
    show (if off ≤ blob.length then _ else _) = some (if off ≤ blob.length then _ else _)
    by_cases hoff : off ≤ blob.length
    · rw [if_pos hoff, if_pos hoff]
      exact sliceRange_of_le (by omega) (Nat.min_le_right _ _)
    · rw [if_neg hoff, if_neg hoff]

/-- The counter of the value `v` after a loop over `data`. -/
theorem foldlM_counts (data : List UInt8) (counts : List ℕ) (hlen : counts.length = 256) :
    data.foldlM (fun counts b => update (· + 1) counts b.toNat) counts =
      some (counts.mapIdx fun v c => c + data.count (UInt8.ofNat v)) := by
  induction data generalizing counts with
  | nil =>
    show some counts = _
    congr 1
    apply List.ext_getElem
    · rw [List.length_mapIdx]
    · intro v hv hv'
      rw [List.getElem_mapIdx, List.count_nil, Nat.add_zero]
  | cons b data ih =>
    have hb : b.toNat < counts.length := hlen ▸ b.toNat_lt
    rw [List.foldlM_cons, update_of_lt _ hb, Option.bind_eq_bind, Option.bind_some,
      ih _ (by rw [List.length_modify, hlen])]
    congr 1
    apply List.ext_getElem
    · simp
    · intro v hv hv'
      have hv256 : v < 256 := by
        rw [List.length_mapIdx, hlen] at hv'
        exact hv'
      have hbv : b.toNat = v ↔ b = UInt8.ofNat v := by
        rw [← UInt8.toNat_inj, UInt8.toNat_ofNat_of_lt' hv256]
      rw [List.getElem_mapIdx, List.getElem_mapIdx, List.getElem_modify, List.count_cons]
      by_cases h : b.toNat = v
      · rw [if_pos h, if_pos (by simpa using hbv.mp h)]
        omega
      · rw [if_neg h, if_neg (by simpa using fun hb => h (hbv.mpr hb))]
        omega

/-- The array holds the number of occurrences of every byte value. -/
theorem countBytes_eq (data : List UInt8) :
    countBytes data = some ((List.range 256).map fun v => data.count (UInt8.ofNat v)) := by
  unfold countBytes
  rw [foldlM_counts data _ List.length_replicate]
  refine congrArg some (List.ext_getElem ?_ ?_)
  · rw [List.length_mapIdx, List.length_replicate, List.length_map, List.length_range]
  · intro v hv hv'
    rw [List.getElem_mapIdx, List.getElem_replicate, List.getElem_map, List.getElem_range,
      Nat.zero_add]

theorem shannonEntropy_eq (data : List UInt8) :
    shannonEntropy data = some (VgiDisasm.shannonEntropy data) := by
  unfold shannonEntropy VgiDisasm.shannonEntropy
  split
  · rfl
  · rw [countBytes_eq, Option.bind_eq_bind, Option.bind_some]
    simp only [List.foldl_map, Option.pure_def]

theorem clampRange_eq (usizeMax : ℕ) (off len : UInt64) (blobLen : ℕ) :
    clampRange usizeMax off len blobLen = some (Sections.clampRange usizeMax off len blobLen) := by
  unfold clampRange Sections.clampRange
  split
  · rfl
  · split
    · rfl
    · rename_i hoff
      rw [sub_of_le (by omega)]
      rfl

theorem finalize_eq (s : Section) (blob : List UInt8) :
    finalize s blob = some (Sections.finalize s blob) := by
  unfold finalize
  rw [sectionBytes_eq, Option.bind_eq_bind, Option.bind_some, shannonEntropy_eq]
  rfl

theorem dataRange_eq (blob : List UInt8) (h : Header) :
    dataRange Build.release.usizeMax blob h = some (h.row blob).dataRange := by
  unfold dataRange
  rw [h.row_dataRange, clampRange_eq]
  split <;> rfl

/-- Finalizing a row again changes nothing. -/
theorem finalize_row (blob : List UInt8) (h : Header) :
    Sections.finalize (h.row blob) blob = h.row blob := by
  show { h.row blob with entropy := VgiDisasm.shannonEntropy ((h.row blob).bytes blob) } = _
  rw [← h.row_entropy]

/-! ### Strings -/

theorem unitAt_eq {data : List UInt8} {i : ℕ} (h : i + 1 < data.length) :
    unitAt data i = some (Strings.pairAt data i) := by
  unfold unitAt Strings.pairAt
  rw [index_of_lt (show i < data.length from by omega), Option.bind_eq_bind, Option.bind_some,
    dif_pos h]
  cases Strings.printable data[i] with
  | false => rfl
  | true =>
    rw [if_pos rfl, index_of_lt h]
    rfl

theorem unitStep_eq (data : List UInt8) (s : ℕ × List Char) :
    unitStep data s = some (Strings.unitStep data s) := by
  unfold unitStep Strings.unitStep
  by_cases h : s.1 + 1 < data.length
  · rw [if_pos h, unitAt_eq h, Option.bind_eq_bind, Option.bind_some]
    cases Strings.pairAt data s.1 with
    | false => rfl
    | true =>
      have hi : s.1 < data.length := by omega
      rw [if_pos rfl, if_pos rfl, index_of_lt hi, List.getD_eq_getElem?_getD,
        List.getElem?_eq_getElem hi]
      rfl
  · rw [if_neg h, if_neg (by simp [Strings.pairAt, h])]
    rfl

theorem utf16Step_eq (data : List UInt8) (minLen : ℕ) (s : Strings.Utf16State) :
    utf16Step data minLen s = some (Strings.utf16Step data minLen s) := by
  unfold utf16Step Strings.utf16Step
  cases s.returned with
  | true => rfl
  | false =>
    simp only [Bool.false_eq_true, if_false]
    by_cases h : s.i + 1 < data.length
    · rw [if_pos h, if_pos h, unitAt_eq h, Option.bind_eq_bind, Option.bind_some]
      cases Strings.pairAt data s.i with
      | false => rfl
      | true =>
        rw [if_pos rfl, if_pos rfl, run_eq (unitStep_eq data)]
        rfl
    · rw [if_neg h, if_neg h]

theorem extractUtf16le_eq (data : List UInt8) (minLen : ℕ) (out : List StringHit) :
    extractUtf16le data minLen out = some (Strings.extractUtf16le data minLen out) := by
  unfold extractUtf16le
  rw [run_eq (utf16Step_eq data minLen)]
  rfl

theorem strings_eq (bytes : List UInt8) (minLen : ℕ) :
    strings bytes minLen = some (VgiDisasm.strings bytes minLen) := by
  unfold strings
  rw [sliceTo_min, Option.bind_eq_bind, Option.bind_some]
  simp only [extractUtf16le_eq]
  rfl

/-! ### Regions -/

theorem placeRegions_eq (blob : List UInt8) (base : Option UInt64) (picked : List Section) :
    placeRegions blob base picked = some (Sweep.placeRegions blob base picked) := by
  unfold placeRegions
  refine mapM_eq fun s _ => ?_
  rw [sectionBytes_eq]
  rfl

theorem selectRegions_eq (blob : List UInt8) (secs : List Section) (sect : String)
    (base : Option UInt64) :
    selectRegions blob secs sect base = some (Sweep.selectRegions blob secs sect base) := by
  unfold selectRegions Sweep.selectRegions
  rw [sliceTo_min, Option.bind_eq_bind, Option.bind_some]
  simp only [placeRegions_eq, Option.pure_def]
  split
  · rfl
  · split
    · rfl
    · split <;> rfl

theorem sweepRegions_eq (cs : Capstone) (regions : List (UInt64 × List UInt8)) (out : List Insn) :
    sweepRegions cs regions out = some (Capped.runsCapped MAX_INSNS
      (fun region out => (Engine.sweepInto cs region.2 region.1 out MAX_INSNS).1) regions out) := by
  induction regions generalizing out with
  | nil => rfl
  | cons region regions ih =>
    rw [sweepRegions, Capped.runsCapped]
    split
    · rfl
    · rw [sweepInto_eq, Option.bind_eq_bind, Option.bind_some, ih]

end Checked

/-! ### Additions -/

/-- An addition of the build wraps or panics, and `usize` has 64 bits. -/
structure Build.Native (B : Build Option) : Prop where
  add : ∀ a b, B.add a b = none ∨ B.add a b = some (a + b)
  usizeMax : B.usizeMax = Build.release.usizeMax

theorem Build.native_unwinding : Build.unwinding.Native := ⟨fun _ _ => Or.inr rfl, rfl⟩

theorem Build.native_checked : Build.checked.Native := by
  refine ⟨fun a b => ?_, rfl⟩
  by_cases h : a.toNat + b.toNat < 2 ^ 64
  · exact Or.inr (if_pos h)
  · exact Or.inl (if_neg h)

/-- The distance is only taken in a section that contains the entry. -/
theorem subAddr_of_containsVa {s : Section} {va : UInt64} (h : s.containsVa va = true) :
    Checked.subAddr va s.vaddr = some (va - s.vaddr) := by
  have hle : s.vaddr ≤ va := by
    simp only [Section.containsVa, Bool.and_eq_true, decide_eq_true_eq] at h
    exact h.1
  have hnat : s.vaddr.toNat ≤ va.toNat := hle
  unfold Checked.subAddr
  rw [sub_of_le hnat, Option.bind_eq_bind, Option.bind_some, ← UInt64.toNat_sub_of_le _ _ hle,
    UInt64.ofNat_toNat]
  rfl

section Native

variable {B : Build Option} (hB : B.Native)
include hB

theorem objectProbe_native (obj : Object) :
    Probe.objectProbe B obj = none ∨
      Probe.objectProbe B obj = some (Id.run (Probe.objectProbe Build.release obj)) := by
  cases obj with
  | pe p =>
    show (B.add _ _ >>= fun entry => _) = none ∨ (B.add _ _ >>= fun entry => _) = _
    rcases hB.add p.imageBase p.entry.toUInt64 with h | h
    · left
      rw [h]
      rfl
    · right
      rw [h]
      rfl
  | elf e => exact Or.inr rfl
  | mach mach => cases mach <;> exact Or.inr rfl
  | other => exact Or.inr rfl

theorem Header.rowWith_native (blob : List UInt8) (h : Header) :
    h.rowWith B blob = none ∨ h.rowWith B blob = some (h.row blob) := by
  cases h with
  | pe p s =>
    show (B.add _ _ >>= fun vaddr => _) = none ∨ (B.add _ _ >>= fun vaddr => _) = _
    rcases hB.add p.imageBase s.virtualAddress.toUInt64 with h | h
    · left
      rw [h]
      rfl
    · right
      rw [h, hB.usizeMax]
      rfl
  | elf e sh =>
    right
    show some (Sections.elfSection B.usizeMax e blob sh) = _
    rw [hB.usizeMax]
    rfl
  | mach segname sect =>
    right
    show some (Sections.machSection B.usizeMax blob segname sect) = _
    rw [hB.usizeMax]
    rfl

theorem probeWith_native (K : Crates) (blob : List UInt8) :
    Returns (probeWith B K blob) (probe K blob) (probeWith B K blob = some (probe K blob)) := by
  refine Returns.of_cases ?_
  cases hobj : K.objectParse blob with
  | none => exact Or.inr (by simp [probeWith, Probe.parse, hobj, probe_of_none hobj])
  | some obj =>
    rw [probeWith_of_some B hobj, probe_of_some hobj]
    exact objectProbe_native hB obj

theorem sectionsWith_native (K : Crates) (blob : List UInt8) :
    Returns (sectionsWith B K blob) (sections K blob)
      (sectionsWith B K blob = some (sections K blob)) := by
  refine Returns.of_cases ?_
  have hpure : sections K blob =
      Capped.pushCapped MAX_SECTIONS (Header.row blob) (K.headers blob) [] := by
    rw [sections_eq, Capped.pushCapped_eq]
    rfl
  rw [sectionsWith_eq]
  rcases Capped.pushCappedM_option_cases MAX_SECTIONS (Header.rowWith_native hB blob)
    (K.headers blob) [] with h | h
  · exact Or.inl (by rw [h]; rfl)
  · right
    rw [h, ← hpure, sections_eq]
    simp

theorem row_native (blob : List UInt8) (h : Header) :
    Checked.row B blob h = h.rowWith B blob := by
  unfold Checked.row
  rw [hB.usizeMax, Checked.dataRange_eq, Option.bind_eq_bind, Option.bind_some]
  rcases Header.rowWith_native hB blob h with hrow | hrow
  · rw [hrow]
    rfl
  · rw [hrow, Option.bind_eq_bind, Option.bind_some, Checked.finalize_eq]
    exact congrArg some (Checked.finalize_row blob h)

/-- With its checks the enumeration panics only in its additions. -/
theorem sections_native (K : Crates) (blob : List UInt8) :
    Returns (Checked.sections B K blob) (sections K blob)
      (sectionsWith B K blob = some (sections K blob)) := by
  have hrow : Checked.row B blob = Header.rowWith B blob := funext (row_native hB blob)
  have hsections : Checked.sections B K blob = sectionsWith B K blob := by
    rw [sectionsWith_eq, Checked.sections, hrow, map_eq_pure_bind]
  rw [hsections]
  exact sectionsWith_native hB K blob

theorem resolve_native (K : Crates) (blob : List UInt8) (arch mode : Option String) :
    Returns (Checked.resolve B K blob arch mode) (Sweep.resolve K blob arch mode)
      (arch = none → probeWith B K blob = some (probe K blob)) := by
  cases arch with
  | some a =>
    refine (Returns.of_eq rfl).congr ?_
    simp
  | none =>
    refine Returns.congr ((probeWith_native hB K blob).bind_total rfl) ?_
    exact ⟨fun h _ => h, fun h => h rfl⟩

/-- **`disassemble` panics only in an addition that it reaches**: the entry address if it
probes the container, the section addresses if it has a selection to decode with. -/
theorem disassemble_native (K : Crates) (blob : List UInt8) (arch mode : Option String)
    (base : Option UInt64) (sect : String) :
    Returns (Checked.disassemble B K blob arch mode base sect)
      (disassemble K blob arch mode base sect)
      ((arch = none → probeWith B K blob = some (probe K blob)) ∧
        (Sweep.resolve K blob arch mode ≠ none →
          sectionsWith B K blob = some (sections K blob))) := by
  refine (resolve_native hB K blob arch mode).bind ?_
  unfold disassemble
  cases Sweep.resolve K blob arch mode with
  | none => exact (Returns.of_eq rfl).congr (by simp)
  | some sel =>
    refine Returns.congr ((sections_native hB K blob).bind_total ?_) (by simp)
    rw [Checked.selectRegions_eq, Option.bind_eq_bind, Option.bind_some]
    simp only
    cases Engine.build K sel with
    | none => rfl
    | some cs => exact Checked.sweepRegions_eq cs _ []

theorem capabilities_native (K : Crates) (blob : List UInt8) :
    Returns (Checked.capabilities B K blob) (capabilities K blob)
      (probeWith B K blob = some (probe K blob) ∧
        ((probe K blob).archSel ≠ none → sectionsWith B K blob = some (sections K blob))) := by
  unfold Checked.capabilities
  rw [Checked.strings_eq, Option.bind_eq_bind, Option.bind_some]
  refine Returns.congr
    ((disassemble_native hB K blob none none none "auto").bind_total rfl) ?_
  simp [Sweep.resolve]

theorem entrypoint_native (K : Crates) (blob : List UInt8) :
    Checked.entrypoint B K blob = entrypointWith B K blob := by
  have hprobe := probeWith_native hB K blob
  have hsections := sectionsWith_native hB K blob
  have hchecked := sections_native hB K blob
  unfold Checked.entrypoint entrypointWith
  by_cases hp : probeWith B K blob = some (probe K blob)
  · rw [hp, Option.bind_eq_bind, Option.bind_some, Option.bind_eq_bind, Option.bind_some]
    split
    · rfl
    · by_cases hs : sectionsWith B K blob = some (sections K blob)
      · rw [hchecked.value hs, hs, Option.bind_eq_bind, Option.bind_some, Option.bind_eq_bind,
          Option.bind_some]
        unfold locate
        cases (probe K blob).entry with
        | none => rfl
        | some va =>
          cases hfind : (sections K blob).find? (·.containsVa va) with
          | none =>
            simp only [Option.bind_some, hfind]
            rfl
          | some s =>
            have hva := subAddr_of_containsVa
              (List.find?_some (p := fun s : Section => s.containsVa va) hfind)
            simp only [Option.bind_some, hfind, hva, Option.bind_eq_bind]
      · rw [hchecked.panic hs, hsections.panic hs]
        rfl
  · rw [hprobe.panic hp]
    rfl

end Native

/-! ### The two builds -/

theorem probeWith_unwinding (K : Crates) (blob : List UInt8) :
    probeWith Build.unwinding K blob = some (probe K blob) := by
  cases hobj : K.objectParse blob with
  | none => simp [probeWith, Probe.parse, hobj, probe_of_none hobj]
  | some obj =>
    rw [probeWith_of_some Build.unwinding hobj, probe_of_some hobj]
    cases obj with
    | mach mach => cases mach <;> rfl
    | _ => rfl

theorem sectionsWith_unwinding (K : Crates) (blob : List UInt8) :
    sectionsWith Build.unwinding K blob = some (sections K blob) := by
  have hrow : Header.rowWith Build.unwinding blob =
      fun h => (pure (Header.row blob h) : Option Section) := by
    funext h
    cases h <;> rfl
  rw [sectionsWith_eq, hrow, Capped.pushCappedM_pure, Capped.pushCapped_eq, sections_eq]
  simp

theorem locate_unwinding (p : Probe) (secs : List Section) :
    locate Build.unwinding p secs = some (Id.run (locate Build.release p secs)) := by
  unfold locate
  cases p.entry with
  | none => rfl
  | some va =>
    simp only [Option.bind_some]
    cases secs.find? (·.containsVa va) <;> rfl

theorem entrypointWith_unwinding (K : Crates) (blob : List UInt8) :
    entrypointWith Build.unwinding K blob = some (entrypoint K blob) := by
  unfold entrypointWith
  rw [probeWith_unwinding, sectionsWith_unwinding, Option.bind_eq_bind, Option.bind_some,
    entrypoint_eq]
  split
  · rfl
  · exact locate_unwinding _ _

/-- **A release build never panics**: every function returns, with the value of the total
definition, on every blob, for every parser and every decoder. -/
theorem panicFree_release (K : Crates) (blob : List UInt8) :
    probeWith Build.unwinding K blob = some (probe K blob) ∧
      Checked.sections Build.unwinding K blob = some (sections K blob) ∧
      Checked.entrypoint Build.unwinding K blob = some (entrypoint K blob) ∧
      (∀ minLen, Checked.strings blob minLen = some (strings blob minLen)) ∧
      (∀ arch mode base sect, Checked.disassemble Build.unwinding K blob arch mode base sect =
        some (disassemble K blob arch mode base sect)) ∧
      Checked.capabilities Build.unwinding K blob = some (capabilities K blob) := by
  have hB := Build.native_unwinding
  have hprobe := probeWith_unwinding K blob
  have hsections := sectionsWith_unwinding K blob
  refine ⟨hprobe, ?_, ?_, Checked.strings_eq blob, ?_, ?_⟩
  · exact (sections_native hB K blob).value hsections
  · rw [entrypoint_native hB]
    exact entrypointWith_unwinding K blob
  · intro arch mode base sect
    exact (disassemble_native hB K blob arch mode base sect).value
      ⟨fun _ => hprobe, fun _ => hsections⟩
  · exact (capabilities_native hB K blob).value ⟨hprobe, fun _ => hsections⟩

theorem probeWith_checked (K : Crates) (blob : List UInt8) :
    probeWith Build.checked K blob = some (probe K blob) ↔
      ∀ obj, K.objectParse blob = some obj → obj.EntryFits := by
  cases hobj : K.objectParse blob with
  | none =>
    refine iff_of_true ?_ (fun obj h => by cases h)
    simp [probeWith, Probe.parse, hobj, probe_of_none hobj]
  | some obj =>
    rw [probe_of_some hobj, probeWith_of_some Build.checked hobj, objectProbe_checked]
    simp

/-- **Where `disassemble` and `capabilities` panic under overflow checks**: the image base plus
the entry RVA overflows and the container is probed, or the image base plus an enumerated
section RVA overflows and the selection resolves.  An explicit architecture spares the first,
an unresolved one the second; elsewhere both return. -/
theorem disassemble_panics_iff (K : Crates) (blob : List UInt8) :
    (∀ arch mode base sect,
      Returns (Checked.disassemble Build.checked K blob arch mode base sect)
        (disassemble K blob arch mode base sect)
        ((arch = none → ∀ obj, K.objectParse blob = some obj → obj.EntryFits) ∧
          (Sweep.resolve K blob arch mode ≠ none →
            ∀ h ∈ (K.headers blob).take MAX_SECTIONS, h.AddrFits))) ∧
      Returns (Checked.capabilities Build.checked K blob) (capabilities K blob)
        ((∀ obj, K.objectParse blob = some obj → obj.EntryFits) ∧
          ((probe K blob).archSel ≠ none →
            ∀ h ∈ (K.headers blob).take MAX_SECTIONS, h.AddrFits)) := by
  have hB := Build.native_checked
  rw [← probeWith_checked, ← sectionsWith_checked]
  exact ⟨disassemble_native hB K blob, capabilities_native hB K blob⟩

end VgiDisasm
