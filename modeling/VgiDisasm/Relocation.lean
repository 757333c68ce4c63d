import VgiDisasm.Provenance

/-!
# `base` only relocates

Two sweeps of the same bytes from different addresses stay in lock-step, as long as the decoder
makes the same of the bytes at every address.  `disassemble_relocates` lifts this to the whole
request: where a single region is swept `base` shifts the addresses and changes nothing else, and
elsewhere it is not read.
-/

namespace VgiDisasm

open VgiDisasm.Engine VgiDisasm.Sweep VgiDisasm.Extents

/-! ### What is assumed of a handle -/

/-- The parts of a row that do not tell where it is. -/
def Insn.features (r : Insn) : ℕ × String × List String := (r.bytes.length, r.mnemonic, r.groups)

/-- Lengths, mnemonics and groups do not depend on the address. -/
def Capstone.AddressFree (cs : Capstone) : Prop :=
  ∀ rem a b, (cs.answer rem a).map (fun i => (insnRow cs i).features) =
    (cs.answer rem b).map fun i => (insnRow cs i).features

/-- `r'` is `r`, moved by `d`. -/
structure Insn.Relocated (d : UInt64) (r r' : Insn) : Prop where
  address : r'.address = r.address + d
  size : r'.size = r.size
  bytes : r'.bytes = r.bytes
  mnemonic : r'.mnemonic = r.mnemonic
  groups : r'.groups = r.groups

/-! ### One region -/

theorem consumed_eq_features (cs : Capstone) (insns : List CsInsn) :
    consumed insns = ((insns.map fun i => (insnRow cs i).features).map Prod.fst).sum := by
  rw [consumed, List.map_map]
  rfl

/-- The sweeps stay in lock-step: what one answer consumes the other does. -/
theorem features_sweepRows {cs : Capstone} (hpos : cs.LengthsPositive) (hfree : cs.AddressFree)
    (code : List UInt8) (a b : UInt64) :
    (sweepRows cs code a).map Insn.features = (sweepRows cs code b).map Insn.features := by
  induction code, a using sweepRows_induction hpos generalizing b with
  | nil a => rw [sweepRows_nil, sweepRows_nil]
  | bad byte rest a hnil ih =>
    have hnil' : cs.answer (byte :: rest) b = [] := by
      have heq := hfree (byte :: rest) a b
      rw [hnil, List.map_nil] at heq
      exact List.map_eq_nil_iff.mp heq.symm
    rw [sweepRows_bad hnil, sweepRows_bad hnil', List.map_cons, List.map_cons, ih (1 +ᵥ b)]
    rfl
  | batch code a hcode hne ih =>
    have heq := hfree code a b
    have hne' : cs.answer code b ≠ [] := by
      intro hnil
      rw [hnil, List.map_nil] at heq
      exact hne (List.map_eq_nil_iff.mp heq)
    have hconsumed : consumed (cs.answer code a) = consumed (cs.answer code b) := by
      rw [consumed_eq_features cs, consumed_eq_features cs, heq]
    rw [sweepRows_batch hpos hcode hne, sweepRows_batch hpos hcode hne', List.map_append,
      List.map_append, List.map_map, List.map_map, ih (consumed (cs.answer code b) +ᵥ b),
      ← hconsumed]
    exact congrArg (· ++ _) heq

theorem sweepRows_relocated {cs : Capstone} (h : cs.AnswersTile) (hfree : cs.AddressFree)
    (code : List UInt8) (a d : UInt64) :
    List.Forall₂ (Insn.Relocated d) (sweepRows cs code a) (sweepRows cs code (a + d)) := by
  have hbytes : (sweepRows cs code a).flatMap Insn.bytes =
      (sweepRows cs code (a + d)).flatMap Insn.bytes := by
    rw [flatMap_bytes_sweepRows h.toAnswersPrefix, flatMap_bytes_sweepRows h.toAnswersPrefix]
  have hadvance : ∀ (n : ℕ) (x y : UInt64), y = x + d → n +ᵥ y = (n +ᵥ x) + d := by
    rintro n x y rfl
    rw [vadd_def, vadd_def, add_right_comm]
  have hlock := (consecutive_sweepRows h code a).lockstep
    (fun x y hxy => congrArg Prod.fst hxy) hadvance (consecutive_sweepRows h code (a + d))
    (features_sweepRows h.len_pos hfree code a (a + d)) hbytes rfl
  refine List.forall₂_iff_get.mpr ⟨hlock.length_eq, fun i hi hi' => ?_⟩
  obtain ⟨haddr, hbytes, hfeatures⟩ := hlock.get hi hi'
  have hsize := sweepRows_size h _ (List.get_mem (sweepRows cs code a) ⟨i, hi⟩)
  have hsize' := sweepRows_size h _ (List.get_mem (sweepRows cs code (a + d)) ⟨i, hi'⟩)
  have hrest := congrArg Prod.snd hfeatures
  refine ⟨haddr, UInt8.toNat_inj.mp ?_, hbytes.symm, ?_, ?_⟩
  · rw [hsize, hsize', hbytes]
  · exact (congrArg Prod.fst hrest).symm
  · exact (congrArg Prod.snd hrest).symm

/-! ### Regions -/

/-- A single region stands at `base` if there is one; otherwise `base` is not read. -/
theorem selectRegions_base (blob : List UInt8) (secs : List Section) (sect : String) :
    (∃ a code, ∀ base, selectRegions blob secs sect base = [(base.getD a, code)]) ∨
      ∃ regions, regions.length ≠ 1 ∧ ∀ base, selectRegions blob secs sect base = regions := by
  by_cases hwhole : sect = "all" ∨ secs = []
  · exact Or.inl ⟨0, _, selectRegions_whole hwhole⟩
  · obtain ⟨hall, hsecs⟩ := not_or.mp hwhole
    by_cases hsingle : (pickedSections secs sect).length = 1
    · obtain ⟨s, hs⟩ := List.length_eq_one_iff.mp hsingle
      refine Or.inl ⟨s.vaddr, s.bytes blob, fun base => ?_⟩
      rw [selectRegions_picked hall hsecs, hs]
      rfl
    · refine Or.inr ⟨(pickedSections secs sect).map fun s => (s.vaddr, s.bytes blob), ?_, ?_⟩
      · rwa [List.length_map]
      · intro base
        rw [selectRegions_picked hall hsecs, placeRegions, beq_false_of_ne hsingle]
        rfl

/-! ### The request -/

section Request

variable {K : Crates} {blob : List UInt8} {arch mode : Option String} {sect : String}
  {sel : ArchSel} {cs : Capstone}

/-- Only the regions see the base. -/
theorem disassemble_congr_base (hsel : resolve K blob arch mode = some sel)
    (hcs : build K sel = some cs) {base base' : Option UInt64}
    (hregions : selectRegions blob (sections K blob) sect base =
      selectRegions blob (sections K blob) sect base') :
    disassemble K blob arch mode base sect = disassemble K blob arch mode base' sect := by
  rw [disassemble_of_built hsel hcs, disassemble_of_built hsel hcs, hregions]

/-- The single region moves by the difference of the bases. -/
theorem disassemble_relocated_of_single (hsel : resolve K blob arch mode = some sel)
    (hcs : build K sel = some cs) (h : cs.AnswersTile) (hfree : cs.AddressFree) {b₁ b₂ : UInt64}
    (hsingle : (selectRegions blob (sections K blob) sect (some b₁)).length = 1) :
    List.Forall₂ (Insn.Relocated (b₂ - b₁)) (disassemble K blob arch mode (some b₁) sect)
      (disassemble K blob arch mode (some b₂) sect) := by
  rcases selectRegions_base blob (sections K blob) sect with
    ⟨a, code, hregions⟩ | ⟨regions, hlen, hregions⟩
  · rw [disassemble_single h.len_pos hsel hcs (hregions (some b₁)),
      disassemble_single h.len_pos hsel hcs (hregions (some b₂))]
    have hmoved := sweepRows_relocated h hfree code b₁ (b₂ - b₁)
    rw [add_sub_cancel] at hmoved
    exact List.forall₂_take MAX_INSNS hmoved
  · rw [hregions] at hsingle
    exact absurd hsingle hlen

/-- Several regions, or none, do not read the base. -/
theorem selectRegions_of_many {b₁ b₂ : UInt64}
    (hmany : (selectRegions blob (sections K blob) sect (some b₁)).length ≠ 1) :
    selectRegions blob (sections K blob) sect (some b₁) =
      selectRegions blob (sections K blob) sect (some b₂) := by
  rcases selectRegions_base blob (sections K blob) sect with
    ⟨a, code, hregions⟩ | ⟨regions, hlen, hregions⟩
  · rw [hregions] at hmany
    exact absurd rfl hmany
  · rw [hregions, hregions]

end Request

/-- **`base` relocates.**  With two explicit bases the rows agree in everything but the address,
and the addresses are shifted by the difference of the bases, if a single region is swept;
otherwise the bases are not read.  The base at which the single region stands anyway changes
nothing. -/
theorem disassemble_relocates (K : Crates) (blob : List UInt8) (arch mode : Option String)
    (sect : String) (sel : ArchSel) (hsel : resolve K blob arch mode = some sel)
    (cs : Capstone) (hcs : build K sel = some cs) (h : cs.AnswersTile) (hfree : cs.AddressFree) :
    (∀ b₁ b₂ : UInt64,
      ((selectRegions blob (sections K blob) sect (some b₁)).length = 1 →
        List.Forall₂ (Insn.Relocated (b₂ - b₁))
          (disassemble K blob arch mode (some b₁) sect)
          (disassemble K blob arch mode (some b₂) sect)) ∧
      ((selectRegions blob (sections K blob) sect (some b₁)).length ≠ 1 →
        disassemble K blob arch mode (some b₁) sect =
          disassemble K blob arch mode (some b₂) sect)) ∧
    (sect = "all" ∨ sections K blob = [] →
      disassemble K blob arch mode (some 0) sect = disassemble K blob arch mode none sect) ∧
    ∀ s, sect ≠ "all" → pickedSections (sections K blob) sect = [s] →
      disassemble K blob arch mode (some s.vaddr) sect =
        disassemble K blob arch mode none sect := by
  refine ⟨fun b₁ b₂ => ⟨?_, ?_⟩, ?_, ?_⟩
  · exact disassemble_relocated_of_single hsel hcs h hfree
  · intro hmany
    exact disassemble_congr_base hsel hcs (selectRegions_of_many hmany)
  · intro hwhole
    apply disassemble_congr_base hsel hcs
    rw [selectRegions_whole hwhole, selectRegions_whole hwhole]
    rfl
  · intro s hall hs
    have hsecs : sections K blob ≠ [] := by
      intro hnil
      rw [hnil, pickedSections, List.filter_nil, List.filter_nil, ite_self] at hs
      cases hs
    apply disassemble_congr_base hsel hcs
    rw [selectRegions_picked hall hsecs, selectRegions_picked hall hsecs, hs]
    rfl

/-! ### The one-byte decoder -/

namespace Fixtures

theorem x64Decode_moved (bs : List UInt8) (a b : UInt64) :
    x64Decode bs b = (x64Decode bs a).map fun i => { i with address := b } := by
  cases bs with
  | nil => rfl
  | cons byte rest =>
    simp only [x64Decode]
    split
    · rfl
    · split
      · rfl
      · rfl

theorem x64Handle_addressFree : x64Handle.AddressFree := by
  intro rem a b
  show (x64Decoder.bulk rem a).map _ = (x64Decoder.bulk rem b).map _
  fun_induction Decoder.bulk x64Decoder rem a generalizing b with
  | case1 bs a hnone =>
    have hnone' : x64Decoder.decode bs b = none := by
      show x64Decode bs b = none
      rw [x64Decode_moved bs a b, show x64Decode bs a = none from hnone]
      rfl
    rw [x64Decoder.bulk_none hnone']
  | case2 bs a i hsome ih =>
    have hsome' : x64Decoder.decode bs b = some { i with address := b } := by
      show x64Decode bs b = _
      rw [x64Decode_moved bs a b, show x64Decode bs a = some i from hsome]
      rfl
    rw [x64Decoder.bulk_some hsome', List.map_cons, List.map_cons, ih]
    rfl

end Fixtures

theorem disassemble_relocates_shellcode :
    let K := Fixtures.crates [] [(Fixtures.x64Builder, Fixtures.x64Handle)]
    let blob : List UInt8 := [0x90, 0x06, 0xc3]
    (∀ b₁ b₂ : UInt64,
      ((selectRegions blob (sections K blob) "auto" (some b₁)).length = 1 →
        List.Forall₂ (Insn.Relocated (b₂ - b₁))
          (disassemble K blob (some "x86") none (some b₁) "auto")
          (disassemble K blob (some "x86") none (some b₂) "auto")) ∧
      ((selectRegions blob (sections K blob) "auto" (some b₁)).length ≠ 1 →
        disassemble K blob (some "x86") none (some b₁) "auto" =
          disassemble K blob (some "x86") none (some b₂) "auto")) ∧
    ("auto" = "all" ∨ sections K blob = [] →
      disassemble K blob (some "x86") none (some 0) "auto" =
        disassemble K blob (some "x86") none none "auto") ∧
    ∀ s, "auto" ≠ "all" → pickedSections (sections K blob) "auto" = [s] →
      disassemble K blob (some "x86") none (some s.vaddr) "auto" =
        disassemble K blob (some "x86") none none "auto" :=
  disassemble_relocates (Fixtures.crates [] [(Fixtures.x64Builder, Fixtures.x64Handle)])
    [0x90, 0x06, 0xc3] (some "x86") none "auto" ⟨"x86", "x64", false⟩ (by decide)
    Fixtures.x64Handle (by rfl) Fixtures.x64Handle_tiles Fixtures.x64Handle_addressFree

end VgiDisasm
