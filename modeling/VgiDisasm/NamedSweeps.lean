import VgiDisasm.Relocation

/-!
# `auto` and the named sections

`auto` sweeps the executable sections under one row cap, a name sweeps the sections it matches
under a cap of its own.  Where each executable section can be asked for by its name,
`disassemble_auto_named` makes `auto` the concatenation of these requests, cut once more.
-/

namespace VgiDisasm

open VgiDisasm.Engine VgiDisasm.Sweep

/-- The name of every executable section is no keyword and matches that section only. -/
def UniquelyNamed (secs : List Section) : Prop :=
  ∀ i (hi : i < secs.length), secs[i].exec = true →
    secs[i].name ≠ "auto" ∧ secs[i].name ≠ "all" ∧
      ∀ j (hj : j < secs.length), j ≠ i → sectionNameMatches secs[j].name secs[i].name = false

/-! ### One section -/

theorem sectionNameMatches_self (name : String) : sectionNameMatches name name = true := by
  rw [sectionNameMatches, BEq.rfl, Bool.true_or]

/-- A filter that keeps one position. -/
theorem filter_eq_singleton {α : Type*} {p : α → Bool} {xs : List α} {i : ℕ}
    (hi : i < xs.length) (hkept : p xs[i] = true)
    (hrest : ∀ j (hj : j < xs.length), j ≠ i → p xs[j] = false) : xs.filter p = [xs[i]] := by
  have hfront : (xs.take i).filter p = [] := by
    rw [List.filter_eq_nil_iff]
    intro x hx
    obtain ⟨j, hj, rfl⟩ := List.mem_take_iff_getElem.mp hx
    rw [hrest j (by omega) (by omega)]
    decide
  have hback : (xs.drop (i + 1)).filter p = [] := by
    rw [List.filter_eq_nil_iff]
    intro x hx
    obtain ⟨j, hj, rfl⟩ := List.mem_drop_iff_getElem.mp hx
    rw [hrest (i + 1 + j) (by omega) (by omega)]
    decide
  calc xs.filter p = (xs.take i ++ xs[i] :: xs.drop (i + 1)).filter p := by
        rw [← List.drop_eq_getElem_cons hi, List.take_append_drop]
    _ = [xs[i]] := by
        rw [List.filter_append, hfront, List.filter_cons_of_pos hkept, hback, List.nil_append]

/-- The name of an executable section selects it alone, at its own address. -/
theorem selectRegions_named {blob : List UInt8} {secs : List Section} (h : UniquelyNamed secs)
    {s : Section} (hs : s ∈ secs) (hexec : s.exec = true) :
    selectRegions blob secs s.name none = [(s.vaddr, s.bytes blob)] := by
  obtain ⟨i, hi, rfl⟩ := List.mem_iff_getElem.mp hs
  obtain ⟨hauto, hall, hother⟩ := h i hi hexec
  have hpicked : pickedSections secs secs[i].name = [secs[i]] := by
    rw [pickedSections, if_neg hauto]
    exact filter_eq_singleton hi (sectionNameMatches_self _) hother
  rw [selectRegions_picked hall (List.ne_nil_of_mem hs), hpicked, placeRegions_none,
    List.map_singleton]

/-! ### All sections -/

/-- **`auto` is the concatenation of the named sweeps.**  In a blob with sections whose executable
ones can be told apart by name, the rows of `auto` are the first `MAX_INSNS` of the rows of these
sections, each asked for by its name, in the order of the table. -/
theorem disassemble_auto_named (K : Crates) (blob : List UInt8) (arch mode : Option String)
    (hsecs : sections K blob ≠ []) (sel : ArchSel) (hsel : resolve K blob arch mode = some sel)
    (cs : Capstone) (hcs : build K sel = some cs) (hpos : cs.LengthsPositive)
    (hnames : UniquelyNamed (sections K blob)) :
    disassemble K blob arch mode none "auto" =
      (((sections K blob).filter (·.exec)).flatMap fun s =>
        disassemble K blob arch mode none s.name).take MAX_INSNS := by
  have hnamed : ∀ s ∈ (sections K blob).filter (·.exec),
      disassemble K blob arch mode none s.name =
        (sweepRows cs (s.bytes blob) s.vaddr).take MAX_INSNS := by
    intro s hs
    obtain ⟨hmem, hexec⟩ := List.mem_filter.mp hs
    exact disassemble_single hpos hsel hcs (selectRegions_named hnames hmem hexec)
  rw [List.flatMap_congr hnamed, Capped.take_flatMap_take (Nat.le_refl _),
    disassemble_rows hpos hsel hcs, selectRegions_auto hsecs, List.flatMap_map]

theorem Fixtures.elfTwoCode_named :
    UniquelyNamed (sections Fixtures.elfTwoCodeCrates Fixtures.elfTwoCodeBlob) := by
  unfold UniquelyNamed
  decide +kernel

theorem disassemble_auto_named_elf :
    let K := Fixtures.elfTwoCodeCrates
    let blob := Fixtures.elfTwoCodeBlob
    disassemble K blob none none none "auto" =
      (((sections K blob).filter (·.exec)).flatMap fun s =>
        disassemble K blob none none none s.name).take MAX_INSNS :=
  disassemble_auto_named Fixtures.elfTwoCodeCrates Fixtures.elfTwoCodeBlob none none
    (List.length_pos_iff.mp (by decide +kernel)) ⟨"x86", "x64", false⟩ (by decide +kernel)
    Fixtures.x64Handle (by rfl)
    Fixtures.x64Handle_tiles.len_pos Fixtures.elfTwoCode_named

end VgiDisasm
