import VgiDisasm.SectionRows
import VgiDisasm.StringsExact
import VgiDisasm.Worker
import VgiDisasm.Fixtures

/-!
# The native and the browser build

A 64-bit value reaches `usize` in three ways: by `try_from`, which fails or saturates, and by
two bare casts, which keep the low bits.  The first shows in no result, because what it loses is
behind the end of every blob; `buildsAgree_iff` says when the casts do not show either.
-/

namespace VgiDisasm

open VgiDisasm.Sections VgiDisasm.Worker

/-! ### Section ranges -/

/-- No target width shows in a range of a blob that fits it. -/
theorem clampRange_of_le {usizeMax blobLen : ℕ} (h : blobLen ≤ usizeMax) (off len : UInt64) :
    clampRange usizeMax off len blobLen =
      if min (min len.toNat MAX_SECTION_BYTES) (blobLen - off.toNat) = 0 then none
      else some (off.toNat, min (min len.toNat MAX_SECTION_BYTES) (blobLen - off.toNat)) := by
  have hlen : min (min (min len.toNat usizeMax) (blobLen - off.toNat)) MAX_SECTION_BYTES =
      min (min len.toNat MAX_SECTION_BYTES) (blobLen - off.toNat) := by omega
  unfold clampRange
  simp only [hlen]
  by_cases hend : off.toNat ≥ blobLen
  · have hzero : min (min len.toNat MAX_SECTION_BYTES) (blobLen - off.toNat) = 0 := by omega
    rw [if_pos hend, if_pos hzero, ite_self]
  · rw [if_neg (by omega), if_neg hend]

theorem clampRange_wasm32 {blobLen : ℕ} (h : blobLen < 2 ^ 32) (off len : UInt64) :
    clampRange Build.wasm32.usizeMax off len blobLen =
      clampRange Build.release.usizeMax off len blobLen := by
  have hwasm : blobLen ≤ Build.wasm32.usizeMax := Nat.le_pred_of_lt h
  have hnative : blobLen ≤ Build.release.usizeMax := hwasm.trans (by decide)
  rw [clampRange_of_le hwasm, clampRange_of_le hnative]

theorem rowWith_wasm32 {blob : List UInt8} (hblob : blob.length < 2 ^ 32) (h : Header) :
    h.rowWith Build.wasm32 blob = h.rowWith Build.release blob := by
  cases h with
  | elf e sh => simp only [Header.rowWith, elfSection, clampRange_wasm32 hblob]
  | pe p s =>
    simp only [Header.rowWith, peSection, clampRange_wasm32 hblob]
    rfl
  | mach segname sect => simp only [Header.rowWith, machSection, clampRange_wasm32 hblob]

theorem sections_wasm32 (K : Crates) {blob : List UInt8} (hblob : blob.length < 2 ^ 32) :
    Id.run (sectionsWith Build.wasm32 K blob) = sections K blob := by
  have hrow : Header.rowWith Build.wasm32 blob = Header.rowWith Build.release blob := by
    funext h
    exact rowWith_wasm32 hblob h
  unfold sections
  rw [sectionsWith_eq, sectionsWith_eq, hrow]

/-! ### Casts -/

theorem asUsize_release {n : ℕ} (h : n < 2 ^ 64) : Build.release.asUsize n = n :=
  Nat.mod_eq_of_lt h

theorem asUsize_wasm32 (n : ℕ) : Build.wasm32.asUsize n = n % 2 ^ 32 := rfl

theorem minLenArg_some {m : Type → Type} (B : Build m) {v : Int64} (h : 0 ≤ v) :
    minLenArg B (some v) = B.asUsize v.toInt.toNat := by
  simp only [minLenArg, Option.filter_some, decide_eq_true h, if_true, Option.map_some,
    Option.getD_some]

theorem stringsRows_blob {m : Type → Type} (B : Build m) (fs : FileSystem) (blob : List UInt8)
    {v : Int64} (h : 0 ≤ v) :
    stringsRows B fs (some blob) none (some v) = strings blob (B.asUsize v.toInt.toNat) := by
  rw [← minLenArg_some B h]
  rfl

theorem toNat_toInt_lt (v : Int64) : v.toInt.toNat < 2 ^ 63 := by
  have := v.toInt_lt
  omega

/-! ### Agreement -/

/-- The two builds give the same strings, the same section rows with the same ranges, and both
accept a file exactly when it is short enough. -/
structure BuildsAgree (K : Crates) (blob : List UInt8) (minLen : Int64) (fileLen : UInt64) :
    Prop where
  strings : ∀ fs, stringsRows Build.release fs (some blob) none (some minLen) =
    stringsRows Build.wasm32 fs (some blob) none (some minLen)
  ranges : ∀ off size, clampRange Build.release.usizeMax off size blob.length =
    clampRange Build.wasm32.usizeMax off size blob.length
  sections : sections K blob = Id.run (sectionsWith Build.wasm32 K blob)
  path : ∀ B ∈ [Build.release, Build.wasm32],
    refuses B ⟨true, fileLen⟩ = false ↔ fileLen.toNat ≤ MAX_SCAN_BYTES

/-- The casts lose nothing, or what they lose does not show: no run is as long as what is left
of the threshold, what is left of the file length is still too long. -/
structure CastsHidden (blob : List UInt8) (minLen : Int64) (fileLen : UInt64) : Prop where
  minLen : minLen.toInt.toNat < 2 ^ 32 ∨
    ∀ text, IsRun (blob.take MAX_SCAN_BYTES) text →
      text.length < max (minLen.toInt.toNat % 2 ^ 32) 1
  fileLen : fileLen.toNat < 2 ^ 32 ∨ MAX_SCAN_BYTES < fileLen.toNat % 2 ^ 32

theorem strings_agree_iff {blob : List UInt8} (hblob : blob.length < 2 ^ 31) (n : ℕ) :
    strings blob n = strings blob (n % 2 ^ 32) ↔
      n < 2 ^ 32 ∨ ∀ text, IsRun (blob.take MAX_SCAN_BYTES) text →
        text.length < max (n % 2 ^ 32) 1 := by
  rcases Nat.lt_or_ge n (2 ^ 32) with hlt | hge
  · rw [Nat.mod_eq_of_lt hlt]
    exact iff_of_true rfl (Or.inl hlt)
  · -- no run of the blob is as long as the threshold
    have hnil : strings blob n = [] := by
      rw [strings_eq_nil_iff]
      intro text hrun
      have hle := hrun.length_le
      rw [List.length_take] at hle
      omega
    rw [hnil, eq_comm, strings_eq_nil_iff, or_iff_right (Nat.not_lt.mpr hge)]

theorem refuses_file {m : Type → Type} (B : Build m) (fileLen : UInt64) :
    refuses B ⟨true, fileLen⟩ = false ↔ B.asUsize fileLen.toNat ≤ MAX_SCAN_BYTES := by
  simp [refuses]

theorem path_agree_iff (fileLen : UInt64) :
    (∀ B ∈ [Build.release, Build.wasm32],
        refuses B ⟨true, fileLen⟩ = false ↔ fileLen.toNat ≤ MAX_SCAN_BYTES) ↔
      fileLen.toNat < 2 ^ 32 ∨ MAX_SCAN_BYTES < fileLen.toNat % 2 ^ 32 := by
  have hmax : MAX_SCAN_BYTES < 2 ^ 32 := by decide
  simp only [List.forall_mem_cons, List.not_mem_nil, false_implies, implies_true, and_true,
    refuses_file, asUsize_release fileLen.toNat_lt, asUsize_wasm32, true_and]
  omega

/-- **When the two builds agree.**  For every blob shorter than `2^31` bytes, non-negative
`min_len` and file length. -/
theorem buildsAgree_iff (K : Crates) (blob : List UInt8) (hblob : blob.length < 2 ^ 31)
    (minLen : Int64) (hmin : 0 ≤ minLen) (fileLen : UInt64) :
    BuildsAgree K blob minLen fileLen ↔ CastsHidden blob minLen fileLen := by
  have hnat := toNat_toInt_lt minLen
  have hnative : Build.release.asUsize minLen.toInt.toNat = minLen.toInt.toNat :=
    asUsize_release (by omega)
  have hstrings := strings_agree_iff hblob minLen.toInt.toNat
  constructor
  · intro h
    refine ⟨hstrings.mp ?_, (path_agree_iff fileLen).mp h.path⟩
    have hfs := h.strings ⟨fun _ => none, fun _ => none⟩
    rwa [stringsRows_blob _ _ _ hmin, stringsRows_blob _ _ _ hmin, hnative, asUsize_wasm32]
      at hfs
  · intro h
    refine ⟨fun fs => ?_, fun off size => ?_, ?_, (path_agree_iff fileLen).mpr h.fileLen⟩
    · rw [stringsRows_blob _ _ _ hmin, stringsRows_blob _ _ _ hmin, hnative, asUsize_wasm32]
      exact hstrings.mpr h.minLen
    · exact (clampRange_wasm32 (by omega) off size).symm
    · exact (sections_wasm32 K (by omega)).symm

theorem buildsAgree_iff_short : BuildsAgree (Fixtures.crates [] []) [0x4d, 0x5a] 4 5 :=
  (buildsAgree_iff (Fixtures.crates [] []) [0x4d, 0x5a] (by decide) 4 (by decide) 5).mpr
    ⟨Or.inl (by decide), Or.inl (by decide)⟩

/-- A threshold of `2^32` is 0 in the browser build, and so is a file length. -/
theorem casts_not_hidden :
    ¬ BuildsAgree (Fixtures.crates [] []) [0x4d, 0x5a] 4294967296 5 ∧
      ¬ BuildsAgree (Fixtures.crates [] []) [0x4d, 0x5a] 4 4294967296 := by
  constructor
  · intro h
    have hrows := h.strings ⟨fun _ => none, fun _ => none⟩
    rw [stringsRows_blob _ _ _ (by decide), stringsRows_blob _ _ _ (by decide)] at hrows
    revert hrows
    decide +kernel
  · intro h
    have haccepts := (h.path Build.wasm32 (by simp)).mp (by decide)
    revert haccepts
    decide

end VgiDisasm
