import Mathlib.Data.List.Nodup
import VgiDisasm.Library.Dedup
import VgiDisasm.Text

/-!
# Instruction-group normalization

Raw decoder group names collapse to a small vocabulary; the decoder-state markers
(`mode64` and the like) are dropped.  `normalizeAll_eq` reads the loop as the first occurrences
of each word among the raw names, and `normalizeAll_projection` says what that leaves of them.
-/

namespace VgiDisasm.Groups

open VgiDisasm.Text

/-- The normalized word of a raw group name, `none` for one that is dropped. -/
def normalize (raw : String) : Option String :=
  match raw with
  | "call" => some "call"
  | "jump" => some "jump"
  | "ret" => some "ret"
  -- software interrupt and interrupt return share one word
  | "int" | "iret" => some "int"
  | "privilege" => some "privileged"
  | "branch_relative" => some "branch_relative"
  | "fpu" => some "fpu"
  | "vm" => some "vm"
  | other =>
    let lower := toAsciiLowercase other
    if startsWith lower "sse" || startsWith lower "avx" || startsWith lower "mmx" ||
        lower == "neon" || startsWith lower "vec" then
      some "sse"
    else none

/-- The loop of `normalize_all` over the accumulator `out`. -/
def normalizeFrom : List String → List String → List String
  | [], out => out
  | g :: gs, out =>
    match normalize g with
    | none => normalizeFrom gs out
    | some n => normalizeFrom gs (if out.contains n then out else out ++ [n])

def normalizeAll (raw : List String) : List String := normalizeFrom raw []

example : normalizeAll ["call", "mode64", "branch_relative", "call"] =
    ["call", "branch_relative"] := by decide

/-! ### The vocabulary -/

/-- Every word `normalize` gives. -/
def vocabulary : List String :=
  ["call", "jump", "ret", "int", "privileged", "branch_relative", "fpu", "sse", "vm"]

theorem normalize_mem {raw n : String} (h : normalize raw = some n) : n ∈ vocabulary := by
  revert h
  fun_cases normalize raw
  all_goals
    intro h
    cases h
    try decide

/-! ### First occurrences -/

/-- The position of the first raw name that normalizes to `word`. -/
def firstSeen (raw : List String) (word : String) : ℕ :=
  raw.findIdx fun g => decide (normalize g = some word)

/-- The words of the raw names that normalize to something new. -/
theorem normalizeFrom_fresh (gs pre : List String) :
    normalizeFrom gs ((Dedup.fresh normalize pre).filterMap normalize) =
      (Dedup.fresh normalize (pre ++ gs)).filterMap normalize := by
  induction gs generalizing pre with
  | nil => rw [normalizeFrom, List.append_nil]
  | cons g gs ih =>
    have hsplit : pre ++ g :: gs = pre ++ [g] ++ gs := List.append_cons pre g gs
    have hword : [g].filterMap normalize = (normalize g).toList := by
      cases hg : normalize g <;> simp [hg]
    rw [hsplit, ← ih (pre ++ [g]), normalizeFrom]
    by_cases hold : normalize g ∈ pre.map normalize
    · -- the word of `g`, if it has one, was seen before
      rw [Dedup.fresh_concat_old hold]
      cases hg : normalize g with
      | none => rfl
      | some n =>
        rw [hg, ← Dedup.mem_map_fresh, List.mem_map] at hold
        have hseen := List.contains_iff_mem.mpr (List.mem_filterMap.mpr hold)
        simp only [hseen, if_true]
    · rw [Dedup.fresh_concat_new hold, List.filterMap_append, hword]
      cases hg : normalize g with
      | none => rw [Option.toList_none, List.append_nil]
      | some n =>
        rw [hg, ← Dedup.mem_map_fresh, List.mem_map] at hold
        have hnew : ¬ ((Dedup.fresh normalize pre).filterMap normalize).contains n = true :=
          fun hseen => hold (List.mem_filterMap.mp (List.contains_iff_mem.mp hseen))
        simp only [if_neg hnew, Option.toList_some]

theorem normalizeAll_eq (raw : List String) :
    normalizeAll raw = (Dedup.fresh normalize raw).filterMap normalize :=
  normalizeFrom_fresh raw []

/-- A word occurs exactly if some raw name normalizes to it. -/
theorem mem_normalizeAll {raw : List String} {word : String} :
    word ∈ normalizeAll raw ↔ ∃ g ∈ raw, normalize g = some word := by
  rw [normalizeAll_eq, List.mem_filterMap]
  have hmem : some word ∈ (Dedup.fresh normalize raw).map normalize ↔
      some word ∈ raw.map normalize := Dedup.mem_map_fresh raw (some word)
  rwa [List.mem_map, List.mem_map] at hmem

/-- The words stand in the order of their first raw names. -/
theorem pairwise_normalizeAll (raw : List String) :
    (normalizeAll raw).Pairwise fun word word' => firstSeen raw word < firstSeen raw word' := by
  rw [normalizeAll_eq, List.pairwise_filterMap]
  refine (Dedup.pairwise_fresh raw).imp fun {a b} hlt word hword word' hword' => ?_
  rw [hword, hword'] at hlt
  exact hlt

/-- No word twice, and only words of the vocabulary. -/
theorem normalizeAll_nodup (raw : List String) :
    (normalizeAll raw).Nodup ∧ normalizeAll raw ⊆ vocabulary := by
  constructor
  · refine (pairwise_normalizeAll raw).imp fun {a b} hlt heq => ?_
    rw [heq] at hlt
    exact Nat.lt_irrefl _ hlt
  · intro word hword
    obtain ⟨g, -, hg⟩ := mem_normalizeAll.mp hword
    exact normalize_mem hg

/-- Behind `a` only the words are added that `a` does not give. -/
theorem normalizeAll_append (a b : List String) :
    normalizeAll (a ++ b) =
      normalizeAll a ++ (normalizeAll b).filter fun word => word ∉ normalizeAll a := by
  rw [normalizeAll_eq (a ++ b), Dedup.fresh_append, List.filterMap_append, ← normalizeAll_eq,
    normalizeAll_eq b, List.filterMap_filter, List.filter_filterMap]
  congr 2
  funext g
  cases hg : normalize g with
  | none => simp
  | some word =>
    have hword : some word ∈ a.map normalize ↔ word ∈ normalizeAll a := by
      rw [mem_normalizeAll, List.mem_map]
    rw [Option.filter_some]
    simp only [hword]

/-- A raw name that gives no new word can be dropped. -/
theorem normalizeAll_drop {a : List String} {g : String}
    (h : ∀ word, normalize g = some word → word ∈ normalizeAll a) (b : List String) :
    normalizeAll (a ++ g :: b) = normalizeAll (a ++ b) := by
  have hone : normalizeAll (a ++ [g]) = normalizeAll a := by
    rw [normalizeAll_append, List.append_right_eq_self, List.filter_eq_nil_iff]
    intro word hword
    obtain ⟨g', hg', hnorm⟩ := mem_normalizeAll.mp hword
    cases List.mem_singleton.mp hg'
    simpa using h word hnorm
  rw [List.append_cons, normalizeAll_append (a ++ [g]), hone, ← normalizeAll_append]

/-- **An order-preserving set projection onto the vocabulary.**  For every list of raw names: no
word twice, only words of the vocabulary, a word exactly if some raw name gives it, in the order
of the first raw names; a name that gives nothing new changes nothing, and a concatenation gives
the words of its first part, then the others of its second. -/
theorem normalizeAll_projection (raw : List String) :
    (normalizeAll raw).Nodup ∧ normalizeAll raw ⊆ vocabulary ∧
      (∀ word, word ∈ normalizeAll raw ↔ ∃ g ∈ raw, normalize g = some word) ∧
      (normalizeAll raw).Pairwise (fun word word' => firstSeen raw word < firstSeen raw word') ∧
      (∀ a g b, raw = a ++ g :: b →
        (normalize g = none ∨ ∃ word ∈ normalizeAll a, normalize g = some word) →
          normalizeAll raw = normalizeAll (a ++ b)) ∧
      ∀ a b, raw = a ++ b → normalizeAll raw =
        normalizeAll a ++ (normalizeAll b).filter fun word => word ∉ normalizeAll a := by
  obtain ⟨hnodup, hsub⟩ := normalizeAll_nodup raw
  refine ⟨hnodup, hsub, fun word => mem_normalizeAll, pairwise_normalizeAll raw, ?_, ?_⟩
  · rintro a g b rfl hold
    refine normalizeAll_drop (fun word hword => ?_) b
    rcases hold with hnone | ⟨word', hmem, hsome⟩
    · rw [hnone] at hword
      cases hword
    · rw [hsome, Option.some.injEq] at hword
      exact hword ▸ hmem
  · rintro a b rfl
    exact normalizeAll_append a b

end VgiDisasm.Groups
