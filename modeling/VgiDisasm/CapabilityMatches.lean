import Mathlib.Data.List.Pairwise
import VgiDisasm.Capabilities

/-!
# Capabilities are the matches, de-duplicated

`allMatches` is the sequence of all matches in scan order.  The three loops and the four final
pushes run one accumulator over it, so the result is its first occurrences under the cap.  The
tables make the rule determine the technique, its name and the severity, so two matches with one
`(rule, evidence)` are the same match.
-/

namespace VgiDisasm

open VgiDisasm.Text VgiDisasm.Capabilities

/-! ### Matches -/

/-- The entries whose pattern the name of an import equals. -/
def importMatches (imp : Import) : List Capability :=
  imp.name.elim [] fun name =>
    (API_MAP.filter fun entry => eqIgnoreAsciiCase entry.pattern name).map fun entry =>
      Capability.fromEntry entry name

/-- The entries whose pattern a string contains. -/
def stringMatches (hit : StringHit) : List Capability :=
  (STRING_MAP.filter fun entry => contains (toAsciiLowercase hit.value) entry.pattern).map
    fun entry => Capability.fromEntry entry (truncateEvidence hit.value)

/-- The anti-analysis rows, each if some row of the disassembly has its instruction. -/
def insnMatches (insns : List Insn) : List Capability :=
  (if insns.any fun insn => insn.mnemonic == "rdtsc" || insn.mnemonic == "rdtscp" then [rdtscRow]
    else []) ++
  (if insns.any fun insn => insn.mnemonic == "cpuid" then [cpuidRow] else []) ++
  (if insns.any fun insn => insn.mnemonic == "int3" then [int3Row] else []) ++
  (if insns.any fun insn => insn.mnemonic == "int" && trim insn.opStr == "0x2d" then [int2dRow]
    else [])

/-- Every match, in scan order. -/
def allMatches (K : Crates) (blob : List UInt8) : List Capability :=
  (imports K blob).flatMap importMatches ++ (strings blob 4).flatMap stringMatches ++
    insnMatches (disassemble K blob none none none "auto")

/-! ### One accumulator -/

theorem foldl_push_filter (p : MapEntry → Bool) (f : MapEntry → Capability)
    (entries : List MapEntry) (s : State) :
    entries.foldl (fun s entry => if p entry then push s (f entry) else s) s =
      ((entries.filter p).map f).foldl push s := by
  rw [List.foldl_map, List.foldl_filter]

theorem pushImport_eq (s : State) (imp : Import) :
    pushImport s imp = (importMatches imp).foldl push s := by
  unfold pushImport importMatches
  cases imp.name with
  | none => rfl
  | some name =>
    exact foldl_push_filter (fun entry => eqIgnoreAsciiCase entry.pattern name)
      (fun entry => Capability.fromEntry entry name) API_MAP s

theorem pushString_eq (s : State) (hit : StringHit) :
    pushString s hit = (stringMatches hit).foldl push s := by
  unfold pushString stringMatches
  exact foldl_push_filter (fun entry => contains (toAsciiLowercase hit.value) entry.pattern)
    (fun entry => Capability.fromEntry entry (truncateEvidence hit.value)) STRING_MAP s

/-- What one instruction adds to the four flags. -/
theorem see_eq (saw : Saw) (insn : Insn) :
    see saw insn =
      { rdtsc := saw.rdtsc || (insn.mnemonic == "rdtsc" || insn.mnemonic == "rdtscp")
        cpuid := saw.cpuid || insn.mnemonic == "cpuid"
        int3 := saw.int3 || insn.mnemonic == "int3"
        int2d := saw.int2d || (insn.mnemonic == "int" && trim insn.opStr == "0x2d") } := by
  cases saw
  unfold see
  split
  · rename_i hmn
    simp [hmn]
  · rename_i hmn
    simp [hmn]
  · rename_i hmn
    simp [hmn]
  · rename_i hmn
    simp [hmn]
  · rename_i hmn
    by_cases hop : trim insn.opStr = "0x2d"
    · simp [hmn, hop]
    · simp [hmn, hop, beq_false_of_ne hop]
  · rename_i h1 h2 h3 h4 h5
    simp only [beq_false_of_ne h1, beq_false_of_ne h2, beq_false_of_ne h3, beq_false_of_ne h4,
      beq_false_of_ne h5, Bool.or_false, Bool.false_and]

theorem foldl_see (insns : List Insn) (saw : Saw) :
    insns.foldl see saw =
      { rdtsc := saw.rdtsc ||
          insns.any fun insn => insn.mnemonic == "rdtsc" || insn.mnemonic == "rdtscp"
        cpuid := saw.cpuid || insns.any fun insn => insn.mnemonic == "cpuid"
        int3 := saw.int3 || insns.any fun insn => insn.mnemonic == "int3"
        int2d := saw.int2d ||
          insns.any fun insn => insn.mnemonic == "int" && trim insn.opStr == "0x2d" } := by
  induction insns generalizing saw with
  | nil => simp
  | cons insn insns ih => simp only [List.foldl_cons, ih, see_eq, List.any_cons, Bool.or_assoc]

theorem foldl_push_ite (b : Bool) (row : Capability) (s : State) :
    (if b then push s row else s) = (if b then [row] else []).foldl push s := by
  cases b with
  | false => rfl
  | true => rfl

/-- The whole function is one run of the accumulator over the matches. -/
theorem capabilities_eq (K : Crates) (blob : List UInt8) :
    capabilities K blob = (Dedup.fresh key (allMatches K blob)).take MAX_CAPABILITIES := by
  have himports : pushImport = fun s imp => (importMatches imp).foldl push s := by
    funext s imp
    exact pushImport_eq s imp
  have hstrings : pushString = fun s hit => (stringMatches hit).foldl push s := by
    funext s hit
    exact pushString_eq s hit
  rw [← Dedup.foldl_pushNew]
  unfold capabilities allMatches insnMatches
  simp only [foldl_see, Bool.false_or, foldl_push_ite, List.foldl_append, List.foldl_flatMap,
    himports, hstrings]
  rfl

/-! ### The rule determines the technique -/

/-- A match without its evidence. -/
def Capability.kind (cap : Capability) : Capability := { cap with evidence := "" }

/-- Everything a match can be, but for the evidence. -/
def catalogue : List Capability :=
  API_MAP.map (Capability.fromEntry · "") ++ STRING_MAP.map (Capability.fromEntry · "") ++
    [rdtscRow.kind, cpuidRow.kind, int3Row.kind, int2dRow.kind]

theorem pairwise_catalogue : catalogue.Pairwise fun a b => a.rule = b.rule → a = b := by
  decide +kernel

theorem catalogue_rule : ∀ a ∈ catalogue, ∀ b ∈ catalogue, a.rule = b.rule → a = b := by
  have hsymm : Std.Symm fun a b : Capability => a.rule = b.rule → a = b :=
    ⟨fun x y hxy hrule => (hxy hrule.symm).symm⟩
  intro a ha b hb
  exact pairwise_catalogue.forall_of_forall (fun _ _ _ => rfl) ha hb

theorem mem_importMatches {imp : Import} {cap : Capability} :
    cap ∈ importMatches imp ↔ ∃ name, imp.name = some name ∧ ∃ entry ∈ API_MAP,
      eqIgnoreAsciiCase entry.pattern name = true ∧ Capability.fromEntry entry name = cap := by
  unfold importMatches
  cases imp.name with
  | none => simp
  | some name => simp [and_assoc]

theorem mem_stringMatches {hit : StringHit} {cap : Capability} :
    cap ∈ stringMatches hit ↔ ∃ entry ∈ STRING_MAP,
      contains (toAsciiLowercase hit.value) entry.pattern = true ∧
        Capability.fromEntry entry (truncateEvidence hit.value) = cap := by
  simp only [stringMatches, List.mem_map, List.mem_filter, and_assoc]

theorem mem_insnMatches {insns : List Insn} {cap : Capability} (h : cap ∈ insnMatches insns) :
    cap ∈ [rdtscRow, cpuidRow, int3Row, int2dRow] := by
  have hrow : ∀ (b : Bool) (row : Capability), cap ∈ (if b then [row] else []) → cap = row := by
    intro b row hmem
    cases b with
    | false => cases hmem
    | true => exact List.mem_singleton.mp hmem
  simp only [insnMatches, List.mem_append] at h
  rcases h with ((h | h) | h) | h
  all_goals
    rw [hrow _ _ h]
    simp

/-- A match comes from an import, from a string, or from the instructions. -/
theorem mem_allMatches {K : Crates} {blob : List UInt8} {cap : Capability} :
    cap ∈ allMatches K blob ↔
      (∃ imp ∈ imports K blob, cap ∈ importMatches imp) ∨
        (∃ hit ∈ strings blob 4, cap ∈ stringMatches hit) ∨
          cap ∈ insnMatches (disassemble K blob none none none "auto") := by
  rw [allMatches, List.mem_append, List.mem_append, List.mem_flatMap, List.mem_flatMap, or_assoc]

theorem kind_mem_catalogue {K : Crates} {blob : List UInt8} {m : Capability}
    (hm : m ∈ allMatches K blob) : m.kind ∈ catalogue := by
  unfold catalogue
  rw [List.mem_append, List.mem_append]
  rcases mem_allMatches.mp hm with ⟨imp, -, hm⟩ | ⟨hit, -, hm⟩ | hm
  · obtain ⟨name, -, entry, hentry, -, rfl⟩ := mem_importMatches.mp hm
    exact Or.inl (Or.inl (List.mem_map.mpr ⟨entry, hentry, rfl⟩))
  · obtain ⟨entry, hentry, -, rfl⟩ := mem_stringMatches.mp hm
    exact Or.inl (Or.inr (List.mem_map.mpr ⟨entry, hentry, rfl⟩))
  · exact Or.inr (List.mem_map_of_mem (f := Capability.kind) (mem_insnMatches hm))

/-- One `(rule, evidence)`, one match. -/
theorem allMatches_key {K : Crates} {blob : List UInt8} : ∀ a ∈ allMatches K blob,
    ∀ b ∈ allMatches K blob, key a = key b → a = b := by
  intro a ha b hb hkey
  have hkind := catalogue_rule _ (kind_mem_catalogue ha) _ (kind_mem_catalogue hb)
    (congrArg Prod.fst hkey)
  have hevidence : a.evidence = b.evidence := congrArg Prod.snd hkey
  cases a
  cases b
  simp only [Capability.kind, Capability.mk.injEq] at hkind hevidence ⊢
  exact ⟨hkind.1, hkind.2.1, hkind.2.2.1, hkind.2.2.2.1, hevidence⟩

/-- No row is made up. -/
theorem mem_allMatches_of_mem {K : Crates} {blob : List UInt8} {row : Capability}
    (h : row ∈ capabilities K blob) : row ∈ allMatches K blob := by
  rw [capabilities_eq] at h
  exact Dedup.fresh_subset _ (List.mem_of_mem_take h)

/-- Below the row cap the rows are the matches. -/
theorem mem_capabilities_iff {K : Crates} {blob : List UInt8}
    (hcap : (capabilities K blob).length < MAX_CAPABILITIES) {row : Capability} :
    row ∈ capabilities K blob ↔ row ∈ allMatches K blob := by
  refine ⟨mem_allMatches_of_mem, fun hrow => ?_⟩
  rw [capabilities_eq, List.length_take] at hcap
  rw [capabilities_eq, List.take_of_length_le (by omega)]
  exact Dedup.mem_fresh allMatches_key hrow

/-- **Capabilities are exactly the three signals, de-duplicated.**  For every blob the result is
the first occurrences among all matches in scan order, cut at the row cap; and unless the cap is
reached every match is in it, with all its fields. -/
theorem capabilities_exact (K : Crates) (blob : List UInt8) :
    capabilities K blob = (Dedup.fresh key (allMatches K blob)).take MAX_CAPABILITIES ∧
      ((capabilities K blob).length < MAX_CAPABILITIES →
        ∀ m ∈ allMatches K blob, m ∈ capabilities K blob) := by
  refine ⟨capabilities_eq K blob, ?_⟩
  intro hcap m hm
  exact (mem_capabilities_iff hcap).mpr hm

end VgiDisasm
