import VgiDisasm.BatchBounds
import VgiDisasm.EntryMapped
import VgiDisasm.Vocabulary
import VgiDisasm.Worker

/-!
# The scalar functions

`format` and `entrypoint` map a column of inputs to a struct column, cell by cell: the loop
appends to one builder a field and to the validity of the struct.  A cell is null, or bytes, or
a path to read; a column of any other type is an error at its first cell that is not null.  As in
a record batch, a text child panics where its offset exceeds `i32::MAX`: the tokens of a probe
are too short for that, but a column can name one long section in every row.
-/

namespace VgiDisasm.Worker

open VgiDisasm.Columnar

/-! ### Input columns -/

/-- The input column, its cells under the arrow type. -/
inductive InputColumn
  | binary (cells : List (Option (List UInt8)))
  | largeBinary (cells : List (Option (List UInt8)))
  | utf8 (cells : List (Option String))
  | largeUtf8 (cells : List (Option String))
  /-- Any other type, with its `Debug` text; of its cells only the nulls are looked at. -/
  | other (dataType : String) (nulls : List Bool)

namespace InputColumn

def length : InputColumn → ℕ
  | .binary cells => cells.length
  | .largeBinary cells => cells.length
  | .utf8 cells => cells.length
  | .largeUtf8 cells => cells.length
  | .other _ nulls => nulls.length

/-- `is_null`. -/
def isNull : InputColumn → ℕ → Bool
  | .binary cells, row => cells[row]?.join.isNone
  | .largeBinary cells, row => cells[row]?.join.isNone
  | .utf8 cells, row => cells[row]?.join.isNone
  | .largeUtf8 cells, row => cells[row]?.join.isNone
  | .other _ nulls, row => nulls[row]?.getD true

end InputColumn

/-- The text of the `value_error` of `input_bytes`. -/
def inputError (dataType : String) : String :=
  "input must be a BLOB (file bytes) or VARCHAR (path), got " ++ dataType

/-- The bytes of a cell.  The null test comes before the test of the type. -/
def inputBytes (fs : FileSystem) (col : InputColumn) (row : ℕ) :
    Except String (Option (List UInt8)) :=
  if col.isNull row then .ok none
  else
    match col with
    | .binary cells => .ok cells[row]?.join
    | .largeBinary cells => .ok cells[row]?.join
    | .utf8 cells => .ok (cells[row]?.join.bind (readPath Build.release fs))
    | .largeUtf8 cells => .ok (cells[row]?.join.bind (readPath Build.release fs))
    | .other dataType _ => .error (inputError dataType)

/-! ### The loop -/

/-- The loop of `process`: the rows in order.  The first error ends it, and so does a builder's
panic (`none`). -/
def processRows {ρ β σ : Type} (T : Table (Option ρ) β σ) (fs : FileSystem)
    (eval : List UInt8 → ρ) (col : InputColumn) : ExceptT String Option σ :=
  (List.range col.length).foldlM
    (fun builders i => do
      let bytes ← inputBytes fs col i
      T.builders.append builders (T.cells (bytes.map eval)))
    T.builders.empty

/-- The fields of a struct row, `container` to `entry`, and its validity. -/
abbrev FormatCells : Type :=
  Option String × Option String × Option String × Option UInt8 × Option String × Option UInt64 ×
    Bool

/-- The builders of `Format::process`, and the validity. -/
abbrev FormatBuilders : Type :=
  Chunks UInt8 × Chunks UInt8 × Chunks UInt8 × List (Option UInt8) × Chunks UInt8 ×
    List (Option UInt64) × List Bool

/-- A null row has null fields. -/
def formatTable : Table (Option Probe) FormatCells FormatBuilders where
  cells
    | some p => (some p.container, p.arch, p.mode, p.bits, p.endian, p.entry, true)
    | none => (none, none, none, none, none, none, false)
  builders := optionBuilder.prod <| optionBuilder.prod <| optionBuilder.prod <|
    (Builder.plain (Option UInt8)).prod <| optionBuilder.prod <|
      (Builder.plain (Option UInt64)).prod <| Builder.plain Bool

def formatProcess (K : Crates) (fs : FileSystem) (col : InputColumn) :
    ExceptT String Option FormatBuilders :=
  processRows formatTable fs (probe K) col

/-- The fields `arch` to `section` of a struct row, and its validity. -/
abbrev EntrypointCells : Type :=
  Option String × Option String × Option UInt64 × Option UInt64 × Option String × Bool

/-- The builders of `Entrypoint::process`, and the validity. -/
abbrev EntrypointBuilders : Type :=
  Chunks UInt8 × Chunks UInt8 × List (Option UInt64) × List (Option UInt64) × Chunks UInt8 ×
    List Bool

def entrypointTable : Table (Option EntryPoint) EntrypointCells EntrypointBuilders where
  cells
    | some e => (e.arch, e.mode, e.vaddr, e.fileOff, e.sect, true)
    | none => (none, none, none, none, none, false)
  builders := optionBuilder.prod <| optionBuilder.prod <|
    (Builder.plain (Option UInt64)).prod <| (Builder.plain (Option UInt64)).prod <|
      optionBuilder.prod <| Builder.plain Bool

def entrypointProcess (K : Crates) (fs : FileSystem) (col : InputColumn) :
    ExceptT String Option EntrypointBuilders :=
  processRows entrypointTable fs (entrypoint K) col

/-! ### Struct rows -/

/-- A row of the struct column, null or with the fields of the children. -/
def formatRow : FormatCells → Option Probe
  | (container, arch, mode, bits, endian, entry, valid) =>
    if valid then
      some
        { container := container.getD ""
          arch := arch
          mode := mode
          bits := bits
          endian := endian
          entry := entry }
    else none

def entrypointRow : EntrypointCells → Option EntryPoint
  | (arch, mode, vaddr, fileOff, sect, valid) =>
    if valid then
      some
        { arch := arch
          mode := mode
          vaddr := vaddr
          fileOff := fileOff
          sect := sect }
    else none

theorem formatRow_cells (p : Option Probe) : formatRow (formatTable.cells p) = p := by
  cases p <;> rfl

theorem entrypointRow_cells (e : Option EntryPoint) :
    entrypointRow (entrypointTable.cells e) = e := by
  cases e <;> rfl

/-! ### What the cells stand for -/

/-- The bytes of every cell: nothing for a null, nor for a path that cannot be read. -/
def InputColumn.inputs (fs : FileSystem) : InputColumn → List (Option (List UInt8))
  | .binary cells => cells
  | .largeBinary cells => cells
  | .utf8 cells => cells.map fun cell => cell.bind (readPath Build.release fs)
  | .largeUtf8 cells => cells.map fun cell => cell.bind (readPath Build.release fs)
  | .other _ nulls => nulls.map fun _ => none

/-- The error of a column of another type, unless all of its cells are null. -/
def InputColumn.refused : InputColumn → Option String
  | .other dataType nulls => if nulls.all id then none else some (inputError dataType)
  | _ => none

theorem length_inputs (fs : FileSystem) (col : InputColumn) :
    (col.inputs fs).length = col.length := by
  cases col with
  | binary cells => rfl
  | largeBinary cells => rfl
  | utf8 cells => exact List.length_map _
  | largeUtf8 cells => exact List.length_map _
  | other dataType nulls => exact List.length_map _

theorem ite_isNone {α β : Type} (x : Option α) (f : Option α → Option β) (h : f none = none) :
    (if x.isNone then (.ok none : Except String (Option β)) else .ok (f x)) = .ok (f x) := by
  cases x with
  | none => rw [h]; rfl
  | some a => rfl

theorem join_map_bind {α β : Type} (cells : List (Option α)) (f : α → Option β) (i : ℕ) :
    (cells.map fun cell => cell.bind f)[i]?.join = cells[i]?.join.bind f := by
  rw [List.getElem?_map]
  cases cells[i]? <;> rfl

/-- Unless the column is refused, every cell gives its bytes. -/
theorem inputBytes_of_accepted (fs : FileSystem) {col : InputColumn} (h : col.refused = none)
    {i : ℕ} (hi : i < col.length) : inputBytes fs col i = .ok (col.inputs fs)[i]?.join := by
  cases col with
  | binary cells => exact ite_isNone cells[i]?.join id rfl
  | largeBinary cells => exact ite_isNone cells[i]?.join id rfl
  | utf8 cells =>
    show (if cells[i]?.join.isNone then Except.ok none else _ : Except String _) = .ok
      (cells.map fun cell => cell.bind (readPath Build.release fs))[i]?.join
    rw [join_map_bind]
    exact ite_isNone cells[i]?.join (·.bind (readPath Build.release fs)) rfl
  | largeUtf8 cells =>
    show (if cells[i]?.join.isNone then Except.ok none else _ : Except String _) = .ok
      (cells.map fun cell => cell.bind (readPath Build.release fs))[i]?.join
    rw [join_map_bind]
    exact ite_isNone cells[i]?.join (·.bind (readPath Build.release fs)) rfl
  | other dataType nulls =>
    have hi' : i < nulls.length := hi
    have hall : nulls.all id = true := by
      by_contra hsome
      simp [InputColumn.refused, hsome] at h
    have hnull : nulls[i] = true := List.all_eq_true.mp hall _ (List.getElem_mem hi')
    simp [inputBytes, InputColumn.isNull, InputColumn.inputs, hnull, hi']

/-- In a refused column a cell is null or gives the one error, and some cell gives it. -/
theorem inputBytes_of_refused (fs : FileSystem) {col : InputColumn} {msg : String}
    (h : col.refused = some msg) :
    (∀ i < col.length, inputBytes fs col i = .ok none ∨ inputBytes fs col i = .error msg) ∧
      ∃ i < col.length, inputBytes fs col i = .error msg := by
  cases col with
  | binary cells => cases h
  | largeBinary cells => cases h
  | utf8 cells => cases h
  | largeUtf8 cells => cases h
  | other dataType nulls =>
    have hcell : ∀ (i : ℕ) (hi : i < nulls.length), inputBytes fs (.other dataType nulls) i =
        if nulls[i] then .ok none else .error (inputError dataType) := by
      intro i hi
      simp [inputBytes, InputColumn.isNull, List.getElem?_eq_getElem hi]
    rw [InputColumn.refused] at h
    split at h
    · cases h
    · rename_i hall
      cases h
      constructor
      · intro i hi
        rw [hcell i hi]
        split
        · exact Or.inl rfl
        · exact Or.inr rfl
      · rw [List.all_eq_true] at hall
        push Not at hall
        obtain ⟨b, hb, hfalse⟩ := hall
        obtain ⟨i, hi, rfl⟩ := List.getElem_of_mem hb
        refine ⟨i, hi, ?_⟩
        rw [hcell i hi]
        exact if_neg hfalse

/-! ### The loop is a map -/

section Loop

variable {σ α : Type} (append : σ → α → Option σ) {cell : ℕ → Except String α}

/-- Without an error the loop appends what the cells give, in order. -/
theorem foldlM_ok {value : ℕ → α} (is : List ℕ) (h : ∀ i ∈ is, cell i = .ok (value i)) (s : σ) :
    (is.foldlM (fun s i => do
      let x ← cell i
      append s x) s : ExceptT String Option σ) =
        ExceptT.lift ((is.map value).foldlM append s) := by
  induction is generalizing s with
  | nil => rfl
  | cons i is ih =>
    obtain ⟨hi, his⟩ := List.forall_mem_cons.mp h
    rw [List.foldlM_cons, hi, List.map_cons, List.foldlM_cons]
    show ((append s (value i)).map Except.ok >>= _ : Option (Except String σ)) = _
    cases append s (value i) with
    | none => rfl
    | some s' => exact ih his s'

/-- The first error is the answer, if what comes before it cannot panic. -/
theorem foldlM_error {I : σ → Prop} {null : α} {msg : String}
    (hnull : ∀ s, I s → ∃ s', append s null = some s' ∧ I s') (is : List ℕ)
    (h : ∀ i ∈ is, cell i = .ok null ∨ cell i = .error msg)
    (hsome : ∃ i ∈ is, cell i = .error msg) {s : σ} (hs : I s) :
    (is.foldlM (fun s i => do
      let x ← cell i
      append s x) s : ExceptT String Option σ).run = some (.error msg) := by
  induction is generalizing s with
  | nil =>
    obtain ⟨i, hi, -⟩ := hsome
    cases hi
  | cons i is ih =>
    obtain ⟨hi, his⟩ := List.forall_mem_cons.mp h
    rw [List.foldlM_cons]
    rcases hi with hok | hmsg
    · obtain ⟨s', happend, hs'⟩ := hnull s hs
      have hrest : ∃ j ∈ is, cell j = .error msg := by
        obtain ⟨j, hj, hmsg⟩ := hsome
        rcases List.mem_cons.mp hj with rfl | hj
        · rw [hok] at hmsg
          cases hmsg
        · exact ⟨j, hj, hmsg⟩
      rw [hok]
      show ((append s null).map Except.ok >>= _ : Option (Except String σ)) = _
      rw [happend]
      exact ih his hrest hs'
    · rw [hmsg]
      rfl

end Loop

theorem range_inputs (fs : FileSystem) (col : InputColumn) :
    (List.range col.length).map (fun i => (col.inputs fs)[i]?.join) = col.inputs fs := by
  rw [← length_inputs fs col]
  apply List.ext_getElem
  · rw [List.length_map, List.length_range]
  · intro i hi hi'
    rw [List.getElem_map, List.getElem_range, List.getElem?_eq_getElem hi']
    rfl

/-- The results on the cells, nothing where a cell has no bytes. -/
def InputColumn.results {ρ : Type} (fs : FileSystem) (eval : List UInt8 → ρ) (col : InputColumn) :
    List (Option ρ) :=
  (col.inputs fs).map (·.map eval)

theorem length_results {ρ : Type} (fs : FileSystem) (eval : List UInt8 → ρ) (col : InputColumn) :
    (col.results fs eval).length = col.length := by
  rw [InputColumn.results, List.length_map, length_inputs]

section Process

variable {ρ β σ : Type} (T : Table (Option ρ) β σ) (fs : FileSystem) (eval : List UInt8 → ρ)

/-- In front of the first refused cell there are only nulls. -/
theorem processRows_refused (hnull : ∀ n, T.Encodable (List.replicate n none)) {col : InputColumn}
    {msg : String} (h : col.refused = some msg) :
    (processRows T fs eval col).run = some (.error msg) := by
  obtain ⟨hcells, i, hi, hmsg⟩ := inputBytes_of_refused fs h
  refine foldlM_error (I := fun s => ∃ n, T.builders.Holds s (List.replicate n (T.cells none)))
    (fun s bytes => T.builders.append s (T.cells (bytes.map eval))) ?_ _
    (fun j hj => hcells j (List.mem_range.mp hj)) ⟨i, List.mem_range.mpr hi, hmsg⟩
    ⟨0, T.builders.holds_empty⟩
  intro s ⟨n, hs⟩
  have hfits := hnull (n + 1)
  rw [Table.Encodable, List.map_replicate, List.replicate_succ'] at hfits
  obtain ⟨s', happend, hs'⟩ := T.builders.append_of_fits hs hfits
  refine ⟨s', happend, n + 1, ?_⟩
  rwa [List.replicate_succ']

theorem processRows_accepted {col : InputColumn} (h : col.refused = none) :
    (processRows T fs eval col).run =
      (T.builders.build ((col.results fs eval).map T.cells)).map .ok := by
  have hok := foldlM_ok (fun s bytes => T.builders.append s (T.cells (bytes.map eval)))
    (List.range col.length) (fun i hi => inputBytes_of_accepted fs h (List.mem_range.mp hi))
    T.builders.empty
  rw [range_inputs] at hok
  rw [Builder.build, Builder.extend, InputColumn.results, List.map_map, List.foldlM_map]
  exact hok

/-- What `process` makes of an accepted column: struct children with a cell a row that read back
as the results, if the text children can hold them, and a panic if not. -/
structure Maps (readRow : β → Option ρ) (fits : List (Option ρ) → Prop)
    (process : InputColumn → ExceptT String Option σ) (col : InputColumn) : Prop where
  answers : fits (col.results fs eval) →
    ∃ out, (process col).run = some (.ok out) ∧ T.Aligned out col.length ∧
      (T.read out).map readRow = col.results fs eval
  panics : ¬ fits (col.results fs eval) → (process col).run = none

theorem maps_of_accepted {readRow : β → Option ρ} {fits : List (Option ρ) → Prop}
    (hread : ∀ row, readRow (T.cells row) = row) (hfits : ∀ rows, T.Encodable rows ↔ fits rows)
    {col : InputColumn} (h : col.refused = none) :
    Maps T fs eval readRow fits (processRows T fs eval) col := by
  have hprocess := processRows_accepted T fs eval h
  obtain ⟨hok, hno⟩ := T.build_spec (col.results fs eval)
  constructor
  · intro hrows
    obtain ⟨out, hbuild, haligned, hback⟩ := hok ((hfits _).mpr hrows)
    rw [length_results] at haligned
    refine ⟨out, ?_, haligned, ?_⟩
    · rw [hprocess, hbuild]
      rfl
    · rw [hback, List.map_map]
      exact List.map_id'' hread _
  · intro hrows
    rw [hprocess, hno ((hfits _).not.mpr hrows)]
    rfl

end Process

/-! ### What the text children can take -/

/-- The value buffer of a text child. -/
def textBytes (cells : List (Option String)) : ℕ :=
  (cells.map fun cell => (cell.getD "").utf8ByteSize).sum

def FormatFits (rows : List (Option Probe)) : Prop :=
  textBytes (rows.map (·.bind fun p => some p.container)) ≤ i32Max ∧
    textBytes (rows.map (·.bind (·.arch))) ≤ i32Max ∧
      textBytes (rows.map (·.bind (·.mode))) ≤ i32Max ∧
        textBytes (rows.map (·.bind (·.endian))) ≤ i32Max

def EntrypointFits (rows : List (Option EntryPoint)) : Prop :=
  textBytes (rows.map (·.bind (·.arch))) ≤ i32Max ∧
    textBytes (rows.map (·.bind (·.mode))) ≤ i32Max ∧
      textBytes (rows.map (·.bind (·.sect))) ≤ i32Max

theorem encodable_format_iff (rows : List (Option Probe)) :
    formatTable.Encodable rows ↔ FormatFits rows := by
  have hcells : formatTable.cells = fun p =>
      (p.bind fun p => some p.container, p.bind (·.arch), p.bind (·.mode), p.bind (·.bits),
        p.bind (·.endian), p.bind (·.entry), p.isSome) := by
    funext p
    cases p <;> rfl
  rw [Table.Encodable, hcells]
  simp [formatTable, Builder.prod, Builder.plain, fits_option, FormatFits, textBytes,
    Function.comp_def]

theorem encodable_entrypoint_iff (rows : List (Option EntryPoint)) :
    entrypointTable.Encodable rows ↔ EntrypointFits rows := by
  have hcells : entrypointTable.cells = fun e =>
      (e.bind (·.arch), e.bind (·.mode), e.bind (·.vaddr), e.bind (·.fileOff), e.bind (·.sect),
        e.isSome) := by
    funext e
    cases e <;> rfl
  rw [Table.Encodable, hcells]
  simp [entrypointTable, Builder.prod, Builder.plain, fits_option, EntrypointFits, textBytes,
    Function.comp_def]

/-- No token of a probe has more than the nine bytes of `fat-macho`. -/
def TokensShort (p : Probe) : Prop :=
  p.container.utf8ByteSize ≤ 9 ∧ (p.arch.getD "").utf8ByteSize ≤ 9 ∧
    (p.mode.getD "").utf8ByteSize ≤ 9 ∧ (p.endian.getD "").utf8ByteSize ≤ 9

theorem endianStr_short (big : Bool) : (Probe.endianStr big).utf8ByteSize ≤ 9 := by
  cases big <;> decide

theorem objectProbe_container_short (obj : Object) :
    (Id.run (Probe.objectProbe Build.release obj)).container.utf8ByteSize ≤ 9 ∧
      ((Id.run (Probe.objectProbe Build.release obj)).endian.getD "").utf8ByteSize ≤ 9 := by
  have hname : ∀ name ∈ ["raw", "elf", "pe", "macho", "fat-macho"],
      name.utf8ByteSize ≤ 9 := by decide
  cases obj with
  | elf e => exact ⟨hname "elf" (by decide), endianStr_short _⟩
  | pe p => exact ⟨hname "pe" (by decide), endianStr_short false⟩
  | mach mach =>
    cases mach with
    | binary macho => exact ⟨hname "macho" (by decide), endianStr_short _⟩
    | fat fat =>
      show (Probe.fatProbe fat).container.utf8ByteSize ≤ 9 ∧
        ((Probe.fatProbe fat).endian.getD "").utf8ByteSize ≤ 9
      unfold Probe.fatProbe
      cases fat.firstMachO with
      | none => decide
      | some macho => exact ⟨hname "fat-macho" (by decide), endianStr_short _⟩
  | other => decide

theorem probe_container_short (K : Crates) (blob : List UInt8) :
    (probe K blob).container.utf8ByteSize ≤ 9 ∧
      ((probe K blob).endian.getD "").utf8ByteSize ≤ 9 := by
  cases hobj : K.objectParse blob with
  | none =>
    rw [probe_of_none hobj]
    decide
  | some obj =>
    rw [probe_of_some hobj]
    exact objectProbe_container_short obj

theorem probe_arch_short (K : Crates) (blob : List UInt8) :
    ((probe K blob).arch.getD "").utf8ByteSize ≤ 9 ∧
      ((probe K blob).mode.getD "").utf8ByteSize ≤ 9 := by
  have hpaired : (probe K blob).arch.isSome = (probe K blob).mode.isSome := probe_paired K blob
  have hlisted : ∀ t ∈ headerSelections, t.1.utf8ByteSize ≤ 9 ∧ t.2.1.utf8ByteSize ≤ 9 := by decide
  cases harch : (probe K blob).arch with
  | none =>
    rw [harch] at hpaired
    rw [Option.not_isSome_iff_eq_none.mp (Bool.eq_false_iff.mp hpaired.symm)]
    decide
  | some a =>
    rw [harch] at hpaired
    obtain ⟨m, hmode⟩ := Option.isSome_iff_exists.mp hpaired.symm
    obtain ⟨e, -, hmem⟩ := probe_listed K blob a m harch hmode
    rw [hmode]
    exact hlisted _ hmem

theorem probe_tokensShort (K : Crates) (blob : List UInt8) : TokensShort (probe K blob) := by
  obtain ⟨hcontainer, hendian⟩ := probe_container_short K blob
  obtain ⟨harch, hmode⟩ := probe_arch_short K blob
  exact ⟨hcontainer, harch, hmode, hendian⟩

theorem textBytes_results_le {ρ : Type} (fs : FileSystem) {eval : List UInt8 → ρ}
    (col : InputColumn) {field : ρ → Option String}
    (h : ∀ bytes, ((field (eval bytes)).getD "").utf8ByteSize ≤ 9) :
    textBytes ((col.results fs eval).map (·.bind field)) ≤ col.length * 9 := by
  refine sum_map_le ?_ ?_
  · rw [List.length_map, length_results]
  · rw [List.forall_mem_map]
    intro row hrow
    obtain ⟨cell, -, rfl⟩ := List.mem_map.mp hrow
    cases cell with
    | none => exact Nat.zero_le 9
    | some bytes => exact h bytes

/-- In a column of up to 238 609 294 rows only the names of sections can be too long. -/
theorem results_fit (K : Crates) (fs : FileSystem) {col : InputColumn}
    (h : col.length * 9 ≤ i32Max) :
    FormatFits (col.results fs (probe K)) ∧
      (EntrypointFits (col.results fs (entrypoint K)) ↔
        textBytes ((col.results fs (entrypoint K)).map (·.bind (·.sect))) ≤ i32Max) := by
  have hprobe := fun blob => probe_tokensShort K blob
  have hentry := fun blob => entrypoint_probe K blob
  constructor
  · refine ⟨?_, ?_, ?_, ?_⟩
    · refine (textBytes_results_le fs col fun blob => ?_).trans h
      exact (hprobe blob).1
    · exact (textBytes_results_le fs col fun blob => (hprobe blob).2.1).trans h
    · exact (textBytes_results_le fs col fun blob => (hprobe blob).2.2.1).trans h
    · exact (textBytes_results_le fs col fun blob => (hprobe blob).2.2.2).trans h
  · constructor
    · intro hfits
      exact hfits.2.2
    · intro hsect
      refine ⟨?_, ?_, hsect⟩
      · refine (textBytes_results_le fs col fun blob => ?_).trans h
        rw [(hentry blob).1]
        exact (hprobe blob).2.1
      · refine (textBytes_results_le fs col fun blob => ?_).trans h
        rw [(hentry blob).2.1]
        exact (hprobe blob).2.2.1

/-! ### The two functions -/

/-- **The scalar functions map the column.**  A refused column gives its error.  Any other gives
struct columns whose children have a cell a row and whose rows are the core function's results
cell by cell, null exactly for a cell without usable bytes, if the text children can hold them;
if not, the function panics.  Unless the column is huge, only the names of the sections that
`entrypoint` finds can be too long. -/
theorem scalars_rowwise (K : Crates) (fs : FileSystem) (col : InputColumn) :
    (∀ msg, col.refused = some msg →
      (formatProcess K fs col).run = some (.error msg) ∧
        (entrypointProcess K fs col).run = some (.error msg)) ∧
    (col.refused = none →
      Maps formatTable fs (probe K) formatRow FormatFits (formatProcess K fs) col ∧
        Maps entrypointTable fs (entrypoint K) entrypointRow EntrypointFits
          (entrypointProcess K fs) col) ∧
    (col.length * 9 ≤ i32Max →
      FormatFits (col.results fs (probe K)) ∧
        (EntrypointFits (col.results fs (entrypoint K)) ↔
          textBytes ((col.results fs (entrypoint K)).map (·.bind (·.sect))) ≤ i32Max)) := by
  have hnulls : ∀ (ρ : Type) (field : ρ → Option String) (n : ℕ),
      textBytes ((List.replicate n (none : Option ρ)).map (·.bind field)) ≤ i32Max := by
    intro ρ field n
    simp [textBytes]
  refine ⟨fun msg h => ⟨?_, ?_⟩, fun h => ⟨?_, ?_⟩, results_fit K fs⟩
  · refine processRows_refused formatTable fs (probe K) (fun n => ?_) h
    rw [encodable_format_iff]
    exact ⟨hnulls _ _ n, hnulls _ _ n, hnulls _ _ n, hnulls _ _ n⟩
  · refine processRows_refused entrypointTable fs (entrypoint K) (fun n => ?_) h
    rw [encodable_entrypoint_iff]
    exact ⟨hnulls _ _ n, hnulls _ _ n, hnulls _ _ n⟩
  · exact maps_of_accepted formatTable fs (probe K) formatRow_cells encodable_format_iff h
  · exact maps_of_accepted entrypointTable fs (entrypoint K) entrypointRow_cells
      encodable_entrypoint_iff h

/-! ### One long section name -/

section LongName

open VgiDisasm.Fixtures

/-- The entry 0 of a file that names its string table at length is in this table. -/
theorem longName_sect {n : ℕ} (hn : n + 2 < 2 ^ 64) :
    (entrypoint (elfLongNamesCrates n 0) (elfLongNamesBlob n 0)).sect =
      some (String.ofList (List.replicate n 'a')) := by
  have hlen : (longName n).length = n + 2 := by simp [longName]
  have hnull : (Header.elf (elfLongNames n 0) nullShdr).containsVa 0 = false := rfl
  have htable : (Header.elf (elfLongNames n 0)
      ⟨1, 3, 0, 0, 64, UInt64.ofNat (longName n).length⟩).containsVa 0 = true := by
    show (decide ((0 : UInt64) ≤ 0) &&
      decide (0 < saturatingAdd 0 (UInt64.ofNat (longName n).length))) = true
    rw [hlen, saturatingAdd, UInt64.toNat_ofNat', Nat.mod_eq_of_lt hn, Bool.and_eq_true,
      decide_eq_true_eq, decide_eq_true_eq, UInt64.lt_iff_toNat_lt, UInt64.toNat_ofNat']
    refine ⟨UInt64.le_refl 0, ?_⟩
    show 0 < min (0 + (n + 2)) (2 ^ 64 - 1) % 2 ^ 64
    omega
  have hva : (probe (elfLongNamesCrates n 0) (elfLongNamesBlob n 0)).entry = some 0 :=
    probe_entry_of_some (elfLongNames_parse n 0)
  rw [sect_of_entry hva, elfLongNames_headers, elfLongNames_sectionHeaders, List.replicate_zero]
  show (List.find? _ [Header.elf _ nullShdr, Header.elf _ _]).map Header.name = _
  simp only [List.find?_cons, hnull, htable, Option.map_some]
  rw [elfLongNames_name n 0 _ rfl]

/-- That file, with a name of a mebibyte, under every path. -/
def longNameFiles : FileSystem where
  metadata _ := some ⟨true, 1048770⟩
  read _ := some (elfLongNamesBlob 1048576 0)

/-- A column of `k` paths. -/
def longNamePaths (k : ℕ) : InputColumn := .utf8 (List.replicate k (some "a.elf"))

theorem length_longNamePaths (k : ℕ) : (longNamePaths k).length = k := List.length_replicate

theorem longNamePaths_bytes (k : ℕ) :
    textBytes (((longNamePaths k).results longNameFiles
      (entrypoint (elfLongNamesCrates 1048576 0))).map (·.bind (·.sect))) = k * 1048576 := by
  have hread : readPath Build.release longNameFiles "a.elf" =
      some (elfLongNamesBlob 1048576 0) := by
    unfold readPath
    rw [if_neg (by decide)]
    show (if refuses Build.release ⟨true, 1048770⟩ then none else _ : Option (List UInt8)) = _
    rw [if_neg (by decide)]
    rfl
  show textBytes ((((List.replicate k (some "a.elf")).map fun cell =>
    cell.bind (readPath Build.release longNameFiles)).map _).map _) = _
  rw [List.map_replicate, List.map_replicate, List.map_replicate, Option.bind_some, hread,
    Option.map_some, Option.bind_some, longName_sect (by decide), textBytes, List.map_replicate,
    Option.getD_some, String.utf8ByteSize_ofList, utf8Len_replicate, List.sum_replicate_nat]

/-- The entry points of one file whose section name has a mebibyte, three times and 2048 times. -/
theorem scalars_rowwise_longName :
    let K := elfLongNamesCrates 1048576 0
    (∃ out, (entrypointProcess K longNameFiles (longNamePaths 3)).run = some (.ok out) ∧
        entrypointTable.Aligned out 3 ∧ (entrypointTable.read out).map entrypointRow =
          (longNamePaths 3).results longNameFiles (entrypoint K)) ∧
      (entrypointProcess K longNameFiles (longNamePaths 2048)).run = none := by
  constructor
  · obtain ⟨-, hmaps, hbytes⟩ :=
      scalars_rowwise (elfLongNamesCrates 1048576 0) longNameFiles (longNamePaths 3)
    refine (hmaps rfl).2.answers ((hbytes (by decide)).2.mpr ?_)
    rw [longNamePaths_bytes]
    decide
  · obtain ⟨-, hmaps, hbytes⟩ :=
      scalars_rowwise (elfLongNamesCrates 1048576 0) longNameFiles (longNamePaths 2048)
    rw [length_longNamePaths] at hbytes
    refine (hmaps rfl).2.panics ((hbytes (by decide)).2.not.mpr ?_)
    rw [longNamePaths_bytes]
    decide

end LongName

end VgiDisasm.Worker
