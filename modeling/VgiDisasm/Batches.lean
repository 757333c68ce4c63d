import VgiDisasm.Capabilities
import VgiDisasm.Library.Columnar

/-!
# Record batches

A table function emits all of its rows as one record batch: the first `next_batch` appends them
row by row to one Arrow builder per column, every later one has nothing left.  The builders of the
text and binary columns keep their cells in one value buffer, with 32-bit offsets into it.
-/

namespace VgiDisasm.Worker

open VgiDisasm.Columnar

/-! ### Arrow builders -/

/-- `i32::MAX`, the last offset a builder can append. -/
def i32Max : ℕ := 2 ^ 31 - 1

/-- The bytes of a `str` in the value buffer. -/
def utf8 (s : String) : List UInt8 := s.toByteArray.data.toList

/-- The `str` a reader finds there. -/
def ofUtf8 (bytes : List UInt8) : String := (String.fromUTF8? ⟨bytes.toArray⟩).getD ""

theorem ofUtf8_utf8 (s : String) : ofUtf8 (utf8 s) = s := by
  have hbytes : (⟨(utf8 s).toArray⟩ : ByteArray) = s.toByteArray := by
    rw [utf8, Array.toArray_toList]
  rw [ofUtf8, hbytes, String.fromUTF8?, dif_pos s.isValidUTF8]
  rfl

/-- `BinaryBuilder`, whose cells here are never null. -/
def binaryBuilder : Builder (List UInt8) (Chunks UInt8) :=
  (Builder.chunks i32Max).comap some (·.getD []) fun _ => rfl

/-- `StringBuilder` under `append_value`. -/
def stringBuilder : Builder String (Chunks UInt8) :=
  (Builder.chunks i32Max).comap (fun s => some (utf8 s)) (fun cell => ofUtf8 (cell.getD []))
    ofUtf8_utf8

/-- `StringBuilder` under `append_option`. -/
def optionBuilder : Builder (Option String) (Chunks UInt8) :=
  (Builder.chunks i32Max).comap (·.map utf8) (·.map ofUtf8) fun cell => by
    cases cell with
    | none => rfl
    | some s => exact congrArg some (ofUtf8_utf8 s)

/-- `ListBuilder` over a `StringBuilder`; `append(true)` closes a list. -/
def listBuilder : Builder (List String) (Columnar.Lists (Chunks UInt8)) :=
  stringBuilder.list i32Max

/-! ### Producers -/

/-- The rows still to be emitted. -/
structure Producer (ρ : Type) where
  rows : Option (List ρ)

/-- One table: the cells of a row, and the builders they are appended to. -/
structure Table (ρ β σ : Type) where
  cells : ρ → β
  builders : Builder β σ

namespace Table

variable {ρ β σ : Type}

/-- `next_batch`; the outer `none` is the panic of a builder. -/
def nextBatch (T : Table ρ β σ) (p : Producer ρ) : Option (Option σ × Producer ρ) :=
  match p.rows with
  | none => some (none, p)
  | some rows => do
    let batch ← T.builders.build (rows.map T.cells)
    some (some batch, ⟨none⟩)

/-- The answers to `n` successive calls. -/
def polls (T : Table ρ β σ) : ℕ → Producer ρ → Option (List (Option σ))
  | 0, _ => some []
  | n + 1, p => do
    let (answer, p) ← T.nextBatch p
    let answers ← polls T n p
    some (answer :: answers)

/-- The rows of a batch. -/
def read (T : Table ρ β σ) (batch : σ) : List β := T.builders.read batch

/-- All columns have `n` cells, as `RecordBatch::try_new` and `StructArray::new` demand. -/
def Aligned (T : Table ρ β σ) (batch : σ) (n : ℕ) : Prop :=
  ∀ height ∈ T.builders.heights batch, height = n

/-- No builder panics: every offset into a value buffer or into the elements of a list fits. -/
def Encodable (T : Table ρ β σ) (rows : List ρ) : Prop := T.builders.Fits (rows.map T.cells)

theorem build_spec (T : Table ρ β σ) (rows : List ρ) :
    (T.Encodable rows → ∃ batch, T.builders.build (rows.map T.cells) = some batch ∧
        T.Aligned batch rows.length ∧ T.read batch = rows.map T.cells) ∧
      (¬ T.Encodable rows → T.builders.build (rows.map T.cells) = none) := by
  obtain ⟨hfits, hno⟩ := T.builders.build_spec (rows.map T.cells)
  constructor
  · intro h
    obtain ⟨batch, hbuild, hread, hheights⟩ := hfits h
    rw [List.length_map] at hheights
    exact ⟨batch, hbuild, hheights, hread⟩
  · exact hno

end Table

/-! ### The five tables -/

def disasmTable : Table Insn
    (UInt64 × UInt8 × List UInt8 × String × String × List String)
    (List UInt64 × List UInt8 × Chunks UInt8 × Chunks UInt8 × Chunks UInt8 ×
      Columnar.Lists (Chunks UInt8))
    where
  cells r := (r.address, r.size, r.bytes, r.mnemonic, r.opStr, r.groups)
  builders := (Builder.plain UInt64).prod <| (Builder.plain UInt8).prod <| binaryBuilder.prod <|
    stringBuilder.prod <| stringBuilder.prod listBuilder

def sectionsTable : Table Section
    (String × String × UInt64 × UInt64 × UInt64 × Bool × Float)
    (Chunks UInt8 × Chunks UInt8 × List UInt64 × List UInt64 × List UInt64 × List Bool × List Float)
    where
  cells r := (r.name, r.kind, r.vaddr, r.size, r.fileOff, r.exec, r.entropy)
  builders := stringBuilder.prod <| stringBuilder.prod <| (Builder.plain UInt64).prod <|
    (Builder.plain UInt64).prod <| (Builder.plain UInt64).prod <| (Builder.plain Bool).prod <|
      Builder.plain Float

def importsTable : Table Import
    (Option String × Option String × Option Int32 × String)
    (Chunks UInt8 × Chunks UInt8 × List (Option Int32) × Chunks UInt8) where
  cells r := (r.library, r.name, r.ordinal, r.kind)
  builders := optionBuilder.prod <| optionBuilder.prod <| (Builder.plain (Option Int32)).prod
    stringBuilder

def stringsTable : Table StringHit (UInt64 × String × String)
    (List UInt64 × Chunks UInt8 × Chunks UInt8) where
  cells r := (r.offset, r.encoding, r.value)
  builders := (Builder.plain UInt64).prod <| stringBuilder.prod stringBuilder

def capabilitiesTable : Table Capability (String × String × String × String × String)
    (Chunks UInt8 × Chunks UInt8 × Chunks UInt8 × Chunks UInt8 × Chunks UInt8) where
  cells r := (r.rule, r.attackId, r.attackName, r.severity, r.evidence)
  builders := stringBuilder.prod <| stringBuilder.prod <| stringBuilder.prod <|
    stringBuilder.prod stringBuilder

end VgiDisasm.Worker
