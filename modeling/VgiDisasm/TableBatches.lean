import VgiDisasm.BatchBounds
import VgiDisasm.Tables

/-!
# One batch, and the rows in it

A request polled any number of times answers one batch and then nothing; the batch, cut back
into rows along its offsets, is the list of rows the engine returned.  The builders panic where
an offset exceeds `i32::MAX`, which only the names of sections and imports can make happen.
-/

namespace VgiDisasm.Worker

open VgiDisasm.Columnar

namespace Table

variable {ρ β σ : Type} (T : Table ρ β σ)

/-- However often it is polled, the producer answers one batch, whose columns have a cell for each
of its rows and read back as them, and then nothing. -/
def Answers (p : Producer ρ) : Prop :=
  ∃ rows batch, p.rows = some rows ∧ T.Aligned batch rows.length ∧
    T.read batch = rows.map T.cells ∧
      ∀ n, T.polls (n + 1) p = some (some batch :: List.replicate n none)

/-- The first call panics. -/
def Panics (p : Producer ρ) : Prop := ∀ n, T.polls (n + 1) p = none

theorem polls_done (n : ℕ) : T.polls n ⟨none⟩ = some (List.replicate n none) := by
  induction n with
  | zero => rfl
  | succ n ih =>
    show (T.polls n ⟨none⟩ >>= fun answers => some (none :: answers)) = _
    rw [ih]
    rfl

/-- A producer with rows to emit, by whether they fit its builders. -/
theorem answers_of_encodable {rows : List ρ} (h : T.Encodable rows) : T.Answers ⟨some rows⟩ := by
  obtain ⟨batch, hbuild, haligned, hread⟩ := (T.build_spec rows).1 h
  refine ⟨rows, batch, rfl, haligned, hread, fun n => ?_⟩
  unfold polls nextBatch
  simp only [hbuild, Option.bind_eq_bind, Option.bind_some, T.polls_done]

theorem panics_of_not_encodable {rows : List ρ} (h : ¬ T.Encodable rows) :
    T.Panics ⟨some rows⟩ := by
  intro n
  unfold polls nextBatch
  simp only [(T.build_spec rows).2 h, Option.bind_eq_bind, Option.bind_none]

theorem answers_nil : T.Answers ⟨some []⟩ := T.answers_of_encodable T.builders.fits_nil

end Table

/-! ### The five functions -/

section Functions

variable (B : Build Id) (fs : FileSystem) (K : Crates) (args : Arguments)

/-- **A request answers one batch with the rows of the engine, and then nothing**: so do
`disassemble`, `strings` and `capabilities` for every input and all arguments. -/
theorem tables_answer (hK : K.Handles Capstone.TextBounded) :
    disasmTable.Answers (disassembleProducer B fs K args) ∧
      stringsTable.Answers (stringsProducer B fs args) ∧
      capabilitiesTable.Answers (capabilitiesProducer B fs K args) := by
  refine ⟨?_, ?_, ?_⟩
  · unfold disassembleProducer
    cases inputArg B fs args with
    | none => exact disasmTable.answers_nil
    | some b => exact disasmTable.answers_of_encodable (encodable_disassemble hK b _ _ _ _)
  · unfold stringsProducer stringsRows
    cases constInputBytes B fs (args.constBytes 0) (args.constStr 0) with
    | none => exact stringsTable.answers_nil
    | some b => exact stringsTable.answers_of_encodable (encodable_strings b _)
  · unfold capabilitiesProducer
    cases inputArg B fs args with
    | none => exact capabilitiesTable.answers_nil
    | some b => exact capabilitiesTable.answers_of_encodable (encodable_capabilities K b)

/-- **Names decide for the other two**: `sections` and `imports` answer one batch with the rows
of the engine if the names of the input fit, and panic if they do not. -/
theorem named_tables_answer :
    ((∀ b, inputArg B fs args = some b → SectionNamesFit K b) →
        sectionsTable.Answers (sectionsProducer B fs K args)) ∧
      ((∃ b, inputArg B fs args = some b ∧ ¬ SectionNamesFit K b) →
        sectionsTable.Panics (sectionsProducer B fs K args)) ∧
      ((∀ b, inputArg B fs args = some b → ImportNamesFit K b) →
        importsTable.Answers (importsProducer B fs K args)) ∧
      ((∃ b, inputArg B fs args = some b ∧ ¬ ImportNamesFit K b) →
        importsTable.Panics (importsProducer B fs K args)) := by
  unfold sectionsProducer importsProducer
  cases inputArg B fs args with
  | none =>
    refine ⟨fun _ => sectionsTable.answers_nil, ?_, fun _ => importsTable.answers_nil, ?_⟩
    · intro ⟨b, hb, _⟩
      cases hb
    · intro ⟨b, hb, _⟩
      cases hb
  | some b =>
    have hsections := sections_encodable_iff K b
    have himports := imports_encodable_iff K b
    refine ⟨fun h => ?_, ?_, fun h => ?_, ?_⟩
    · exact sectionsTable.answers_of_encodable (hsections.mpr (h b rfl))
    · intro ⟨b', hb, hno⟩
      cases hb
      exact sectionsTable.panics_of_not_encodable (hsections.not.mpr hno)
    · exact importsTable.answers_of_encodable (himports.mpr (h b rfl))
    · intro ⟨b', hb, hno⟩
      cases hb
      exact importsTable.panics_of_not_encodable (himports.not.mpr hno)

end Functions

/-! ### Inline blobs -/

def noFiles : FileSystem := ⟨fun _ => none, fun _ => none⟩

/-- A BLOB constant and nothing else. -/
def blobArgs (blob : List UInt8) : Arguments where
  constBytes i := if i = 0 then some blob else none
  constStr _ := none
  namedStr _ := none
  namedI64 _ := none

/-- Shellcode at a negative base. -/
def shellcodeArgs : Arguments :=
  { blobArgs [0x90, 0xc3] with
    namedStr := fun name => if name = "arch" then some "x86" else none
    namedI64 := fun name => if name = "base" then some (-2) else none }

theorem tables_answer_shellcode :
    disasmTable.Answers (disassembleProducer Build.release noFiles
      (Fixtures.crates [] [(Fixtures.x64Builder, Fixtures.x64Handle)]) shellcodeArgs) :=
  (tables_answer Build.release noFiles
    (Fixtures.crates [] [(Fixtures.x64Builder, Fixtures.x64Handle)]) shellcodeArgs
    (Fixtures.crates_handles Fixtures.x64Handle_textBounded)).1

/-- A short name in two sections, and one of a mebibyte in 2049. -/
theorem named_tables_answer_longNames :
    (sectionsTable.Answers (sectionsProducer Build.release noFiles
          (Fixtures.elfLongNamesCrates 1 1) (blobArgs (Fixtures.elfLongNamesBlob 1 1))) ∧
        importsTable.Answers (importsProducer Build.release noFiles
          (Fixtures.elfLongNamesCrates 1 1) (blobArgs (Fixtures.elfLongNamesBlob 1 1)))) ∧
      sectionsTable.Panics (sectionsProducer Build.release noFiles
        (Fixtures.elfLongNamesCrates 1048576 2048)
          (blobArgs (Fixtures.elfLongNamesBlob 1048576 2048))) := by
  refine ⟨⟨?_, ?_⟩, ?_⟩
  · refine (named_tables_answer Build.release noFiles (Fixtures.elfLongNamesCrates 1 1) _).1 ?_
    intro b hb
    cases hb
    exact (Fixtures.elfLongNames_sectionNames (by decide)).mpr (by decide)
  · refine (named_tables_answer Build.release noFiles (Fixtures.elfLongNamesCrates 1 1) _).2.2.1 ?_
    intro b hb
    cases hb
    exact Fixtures.elfLongNames_importNames 1 1
  · refine (named_tables_answer Build.release noFiles
      (Fixtures.elfLongNamesCrates 1048576 2048) _).2.1 ⟨_, rfl, ?_⟩
    rw [Fixtures.elfLongNames_sectionNames (by decide)]
    decide

end VgiDisasm.Worker
