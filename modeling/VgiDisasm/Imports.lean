import VgiDisasm.Library.Capped
import VgiDisasm.Text
import VgiDisasm.Limits
import VgiDisasm.Crates

/-!
# Imported symbols

The PE import directory, the ELF dynamic symbols and the Mach-O bind information in one shape.
-/

namespace VgiDisasm

open VgiDisasm.Capped VgiDisasm.Text

structure Import where
  /-- Importing library, `none` where the container does not attribute the symbol to one. -/
  library : Option String
  /-- `none` for an ordinal-only PE import. -/
  name : Option String
  ordinal : Option Int32
  /-- `named | ordinal | delayed`. -/
  kind : String
  deriving DecidableEq, Repr

namespace Imports

/-- The body of the loop of `elf_imports`, `none` where it continues without a row. -/
def elfImport (elf : Elf) (sym : Sym) : Option Import :=
  if !sym.isImport then none
  else
    match elf.dynstrtab sym.stName with
    | none => none
    | some name =>
      if name.isEmpty then none
      else some { library := none, name := some name, ordinal := none, kind := "named" }

def elfImports (elf : Elf) (out : List Import) : List Import :=
  filterCapped MAX_IMPORTS (elfImport elf) elf.dynsyms out

/-- The body of the loop of `pe_imports`. -/
def peImport (imp : PeImport) : Import :=
  let library := if imp.dll.isEmpty then none else some imp.dll
  let ord := imp.ordinal.toUInt32.toInt32
  -- ordinal-only imports surface as an empty or synthesized name
  let isOrdinal := imp.name.isEmpty || startsWith imp.name "ORDINAL"
  if isOrdinal then
    { library := library, name := none, ordinal := some ord, kind := "ordinal" }
  else { library := library, name := some imp.name, ordinal := some ord, kind := "named" }

def peImports (pe : PE) (out : List Import) : List Import :=
  pushCapped MAX_IMPORTS peImport pe.imports out

/-- The body of the loop of `mach_imports`. -/
def machImport (imp : MachImport) : Import where
  library := if imp.dylib.isEmpty then none else some imp.dylib
  name := some imp.name
  ordinal := none
  kind := if imp.isLazy then "delayed" else "named"

def machImports (macho : MachO) (out : List Import) : List Import :=
  match macho.imports with
  | none => out
  | some imps => pushCapped MAX_IMPORTS machImport imps out

/-- The `match` of `parse` on the container kind; a fat binary contributes its first slice. -/
def objectImports : Object → List Import
  | .elf elf => elfImports elf []
  | .pe pe => peImports pe []
  | .mach (.binary macho) => machImports macho []
  | .mach (.fat fat) =>
    match fat.firstMachO with
    | some macho => machImports macho []
    | none => []
  | .other => []

def parse (K : Crates) (bytes : List UInt8) : Option (List Import) :=
  match K.objectParse bytes with
  | none => none
  | some obj => some ((objectImports obj).take MAX_IMPORTS)

end Imports

def imports (K : Crates) (bytes : List UInt8) : List Import := (Imports.parse K bytes).getD []

/-! ### The rows without the cap -/

/-- The imports of a Mach-O; none if they do not parse. -/
def MachO.importRows (macho : MachO) : List Import :=
  (macho.imports.getD []).map Imports.machImport

def Object.importRows : Object → List Import
  | .elf e => e.dynsyms.filterMap (Imports.elfImport e)
  | .pe p => p.imports.map Imports.peImport
  | .mach (.binary macho) => macho.importRows
  | .mach (.fat fat) =>
    match fat.firstMachO with
    | some macho => macho.importRows
    | none => []
  | .other => []

def Crates.importRows (K : Crates) (blob : List UInt8) : List Import :=
  match K.objectParse blob with
  | some obj => obj.importRows
  | none => []

namespace Imports

theorem machImports_eq (macho : MachO) :
    machImports macho [] = macho.importRows.take MAX_IMPORTS := by
  unfold machImports MachO.importRows
  cases macho.imports with
  | none => rfl
  | some imps => simp only [pushCapped_eq, Option.getD_some, List.map_take, List.nil_append,
      List.length_nil, Nat.sub_zero]

theorem objectImports_eq (obj : Object) :
    objectImports obj = obj.importRows.take MAX_IMPORTS := by
  cases obj with
  | elf elf =>
    simp only [objectImports, elfImports, Object.importRows, filterCapped_eq, List.nil_append,
      List.length_nil, Nat.sub_zero]
  | pe pe =>
    simp only [objectImports, peImports, Object.importRows, pushCapped_eq, List.map_take,
      List.nil_append, List.length_nil, Nat.sub_zero]
  | mach mach =>
    cases mach with
    | binary macho => exact machImports_eq macho
    | fat fat =>
      simp only [objectImports, Object.importRows]
      cases fat.firstMachO with
      | none => rfl
      | some macho => exact machImports_eq macho
  | other => rfl

end Imports

/-- **One row per import, up to the cap.** -/
theorem imports_eq (K : Crates) (blob : List UInt8) :
    imports K blob = (K.importRows blob).take MAX_IMPORTS := by
  unfold imports Imports.parse Crates.importRows
  cases K.objectParse blob with
  | none => rfl
  | some obj =>
    simp only [Option.getD_some, Imports.objectImports_eq, List.take_take, Nat.min_self]

end VgiDisasm
