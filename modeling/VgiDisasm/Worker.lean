import VgiDisasm.Build
import VgiDisasm.Text
import VgiDisasm.Strings

/-!
# Arguments of the worker's functions

A path argument is read from the file system, unless the file is too large; a numeric argument
arrives as an `i64`.  Both go through `as usize`, so both depend on the build.
-/

namespace VgiDisasm.Worker

open VgiDisasm.Text

/-! ### Paths -/

/-- `std::fs::Metadata`. -/
structure Metadata where
  isFile : Bool
  len : UInt64

structure FileSystem where
  /-- `fs::metadata`, `none` for an `Err`. -/
  metadata : String → Option Metadata
  /-- `fs::read`, `none` for an `Err`. -/
  read : String → Option (List UInt8)

section Builds

variable {m : Type → Type} (B : Build m)

/-- The test on the metadata in `read_path`. -/
def refuses (metadata : Metadata) : Bool :=
  !metadata.isFile || decide (B.asUsize metadata.len.toNat > MAX_SCAN_BYTES)

def readPath (fs : FileSystem) (path : String) : Option (List UInt8) :=
  let path := trim path
  if path.isEmpty then none
  else
    match fs.metadata path with
    | none => none
    | some metadata => if refuses B metadata then none else fs.read path

/-- A BLOB constant as it is, a VARCHAR constant as a path. -/
def constInputBytes (fs : FileSystem) (bytesArg : Option (List UInt8)) (strArg : Option String) :
    Option (List UInt8) :=
  match bytesArg with
  | some b => some b
  | none => strArg.bind (readPath B fs)

/-! ### `strings(blob [, min_len])` -/

/-- The `min_len` argument: a negative or absent one is 4. -/
def minLenArg (minLen : Option Int64) : ℕ :=
  ((minLen.filter fun v => 0 ≤ v).map fun v => B.asUsize v.toInt.toNat).getD 4

/-- The rows of `Strings::producer`. -/
def stringsRows (fs : FileSystem) (bytesArg : Option (List UInt8)) (strArg : Option String)
    (minLen : Option Int64) : List StringHit :=
  match constInputBytes B fs bytesArg strArg with
  | some b => strings b (minLenArg B minLen)
  | none => []

end Builds

end VgiDisasm.Worker
