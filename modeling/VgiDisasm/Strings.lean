import VgiDisasm.Library.Loop
import VgiDisasm.Limits

/-!
# Printable strings

Classic extraction: runs of printable ASCII bytes and of printable UTF-16LE code units, each
with the offset of its first byte.  Both passes push into one vector under one row cap.
-/

namespace VgiDisasm

/-- One extracted string. -/
structure StringHit where
  /-- File offset of the first byte of the run. -/
  offset : UInt64
  /-- `ascii | utf16le`. -/
  encoding : String
  /-- The decoded run, cut to `MAX_STRING_LEN` characters. -/
  value : String
  deriving DecidableEq, Repr

namespace Strings

/-- Printable ASCII plus tab. -/
def printable (b : UInt8) : Bool := (0x20 ≤ b && b ≤ 0x7e) || b == 0x09

def pushRun (out : List StringHit) (offset : ℕ) (encoding : String) (run : List Char) :
    List StringHit :=
  if out.length ≥ MAX_STRINGS then out
  else
    let value := String.ofList (run.take MAX_STRING_LEN)
    out ++ [{ offset := UInt64.ofNat offset, encoding := encoding, value := value }]

/-! ### ASCII -/

/-- The mutable variables of `extract_ascii`. -/
structure AsciiState where
  start : ℕ
  cur : List Char
  out : List StringHit

/-- The `if printable(b)` of the loop, at the byte `b` of index `i`. -/
def asciiByte (minLen i : ℕ) (b : UInt8) (s : AsciiState) : AsciiState :=
  if printable b then
    { s with
      start := if s.cur.isEmpty then i else s.start
      cur := s.cur ++ [Char.ofUInt8 b] }
  else
    { s with
      cur := []
      out := if s.cur.length ≥ minLen then pushRun s.out s.start "ascii" s.cur else s.out }

/-- The loop over the bytes from index `i` on, and the flush behind it. -/
def extractAsciiFrom (minLen : ℕ) : List UInt8 → ℕ → AsciiState → List StringHit
  | [], _, s => if s.cur.length ≥ minLen then pushRun s.out s.start "ascii" s.cur else s.out
  | b :: rest, i, s =>
    let s := asciiByte minLen i b s
    -- the cap returns without the flush
    if s.out.length ≥ MAX_STRINGS then s.out else extractAsciiFrom minLen rest (i + 1) s

def extractAscii (data : List UInt8) (minLen : ℕ) (out : List StringHit) : List StringHit :=
  extractAsciiFrom minLen data 0 ⟨0, [], out⟩

/-! ### UTF-16LE -/

/-- `i + 1 < data.len() && printable(data[i]) && data[i + 1] == 0`. -/
def pairAt (data : List UInt8) (i : ℕ) : Bool :=
  if h : i + 1 < data.length then printable data[i] && data[i + 1] == 0 else false

/-- One pass of the inner loop over `i` and `cur`. -/
def unitStep (data : List UInt8) (s : ℕ × List Char) : Option (ℕ × List Char) :=
  if pairAt data s.1 then some (s.1 + 2, s.2 ++ [Char.ofUInt8 (data.getD s.1 0)]) else none

/-- The mutable variables of `extract_utf16le`, and whether its `return` was taken. -/
structure Utf16State where
  i : ℕ
  out : List StringHit
  returned : Bool

/-- One pass of the outer loop, `none` where it ends. -/
def utf16Step (data : List UInt8) (minLen : ℕ) (s : Utf16State) : Option Utf16State :=
  if s.returned then none
  else if s.i + 1 < data.length then
    if pairAt data s.i then
      let start := s.i
      let (i, cur) := Loop.run (unitStep data) data.length (s.i, [])
      let out := if cur.length ≥ minLen then pushRun s.out start "utf16le" cur else s.out
      some ⟨i, out, out.length ≥ MAX_STRINGS⟩
    else some { s with i := s.i + 1 }
  else none

/-- Each pass moves on, so `data.length` passes are enough (`utf16Run_exits`), and as many of
the inner loop (`unitRun_exits`). -/
def extractUtf16le (data : List UInt8) (minLen : ℕ) (out : List StringHit) : List StringHit :=
  (Loop.run (utf16Step data minLen) data.length ⟨0, out, false⟩).out

end Strings

open Strings

/-- The strings of at least `minLen` characters, `minLen` clamped to 1. -/
def strings (bytes : List UInt8) (minLen : ℕ) : List StringHit :=
  let minLen := max minLen 1
  let data := bytes.take MAX_SCAN_BYTES
  let out := extractAscii data minLen []
  let out := extractUtf16le data minLen out
  out.take MAX_STRINGS

example : strings [0x00, 0x6f, 0x6b, 0x00, 0x68, 0x00, 0x69, 0x00] 2 =
    [⟨1, "ascii", "ok"⟩, ⟨2, "utf16le", "khi"⟩] := by decide

end VgiDisasm
