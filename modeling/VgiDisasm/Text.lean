import Mathlib.Data.List.Infix

/-!
# The `str` operations the engine uses

Rust strings are sequences of Unicode scalar values, as Lean's are; each operation below
is the standard-library one of the same name, on the list of characters.
-/

namespace VgiDisasm.Text

/-- `char::is_whitespace`: the Unicode `White_Space` property. -/
def isWhitespace (c : Char) : Bool :=
  let n := c.toNat
  (0x09 ≤ n && n ≤ 0x0d) || n == 0x20 || n == 0x85 || n == 0xa0 || n == 0x1680 ||
    (0x2000 ≤ n && n ≤ 0x200a) || n == 0x2028 || n == 0x2029 || n == 0x202f || n == 0x205f ||
    n == 0x3000

/-- Drop the trailing characters that satisfy `p`. -/
def trimEnd (p : Char → Bool) (cs : List Char) : List Char := (cs.reverse.dropWhile p).reverse

/-- `str::trim`. -/
def trim (s : String) : String :=
  String.ofList (trimEnd isWhitespace (s.toList.dropWhile isWhitespace))

/-- `str::trim_end_matches` with a single character. -/
def trimEndMatches (s : String) (c : Char) : String :=
  String.ofList (trimEnd (· == c) s.toList)

/-- `str::to_ascii_lowercase`; `Char.toLower` maps `A`–`Z` and nothing else. -/
def toAsciiLowercase (s : String) : String := String.ofList (s.toList.map Char.toLower)

/-- `str::eq_ignore_ascii_case`. -/
def eqIgnoreAsciiCase (s t : String) : Bool := toAsciiLowercase s == toAsciiLowercase t

theorem eqIgnoreAsciiCase_iff {s t : String} :
    eqIgnoreAsciiCase s t = true ↔ s.toList.map Char.toLower = t.toList.map Char.toLower := by
  rw [eqIgnoreAsciiCase, beq_iff_eq, toAsciiLowercase, toAsciiLowercase, String.ofList_inj]

/-- `str::starts_with`. -/
def startsWith (s pat : String) : Bool := pat.toList.isPrefixOf s.toList

/-- `str::contains`. -/
def contains (s pat : String) : Bool := s.toList.tails.any fun t => pat.toList.isPrefixOf t

theorem contains_iff {s pat : String} : contains s pat = true ↔ pat.toList <:+: s.toList := by
  rw [contains, List.any_eq_true, List.infix_iff_prefix_suffix]
  simp only [List.mem_tails, List.isPrefixOf_iff_prefix, and_comm]

theorem contains_toAsciiLowercase_iff {s pat : String} :
    contains (toAsciiLowercase s) pat = true ↔ pat.toList <:+: s.toList.map Char.toLower := by
  rw [contains_iff, toAsciiLowercase, String.toList_ofList]

/-- `s.split(c).next_back()`: the piece after the last `c`, the whole string without one. -/
def splitNextBack (s : String) (c : Char) : String :=
  String.ofList ((s.toList.reverse.takeWhile (· != c)).reverse)

/-- `str::split` at a character, collected. -/
def split (s : String) (c : Char) : List String := (s.toList.splitOn c).map String.ofList

/-- `str::replace` of a character. -/
def replace (s : String) (c : Char) (new : String) : String :=
  String.ofList (s.toList.flatMap fun x => if x = c then new.toList else [x])

/-- `[str]::join`. -/
def join (parts : List String) (sep : String) : String :=
  String.ofList (List.intercalate sep.toList (parts.map String.toList))

/-- `format!("0x{byte:02x}")`. -/
def hexByte (b : UInt8) : String :=
  String.ofList ['0', 'x', Nat.digitChar (b.toNat / 16), Nat.digitChar (b.toNat % 16)]

example : hexByte 0x06 = "0x06" := by decide

example : split "a,,b" ',' = ["a", "", "b"] := by decide

example : splitNextBack "__TEXT,__text" ',' = "__text" := by decide

end VgiDisasm.Text
