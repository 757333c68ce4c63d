import Mathlib.Data.List.Basic
import Mathlib.Data.Nat.Notation

/-!
# Reading JSON text back

Readers for the part of JSON that is made of strings, arrays and objects without white space:
`readString`, `readArray` and `readObject`.  A reader takes a value off the front of a text and
returns what is left.  Strings are read as the grammar has them, with the two-character escapes
and without raw control characters; `\u` escapes are not read.

`Inverts read write ok` says that a reader takes back exactly what a writer wrote: values that
are `ok` are read as themselves, whatever follows, and others are rejected.  It holds of quoted
strings with the common escaping of backslash, quote and maybe newline (`inverts_quote`), and it
passes from items to arrays and objects of them (`Inverts.array`, `inverts_object`).
-/

namespace VgiDisasm.Json

/-- A value off the front of a text, and the rest of the text. -/
abbrev Reader (α : Type*) := List Char → Option (α × List Char)

/-- What a reader makes of a whole text. -/
def parse {α : Type*} (read : Reader α) (text : List Char) : Option α :=
  match read text with
  | some (x, []) => some x
  | _ => none

/-- The reader takes back what the writer wrote, whatever follows, for values that are `ok`, and
rejects the others. -/
def Inverts {α : Type*} (read : Reader α) (write : α → List Char) (ok : α → Bool) : Prop :=
  ∀ x rest, read (write x ++ rest) = if ok x then some (x, rest) else none

theorem Inverts.parse_eq {α : Type*} {read : Reader α} {write : α → List Char} {ok : α → Bool}
    (h : Inverts read write ok) (x : α) :
    parse read (write x) = if ok x then some x else none := by
  have hread := h x []
  rw [List.append_nil] at hread
  rw [parse, hread]
  cases ok x <;> rfl

/-! ### Strings -/

/-- The control characters, which a JSON string cannot have as they are. -/
def isControl (c : Char) : Bool := c.toNat < 0x20

/-- The character of a two-character escape. -/
def unescape : Char → Option Char
  | '"' => some '"'
  | '\\' => some '\\'
  | '/' => some '/'
  | 'b' => some (Char.ofNat 0x08)
  | 'f' => some (Char.ofNat 0x0c)
  | 'n' => some '\n'
  | 'r' => some '\r'
  | 't' => some '\t'
  | _ => none

/-- The characters up to the closing quote. -/
def readChars : Reader (List Char)
  | [] => none
  | c :: rest =>
    if c = '"' then some ([], rest)
    else if c = '\\' then
      match rest with
      | [] => none
      | e :: rest =>
        (unescape e).bind fun c => (readChars rest).map fun r => (c :: r.1, r.2)
    else if isControl c then none
    else (readChars rest).map fun r => (c :: r.1, r.2)

def readString : Reader (List Char)
  | '"' :: rest => readChars rest
  | _ => none

/-- Backslash and quote escaped, and newline if `newline` is set. -/
def escape (newline : Bool) (c : Char) : List Char :=
  if c = '\\' then ['\\', '\\']
  else if c = '"' then ['\\', '"']
  else if newline && c == '\n' then ['\\', 'n']
  else [c]

def quote (newline : Bool) (s : List Char) : List Char := '"' :: (s.flatMap (escape newline) ++ ['"'])

/-- What the quotation keeps: no control character but an escaped newline. -/
def quotable (newline : Bool) (s : List Char) : Bool :=
  s.all fun c => !isControl c || (newline && c == '\n')

theorem readChars_quote (rest : List Char) : readChars ('"' :: rest) = some ([], rest) := by
  cases rest <;> rfl

theorem readChars_escaped {e c : Char} (h : unescape e = some c) (rest : List Char) :
    readChars ('\\' :: e :: rest) = (readChars rest).map fun r => (c :: r.1, r.2) := by
  show (unescape e).bind _ = _
  rw [h, Option.bind_some]

theorem readChars_plain {c : Char} (hquote : c ≠ '"') (hback : c ≠ '\\') (rest : List Char) :
    readChars (c :: rest) =
      if isControl c then none else (readChars rest).map fun r => (c :: r.1, r.2) := by
  cases rest <;> simp only [readChars, if_neg hquote, if_neg hback]

/-- One character, escaped, read. -/
theorem readChars_escape (newline : Bool) (c : Char) (rest : List Char) :
    readChars (escape newline c ++ rest) =
      if !isControl c || (newline && c == '\n') then
        (readChars rest).map fun r => (c :: r.1, r.2)
      else none := by
  unfold escape
  by_cases hback : c = '\\'
  · rw [if_pos hback, hback]
    exact readChars_escaped rfl rest
  by_cases hquote : c = '"'
  · rw [if_neg hback, if_pos hquote, hquote]
    exact readChars_escaped rfl rest
  rw [if_neg hback, if_neg hquote]
  cases hline : newline && c == '\n' with
  | true =>
    obtain ⟨-, hc⟩ := Bool.and_eq_true_iff.mp hline
    rw [Bool.or_true, if_pos rfl, if_pos rfl, beq_iff_eq.mp hc]
    exact readChars_escaped rfl rest
  | false =>
    rw [if_neg Bool.false_ne_true, Bool.or_false, List.singleton_append,
      readChars_plain hquote hback]
    cases isControl c <;> rfl

/-- **A quoted string reads back**, unless it has a control character that is not escaped. -/
theorem inverts_quote (newline : Bool) : Inverts readString (quote newline) (quotable newline) := by
  intro s rest
  show readChars (s.flatMap (escape newline) ++ ['"'] ++ rest) = _
  rw [List.append_assoc, List.singleton_append]
  induction s with
  | nil => exact readChars_quote rest
  | cons c s ih =>
    have hall : quotable newline (c :: s) =
        ((!isControl c || (newline && c == '\n')) && quotable newline s) := List.all_cons
    rw [List.flatMap_cons, List.append_assoc, readChars_escape, ih, hall]
    cases !isControl c || (newline && c == '\n') with
    | false => rfl
    | true => cases quotable newline s <;> rfl

/-! ### Items between brackets -/

variable {α : Type*}

/-- Items separated by commas, up to the closing character.  Each pass reads an item, so the
length of the text is fuel enough. -/
def readItems (item : Reader α) (close : Char) : ℕ → Reader (List α)
  | 0, _ => none
  | fuel + 1, text =>
    (item text).bind fun r =>
      match r.2 with
      | [] => none
      | c :: rest =>
        if c = close then some ([r.1], rest)
        else if c = ',' then (readItems item close fuel rest).map fun rs => (r.1 :: rs.1, rs.2)
        else none

/-- No item, or items. -/
def readList (item : Reader α) (close : Char) : Reader (List α)
  | [] => none
  | c :: rest =>
    if c = close then some ([], rest) else readItems item close (c :: rest).length (c :: rest)

/-- The text of items up to the closing character. -/
def writeList (write : α → List Char) (close : Char) (xs : List α) : List Char :=
  List.intercalate [','] (xs.map write) ++ [close]

def readArray (item : Reader α) : Reader (List α)
  | '[' :: rest => readList item ']' rest
  | _ => none

def writeArray (write : α → List Char) (xs : List α) : List Char :=
  '[' :: writeList write ']' xs

theorem writeArray_map {γ : Type*} (f : γ → α) (write : α → List Char) (xs : List γ) :
    writeArray write (xs.map f) = writeArray (fun x => write (f x)) xs := by
  rw [writeArray, writeArray, writeList, writeList, List.map_map]
  rfl

section Items

variable {item : Reader α} {write : α → List Char} {ok : α → Bool} {close : Char}

theorem writeList_singleton (write : α → List Char) (close : Char) (x : α) :
    writeList write close [x] = write x ++ [close] := by
  rw [writeList, List.map_singleton, List.intercalate_singleton]

theorem writeList_cons_cons (write : α → List Char) (close : Char) (x y : α) (xs : List α) :
    writeList write close (x :: y :: xs) = write x ++ ',' :: writeList write close (y :: xs) := by
  rw [writeList, List.map_cons, List.map_cons, List.intercalate_cons_cons, ← List.map_cons,
    List.append_assoc, List.append_assoc, List.singleton_append]
  rfl

/-- The items read back one by one; the first that is rejected ends the reading. -/
theorem readItems_writeList (h : Inverts item write ok) (hclose : ',' ≠ close) (xs : List α)
    (hne : xs ≠ []) (rest : List Char) : ∀ fuel, xs.length ≤ fuel →
      readItems item close fuel (writeList write close xs ++ rest) =
        if xs.all ok then some (xs, rest) else none := by
  induction xs with
  | nil => exact absurd rfl hne
  | cons x xs ih =>
    intro fuel hfuel
    cases fuel with
    | zero => exact absurd hfuel (Nat.not_succ_le_zero _)
    | succ fuel =>
      have hlen : xs.length ≤ fuel := Nat.le_of_succ_le_succ hfuel
      cases xs with
      | nil =>
        rw [writeList_singleton, List.append_assoc, readItems, h x]
        cases hx : ok x with
        | false => simp [hx]
        | true => simp [hx]
      | cons y ys =>
        rw [writeList_cons_cons, List.append_assoc, readItems, h x, List.all_cons]
        cases ok x with
        | false => simp
        | true =>
          have htail := ih (List.cons_ne_nil y ys) fuel hlen
          simp only [if_pos, Option.bind_some, List.cons_append, if_neg hclose, Bool.true_and]
          rw [htail]
          split <;> rfl

theorem length_le_writeList (hhead : ∀ x, ∃ c cs, write x = c :: cs ∧ c ≠ close)
    (xs : List α) : xs.length ≤ (writeList write close xs).length := by
  induction xs with
  | nil => exact Nat.zero_le _
  | cons x xs ih =>
    obtain ⟨c, cs, hc, -⟩ := hhead x
    cases xs with
    | nil =>
      rw [writeList_singleton, List.length_append]
      exact Nat.le_add_left 1 _
    | cons y ys =>
      rw [writeList_cons_cons]
      simp only [List.length_append, List.length_cons] at ih ⊢
      omega

/-- **Lists of items read back** exactly if every item does, unless an item can be mistaken for
the end. -/
theorem inverts_list (h : Inverts item write ok) (hclose : ',' ≠ close)
    (hhead : ∀ x, ∃ c cs, write x = c :: cs ∧ c ≠ close) :
    Inverts (readList item close) (writeList write close) (fun xs => xs.all ok) := by
  intro xs rest
  cases xs with
  | nil =>
    show (if close = close then some (([] : List α), rest) else _) = _
    rw [if_pos rfl]
    rfl
  | cons x xs =>
    have hlen := length_le_writeList hhead (x :: xs)
    have hitems := readItems_writeList h hclose (x :: xs) (List.cons_ne_nil x xs) rest
      (writeList write close (x :: xs) ++ rest).length (by rw [List.length_append]; omega)
    rw [← hitems]
    obtain ⟨c, cs, hc, hne⟩ := hhead x
    obtain ⟨tail, htail⟩ : ∃ tail, writeList write close (x :: xs) = c :: tail := by
      cases xs with
      | nil => exact ⟨_, by rw [writeList_singleton, hc, List.cons_append]⟩
      | cons y ys => exact ⟨_, by rw [writeList_cons_cons, hc, List.cons_append]⟩
    rw [htail]
    exact if_neg hne

theorem Inverts.array (h : Inverts item write ok)
    (hhead : ∀ x, ∃ c cs, write x = c :: cs ∧ c ≠ ']') :
    Inverts (readArray item) (writeArray write) (fun xs => xs.all ok) :=
  fun xs rest => inverts_list h (by decide) hhead xs rest

end Items

/-! ### Objects of strings -/

/-- A key and a string value. -/
abbrev Member := List Char × List Char

def readMember : Reader Member := fun text =>
  (readString text).bind fun key =>
    match key.2 with
    | ':' :: rest => (readString rest).map fun value => ((key.1, value.1), value.2)
    | _ => none

def writeMember (newline : Bool) (m : Member) : List Char :=
  quote newline m.1 ++ ':' :: quote newline m.2

def memberQuotable (newline : Bool) (m : Member) : Bool :=
  quotable newline m.1 && quotable newline m.2

def readObject : Reader (List Member)
  | '{' :: rest => readList readMember '}' rest
  | _ => none

def writeObject (newline : Bool) (ms : List Member) : List Char :=
  '{' :: writeList (writeMember newline) '}' ms

theorem inverts_member (newline : Bool) :
    Inverts readMember (writeMember newline) (memberQuotable newline) := by
  rintro ⟨key, value⟩ rest
  show readMember (quote newline key ++ ':' :: quote newline value ++ rest) =
    if quotable newline key && quotable newline value then some ((key, value), rest) else none
  rw [List.append_assoc, List.cons_append, readMember, inverts_quote newline key]
  cases quotable newline key with
  | false => rfl
  | true =>
    show (readString (quote newline value ++ rest)).map _ = _
    rw [inverts_quote newline value]
    cases quotable newline value <;> rfl

/-- **Objects of strings read back** exactly if their keys and values do. -/
theorem inverts_object (newline : Bool) :
    Inverts readObject (writeObject newline) (fun ms => ms.all (memberQuotable newline)) :=
  fun ms rest => inverts_list (inverts_member newline) (by decide)
    (fun _ => ⟨_, _, rfl, by decide⟩) ms rest

end VgiDisasm.Json
