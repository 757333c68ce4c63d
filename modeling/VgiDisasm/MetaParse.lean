import Mathlib.Data.List.DropRight
import VgiDisasm.Meta

/-!
# The metadata is JSON

The encoders replace one character after the other; `esc_eq` is the one pass that comes to the
same, and from there the texts are those the JSON readers invert.  Two results: which lists of
keywords come back from the tag of their comma-separated text (`objectTags_keywords_iff`), and
which rows come back from the four object encoders (`objects_parse_iff`).
-/

namespace VgiDisasm

open VgiDisasm.Text VgiDisasm.Json

namespace Meta

/-! ### Escaping -/

theorem toList_replace (s : String) (c : Char) (new : String) :
    (replace s c new).toList = s.toList.flatMap fun x => if x = c then new.toList else [x] :=
  String.toList_ofList

/-- **Successive replacements are one pass**, backslashes being replaced first. -/
theorem toList_esc (newline : Bool) (s : String) :
    (esc newline s).toList = s.toList.flatMap (escape newline) := by
  have hpass : ∀ x : Char, ((if x = '\\' then "\\\\".toList else [x]).flatMap fun y =>
      if y = '"' then "\\\"".toList else [y]) = escape false x := by
    intro x
    unfold escape
    by_cases hback : x = '\\'
    · rw [if_pos hback, if_pos hback]
      decide
    · rw [if_neg hback, if_neg hback, List.flatMap_singleton, Bool.false_and,
        if_neg Bool.false_ne_true]
      rfl
  have hline : ∀ x : Char, ((escape false x).flatMap fun y =>
      if y = '\n' then "\\n".toList else [y]) = escape true x := by
    intro x
    unfold escape
    by_cases hback : x = '\\'
    · rw [if_pos hback, if_pos hback]
      decide
    by_cases hquote : x = '"'
    · rw [if_neg hback, if_neg hback, if_pos hquote, if_pos hquote]
      decide
    · rw [if_neg hback, if_neg hback, if_neg hquote, if_neg hquote, Bool.false_and,
        if_neg Bool.false_ne_true, List.flatMap_singleton, Bool.true_and]
      simp only [beq_iff_eq]
      rfl
  have htwo : (replace (replace s '\\' "\\\\") '"' "\\\"").toList =
      s.toList.flatMap (escape false) := by
    rw [toList_replace, toList_replace, List.flatMap_assoc]
    exact congrArg (List.flatMap · s.toList) (funext hpass)
  cases newline with
  | false =>
    simp only [esc, Bool.false_eq_true, if_false]
    exact htwo
  | true =>
    simp only [esc, if_true]
    rw [toList_replace, htwo, List.flatMap_assoc]
    exact congrArg (List.flatMap · s.toList) (funext hline)

theorem toList_quoted (newline : Bool) (s : String) :
    ("\"" ++ esc newline s ++ "\"").toList = quote newline s.toList := by
  rw [String.toList_append, String.toList_append, toList_esc]
  rfl

theorem toList_join (parts : List String) (sep : String) :
    (join parts sep).toList = List.intercalate sep.toList (parts.map String.toList) :=
  String.toList_ofList

theorem toList_array (items : List String) :
    (array items).toList = writeArray String.toList items := by
  rw [array, String.toList_append, String.toList_append, toList_join]
  rfl

theorem toList_object (newline : Bool) (fields : List (String × String)) :
    (object newline fields).toList =
      '{' :: writeList (fun f : String × String =>
        '"' :: (f.1.toList ++ '"' :: ':' :: quote newline f.2.toList)) '}' fields := by
  have hfield : ∀ f : String × String,
      ("\"" ++ f.1 ++ "\":\"" ++ esc newline f.2 ++ "\"").toList =
        '"' :: (f.1.toList ++ '"' :: ':' :: quote newline f.2.toList) := by
    intro f
    simp only [String.toList_append, toList_esc, List.append_assoc]
    rfl
  rw [object, String.toList_append, String.toList_append, toList_join, List.map_map,
    writeList]
  simp only [Function.comp_def, hfield]
  rfl

/-! ### Arrays of strings -/

/-- An array of strings, read back. -/
def parseStrings (text : String) : Option (List String) :=
  (parse (readArray readString) text.toList).map fun ss => ss.map String.ofList

theorem map_ofList_toList (ss : List String) : (ss.map String.toList).map String.ofList = ss := by
  rw [List.map_map]
  conv_rhs => rw [← List.map_id ss]
  apply List.map_congr_left
  intro s _
  exact String.ofList_toList

/-- Quoted strings in an array come back, all or none. -/
theorem parseStrings_array (newline : Bool) (ss : List String) :
    parseStrings (array (ss.map fun s => "\"" ++ esc newline s ++ "\"")) =
      if ss.all fun s => quotable newline s.toList then some ss else none := by
  have hinverts := (inverts_quote newline).array fun _ => ⟨_, _, rfl, by decide⟩
  have htext : (array (ss.map fun s => "\"" ++ esc newline s ++ "\"")).toList =
      writeArray (quote newline) (ss.map String.toList) := by
    rw [toList_array, writeArray_map, writeArray_map]
    simp only [toList_quoted]
  rw [parseStrings, htext, hinverts.parse_eq, List.all_map]
  show (if ss.all (fun s => quotable newline s.toList) then _ else _ : Option _).map _ = _
  cases ss.all fun s => quotable newline s.toList with
  | false => rfl
  | true => exact congrArg some (map_ofList_toList ss)

/-! ### Keywords -/

theorem trimEnd_eq (p : Char → Bool) (cs : List Char) : trimEnd p cs = cs.rdropWhile p := rfl

/-- What is trimmed has nothing left to trim. -/
theorem trim_trim (s : String) : trim (trim s) = trim s := by
  have hfront : ∀ cs : List Char, cs <+: s.toList.dropWhile isWhitespace →
      cs.dropWhile isWhitespace = cs := by
    intro cs hcs
    cases cs with
    | nil => rfl
    | cons c cs =>
      obtain ⟨tail, htail⟩ := hcs
      have hhead := List.head?_dropWhile_not isWhitespace s.toList
      rw [← htail] at hhead
      exact List.dropWhile_cons_of_neg (by simpa using hhead)
  unfold trim
  rw [String.toList_ofList]
  simp only [trimEnd_eq]
  rw [hfront _ (List.rdropWhile_prefix _ _), List.rdropWhile_idempotent]

theorem mem_of_mem_trim {s : String} {c : Char} (h : c ∈ (trim s).toList) : c ∈ s.toList := by
  rw [trim, String.toList_ofList, trimEnd_eq] at h
  exact (List.dropWhile_sublist _).subset ((List.rdropWhile_prefix _ _).subset h)

theorem not_mem_of_mem_splitOn {c : Char} {cs : List Char} : ∀ piece ∈ cs.splitOn c, c ∉ piece := by
  induction cs with
  | nil =>
    intro piece hpiece
    rw [List.splitOn_nil, List.mem_singleton] at hpiece
    rw [hpiece]
    exact List.not_mem_nil
  | cons x cs ih =>
    intro piece hpiece
    rw [List.splitOn_cons_eq_if_modifyHead] at hpiece
    split at hpiece
    · rcases List.mem_cons.mp hpiece with rfl | hpiece
      · exact List.not_mem_nil
      · exact ih piece hpiece
    · rename_i hx
      obtain ⟨y, ys, hys⟩ := List.exists_cons_of_ne_nil (List.splitOn_ne_nil c cs)
      rw [hys] at ih hpiece
      rcases List.mem_cons.mp hpiece with rfl | hpiece
      · rw [List.mem_cons, not_or]
        refine ⟨fun heq => hx (beq_iff_eq.mpr heq.symm), ih y List.mem_cons_self⟩
      · exact ih piece (List.mem_cons_of_mem y hpiece)

/-- The keyword survives splitting at commas and trimming. -/
structure Clean (k : String) : Prop where
  ne_empty : k ≠ ""
  trimmed : trim k = k
  comma : ',' ∉ k.toList

theorem clean_of_mem {s k : String} (h : k ∈ keywordList s) : Clean k := by
  obtain ⟨hmem, hne⟩ := List.mem_filter.mp h
  obtain ⟨piece, hpiece, rfl⟩ := List.mem_map.mp hmem
  obtain ⟨cs, hcs, rfl⟩ := List.mem_map.mp hpiece
  refine ⟨by simpa using hne, trim_trim _, fun hcomma => ?_⟩
  have hin := mem_of_mem_trim hcomma
  rw [String.toList_ofList] at hin
  exact not_mem_of_mem_splitOn cs hcs hin

theorem keywordList_of_clean {k : String} (h : Clean k) : keywordList k = [k] := by
  rw [keywordList, split, List.splitOn_eq_singleton h.comma, List.map_singleton,
    List.map_singleton, String.ofList_toList, h.trimmed]
  exact List.filter_cons_of_pos (by simpa using h.ne_empty)

/-- The keywords of joined texts are those of each text. -/
theorem keywordList_join (ks : List String) :
    keywordList (join ks ",") = ks.flatMap keywordList := by
  induction ks with
  | nil => decide
  | cons k ks ih =>
    cases ks with
    | nil =>
      rw [List.flatMap_singleton, join, List.map_singleton, List.intercalate_singleton,
        String.ofList_toList]
    | cons k' ks =>
      have hcomma : (join (k :: k' :: ks) ",").toList =
          k.toList ++ ',' :: (join (k' :: ks) ",").toList := by
        rw [toList_join, toList_join, List.map_cons, List.map_cons, List.intercalate_cons_cons,
          List.append_assoc]
        rfl
      rw [List.flatMap_cons, ← ih, keywordList, split, hcomma, List.splitOn_append_cons_self,
        List.map_append, List.map_append, List.filter_append]
      rfl

theorem flatMap_keywordList_iff (ks : List String) :
    ks.flatMap keywordList = ks ↔ ∀ k ∈ ks, Clean k := by
  constructor
  · intro heq k hk
    rw [← heq] at hk
    obtain ⟨s, -, hmem⟩ := List.mem_flatMap.mp hk
    exact clean_of_mem hmem
  · intro h
    induction ks with
    | nil => rfl
    | cons k ks ih =>
      obtain ⟨hk, hks⟩ := List.forall_mem_cons.mp h
      rw [List.flatMap_cons, keywordList_of_clean hk, ih hks]
      rfl

theorem parse_keywordsJson (keywords : String) :
    parseStrings (keywordsJson keywords) =
      if (keywordList keywords).all fun k => quotable false k.toList then
        some (keywordList keywords)
      else none :=
  parseStrings_array false (keywordList keywords)

/-- **Which keywords survive.**  The tag of a list of keywords is the JSON array of that list
exactly if every keyword is non-empty, trimmed, without commas and without control characters. -/
theorem objectTags_keywords_iff (title llm md category : String) (ks : List String) :
    ((objectTags title llm md ks category).lookup "vgi.keywords").bind parseStrings = some ks ↔
      ∀ k ∈ ks, Clean k ∧ quotable false k.toList = true := by
  have hlookup : (objectTags title llm md ks category).lookup "vgi.keywords" =
      some (keywordsJson (join ks ",")) := by
    rfl
  rw [hlookup, Option.bind_some, parse_keywordsJson, keywordList_join]
  constructor
  · intro hparse
    split at hparse
    · rename_i hall
      have heq := Option.some.inj hparse
      rw [heq] at hall
      intro k hk
      exact ⟨(flatMap_keywordList_iff ks).mp heq k hk, List.all_eq_true.mp hall k hk⟩
    · cases hparse
  · intro h
    have heq := (flatMap_keywordList_iff ks).mpr fun k hk => (h k hk).1
    rw [heq]
    exact if_pos (List.all_eq_true.mpr fun k hk => (h k hk).2)

/-! ### Objects -/

/-- An array of objects of strings, read back. -/
def parseObjects (text : String) : Option (List (List (String × String))) :=
  (parse (readArray readObject) text.toList).map fun os =>
    os.map fun ms => ms.map fun m => (String.ofList m.1, String.ofList m.2)

/-- A key that stands in a format string as it is. -/
def PlainKey (newline : Bool) (key : String) : Prop :=
  key.toList.flatMap (escape newline) = key.toList ∧ quotable newline key.toList = true

instance (newline : Bool) (key : String) : Decidable (PlainKey newline key) :=
  inferInstanceAs (Decidable (_ ∧ _))

/-- The members of an object. -/
def members (fields : List (String × String)) : List Member :=
  fields.map fun f => (f.1.toList, f.2.toList)

theorem toList_object_plain {newline : Bool} {fields : List (String × String)}
    (hkeys : ∀ f ∈ fields, PlainKey newline f.1) :
    (object newline fields).toList = writeObject newline (members fields) := by
  have hmember : ∀ f ∈ fields, '"' :: (f.1.toList ++ '"' :: ':' :: quote newline f.2.toList) =
      writeMember newline (f.1.toList, f.2.toList) := by
    intro f hf
    show _ = '"' :: (f.1.toList.flatMap (escape newline) ++ ['"']) ++ ':' :: quote newline _
    rw [(hkeys f hf).1, List.cons_append, List.append_assoc]
    rfl
  rw [toList_object, writeObject, members, writeList, writeList, List.map_map,
    List.map_congr_left hmember]
  rfl

theorem all_members {newline : Bool} {fields : List (String × String)}
    (hkeys : ∀ f ∈ fields, PlainKey newline f.1) :
    ((members fields).all (memberQuotable newline) = true) ↔
      ∀ f ∈ fields, quotable newline f.2.toList = true := by
  rw [members, List.all_map, List.all_eq_true]
  constructor
  · intro h f hf
    exact (Bool.and_eq_true_iff.mp (h f hf)).2
  · intro h f hf
    exact Bool.and_eq_true_iff.mpr ⟨(hkeys f hf).2, h f hf⟩

theorem ofList_members (rows : List (List (String × String))) :
    ((rows.map members).map fun ms => ms.map fun m => (String.ofList m.1, String.ofList m.2)) =
      rows := by
  have hrow : ∀ fields : List (String × String),
      (members fields).map (fun m => (String.ofList m.1, String.ofList m.2)) = fields := by
    intro fields
    rw [members, List.map_map]
    conv_rhs => rw [← List.map_id fields]
    apply List.map_congr_left
    rintro ⟨key, value⟩ _
    exact Prod.ext String.ofList_toList String.ofList_toList
  rw [List.map_map]
  conv_rhs => rw [← List.map_id rows]
  apply List.map_congr_left
  intro fields _
  exact hrow fields

/-- Rows of fields with plain keys come back, all or none. -/
theorem parseObjects_array {newline : Bool} {rows : List (List (String × String))}
    (hkeys : ∀ fs ∈ rows, ∀ f ∈ fs, PlainKey newline f.1) :
    parseObjects (array (rows.map (object newline))) = some rows ↔
      ∀ fs ∈ rows, ∀ f ∈ fs, quotable newline f.2.toList = true := by
  have hinverts := (inverts_object newline).array fun _ => ⟨_, _, rfl, by decide⟩
  have htext : (array (rows.map (object newline))).toList =
      writeArray (writeObject newline) (rows.map members) := by
    rw [toList_array, writeArray_map, writeArray_map, writeArray, writeArray, writeList, writeList]
    rw [List.map_congr_left fun fs hfs => toList_object_plain (hkeys fs hfs)]
  have hall : ((rows.map members).all fun ms => ms.all (memberQuotable newline)) = true ↔
      ∀ fs ∈ rows, ∀ f ∈ fs, quotable newline f.2.toList = true := by
    rw [List.all_map, List.all_eq_true]
    constructor
    · intro h fs hfs
      exact (all_members (hkeys fs hfs)).mp (h fs hfs)
    · intro h fs hfs
      exact (all_members (hkeys fs hfs)).mpr (h fs hfs)
  rw [← hall, parseObjects, htext, hinverts.parse_eq]
  cases (rows.map members).all fun ms => ms.all (memberQuotable newline) with
  | false => simp
  | true =>
    rw [if_pos rfl, Option.map_some, ofList_members]
    exact iff_of_true rfl rfl

/-- The four encoders of objects, for rows of any type. -/
theorem parseObjects_map {γ : Type*} {newline : Bool} {fields : γ → List (String × String)}
    (hkeys : ∀ x, ∀ f ∈ fields x, PlainKey newline f.1) (xs : List γ) :
    parseObjects (array (xs.map fun x => object newline (fields x))) = some (xs.map fields) ↔
      ∀ x ∈ xs, ∀ f ∈ fields x, quotable newline f.2.toList = true := by
  have hrows : ∀ fs ∈ xs.map fields, ∀ f ∈ fs, PlainKey newline f.1 := by
    intro fs hfs
    obtain ⟨x, -, rfl⟩ := List.mem_map.mp hfs
    exact hkeys x
  have hparse := parseObjects_array hrows
  rw [List.map_map, List.forall_mem_map] at hparse
  exact hparse

/-- **What the object encoders write is the JSON of their rows** exactly if no value has a control
character; tasks and example queries may have newlines. -/
theorem objects_parse_iff :
    (∀ tasks, parseObjects (agentTestTasksJson tasks) = some (tasks.map taskFields) ↔
      ∀ t ∈ tasks, ∀ f ∈ taskFields t, quotable true f.2.toList = true) ∧
    (∀ examples, parseObjects (exampleQueriesJson examples) = some (examples.map exampleFields) ↔
      ∀ e ∈ examples, ∀ f ∈ exampleFields e, quotable true f.2.toList = true) ∧
    (∀ columns, parseObjects (resultColumnsSchemaJson columns) =
        some (columns.map columnFields) ↔
      ∀ c ∈ columns, ∀ f ∈ columnFields c, quotable false f.2.toList = true) ∧
    (∀ categories, parseObjects (categoriesJson categories) =
        some (categories.map categoryFields) ↔
      ∀ c ∈ categories, ∀ f ∈ categoryFields c, quotable false f.2.toList = true) := by
  have hkeys : ∀ newline : Bool, ∀ key ∈ ["name", "prompt", "reference_sql", "type",
      "description", "sql"], PlainKey newline key := by
    decide
  have htasks : ∀ t, ∀ f ∈ taskFields t, PlainKey true f.1 := by
    rintro ⟨name, prompt, referenceSql⟩ f hf
    apply hkeys
    simp only [taskFields, List.mem_cons, List.not_mem_nil, or_false] at hf
    rcases hf with rfl | rfl | rfl <;> simp
  have hexamples : ∀ e, ∀ f ∈ exampleFields e, PlainKey true f.1 := by
    rintro ⟨description, sql⟩ f hf
    apply hkeys
    simp only [exampleFields, List.mem_cons, List.not_mem_nil, or_false] at hf
    rcases hf with rfl | rfl <;> simp
  have hcolumns : ∀ c, ∀ f ∈ columnFields c, PlainKey false f.1 := by
    rintro ⟨name, ty, description⟩ f hf
    apply hkeys
    simp only [columnFields, List.mem_cons, List.not_mem_nil, or_false] at hf
    rcases hf with rfl | rfl | rfl <;> simp
  have hcategories : ∀ c, ∀ f ∈ categoryFields c, PlainKey false f.1 := by
    rintro ⟨name, description⟩ f hf
    apply hkeys
    simp only [categoryFields, List.mem_cons, List.not_mem_nil, or_false] at hf
    rcases hf with rfl | rfl <;> simp
  exact ⟨parseObjects_map htasks, parseObjects_map hexamples, parseObjects_map hcolumns,
    parseObjects_map hcategories⟩

end Meta

end VgiDisasm
