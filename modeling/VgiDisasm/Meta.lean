import VgiDisasm.Library.Json
import VgiDisasm.Text

/-!
# Discovery metadata

The tags every function carries are built as JSON text by hand: values escaped by successive
replacements, items joined with commas, brackets around them.
-/

namespace VgiDisasm

open VgiDisasm.Text

namespace Meta

/-! ### The encoders -/

/-- The replacements of the `esc` helpers; some of them have the third one, some not. -/
def esc (newline : Bool) (s : String) : String :=
  let s := replace (replace s '\\' "\\\\") '"' "\\\""
  if newline then replace s '\n' "\\n" else s

/-- `format!("[{}]", items.join(","))`. -/
def array (items : List String) : String := "[" ++ join items "," ++ "]"

/-- The search terms of a comma-separated list. -/
def keywordList (keywords : String) : List String :=
  ((split keywords ',').map trim).filter fun k => k ≠ ""

def keywordsJson (keywords : String) : String :=
  array ((keywordList keywords).map fun k => "\"" ++ esc false k ++ "\"")

/-- The `format!` of one object: literal keys, escaped values. -/
def object (newline : Bool) (fields : List (String × String)) : String :=
  "\x7b" ++ join (fields.map fun f => "\"" ++ f.1 ++ "\":\"" ++ esc newline f.2 ++ "\"") "," ++
    "\x7d"

/-- The fields of a task. -/
def taskFields : String × String × String → List (String × String)
  | (name, prompt, referenceSql) =>
    [("name", name), ("prompt", prompt), ("reference_sql", referenceSql)]

def agentTestTasksJson (tasks : List (String × String × String)) : String :=
  array (tasks.map fun t => object true (taskFields t))

/-- The fields of a result column. -/
def columnFields : String × String × String → List (String × String)
  | (name, ty, description) => [("name", name), ("type", ty), ("description", description)]

def resultColumnsSchemaJson (columns : List (String × String × String)) : String :=
  array (columns.map fun c => object false (columnFields c))

/-- The fields of an example query. -/
def exampleFields : String × String → List (String × String)
  | (description, sql) => [("description", description), ("sql", sql)]

def exampleQueriesJson (examples : List (String × String)) : String :=
  array (examples.map fun e => object true (exampleFields e))

/-- The fields of a category. -/
def categoryFields : String × String → List (String × String)
  | (name, description) => [("name", name), ("description", description)]

def categoriesJson (categories : List (String × String)) : String :=
  array (categories.map fun c => object false (categoryFields c))

def objectTags (title descriptionLlm descriptionMd : String) (keywords : List String)
    (category : String) : List (String × String) :=
  [("vgi.title", title), ("vgi.doc_llm", descriptionLlm), ("vgi.doc_md", descriptionMd),
    ("vgi.keywords", keywordsJson (join keywords ",")), ("vgi.category", category)]

example : objectTags "T" "l" "m" ["a b", "say \"hi\""] "C" =
    [("vgi.title", "T"), ("vgi.doc_llm", "l"), ("vgi.doc_md", "m"),
      ("vgi.keywords", "[\"a b\",\"say \\\"hi\\\"\"]"), ("vgi.category", "C")] := by decide

end Meta

end VgiDisasm
