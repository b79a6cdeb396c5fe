import FacetedSearch.Toml.Value

/-!
# Tables in TOML

How the entries and headers of a document make up tables. A header opens a table, a longer header
or a key with points implies the tables on its way, and an array of tables gets one more item with
each header of its own. No name is given twice: a table may be opened by one header only, a value
is never added to once it stands, and a table made by a key with points grows by such keys alone.
-/

namespace FacetedSearch.Toml

/-- A key: the tables on its way, and the name of the value. -/
structure Key where
  path : List String
  name : String
  deriving DecidableEq, Repr

/-- The same key inside a table. -/
def Key.under (k : Key) (table : String) : Key :=
  { k with path := table :: k.path }

/-- A key with its value. -/
structure Assignment where
  key : Key
  value : Value

/-- What a header opens. -/
inductive HeaderKind where
  | table
  | item
  deriving DecidableEq, Repr

/-- A header. -/
structure Header where
  key : Key
  kind : HeaderKind
  deriving DecidableEq, Repr

/-- A line of a document. -/
inductive Statement where
  | assign (a : Assignment)
  | header (h : Header)

/-- What brought a table about. -/
inductive Origin where
  /-- Its own header. -/
  | header
  /-- The header of a table inside it. -/
  | implied
  /-- A key with points. -/
  | dotted
  deriving DecidableEq, Repr

/-- An entry of a table that is still being put together. -/
inductive Node where
  | value (v : Value)
  | table (origin : Origin) (entries : List (String × Node))
  | items (tables : List (List (String × Node)))

/-- The entries of a table that is still being put together. -/
abbrev Entries := List (String × Node)

/-- Put another node in place of that of a name. -/
def Entries.replace (entries : Entries) (name : String) (node : Node) : Entries :=
  entries.map fun (n, old) => if n = name then (n, node) else (n, old)

/-- Change the last element of a list. -/
def changeLast? {α : Type} (change : α → Option α) : List α → Option (List α)
  | [] => none
  | [a] => (change a).map ([·])
  | a :: rest => (changeLast? change rest).map (a :: ·)

/-- Add a value below a key with points. -/
def insertAt? (name : String) (v : Value) : List String → Entries → Option Entries
  | [], entries =>
    if (entries.lookup name).isSome then none else some (entries ++ [(name, .value v)])
  | table :: path, entries =>
    match entries.lookup table with
    | none => (insertAt? name v path []).map fun sub => entries ++ [(table, .table .dotted sub)]
    | some (.table .dotted sub) =>
      (insertAt? name v path sub).map fun sub => entries.replace table (.table .dotted sub)
    | some (.table .implied sub) =>
      if path.isEmpty then none
      else (insertAt? name v path sub).map fun sub => entries.replace table (.table .implied sub)
    | some (.items tables) =>
      if path.isEmpty then none
      else
        (changeLast? (insertAt? name v path) tables).map fun tables =>
          entries.replace table (.items tables)
    | some (.table .header _) => none
    | some (.value _) => none

/-- Add an entry to a table. -/
def insert? (entries : Entries) (a : Assignment) : Option Entries :=
  insertAt? a.key.name a.value a.key.path entries

/-- Change a table inside another; the tables on the way to it are implied. -/
def changeAt? (change : Entries → Option Entries) : List String → Entries → Option Entries
  | [], entries => change entries
  | table :: path, entries =>
    match entries.lookup table with
    | none => (changeAt? change path []).map fun sub => entries ++ [(table, .table .implied sub)]
    | some (.table origin sub) =>
      (changeAt? change path sub).map fun sub => entries.replace table (.table origin sub)
    | some (.items tables) =>
      (changeLast? (changeAt? change path) tables).map fun tables =>
        entries.replace table (.items tables)
    | some (.value _) => none

/-- Open the table of a header with the entries that stand under it. -/
def openTable? (kind : HeaderKind) (name : String) (body : List Assignment) (entries : Entries) :
    Option Entries :=
  match kind, entries.lookup name with
  | .table, none => (body.foldlM insert? []).map fun sub => entries ++ [(name, .table .header sub)]
  | .table, some (.table .implied sub) =>
    (body.foldlM insert? sub).map fun sub => entries.replace name (.table .header sub)
  | .item, none => (body.foldlM insert? []).map fun sub => entries ++ [(name, .items [sub])]
  | .item, some (.items tables) =>
    (body.foldlM insert? []).map fun sub => entries.replace name (.items (tables ++ [sub]))
  | _, _ => none

/-- A header with the entries that stand under it. -/
structure Section where
  header : Header
  body : List Assignment

/-- The entries in front of the first header, and the sections of a document. -/
def sections : List Statement → List Assignment × List Section
  | [] => ([], [])
  | .assign a :: rest =>
    let (front, later) := sections rest
    (a :: front, later)
  | .header h :: rest =>
    let (body, later) := sections rest
    ([], { header := h, body } :: later)

/-- Add a section to a document. -/
def addSection? (entries : Entries) (s : Section) : Option Entries :=
  changeAt? (openTable? s.header.kind s.header.key.name s.body) s.header.key.path entries

mutual

/-- The value of a node. -/
def Node.toValue : Node → Value
  | .value v => v
  | .table _ entries => .table (toEntries entries)
  | .items tables => .array (toTables tables)

/-- The values of the entries of a table. -/
def toEntries : List (String × Node) → List (String × Value)
  | [] => []
  | (name, node) :: rest => (name, node.toValue) :: toEntries rest

/-- The values of the tables in an array. -/
def toTables : List (List (String × Node)) → List Value
  | [] => []
  | entries :: rest => .table (toEntries entries) :: toTables rest

end

/-- The table of the entries of an inline table. -/
def inlineTable? (body : List Assignment) : Option (List (String × Value)) :=
  (body.foldlM insert? []).map toEntries

/-- The table of a whole document. -/
def document? (statements : List Statement) : Option (List (String × Value)) := do
  let (front, rest) := sections statements
  let entries ← front.foldlM insert? []
  let entries ← rest.foldlM addSection? entries
  return toEntries entries

end FacetedSearch.Toml
