import FacetedSearch.Toml.Table
import Mathlib.Data.List.Basic

/-!
# Documents of plain sections

A document whose headers and entries are single names, each given once, holds the tables that its
sections write down, in the order in which they stand.
-/

namespace FacetedSearch.Toml

/-- The key that is a single name. -/
def Key.single (name : String) : Key where
  path := []
  name := name

/-- The value of a single name. -/
def Assignment.single (name : String) (value : Value) : Assignment where
  key := .single name
  value := value

/-- The header of a table with a single name. -/
def Header.single (name : String) : Header where
  key := .single name
  kind := .table

/-- The lines of a table under a header, with an entry for each name. -/
def sectionLines (name : String) (entries : List (String × Value)) : List Statement :=
  .header (.single name) :: entries.map fun (name, value) => .assign (.single name value)

/-- The section that the lines of a table make up. -/
def plainSection (name : String) (entries : List (String × Value)) : Section where
  header := .single name
  body := entries.map fun (name, value) => .single name value

/-- The names of entries are distinct. -/
def Distinct {α : Type} (entries : List (String × α)) : Prop :=
  (entries.map (·.1)).Nodup

theorem distinct_nil {α : Type} : Distinct ([] : List (String × α)) :=
  List.nodup_nil

theorem distinct_singleton {α : Type} (entry : String × α) : Distinct [entry] :=
  List.nodup_cons.mpr ⟨List.not_mem_nil, List.nodup_nil⟩

/-! ## Sections -/

theorem sections_assign_append (body : List Assignment) (rest : List Statement) :
    sections (body.map .assign ++ rest) = (body ++ (sections rest).1, (sections rest).2) := by
  induction body with
  | nil => rfl
  | cons a body ih =>
      rw [List.map_cons, List.cons_append, sections, ih]
      rfl

theorem sections_sectionLines (tables : List (String × List (String × Value))) :
    sections (tables.flatMap fun (name, entries) => sectionLines name entries) =
      ([], tables.map fun (name, entries) => plainSection name entries) := by
  induction tables with
  | nil => rfl
  | cons table tables ih =>
      obtain ⟨name, entries⟩ := table
      have hbody : (entries.map fun (name, value) => Statement.assign (.single name value)) =
          (plainSection name entries).body.map .assign := by
        rw [plainSection, List.map_map]
        rfl
      rw [List.flatMap_cons, List.map_cons]
      dsimp only
      rw [sectionLines, List.cons_append, sections, hbody, sections_assign_append, ih,
        List.append_nil]
      rfl

/-! ## Entries -/

theorem lookup_eq_none_iff {α : Type} {name : String} {entries : List (String × α)} :
    entries.lookup name = none ↔ name ∉ entries.map (·.1) := by
  rw [List.lookup_eq_none_iff, List.mem_map, not_exists]
  apply forall_congr'
  intro entry
  rw [not_and, bne_iff_ne, ne_comm]

/-- Items that each add an entry under a name of its own add their entries one after another. -/
theorem foldlM_append {α : Type} {add : Entries → α → Option Entries} {entry : α → String × Node}
    {items : List α}
    (hadd : ∀ a ∈ items, ∀ entries : Entries, (entry a).1 ∉ entries.map (·.1) →
      add entries a = some (entries ++ [entry a]))
    (entries : Entries)
    (distinct : (entries.map (·.1) ++ items.map fun a => (entry a).1).Nodup) :
    items.foldlM add entries = some (entries ++ items.map entry) := by
  induction items generalizing entries with
  | nil => simp
  | cons a items ih =>
      obtain ⟨ha, hitems⟩ := List.forall_mem_cons.mp hadd
      have hnew : (entry a).1 ∉ entries.map (·.1) := by
        intro hmem
        exact (List.nodup_append.mp distinct).2.2 _ hmem _ List.mem_cons_self rfl
      have hlater : ((entries ++ [entry a]).map (·.1) ++ items.map fun a => (entry a).1).Nodup := by
        simpa using distinct
      rw [List.foldlM_cons, ha entries hnew]
      simpa using ih hitems (entries ++ [entry a]) hlater

/-- The entry that an assignment to a single name adds. -/
def Assignment.entry (a : Assignment) : String × Node :=
  (a.key.name, .value a.value)

theorem insert?_single {a : Assignment} (single : a.key.path = []) {entries : Entries}
    (new : a.key.name ∉ entries.map (·.1)) : insert? entries a = some (entries ++ [a.entry]) := by
  rw [insert?, single, insertAt?, lookup_eq_none_iff.mpr new, if_neg (by simp)]
  rfl

/-- The nodes of values. -/
def valueNodes (entries : List (String × Value)) : Entries :=
  entries.map fun (name, value) => (name, .value value)

theorem toEntries_valueNodes (entries : List (String × Value)) :
    toEntries (valueNodes entries) = entries := by
  induction entries with
  | nil => rfl
  | cons entry entries ih =>
      obtain ⟨name, value⟩ := entry
      rw [valueNodes, List.map_cons, toEntries, Node.toValue]
      exact congrArg ((name, value) :: ·) ih

theorem foldlM_insert?_plainSection (name : String) {entries : List (String × Value)}
    (distinct : Distinct entries) :
    (plainSection name entries).body.foldlM insert? [] = some (valueNodes entries) := by
  have hnodes : (plainSection name entries).body.map Assignment.entry = valueNodes entries := by
    rw [plainSection, List.map_map]
    rfl
  have hadd : ∀ a ∈ (plainSection name entries).body, ∀ done : Entries,
      a.entry.1 ∉ done.map (·.1) → insert? done a = some (done ++ [a.entry]) := by
    intro a ha done new
    obtain ⟨entry, -, rfl⟩ := List.mem_map.mp ha
    exact insert?_single rfl new
  have hnames : ((plainSection name entries).body.map fun a => a.entry.1).Nodup := by
    rw [plainSection, List.map_map]
    exact distinct
  rw [foldlM_append hadd [] hnames, hnodes, List.nil_append]

/-! ## Tables -/

theorem addSection?_plainSection {name : String} {entries : List (String × Value)}
    (distinct : Distinct entries) {done : Entries} (new : name ∉ done.map (·.1)) :
    addSection? done (plainSection name entries) =
      some (done ++ [(name, .table .header (valueNodes entries))]) := by
  have hopen : addSection? done (plainSection name entries) =
      openTable? .table name (plainSection name entries).body done := rfl
  rw [hopen, openTable?, foldlM_insert?_plainSection name distinct]
  · rfl
  · exact lookup_eq_none_iff.mpr new

/-- The entry of a table whose header and entries are given. -/
def tableEntry (table : String × List (String × Value)) : String × Node :=
  (table.1, .table .header (valueNodes table.2))

theorem toEntries_map_tableEntry (tables : List (String × List (String × Value))) :
    toEntries (tables.map tableEntry) =
      tables.map fun (name, entries) => (name, .table entries) := by
  induction tables with
  | nil => rfl
  | cons table tables ih =>
      rw [List.map_cons, List.map_cons, tableEntry, toEntries, Node.toValue, toEntries_valueNodes,
        ih]

/-- A document of plain sections holds their tables. -/
theorem document?_sectionLines {tables : List (String × List (String × Value))}
    (distinct : Distinct tables) (distinctEntries : ∀ table ∈ tables, Distinct table.2) :
    document? (tables.flatMap fun (name, entries) => sectionLines name entries) =
      some (tables.map fun (name, entries) => (name, .table entries)) := by
  have hadd : ∀ table ∈ tables, ∀ done : Entries, (tableEntry table).1 ∉ done.map (·.1) →
      addSection? done (plainSection table.1 table.2) = some (done ++ [tableEntry table]) := by
    intro table htable done new
    exact addSection?_plainSection (distinctEntries table htable) new
  have hfold : (tables.map fun (name, entries) => plainSection name entries).foldlM
      addSection? [] = some (tables.map tableEntry) := by
    rw [List.foldlM_map]
    exact foldlM_append hadd [] distinct
  simp only [document?, sections_sectionLines, List.foldlM_nil, Option.pure_def,
    Option.bind_eq_bind, Option.bind_some, hfold, toEntries_map_tableEntry]

end FacetedSearch.Toml
