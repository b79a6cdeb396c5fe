import FacetedSearch.Proofs.Toml.Table
import FacetedSearch.Toml.Reader

/-!
# No name is given twice

In a document that is read, the names of the document and of every table directly in it are
distinct. While tables are put together, each change gives one name a new node: a name that is not
there yet, or one that stands. What is below a name only matters through its own names, so a change
is described by the node that it sets.
-/

namespace FacetedSearch.Toml

/-- If the value is a table, its names are distinct. -/
def Value.HasDistinctNames (v : Value) : Prop :=
  ∀ entries, v = .table entries → Distinct entries

/-- If the node is a table, its names are distinct. -/
def Node.HasDistinctNames : Node → Prop
  | .value v => v.HasDistinctNames
  | .table _ entries => Distinct entries
  | .items _ => True

/-! ## Changes -/

/-- The change gives one name a node. -/
inductive Sets (node : Node) (entries : Entries) : Entries → Prop where
  | new {name : String} (h : entries.lookup name = none) :
      Sets node entries (entries ++ [(name, node)])
  | replace (name : String) : Sets node entries (entries.replace name node)

namespace Sets

variable {node : Node} {entries later : Entries}

theorem distinct (h : Sets node entries later) (hentries : Distinct entries) : Distinct later := by
  cases h with
  | @new name hnew =>
      have hname : name ∉ entries.map (·.1) := lookup_eq_none_iff.mp hnew
      rw [Distinct, List.map_append, List.nodup_append]
      refine ⟨hentries, distinct_singleton (name, node), ?_⟩
      intro n hn m hm
      rw [List.mem_singleton.mp hm]
      exact ne_of_mem_of_not_mem hn hname
  | replace name =>
      have hnames : (entries.replace name node).map (·.1) = entries.map (·.1) := by
        rw [Entries.replace, List.map_map]
        apply List.map_congr_left
        rintro ⟨n, old⟩ -
        simp only [Function.comp_apply]
        split <;> rfl
      rw [Distinct, hnames]
      exact hentries

/-- A node after the change is the one that was set, or stood before. -/
theorem eq_or_mem (h : Sets node entries later) {entry : String × Node} (hentry : entry ∈ later) :
    entry.2 = node ∨ entry ∈ entries := by
  cases h with
  | new _ =>
      rcases List.mem_append.mp hentry with hold | hnew
      · exact Or.inr hold
      · rw [List.mem_singleton.mp hnew]
        exact Or.inl rfl
  | replace name =>
      obtain ⟨⟨n, old⟩, hold, rfl⟩ := List.mem_map.mp hentry
      dsimp only
      split
      · exact Or.inl rfl
      · exact Or.inr hold

end Sets

/-- Entries under distinct names, and no table among them that gives a name twice. -/
structure Sound (entries : Entries) : Prop where
  distinct : Distinct entries
  nodes : ∀ entry ∈ entries, entry.2.HasDistinctNames

theorem sound_nil : Sound [] :=
  ⟨distinct_nil, fun _ h => absurd h List.not_mem_nil⟩

/-- A change sets a node, and the names in the node are distinct when those in the nodes before
are; `fair` is what this asks of the values that are put in. -/
def Careful (fair : Prop) (change : Entries → Option Entries) : Prop :=
  ∀ entries later, change entries = some later → ∃ node, Sets node entries later ∧
    (fair → (∀ entry ∈ entries, entry.2.HasDistinctNames) → node.HasDistinctNames)

namespace Careful

variable {fair : Prop} {change : Entries → Option Entries} {entries later : Entries}

theorem distinct (h : Careful fair change) (hchange : change entries = some later)
    (hentries : Distinct entries) : Distinct later := by
  obtain ⟨node, hsets, -⟩ := h entries later hchange
  exact hsets.distinct hentries

theorem sound (h : Careful fair change) (hfair : fair) (hchange : change entries = some later)
    (hentries : Sound entries) : Sound later := by
  obtain ⟨node, hsets, hnode⟩ := h entries later hchange
  refine ⟨hsets.distinct hentries.distinct, ?_⟩
  intro entry hentry
  rcases hsets.eq_or_mem hentry with heq | hold
  · rw [heq]
    exact hnode hfair hentries.nodes
  · exact hentries.nodes entry hold

end Careful

/-- What every step keeps, a fold of the steps keeps. -/
theorem foldlM_keeps {α β : Type} {P : β → Prop} {step : β → α → Option β} {items : List α}
    (hstep : ∀ a ∈ items, ∀ b c, step b a = some c → P b → P c) {b c : β}
    (hfold : items.foldlM step b = some c) (hb : P b) : P c := by
  induction items generalizing b with
  | nil =>
      obtain rfl := Option.some.inj hfold
      exact hb
  | cons a items ih =>
      rw [List.foldlM_cons] at hfold
      obtain ⟨next, hnext, hrest⟩ := Option.bind_eq_some_iff.mp hfold
      obtain ⟨ha, hitems⟩ := List.forall_mem_cons.mp hstep
      exact ih hitems hrest (ha b next hnext hb)

theorem mem_of_lookup {α : Type} {entries : List (String × α)} {name : String} {a : α}
    (h : entries.lookup name = some a) : (name, a) ∈ entries := by
  obtain ⟨before, after, rfl, -⟩ := List.lookup_eq_some_iff.mp h
  simp

/-- Adding a value below a path is careful. -/
theorem careful_insertAt? (name : String) (v : Value) (path : List String) :
    Careful v.HasDistinctNames (insertAt? name v path) := by
  induction path with
  | nil =>
      intro entries later h
      rw [insertAt?] at h
      split at h
      · cases h
      · rename_i hnew
        obtain rfl := Option.some.inj h
        exact ⟨.value v, .new (Option.not_isSome_iff_eq_none.mp hnew), fun hv _ => hv⟩
  | cons table path ih =>
      have hsub : ∀ {sub later}, insertAt? name v path sub = some later → Distinct sub →
          Distinct later := fun h => ih.distinct h
      intro entries later h
      unfold insertAt? at h
      split at h
      · rename_i hnew
        obtain ⟨sub, hinsert, rfl⟩ := Option.map_eq_some_iff.mp h
        exact ⟨_, .new hnew, fun _ _ => hsub hinsert distinct_nil⟩
      · rename_i sub hlookup
        obtain ⟨later, hinsert, rfl⟩ := Option.map_eq_some_iff.mp h
        exact ⟨_, .replace table, fun _ hall => hsub hinsert (hall _ (mem_of_lookup hlookup))⟩
      · rename_i sub hlookup
        split at h
        · cases h
        · obtain ⟨later, hinsert, rfl⟩ := Option.map_eq_some_iff.mp h
          exact ⟨_, .replace table, fun _ hall => hsub hinsert (hall _ (mem_of_lookup hlookup))⟩
      · split at h
        · cases h
        · obtain ⟨tables, -, rfl⟩ := Option.map_eq_some_iff.mp h
          exact ⟨_, .replace table, fun _ _ => trivial⟩
      · cases h
      · cases h

/-- A careful change stays careful below a path. -/
theorem careful_changeAt? {fair : Prop} {change : Entries → Option Entries}
    (h : Careful fair change) (path : List String) : Careful fair (changeAt? change path) := by
  induction path with
  | nil => exact h
  | cons table path ih =>
      intro entries later hchange
      unfold changeAt? at hchange
      split at hchange
      · rename_i hnew
        obtain ⟨sub, hsub, rfl⟩ := Option.map_eq_some_iff.mp hchange
        exact ⟨_, .new hnew, fun _ _ => ih.distinct hsub distinct_nil⟩
      · rename_i origin sub hlookup
        obtain ⟨later, hsub, rfl⟩ := Option.map_eq_some_iff.mp hchange
        exact ⟨_, .replace table,
          fun _ hall => ih.distinct hsub (hall _ (mem_of_lookup hlookup))⟩
      · obtain ⟨tables, -, rfl⟩ := Option.map_eq_some_iff.mp hchange
        exact ⟨_, .replace table, fun _ _ => trivial⟩
      · cases hchange

theorem distinct_of_foldlM_insert? {body : List Assignment} {entries later : Entries}
    (h : body.foldlM insert? entries = some later) (hentries : Distinct entries) :
    Distinct later := by
  apply foldlM_keeps _ h hentries
  intro a _ before after hinsert hbefore
  exact (careful_insertAt? a.key.name a.value a.key.path).distinct hinsert hbefore

/-- Opening a table is careful. -/
theorem careful_openTable? (kind : HeaderKind) (name : String) (body : List Assignment) :
    Careful True (openTable? kind name body) := by
  intro entries later h
  unfold openTable? at h
  split at h
  · rename_i hnew
    obtain ⟨sub, hsub, rfl⟩ := Option.map_eq_some_iff.mp h
    exact ⟨_, .new hnew, fun _ _ => distinct_of_foldlM_insert? hsub distinct_nil⟩
  · rename_i sub hlookup
    obtain ⟨later, hsub, rfl⟩ := Option.map_eq_some_iff.mp h
    exact ⟨_, .replace name,
      fun _ hall => distinct_of_foldlM_insert? hsub (hall _ (mem_of_lookup hlookup))⟩
  · rename_i hnew
    obtain ⟨sub, -, rfl⟩ := Option.map_eq_some_iff.mp h
    exact ⟨_, .new hnew, fun _ _ => trivial⟩
  · obtain ⟨sub, -, rfl⟩ := Option.map_eq_some_iff.mp h
    exact ⟨_, .replace name, fun _ _ => trivial⟩
  · cases h

/-! ## Documents -/

theorem front_subset_of_sections {statements : List Statement} {a : Assignment}
    (h : a ∈ (sections statements).1) : .assign a ∈ statements := by
  induction statements with
  | nil => exact absurd h List.not_mem_nil
  | cons statement rest ih =>
      cases statement with
      | assign b =>
          rcases List.mem_cons.mp h with rfl | hrest
          · exact List.mem_cons_self
          · exact List.mem_cons_of_mem _ (ih hrest)
      | header k => exact absurd h List.not_mem_nil

theorem toEntries_eq_map (entries : Entries) :
    toEntries entries = entries.map fun (name, node) => (name, node.toValue) := by
  induction entries with
  | nil => rfl
  | cons entry rest ih =>
      rw [toEntries, ih]
      rfl

theorem distinct_toEntries {entries : Entries} (h : Distinct entries) :
    Distinct (toEntries entries) := by
  rw [toEntries_eq_map, Distinct, List.map_map]
  exact h

theorem Node.hasDistinctNames_toValue {node : Node} (h : node.HasDistinctNames) :
    node.toValue.HasDistinctNames := by
  cases node with
  | value v => exact h
  | table origin entries =>
      intro values heq
      rw [← Value.table.inj heq]
      exact distinct_toEntries h
  | items tables =>
      intro values heq
      cases heq

theorem distinct_inlineTable? {body : List Assignment} {entries : List (String × Value)}
    (h : inlineTable? body = some entries) : Distinct entries := by
  obtain ⟨table, hfold, rfl⟩ := Option.map_eq_some_iff.mp h
  exact distinct_toEntries (distinct_of_foldlM_insert? hfold distinct_nil)

theorem sound_of_front {front : List Assignment} {entries : Entries}
    (fair : ∀ a ∈ front, a.value.HasDistinctNames) (h : front.foldlM insert? [] = some entries) :
    Sound entries := by
  apply foldlM_keeps _ h sound_nil
  intro a ha before after hinsert hbefore
  exact (careful_insertAt? a.key.name a.value a.key.path).sound (fair a ha) hinsert hbefore

theorem sound_of_sections {later : List Section} {before after : Entries}
    (h : later.foldlM addSection? before = some after) (hbefore : Sound before) : Sound after := by
  apply foldlM_keeps _ h hbefore
  intro s _ before after hadd hbefore
  have hcareful := careful_openTable? s.header.kind s.header.key.name s.body
  exact (careful_changeAt? hcareful s.header.key.path).sound trivial hadd hbefore

theorem document?_distinct {statements : List Statement} {entries : List (String × Value)}
    (fair : ∀ a, .assign a ∈ statements → a.value.HasDistinctNames)
    (h : document? statements = some entries) :
    Distinct entries ∧ ∀ entry ∈ entries, entry.2.HasDistinctNames := by
  obtain ⟨front, hfront, h⟩ := Option.bind_eq_some_iff.mp h
  obtain ⟨whole, hwhole, h⟩ := Option.bind_eq_some_iff.mp h
  obtain rfl := Option.some.inj h
  have hsound : Sound whole := by
    apply sound_of_sections hwhole
    apply sound_of_front _ hfront
    intro a ha
    exact fair a (front_subset_of_sections ha)
  refine ⟨distinct_toEntries hsound.distinct, ?_⟩
  rw [toEntries_eq_map]
  intro entry hentry
  obtain ⟨old, hold, rfl⟩ := List.mem_map.mp hentry
  exact Node.hasDistinctNames_toValue (hsound.nodes old hold)

/-! ## Reading -/

section Reading

variable {entries : List (String × Value)}

/-- A bare text stands for no table. -/
theorem integerValue?_ne_table {n : Int} : integerValue? n ≠ some (.table entries) := by
  unfold integerValue?
  dsimp only
  split <;> simp

theorem realValue?_ne_table {negative : Bool} {s : List Char} :
    realValue? negative s ≠ some (.table entries) := by
  intro h
  simp [realValue?, Option.bind_eq_some_iff] at h

theorem unsignedValue?_ne_table {negative : Bool} {s : List Char} :
    unsignedValue? negative s ≠ some (.table entries) := by
  intro h
  unfold unsignedValue? at h
  split at h
  · simp at h
  · split at h
    · simp at h
    · split at h
      · exact realValue?_ne_table h
      · obtain ⟨digits, -, h⟩ := Option.bind_eq_some_iff.mp h
        exact integerValue?_ne_table h

theorem numberValue?_ne_table {s : List Char} : numberValue? s ≠ some (.table entries) := by
  intro h
  unfold numberValue? at h
  split at h
  · obtain ⟨digits, -, h⟩ := Option.bind_eq_some_iff.mp h
    exact integerValue?_ne_table h
  · obtain ⟨digits, -, h⟩ := Option.bind_eq_some_iff.mp h
    exact integerValue?_ne_table h
  · obtain ⟨digits, -, h⟩ := Option.bind_eq_some_iff.mp h
    exact integerValue?_ne_table h
  · exact unsignedValue?_ne_table h

theorem bareValue?_ne_table {s : List Char} : bareValue? s ≠ some (.table entries) := by
  intro h
  unfold bareValue? at h
  split at h
  · simp at h
  · split at h
    · simp at h
    · split at h
      · obtain ⟨text, -, heq⟩ := Option.map_eq_some_iff.mp h
        cases heq
      · exact numberValue?_ne_table h

theorem readBare?_ne_table {s rest : List Char} :
    readBare? s ≠ some (.table entries, rest) := by
  intro h
  unfold readBare? at h
  dsimp only at h
  split at h
  all_goals
    obtain ⟨v, hv, heq⟩ := Option.map_eq_some_iff.mp h
    cases heq
    exact bareValue?_ne_table hv

theorem readValue?_distinct {fuel depth : Nat} {s rest : List Char}
    (h : readValue? fuel depth s = some (.table entries, rest)) : Distinct entries := by
  cases fuel with
  | zero => simp [readValue?] at h
  | succ fuel =>
      unfold readValue? at h
      split at h
      · split at h
        · obtain ⟨items, -, heq⟩ := Option.map_eq_some_iff.mp h
          cases heq
        · cases h
      · split at h
        · split at h
          · cases h
          · obtain ⟨table, htable, heq⟩ := Option.map_eq_some_iff.mp h
            cases heq
            exact distinct_inlineTable? htable
        · cases h
      · split at h
        · obtain ⟨chars, -, heq⟩ := Option.map_eq_some_iff.mp h
          cases heq
        · exact absurd h readBare?_ne_table
      · cases h

end Reading

theorem readAssignment?_hasDistinctNames {s rest : List Char} {a : Assignment}
    (h : readAssignment? s = some (a, rest)) : a.value.HasDistinctNames := by
  unfold readAssignment? at h
  split at h
  · obtain ⟨⟨value, after⟩, hvalue, heq⟩ := Option.map_eq_some_iff.mp h
    cases heq
    rintro entries rfl
    exact readValue?_distinct hvalue
  · cases h

theorem readStatement?_hasDistinctNames {s rest : List Char} {a : Assignment}
    (h : readStatement? s = some (.assign a, rest)) : a.value.HasDistinctNames := by
  unfold readStatement? at h
  split at h
  · obtain ⟨header, -, heq⟩ := Option.map_eq_some_iff.mp h
    cases heq
  · obtain ⟨header, -, heq⟩ := Option.map_eq_some_iff.mp h
    cases heq
  · obtain ⟨⟨assignment, after⟩, hread, heq⟩ := Option.map_eq_some_iff.mp h
    cases heq
    exact readAssignment?_hasDistinctNames hread

theorem readStatements?_hasDistinctNames {fuel : Nat} {s : List Char}
    {statements : List Statement} (h : readStatements? fuel s = some statements)
    {a : Assignment} (ha : .assign a ∈ statements) : a.value.HasDistinctNames := by
  fun_induction readStatements? fuel s generalizing statements with
  | case1 => cases h
  | case2 =>
      obtain rfl := Option.some.inj h
      exact absurd ha List.not_mem_nil
  | case3 => cases h
  | case4 => cases h
  | case5 s fuel hs statement rest hread next hnext ih =>
      obtain ⟨later, hlater, rfl⟩ := Option.map_eq_some_iff.mp h
      rcases List.mem_cons.mp ha with rfl | hmem
      · exact readStatement?_hasDistinctNames hread
      · exact ih hlater hmem

/-- The names of a document that is read are distinct, and so are those of every table directly in
it. -/
theorem parse?_distinct {text : String} {entries : List (String × Value)}
    (h : parse? text = some entries) :
    Distinct entries ∧ ∀ entry ∈ entries, entry.2.HasDistinctNames := by
  obtain ⟨statements, hstatements, hdocument⟩ := Option.bind_eq_some_iff.mp h
  apply document?_distinct _ hdocument
  intro a ha
  unfold statements? at hstatements
  split at hstatements
  · cases hstatements
  · exact readStatements?_hasDistinctNames hstatements ha

end FacetedSearch.Toml
