import FacetedSearch.Proofs.Geohash.Canonical
import FacetedSearch.Proofs.Query.Truncation
import FacetedSearch.Proofs.State.Grouped
import FacetedSearch.Proofs.Text.Join

/-!
# The order of the cells

Two sessions whose cells differ in nothing but their order and repetition have the same groups, and
every category contributes the same to their queries. The map filter itself is another matter:
without a scope it applies only when the cells differ from their default, and the default is a list.
So the queries are the same exactly when the map filter applies to both or to neither.
-/

namespace FacetedSearch.Query

open Category

/-- The two categories whose slots hold the cells and their groups. -/
def cellCategories : List Category :=
  [geohashes, geohashGroups]

/-- Two queries over sessions in step that differ in nothing but the order and the repetition of
their cells. -/
structure SameCells (d : Defaults) (q r : Source) : Prop where
  left : InStep d q.state
  right : InStep d r.state
  catalog : q.catalog = r.catalog
  settings : q.settings = r.settings
  scope : q.scope = r.scope
  slots : ∀ c ∉ cellCategories, q.state.get? c = r.state.get? c
  cells : ∀ cell, cell ∈ q.state.cells ↔ cell ∈ r.state.cells

section Session

variable {d : Defaults} {s : State} (h : InStep d s) (hasGroups : s.hasGroups = true)

include h hasGroups

/-- A session in step that has groups has cells. -/
theorem exists_values_of_hasGroups : ∃ vs, s.get? geohashes = some (.values vs) ∧ vs ≠ [] := by
  have hcells : s.cells ≠ [] := by
    intro hnil
    rw [State.hasGroups, h.groups_eq, hnil] at hasGroups
    exact absurd hasGroups (by decide)
  unfold State.cells State.values at hcells
  split at hcells
  · rename_i vs hslot
    exact ⟨vs, hslot, by simpa using hcells⟩
  · simp at hcells

theorem filled_of_hasGroups : (s.get? geohashes).any (!·.isEmpty) = true := by
  obtain ⟨vs, hslot, hvs⟩ := exists_values_of_hasGroups h hasGroups
  simp [hslot, Slot.isEmpty, hvs]

/-- Where the default is no cells, all cells differ from it. -/
theorem isChanged_of_hasGroups (noCells : d.get? geohashes = some (.values [])) :
    s.isChanged geohashes = true := by
  obtain ⟨vs, hslot, hvs⟩ := exists_values_of_hasGroups h hasGroups
  simp [State.isChanged, hslot, h.defaults_eq, noCells, Slot.sameValue, hvs]

end Session

/-- The categories of clauses are not those of the cells, and read no slot of theirs. -/
theorem not_cell_of_mem_readBy {c e : Category} (hc : c ∈ leading ++ trailing) (he : e ∈ readBy c) :
    e ∉ cellCategories := by
  have hall : ∀ c ∈ leading ++ trailing, ∀ e ∈ readBy c, e ∉ cellCategories := by
    decide
  exact hall c hc e he

namespace SameCells

variable {d : Defaults} {q r : Source} (same : SameCells d q r)

include same

theorem symm : SameCells d r q where
  left := same.right
  right := same.left
  catalog := same.catalog.symm
  settings := same.settings.symm
  scope := same.scope.symm
  slots c hc := (same.slots c hc).symm
  cells cell := (same.cells cell).symm

theorem defaults_eq : q.state.defaults = r.state.defaults := by
  rw [same.left.defaults_eq, same.right.defaults_eq]

theorem groups_eq : q.state.groups = r.state.groups := by
  rw [same.left.groups_eq, same.right.groups_eq]
  exact Geohash.groupCells_congr fun cell _ => same.cells cell

theorem contribution_eq {c : Category} (hc : c ∈ leading ++ trailing) :
    q.contribution c = r.contribution c := by
  have hslots : ∀ e ∈ readBy c, q.state.get? e = r.state.get? e :=
    fun e he => same.slots e (not_cell_of_mem_readBy hc he)
  have hwants : q.wants c = r.wants c :=
    Source.wants_congr same.defaults_eq same.scope (hslots c (mem_readBy_self c))
  exact Source.contribution_congr same.catalog (by rw [same.settings]) hwants fun _ => hslots

/-- The clauses around the map filter are the same. -/
theorem flatMap_contribution_eq {cs : List Category} (hcs : cs ⊆ leading ++ trailing) :
    cs.flatMap q.contribution = cs.flatMap r.contribution :=
  List.flatMap_congr fun _ hc => same.contribution_eq (hcs hc)

theorem hasGroups_eq : q.state.hasGroups = r.state.hasGroups := by
  rw [State.hasGroups, State.hasGroups, same.groups_eq]

/-- The map filter applies to both queries or to neither when there is a scope, when the cells of
both sessions or of neither differ from their default, and when the default is no cells. -/
theorem wantsMap_eq (h : q.scope ≠ none ∨
    q.state.isChanged geohashes = r.state.isChanged geohashes ∨
      d.get? geohashes = some (.values [])) : q.wantsMap = r.wantsMap := by
  have hflag : q.state.flag useGeohash = r.state.flag useGeohash := by
    rw [State.flag, State.flag, same.slots useGeohash (by decide)]
  rw [Source.wantsMap, Source.wantsMap, same.hasGroups_eq, hflag, same.settings]
  cases hgroups : r.state.hasGroups with
  | false => rw [Bool.and_false, Bool.and_false]
  | true =>
      have hgroups' : q.state.hasGroups = true := same.hasGroups_eq.trans hgroups
      have hwants : q.wants geohashes = r.wants geohashes := by
        simp only [Source.wants, State.isAvailable, State.isActive, same.defaults_eq,
          filled_of_hasGroups same.left hgroups', filled_of_hasGroups same.right hgroups,
          Bool.and_true, ← same.scope]
        rcases h with hscope | hchanged | noCells
        · obtain ⟨scope, hscope⟩ := Option.ne_none_iff_exists'.mp hscope
          rw [hscope]
        · rw [hchanged]
        · rw [isChanged_of_hasGroups same.left hgroups' noCells,
            isChanged_of_hasGroups same.right hgroups noCells]
      rw [hwants]

/-- A map filter that applies to one of the queries only makes them differ: it adds its clause, or
it has been cut. -/
theorem compile_ne (applies : q.wantsMap = true) (absent : r.wantsMap = false) :
    compile q ≠ compile r := by
  intro hsame
  have hwhole : q.mapClause.truncated = false := by
    have htruncated := congrArg Query.truncated hsame
    rwa [compile, compile, Source.mapClause_of_not_wantsMap absent] at htruncated
  have hclause : q.mapClause.text ≠ "" :=
    Source.mapClause_ne_empty_of_not_truncated applies same.left.groups_eq hwhole
  have hleading : q.leadingClauses = r.leadingClauses :=
    same.flatMap_contribution_eq (List.subset_append_left _ _)
  have htrailing : q.trailingClauses = r.trailingClauses :=
    same.flatMap_contribution_eq (List.subset_append_right _ _)
  have htext : separator.intercalate q.clauses = separator.intercalate r.clauses :=
    congrArg Query.text hsame
  rw [Source.clauses_of_mapClause hclause, Source.clauses_of_not_wantsMap absent, ← hleading,
    ← htrailing] at htext
  have hlonger : (separator.intercalate (q.leadingClauses ++ q.trailingClauses)).length <
      (separator.intercalate
        (q.leadingClauses ++ q.mapClause.text :: q.trailingClauses)).length :=
    Text.length_intercalate_lt hclause q.leadingClauses q.trailingClauses
  exact hlonger.ne' (congrArg String.length htext)

theorem compile_eq_iff : compile q = compile r ↔ q.wantsMap = r.wantsMap := by
  constructor
  · intro hsame
    cases hleft : q.wantsMap <;> cases hright : r.wantsMap
    · rfl
    · exact absurd hsame.symm (same.symm.compile_ne hright hleft)
    · exact absurd hsame (same.compile_ne hleft hright)
    · rfl
  · intro hmap
    exact compile_congr same.settings (fun _ => same.contribution_eq) hmap fun _ => same.groups_eq

end SameCells

/-- Two lists of cells have the same groups exactly when the same cells stand in them, empty names
aside. The groups hold each of these cells once, only the first group can be incomplete, and
grouping the cells of the groups again changes nothing.

Two queries over sessions in step that differ in nothing but the order and the repetition of their
cells are the same exactly when the map filter applies to both or to neither. That is so with a
scope, when the cells of both sessions or of neither differ from their default, and when the default
is no cells. -/
theorem groups_of_same_cells :
    (∀ cells others : List String,
      Geohash.groupCells cells = Geohash.groupCells others ↔
        ∀ cell, cell ≠ "" → (cell ∈ cells ↔ cell ∈ others)) ∧
    (∀ cells : List String,
      (Geohash.allCells (Geohash.groupCells cells)).Nodup ∧
      (∀ cell, cell ∈ Geohash.allCells (Geohash.groupCells cells) ↔ cell ∈ cells ∧ cell ≠ "") ∧
      (∀ g ∈ (Geohash.groupCells cells).tail, g.complete = true) ∧
      Geohash.groupCells (Geohash.allCells (Geohash.groupCells cells)) =
        Geohash.groupCells cells) ∧
    ∀ (d : Defaults) (q r : Source), SameCells d q r →
      (compile q = compile r ↔ q.wantsMap = r.wantsMap) ∧
      (q.scope ≠ none ∨ q.state.isChanged geohashes = r.state.isChanged geohashes ∨
        d.get? geohashes = some (.values []) → compile q = compile r) := by
  refine ⟨fun _ _ => Geohash.groupCells_eq_iff, fun cells => ?_, fun d q r same => ?_⟩
  · exact ⟨Geohash.nodup_allCells_groupCells cells, fun _ => Geohash.mem_allCells_groupCells,
      fun _ => Geohash.complete_of_mem_tail_groupCells, Geohash.groupCells_allCells cells⟩
  · exact ⟨same.compile_eq_iff, fun h => same.compile_eq_iff.mpr (same.wantsMap_eq h)⟩

/-- A session with some cells in view. -/
def viewing (d : Defaults) (cells : List String) : State :=
  ((State.new d).put geohashes (.values (cells.map .plain))).regroup

theorem cells_viewing (d : Defaults) (cells : List String) : (viewing d cells).cells = cells := by
  rw [viewing, State.cells_regroup, State.cells, State.values, State.get?_put, if_pos rfl]
  simp [Function.comp_def]

theorem get?_viewing_of_ne {c : Category} (hc : c ∉ cellCategories) (d : Defaults)
    (cells : List String) : (viewing d cells).get? c = d.get? c := by
  rw [cellCategories, List.mem_pair, not_or] at hc
  have hslot : ((State.new d).put geohashes (.values (cells.map .plain))).get? c = d.get? c :=
    State.get?_put_of_ne hc.1 _
  rw [viewing, State.regroup]
  split
  · rw [State.get?_put_of_ne hc.2, hslot]
  · exact hslot

theorem inStep_viewing {d : Defaults} (available : d.contains geohashGroups = true)
    (cells : List String) : InStep d (viewing d cells) :=
  InStep.regroup rfl available

/-- Sessions that view the same cells differ in nothing else. -/
theorem sameCells_viewing {d : Defaults} (available : d.contains geohashGroups = true)
    {cells others : List String} (h : ∀ cell, cell ∈ cells ↔ cell ∈ others) (catalog : Catalog)
    (settings : Settings) :
    SameCells d { state := viewing d cells, catalog, settings }
      { state := viewing d others, catalog, settings } where
  left := inStep_viewing available cells
  right := inStep_viewing available others
  catalog := rfl
  settings := rfl
  scope := rfl
  slots c hc := by
    rw [get?_viewing_of_ne hc, get?_viewing_of_ne hc]
  cells cell := by
    rw [cells_viewing, cells_viewing]
    exact h cell

/-- The same two cells, the other way round and one of them twice. -/
theorem groups_of_same_cells_other_order :
    let q : Source := {
      state := viewing (.forYear 2024) ["9q8yy", "9q8yz"]
      catalog := .standard
      settings := {} }
    let r : Source := { q with state := viewing (.forYear 2024) ["9q8yz", "9q8yy", "9q8yz"] }
    SameCells (.forYear 2024) q r ∧
      compile q = compile r ∧
      compile q = { text := "geohash_5:(9q8yy OR 9q8yz)", truncated := false } := by
  intro q r
  have same : SameCells (.forYear 2024) q r :=
    sameCells_viewing rfl (by simp [or_comm]) .standard {}
  exact ⟨same, (groups_of_same_cells.2.2 (.forYear 2024) q r same).2 (Or.inr (Or.inr rfl)),
    by decide +kernel⟩

/-- The cells of the default are no filter, and the same cells the other way round are one. -/
theorem order_of_default_cells_counts :
    ¬ ∀ (d : Defaults) (q r : Source), SameCells d q r → compile q = compile r := by
  intro h
  let d : Defaults :=
    (Defaults.forYear 2024).insert geohashes (.values [.plain "9q8yy", .plain "9q8yz"])
  have available : d.contains geohashGroups = true := rfl
  have hcells : ∀ cell, cell ∈ ["9q8yy", "9q8yz"] ↔ cell ∈ ["9q8yz", "9q8yy"] := by
    simp [or_comm]
  have hsame := h d _ _ (sameCells_viewing available hcells .standard {})
  revert hsame
  decide +kernel

end FacetedSearch.Query
