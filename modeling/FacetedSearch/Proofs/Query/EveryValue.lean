import FacetedSearch.Proofs.Clause.FormulaReading
import FacetedSearch.Query

/-!
# Asking for every value

The clauses of places and creators join their values by `AND`. In one field this asks for every
value. Over several fields the operator stands between the fields, and the values of a field are
joined by `OR`: then a document with one of the values in each field will do, whatever the other
values are.
-/

namespace FacetedSearch

namespace Clause

variable {options : ClauseOptions} {fields : List String} {values : List FilterValue}
variable {document : Document}

/-- Every value that is not blank stands in one of the fields, as it is written there. -/
def Document.HasEach (document : Document) (options : ClauseOptions) (fields : List String)
    (values : List FilterValue) : Prop :=
  ∀ v ∈ values, ∀ term, formatValue (optionsOver options fields) v.text = some term →
    ∃ field ∈ fields, document field term

theorem Document.hasEach_iff : document.HasEach options fields values ↔
    ∀ term ∈ termsOver options fields values, ∃ field ∈ fields, document field term := by
  simp only [HasEach, termsOver, formatValues, List.mem_filterMap]
  constructor
  · rintro h term ⟨v, hv, hterm⟩
    exact h v hv term hterm
  · intro h v hv term hterm
    exact h term ⟨v, hv, hterm⟩

theorem matches_formulaOf_and (conjunctive : options.operator = .and)
    (filled : termsOver options fields values ≠ []) :
    (formulaOf options fields values).Matches document ↔ ∀ field ∈ fields,
      (Combination.shown (operatorWithin options fields) (termsOver options fields values)).Holds
        (document field) := by
  rw [formulaOf_of_ne_nil filled, Formula.Matches, conjunctive, Combination.holds_shown_and,
    List.forall_mem_map]
  rfl

/-- One field is asked for every value. -/
theorem matches_formulaOf_oneField {field : String} (conjunctive : options.operator = .and)
    (filled : termsOver options [field] values ≠ []) :
    (formulaOf options [field] values).Matches document ↔
      ∀ term ∈ termsOver options [field] values, document field term := by
  have hwithin : operatorWithin options [field] = .and := conjunctive
  rw [matches_formulaOf_and conjunctive filled, List.forall_mem_singleton, hwithin,
    Combination.holds_shown_and]

theorem operatorWithin_of_several (several : fields.length ≠ 1) :
    operatorWithin options fields = .or := by
  unfold operatorWithin
  split
  · exact absurd rfl several
  · rfl

/-- Each of several fields is asked for one of the values. -/
theorem matches_formulaOf_several (conjunctive : options.operator = .and)
    (filled : termsOver options fields values ≠ []) (several : fields.length ≠ 1) :
    (formulaOf options fields values).Matches document ↔
      ∀ field ∈ fields, ∃ term ∈ termsOver options fields values, document field term := by
  rw [matches_formulaOf_and conjunctive filled, operatorWithin_of_several several]
  simp only [Combination.holds_shown_or filled]

/-- With `and` between the members, a clause asks for every value exactly when it has one field or
no two different values. -/
theorem formulaOf_asks_for_each_iff (conjunctive : options.operator = .and)
    (named : fields ≠ []) :
    (∀ document : Document, (formulaOf options fields values).Matches document →
        document.HasEach options fields values) ↔
      fields.length = 1 ∨ ∀ s ∈ termsOver options fields values,
        ∀ t ∈ termsOver options fields values, s = t := by
  simp only [Document.hasEach_iff]
  by_cases filled : termsOver options fields values = []
  · simp [filled]
  by_cases hone : fields.length = 1
  · obtain ⟨field, rfl⟩ := List.length_eq_one_iff.mp hone
    refine iff_of_true ?_ (Or.inl hone)
    intro document hmatches term hterm
    rw [matches_formulaOf_oneField conjunctive filled] at hmatches
    exact ⟨field, List.mem_cons_self, hmatches term hterm⟩
  · rw [or_iff_right hone]
    constructor
    · -- A document with nothing but the first value in its fields gives the clause its due.
      intro heach s hs t ht
      have hmatches : (formulaOf options fields values).Matches fun _ term => term = s :=
        (matches_formulaOf_several conjunctive filled hone).mpr fun _ _ => ⟨s, hs, rfl⟩
      obtain ⟨_, _, hsame⟩ := heach _ hmatches t ht
      exact hsame.symm
    · intro hsame document hmatches t ht
      obtain ⟨field, hfield⟩ := List.exists_mem_of_ne_nil fields named
      obtain ⟨s, hs, hdocument⟩ :=
        (matches_formulaOf_several conjunctive filled hone).mp hmatches field hfield
      exact ⟨field, hfield, hsame s hs t ht ▸ hdocument⟩

end Clause

namespace Query

open Category Clause

/-- The clause of all values says what the formula of the values says, and it is read as this
formula. It asks for every value that is not blank exactly when the category is searched in one
field or no two of the written values differ. -/
theorem allValuesClause_asks_for_each_iff {q : Source} {c : Category} {values : List FilterValue}
    (held : q.state.get? c = some (.values values)) :
    let options := { q.options with operator := .and }
    let fields := q.catalog.fieldsOf c
    let formula := formulaOf options fields values
    formula.text = q.allValuesClause c ∧
      ((∀ field ∈ fields, IsWord field) →
        (q.settings.encoding = .url ∨ ∀ term ∈ termsOver options fields values, IsWord term) →
        readFormula? (q.allValuesClause c) = some formula) ∧
      ((∀ document : Document, formula.Matches document →
          document.HasEach options fields values) ↔
        fields.length = 1 ∨ ∀ s ∈ termsOver options fields values,
          ∀ t ∈ termsOver options fields values, s = t) := by
  intro options fields formula
  have hclause : q.allValuesClause c = ofFields options fields values := by
    rw [Source.allValuesClause, held]
  have hnamed : fields ≠ [] := Catalog.fieldsOf_ne_nil q.catalog c
  refine ⟨?_, ?_, ?_⟩
  · rw [hclause, text_formulaOf]
  · intro words written
    rw [hclause]
    exact readFormula?_ofFields words written
  · exact formulaOf_asks_for_each_iff rfl hnamed

/-- A session that asks for two places. -/
def alaskaAndYukon (catalog : Catalog) : Source where
  state := (State.new (.forYear 2024)).put spatial (.values [.plain "Alaska", .plain "Yukon"])
  catalog
  settings := {}

theorem allValuesClause_asks_for_each_place :
    let q := alaskaAndYukon .standard
    let values := [FilterValue.plain "Alaska", .plain "Yukon"]
    let formula := formulaOf { operator := .and } ["siteText"] values
    q.state.get? spatial = some (.values values) ∧
      readFormula? (q.allValuesClause spatial) = some formula ∧
      ∀ document : Document, formula.Matches document →
        document.HasEach { operator := .and } ["siteText"] values := by
  have held : (alaskaAndYukon .standard).state.get? spatial =
      some (.values [.plain "Alaska", .plain "Yukon"]) := rfl
  obtain ⟨-, hread, hiff⟩ := allValuesClause_asks_for_each_iff held
  exact ⟨held, hread (by decide) (Or.inl rfl), hiff.mpr (Or.inl rfl)⟩

/-- Where the deployment has two fields for places, a document in Alaska is found by a clause that
asks for Alaska and for Yukon. -/
theorem one_of_two_places_is_enough :
    let q := alaskaAndYukon (Catalog.standard.setFields spatial ["siteText", "placeText"])
    q.allValuesClause spatial = "(siteText:(Alaska OR Yukon) AND placeText:(Alaska OR Yukon))" ∧
      ∃ formula, readFormula? (q.allValuesClause spatial) = some formula ∧
        ∃ document : Document, formula.Matches document ∧
          ¬ ∃ field ∈ q.catalog.fieldsOf spatial, document field "Yukon" := by
  intro q
  let places : Combination String := { operator := .or, members := ["Alaska", "Yukon"] }
  have hread : readFormula? (q.allValuesClause spatial) =
      some { operator := .and, members := [⟨"siteText", places⟩, ⟨"placeText", places⟩] } := by
    decide +kernel
  refine ⟨by decide +kernel, _, hread, fun _ term => term = "Alaska", ?_, by simp⟩
  simp [Formula.Matches, FieldFormula.Matches, Combination.Holds, places]

end Query

end FacetedSearch
