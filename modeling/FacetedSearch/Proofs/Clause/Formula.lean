import FacetedSearch.Proofs.Clause.Value

/-!
# Clauses as formulas

A clause over fields asks a document for a combination of answers. An answer says whether one field
matches one written value; the values of a field combine by an operator, and so do the fields. A
clause of one member shows no operator, and then it does not matter which one was meant.
-/

namespace FacetedSearch.Clause

/-- Members and the operator that combines them. -/
structure Combination (α : Type) where
  operator : Operator
  members : List α
  deriving DecidableEq, Repr

namespace Combination

variable {α : Type} {operator : Operator} {members : List α} {m : α} {holds : α → Prop}

/-- Some members as a clause shows them. Where no operator is shown, `and` stands for either. -/
def shown (operator : Operator) (members : List α) : Combination α where
  operator := if 1 < members.length then operator else .and
  members := members

/-- The combination holds, as its members do. -/
def Holds (combination : Combination α) (holds : α → Prop) : Prop :=
  match combination.operator with
  | .or => ∃ m ∈ combination.members, holds m
  | .and => ∀ m ∈ combination.members, holds m

/-- The combination as it stands in a clause. -/
def write (combination : Combination α) (text : α → String) : String :=
  group combination.operator (combination.members.map text)

theorem shown_singleton (operator : Operator) (m : α) :
    shown operator [m] = { operator := .and, members := [m] } := rfl

theorem write_shown (operator : Operator) (members : List α) (text : α → String) :
    (shown operator members).write text = group operator (members.map text) := by
  rcases members with _ | ⟨first, _ | ⟨second, rest⟩⟩
  · rfl
  · rfl
  · simp [write, shown]

theorem holds_shown_and : (shown .and members).Holds holds ↔ ∀ m ∈ members, holds m := by
  simp [shown, Holds]

theorem holds_shown_or (filled : members ≠ []) :
    (shown .or members).Holds holds ↔ ∃ m ∈ members, holds m := by
  rcases members with _ | ⟨first, _ | ⟨second, rest⟩⟩
  · exact absurd rfl filled
  · simp [shown, Holds]
  · simp [shown, Holds]

end Combination

/-- What a field is asked for. -/
structure FieldFormula where
  field : String
  values : Combination String
  deriving DecidableEq, Repr

/-- What a clause asks for. -/
abbrev Formula := Combination FieldFormula

/-- The answers of a document: which field matches which written value. -/
abbrev Document := String → String → Prop

namespace FieldFormula

/-- The document has what the field is asked for. -/
def Matches (formula : FieldFormula) (document : Document) : Prop :=
  formula.values.Holds (document formula.field)

/-- The clause of a field. -/
def text (formula : FieldFormula) : String :=
  formula.field ++ ":" ++ formula.values.write id

end FieldFormula

namespace Formula

/-- The document has what the clause asks for. -/
def Matches (formula : Formula) (document : Document) : Prop :=
  formula.Holds (·.Matches document)

/-- The clause itself. -/
def text (formula : Formula) : String :=
  formula.write FieldFormula.text

end Formula

/-! ## Clauses over fields -/

variable {options : ClauseOptions} {fields : List String} {values : List FilterValue}

/-- How the values are written in the given fields. -/
def optionsOver (options : ClauseOptions) : List String → ClauseOptions
  | [_] => options
  | fields => manyFieldOptions fields options

/-- The values as they are written in the given fields. -/
def termsOver (options : ClauseOptions) (fields : List String) (values : List FilterValue) :
    List String :=
  formatValues (optionsOver options fields) values

/-- What stands between the values of one of the given fields. -/
def operatorWithin (options : ClauseOptions) : List String → Operator
  | [_] => options.operator
  | _ => .or

/-- Only quotes can be forced by the fields. -/
theorem exists_optionsOver_eq (options : ClauseOptions) (fields : List String) :
    ∃ quotes, optionsOver options fields = { options with forceQuotes := quotes } := by
  unfold optionsOver manyFieldOptions
  split
  · exact ⟨_, rfl⟩
  · split <;> exact ⟨_, rfl⟩

theorem qualified_of_ne_empty {value : String} (h : value ≠ "") (field : String) :
    qualified field value = field ++ ":" ++ value := by
  simp [qualified, h]

theorem group_ne_empty {operator : Operator} {members : List String} (filled : members ≠ [])
    (members_ne : ∀ m ∈ members, m ≠ "") : group operator members ≠ "" := by
  rcases members with _ | ⟨first, _ | ⟨second, rest⟩⟩
  · exact absurd rfl filled
  · exact members_ne first List.mem_cons_self
  · simp [group]

theorem ne_empty_of_mem_formatValues {term : String} (h : term ∈ formatValues options values) :
    term ≠ "" := by
  obtain ⟨value, -, hformat⟩ := List.mem_filterMap.mp h
  exact formatValue_ne_empty hformat

/-- Without a value there is no clause. -/
theorem ofFields_of_nil (h : termsOver options fields values = []) :
    ofFields options fields values = "" := by
  rcases fields with _ | ⟨field, _ | ⟨second, rest⟩⟩
  · rfl
  · have hterms : formatValues options values = [] := h
    simp [ofFields, oneField, hterms, group, qualified]
  · have hterms : formatValues (manyFieldOptions (field :: second :: rest) options) values = [] := h
    simp [ofFields, manyFields, hterms, group]

/-- One clause for each field. -/
theorem ofFields_of_ne_nil (h : termsOver options fields values ≠ []) :
    ofFields options fields values = group options.operator (fields.map (· ++ ":" ++
      group (operatorWithin options fields) (termsOver options fields values))) := by
  have hvalue : group (operatorWithin options fields) (termsOver options fields values) ≠ "" :=
    group_ne_empty h fun _ => ne_empty_of_mem_formatValues
  rw [← List.map_congr_left fun field _ => qualified_of_ne_empty hvalue field]
  rcases fields with _ | ⟨field, _ | ⟨second, rest⟩⟩
  · rfl
  · rfl
  · exact if_neg (mt String.isEmpty_iff.mp hvalue)

theorem termsOver_cons_of_blank {v : FilterValue}
    (h : formatValue (optionsOver options fields) v.text = none) :
    termsOver options fields (v :: values) = termsOver options fields values := by
  simp only [termsOver, formatValues, List.filterMap_cons, h]

theorem termsOver_cons_of_written {v : FilterValue} {term : String}
    (h : formatValue (optionsOver options fields) v.text = some term) :
    termsOver options fields (v :: values) = term :: termsOver options fields values := by
  simp only [termsOver, formatValues, List.filterMap_cons, h]

/-- Values that are asked for one by one: a clause for each of them that is not blank. -/
theorem join_ofFields_each (options : ClauseOptions) (fields : List String)
    (values : List FilterValue) :
    String.join (values.map fun v => ofFields options fields [v]) =
      String.join ((termsOver options fields values).map fun term =>
        group options.operator (fields.map (· ++ ":" ++ term))) := by
  induction values with
  | nil => rfl
  | cons v values ih =>
      rw [List.map_cons, String.join_cons, ih]
      cases hformat : formatValue (optionsOver options fields) v.text with
      | none =>
          have hclause : ofFields options fields [v] = "" :=
            ofFields_of_nil (termsOver_cons_of_blank hformat)
          rw [hclause, termsOver_cons_of_blank hformat, String.empty_append]
      | some term =>
          have hterm : termsOver options fields [v] = [term] := termsOver_cons_of_written hformat
          rw [ofFields_of_ne_nil (by simp [hterm]), hterm, group, termsOver_cons_of_written hformat,
            List.map_cons, String.join_cons]

/-- What the clause of the values over the given fields asks for. -/
def formulaOf (options : ClauseOptions) (fields : List String) (values : List FilterValue) :
    Formula :=
  match termsOver options fields values with
  | [] => .shown .and []
  | terms => .shown options.operator
      (fields.map fun field => ⟨field, .shown (operatorWithin options fields) terms⟩)

theorem formulaOf_of_nil (h : termsOver options fields values = []) :
    formulaOf options fields values = .shown .and [] := by
  rw [formulaOf, h]

theorem formulaOf_of_ne_nil (h : termsOver options fields values ≠ []) :
    formulaOf options fields values = .shown options.operator (fields.map fun field =>
      ⟨field, .shown (operatorWithin options fields) (termsOver options fields values)⟩) := by
  obtain ⟨term, terms, hterms⟩ := List.exists_cons_of_ne_nil h
  rw [formulaOf, hterms]

/-- The clause of the values over the given fields is the text of its formula. -/
theorem text_formulaOf (options : ClauseOptions) (fields : List String)
    (values : List FilterValue) :
    (formulaOf options fields values).text = ofFields options fields values := by
  by_cases hterms : termsOver options fields values = []
  · rw [formulaOf_of_nil hterms, ofFields_of_nil hterms]
    rfl
  · rw [formulaOf_of_ne_nil hterms, ofFields_of_ne_nil hterms, Formula.text,
      Combination.write_shown, List.map_map]
    congr 1
    apply List.map_congr_left
    intro field _
    rw [Function.comp_apply, FieldFormula.text, Combination.write_shown, List.map_id]

end FacetedSearch.Clause
