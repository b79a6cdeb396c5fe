import FacetedSearch.Proofs.Clause.FormulaReading
import FacetedSearch.Proofs.Text.Join

/-!
# Clauses told apart

In a URL two lists of values have the same clause over the same fields only when they are written
alike, value by value. The fields may have any names: a clause holds the group of its values once
for each field, so its length tells the length of the group, and the first field tells where the
group starts. The group itself is read member by member.
-/

namespace FacetedSearch

open Text

namespace Clause

/-! ## Groups with a common end -/

/-- Each member of a joined text that is continued makes the text longer. -/
theorem length_intercalate_map_append (sep : String) (fronts : List String) (t : String) :
    (sep.intercalate (fronts.map (· ++ t))).length =
      (sep.intercalate fronts).length + fronts.length * t.length := by
  induction fronts with
  | nil => simp
  | cons front fronts ih =>
      by_cases hnil : fronts = []
      · simp [hnil]
      · rw [List.map_cons, String.intercalate_cons_of_ne_nil (by simpa using hnil),
          String.intercalate_cons_of_ne_nil hnil, List.length_cons, Nat.add_mul, Nat.one_mul]
        simp only [String.length_append, ih]
        omega

theorem length_group_map_append (operator : Operator) (fronts : List String) (t : String) :
    (group operator (fronts.map (· ++ t))).length =
      (group operator fronts).length + fronts.length * t.length := by
  rcases fronts with _ | ⟨first, _ | ⟨second, rest⟩⟩
  · simp [group]
  · simp [group]
  · have hlength := length_intercalate_map_append operator.separator (first :: second :: rest) t
    simp only [List.map_cons] at hlength ⊢
    simp only [group, String.length_append, hlength]
    omega

/-- The first member of a group stands where the other members have no say. -/
theorem exists_group_cons (operator : Operator) (fronts : List String) :
    ∃ opening, ∀ first (f : String → String), ∃ closing,
      group operator (first :: fronts.map f) = opening ++ first ++ closing := by
  rcases fronts with _ | ⟨second, rest⟩
  · exact ⟨"", fun first f => ⟨"", by simp [group]⟩⟩
  · refine ⟨"(", fun first f =>
      ⟨String.join (((second :: rest).map f).map (operator.separator ++ ·)) ++ ")", ?_⟩⟩
    simp only [List.map_cons, group, intercalate_cons, String.append_assoc]

/-- What all members of a group end with can be told from the group. -/
theorem group_map_append_injective (operator : Operator) {fronts : List String}
    (filled : fronts ≠ []) :
    Function.Injective fun t => group operator (fronts.map (· ++ t)) := by
  intro t u hsame
  dsimp only at hsame
  obtain ⟨front, fronts, rfl⟩ := List.exists_cons_of_ne_nil filled
  have hlength : t.length = u.length := by
    have htexts := congrArg String.length hsame
    rw [length_group_map_append, length_group_map_append, Nat.add_left_cancel_iff] at htexts
    exact Nat.eq_of_mul_eq_mul_left (Nat.succ_pos fronts.length) htexts
  obtain ⟨opening, hopening⟩ := exists_group_cons operator fronts
  obtain ⟨closing, ht⟩ := hopening (front ++ t) (· ++ t)
  obtain ⟨closing', hu⟩ := hopening (front ++ u) (· ++ u)
  rw [List.map_cons, List.map_cons, ht, hu, ← String.toList_inj] at hsame
  simp only [String.toList_append, List.append_assoc, List.append_cancel_left_eq] at hsame
  refine String.toList_inj.mp (List.append_inj_left hsame ?_)
  rw [String.length_toList, String.length_toList, hlength]

/-- A group of readable members tells its members. -/
theorem members_eq_of_group_eq {operator : Operator} {members others : List String}
    (h : ∀ m ∈ members, IsMember m.toList) (hothers : ∀ m ∈ others, IsMember m.toList)
    (hsame : group operator members = group operator others) : members = others := by
  have hread := readGroup?_group operator h
  rw [hsame, readGroup?_group operator hothers, Option.some.injEq] at hread
  have hchars : others.map String.toList = members.map String.toList :=
    congrArg Combination.members hread
  exact (List.map_injective_iff.mpr (fun _ _ => String.toList_inj.mp) hchars).symm

/-! ## Clauses over fields -/

variable {options : ClauseOptions} {fields : List String} {values others : List FilterValue}

/-- Only values that are blank leave no clause. -/
theorem ofFields_eq_empty (named : fields ≠ []) :
    ofFields options fields values = "" ↔ termsOver options fields values = [] := by
  refine ⟨fun hempty => ?_, ofFields_of_nil⟩
  by_contra hterms
  rw [ofFields_of_ne_nil hterms] at hempty
  refine group_ne_empty (by simpa using named) ?_ hempty
  rw [List.forall_mem_map]
  exact fun field _ => by simp

theorem isMember_of_mem_termsOver (url : options.encoding = .url) :
    ∀ term ∈ termsOver options fields values, IsMember term.toList := fun term hterm =>
  (isWord_of_mem_termsOver url term hterm).isMember (ne_empty_of_mem_formatValues hterm)

/-- The clause over some fields tells the written values. -/
theorem termsOver_eq_of_ofFields_eq (url : options.encoding = .url) (named : fields ≠ [])
    (hsame : ofFields options fields values = ofFields options fields others) :
    termsOver options fields values = termsOver options fields others := by
  by_cases hterms : termsOver options fields values = []
  · have hempty : ofFields options fields others = "" := by
      rw [← hsame, ofFields_of_nil hterms]
    rw [hterms, (ofFields_eq_empty named).mp hempty]
  · have hothers : termsOver options fields others ≠ [] := by
      intro hothers
      rw [ofFields_of_nil hothers, ofFields_eq_empty named] at hsame
      exact hterms hsame
    rw [ofFields_of_ne_nil hterms, ofFields_of_ne_nil hothers] at hsame
    have hfronts : ∀ t : String,
        fields.map (· ++ ":" ++ t) = (fields.map (· ++ ":")).map (· ++ t) :=
      fun t => by simp only [List.map_map, Function.comp_def]
    rw [hfronts, hfronts] at hsame
    exact members_eq_of_group_eq (isMember_of_mem_termsOver url) (isMember_of_mem_termsOver url)
      (group_map_append_injective options.operator (by simpa using named) hsame)

/-- In a URL two lists of values have the same clause over the same fields exactly when they are
written alike: the values that are not blank have the same texts in the same order. No written value
holds a blank, nor a mark of the query language that is not escaped, so none can look like the
operator between two values, like a parenthesis, or like the rest of another value. -/
theorem ofFields_url_unambiguous (url : options.encoding = .url) (named : fields ≠ [])
    (values others : List FilterValue) :
    (ofFields options fields values = ofFields options fields others ↔
        termsOver options fields values = termsOver options fields others) ∧
      ∀ term ∈ termsOver options fields values,
        term ≠ "" ∧ ' ' ∉ term.toList ∧ '"' ∉ term.toList ∧ bareMarks term = [] := by
  refine ⟨⟨termsOver_eq_of_ofFields_eq url named, fun hterms => ?_⟩, fun term hterm => ?_⟩
  · rw [← text_formulaOf, ← text_formulaOf, formulaOf, formulaOf, hterms]
  · obtain ⟨_, value, hencoding, hformat⟩ := exists_formatValue_of_mem_termsOver hterm
    have hurl := hencoding.trans url
    refine ⟨formatValue_ne_empty hformat,
      not_mem_of_formatValue hurl hformat (by decide) (by decide) (by decide),
      not_mem_of_formatValue hurl hformat (by decide) (by decide) (by decide), ?_⟩
    rw [bareMarks_formatValue hformat, hurl]

/-- One value with the name of the operator in it, and the two values that it could be taken for. -/
theorem ofFields_url_unambiguous_operator_in_value :
    ({} : ClauseOptions).encoding = .url ∧ ["id", "title"] ≠ [] ∧
      termsOver {} ["id", "title"] [.plain " a OR (b)"] = ["%22a%20OR%20\\(b\\)%22"] ∧
      termsOver {} ["id", "title"] [.plain "a", .plain " ", .described "(b)" "B" none] =
        ["%22a%22", "%22\\(b\\)%22"] ∧
      ofFields {} ["id", "title"] [.plain " a OR (b)"] ≠
        ofFields {} ["id", "title"] [.plain "a", .plain " ", .described "(b)" "B" none] := by
  have hone : termsOver {} ["id", "title"] [.plain " a OR (b)"] =
      ["%22a%20OR%20\\(b\\)%22"] := by
    decide +kernel
  have htwo : termsOver {} ["id", "title"] [.plain "a", .plain " ", .described "(b)" "B" none] =
      ["%22a%22", "%22\\(b\\)%22"] := by
    decide +kernel
  refine ⟨rfl, by decide, hone, htwo, fun hsame => ?_⟩
  have hterms := (ofFields_url_unambiguous rfl (by decide) _ _).1.mp hsame
  rw [hone, htwo] at hterms
  simp at hterms

end Clause

end FacetedSearch
