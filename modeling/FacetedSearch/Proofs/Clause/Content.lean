import FacetedSearch.Proofs.Clause.Formula
import FacetedSearch.Proofs.Text.Blank
import Mathlib.Logic.Relation

/-!
# What values say

The same values can be spelled in several ways. Blank values say nothing, blank characters around a
value are not part of it, and a label is for the interface only. What is left is the content of the
values: their trimmed texts in order, without the empty ones. Two lists are spellings of each other
exactly when they have the same content, and the clause of a list is made of its content.
-/

namespace FacetedSearch

open Text

namespace FilterValue

/-- The trimmed texts of the values that are not blank. -/
def content (vs : List FilterValue) : List String :=
  (vs.map fun v => trim v.text).filter (!·.isEmpty)

/-- The second list is another spelling of the first one at one place. -/
inductive Respelling : List FilterValue → List FilterValue → Prop
  /-- A blank value is put in. -/
  | inserted (front back : List FilterValue) {v : FilterValue} (blank : Blank v.text) :
      Respelling (front ++ back) (front ++ v :: back)
  /-- Blank characters are put around a value. -/
  | padded (front back : List FilterValue) {v w : FilterValue} {before after : String}
      (hbefore : Blank before) (hafter : Blank after) (text : w.text = before ++ v.text ++ after) :
      Respelling (front ++ v :: back) (front ++ w :: back)
  /-- A value is exchanged for one of the same text, with any label or none. -/
  | exchanged (front back : List FilterValue) {v w : FilterValue} (text : w.text = v.text) :
      Respelling (front ++ v :: back) (front ++ w :: back)

/-- Either list comes out of the other one by respelling it place by place, in either direction. -/
def Respelled : List FilterValue → List FilterValue → Prop :=
  Relation.EqvGen Respelling

variable {v w : FilterValue} {vs ws front back : List FilterValue}

theorem content_cons_of_blank (h : trim v.text = "") : content (v :: vs) = content vs := by
  simp [content, h]

theorem content_cons_of_filled (h : trim v.text ≠ "") :
    content (v :: vs) = trim v.text :: content vs := by
  simp [content, h]

theorem content_append : content (front ++ back) = content front ++ content back := by
  rw [content, List.map_append, List.filter_append, content, content]

/-- Only the trimmed text of a value matters. -/
theorem content_cons_congr (h : trim v.text = trim w.text) :
    content (v :: vs) = content (w :: vs) := by
  rw [content, List.map_cons, h, content, List.map_cons]

theorem Respelling.content_eq (h : Respelling vs ws) : content vs = content ws := by
  cases h with
  | inserted _ _ blank =>
      rw [content_append, content_append, content_cons_of_blank (trim_eq_empty.mpr blank)]
  | padded _ _ hbefore hafter text =>
      rw [content_append, content_append, content_cons_congr]
      rw [text, trim_padded hbefore hafter]
  | exchanged _ _ text =>
      rw [content_append, content_append, content_cons_congr (congrArg trim text.symm)]

theorem Respelled.content_eq (h : Respelled vs ws) : content vs = content ws := by
  induction h with
  | rel _ _ hstep => exact hstep.content_eq
  | refl _ => rfl
  | symm _ _ _ ih => exact ih.symm
  | trans _ _ _ _ _ ihfirst ihsecond => exact ihfirst.trans ihsecond

theorem Respelling.cons (h : Respelling vs ws) (v : FilterValue) :
    Respelling (v :: vs) (v :: ws) := by
  cases h with
  | inserted front back blank => exact inserted (v :: front) back blank
  | padded front back hbefore hafter text => exact padded (v :: front) back hbefore hafter text
  | exchanged front back text => exact exchanged (v :: front) back text

theorem Respelled.cons (h : Respelled vs ws) (v : FilterValue) :
    Respelled (v :: vs) (v :: ws) := by
  induction h with
  | rel _ _ hstep => exact .rel _ _ (hstep.cons v)
  | refl _ => exact .refl _
  | symm _ _ _ ih => exact .symm _ _ ih
  | trans _ _ _ _ _ ihfirst ihsecond => exact .trans _ _ _ ihfirst ihsecond

/-- Every list is a spelling of its content. -/
theorem respelled_content (vs : List FilterValue) :
    Respelled ((content vs).map plain) vs := by
  induction vs with
  | nil => exact .refl _
  | cons v vs ih =>
      by_cases hblank : trim v.text = ""
      · rw [content_cons_of_blank hblank]
        exact .trans _ _ _ ih (.rel _ _ (.inserted [] vs (trim_eq_empty.mp hblank)))
      · rw [content_cons_of_filled hblank]
        obtain ⟨before, after, hbefore, hafter, hsplit⟩ := exists_padded_trim v.text
        exact .trans _ _ _ (ih.cons _) (.rel _ _ (.padded [] vs hbefore hafter hsplit))

/-- Spellings of each other are the lists with the same content. -/
theorem respelled_iff : Respelled vs ws ↔ content vs = content ws := by
  constructor
  · exact Respelled.content_eq
  · intro h
    have hvs := respelled_content vs
    rw [h] at hvs
    exact .trans _ _ _ (.symm _ _ hvs) (respelled_content ws)

end FilterValue

namespace Clause

open FilterValue

variable {options : ClauseOptions} {fields : List String} {vs ws : List FilterValue}

/-- Written values are the content of the values with each text written in its frame. -/
theorem formatValues_eq_map_content (options : ClauseOptions) (vs : List FilterValue) :
    formatValues options vs = (content vs).map fun text =>
      frame options text ++ options.encoding.encodeEscaped text ++ frame options text := by
  induction vs with
  | nil => rfl
  | cons v vs ih =>
      rw [formatValues, List.filterMap_cons, formatValue_eq, ← formatValues, ih]
      by_cases hblank : trim v.text = ""
      · rw [if_pos hblank, content_cons_of_blank hblank]
      · rw [if_neg hblank, content_cons_of_filled hblank, List.map_cons]

theorem formatValues_congr (h : content vs = content ws) :
    formatValues options vs = formatValues options ws := by
  rw [formatValues_eq_map_content, h, formatValues_eq_map_content]

theorem oneField_congr (h : content vs = content ws) (field : String) :
    oneField options field vs = oneField options field ws := by
  rw [oneField, formatValues_congr h, oneField]

theorem ofFields_congr (h : content vs = content ws) :
    ofFields options fields vs = ofFields options fields ws := by
  unfold ofFields
  split
  · rfl
  · exact oneField_congr h _
  · rw [manyFields, formatValues_congr h, manyFields]

/-- Values that are asked for one by one are asked for by their content as well. -/
theorem join_ofFields_congr (h : content vs = content ws) :
    String.join (vs.map fun v => ofFields options fields [v]) =
      String.join (ws.map fun v => ofFields options fields [v]) := by
  rw [join_ofFields_each, termsOver, formatValues_congr h, ← termsOver, ← join_ofFields_each]

end Clause

end FacetedSearch
