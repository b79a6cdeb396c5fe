import FacetedSearch.Text.Order

/-!
# Joined texts

Joining texts by a separator is associative once the empty groups are left out, and the part of a
joined text in front of a member is the earlier members, each followed by the separator. The sizes
of joined texts follow from this.
-/

namespace FacetedSearch.Text

theorem intercalate_ne_empty {sep : String} {texts : List String} (filled : texts ≠ [])
    (texts_ne : ∀ t ∈ texts, t ≠ "") : sep.intercalate texts ≠ "" := by
  cases texts with
  | nil => exact absurd rfl filled
  | cons t rest =>
      have ht : t ≠ "" := texts_ne t List.mem_cons_self
      cases rest with
      | nil => simpa using ht
      | cons u more =>
          rw [String.intercalate_cons_cons, String.append_assoc]
          intro h
          exact ht (String.append_eq_empty_iff.mp h).1

/-- Groups of texts can be joined one by one first. -/
theorem intercalate_flatten_of_filled (sep : String) {groups : List (List String)}
    (filled : ∀ group ∈ groups, group ≠ []) :
    sep.intercalate groups.flatten = sep.intercalate (groups.map sep.intercalate) := by
  induction groups with
  | nil => rfl
  | cons group groups ih =>
      obtain ⟨hgroup, hgroups⟩ := List.forall_mem_cons.mp filled
      by_cases hnil : groups = []
      · simp [hnil]
      · have hflat : groups.flatten ≠ [] := by
          intro h
          obtain ⟨other, hother⟩ := List.exists_mem_of_ne_nil groups hnil
          exact hgroups other hother (List.flatten_eq_nil_iff.mp h other hother)
        rw [List.flatten_cons, String.intercalate_append_of_ne_nil hgroup hflat, ih hgroups,
          List.map_cons, String.intercalate_cons_of_ne_nil (by simpa using hnil)]

/-- A group without texts leaves no trace, as long as no text is empty itself. -/
theorem intercalate_flatten (sep : String) {groups : List (List String)}
    (texts_ne : ∀ group ∈ groups, ∀ t ∈ group, t ≠ "") :
    sep.intercalate groups.flatten =
      sep.intercalate ((groups.map sep.intercalate).filter (!·.isEmpty)) := by
  have hkept : ∀ group ∈ groups, (!(sep.intercalate group).isEmpty) = !group.isEmpty := by
    intro group hgroup
    by_cases hnil : group = []
    · simp [hnil]
    · have hjoined : sep.intercalate group ≠ "" :=
        intercalate_ne_empty hnil (texts_ne group hgroup)
      have hleft : (sep.intercalate group).isEmpty = false := by
        simpa using hjoined
      have hright : group.isEmpty = false := by
        simpa using hnil
      rw [hleft, hright]
  rw [← List.flatten_filter_not_isEmpty, intercalate_flatten_of_filled sep, List.filter_map]
  · exact congrArg (fun kept => sep.intercalate (kept.map sep.intercalate))
      (List.filter_congr hkept).symm
  · intro group hgroup
    simpa using (List.mem_filter.mp hgroup).2

theorem intercalate_cons (sep t : String) (rest : List String) :
    sep.intercalate (t :: rest) = t ++ String.join (rest.map (sep ++ ·)) := by
  induction rest generalizing t with
  | nil => simp
  | cons u rest ih =>
      rw [String.intercalate_cons_cons, ih, List.map_cons, String.join_cons]
      simp only [String.append_assoc]

/-- What stands in front of a member of a joined text, and what stands behind it. -/
theorem intercalate_append_cons (sep : String) (front : List String) (t : String)
    (back : List String) :
    sep.intercalate (front ++ t :: back) =
      String.join (front.map (· ++ sep)) ++ t ++ String.join (back.map (sep ++ ·)) := by
  induction front with
  | nil => simpa using intercalate_cons sep t back
  | cons u front ih =>
      rw [List.cons_append, String.intercalate_cons_of_ne_nil (by simp), ih, List.map_cons,
        String.join_cons]
      simp only [String.append_assoc]

/-- With one more separator behind it, a joined text is its members, each with a separator. -/
theorem intercalate_append_sep (sep : String) {texts : List String} (filled : texts ≠ []) :
    sep.intercalate texts ++ sep = String.join (texts.map (· ++ sep)) := by
  induction texts with
  | nil => exact absurd rfl filled
  | cons t rest ih =>
      by_cases hrest : rest = []
      · simp [hrest]
      · rw [String.intercalate_cons_of_ne_nil hrest, List.map_cons, String.join_cons, ← ih hrest,
          String.append_assoc]

/-- A joined text is longer with one more text in it. -/
theorem length_intercalate_lt {sep t : String} (ht : t ≠ "") (front back : List String) :
    (sep.intercalate (front ++ back)).length < (sep.intercalate (front ++ t :: back)).length := by
  have hpos : 0 < t.length := by
    rw [← String.length_toList, List.length_pos_iff]
    simpa using ht
  induction front with
  | nil =>
      cases back with
      | nil => simpa using hpos
      | cons u back =>
          rw [List.nil_append, List.nil_append, String.intercalate_cons_cons]
          simp only [String.length_append]
          omega
  | cons u front ih =>
      have hlong : sep.intercalate (u :: (front ++ t :: back)) =
          u ++ sep ++ sep.intercalate (front ++ t :: back) :=
        String.intercalate_cons_of_ne_nil (by simp)
      rw [List.cons_append, List.cons_append, hlong]
      by_cases hnil : front ++ back = []
      · rw [hnil, String.intercalate_nil, String.length_empty] at ih
        rw [hnil, String.intercalate_singleton]
        simp only [String.length_append]
        omega
      · rw [String.intercalate_cons_of_ne_nil hnil]
        simp only [String.length_append]
        omega

/-- Texts that each hold a character equally often. -/
theorem count_join {c : Char} {k : Nat} {texts : List String}
    (h : ∀ text ∈ texts, text.toList.count c = k) :
    (String.join texts).toList.count c = texts.length * k := by
  induction texts with
  | nil => simp
  | cons text texts ih =>
      rw [List.forall_mem_cons] at h
      rw [String.join_cons, String.toList_append, List.count_append, h.1, ih h.2, List.length_cons,
        Nat.add_mul, Nat.one_mul, Nat.add_comm]

end FacetedSearch.Text
