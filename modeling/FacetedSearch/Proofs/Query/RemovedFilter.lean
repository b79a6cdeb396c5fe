import FacetedSearch.Proofs.Query.Scope
import FacetedSearch.Proofs.State.Removal

/-!
# The query after a removal

Removing a value from a category changes the clauses of this category and leaves those of all
others as they are, although the slots of its followers change as well: groups are asked for by the
cells alone, and the years by the two flags, of which an active one keeps them. What the map filter
and the flags are set by is another matter: the years, the switch of the map and the groups have no
clauses of their own, and those that read them change with them.
-/

namespace FacetedSearch

open Category

namespace Query

/-- The categories without clauses of their own whose slots the clauses of others read. -/
def sharedSettings : List Category :=
  [yearMin, yearMax, useGeohash, geohashGroups]

/-- What a category adds to a query: its own query while it is active. -/
def Source.share (q : Source) (c : Category) : String :=
  if q.state.isActive c then (compile { q with scope := some c }).text else ""

section Removal

variable {s : State} {c d e : Category}

/-- A category with clauses follows no other. -/
theorem not_mem_followers_of_mem (h : d ∈ clauseOrder) (c : Category) : d ∉ c.followers := by
  have hall : ∀ d ∈ clauseOrder, d ≠ yearMin ∧ d ≠ yearMax ∧ d ≠ geohashGroups := by
    decide
  obtain ⟨hfirst, hlast, hgroups⟩ := hall d h
  exact not_mem_followers hfirst hlast hgroups c

/-- Only the flags read the years. -/
theorem exists_otherFlag?_of_readBy (h : d ∈ clauseOrder) (hyear : e = yearMin ∨ e = yearMax)
    (he : e ∈ readBy d) : ∃ other, d.otherFlag? = some other := by
  have hall : ∀ d ∈ clauseOrder, yearMin ∈ readBy d ∨ yearMax ∈ readBy d →
      d.otherFlag? ≠ none := by
    decide
  apply Option.ne_none_iff_exists'.mp
  apply hall d h
  rcases hyear with rfl | rfl
  · exact Or.inl he
  · exact Or.inr he

/-- The slots that an active category reads stay when a value is removed from another one. -/
theorem get?_remove_of_mem_readBy (hc : c ∉ sharedSettings) (hd : d ∈ clauseOrder)
    (hne : d ≠ c) (active : s.isActive d = true) (he : e ∈ readBy d) (value : String) :
    (s.remove c value).get? e = s.get? e := by
  rcases eq_or_year_of_mem_readBy he with rfl | hyear
  · exact State.get?_remove_of_ne hne (not_mem_followers_of_mem hd c) value
  · have hec : e ≠ c := by
      rintro rfl
      rcases hyear with rfl | rfl <;> exact hc (by decide)
    by_cases hfollower : e ∈ c.followers
    · -- The value is removed from the other flag, and the range stays for this one.
      obtain ⟨other, hother⟩ := otherFlag?_of_year_mem_followers hyear hfollower
      obtain ⟨another, hanother⟩ := exists_otherFlag?_of_readBy hd hyear he
      exact State.get?_remove_of_otherFlag? (otherFlag?_of_ne hother hanother hne) active hec value
    · exact State.get?_remove_of_ne hec hfollower value

end Removal

namespace Source

variable {q : Source} {c d : Category}

/-- Removing a value from one category keeps the clauses of every other. -/
theorem part_remove (unscoped : q.scope = none) (posts : q.settings.disableQueryPosts = false)
    (hc : c ∉ sharedSettings) (hd : d ∈ clauseOrder) (hne : d ≠ c) (value : String) :
    { q with state := q.state.remove c value }.part d = q.part d := by
  let r : Source := { q with state := q.state.remove c value }
  change r.part d = q.part d
  have hwants : r.wants d = q.wants d := by
    rw [wants_unscoped (q := r) unscoped, wants_unscoped unscoped]
    exact State.isActive_remove_of_ne hne (not_mem_followers_of_mem hd c) value
  by_cases hcells : d = geohashes
  · subst hcells
    have hswitch : r.state.get? useGeohash = q.state.get? useGeohash :=
      State.get?_remove_of_ne (ne_of_mem_of_not_mem (by decide) hc)
        (not_mem_followers (by decide) (by decide) (by decide) c) value
    have hgroups : r.state.groups = q.state.groups :=
      State.groups_congr (State.get?_remove_of_ne (ne_of_mem_of_not_mem (by decide) hc)
        (geohashGroups_not_mem_followers hne.symm) value)
    have hmap : r.wantsMap = q.wantsMap := by
      rw [wantsMap, wantsMap, hwants, State.flag, State.flag, hswitch, State.hasGroups,
        State.hasGroups, hgroups]
    rw [part_geohashes, part_geohashes, mapClause, mapClause, hmap, hgroups,
      mapBudget_of_posts (q := r) posts, mapBudget_of_posts posts]
  · rw [part_of_ne hcells, part_of_ne hcells]
    refine contribution_congr rfl rfl hwants fun hwanted e he => ?_
    rw [wants_unscoped unscoped] at hwanted
    exact get?_remove_of_mem_readBy hc hd hne hwanted he value

/-- Without a scope a category adds its clauses to the query. -/
theorem share_eq (unscoped : q.scope = none) (posts : q.settings.disableQueryPosts = false)
    (hd : d ∈ clauseOrder) : q.share d = separator.intercalate (q.part d) := by
  rw [share]
  split
  · rename_i hactive
    rw [compile, q.clauses_own_scope hd, part_own_scope unscoped posts hactive]
  · rename_i hquiet
    rw [part_eq_nil_of_not_wants, String.intercalate_nil]
    rw [wants_unscoped unscoped]
    simpa using hquiet

theorem share_of_not_mem (hd : d ∉ clauseOrder) : q.share d = "" := by
  rw [share, compile, q.clauses_scope_of_not_mem hd, String.intercalate_nil, ite_self]

theorem part_of_not_mem (h : c ∉ clauseOrder) : q.part c = [] := by
  have hcells : c ≠ geohashes := by
    rintro rfl
    exact h (by decide)
  have hclauses : q.clausesOf c = [] := by
    cases c with
    | yearMin | yearMax | sortOrder | sortByReads | east | west | north | south | useGeohash
    | geohashes | geohashLevel | geohashGroups | semAnnotations | seriesId | provFields => rfl
    | _ => exact absurd (by decide) h
  rw [part_of_ne hcells, contribution, hclauses, List.filter_nil, ite_self]

/-- Around the clauses of one category the query stays. -/
theorem exists_clauses_around {r : Source} (h : ∀ d ∈ clauseOrder, d ≠ c → r.part d = q.part d) :
    ∃ front back,
      q.clauses = front ++ q.part c ++ back ∧ r.clauses = front ++ r.part c ++ back := by
  rw [clauses_eq_flatMap_part, clauses_eq_flatMap_part]
  by_cases hc : c ∈ clauseOrder
  · obtain ⟨before, after, hsplit⟩ := List.append_of_mem hc
    have hnodup := clauseOrder_nodup
    rw [hsplit, List.nodup_append, List.nodup_cons] at hnodup
    rw [hsplit] at h ⊢
    have hbefore : before.flatMap r.part = before.flatMap q.part :=
      List.flatMap_congr fun d hd => h d (List.mem_append_left _ hd)
        (hnodup.2.2 d hd c List.mem_cons_self)
    have hafter : after.flatMap r.part = after.flatMap q.part :=
      List.flatMap_congr fun d hd => h d (List.mem_append_right _ (List.mem_cons_of_mem c hd))
        (ne_of_mem_of_not_mem hd hnodup.2.1.1)
    refine ⟨before.flatMap q.part, after.flatMap q.part, ?_, ?_⟩
    · rw [List.flatMap_append, List.flatMap_cons, List.append_assoc]
    · rw [List.flatMap_append, List.flatMap_cons, hbefore, hafter, List.append_assoc]
  · have hsame : clauseOrder.flatMap r.part = clauseOrder.flatMap q.part :=
      List.flatMap_congr fun d hd => h d hd (ne_of_mem_of_not_mem hd hc)
    refine ⟨clauseOrder.flatMap q.part, [], ?_, ?_⟩
    · rw [part_of_not_mem hc, List.append_nil, List.append_nil]
    · rw [part_of_not_mem hc, List.append_nil, List.append_nil, hsame]

end Source

/-- Where queries can be posted, removing a value from a category leaves what every other category
adds to the query as it is, unless the category is a setting that others read. The query itself
stays around the clauses of the category. -/
theorem removal_keeps_other_clauses (state : State) (catalog : Catalog) (settings : Settings)
    (posts : settings.disableQueryPosts = false) {c : Category} (hc : c ∉ sharedSettings)
    (value : String) :
    let before : Source := { state, catalog, settings }
    let after : Source := { before with state := state.remove c value }
    (∀ d, d ≠ c → after.share d = before.share d) ∧
      ∃ front back, before.clauses = front ++ before.part c ++ back ∧
        after.clauses = front ++ after.part c ++ back := by
  intro before after
  have hpart : ∀ d ∈ clauseOrder, d ≠ c → after.part d = before.part d := fun d hd hne =>
    Source.part_remove (q := before) rfl posts hc hd hne value
  refine ⟨fun d hne => ?_, Source.exists_clauses_around hpart⟩
  by_cases hd : d ∈ clauseOrder
  · rw [Source.share_eq (q := after) rfl posts hd, Source.share_eq (q := before) rfl posts hd,
      hpart d hd hne]
  · rw [Source.share_of_not_mem hd, Source.share_of_not_mem hd]

/-- A visit with both flags over a range of years, a term and some cells. -/
def datedVisit : State :=
  (State.new (.forYear 2024)).run
    [.setYearRange 1990 2000, .setFlag .pubYear true, .setFlag .dataYear true,
      .pushValue .fullText (.plain "salmon"), .setGeohashes [.plain "9q"]]

/-- The range of publication dates goes, and the time the data cover stays. -/
theorem removal_keeps_other_clauses_datedVisit :
    let before : Source := { state := datedVisit, catalog := .standard, settings := {} }
    let after : Source := { before with state := datedVisit.remove pubYear "" }
    ({} : Settings).disableQueryPosts = false ∧ pubYear ∉ sharedSettings ∧ dataYear ≠ pubYear ∧
      before.share pubYear ≠ "" ∧ after.share pubYear = "" ∧
      after.share dataYear = before.share dataYear ∧
      after.share dataYear =
        "beginDate:[1990-01-01T00:00:00Z TO *] AND endDate:[* TO 2000-12-31T00:00:00Z]" := by
  intro before after
  obtain ⟨hshare, -⟩ :=
    removal_keeps_other_clauses datedVisit .standard {} rfl (c := pubYear) (by decide) ""
  exact ⟨rfl, by decide, by decide, by decide +kernel, by decide +kernel,
    hshare dataYear (by decide), by decide +kernel⟩

end Query

end FacetedSearch
