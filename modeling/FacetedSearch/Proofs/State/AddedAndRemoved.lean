import FacetedSearch.Proofs.Query.Reported
import FacetedSearch.Proofs.State.Saved

/-!
# A value that is added and removed again

Adding a value to a category puts it behind the values that are there, and removing it takes out
whatever has its text. A list comes back this way if no other value has the text. A category that
starts from a flag does not: its slot becomes a list and stays one, and a list without values is
not the flag that it started from, so the category is reported from then on.
-/

namespace FacetedSearch

open Category

/-- The category takes lists of values, whatever else it takes. -/
def Category.TakesLists (c : Category) : Prop :=
  c.shape.accepts (.values []) = true

instance (c : Category) : Decidable c.TakesLists :=
  inferInstanceAs (Decidable (_ = true))

namespace State

variable {s : State} {c : Category}

theorem put_put (s : State) (c : Category) (first second : Slot) :
    (s.put c first).put c second = s.put c second := by
  refine ext_get? (s := s.put c second) rfl fun d => ?_
  rw [get?_put, get?_put, get?_put]
  split <;> rfl

/-- Putting the slot that a category has in its place changes nothing. -/
theorem put_of_get? {slot : Slot} (h : s.get? c = some slot) : s.put c slot = s := by
  refine ext_get? (s := s) rfl fun d => ?_
  rw [get?_put]
  split
  · rename_i hd
    rw [hd, h]
  · rfl

theorem values_of_get? {vs : List FilterValue} (h : s.get? c = some (.values vs)) :
    s.values c = vs := by
  rw [values, h]

/-- A value goes behind the values that the category holds. A slot of another shape holds none. -/
theorem pushValue_of_takesLists (available : s.isAvailable c = true) (lists : c.TakesLists)
    (v : FilterValue) : s.pushValue c v = .done (s.put c (.values (s.values c ++ [v]))) := by
  by_cases held : ∃ vs, s.get? c = some (.values vs)
  · obtain ⟨vs, held⟩ := held
    rw [pushValue_of_values available held, values_of_get? held]
  · have other : ∀ vs, s.get? c ≠ some (.values vs) := not_exists.mp held
    have hnone : s.values c = [] := by
      rw [values]
      split
      · rename_i vs hvs
        exact absurd hvs (other vs)
      · rfl
    have accepts : c.shape.accepts (.values [v]) = true := by
      rw [c.shape.accepts_values _ []]
      exact lists
    rw [pushValue_of_other available other, set_of_accepts available accepts, hnone,
      List.nil_append]

/-- Removing a value takes out what has its text. The groups follow the cells. -/
theorem remove_of_values (available : s.isAvailable c = true) (lists : c.TakesLists)
    {vs : List FilterValue} (hvs : s.get? c = some (.values vs)) (value : String) :
    s.remove c value =
      if c = geohashes then (s.put c (.values (vs.filter fun w => w.text != value))).regroup
      else s.put c (.values (vs.filter fun w => w.text != value)) := by
  have hitems : s.removeItems c value = s.put c (.values (vs.filter fun w => w.text != value)) := by
    rw [removeItems, hvs]
  rw [← hitems]
  unfold remove
  rw [if_pos available]
  cases c with
  | pubYear | dataYear => cases lists
  | _ => rfl

/-- A value that is added and removed again takes with it the values of its text. -/
theorem remove_put_append (available : s.isAvailable c = true) (lists : c.TakesLists)
    (vs : List FilterValue) (v : FilterValue) :
    (s.put c (.values (vs ++ [v]))).remove c v.text =
      if c = geohashes then (s.put c (.values (vs.filter fun w => w.text != v.text))).regroup
      else s.put c (.values (vs.filter fun w => w.text != v.text)) := by
  have hfilter : (vs ++ [v]).filter (fun w => w.text != v.text) =
      vs.filter fun w => w.text != v.text := by
    simp
  have hget : (s.put c (.values (vs ++ [v]))).get? c = some (.values (vs ++ [v])) := by
    rw [get?_put, if_pos rfl]
  have havailable : (s.put c (.values (vs ++ [v]))).isAvailable c = true := available
  rw [remove_of_values havailable lists hget, put_put, hfilter]

/-- A value that is added and removed again leaves nothing behind where no other value has its text,
as long as the groups of the cells are those of the cells that come back. -/
theorem remove_put_append_of_free (available : s.isAvailable c = true) (lists : c.TakesLists)
    {vs : List FilterValue} (hvs : s.get? c = some (.values vs)) {v : FilterValue}
    (free : ∀ w ∈ vs, w.text ≠ v.text) (grouped : c = geohashes → s.regroup = s) :
    (s.put c (.values (vs ++ [v]))).remove c v.text = s := by
  have hkept : (vs.filter fun w => w.text != v.text) = vs := by
    rw [List.filter_eq_self]
    exact fun w hw => bne_iff_ne.mpr (free w hw)
  rw [remove_put_append available lists, hkept, put_of_get? hvs]
  split
  · rename_i hcells
    exact grouped hcells
  · rfl

/-- A category outside the map is reported when the values that stay are not its default. -/
theorem mem_currentFilters_remove_put_append (available : s.isAvailable c = true)
    (lists : c.TakesLists) {vs : List FilterValue} {v : FilterValue} {default : Slot}
    (hdefault : s.defaults.get? c = some default)
    (other : Slot.values (vs.filter fun w => w.text != v.text) ≠ default)
    (setting : c ∉ settingsOnly) (place : c.isSpatial = false) :
    c ∈ ((s.put c (.values (vs ++ [v]))).remove c v.text).currentFilters := by
  have hcells : c ≠ geohashes := by
    rintro rfl
    cases place
  rw [remove_put_append available lists, if_neg hcells, mem_currentFilters]
  refine ⟨?_, setting, Or.inr place⟩
  rw [isChanged, get?_put, if_pos rfl, defaults_put, hdefault]
  simp [Slot.sameValue, other]

/-- Cells and groups that are both empty are in step. -/
theorem regroup_of_empty (hcells : s.get? geohashes = some (.values []))
    (hgroups : s.isAvailable geohashGroups = true → s.get? geohashGroups = some (.groups [])) :
    s.regroup = s := by
  by_cases available : s.isAvailable geohashGroups = true
  · have inStep : s.groups = Geohash.groupCells s.cells := by
      rw [groups, hgroups available, cells, values_of_get? hcells]
      rfl
    exact regroup_eq (hgroups available) available inStep rfl fun _ _ => rfl
  · rw [regroup, if_neg available]

end State

theorem shown_of_idsOrFlag {c : Category} (h : c.shape = .idsOrFlag) :
    c ∉ State.settingsOnly ∧ c.isSpatial = false := by
  cases c <;> simp_all [Category.shape] <;> decide

namespace Defaults

variable {d : Defaults} {omitted : List Category} {c : Category}

/-- What is left of a table is as it was. -/
theorem get?_of_contains_without (h : (without d omitted).contains c = true) :
    (without d omitted).get? c = d.get? c := by
  induction omitted generalizing d with
  | nil => rfl
  | cons other omitted ih =>
      have hrest := ih (d := d.erase other) h
      have hsome : ((d.erase other).get? c).isSome = true := by
        rw [← hrest]
        exact h
      rw [Table.get?_erase] at hsome hrest
      split at hsome
      · cases hsome
      · rename_i hother
        rw [if_neg hother] at hrest
        exact hrest

/-- Where ids may stand for a flag, the flag is off at the start. -/
theorem slotFor_of_idsOrFlag (lastYear : Int) (h : c.shape = .idsOrFlag) :
    slotFor lastYear c = .flag false := by
  cases c <;> simp_all [Category.shape, slotFor]

/-- All other lists are lists at the start, and they are empty but for the types of format. -/
theorem exists_values_slotFor (lastYear : Int) (lists : c.TakesLists) (h : c.shape ≠ .idsOrFlag) :
    ∃ vs, slotFor lastYear c = .values vs ∧ (c ≠ formatType → vs = []) := by
  cases c <;> simp_all [Category.TakesLists, Shape.accepts, Category.shape, slotFor]

theorem slotFor_ne_number (lastYear : Int) (lists : c.TakesLists) (x : Decimal.Binary64) :
    slotFor lastYear c ≠ .number x := by
  cases c <;> simp_all [Category.TakesLists, Shape.accepts, Category.shape, slotFor]

end Defaults

namespace WellShaped

variable {lastYear : Int} {omitted : List Category} {s : State} {c : Category} {v : FilterValue}

/-- A category that is not changed has its standard slot, unless that is a number. -/
theorem get?_eq_slotFor (h : WellShaped (Defaults.without (.forYear lastYear) omitted) s)
    (available : s.isAvailable c = true) (unchanged : s.isChanged c = false)
    (unnumbered : ∀ x, Defaults.slotFor lastYear c ≠ .number x) :
    s.get? c = some (Defaults.slotFor lastYear c) ∧
      s.defaults.get? c = some (Defaults.slotFor lastYear c) := by
  have hdefault : (Defaults.without (.forYear lastYear) omitted).get? c =
      some (Defaults.slotFor lastYear c) := by
    rw [h.isAvailable_eq] at available
    exact Defaults.get?_of_contains_without available
  have hslot := h.get?_of_not_isChanged unchanged fun x hx =>
    absurd (Option.some.inj (hdefault.symm.trans hx)) (unnumbered _)
  exact ⟨hslot.trans hdefault, h.defaults_eq ▸ hdefault⟩

/-- Where ids may stand for a flag, the list without values stays in place of the flag. -/
theorem reported_of_idsOrFlag (h : WellShaped (Defaults.without (.forYear lastYear) omitted) s)
    (available : s.isAvailable c = true) (lists : c.TakesLists) (unchanged : s.isChanged c = false)
    (hids : c.shape = .idsOrFlag) :
    c ∈ ((s.put c (.values (s.values c ++ [v]))).remove c v.text).currentFilters := by
  obtain ⟨-, hdefault⟩ :=
    h.get?_eq_slotFor available unchanged (Defaults.slotFor_ne_number lastYear lists)
  rw [Defaults.slotFor_of_idsOrFlag lastYear hids] at hdefault
  obtain ⟨hsetting, hplace⟩ := shown_of_idsOrFlag hids
  exact State.mem_currentFilters_remove_put_append available lists hdefault
    (fun hflag => nomatch hflag) hsetting hplace

/-- A default value with the text of the value that is removed goes with it. Only the types of
format have default values. -/
theorem reported_of_text (h : WellShaped (Defaults.without (.forYear lastYear) omitted) s)
    (available : s.isAvailable c = true) (lists : c.TakesLists) (unchanged : s.isChanged c = false)
    (hlist : c.shape ≠ .idsOrFlag) {w : FilterValue} (hw : w ∈ s.values c)
    (htext : w.text = v.text) :
    c ∈ ((s.put c (.values (s.values c ++ [v]))).remove c v.text).currentFilters := by
  obtain ⟨hslot, hdefault⟩ :=
    h.get?_eq_slotFor available unchanged (Defaults.slotFor_ne_number lastYear lists)
  obtain ⟨vs, hvs, hempty⟩ := Defaults.exists_values_slotFor lastYear lists hlist
  rw [hvs] at hslot hdefault
  rw [State.values_of_get? hslot] at hw ⊢
  obtain rfl : c = formatType := by
    by_contra hformat
    rw [hempty hformat] at hw
    cases hw
  refine State.mem_currentFilters_remove_put_append available lists hdefault ?_
    (by decide) (by decide)
  intro hkept
  have hall := List.filter_eq_self.mp (Slot.values.inj hkept) w hw
  exact bne_iff_ne.mp hall htext

/-- Everywhere else the list of default values comes back, and with it the whole session. -/
theorem remove_put_append (h : WellShaped (Defaults.without (.forYear lastYear) omitted) s)
    (available : s.isAvailable c = true) (lists : c.TakesLists) (unchanged : s.isChanged c = false)
    (ungrouped : c = geohashes → s.isChanged geohashGroups = false) (hlist : c.shape ≠ .idsOrFlag)
    (free : ∀ w ∈ s.values c, w.text ≠ v.text) :
    (s.put c (.values (s.values c ++ [v]))).remove c v.text = s := by
  obtain ⟨hslot, -⟩ :=
    h.get?_eq_slotFor available unchanged (Defaults.slotFor_ne_number lastYear lists)
  obtain ⟨vs, hvs, -⟩ := Defaults.exists_values_slotFor lastYear lists hlist
  rw [hvs] at hslot
  rw [State.values_of_get? hslot] at free ⊢
  refine State.remove_put_append_of_free available lists hslot free ?_
  rintro rfl
  obtain rfl : [] = vs := Slot.values.inj hvs
  refine State.regroup_of_empty hslot fun havailable => ?_
  exact (h.get?_eq_slotFor havailable (ungrouped rfl) fun _ h => nomatch h).1

end WellShaped

/-- In every session over the standard defaults, a value can be added to a category that takes
lists and is not changed. After it has been removed again, the category is not reported and the
number of filters is the old one exactly when the category does not take a flag and none of its
default values has the text of the value. In that case the whole session is the old one. -/
theorem added_value_removed_iff {lastYear : Int} {omitted : List Category} {d : Defaults}
    (standard : Defaults.without (.forYear lastYear) omitted = d) (earlier : List Change)
    {s : State} (reached : (State.new d).run earlier = s) {c : Category}
    (available : s.isAvailable c = true) (lists : c.TakesLists)
    (unchanged : s.isChanged c = false)
    (ungrouped : c = geohashes → s.isChanged geohashGroups = false) (v : FilterValue) :
    ∃ added, s.pushValue c v = .done added ∧
      (c ∉ (added.remove c v.text).currentFilters ∧
          (added.remove c v.text).filterCount = s.filterCount ↔
        c.shape ≠ .idsOrFlag ∧ ∀ w ∈ (State.new d).values c, w.text ≠ v.text) ∧
      (c.shape ≠ .idsOrFlag → (∀ w ∈ (State.new d).values c, w.text ≠ v.text) →
        added.remove c v.text = s) := by
  subst standard
  have hshape : WellShaped (Defaults.without (.forYear lastYear) omitted) s := by
    rw [← reached]
    exact (WellShaped.new (Defaults.fits_without (Defaults.fits_forYear lastYear) omitted)).run
      earlier
  obtain ⟨hslot, hdefault⟩ :=
    hshape.get?_eq_slotFor available unchanged (Defaults.slotFor_ne_number lastYear lists)
  have hvalues : (State.new (Defaults.without (.forYear lastYear) omitted)).values c =
      s.values c := by
    rw [State.values, State.values, hslot, ← hdefault, hshape.defaults_eq]
    rfl
  rw [hvalues]
  refine ⟨_, State.pushValue_of_takesLists available lists v, ⟨?_, ?_⟩,
    hshape.remove_put_append available lists unchanged ungrouped⟩
  · rintro ⟨hquiet, -⟩
    have hlist : c.shape ≠ .idsOrFlag := fun hids =>
      hquiet (hshape.reported_of_idsOrFlag available lists unchanged hids)
    exact ⟨hlist, fun w hw htext =>
      hquiet (hshape.reported_of_text available lists unchanged hlist hw htext)⟩
  · rintro ⟨hlist, hfree⟩
    rw [hshape.remove_put_append available lists unchanged ungrouped hlist hfree]
    refine ⟨?_, rfl⟩
    rw [State.mem_currentFilters, unchanged]
    rintro ⟨hchanged, -⟩
    cases hchanged

/-- A cell is added without grouping and removed again, in a session with other filters. -/
theorem added_value_removed_cell :
    let d := Defaults.without (.forYear 2024) [.annotations]
    let s := (State.new d).run
      [.pushValue .creator (.plain "Kibele"), .setFlag .pubYear true, .setYearRange 1990 2000]
    s.isAvailable geohashes = true ∧ geohashes.TakesLists ∧ s.isChanged geohashes = false ∧
      s.isChanged geohashGroups = false ∧
      ∃ added, s.pushValue geohashes (.described "9q8yy" "a cell" none) = .done added ∧
        geohashes ∈ added.currentFilters ∧ added.remove geohashes "9q8yy" = s := by
  intro d s
  have available : s.isAvailable geohashes = true := by decide +kernel
  have lists : geohashes.TakesLists := by decide
  have unchanged : s.isChanged geohashes = false := by decide +kernel
  have ungrouped : s.isChanged geohashGroups = false := by decide +kernel
  obtain ⟨added, hadded, -, hback⟩ := added_value_removed_iff rfl
    [.pushValue .creator (.plain "Kibele"), .setFlag .pubYear true, .setYearRange 1990 2000] rfl
    available lists unchanged (fun _ => ungrouped) (.described "9q8yy" "a cell" none)
  refine ⟨available, lists, unchanged, ungrouped, added, hadded, ?_, ?_⟩
  · rw [State.pushValue_of_takesLists available lists] at hadded
    obtain rfl := congrArg State.Outcome.state hadded
    decide +kernel
  · exact hback (by decide) (by decide +kernel)

/-- Results that document chosen data objects are asked for and no longer asked for, and the
category is a filter still. -/
theorem emptied_ids_stay_a_filter :
    ¬ ∀ (lastYear : Int) (omitted : List Category) (earlier : List Change) (c : Category)
        (v : FilterValue) (added : State),
        let d := Defaults.without (.forYear lastYear) omitted
        let s := (State.new d).run earlier
        s.isAvailable c = true → c.TakesLists → s.isChanged c = false →
        (c = geohashes → s.isChanged useGeohash = false ∧ s.isChanged geohashGroups = false) →
        v ∉ (State.new d).values c → s.pushValue c v = .done added →
        c ∉ (added.remove c v.text).currentFilters ∧
          (added.remove c v.text).filterCount = s.filterCount := by
  intro h
  have hquiet := (h 2024 [] [] documents (.plain "urn:1") _ (by decide +kernel) (by decide)
    (by decide +kernel) (fun hcells => nomatch hcells) (by decide +kernel) rfl).1
  revert hquiet
  decide +kernel

end FacetedSearch
