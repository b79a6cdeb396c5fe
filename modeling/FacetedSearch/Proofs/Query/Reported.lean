import FacetedSearch.Proofs.Query.Scope
import FacetedSearch.Proofs.State.Grouped
import FacetedSearch.Proofs.State.WellShaped

/-!
# Reported filters

The filters that a session reports determine its query: going back to the default of every other
category leaves the query as it is. A category that is not reported has its default already, is a
setting that no query reads, or belongs to a map filter that is off. In the last case every
category of the map goes back together, so a map filter that is switched on by it has no cells to
ask for.
-/

namespace FacetedSearch

open Category Decimal

/-! ## Slots of the same value -/

namespace Slot

/-- What has the same value as something has the same value as itself. Only what is not a number
has not. -/
theorem sameValue_self {a b : Slot} (h : a.sameValue b = true) : b.sameValue b = true := by
  cases b with
  | number y =>
      cases a with
      | number x =>
          cases y with
          | finite y => simp [sameValue, Binary64.sameValue, Binary64.Finite.sameValue]
          | infinite negative => simp [sameValue, Binary64.sameValue]
          | notANumber => cases x <;> cases h
      | _ => cases h
  | _ => simp [sameValue]

/-- Slots of the same value are the same slot, unless they are zeros. -/
theorem eq_of_sameValue {a b : Slot} (h : a.sameValue b = true)
    (nonzero : ∀ x, b = .number (.finite x) → x.isZero = false) : a = b := by
  unfold sameValue at h
  split at h
  · rename_i x y
    unfold Binary64.sameValue at h
    split at h
    · rename_i x y
      rw [Binary64.Finite.sameValue, nonzero y rfl, Bool.and_false, Bool.or_false,
        beq_iff_eq] at h
      rw [h]
    · rw [beq_iff_eq.mp h]
    · cases h
  · exact beq_iff_eq.mp h

end Slot

namespace State

variable {s : State} {c : Category}

/-- A category is shown when a change of it is reported: it is no mere setting, and it does not
belong to a map filter that is off. -/
def Shows (s : State) (c : Category) : Prop :=
  c ∉ settingsOnly ∧ (s.flag useGeohash = true ∨ c.isSpatial = false)

theorem exists_of_isChanged (h : s.isChanged c = true) :
    ∃ current default, s.get? c = some current ∧ s.defaults.get? c = some default ∧
      current.sameValue default = false := by
  rw [isChanged] at h
  split at h
  · rename_i current default hcurrent hdefault
    exact ⟨current, default, hcurrent, hdefault, by simpa using h⟩
  · cases h

/-- A filter is reported when its category is changed and shown. -/
theorem mem_currentFilters : c ∈ s.currentFilters ↔ s.isChanged c = true ∧ s.Shows c := by
  have hstored : s.isChanged c = true → c ∈ s.slots.categories := by
    intro h
    obtain ⟨current, -, hcurrent, -⟩ := exists_of_isChanged h
    rw [Table.mem_categories, show s.slots.get? c = some current from hcurrent]
    rfl
  simp only [currentFilters, List.mem_filter, Bool.and_eq_true, Bool.or_eq_true,
    Bool.not_eq_true', Shows, List.contains_eq_mem, decide_eq_false_iff_not, and_assoc]
  exact ⟨fun h => h.2, fun h => ⟨hstored h.1, h⟩⟩

theorem isChanged_of_isActive (h : s.isActive c = true) : s.isChanged c = true := by
  rw [isActive, Bool.and_eq_true] at h
  exact h.1

theorem isActive_congr {t : State} (hdefaults : t.defaults = s.defaults)
    (hslot : t.get? c = s.get? c) : t.isActive c = s.isActive c := by
  rw [isActive, isActive, isChanged, isChanged, hdefaults, hslot]

/-- Go back to the defaults of some categories. -/
def resets (s : State) (categories : List Category) : State :=
  categories.foldl reset s

theorem defaults_resets (s : State) (categories : List Category) :
    (s.resets categories).defaults = s.defaults := by
  induction categories generalizing s with
  | nil => rfl
  | cons c rest ih => exact (ih (s.reset c)).trans (defaults_reset s c)

end State

namespace WellShaped

open State

variable {d : Defaults} {s : State} {c : Category}

theorem resets (h : WellShaped d s) (categories : List Category) :
    WellShaped d (s.resets categories) := by
  induction categories generalizing s with
  | nil => exact h
  | cons c rest ih => exact ih (h.reset c)

theorem get?_reset (h : WellShaped d s) (c other : Category) :
    (s.reset c).get? other = if other = c then d.get? other else s.get? other := by
  split
  · rename_i hother
    subst hother
    cases hslot : s.get? other with
    | none => rw [State.reset, h.defaults_eq, h.get?_eq_none hslot, hslot]
    | some slot => rw [get?_reset_self (h.isAvailable hslot), h.defaults_eq]
  · rename_i hother
    exact get?_reset_of_ne hother

/-- Exactly the categories that go back have their default afterwards. -/
theorem get?_resets (h : WellShaped d s) (categories : List Category) (c : Category) :
    (s.resets categories).get? c = if c ∈ categories then d.get? c else s.get? c := by
  induction categories generalizing s with
  | nil => rfl
  | cons first rest ih =>
      have hrest : (s.resets (first :: rest)).get? c = ((s.reset first).resets rest).get? c := rfl
      rw [hrest, ih (h.reset first), h.get?_reset]
      by_cases hfirst : c = first
      · simp [hfirst]
      · simp [hfirst]

/-- A slot that is not changed has the value of its default. -/
theorem sameValue_of_not_isChanged (h : WellShaped d s) {current : Slot}
    (hcurrent : s.get? c = some current) (unchanged : s.isChanged c = false) :
    ∃ default, d.get? c = some default ∧ current.sameValue default = true := by
  have havailable := h.isAvailable hcurrent
  rw [State.isAvailable, h.defaults_eq, Table.contains, Option.isSome_iff_exists] at havailable
  obtain ⟨default, hdefault⟩ := havailable
  refine ⟨default, hdefault, ?_⟩
  rw [State.isChanged, hcurrent, h.defaults_eq, hdefault] at unchanged
  simpa using unchanged

/-- A slot that is not changed is its default, unless both are zeros. -/
theorem get?_of_not_isChanged (h : WellShaped d s) (unchanged : s.isChanged c = false)
    (nonzero : ∀ x, d.get? c = some (.number (.finite x)) → x.isZero = false) :
    s.get? c = d.get? c := by
  cases hcurrent : s.get? c with
  | none => exact (h.get?_eq_none hcurrent).symm
  | some current =>
      obtain ⟨default, hdefault, hsame⟩ := h.sameValue_of_not_isChanged hcurrent unchanged
      have heq : current = default :=
        Slot.eq_of_sameValue hsame fun x hx => nonzero x (by rw [hdefault, hx])
      rw [hdefault, heq]

/-- A category that goes back without being changed is not changed afterwards either. -/
theorem isChanged_of_get?_eq_default {t : State} (h : WellShaped d s) (ht : WellShaped d t)
    (unchanged : s.isChanged c = false) (back : t.get? c = d.get? c) : t.isChanged c = false := by
  cases hcurrent : s.get? c with
  | none => rw [State.isChanged, back, h.get?_eq_none hcurrent]
  | some current =>
      obtain ⟨default, hdefault, hsame⟩ := h.sameValue_of_not_isChanged hcurrent unchanged
      rw [State.isChanged, ht.defaults_eq, back, hdefault]
      simp [Slot.sameValue_self hsame]

end WellShaped

/-! ## Going back to all defaults but those of the filters -/

section Others

open State

variable {d : Defaults} {s : State} {others : List Category}

/-- A shown category that goes back is not changed. -/
theorem mem_others_iff (hothers : ∀ c, c ∈ others ↔ c ∉ s.currentFilters) {c : Category}
    (shown : s.Shows c) : c ∈ others ↔ s.isChanged c = false := by
  rw [hothers, mem_currentFilters, ← Bool.not_eq_true]
  simp [shown]

theorem isActive_resets (h : WellShaped d s)
    (hothers : ∀ c, c ∈ others ↔ c ∉ s.currentFilters) {c : Category} (shown : s.Shows c) :
    (s.resets others).isActive c = s.isActive c := by
  have hslot := h.get?_resets others c
  cases hchanged : s.isChanged c with
  | true =>
      rw [if_neg (by simp [mem_others_iff hothers shown, hchanged])] at hslot
      exact isActive_congr (defaults_resets s others) hslot
  | false =>
      rw [if_pos ((mem_others_iff hothers shown).mpr hchanged)] at hslot
      have hback := h.isChanged_of_get?_eq_default (h.resets others) hchanged hslot
      rw [isActive, isActive, hchanged, hback, Bool.false_and, Bool.false_and]

/-- The slot of a shown category stays, unless it is a zero. -/
theorem get?_resets_of_shows (h : WellShaped d s)
    (hothers : ∀ c, c ∈ others ↔ c ∉ s.currentFilters) {c : Category} (shown : s.Shows c)
    (nonzero : ∀ x, d.get? c = some (.number (.finite x)) → x.isZero = false) :
    (s.resets others).get? c = s.get? c := by
  rw [h.get?_resets]
  split
  · rename_i hback
    exact (h.get?_of_not_isChanged ((mem_others_iff hothers shown).mp hback) nonzero).symm
  · rfl

/-- An active category that is shown keeps its slot, whatever it is. -/
theorem get?_resets_of_isActive (h : WellShaped d s)
    (hothers : ∀ c, c ∈ others ↔ c ∉ s.currentFilters) {c : Category} (shown : s.Shows c)
    (active : s.isActive c = true) : (s.resets others).get? c = s.get? c := by
  rw [h.get?_resets, if_neg]
  simp [mem_others_iff hothers shown, isChanged_of_isActive active]

end Others

namespace Query

theorem shows_of_mem {c : Category} (h : c ∈ leading ++ trailing) (s : State) : s.Shows c := by
  have hall : ∀ c ∈ leading ++ trailing, c ∉ State.settingsOnly ∧ c.isSpatial = false := by
    decide
  exact ⟨(hall c h).1, Or.inr (hall c h).2⟩

theorem shows_year {c : Category} (h : c = yearMin ∨ c = yearMax) (s : State) : s.Shows c := by
  rcases h with rfl | rfl
  · exact ⟨by decide, Or.inr (by decide)⟩
  · exact ⟨by decide, Or.inr (by decide)⟩

section Reported

variable {d : Defaults} {s : State} {others : List Category} {catalog : Catalog}
  {settings : Settings}

theorem wantsMap_unscoped {q : Source} (h : q.scope = none) :
    q.wantsMap = (q.settings.spatialEnabled && q.state.isActive geohashes &&
      q.state.flag useGeohash && q.state.hasGroups) := by
  rw [Source.wantsMap, Source.wants_unscoped h]

/-- A category of the map keeps its slot while the map filter is on. -/
theorem get?_resets_of_map (h : WellShaped d s)
    (hothers : ∀ c, c ∈ others ↔ c ∉ s.currentFilters) (on : s.flag useGeohash = true)
    {c : Category} (hc : c ∈ [useGeohash, geohashes, geohashGroups]) :
    (s.resets others).get? c = s.get? c := by
  have hmap : ∀ c ∈ [useGeohash, geohashes, geohashGroups],
      c ∉ State.settingsOnly ∧ c.shape ≠ .number ∧ c.shape ≠ .numberOrNull := by
    decide
  obtain ⟨hsetting, hnumber, hnull⟩ := hmap c hc
  apply get?_resets_of_shows h hothers ⟨hsetting, Or.inl on⟩
  intro x hx
  have haccepts := h.defaults_fit c _ hx
  unfold Shape.accepts at haccepts
  split at haccepts <;> simp_all

/-- When every category of the map goes back, the cells are not active afterwards. -/
theorem isActive_geohashes_resets (h : WellShaped d s)
    (hothers : ∀ c, c ∈ others ↔ c ∉ s.currentFilters) (off : s.flag useGeohash = false) :
    (s.resets others).isActive geohashes = false := by
  have hback : geohashes ∈ others := by
    rw [hothers, State.mem_currentFilters]
    rintro ⟨-, -, hon | hplace⟩
    · rw [off] at hon
      cases hon
    · exact absurd hplace (by decide)
  have hslot := h.get?_resets others geohashes
  rw [if_pos hback] at hslot
  rw [State.isActive, State.isChanged, hslot, (h.resets others).defaults_eq]
  cases hdefault : d.get? geohashes with
  | none => rfl
  | some default =>
      have haccepts := h.defaults_fit geohashes default hdefault
      cases default with
      | values vs => simp [Slot.sameValue]
      | _ => cases haccepts

/-- A map filter that is on stays as it is, and one that is off does not come back. -/
theorem wantsMap_resets (h : WellShaped d s) (hothers : ∀ c, c ∈ others ↔ c ∉ s.currentFilters) :
    ({ state := s.resets others, catalog, settings } : Source).wantsMap =
      ({ state := s, catalog, settings } : Source).wantsMap := by
  rw [wantsMap_unscoped rfl, wantsMap_unscoped rfl]
  dsimp only
  cases hflag : s.flag useGeohash with
  | true =>
      have hcells := get?_resets_of_map h hothers hflag (c := geohashes) (by decide)
      have hgroups := get?_resets_of_map h hothers hflag (c := geohashGroups) (by decide)
      have hon : (s.resets others).flag useGeohash = true := by
        rw [State.flag, get?_resets_of_map h hothers hflag (by decide)]
        exact hflag
      rw [State.isActive_congr (State.defaults_resets s others) hcells, State.hasGroups,
        State.hasGroups, State.groups_congr hgroups, hon]
  | false => rw [isActive_geohashes_resets h hothers hflag]; simp

end Reported

/-- Going back to the default of every category that is not reported leaves the query as it is,
over defaults whose years are not zero. A session that reports no filter has an empty query. -/
theorem compile_resets_unreported {d : Defaults} {s : State} (h : WellShaped d s)
    (nonzero : ∀ c x, c = yearMin ∨ c = yearMax →
      d.get? c = some (.number (.finite x)) → x.isZero = false)
    {others : List Category} (hothers : ∀ c, c ∈ others ↔ c ∉ s.currentFilters)
    (catalog : Catalog) (settings : Settings) :
    compile { state := s.resets others, catalog, settings } =
        compile { state := s, catalog, settings } ∧
      (s.currentFilters = [] →
        compile { state := s, catalog, settings } = { text := "", truncated := false }) := by
  refine ⟨compile_congr rfl ?_ (wantsMap_resets h hothers) ?_, ?_⟩
  · intro c hc
    have hshown := shows_of_mem hc s
    refine Source.contribution_congr (q := { state := s.resets others, catalog, settings })
      (r := { state := s, catalog, settings }) rfl rfl ?_ ?_
    · rw [Source.wants_unscoped rfl, Source.wants_unscoped rfl]
      exact isActive_resets h hothers hshown
    · intro hwants r hr
      rw [Source.wants_unscoped rfl] at hwants
      rcases eq_or_year_of_mem_readBy hr with rfl | hyear
      · exact get?_resets_of_isActive h hothers hshown hwants
      · exact get?_resets_of_shows h hothers (shows_year hyear s) fun x => nonzero r x hyear
  · intro hmap
    rw [wantsMap_unscoped rfl, Bool.and_eq_true, Bool.and_eq_true] at hmap
    exact State.groups_congr (get?_resets_of_map h hothers hmap.1.2 (by decide))
  · intro hnone
    have hsilent : ∀ c, s.Shows c → s.isActive c = false := by
      intro c hshown
      rw [← Bool.not_eq_true]
      intro hactive
      have hmem := State.mem_currentFilters.mpr ⟨State.isChanged_of_isActive hactive, hshown⟩
      rw [hnone] at hmem
      cases hmem
    apply compile_eq_empty
    · intro c hc
      rw [Source.wants_unscoped rfl]
      exact hsilent c (shows_of_mem hc s)
    · rw [wantsMap_unscoped rfl]
      cases hflag : s.flag useGeohash with
      | true => rw [hsilent geohashes ⟨by decide, Or.inl hflag⟩]; simp
      | false => simp

/-- A session whose map filter was switched off over some cells, with a sort order, a term and
years that go with it. -/
def hiddenMap : State :=
  (State.new (.forYear 2024)).run
    [.setGeohashes [.plain "9q8yy"], .setFlag .useGeohash false, .setYearRange 1990 2000,
      .setFlag .pubYear true, .set .sortOrder (.text "title+asc"),
      .pushValue .fullText (.plain "salmon")]

theorem compile_resets_unreported_hiddenMap :
    let others := Category.all.filter (· ∉ hiddenMap.currentFilters)
    WellShaped (.forYear 2024) hiddenMap ∧
      (∀ c x, c = yearMin ∨ c = yearMax →
        (Defaults.forYear 2024).get? c = some (.number (.finite x)) → x.isZero = false) ∧
      (∀ c, c ∈ others ↔ c ∉ hiddenMap.currentFilters) ∧
      hiddenMap.currentFilters = [fullText, yearMin, yearMax, pubYear] ∧
      (hiddenMap.resets others).flag useGeohash = true ∧
      compile { state := hiddenMap.resets others, catalog := .standard, settings := {} } =
        compile { state := hiddenMap, catalog := .standard, settings := {} } := by
  intro others
  have hshape : WellShaped (.forYear 2024) hiddenMap :=
    (WellShaped.new (Defaults.fits_forYear 2024)).run _
  have hnonzero : ∀ c x, c = yearMin ∨ c = yearMax →
      (Defaults.forYear 2024).get? c = some (.number (.finite x)) → x.isZero = false := by
    rintro c x (rfl | rfl) hx
    · obtain rfl := Binary64.finite.inj (Slot.number.inj (Option.some.inj hx))
      decide +kernel
    · obtain rfl := Binary64.finite.inj (Slot.number.inj (Option.some.inj hx))
      decide +kernel
  have hothers : ∀ c, c ∈ others ↔ c ∉ hiddenMap.currentFilters := by
    simp [others, mem_all]
  refine ⟨hshape, hnonzero, hothers, by decide +kernel, by decide +kernel, ?_⟩
  exact (compile_resets_unreported hshape hnonzero hothers .standard {}).1

end Query

end FacetedSearch
