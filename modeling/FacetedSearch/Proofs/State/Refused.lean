import FacetedSearch.Proofs.State.WellShaped

/-!
# Setters that are refused

A setter puts given slots in place. It checks first that the deployment has the category and that
the category takes the shape, so a setter that is refused leaves every slot as it was. The range of
years is set one year after the other: where the deployment has the first year and not the last one,
the range is refused, but the first year stays set.
-/

namespace FacetedSearch

open Category

/-- The change puts given slots in place. -/
def Change.IsSetter : Change → Prop
  | .set .. | .setValues .. | .pushValue .. | .setFlag .. | .setYearRange .. | .setGeohashes _ =>
    True
  | .regroup | .reset _ | .resetGeohash | .clear | .remove .. | .applyDocument _ => False

namespace State

variable {s : State} {c : Category} {e : StateError}

/-- A change that either goes through or is refused at once leaves the state alone when it is
refused. -/
theorem Outcome.state_of_refused {o : Outcome} (atOnce : (∃ t, o = .done t) ∨ ∃ e, o = .refused s e)
    (refused : o.error = some e) : o.state = s := by
  rcases atOnce with ⟨t, rfl⟩ | ⟨e', rfl⟩
  · cases refused
  · rfl

theorem state_set_of_refused {slot : Slot} (refused : (s.set c slot).error = some e) :
    (s.set c slot).state = s := by
  rcases s.set_cases c slot with ⟨-, -, hset⟩ | hset
  · exact Outcome.state_of_refused (.inl ⟨_, hset⟩) refused
  · exact Outcome.state_of_refused (.inr hset) refused

theorem state_pushValue_of_refused {value : FilterValue}
    (refused : (s.pushValue c value).error = some e) : (s.pushValue c value).state = s := by
  rcases s.pushValue_cases c value with ⟨vs, -, -, hpush⟩ | ⟨-, -, hpush⟩ | hpush
  · exact Outcome.state_of_refused (.inl ⟨_, hpush⟩) refused
  · exact Outcome.state_of_refused (.inl ⟨_, hpush⟩) refused
  · exact Outcome.state_of_refused (.inr hpush) refused

theorem state_setGeohashes_of_refused {values : List FilterValue}
    (refused : (s.setGeohashes values).error = some e) : (s.setGeohashes values).state = s := by
  rcases s.setGeohashes_cases values with ⟨-, hset⟩ | hset
  · exact Outcome.state_of_refused (.inl ⟨_, hset⟩) refused
  · exact Outcome.state_of_refused (.inr hset) refused

/-- A range of years is refused where one of the years is not available, and the first year is set
where it is available. -/
theorem setYearRange_of_refused {first last : Int}
    (refused : (s.setYearRange first last).error = some e) :
    s.isAvailable yearMin = false ∧ (s.setYearRange first last).state = s ∨
      s.isAvailable yearMin = true ∧ s.isAvailable yearMax = false ∧
        (s.setYearRange first last).state =
          s.put yearMin (.number (Defaults.wholeNumber first)) := by
  rw [setYearRange_eq] at refused ⊢
  cases hfirst : s.isAvailable yearMin with
  | false => exact Or.inl ⟨rfl, rfl⟩
  | true =>
      cases hlast : s.isAvailable yearMax with
      | false => exact Or.inr ⟨rfl, rfl, rfl⟩
      | true => simp [hfirst, hlast] at refused

/-- A setter that is refused leaves the state alone, or it is a range of years of which only the
first one is available, and that one is set. -/
theorem state_change_of_refused {change : Change} (setter : change.IsSetter)
    (refused : (s.change change).error = some e) :
    (s.change change).state = s ∧
        (∀ first last, change = .setYearRange first last → s.isAvailable yearMin = false) ∨
      ∃ first last, change = .setYearRange first last ∧ s.isAvailable yearMin = true ∧
        s.isAvailable yearMax = false ∧
        (s.change change).state = s.put yearMin (.number (Defaults.wholeNumber first)) := by
  cases change with
  | setYearRange first last =>
      rcases setYearRange_of_refused refused with ⟨hfirst, hstate⟩ | ⟨hfirst, hlast, hstate⟩
      · exact Or.inl ⟨hstate, fun _ _ _ => hfirst⟩
      · exact Or.inr ⟨first, last, rfl, hfirst, hlast, hstate⟩
  | set c slot => exact Or.inl ⟨state_set_of_refused refused, fun _ _ h => nomatch h⟩
  | setValues c values => exact Or.inl ⟨state_set_of_refused refused, fun _ _ h => nomatch h⟩
  | pushValue c value => exact Or.inl ⟨state_pushValue_of_refused refused, fun _ _ h => nomatch h⟩
  | setFlag c on => exact Or.inl ⟨state_set_of_refused refused, fun _ _ h => nomatch h⟩
  | setGeohashes values =>
      exact Or.inl ⟨state_setGeohashes_of_refused refused, fun _ _ h => nomatch h⟩
  | regroup | reset | resetGeohash | clear | remove | applyDocument => exact setter.elim

end State

/-- In every session a setter that is refused leaves every slot as it was, but for a range of years
of which only the first one is available: that one is set, so its slot changes unless it held the
same year. -/
theorem refused_setter_keeps_slots_iff {d : Defaults} (h : d.IsConfigured) (earlier : List Change)
    {s : State} (reached : (State.new d).run earlier = s) {change : Change}
    (setter : change.IsSetter) {e : StateError} (refused : (s.change change).error = some e) :
    (∀ c, c ≠ yearMin → (s.change change).state.get? c = s.get? c) ∧
      ((s.change change).state.get? yearMin = s.get? yearMin ↔
        ¬ ∃ first last, change = .setYearRange first last ∧ d.contains yearMin = true ∧
          d.contains yearMax = false ∧
          s.get? yearMin ≠ some (.number (Defaults.wholeNumber first))) := by
  have hshape : WellShaped d s := by
    rw [← reached]
    exact (WellShaped.new h.fits).run earlier
  simp only [← hshape.isAvailable_eq]
  rcases State.state_change_of_refused setter refused with
    ⟨hstate, hunavailable⟩ | ⟨first, last, rfl, hfirst, hlast, hstate⟩
  · rw [hstate]
    refine ⟨fun _ _ => rfl, iff_of_true rfl ?_⟩
    rintro ⟨first, last, rfl, hfirst, -⟩
    rw [hunavailable first last rfl] at hfirst
    cases hfirst
  · rw [hstate]
    refine ⟨fun c hc => by rw [State.get?_put, if_neg hc], ?_⟩
    rw [State.get?_put, if_pos rfl]
    constructor
    · rintro hsame ⟨_, _, heq, -, -, hchanged⟩
      cases heq
      exact hchanged hsame.symm
    · intro hnot
      apply Decidable.byContradiction
      intro hchanged
      exact hnot ⟨first, last, rfl, hfirst, hlast, Ne.symm hchanged⟩

/-- A range of years without a last year is refused, and its first year, which it sets, is the one
that was set before. -/
theorem refused_setter_keeps_slots_sameYear :
    let d := Defaults.without (.forYear 2024) [.yearMax]
    let s := (State.new d).run [.setYearRange 1990 2000]
    d.IsConfigured ∧ (s.change (.setYearRange 1990 2010)).error = some (.unavailable .yearMax) ∧
      (s.change (.setYearRange 1990 2010)).state.get? yearMin = s.get? yearMin := by
  intro d s
  have hconfigured : d.IsConfigured := .without (.forYear 2024) [.yearMax]
  have setter : Change.IsSetter (.setYearRange 1990 2010) := trivial
  have refused : (s.change (.setYearRange 1990 2010)).error = some (.unavailable .yearMax) := by
    decide +kernel
  refine ⟨hconfigured, refused, ?_⟩
  apply (refused_setter_keeps_slots_iff hconfigured [.setYearRange 1990 2000] rfl setter
    refused).2.mpr
  rintro ⟨first, last, heq, -, -, hchanged⟩
  cases heq
  exact hchanged (by decide +kernel)

/-- A range of years without a last year is refused after its first year has been set. -/
theorem refused_year_range_sets_first_year :
    ¬ ∀ (d : Defaults) (earlier : List Change) (change : Change) (e : StateError),
        d.IsConfigured → change.IsSetter →
        (((State.new d).run earlier).change change).error = some e →
        ∀ c, (((State.new d).run earlier).change change).state.get? c =
          ((State.new d).run earlier).get? c := by
  intro h
  have hsame := h (Defaults.without (.forYear 2024) [.yearMax]) [] (.setYearRange 1990 2000)
    (.unavailable .yearMax) (.without (.forYear 2024) [.yearMax]) trivial (by decide +kernel)
    yearMin
  revert hsame
  decide +kernel

end FacetedSearch
