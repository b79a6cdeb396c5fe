import FacetedSearch.Proofs.State.Change

/-!
# The shape of a session

In every session a category has a slot exactly when it is available, and the slot has a shape that
the category takes. Defaults start this way, and every change keeps it: what a change puts in place
is a checked slot, a default, the groups of the cells, or a list in place of a list.
-/

namespace FacetedSearch

/-- Every slot of a table has a shape that its category takes. -/
def Fits (slots : Category.Table Slot) : Prop :=
  ∀ c slot, slots.get? c = some slot → c.shape.accepts slot = true

theorem Fits.insert {slots : Category.Table Slot} (h : Fits slots) {c : Category} {slot : Slot}
    (hslot : c.shape.accepts slot = true) : Fits (slots.insert c slot) := by
  intro d other hother
  rw [Category.Table.get?_insert] at hother
  split at hother
  · rename_i hd
    obtain rfl := Option.some.inj hother
    exact hd ▸ hslot
  · exact h d other hother

theorem Fits.erase {slots : Category.Table Slot} (h : Fits slots) (c : Category) :
    Fits (slots.erase c) := by
  intro d slot hslot
  rw [Category.Table.get?_erase] at hslot
  split at hslot
  · cases hslot
  · exact h d slot hslot

namespace Defaults

theorem fits_forYear (lastYear : Int) : Fits (forYear lastYear) := by
  intro c slot hslot
  obtain rfl := Option.some.inj hslot
  cases c <;> rfl

theorem fits_without {d : Defaults} (h : Fits d) (categories : List Category) :
    Fits (without d categories) := by
  induction categories generalizing d with
  | nil => exact h
  | cons c categories ih => exact ih (h.erase c)

theorem withSlot_eq_ok {d d' : Defaults} {c : Category} {slot : Slot} :
    withSlot d c slot = .ok d' ↔ c.shape.accepts slot = true ∧ d.insert c slot = d' := by
  unfold withSlot checkShape
  cases c.shape.accepts slot <;> simp [bind, Except.bind, pure, Except.pure]

theorem IsConfigured.fits {d : Defaults} (h : IsConfigured d) : Fits d := by
  induction h with
  | forYear lastYear => exact fits_forYear lastYear
  | without _ categories ih => exact fits_without ih categories
  | withSlot _ accepted ih =>
      obtain ⟨hslot, rfl⟩ := withSlot_eq_ok.mp accepted
      exact ih.insert hslot

end Defaults

/-- A session over some defaults has a slot for exactly the categories with a default, and every
slot has a shape that its category takes. -/
structure WellShaped (d : Defaults) (s : State) : Prop where
  /-- The session goes back to these defaults. -/
  defaults_eq : s.defaults = d
  /-- The defaults have the right shapes. -/
  defaults_fit : Fits d
  /-- The current slots have the right shapes. -/
  slots_fit : Fits s.slots
  /-- The categories with a default have a slot, and no others. -/
  contains_eq : ∀ c, s.slots.contains c = d.contains c

namespace WellShaped

open State

variable {d : Defaults} {s : State}

theorem new (h : Fits d) : WellShaped d (State.new d) where
  defaults_eq := rfl
  defaults_fit := h
  slots_fit := h
  contains_eq _ := rfl

theorem isAvailable_eq (h : WellShaped d s) (c : Category) : s.isAvailable c = d.contains c := by
  rw [State.isAvailable, h.defaults_eq]

/-- A category with a slot is available. -/
theorem isAvailable (h : WellShaped d s) {c : Category} {slot : Slot}
    (hget : s.get? c = some slot) : s.isAvailable c = true := by
  rw [h.isAvailable_eq, ← h.contains_eq, Category.Table.contains, Option.isSome_iff_exists]
  exact ⟨slot, hget⟩

/-- A category without a slot has no default. -/
theorem get?_eq_none (h : WellShaped d s) {c : Category} (hget : s.get? c = none) :
    d.get? c = none := by
  have hcontains := h.contains_eq c
  rw [Category.Table.contains, Category.Table.contains,
    show s.slots.get? c = none from hget] at hcontains
  simpa using hcontains.symm

/-- Putting a slot of the right shape in place of another keeps the shape of a session. -/
theorem put (h : WellShaped d s) {c : Category} {slot : Slot} (havailable : s.isAvailable c = true)
    (hslot : c.shape.accepts slot = true) : WellShaped d (s.put c slot) where
  defaults_eq := h.defaults_eq
  defaults_fit := h.defaults_fit
  slots_fit := h.slots_fit.insert hslot
  contains_eq other := by
    change ((s.slots.insert c slot).get? other).isSome = d.contains other
    rw [Category.Table.get?_insert]
    split
    · rename_i hother
      rw [hother, ← h.isAvailable_eq, havailable]
      rfl
    · exact h.contains_eq other

theorem set (h : WellShaped d s) (c : Category) (slot : Slot) :
    WellShaped d (s.set c slot).state := by
  rcases s.set_cases c slot with ⟨havailable, hslot, hset⟩ | ⟨e, hset⟩
  · rw [hset]
    exact h.put havailable hslot
  · rw [hset]
    exact h

theorem pushValue (h : WellShaped d s) (c : Category) (value : FilterValue) :
    WellShaped d (s.pushValue c value).state := by
  rcases s.pushValue_cases c value with
    ⟨vs, havailable, hget, hpush⟩ | ⟨havailable, hslot, hpush⟩ | ⟨e, hpush⟩
  · have hslot : c.shape.accepts (.values (vs ++ [value])) = true := by
      rw [c.shape.accepts_values _ vs]
      exact h.slots_fit c _ hget
    rw [hpush]
    exact h.put havailable hslot
  · rw [hpush]
    exact h.put havailable hslot
  · rw [hpush]
    exact h

theorem regroup (h : WellShaped d s) : WellShaped d s.regroup := by
  rw [State.regroup]
  split
  · rename_i havailable
    exact h.put havailable rfl
  · exact h

theorem setGeohashes (h : WellShaped d s) (values : List FilterValue) :
    WellShaped d (s.setGeohashes values).state := by
  rcases s.setGeohashes_cases values with ⟨havailable, hset⟩ | ⟨e, hset⟩
  · have hcells : WellShaped d (s.put .geohashes (.values values)) := h.put havailable rfl
    rw [hset]
    exact hcells.regroup
  · rw [hset]
    exact h

theorem setYearRange (h : WellShaped d s) (first last : Int) :
    WellShaped d (s.setYearRange first last).state :=
  Outcome.andThen_induction (h.set _ _) fun _ ht => ht.set _ _

theorem reset (h : WellShaped d s) (c : Category) : WellShaped d (s.reset c) := by
  rw [State.reset]
  split
  · rename_i slot hdefault
    have havailable : s.isAvailable c = true := by
      rw [State.isAvailable, Category.Table.contains, hdefault]
      rfl
    rw [h.defaults_eq] at hdefault
    exact h.put havailable (h.defaults_fit c slot hdefault)
  · exact h

theorem resetGeohash (h : WellShaped d s) : WellShaped d s.resetGeohash :=
  ((h.reset .geohashes).reset .geohashLevel).reset .geohashGroups

theorem clear (h : WellShaped d s) : WellShaped d s.clear where
  defaults_eq := h.defaults_eq
  defaults_fit := h.defaults_fit
  slots_fit := by
    change Fits s.defaults
    rw [h.defaults_eq]
    exact h.defaults_fit
  contains_eq := h.isAvailable_eq

theorem removeItems (h : WellShaped d s) (c : Category) (value : String) :
    WellShaped d (s.removeItems c value) := by
  rcases s.removeItems_cases c value with ⟨vs, hget, heq⟩ | ⟨es, hget, heq⟩ | heq
  · rw [heq]
    apply h.put (h.isAvailable hget)
    rw [c.shape.accepts_values _ vs]
    exact h.slots_fit c _ hget
  · rw [heq]
    apply h.put (h.isAvailable hget)
    rw [c.shape.accepts_exclusions _ es]
    exact h.slots_fit c _ hget
  · rw [heq]
    exact h.reset c

theorem removeYearFlag (h : WellShaped d s) (c other : Category) :
    WellShaped d (s.removeYearFlag c other) := by
  unfold State.removeYearFlag
  dsimp only
  split
  · exact h.reset c
  · exact ((h.reset c).reset .yearMin).reset .yearMax

theorem remove (h : WellShaped d s) (c : Category) (value : String) :
    WellShaped d (s.remove c value) := by
  unfold State.remove
  split
  · split
    · exact h.removeYearFlag .pubYear .dataYear
    · exact h.removeYearFlag .dataYear .pubYear
    · exact (h.removeItems .geohashes value).regroup
    · exact h.removeItems c value
  · exact h

theorem applyMember (h : WellShaped d s) (c : Category) (value : Json) :
    WellShaped d (s.applyMember c value).state := by
  rw [State.applyMember]
  split
  · exact h.set c _
  · exact h

/-- A document keeps the shape of a session even when one of its members is refused. -/
theorem applyMembers (h : WellShaped d s) (touched : Bool) (members : List (String × Json)) :
    WellShaped d (s.applyMembers touched members).state := by
  induction members generalizing s touched with
  | nil =>
      rw [State.applyMembers, Outcome.state_done]
      split
      · exact h.regroup
      · exact h
  | cons member rest ih =>
      obtain ⟨name, value⟩ := member
      rw [State.applyMembers]
      split
      · exact ih h touched
      · rename_i c _
        exact Outcome.andThen_induction (h.applyMember c value) fun _ ht => ih ht _

theorem applyDocument (h : WellShaped d s) (document : Json) :
    WellShaped d (s.applyDocument document).state := by
  unfold State.applyDocument
  split
  · exact h.applyMembers false _
  · exact h

/-- Every change keeps the shape of a session, whether or not it is refused. -/
theorem change (h : WellShaped d s) (change : Change) : WellShaped d (s.change change).state := by
  cases change with
  | set c slot => exact h.set c slot
  | setValues c values => exact h.set c (.values values)
  | pushValue c value => exact h.pushValue c value
  | setFlag c on => exact h.set c (.flag on)
  | setYearRange first last => exact h.setYearRange first last
  | setGeohashes values => exact h.setGeohashes values
  | regroup => exact h.regroup
  | reset c => exact h.reset c
  | resetGeohash => exact h.resetGeohash
  | clear => exact h.clear
  | remove c value => exact h.remove c value
  | applyDocument document => exact h.applyDocument document

theorem run (h : WellShaped d s) (changes : List Change) : WellShaped d (s.run changes) := by
  induction changes generalizing s with
  | nil => exact h
  | cons c changes ih => exact ih (h.change c)

end WellShaped

/-- However a session goes on, it has a slot for exactly the categories with a default, and every
slot passes the check of its category. -/
theorem slots_of_run {d : Defaults} (h : d.IsConfigured) (changes : List Change) :
    ((State.new d).run changes).defaults = d ∧
      ((State.new d).run changes).slots.categories = d.categories ∧
      ∀ c slot, ((State.new d).run changes).get? c = some slot → checkShape c slot = .ok () := by
  have hrun := (WellShaped.new h.fits).run changes
  refine ⟨hrun.defaults_eq, ?_, ?_⟩
  · rw [Category.Table.categories, Category.Table.categories, funext hrun.contains_eq]
  · intro c slot hget
    exact checkShape_eq_ok.mpr (hrun.slots_fit c slot hget)

/-- A session without places, in which the range of years is set, and a flag for a year and a place
are refused. -/
def refusedPlace : State :=
  (State.new (Defaults.without (.forYear 2024) [.spatial])).run
    [.setYearRange 1990 2000, .setFlag .yearMax true, .set .spatial (.text "Kodiak")]

theorem slots_of_run_refusedPlace :
    (Defaults.without (.forYear 2024) [.spatial]).IsConfigured ∧
      refusedPlace.get? .yearMax = some (.number (Defaults.wholeNumber 2000)) ∧
      checkShape .yearMax (.number (Defaults.wholeNumber 2000)) = .ok () ∧
      .spatial ∉ refusedPlace.slots.categories := by
  have hconfigured : (Defaults.without (.forYear 2024) [.spatial]).IsConfigured :=
    .without (.forYear 2024) [.spatial]
  obtain ⟨-, hcategories, hshapes⟩ := slots_of_run hconfigured
    [.setYearRange 1990 2000, .setFlag .yearMax true, .set .spatial (.text "Kodiak")]
  have hyear : refusedPlace.get? .yearMax = some (.number (Defaults.wholeNumber 2000)) := by
    decide +kernel
  refine ⟨hconfigured, hyear, hshapes .yearMax _ hyear, ?_⟩
  rw [refusedPlace, hcategories]
  decide

end FacetedSearch
