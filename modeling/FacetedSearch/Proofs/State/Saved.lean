import FacetedSearch.Proofs.SortedSet
import FacetedSearch.Proofs.State.Grouped
import FacetedSearch.Proofs.State.WellShaped
import Mathlib.Data.List.Basic

/-!
# Saving a session

A session is saved as the document of all its slots and comes back from it. Most of what a slot
holds can be read off its written form without knowing the category; a list is read in the shape
that its category takes. The groups of the cells are saved but never loaded: they come back because
the cells do.
-/

namespace FacetedSearch

open Category Decimal

/-! ## Parts of slots -/

namespace FilterValue

@[simp] theorem ofJson?_toJson (v : FilterValue) : ofJson? v.toJson = some v := by
  cases v with
  | plain text => rfl
  | described text label description => cases description <;> rfl

/-- No value of a written list is dropped when the list is read. -/
theorem listOfJson_map_toJson (vs : List FilterValue) : listOfJson (vs.map toJson) = vs := by
  have hitem : ofJson? ∘ toJson = some := funext ofJson?_toJson
  rw [listOfJson, List.filterMap_map, hitem, List.filterMap_some]

end FilterValue

namespace Exclusion

@[simp] theorem ofJson?_toJson (e : Exclusion) : ofJson? e.toJson = some e := rfl

theorem filterMap_ofJson?_map_toJson (es : List Exclusion) :
    (es.map toJson).filterMap ofJson? = es := by
  have hitem : ofJson? ∘ toJson = some := funext ofJson?_toJson
  rw [List.filterMap_map, hitem, List.filterMap_some]

end Exclusion

namespace Geohash.Group

theorem asStrings?_array_map_string (cells : List String) :
    (Json.array (cells.map .string)).asStrings? = some cells := by
  have hitem : Json.asString? ∘ Json.string = fun cell => pure cell := rfl
  change (cells.map Json.string).mapM Json.asString? = some cells
  rw [List.mapM_map, hitem, List.mapM_pure, List.map_id']
  rfl

/-- A written group is read back unless its level is too large for a document. -/
theorem ofJson?_toJson (g : Group) :
    ofJson? g.toJson = if g.level < Nat.pow 2 64 then some g else none := by
  have hlevel : (Json.number (.whole g.level)).asUnsigned? =
      if g.level < Nat.pow 2 64 then some g.level else none := by
    simp [Json.asUnsigned?]
  change ofParts? (.number (.whole g.level)) (.bool g.complete) (.array (g.cells.map .string)) = _
  rw [ofParts?, hlevel, asStrings?_array_map_string]
  split <;> rfl

/-- Written groups are read back when the levels of all of them can be told. -/
theorem mapM_ofJson?_map_toJson {gs : List Group} :
    (gs.map toJson).mapM ofJson? = some gs ↔ ∀ g ∈ gs, g.level < Nat.pow 2 64 := by
  induction gs with
  | nil => simp
  | cons g gs ih =>
      rw [List.map_cons, List.mapM_cons, ofJson?_toJson, List.forall_mem_cons, ← ih]
      by_cases hlevel : g.level < Nat.pow 2 64
      · cases hrest : (gs.map toJson).mapM ofJson? <;> simp [hlevel]
      · simp [hlevel]

end Geohash.Group

/-! ## Slots -/

namespace Slot

/-- A document can tell the slot: its number is finite, and the levels of its groups fit in 64
bits. -/
def Tellable : Slot → Prop
  | number x => ∃ y, x = .finite y
  | groups gs => ∀ g ∈ gs, g.level < Nat.pow 2 64
  | null | flag _ | text _ | values _ | exclusions _ => True

theorem ofJson_eq_ok {c : Category} {value : Json} {slot : Slot} :
    ofJson c value = .ok slot ↔ ofValue c value = .ok slot ∧ c.shape.accepts slot = true := by
  rw [ofJson]
  cases hread : ofValue c value with
  | error e => simp [bind, Except.bind]
  | ok read =>
      rw [Except.ok.injEq]
      constructor
      · intro h
        have hslot : read = slot := by
          cases hcheck : checkShape c read <;>
            simp_all [bind, Except.bind, pure, Except.pure]
        subst hslot
        exact ⟨rfl, State.accepts_of_ofJson (by rw [ofJson, hread]; exact h)⟩
      · rintro ⟨rfl, haccepts⟩
        simp [checkShape, haccepts, bind, Except.bind, pure, Except.pure]

/-- A category that takes lists of values reads a list as values. -/
theorem ofItems_of_accepts_values {c : Category} {vs : List FilterValue}
    (h : c.shape.accepts (.values vs) = true) (items : List Json) :
    ofItems c items = .ok (.values (FilterValue.listOfJson items)) := by
  unfold ofItems
  split
  · cases h
  · cases h
  · rfl

theorem eq_exclude_of_accepts {c : Category} {es : List Exclusion}
    (h : c.shape.accepts (.exclusions es) = true) : c = exclude := by
  cases c <;> simp_all [shape, Shape.accepts]

theorem eq_geohashGroups_of_accepts {c : Category} {gs : List Geohash.Group}
    (h : c.shape.accepts (.groups gs) = true) : c = geohashGroups := by
  cases c <;> simp_all [shape, Shape.accepts]

/-- A slot that its category takes is read off its written form exactly when a document can tell
it. -/
theorem ofValue_toJson {c : Category} {slot : Slot} (h : c.shape.accepts slot = true) :
    ofValue c slot.toJson = .ok slot ↔ slot.Tellable := by
  cases slot with
  | null => exact iff_of_true rfl trivial
  | flag on => exact iff_of_true rfl trivial
  | text s => exact iff_of_true rfl trivial
  | number x =>
      cases x with
      | finite y => exact iff_of_true rfl ⟨y, rfl⟩
      | infinite negative => simp [toJson, ofValue, Tellable]
      | notANumber => simp [toJson, ofValue, Tellable]
  | values vs =>
      refine iff_of_true ?_ trivial
      change ofItems c _ = _
      rw [ofItems_of_accepts_values h, FilterValue.listOfJson_map_toJson]
  | exclusions es =>
      obtain rfl := eq_exclude_of_accepts h
      refine iff_of_true ?_ trivial
      change Except.ok (exclusions ((es.map Exclusion.toJson).filterMap Exclusion.ofJson?)) = _
      rw [Exclusion.filterMap_ofJson?_map_toJson]
  | groups gs =>
      obtain rfl := eq_geohashGroups_of_accepts h
      rw [Tellable, ← Geohash.Group.mapM_ofJson?_map_toJson, toJson, ofValue, ofItems]
      cases (gs.map Geohash.Group.toJson).mapM Geohash.Group.ofJson? <;> simp

/-- A slot comes back from its written form exactly when its category takes it and a document can
tell it. -/
theorem ofJson_toJson_iff {c : Category} {slot : Slot} :
    ofJson c slot.toJson = .ok slot ↔ checkShape c slot = .ok () ∧ slot.Tellable := by
  rw [ofJson_eq_ok, checkShape_eq_ok, and_comm]
  exact and_congr_right ofValue_toJson

end Slot

/-! ## Members of documents -/

namespace Json

variable {name : String} {value : Json} {members : List (String × Json)}

theorem mem_of_member?_eq_some (h : member? name members = some value) :
    (name, value) ∈ members := by
  induction members with
  | nil => cases h
  | cons m rest ih =>
      obtain ⟨n, first⟩ := m
      rw [member?] at h
      split at h
      · rename_i later hlater
        obtain rfl := Option.some.inj h
        exact List.mem_cons_of_mem _ (ih hlater)
      · split at h
        · rename_i hname
          obtain rfl := Option.some.inj h
          rw [hname]
          exact List.mem_cons_self
        · cases h

/-- A name that occurs has a value. -/
theorem exists_member?_eq_some (h : name ∈ members.map (·.1)) :
    ∃ value, member? name members = some value := by
  induction members with
  | nil => cases h
  | cons m rest ih =>
      obtain ⟨n, first⟩ := m
      rw [member?]
      cases hlater : member? name rest with
      | some later => exact ⟨later, rfl⟩
      | none =>
          have hname : n = name := by
            rcases List.mem_cons.mp h with hfirst | hrest
            · exact hfirst.symm
            · obtain ⟨later, heq⟩ := ih hrest
              rw [heq] at hlater
              cases hlater
          exact ⟨first, if_pos hname⟩

/-- The members of an object in order are its names with their values. -/
theorem mem_sortedMembers : (name, value) ∈ sortedMembers members ↔
    member? name members = some value := by
  rw [sortedMembers, List.mem_filterMap]
  constructor
  · rintro ⟨n, -, h⟩
    obtain ⟨v, hv, heq⟩ := Option.map_eq_some_iff.mp h
    obtain ⟨rfl, rfl⟩ := Prod.mk.inj heq
    exact hv
  · intro h
    have hname : name ∈ members.map (·.1) :=
      List.mem_map_of_mem (f := (·.1)) (mem_of_member?_eq_some h)
    exact ⟨name, mem_sortedSet.mpr hname, by rw [h]; rfl⟩

end Json

/-! ## Sessions -/

namespace State

variable {s t : State}

theorem ext_get? (hdefaults : t.defaults = s.defaults) (hget : ∀ c, t.get? c = s.get? c) :
    t = s := by
  obtain ⟨d, slots⟩ := t
  obtain rfl : d = s.defaults := hdefaults
  have hslots : slots = s.slots := Table.ext (funext hget)
  rw [hslots]

/-- The slot of every category, under the name of the category. -/
def writtenSlots (s : State) : List (String × Json) :=
  s.slots.entries.map fun (c, slot) => (c.name, slot.toJson)

/-- The document of a session. -/
def toDocument (s : State) : Json :=
  .object s.writtenSlots

theorem mem_writtenSlots {m : String × Json} :
    m ∈ s.writtenSlots ↔ ∃ c slot, s.get? c = some slot ∧ m = (c.name, slot.toJson) := by
  simp only [writtenSlots, Table.entries, List.mem_map, List.mem_filterMap, mem_all, true_and,
    Option.map_eq_some_iff]
  constructor
  · rintro ⟨_, ⟨c, slot, hslot, rfl⟩, rfl⟩
    exact ⟨c, slot, hslot, rfl⟩
  · rintro ⟨c, slot, hslot, rfl⟩
    exact ⟨(c, slot), ⟨c, slot, hslot, rfl⟩, rfl⟩

/-- Sorting the document of a session loses none of its slots. -/
theorem mem_sortedMembers_writtenSlots {m : String × Json} :
    m ∈ Json.sortedMembers s.writtenSlots ↔
      ∃ c slot, s.get? c = some slot ∧ m = (c.name, slot.toJson) := by
  obtain ⟨name, value⟩ := m
  rw [Json.mem_sortedMembers]
  constructor
  · intro h
    exact mem_writtenSlots.mp (Json.mem_of_member?_eq_some h)
  · rintro ⟨c, slot, hslot, heq⟩
    obtain ⟨rfl, rfl⟩ := Prod.mk.inj heq
    obtain ⟨other, hother⟩ := Json.exists_member?_eq_some (List.mem_map_of_mem (f := (·.1))
      (mem_writtenSlots.mpr ⟨c, slot, hslot, rfl⟩))
    obtain ⟨d, slot', hslot', heq'⟩ := mem_writtenSlots.mp (Json.mem_of_member?_eq_some hother)
    obtain ⟨hname, rfl⟩ := Prod.mk.inj heq'
    obtain rfl := name_inj.mp hname
    rw [hslot] at hslot'
    rw [hother, Option.some.inj hslot']

theorem name_mem_sortedMembers {c : Category} {slot : Slot} (h : s.get? c = some slot) :
    c.name ∈ (Json.sortedMembers s.writtenSlots).map (·.1) :=
  List.mem_map_of_mem (f := (·.1)) (mem_sortedMembers_writtenSlots.mpr ⟨c, slot, h, rfl⟩)

/-- The written slots of some categories, at least of those that a session has not got back yet,
bring the session back. `readable` says that each slot can be read, and `regrouped` that the groups
follow from the cells. -/
theorem applyMembers_written {touched : Bool} {members : List (String × Json)}
    (readable : ∀ c slot, c ≠ geohashGroups → s.get? c = some slot →
      s.isAvailable c = true ∧ Slot.ofJson c slot.toJson = .ok slot)
    (regrouped : ∀ u : State, u.defaults = s.defaults →
      (∀ c ≠ geohashGroups, u.get? c = s.get? c) → u.regroup = s)
    (written : ∀ m ∈ members, ∃ c slot, s.get? c = some slot ∧ m = (c.name, slot.toJson))
    (hdefaults : t.defaults = s.defaults)
    (back : ∀ c ≠ geohashGroups, t.get? c = s.get? c ∨ c.name ∈ members.map (·.1))
    (cells : touched = true ∨ geohashes.name ∈ members.map (·.1)) :
    t.applyMembers touched members = .done s := by
  induction members generalizing t touched with
  | nil =>
      obtain rfl : touched = true := by simpa using cells
      have hback : ∀ c ≠ geohashGroups, t.get? c = s.get? c := by simpa using back
      rw [applyMembers, if_pos rfl, regrouped t hdefaults hback]
  | cons m rest ih =>
      obtain ⟨⟨c, slot, hslot, rfl⟩, hrest⟩ := List.forall_mem_cons.mp written
      by_cases hc : c = geohashGroups
      · subst hc
        have hskipped : t.memberCategory? geohashGroups.name = none := by
          simp [memberCategory?]
        rw [applyMembers_of_none touched rest hskipped]
        apply ih hrest hdefaults
        · intro d hd
          simpa [hd] using back d hd
        · simpa using cells
      · obtain ⟨havailable, hread⟩ := readable c slot hc hslot
        rw [← isAvailable_congr hdefaults] at havailable
        have hcategory : t.memberCategory? c.name = some c :=
          memberCategory?_eq_some.mpr ⟨ofName?_name c, havailable, hc⟩
        rw [applyMembers_of_ok touched rest hcategory hread]
        refine ih (t := t.put c slot) hrest hdefaults ?_ ?_
        · intro d hd
          rw [get?_put]
          split
          · rename_i hdc
            exact Or.inl (hdc ▸ hslot.symm)
          · rename_i hdc
            simpa [hdc] using back d hd
        · rw [List.map_cons, List.mem_cons, name_inj] at cells
          rw [Bool.or_eq_true, beq_iff_eq, or_assoc, eq_comm (a := c)]
          exact cells

/-- Over the cells of a session in step, grouping brings its groups back. -/
theorem regroup_eq {u : State} {gs : List Geohash.Group}
    (hgroups : s.get? geohashGroups = some (.groups gs))
    (available : s.isAvailable geohashGroups = true)
    (inStep : s.groups = Geohash.groupCells s.cells) (hdefaults : u.defaults = s.defaults)
    (hget : ∀ c ≠ geohashGroups, u.get? c = s.get? c) : u.regroup = s := by
  have hcells : u.cells = s.cells := cells_congr (hget geohashes (by decide))
  have hslot : s.get? geohashGroups = some (.groups (Geohash.groupCells s.cells)) := by
    rw [← inStep, State.groups, hgroups]
  apply ext_get? ((defaults_regroup u).trans hdefaults)
  intro c
  rw [regroup, if_pos (by rwa [isAvailable_congr hdefaults]), get?_put, hcells]
  split
  · rename_i hc
    rw [hc, hslot]
  · rename_i hc
    exact hget c hc

end State

/-- A session in step over defaults with the cells and their groups comes back from its document,
when its numbers are finite. -/
theorem State.ofDocument_toDocument {d : Defaults} {s : State} (h : WellShaped d s)
    (hcells : d.contains geohashes = true) (hgroups : d.contains geohashGroups = true)
    (finite : ∀ c x, s.get? c = some (.number x) → ∃ y, x = .finite y)
    (inStep : s.groups = Geohash.groupCells s.cells) :
    State.ofDocument d s.toDocument = .ok s := by
  have hstored : ∀ c, d.contains c = true → ∃ slot, s.get? c = some slot := by
    intro c hc
    rw [← h.contains_eq c, Table.contains, Option.isSome_iff_exists] at hc
    exact hc
  have readable : ∀ c slot, c ≠ geohashGroups → s.get? c = some slot →
      s.isAvailable c = true ∧ Slot.ofJson c slot.toJson = .ok slot := by
    intro c slot hc hslot
    have haccepts := h.slots_fit c slot hslot
    refine ⟨h.isAvailable hslot, Slot.ofJson_toJson_iff.mpr ⟨checkShape_eq_ok.mpr haccepts, ?_⟩⟩
    cases slot with
    | number x => exact finite c x hslot
    | groups gs => exact absurd (Slot.eq_geohashGroups_of_accepts haccepts) hc
    | _ => trivial
  have regrouped : ∀ u : State, u.defaults = s.defaults →
      (∀ c ≠ geohashGroups, u.get? c = s.get? c) → u.regroup = s := by
    obtain ⟨slot, hslot⟩ := hstored geohashGroups hgroups
    have haccepts := h.slots_fit geohashGroups slot hslot
    cases slot with
    | groups gs => exact fun u => State.regroup_eq hslot (h.isAvailable hslot) inStep
    | _ => cases haccepts
  have happlied : (State.new d).applyDocument s.toDocument = .done s := by
    apply State.applyMembers_written readable regrouped
    · exact fun m hm => State.mem_sortedMembers_writtenSlots.mp hm
    · exact h.defaults_eq.symm
    · intro c _
      cases hslot : s.get? c with
      | some slot => exact Or.inr (State.name_mem_sortedMembers hslot)
      | none => exact Or.inl (h.get?_eq_none hslot)
    · obtain ⟨slot, hslot⟩ := hstored geohashes hcells
      exact Or.inr (State.name_mem_sortedMembers hslot)
  rw [State.ofDocument, happlied]
  rfl

/-- What is saved comes back. A slot does so exactly when its category takes it and a document can
tell it; a session does so when its numbers are finite and its groups are those of its cells, over
any defaults that have both. -/
theorem saved_slots_and_sessions_come_back :
    (∀ c slot, Slot.ofJson c slot.toJson = .ok slot ↔
      checkShape c slot = .ok () ∧ slot.Tellable) ∧
    ∀ d s, WellShaped d s → d.contains geohashes = true → d.contains geohashGroups = true →
      (∀ c x, s.get? c = some (.number x) → ∃ y, x = .finite y) →
      s.groups = Geohash.groupCells s.cells → State.ofDocument d s.toDocument = .ok s :=
  ⟨fun _ _ => Slot.ofJson_toJson_iff, fun _ _ => State.ofDocument_toDocument⟩

/-- A session without places: cells on the map, a labelled term, two years, a western edge at
negative zero, and fewer exclusions than at the start. -/
def salmonVisit : State :=
  (State.new (Defaults.without (.forYear 2024) [.spatial])).run
    [.setGeohashes [.plain "9q", .described "9r" "coast" none],
      .pushValue .taxon (.described "Salmo" "" (some "salmon")), .setYearRange 1990 2000,
      .set .west (.number (.finite (.zero true))), .remove .exclude "*"]

theorem saved_slots_and_sessions_come_back_salmonVisit :
    checkShape .taxon (.values [.plain "", .described "Salmo" "" none]) = .ok () ∧
      Slot.ofJson .taxon (Slot.values [.plain "", .described "Salmo" "" none]).toJson =
        .ok (.values [.plain "", .described "Salmo" "" none]) ∧
      WellShaped (Defaults.without (.forYear 2024) [.spatial]) salmonVisit ∧
      (Defaults.without (.forYear 2024) [.spatial]).contains geohashes = true ∧
      (Defaults.without (.forYear 2024) [.spatial]).contains geohashGroups = true ∧
      (∀ c x, salmonVisit.get? c = some (.number x) → ∃ y, x = .finite y) ∧
      salmonVisit.groups = Geohash.groupCells salmonVisit.cells ∧
      State.ofDocument (Defaults.without (.forYear 2024) [.spatial]) salmonVisit.toDocument =
        .ok salmonVisit := by
  obtain ⟨hslots, hsessions⟩ := saved_slots_and_sessions_come_back
  have hshape : WellShaped (Defaults.without (.forYear 2024) [.spatial]) salmonVisit :=
    (WellShaped.new (Defaults.fits_without (Defaults.fits_forYear 2024) _)).run _
  have hfinite : ∀ c x, salmonVisit.get? c = some (.number x) → ∃ y, x = .finite y := by
    have hall : ∀ c ∈ all, ∀ negative,
        salmonVisit.get? c ≠ some (.number (.infinite negative)) ∧
          salmonVisit.get? c ≠ some (.number .notANumber) := by
      decide +kernel
    intro c x hslot
    cases x with
    | finite y => exact ⟨y, rfl⟩
    | infinite negative => exact absurd hslot (hall c (mem_all c) negative).1
    | notANumber => exact absurd hslot (hall c (mem_all c) true).2
  have hinStep : salmonVisit.groups = Geohash.groupCells salmonVisit.cells := by
    decide +kernel
  refine ⟨rfl, (hslots _ _).mpr ⟨rfl, trivial⟩, hshape, rfl, rfl, hfinite, hinStep, ?_⟩
  exact hsessions _ _ hshape rfl rfl hfinite hinStep

end FacetedSearch
