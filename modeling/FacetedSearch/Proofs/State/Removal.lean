import FacetedSearch.Proofs.State.AddedAndRemoved

/-!
# Removing filters one after another

Removing a value from a category takes items out of its list, or brings its slot back to the
default. Two kinds of categories have followers, which change along: the cells take their groups
with them, and a year flag takes the range of years with it, unless the other flag still needs the
range. Every other slot stays as it is.

Over the standard defaults a removal can be repeated in vain, and the order of two removals does not
matter unless one is about the cells and the other about their groups. A slot that is no list goes
back to a default without items, so it makes no difference what the slot has been before.
-/

namespace FacetedSearch

open Category

/-! ## One slot -/

namespace Slot

/-- The slot without the items of a value. A slot that is no list gives way to its default. -/
def dropping (slot default : Slot) (value : String) : Slot :=
  match slot with
  | values vs => values (vs.filter fun v => v.text != value)
  | exclusions es => exclusions (es.filter fun e => e.value != value)
  | _ => default

variable {lastYear : Int} {c : Category} {slot default : Slot}

theorem dropping_of_not_list (hvalues : ∀ vs, slot ≠ values vs)
    (hexclusions : ∀ es, slot ≠ exclusions es) (value : String) :
    slot.dropping default value = default := by
  cases slot with
  | values vs => exact absurd rfl (hvalues vs)
  | exclusions es => exact absurd rfl (hexclusions es)
  | _ => rfl

/-- A category that takes a slot that is no list has no items in its standard slot. -/
theorem dropping_slotFor (h : c.shape.accepts slot = true) (hvalues : ∀ vs, slot ≠ values vs)
    (hexclusions : ∀ es, slot ≠ exclusions es) (value : String) :
    (Defaults.slotFor lastYear c).dropping (Defaults.slotFor lastYear c) value =
      Defaults.slotFor lastYear c := by
  have hshape : c.shape ≠ .values ∧ c.shape ≠ .exclusions := by
    constructor
    · intro hshape
      rw [hshape] at h
      cases slot <;> simp_all [Shape.accepts]
    · intro hshape
      rw [hshape] at h
      cases slot <;> simp_all [Shape.accepts]
  cases c <;> simp_all [Category.shape, Defaults.slotFor, dropping]

/-- Values can be taken out of a slot in any order. -/
theorem dropping_comm (h : c.shape.accepts slot = true) (first second : String) :
    (slot.dropping (Defaults.slotFor lastYear c) first).dropping
        (Defaults.slotFor lastYear c) second =
      (slot.dropping (Defaults.slotFor lastYear c) second).dropping
        (Defaults.slotFor lastYear c) first := by
  cases slot with
  | values vs => simp only [dropping, List.filter_filter, Bool.and_comm]
  | exclusions es => simp only [dropping, List.filter_filter, Bool.and_comm]
  | _ =>
      exact (dropping_slotFor h nofun nofun second).trans
        (dropping_slotFor h nofun nofun first).symm

/-- What has been taken out is not there to be taken out again. -/
theorem dropping_dropping (h : c.shape.accepts slot = true) (value : String) :
    (slot.dropping (Defaults.slotFor lastYear c) value).dropping
        (Defaults.slotFor lastYear c) value =
      slot.dropping (Defaults.slotFor lastYear c) value := by
  cases slot with
  | values vs => simp only [dropping, List.filter_filter, Bool.and_self]
  | exclusions es => simp only [dropping, List.filter_filter, Bool.and_self]
  | _ => exact dropping_slotFor h nofun nofun value

end Slot

/-! ## What a removal touches -/

namespace Category

/-- The other flag of the range of years. -/
def otherFlag? : Category → Option Category
  | pubYear => some dataYear
  | dataYear => some pubYear
  | _ => none

/-- The categories that change along when a value is removed. -/
def followers : Category → List Category
  | pubYear | dataYear => [yearMin, yearMax]
  | geohashes => [geohashGroups]
  | _ => []

variable {c other : Category}

theorem eq_of_otherFlag? (h : c.otherFlag? = some other) :
    c = pubYear ∧ other = dataYear ∨ c = dataYear ∧ other = pubYear := by
  unfold otherFlag? at h
  split at h <;> simp_all

theorem otherFlag?_symm (h : c.otherFlag? = some other) : other.otherFlag? = some c := by
  rcases eq_of_otherFlag? h with ⟨rfl, rfl⟩ | ⟨rfl, rfl⟩ <;> rfl

/-- There are two flags. -/
theorem otherFlag?_of_ne {d another : Category} (hc : c.otherFlag? = some other)
    (hd : d.otherFlag? = some another) (h : d ≠ c) : c.otherFlag? = some d := by
  rcases eq_of_otherFlag? hc with ⟨rfl, -⟩ | ⟨rfl, -⟩
  · rcases eq_of_otherFlag? hd with ⟨rfl, -⟩ | ⟨rfl, -⟩
    · exact absurd rfl h
    · rfl
  · rcases eq_of_otherFlag? hd with ⟨rfl, -⟩ | ⟨rfl, -⟩
    · rfl
    · exact absurd rfl h

/-- A category with followers is a year flag or the cells. -/
theorem followers_cases (c : Category) :
    (∃ other, c.otherFlag? = some other ∧ c.followers = [yearMin, yearMax]) ∨ c = geohashes ∨
      c.otherFlag? = none ∧ c.followers = [] := by
  cases c with
  | pubYear => exact Or.inl ⟨dataYear, rfl, rfl⟩
  | dataYear => exact Or.inl ⟨pubYear, rfl, rfl⟩
  | geohashes => exact Or.inr (Or.inl rfl)
  | _ => exact Or.inr (Or.inr ⟨rfl, rfl⟩)

/-- A year flag follows nothing. -/
theorem not_mem_followers_of_otherFlag? (h : c.otherFlag? = some other) (d : Category) :
    c ∉ d.followers := by
  cases d with
  | pubYear | dataYear | geohashes =>
      rcases eq_of_otherFlag? h with ⟨rfl, -⟩ | ⟨rfl, -⟩ <;> decide
  | _ => exact List.not_mem_nil

/-- Only the flags take the years along. -/
theorem otherFlag?_of_year_mem_followers {year : Category} (hyear : year = yearMin ∨ year = yearMax)
    (h : year ∈ c.followers) : ∃ other, c.otherFlag? = some other := by
  rcases followers_cases c with ⟨other, hother, -⟩ | rfl | ⟨-, hnone⟩
  · exact ⟨other, hother⟩
  · rcases hyear with rfl | rfl <;> exact absurd h (by decide)
  · rw [hnone] at h
    cases h

theorem geohashes_not_mem_followers (c : Category) : geohashes ∉ c.followers := by
  cases c <;> decide

/-- Only the cells take the groups along. -/
theorem geohashGroups_not_mem_followers (h : c ≠ geohashes) : geohashGroups ∉ c.followers := by
  cases c with
  | geohashes => exact absurd rfl h
  | _ => decide

/-- What follows is a year or the groups. -/
theorem not_mem_followers (first : c ≠ yearMin) (last : c ≠ yearMax) (groups : c ≠ geohashGroups)
    (d : Category) : c ∉ d.followers := by
  cases d with
  | pubYear | dataYear => simp [followers, first, last]
  | geohashes => simp [followers, groups]
  | _ => exact List.not_mem_nil

end Category

namespace State

variable {s : State} {c d other : Category}

theorem isActive_of_not_isAvailable (h : s.isAvailable c = false) : s.isActive c = false := by
  rw [← Bool.not_eq_true] at h ⊢
  exact fun hactive => h (isAvailable_of_isActive hactive)

theorem get?_removeItems_of_ne (h : d ≠ c) (value : String) :
    (s.removeItems c value).get? d = s.get? d := by
  rcases s.removeItems_cases c value with ⟨vs, -, heq⟩ | ⟨es, -, heq⟩ | heq
  · rw [heq, get?_put_of_ne h]
  · rw [heq, get?_put_of_ne h]
  · rw [heq, get?_reset_of_ne h]

theorem get?_resets_of_not_mem {categories : List Category} (h : d ∉ categories) :
    (s.resets categories).get? d = s.get? d := by
  induction categories generalizing s with
  | nil => rfl
  | cons first rest ih =>
      rw [List.mem_cons, not_or] at h
      exact (ih (s := s.reset first) h.2).trans (get?_reset_of_ne h.1)

/-! ### Removal as one of three changes -/

theorem remove_of_not_isAvailable (h : s.isAvailable c = false) (value : String) :
    s.remove c value = s := by
  unfold remove
  rw [h]
  rfl

/-- A year flag goes back to its default, and so does the range unless the other flag needs it. -/
theorem remove_of_otherFlag? (h : c.otherFlag? = some other) (available : s.isAvailable c = true)
    (value : String) :
    s.remove c value = s.resets (if s.isActive other then [c] else [c, yearMin, yearMax]) := by
  have hflag : s.remove c value = s.removeYearFlag c other := by
    unfold remove
    rw [if_pos available]
    rcases eq_of_otherFlag? h with ⟨rfl, rfl⟩ | ⟨rfl, rfl⟩ <;> rfl
  rw [hflag, removeYearFlag]
  cases s.isActive other <;> rfl

theorem remove_geohashes (available : s.isAvailable geohashes = true) (value : String) :
    s.remove geohashes value = (s.removeItems geohashes value).regroup :=
  if_pos available

theorem remove_of_followers_eq_nil (h : c.followers = []) (available : s.isAvailable c = true)
    (value : String) : s.remove c value = s.removeItems c value := by
  unfold remove
  rw [if_pos available]
  cases c with
  | pubYear | dataYear | geohashes => cases h
  | _ => rfl

theorem defaults_remove (s : State) (c : Category) (value : String) :
    (s.remove c value).defaults = s.defaults := by
  cases available : s.isAvailable c with
  | false => rw [remove_of_not_isAvailable available]
  | true =>
      rcases followers_cases c with ⟨other, hother, -⟩ | rfl | ⟨-, hnone⟩
      · rw [remove_of_otherFlag? hother available, defaults_resets]
      · rw [remove_geohashes available, defaults_regroup, defaults_removeItems]
      · rw [remove_of_followers_eq_nil hnone available, defaults_removeItems]

theorem isAvailable_remove (s : State) (c : Category) (value : String) :
    (s.remove c value).isAvailable = s.isAvailable :=
  funext (isAvailable_congr (defaults_remove s c value))

/-- A category that the deployment does not have can be removed at any time. -/
theorem remove_comm_of_not_isAvailable (h : s.isAvailable c = false) (value otherValue : String) :
    (s.remove c value).remove other otherValue = (s.remove other otherValue).remove c value := by
  have hlater : (s.remove other otherValue).isAvailable c = false := by
    rw [isAvailable_remove, h]
  rw [remove_of_not_isAvailable h, remove_of_not_isAvailable hlater]

/-- Only the category itself and its followers have their slots changed. -/
theorem get?_remove_of_ne (h : d ≠ c) (hfollower : d ∉ c.followers) (value : String) :
    (s.remove c value).get? d = s.get? d := by
  cases available : s.isAvailable c with
  | false => rw [remove_of_not_isAvailable available]
  | true =>
      rcases followers_cases c with ⟨other, hother, hyears⟩ | rfl | ⟨-, hnone⟩
      · rw [remove_of_otherFlag? hother available]
        apply get?_resets_of_not_mem
        rw [hyears] at hfollower
        split <;> simp_all
      · rw [remove_geohashes available,
          get?_regroup_of_ne (fun hgroups => hfollower (List.mem_singleton.mpr hgroups)),
          get?_removeItems_of_ne h]
      · rw [remove_of_followers_eq_nil hnone available, get?_removeItems_of_ne h]

/-- The range stays for the other flag. -/
theorem get?_remove_of_otherFlag? (h : c.otherFlag? = some other) (needed : s.isActive other = true)
    (hd : d ≠ c) (value : String) : (s.remove c value).get? d = s.get? d := by
  cases available : s.isAvailable c with
  | false => rw [remove_of_not_isAvailable available]
  | true =>
      rw [remove_of_otherFlag? h available, if_pos needed]
      exact get?_resets_of_not_mem (by simpa using hd)

theorem isActive_remove_of_ne (h : d ≠ c) (hfollower : d ∉ c.followers) (value : String) :
    (s.remove c value).isActive d = s.isActive d :=
  isActive_congr (defaults_remove s c value) (get?_remove_of_ne h hfollower value)

/-! ### The slots that change -/

/-- A slot loses the items of the value, or gives way to its default. -/
theorem get?_removeItems_self {slot default : Slot} (hslot : s.get? c = some slot)
    (hdefault : s.defaults.get? c = some default) (value : String) :
    (s.removeItems c value).get? c = some (slot.dropping default value) := by
  have hreset : (s.reset c).get? c = some default := by
    rw [reset, hdefault, get?_put, if_pos rfl]
  rw [removeItems, hslot]
  cases slot with
  | values vs => rw [get?_put, if_pos rfl, Slot.dropping]
  | exclusions es => rw [get?_put, if_pos rfl, Slot.dropping]
  | _ => exact hreset

/-- The cells that are left are grouped anew, where the deployment has groups. -/
theorem get?_remove_geohashes_groups (available : s.isAvailable geohashes = true) (value : String) :
    (s.remove geohashes value).get? geohashGroups =
      if s.isAvailable geohashGroups then
        some (.groups (Geohash.groupCells (s.remove geohashes value).cells))
      else s.get? geohashGroups := by
  rw [remove_geohashes available, cells_regroup, regroup,
    isAvailable_congr (defaults_removeItems s geohashes value)]
  split
  · rw [get?_put, if_pos rfl]
  · exact get?_removeItems_of_ne (by decide) value

/-- After two removals of which one is about the cells, the groups are those of the cells that are
left. -/
theorem get?_groups_of_cells_removed (hcells : c = geohashes ∨ other = geohashes)
    (hc : c ≠ geohashGroups) (hother : other ≠ geohashGroups)
    (available : s.isAvailable geohashes = true) (value otherValue : String) :
    ((s.remove c value).remove other otherValue).get? geohashGroups =
      if s.isAvailable geohashGroups then
        some (.groups (Geohash.groupCells ((s.remove c value).remove other otherValue).cells))
      else s.get? geohashGroups := by
  by_cases hlast : other = geohashes
  · subst hlast
    rw [get?_remove_geohashes_groups (by rw [isAvailable_remove, available]), isAvailable_remove]
    split
    · rfl
    · rename_i ungrouped
      by_cases hfirst : c = geohashes
      · rw [hfirst, get?_remove_geohashes_groups available, if_neg ungrouped]
      · exact get?_remove_of_ne hc.symm (geohashGroups_not_mem_followers hfirst) value
  · obtain rfl : c = geohashes := hcells.resolve_right hlast
    rw [get?_remove_of_ne hother.symm (geohashGroups_not_mem_followers hlast),
      get?_remove_geohashes_groups available,
      cells_congr (get?_remove_of_ne (Ne.symm hlast) (geohashes_not_mem_followers other) _)]

/-- Removing a value from the category brings a year back to its default: the category is the year
itself, or a flag that is the only one to need the range. -/
def bringsBack (s : State) (c year : Category) : Bool :=
  s.isAvailable c && match c.otherFlag? with
    | some other => !s.isActive other
    | none => c == year

/-- Whether a year is brought back depends on no removal but that of the other flag. -/
theorem bringsBack_remove (h : d.otherFlag? ≠ some c) (value : String) (year : Category) :
    (s.remove c value).bringsBack d year = s.bringsBack d year := by
  rw [bringsBack, bringsBack, isAvailable_remove]
  cases hother : d.otherFlag? with
  | none => rfl
  | some other =>
      have hne : other ≠ c := by
        rintro rfl
        exact h hother
      have hfollower := not_mem_followers_of_otherFlag? (otherFlag?_symm hother) c
      dsimp only
      rw [isActive_remove_of_ne hne hfollower]

end State

namespace WellShaped

open State

variable {d : Defaults} {s : State} {c other year : Category}

theorem exists_slots (h : WellShaped d s) (available : s.isAvailable c = true) :
    ∃ slot default, s.get? c = some slot ∧ s.defaults.get? c = some default := by
  have hstored : s.slots.contains c = true := by
    rw [h.contains_eq, ← h.isAvailable_eq, available]
  obtain ⟨slot, hslot⟩ := Option.isSome_iff_exists.mp hstored
  obtain ⟨default, hdefault⟩ := Option.isSome_iff_exists.mp available
  exact ⟨slot, default, hslot, hdefault⟩

/-- A year flag holds a flag. -/
theorem exists_flag (h : Fits d) (hother : c.otherFlag? = some other) {slot : Slot}
    (hslot : d.get? c = some slot) : ∃ on, slot = .flag on := by
  have haccepts := h c slot hslot
  rcases eq_of_otherFlag? hother with ⟨rfl, -⟩ | ⟨rfl, -⟩ <;> cases slot <;>
    simp_all [shape, Shape.accepts]

theorem get?_remove_flag (h : WellShaped d s) (hother : c.otherFlag? = some other)
    (available : s.isAvailable c = true) (value : String) :
    (s.remove c value).get? c = d.get? c := by
  rw [remove_of_otherFlag? hother available, h.get?_resets, if_pos]
  split <;> exact List.mem_cons_self

/-- A year flag that has been removed needs the range no more. -/
theorem isActive_remove_flag (h : WellShaped d s) (hother : c.otherFlag? = some other)
    (value : String) : (s.remove c value).isActive c = false := by
  cases available : s.isAvailable c with
  | false =>
      rw [remove_of_not_isAvailable available]
      exact isActive_of_not_isAvailable available
  | true =>
      obtain ⟨-, default, -, hdefault⟩ := h.exists_slots available
      rw [h.defaults_eq] at hdefault
      obtain ⟨on, rfl⟩ := exists_flag h.defaults_fit hother hdefault
      rw [isActive, isChanged, h.get?_remove_flag hother available, defaults_remove, h.defaults_eq,
        hdefault]
      simp [Slot.sameValue]

/-- A year is brought back to its default, or stays. -/
theorem get?_remove_year (h : WellShaped d s) (hyear : year = yearMin ∨ year = yearMax)
    (value : String) :
    (s.remove c value).get? year = if s.bringsBack c year then d.get? year else s.get? year := by
  cases available : s.isAvailable c with
  | false =>
      rw [remove_of_not_isAvailable available, bringsBack, available]
      rfl
  | true =>
      rw [bringsBack, available, Bool.true_and]
      rcases followers_cases c with ⟨other, hother, -⟩ | rfl | ⟨hsingle, hnone⟩
      · have hne : year ≠ c := by
          rcases eq_of_otherFlag? hother with ⟨rfl, -⟩ | ⟨rfl, -⟩ <;>
            rcases hyear with rfl | rfl <;> decide
        rw [remove_of_otherFlag? hother available, h.get?_resets, hother]
        cases hactive : s.isActive other with
        | true => simp [hactive, hne]
        | false => simp [hactive, hyear]
      · have hframe : year ≠ geohashes ∧ year ∉ geohashes.followers := by
          rcases hyear with rfl | rfl <;> decide
        rw [get?_remove_of_ne hframe.1 hframe.2]
        simp [otherFlag?, hframe.1.symm]
      · rw [remove_of_followers_eq_nil hnone available, hsingle]
        by_cases hc : c = year
        · subst hc
          obtain ⟨slot, default, hslot, hdefault⟩ := h.exists_slots available
          have hnumber : slot.dropping default value = default := by
            have haccepts := h.slots_fit c slot hslot
            apply Slot.dropping_of_not_list
            · rintro vs rfl
              rcases hyear with rfl | rfl <;> cases haccepts
            · rintro es rfl
              rcases hyear with rfl | rfl <;> cases haccepts
          rw [get?_removeItems_self hslot hdefault, hnumber, ← hdefault, h.defaults_eq]
          simp
        · rw [get?_removeItems_of_ne (Ne.symm hc)]
          simp [hc]

section Standard

variable {lastYear : Int} {omitted : List Category}
  (h : WellShaped (Defaults.without (.forYear lastYear) omitted) s)

include h

/-- The slot of the category loses the items of the value, or gives way to its default. -/
theorem get?_remove_self (c : Category) (value : String) :
    (s.remove c value).get? c =
      (s.get? c).map (·.dropping (Defaults.slotFor lastYear c) value) := by
  cases hslot : s.get? c with
  | none =>
      have unavailable : s.isAvailable c = false := by
        rw [h.isAvailable_eq, Table.contains, h.get?_eq_none hslot]
        rfl
      rw [remove_of_not_isAvailable unavailable, hslot, Option.map_none]
  | some slot =>
      have available := h.isAvailable hslot
      have hdefault : s.defaults.get? c = some (Defaults.slotFor lastYear c) := by
        rw [h.isAvailable_eq] at available
        rw [h.defaults_eq]
        exact Defaults.get?_of_contains_without available
      rw [Option.map_some]
      rcases followers_cases c with ⟨other, hother, -⟩ | rfl | ⟨-, hnone⟩
      · obtain ⟨on, rfl⟩ := exists_flag h.slots_fit hother hslot
        rw [h.get?_remove_flag hother available, ← h.defaults_eq, hdefault]
        rfl
      · rw [remove_geohashes available, get?_regroup_of_ne (by decide),
          get?_removeItems_self hslot hdefault]
      · rw [remove_of_followers_eq_nil hnone available, get?_removeItems_self hslot hdefault]

/-- The slot of a category that two removals are about does not depend on their order. -/
theorem get?_remove_remove_self {c other : Category}
    (hfollower : c ≠ other → c ∉ other.followers) (value otherValue : String) :
    ((s.remove c value).remove other otherValue).get? c =
      ((s.remove other otherValue).remove c value).get? c := by
  rw [(h.remove other otherValue).get?_remove_self c value]
  by_cases hother : c = other
  · subst hother
    rw [(h.remove c value).get?_remove_self c otherValue, h.get?_remove_self, h.get?_remove_self]
    cases hslot : s.get? c with
    | none => rfl
    | some slot =>
        exact congrArg some (Slot.dropping_comm (h.slots_fit c slot hslot) value otherValue)
  · rw [get?_remove_of_ne hother (hfollower hother), get?_remove_of_ne hother (hfollower hother),
      h.get?_remove_self]

/-- The years do not depend on the order of two removals. With both flags gone they are back at
their defaults, whichever flag went first. -/
theorem get?_remove_remove_year {c other year : Category} (hyear : year = yearMin ∨ year = yearMax)
    (value otherValue : String) :
    ((s.remove c value).remove other otherValue).get? year =
      ((s.remove other otherValue).remove c value).get? year := by
  have hback : ((s.remove c value).bringsBack other year || s.bringsBack c year) =
      ((s.remove other otherValue).bringsBack c year || s.bringsBack other year) := by
    by_cases hflags : other.otherFlag? = some c
    · have hneeded : ∀ flag, s.isAvailable flag = false → s.isActive flag = false :=
        fun _ => isActive_of_not_isAvailable
      simp only [bringsBack, isAvailable_remove, hflags, otherFlag?_symm hflags,
        h.isActive_remove_flag hflags, h.isActive_remove_flag (otherFlag?_symm hflags)]
      cases hc : s.isAvailable c <;> cases hother : s.isAvailable other <;>
        simp [hneeded, hc, hother]
    · have hflags' : c.otherFlag? ≠ some other := fun h => hflags (otherFlag?_symm h)
      rw [bringsBack_remove hflags, bringsBack_remove hflags', Bool.or_comm]
  rw [(h.remove c value).get?_remove_year hyear, (h.remove other otherValue).get?_remove_year hyear,
    h.get?_remove_year hyear, h.get?_remove_year hyear]
  simp only [← ite_or, ← Bool.or_eq_true, hback]

/-- The groups do not depend on the order of two removals, unless one of them is about the groups
and the other about the cells. -/
theorem get?_remove_remove_groups {c other : Category} (available : s.isAvailable c = true)
    (otherAvailable : s.isAvailable other = true) (apart : c = geohashes → other ≠ geohashGroups)
    (otherApart : other = geohashes → c ≠ geohashGroups) (value otherValue : String) :
    ((s.remove c value).remove other otherValue).get? geohashGroups =
      ((s.remove other otherValue).remove c value).get? geohashGroups := by
  by_cases hc : c = geohashGroups
  · subst hc
    exact h.get?_remove_remove_self (fun _ => geohashGroups_not_mem_followers fun hcells =>
      otherApart hcells rfl) value otherValue
  by_cases hother : other = geohashGroups
  · subst hother
    exact (h.get?_remove_remove_self (fun _ => geohashGroups_not_mem_followers fun hcells =>
      apart hcells rfl) otherValue value).symm
  by_cases hcells : c = geohashes ∨ other = geohashes
  · have hslot : s.isAvailable geohashes = true := by
      rcases hcells with rfl | rfl
      · exact available
      · exact otherAvailable
    have hleft : ((s.remove c value).remove other otherValue).cells =
        ((s.remove other otherValue).remove c value).cells := by
      apply cells_congr
      rcases hcells with rfl | rfl
      · exact h.get?_remove_remove_self (fun _ => geohashes_not_mem_followers other) _ _
      · exact (h.get?_remove_remove_self (fun _ => geohashes_not_mem_followers c) _ _).symm
    rw [get?_groups_of_cells_removed hcells hc hother hslot,
      get?_groups_of_cells_removed hcells.symm hother hc hslot, hleft]
  · rw [not_or] at hcells
    have hfirst := geohashGroups_not_mem_followers hcells.1
    have hsecond := geohashGroups_not_mem_followers hcells.2
    rw [get?_remove_of_ne (Ne.symm hother) hsecond, get?_remove_of_ne (Ne.symm hc) hfirst,
      get?_remove_of_ne (Ne.symm hc) hfirst, get?_remove_of_ne (Ne.symm hother) hsecond]

/-- Two removals can be made in either order, unless one of them is about the cells and the other
about their groups. -/
theorem remove_comm {c other : Category} (apart : c = geohashes → other ≠ geohashGroups)
    (otherApart : other = geohashes → c ≠ geohashGroups) (value otherValue : String) :
    (s.remove c value).remove other otherValue = (s.remove other otherValue).remove c value := by
  cases available : s.isAvailable c with
  | false => exact remove_comm_of_not_isAvailable available value otherValue
  | true =>
      cases otherAvailable : s.isAvailable other with
      | false => exact (remove_comm_of_not_isAvailable otherAvailable otherValue value).symm
      | true =>
          refine ext_get? (by simp only [defaults_remove]) fun e => ?_
          by_cases hyear : e = yearMin ∨ e = yearMax
          · exact h.get?_remove_remove_year hyear value otherValue
          by_cases hgroups : e = geohashGroups
          · rw [hgroups]
            exact h.get?_remove_remove_groups available otherAvailable apart otherApart _ _
          rw [not_or] at hyear
          have hfollower := not_mem_followers hyear.1 hyear.2 hgroups
          by_cases hc : e = c
          · rw [hc] at hfollower ⊢
            exact h.get?_remove_remove_self (fun _ => hfollower other) value otherValue
          by_cases hother : e = other
          · rw [hother] at hfollower ⊢
            exact (h.get?_remove_remove_self (fun _ => hfollower c) otherValue value).symm
          rw [get?_remove_of_ne hother (hfollower other), get?_remove_of_ne hc (hfollower c),
            get?_remove_of_ne hc (hfollower c), get?_remove_of_ne hother (hfollower other)]

/-- Removing the same value again changes nothing. -/
theorem remove_remove (c : Category) (value : String) :
    (s.remove c value).remove c value = s.remove c value := by
  have hself : ((s.remove c value).remove c value).get? c = (s.remove c value).get? c := by
    rw [(h.remove c value).get?_remove_self, h.get?_remove_self]
    cases hslot : s.get? c with
    | none => rfl
    | some slot => exact congrArg some (Slot.dropping_dropping (h.slots_fit c slot hslot) value)
  refine ext_get? (defaults_remove _ c value) fun e => ?_
  by_cases hc : e = c
  · rw [hc, hself]
  by_cases hyear : e = yearMin ∨ e = yearMax
  · have hback : (s.remove c value).bringsBack c e = s.bringsBack c e :=
      bringsBack_remove (by cases c <;> decide) value e
    rw [(h.remove c value).get?_remove_year hyear, h.get?_remove_year hyear, hback]
    split <;> rfl
  rw [not_or] at hyear
  by_cases hgroups : e = geohashGroups ∧ c = geohashes
  · obtain ⟨rfl, rfl⟩ := hgroups
    cases available : s.isAvailable geohashes with
    | false => rw [remove_of_not_isAvailable available, remove_of_not_isAvailable available]
    | true =>
        rw [get?_remove_geohashes_groups (by rw [isAvailable_remove, available]),
          isAvailable_remove, cells_congr hself, get?_remove_geohashes_groups available]
        split <;> rfl
  · have hfollower : e ∉ c.followers := by
      by_cases he : e = geohashGroups
      · rw [he]
        exact geohashGroups_not_mem_followers fun hc => hgroups ⟨he, hc⟩
      · exact not_mem_followers hyear.1 hyear.2 he c
    exact get?_remove_of_ne hc hfollower value

end Standard

end WellShaped

/-- In every session over the standard defaults, removing the same value again changes nothing, and
two removals can be made in either order, unless one of them is about the cells and the other about
their groups. -/
theorem removals_repeat_and_commute {lastYear : Int} {omitted : List Category} {d : Defaults}
    (standard : Defaults.without (.forYear lastYear) omitted = d) (earlier : List Change)
    {s : State} (reached : (State.new d).run earlier = s) :
    (∀ c value, (s.remove c value).remove c value = s.remove c value) ∧
      ∀ c other, ¬ (c = geohashes ∧ other = geohashGroups) →
        ¬ (c = geohashGroups ∧ other = geohashes) → ∀ value otherValue,
          (s.remove c value).remove other otherValue =
            (s.remove other otherValue).remove c value := by
  subst standard
  have hshape : WellShaped (Defaults.without (.forYear lastYear) omitted) s := by
    rw [← reached]
    exact (WellShaped.new (Defaults.fits_without (Defaults.fits_forYear lastYear) omitted)).run
      earlier
  refine ⟨hshape.remove_remove, fun c other apart otherApart => ?_⟩
  exact hshape.remove_comm (fun hc hother => apart ⟨hc, hother⟩)
    fun hother hc => otherApart ⟨hc, hother⟩

/-- Cells and both flags over a range of years, in a deployment without places. -/
def coastalVisit : List Change :=
  [.setGeohashes [.plain "9q", .described "9r" "coast" none], .setYearRange 1990 2000,
    .setFlag .pubYear true, .setFlag .dataYear true, .set .creator (.text "Kibele")]

/-- The flags are removed in either order, and the range goes with the second one. -/
theorem removals_repeat_and_commute_coastalVisit :
    let d := Defaults.without (.forYear 2024) [.spatial]
    let s := (State.new d).run coastalVisit
    ¬ (pubYear = geohashes ∧ dataYear = geohashGroups) ∧
      ¬ (pubYear = geohashGroups ∧ dataYear = geohashes) ∧
      (s.remove pubYear "").number? yearMin = some (Defaults.wholeNumber 1990) ∧
      ((s.remove pubYear "").remove dataYear "").number? yearMin =
        some (Defaults.wholeNumber 1900) ∧
      (s.remove pubYear "").remove dataYear "" = (s.remove dataYear "").remove pubYear "" ∧
      (s.remove geohashes "9r").remove geohashes "9r" = s.remove geohashes "9r" := by
  intro d s
  obtain ⟨hagain, hcomm⟩ := removals_repeat_and_commute (d := d) rfl coastalVisit (s := s) rfl
  exact ⟨by decide, by decide, by decide +kernel, by decide +kernel,
    hcomm pubYear dataYear (by decide) (by decide) "" "", hagain geohashes "9r"⟩

end FacetedSearch
