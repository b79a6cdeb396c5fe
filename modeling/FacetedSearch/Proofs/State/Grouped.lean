import FacetedSearch.Proofs.State.Change

/-!
# Groups that follow the cells

The groups of geohash cells are derived. A session is in step when its groups are those of its
current cells. It starts in step, and every change that touches the cells groups them anew, so it
stays in step as long as neither the cells nor the groups are set on their own and every document
is loaded to its end. A document that is refused halfway has not grouped the cells it has set: the
session then keeps its old groups, and is in step only if these happen to fit.
-/

namespace FacetedSearch

open Category

namespace State

/-! ## The slots of the map -/

/-- Two states have the same cells and the same groups in their slots. -/
structure SameMap (s t : State) : Prop where
  cells : t.get? geohashes = s.get? geohashes
  groups : t.get? geohashGroups = s.get? geohashGroups

variable {s t : State} {c : Category}

theorem SameMap.refl (s : State) : SameMap s s where
  cells := rfl
  groups := rfl

/-- The cells are read off their slot. -/
theorem cells_congr (h : t.get? geohashes = s.get? geohashes) : t.cells = s.cells := by
  rw [State.cells, State.cells, values, values, h]

/-- The groups are read off their slot. -/
theorem groups_congr (h : t.get? geohashGroups = s.get? geohashGroups) : t.groups = s.groups := by
  rw [State.groups, State.groups, h]

theorem get?_put_of_ne {d : Category} (h : d ≠ c) (slot : Slot) :
    (s.put c slot).get? d = s.get? d := by
  rw [get?_put, if_neg h]

theorem sameMap_put (hcells : c ≠ geohashes) (hgroups : c ≠ geohashGroups) (slot : Slot) :
    SameMap s (s.put c slot) where
  cells := get?_put_of_ne hcells.symm slot
  groups := get?_put_of_ne hgroups.symm slot

theorem isAvailable_congr (h : t.defaults = s.defaults) (c : Category) :
    t.isAvailable c = s.isAvailable c := by
  rw [isAvailable, isAvailable, h]

theorem defaults_reset (s : State) (c : Category) : (s.reset c).defaults = s.defaults := by
  rw [reset]
  split <;> rfl

theorem sameMap_reset (hcells : c ≠ geohashes) (hgroups : c ≠ geohashGroups) :
    SameMap s (s.reset c) := by
  rw [reset]
  split
  · exact sameMap_put hcells hgroups _
  · exact SameMap.refl s

/-- A category with a default has it after going back to it. -/
theorem get?_reset_self (h : s.isAvailable c = true) : (s.reset c).get? c = s.defaults.get? c := by
  rw [isAvailable, Table.contains, Option.isSome_iff_exists] at h
  obtain ⟨slot, hslot⟩ := h
  rw [reset, hslot, get?_put, if_pos rfl]

theorem defaults_removeItems (s : State) (c : Category) (value : String) :
    (s.removeItems c value).defaults = s.defaults := by
  rcases s.removeItems_cases c value with ⟨vs, -, heq⟩ | ⟨es, -, heq⟩ | heq
  · rw [heq, defaults_put]
  · rw [heq, defaults_put]
  · rw [heq, defaults_reset]

theorem get?_reset_of_ne {d : Category} (h : d ≠ c) : (s.reset c).get? d = s.get? d := by
  rw [reset]
  split
  · exact get?_put_of_ne h _
  · rfl

/-! ## Grouping anew -/

theorem defaults_regroup (s : State) : s.regroup.defaults = s.defaults := by
  rw [regroup]
  split <;> rfl

/-- Grouping changes nothing but the groups. -/
theorem get?_regroup_of_ne (h : c ≠ geohashGroups) : s.regroup.get? c = s.get? c := by
  rw [regroup]
  split
  · exact get?_put_of_ne h _
  · rfl

theorem cells_regroup (s : State) : s.regroup.cells = s.cells :=
  cells_congr (get?_regroup_of_ne (by decide))

theorem groups_regroup (h : s.isAvailable geohashGroups = true) :
    s.regroup.groups = Geohash.groupCells s.cells := by
  rw [regroup, if_pos h, State.groups, get?_put, if_pos rfl]

end State

/-- A session over some defaults whose groups are those of its cells. -/
structure InStep (d : Defaults) (s : State) : Prop where
  /-- The session goes back to these defaults. -/
  defaults_eq : s.defaults = d
  /-- The groups are those of the current cells. -/
  groups_eq : s.groups = Geohash.groupCells s.cells

namespace InStep

open State

variable {d : Defaults} {s t : State} {c : Category}

/-! ## Changes of other categories -/

/-- Only the slots of the cells and of the groups matter. -/
theorem of_sameMap (h : InStep d s) (hdefaults : t.defaults = s.defaults) (hmap : SameMap s t) :
    InStep d t where
  defaults_eq := hdefaults.trans h.defaults_eq
  groups_eq := by
    rw [groups_congr hmap.groups, cells_congr hmap.cells]
    exact h.groups_eq

theorem put (h : InStep d s) (hcells : c ≠ geohashes) (hgroups : c ≠ geohashGroups)
    (slot : Slot) : InStep d (s.put c slot) :=
  h.of_sameMap rfl (sameMap_put hcells hgroups slot)

theorem set (h : InStep d s) (hcells : c ≠ geohashes) (hgroups : c ≠ geohashGroups)
    (slot : Slot) : InStep d (s.set c slot).state := by
  rcases s.set_cases c slot with ⟨-, -, hset⟩ | ⟨e, hset⟩
  · rw [hset]
    exact h.put hcells hgroups slot
  · rw [hset]
    exact h

theorem pushValue (h : InStep d s) (hcells : c ≠ geohashes) (hgroups : c ≠ geohashGroups)
    (value : FilterValue) : InStep d (s.pushValue c value).state := by
  rcases s.pushValue_cases c value with ⟨vs, -, -, hpush⟩ | ⟨-, -, hpush⟩ | ⟨e, hpush⟩
  · rw [hpush]
    exact h.put hcells hgroups _
  · rw [hpush]
    exact h.put hcells hgroups _
  · rw [hpush]
    exact h

theorem setYearRange (h : InStep d s) (first last : Int) :
    InStep d (s.setYearRange first last).state :=
  Outcome.andThen_induction (h.set (by decide) (by decide) _) fun _ ht =>
    ht.set (by decide) (by decide) _

theorem reset (h : InStep d s) (hcells : c ≠ geohashes) (hgroups : c ≠ geohashGroups) :
    InStep d (s.reset c) :=
  h.of_sameMap (defaults_reset s c) (sameMap_reset hcells hgroups)

theorem removeItems (h : InStep d s) (hcells : c ≠ geohashes) (hgroups : c ≠ geohashGroups)
    (value : String) : InStep d (s.removeItems c value) := by
  rcases s.removeItems_cases c value with ⟨vs, -, heq⟩ | ⟨es, -, heq⟩ | heq
  · rw [heq]
    exact h.put hcells hgroups _
  · rw [heq]
    exact h.put hcells hgroups _
  · rw [heq]
    exact h.reset hcells hgroups

theorem removeYearFlag (h : InStep d s) {other : Category} (hcells : c ≠ geohashes)
    (hgroups : c ≠ geohashGroups) : InStep d (s.removeYearFlag c other) := by
  have hflag := h.reset hcells hgroups
  unfold State.removeYearFlag
  dsimp only
  split
  · exact hflag
  · exact (hflag.reset (by decide) (by decide)).reset (by decide) (by decide)

/-! ## Changes of the cells -/

/-- Grouping anew brings a session in step, whatever its groups were. -/
theorem regroup (hdefaults : s.defaults = d) (available : d.contains geohashGroups = true) :
    InStep d s.regroup where
  defaults_eq := (defaults_regroup s).trans hdefaults
  groups_eq := by
    rw [cells_regroup, groups_regroup]
    rw [isAvailable, hdefaults]
    exact available

theorem setGeohashes (h : InStep d s) (available : d.contains geohashGroups = true)
    (values : List FilterValue) : InStep d (s.setGeohashes values).state := by
  rcases s.setGeohashes_cases values with ⟨-, hset⟩ | ⟨e, hset⟩
  · rw [hset]
    exact regroup h.defaults_eq available
  · rw [hset]
    exact h

/-- Going back to the cells and the groups of the start is going back in step. -/
theorem resetGeohash (h : InStep d s) (start : InStep d (State.new d))
    (hcells : d.contains geohashes = true) (hgroups : d.contains geohashGroups = true) :
    InStep d s.resetGeohash := by
  have hlevel : ((s.reset geohashes).reset geohashLevel).defaults = d := by
    rw [defaults_reset, defaults_reset, h.defaults_eq]
  refine start.of_sameMap ?_ ⟨?_, ?_⟩
  · rw [State.resetGeohash, defaults_reset, hlevel]
    rfl
  · rw [State.resetGeohash, get?_reset_of_ne (by decide), get?_reset_of_ne (by decide),
      get?_reset_self, h.defaults_eq]
    · rfl
    · rw [isAvailable, h.defaults_eq]
      exact hcells
  · rw [State.resetGeohash, get?_reset_self, hlevel]
    · rfl
    · rw [isAvailable, hlevel]
      exact hgroups

theorem clear (h : InStep d s) (start : InStep d (State.new d)) : InStep d s.clear := by
  refine start.of_sameMap h.defaults_eq ⟨?_, ?_⟩
  · change s.defaults.get? geohashes = d.get? geohashes
    rw [h.defaults_eq]
  · change s.defaults.get? geohashGroups = d.get? geohashGroups
    rw [h.defaults_eq]

/-- A value may be removed from any category but the groups themselves. -/
theorem remove (h : InStep d s) (available : d.contains geohashGroups = true)
    (hgroups : c ≠ geohashGroups) (value : String) : InStep d (s.remove c value) := by
  unfold State.remove
  split
  · split
    · exact h.removeYearFlag (by decide) (by decide)
    · exact h.removeYearFlag (by decide) (by decide)
    · apply regroup _ available
      rw [defaults_removeItems, h.defaults_eq]
    · rename_i hcells
      exact h.removeItems hcells hgroups value
  · exact h

/-- Members that are loaded to the end leave a session in step, once the cells have been set or
when it was in step before. -/
theorem applyMembers {touched : Bool} {members : List (String × Json)}
    (hdefaults : s.defaults = d) (h : touched = false → InStep d s)
    (available : d.contains geohashGroups = true)
    (loaded : (s.applyMembers touched members).error = none) :
    InStep d (s.applyMembers touched members).state := by
  induction members generalizing s touched with
  | nil =>
      rw [State.applyMembers, Outcome.state_done]
      split
      · exact regroup hdefaults available
      · rename_i htouched
        exact h (Bool.eq_false_iff.mpr htouched)
  | cons member rest ih =>
      obtain ⟨name, value⟩ := member
      cases hcategory : s.memberCategory? name with
      | none =>
          rw [applyMembers_of_none touched rest hcategory] at loaded ⊢
          exact ih hdefaults h loaded
      | some c =>
          obtain ⟨-, -, hgroups⟩ := memberCategory?_eq_some.mp hcategory
          cases hread : Slot.ofJson c value with
          | error e =>
              rw [applyMembers_of_error touched rest hcategory hread] at loaded
              cases loaded
          | ok slot =>
              rw [applyMembers_of_ok touched rest hcategory hread] at loaded ⊢
              refine ih hdefaults ?_ loaded
              intro hquiet
              rw [Bool.or_eq_false_iff, beq_eq_false_iff_ne] at hquiet
              exact (h hquiet.1).put hquiet.2 hgroups slot

theorem applyDocument (h : InStep d s) (available : d.contains geohashGroups = true)
    {document : Json} (loaded : (s.applyDocument document).error = none) :
    InStep d (s.applyDocument document).state := by
  unfold State.applyDocument at loaded ⊢
  split at loaded
  · exact applyMembers h.defaults_eq (fun _ => h) available loaded
  · cases loaded

end InStep

/-! ## Runs -/

/-- The change does not set the cells or the groups on their own, removes nothing from the groups,
and is no document that the state refuses. -/
def State.Admits (s : State) : Change → Prop
  | .set c _ | .setValues c _ | .pushValue c _ | .setFlag c _ | .reset c =>
    c ≠ geohashes ∧ c ≠ geohashGroups
  | .remove c _ => c ≠ geohashGroups
  | .applyDocument document => (s.applyDocument document).error = none
  | .setYearRange .. | .setGeohashes _ | .regroup | .resetGeohash | .clear => True

/-- Each change of a run is admitted by the state that it is made in. -/
def State.AdmitsAll (s : State) : List Change → Prop
  | [] => True
  | c :: changes => s.Admits c ∧ (s.change c).state.AdmitsAll changes

namespace InStep

variable {d : Defaults} {s : State}

/-- An admitted change keeps a session in step, even when it is refused. -/
theorem change (h : InStep d s) (start : InStep d (State.new d))
    (hcells : d.contains geohashes = true) (hgroups : d.contains geohashGroups = true)
    {change : Change} (admitted : s.Admits change) : InStep d (s.change change).state := by
  cases change with
  | set c slot => exact h.set admitted.1 admitted.2 slot
  | setValues c values => exact h.set admitted.1 admitted.2 (.values values)
  | pushValue c value => exact h.pushValue admitted.1 admitted.2 value
  | setFlag c on => exact h.set admitted.1 admitted.2 (.flag on)
  | setYearRange first last => exact h.setYearRange first last
  | setGeohashes values => exact h.setGeohashes hgroups values
  | regroup => exact regroup h.defaults_eq hgroups
  | reset c => exact h.reset admitted.1 admitted.2
  | resetGeohash => exact h.resetGeohash start hcells hgroups
  | clear => exact h.clear start
  | remove c value => exact h.remove hgroups admitted value
  | applyDocument document => exact h.applyDocument hgroups admitted

theorem run (h : InStep d s) (start : InStep d (State.new d))
    (hcells : d.contains geohashes = true) (hgroups : d.contains geohashGroups = true)
    {changes : List Change} (admitted : s.AdmitsAll changes) : InStep d (s.run changes) := by
  induction changes generalizing s with
  | nil => exact h
  | cons c changes ih => exact ih (h.change start hcells hgroups admitted.1) admitted.2

end InStep

/-- Categories that are not taken away keep their default. -/
theorem Defaults.get?_without {d : Defaults} {omitted : List Category} {c : Category}
    (h : c ∉ omitted) : (without d omitted).get? c = d.get? c := by
  induction omitted generalizing d with
  | nil => rfl
  | cons other omitted ih =>
      rw [List.mem_cons, not_or] at h
      have herase : (d.erase other).get? c = d.get? c := by
        rw [Table.get?_erase, if_neg h.1]
      rw [← herase]
      exact ih h.2

/-- A session over the standard defaults starts without cells and without groups, whatever other
categories are taken away. -/
theorem InStep.start (lastYear : Int) {omitted : List Category} (hcells : geohashes ∉ omitted)
    (hgroups : geohashGroups ∉ omitted) :
    InStep (Defaults.without (.forYear lastYear) omitted)
      (State.new (Defaults.without (.forYear lastYear) omitted)) where
  defaults_eq := rfl
  groups_eq := by
    have hcells : (State.new (Defaults.without (.forYear lastYear) omitted)).get? geohashes =
        some (.values []) :=
      Defaults.get?_without hcells
    have hgroups : (State.new (Defaults.without (.forYear lastYear) omitted)).get? geohashGroups =
        some (.groups []) :=
      Defaults.get?_without hgroups
    rw [State.groups, State.cells, State.values, hcells, hgroups]
    rfl

/-- Over standard defaults with the cells and their groups, the groups follow the cells through
every run of admitted changes, whether or not the changes go through. -/
theorem groups_follow_cells (lastYear : Int) {omitted : List Category}
    (hcells : geohashes ∉ omitted) (hgroups : geohashGroups ∉ omitted) {changes : List Change}
    (admitted : (State.new (Defaults.without (.forYear lastYear) omitted)).AdmitsAll changes) :
    ((State.new (Defaults.without (.forYear lastYear) omitted)).run changes).groups =
      Geohash.groupCells
        ((State.new (Defaults.without (.forYear lastYear) omitted)).run changes).cells := by
  have available : ∀ c ∉ omitted,
      (Defaults.without (.forYear lastYear) omitted).contains c = true := by
    intro c hc
    rw [Table.contains, Defaults.get?_without hc]
    rfl
  have start := InStep.start lastYear hcells hgroups
  exact (start.run start (available _ hcells) (available _ hgroups) admitted).groups_eq

/-- Cells come in by a document under their other name and one of them is removed again, between a
year that is refused and a term that is added. -/
def mapVisit : List Change :=
  [.setGeohashes [.plain "9q"], .setFlag .yearMax true,
    .applyDocument (.object [("geohash", .array [.string "9r", .string "9x"])]),
    .remove .geohashes "9r", .pushValue .fullText (.plain "salmon")]

theorem groups_follow_cells_mapVisit :
    geohashes ∉ [Category.spatial] ∧ geohashGroups ∉ [Category.spatial] ∧
      (State.new (Defaults.without (.forYear 2024) [.spatial])).AdmitsAll mapVisit ∧
      ((State.new (Defaults.without (.forYear 2024) [.spatial])).run mapVisit).groups =
        [{ level := 2, complete := false, cells := ["9x"] }] := by
  have admitted :
      (State.new (Defaults.without (.forYear 2024) [.spatial])).AdmitsAll mapVisit := by
    refine ⟨trivial, ⟨by decide, by decide⟩, ?_, ?_, ⟨by decide, by decide⟩, trivial⟩
    · change State.Outcome.error _ = none
      decide +kernel
    · exact (by decide : geohashes ≠ geohashGroups)
  refine ⟨by decide, by decide, admitted, ?_⟩
  rw [groups_follow_cells 2024 (by decide) (by decide) admitted]
  decide +kernel

/-! ## Refused documents -/

namespace State

/-- The value of a member is no slot of the category that the member sets. -/
def refuses (s : State) (member : String × Json) : Bool :=
  (s.memberCategory? member.1).any fun c => !(Slot.ofJson c member.2).isOk

/-- The members of a document in front of the first one that is refused. -/
def appliedMembers (s : State) : Json → List (String × Json)
  | .object members => (Json.sortedMembers members).takeWhile (!s.refuses ·)
  | _ => []

variable {s t : State}

theorem refuses_congr (h : t.defaults = s.defaults) : t.refuses = s.refuses := by
  funext member
  rw [refuses, refuses, memberCategory?, memberCategory?, funext (isAvailable_congr h)]

/-- Members up to one that is refused leave the groups alone, and the cells as well when none of
them sets the cells. -/
theorem applyMembers_of_refused {touched : Bool} {members : List (String × Json)} {e : StateError}
    (refused : (s.applyMembers touched members).error = some e) :
    (s.applyMembers touched members).state.get? geohashGroups = s.get? geohashGroups ∧
      ((∀ m ∈ members.takeWhile (!s.refuses ·), s.memberCategory? m.1 ≠ some geohashes) →
        (s.applyMembers touched members).state.get? geohashes = s.get? geohashes) := by
  induction members generalizing s touched with
  | nil => cases refused
  | cons member rest ih =>
      obtain ⟨name, value⟩ := member
      cases hcategory : s.memberCategory? name with
      | none =>
          rw [applyMembers_of_none touched rest hcategory] at refused ⊢
          have happlied : s.refuses (name, value) = false := by
            simp [refuses, hcategory]
          refine ⟨(ih refused).1, ?_⟩
          intro hquiet
          rw [List.takeWhile_cons_of_pos (by simp [happlied]), List.forall_mem_cons] at hquiet
          exact (ih refused).2 hquiet.2
      | some c =>
          obtain ⟨-, -, hgroups⟩ := memberCategory?_eq_some.mp hcategory
          cases hread : Slot.ofJson c value with
          | error e =>
              rw [applyMembers_of_error touched rest hcategory hread]
              exact ⟨rfl, fun _ => rfl⟩
          | ok slot =>
              rw [applyMembers_of_ok touched rest hcategory hread] at refused ⊢
              have happlied : s.refuses (name, value) = false := by
                simp [refuses, hcategory, hread, Except.isOk, Except.toBool]
              obtain ⟨hsame, hcells⟩ := ih refused
              rw [hsame, get?_put_of_ne hgroups.symm]
              refine ⟨rfl, ?_⟩
              intro hquiet
              rw [List.takeWhile_cons_of_pos (by simp [happlied]), List.forall_mem_cons] at hquiet
              have hc : c ≠ geohashes := fun h => hquiet.1 (h ▸ hcategory)
              rw [hcells, get?_put_of_ne hc.symm]
              rw [refuses_congr (defaults_put s c slot)]
              exact hquiet.2

/-- A refused document never touches the groups, nor the cells unless one of the members in front
of the refused one sets them. -/
theorem applyDocument_of_refused {document : Json} {e : StateError}
    (refused : (s.applyDocument document).error = some e) :
    (s.applyDocument document).state.groups = s.groups ∧
      ((∀ m ∈ s.appliedMembers document, s.memberCategory? m.1 ≠ some geohashes) →
        (s.applyDocument document).state.cells = s.cells) := by
  unfold applyDocument at refused ⊢
  split at refused
  · obtain ⟨hgroups, hcells⟩ := applyMembers_of_refused refused
    exact ⟨groups_congr hgroups, fun hquiet => cells_congr (hcells hquiet)⟩
  · exact ⟨rfl, fun _ => rfl⟩

end State

/-- A refused document leaves cells and groups in agreement exactly when the cells it leaves have
the groups of the cells it found. That is so when no member in front of the refused one sets the
cells. -/
theorem groups_follow_cells_of_refused {s : State} {document : Json} {e : StateError}
    (grouped : s.groups = Geohash.groupCells s.cells)
    (refused : (s.applyDocument document).error = some e) :
    ((s.applyDocument document).state.groups =
          Geohash.groupCells (s.applyDocument document).state.cells ↔
        Geohash.groupCells (s.applyDocument document).state.cells =
          Geohash.groupCells s.cells) ∧
      ((∀ m ∈ s.appliedMembers document, s.memberCategory? m.1 ≠ some geohashes) →
        (s.applyDocument document).state.groups =
          Geohash.groupCells (s.applyDocument document).state.cells) := by
  obtain ⟨hgroups, hcells⟩ := State.applyDocument_of_refused refused
  rw [hgroups, grouped]
  refine ⟨eq_comm, ?_⟩
  intro hquiet
  rw [hcells hquiet]

/-- Text is set by the document and its flag is refused before its cells are reached. -/
def refusedBeforeCells : Json :=
  .object [("geohashes", .array [.string "9r"]), ("all", .array [.string "salmon"]),
    ("dataYear", .string "2020")]

theorem groups_follow_cells_of_refusedBeforeCells :
    let s := ((State.new (.forYear 2024)).put geohashes (.values [.plain "9q"])).regroup
    s.groups = Geohash.groupCells s.cells ∧
      (s.applyDocument refusedBeforeCells).error = some (.shape .dataYear) ∧
      (s.appliedMembers refusedBeforeCells).map (·.1) = ["all"] ∧
      (s.applyDocument refusedBeforeCells).state.groups =
        Geohash.groupCells (s.applyDocument refusedBeforeCells).state.cells := by
  intro s
  have grouped : s.groups = Geohash.groupCells s.cells := by
    decide +kernel
  have refused : (s.applyDocument refusedBeforeCells).error = some (.shape .dataYear) := by
    decide +kernel
  have happlied : (s.appliedMembers refusedBeforeCells).map (·.1) = ["all"] := by
    decide +kernel
  refine ⟨grouped, refused, happlied, (groups_follow_cells_of_refused grouped refused).2 ?_⟩
  intro m hm
  have hname : m.1 ∈ (s.appliedMembers refusedBeforeCells).map (·.1) := List.mem_map_of_mem hm
  rw [happlied, List.mem_singleton] at hname
  rw [hname]
  decide +kernel

/-- A document may set the cells and be refused afterwards, and then the groups are not those of
the cells any more. -/
theorem refused_document_leaves_old_groups :
    ¬ ∀ (s : State) (document : Json) (e : StateError), s.isAvailable geohashes = true →
        s.isAvailable geohashGroups = true → s.groups = Geohash.groupCells s.cells →
        (s.applyDocument document).error = some e →
        (s.applyDocument document).state.groups =
          Geohash.groupCells (s.applyDocument document).state.cells := by
  intro h
  have hsame := h (State.new (.forYear 2024))
    (.object [("geohashes", .array [.string "9q"]), ("pubYear", .number (.whole 3))])
    (.shape .pubYear) rfl rfl rfl (by decide +kernel)
  revert hsame
  decide +kernel

end FacetedSearch
