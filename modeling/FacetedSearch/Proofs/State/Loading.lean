import FacetedSearch.Proofs.State.Saved

/-!
# Documents loaded one after another

Loading a document lays it over the session: a category that the document sets has the slot of its
last member with this name, and every other category keeps its slot. The cells are grouped once, at
the end, and only when the document sets them. So documents that load can be put together first, the
later one overriding the earlier one name by name, and a document is loaded twice in vain.

The cells have a second name in documents. A document that uses it may set them by a name that comes
before the first one, so the second name is left out where documents are put together. What is
skipped in a document can be left out of it, with any names and even when the document is refused.
-/

namespace FacetedSearch

open Category

/-! ## Members -/

namespace Json

variable {name : String} {members front back : List (String × Json)}

/-- The last member of a name counts. -/
theorem member?_append :
    member? name (front ++ back) = (member? name back).or (member? name front) := by
  induction front with
  | nil => rw [List.nil_append, member?, Option.or_none]
  | cons m front ih =>
      obtain ⟨n, value⟩ := m
      rw [List.cons_append, member?, member?, ih]
      cases member? name back <;> cases member? name front <;> rfl

theorem member?_sortedMembers : member? name (sortedMembers members) = member? name members := by
  cases hvalue : member? name members with
  | some value =>
      have hmem := mem_sortedMembers.mpr hvalue
      obtain ⟨other, hother⟩ := exists_member?_eq_some (List.mem_map_of_mem (f := (·.1)) hmem)
      have hsame := mem_sortedMembers.mp (mem_of_member?_eq_some hother)
      rw [hother, ← hsame, hvalue]
  | none =>
      rw [Option.eq_none_iff_forall_ne_some]
      intro value hmember
      have hmem := mem_sortedMembers.mp (mem_of_member?_eq_some hmember)
      rw [hvalue] at hmem
      cases hmem

/-- Leaving out other names changes nothing about a name. -/
theorem member?_filter {keeps : String → Bool} (h : keeps name = true) :
    member? name (members.filter (keeps ·.1)) = member? name members := by
  induction members with
  | nil => rfl
  | cons m rest ih =>
      obtain ⟨n, value⟩ := m
      rw [List.filter_cons, member?]
      split
      · rw [member?, ih]
      · rename_i hleft
        have hname : n ≠ name := by
          rintro rfl
          exact hleft h
        rw [ih, if_neg hname]
        cases member? name rest <;> rfl

theorem sortedMembers_filter {keeps : String → Bool} :
    sortedMembers (members.filter (keeps ·.1)) = (sortedMembers members).filter (keeps ·.1) := by
  have hnames : (members.filter (keeps ·.1)).map (·.1) = (members.map (·.1)).filter keeps :=
    List.filter_map.symm
  rw [sortedMembers, hnames, sortedSet_filter, List.filterMap_filter, sortedMembers,
    List.filter_filterMap]
  apply List.filterMap_congr
  intro name _
  cases hkept : keeps name with
  | true =>
      rw [if_pos rfl, member?_filter hkept]
      cases member? name members <;> simp [Option.filter, hkept]
  | false => cases member? name members <;> simp [Option.filter, hkept]

/-- A document is the first one overridden by the second one, name by name. -/
def Overrides (both first second : List (String × Json)) : Prop :=
  ∀ name, member? name both = (member? name second).or (member? name first)

theorem overrides_append (first second : List (String × Json)) :
    Overrides (first ++ second) first second :=
  fun _ => member?_append

/-- A document overrides itself in vain. -/
theorem Overrides.self : Overrides members members members :=
  fun _ => (Option.or_self).symm

/-- Its names are those of the two documents. -/
theorem Overrides.not_mem_names {both first second : List (String × Json)}
    (h : Overrides both first second) (hfirst : name ∉ first.map (·.1))
    (hsecond : name ∉ second.map (·.1)) : name ∉ both.map (·.1) := by
  intro hname
  obtain ⟨value, hvalue⟩ := exists_member?_eq_some hname
  rw [h name, Option.or_eq_some_iff] at hvalue
  rcases hvalue with hlater | ⟨-, hearlier⟩
  · exact hsecond (List.mem_map_of_mem (f := (·.1)) (mem_of_member?_eq_some hlater))
  · exact hfirst (List.mem_map_of_mem (f := (·.1)) (mem_of_member?_eq_some hearlier))

end Json

/-! ## Laying a document over a session -/

namespace State

variable {s t : State} {c : Category} {members : List (String × Json)}

/-- The name is skipped in a document: it is no category, none that the deployment has, or the
groups of the cells. -/
def skips (s : State) (name : String) : Bool :=
  match ofName? name with
  | some c => !s.isAvailable c || c == geohashGroups
  | none => true

theorem skips_iff {name : String} : s.skips name = true ↔ s.memberCategory? name = none := by
  unfold skips memberCategory?
  cases ofName? name with
  | none => simp
  | some c => cases havailable : s.isAvailable c <;> simp [havailable]

theorem skips_congr (h : t.defaults = s.defaults) : t.skips = s.skips := by
  funext name
  simp only [skips, isAvailable_congr h]

theorem skips_geohashGroups (s : State) : s.skips geohashGroups.name = true := by
  simp [skips]

/-- A category has the name of the member that sets it, unless that is the second name of the
cells. -/
theorem eq_name_of_memberCategory? {name : String} (h : s.memberCategory? name = some c)
    (halias : name ≠ geohashAlias) : name = c.name := by
  obtain ⟨hname, -, -⟩ := memberCategory?_eq_some.mp h
  rw [ofName?, if_neg halias] at hname
  have hfound : c.name = name := by simpa using List.find?_some hname
  exact hfound.symm

/-- The slot that a document has for a category. -/
def memberSlot? (s : State) (members : List (String × Json)) (c : Category) : Option Slot :=
  if s.skips c.name then none
  else (Json.member? c.name members).bind fun value => (Slot.ofJson c value).toOption

theorem memberSlot?_congr (h : t.defaults = s.defaults) : t.memberSlot? = s.memberSlot? := by
  funext members c
  rw [memberSlot?, memberSlot?, skips_congr h]

/-- A document never has groups. -/
theorem memberSlot?_geohashGroups (s : State) (members : List (String × Json)) :
    s.memberSlot? members geohashGroups = none :=
  if_pos s.skips_geohashGroups

/-- A member of a category is applied when its value can be read as a slot. -/
theorem not_refuses_iff {name : String} {value : Json} (h : s.memberCategory? name = some c) :
    s.refuses (name, value) = false ↔ ∃ slot, Slot.ofJson c value = .ok slot := by
  cases hread : Slot.ofJson c value <;> simp [refuses, h, hread, Except.isOk, Except.toBool]

/-- No member that counts is refused. -/
def Accepts (s : State) (members : List (String × Json)) : Prop :=
  ∀ name value, Json.member? name members = some value → s.refuses (name, value) = false

/-- The value that an accepted document has for a category can be read. -/
theorem Accepts.exists_slot {value : Json} (h : s.Accepts members) (hkept : s.skips c.name = false)
    (hvalue : Json.member? c.name members = some value) :
    ∃ slot, Slot.ofJson c value = .ok slot := by
  cases hcategory : s.memberCategory? c.name with
  | none =>
      rw [skips_iff.mpr hcategory] at hkept
      cases hkept
  | some other =>
      obtain ⟨hname, -, -⟩ := memberCategory?_eq_some.mp hcategory
      rw [ofName?_name] at hname
      obtain rfl := Option.some.inj hname
      exact (not_refuses_iff hcategory).mp (h _ _ hvalue)

/-- An accepted document that overrides another one has the slots that count. -/
theorem memberSlot?_of_overrides {both first second : List (String × Json)}
    (h : Json.Overrides both first second) (accepted : s.Accepts second) :
    s.memberSlot? both c = (s.memberSlot? second c).or (s.memberSlot? first c) := by
  simp only [memberSlot?, h c.name]
  cases hkept : s.skips c.name with
  | true => rfl
  | false =>
      cases hvalue : Json.member? c.name second with
      | none => rfl
      | some value =>
          obtain ⟨slot, hslot⟩ := accepted.exists_slot hkept hvalue
          simp [hslot, Except.toOption]

/-- The session with the slots of a document in place of its own. -/
def overlay (s : State) (members : List (String × Json)) : State where
  defaults := s.defaults
  slots := { get? := fun c => (s.memberSlot? members c).or (s.get? c) }

theorem get?_overlay : (s.overlay members).get? c = (s.memberSlot? members c).or (s.get? c) := rfl

theorem defaults_overlay : (s.overlay members).defaults = s.defaults := rfl

theorem overlay_of_none (h : ∀ c, s.memberSlot? members c = none) : s.overlay members = s := by
  refine ext_get? rfl ?_
  intro c
  rw [get?_overlay, h, Option.none_or]

theorem overlay_of_overrides {both first second : List (String × Json)}
    (h : Json.Overrides both first second) (accepted : s.Accepts second) :
    (s.overlay first).overlay second = s.overlay both := by
  refine ext_get? rfl ?_
  intro c
  rw [get?_overlay, get?_overlay, get?_overlay, memberSlot?_congr (defaults_overlay (s := s)),
    memberSlot?_of_overrides h accepted, Option.or_assoc]

/-- A slot that the document does not have may be put in place before or after it. -/
theorem overlay_put {slot : Slot} (h : s.memberSlot? members c = none) :
    (s.put c slot).overlay members = (s.overlay members).put c slot := by
  refine ext_get? rfl ?_
  intro d
  rw [get?_overlay, memberSlot?_congr (defaults_put s c slot), get?_put, get?_put, get?_overlay]
  split
  · rename_i hd
    rw [hd, h, Option.none_or]
  · rfl

/-- A document without cells may be laid over a session before or after grouping. -/
theorem overlay_regroup (h : s.memberSlot? members geohashes = none) :
    s.regroup.overlay members = (s.overlay members).regroup := by
  have hcells : (s.overlay members).cells = s.cells := by
    apply cells_congr
    rw [get?_overlay, h, Option.none_or]
  rw [regroup, regroup, hcells, isAvailable_congr (defaults_overlay (s := s))]
  split
  · exact overlay_put (memberSlot?_geohashGroups s members)
  · rfl

/-- Groups that are found before grouping do not matter. -/
theorem regroup_put_groups {slot : Slot} (available : s.isAvailable geohashGroups = true) :
    (s.put geohashGroups slot).regroup = s.regroup := by
  have hcells : (s.put geohashGroups slot).cells = s.cells :=
    cells_congr (get?_put_of_ne (by decide) slot)
  rw [regroup, regroup, hcells, isAvailable_congr (defaults_put s geohashGroups slot),
    if_pos available, if_pos available]
  refine ext_get? rfl ?_
  intro c
  rw [get?_put, get?_put, get?_put]
  split <;> rfl

/-- Grouping in front of a document is in vain when the cells are grouped after it. -/
theorem regroup_overlay_regroup :
    (s.regroup.overlay members).regroup = (s.overlay members).regroup := by
  cases available : s.isAvailable geohashGroups with
  | true =>
      have hgroups : s.regroup = s.put geohashGroups (.groups (Geohash.groupCells s.cells)) :=
        if_pos available
      rw [hgroups, overlay_put (memberSlot?_geohashGroups s members)]
      exact regroup_put_groups available
  | false =>
      have hsame : s.regroup = s := by
        rw [regroup, available]
        rfl
      rw [hsame]

/-! ## Loading a document -/

/-- The session that a document leaves. The cells are grouped when the document has them. -/
def load (s : State) (members : List (String × Json)) : State :=
  if (s.memberSlot? members geohashes).isSome then (s.overlay members).regroup
  else s.overlay members

theorem defaults_load : (s.load members).defaults = s.defaults := by
  rw [load]
  split
  · exact defaults_regroup _
  · rfl

/-- Documents are loaded one after another as one document. -/
theorem load_load {both first second : List (String × Json)}
    (h : Json.Overrides both first second) (accepted : s.Accepts second) :
    (s.load first).load second = s.load both := by
  have hboth := overlay_of_overrides h accepted
  have hcells := memberSlot?_of_overrides (c := geohashes) h accepted
  rw [load, memberSlot?_congr defaults_load, load, load, hcells, ← hboth]
  cases hsecond : s.memberSlot? second geohashes with
  | some slot =>
      rw [Option.some_or, Option.isSome_some, if_pos rfl, if_pos rfl]
      split
      · exact regroup_overlay_regroup
      · rfl
  | none =>
      rw [Option.none_or, Option.isSome_none, if_neg Bool.false_ne_true]
      split
      · apply overlay_regroup
        rw [memberSlot?_congr (defaults_overlay (s := s)), hsecond]
      · rfl

/-- Members are loaded to the end unless one of them is refused. -/
theorem applyMembers_error {touched : Bool} :
    (s.applyMembers touched members).error = none ↔ ∀ m ∈ members, s.refuses m = false := by
  induction members generalizing s touched with
  | nil => simp [applyMembers]
  | cons m rest ih =>
      obtain ⟨name, value⟩ := m
      rw [List.forall_mem_cons]
      cases hcategory : s.memberCategory? name with
      | none =>
          have happlied : s.refuses (name, value) = false := by
            rw [refuses, hcategory]
            rfl
          rw [applyMembers_of_none touched rest hcategory]
          simpa only [happlied, true_and] using ih
      | some c =>
          rw [not_refuses_iff hcategory]
          cases hread : Slot.ofJson c value with
          | error e => simp [applyMembers_of_error touched rest hcategory hread]
          | ok slot =>
              rw [applyMembers_of_ok touched rest hcategory hread, ih,
                refuses_congr (defaults_put s c slot)]
              simp

theorem applyDocument_error :
    (s.applyDocument (.object members)).error = none ↔ s.Accepts members := by
  rw [applyDocument, applyMembers_error]
  constructor
  · intro h name value hvalue
    exact h _ (Json.mem_sortedMembers.mpr hvalue)
  · rintro h ⟨name, value⟩ hm
    exact h _ _ (Json.mem_sortedMembers.mp hm)

/-- A member that is skipped has no slot for any category. -/
theorem memberSlot?_skipped {name : String} (h : s.skips name = true) (value : Json)
    (d : Category) : s.memberSlot? [(name, value)] d = none := by
  rw [memberSlot?]
  split
  · rfl
  · rename_i hkept
    have hname : name ≠ d.name := by
      rintro rfl
      exact hkept h
    simp [Json.member?, hname]

/-- A member that is applied has a slot for its category. -/
theorem memberSlot?_applied {value : Json} {slot : Slot} (h : s.memberCategory? c.name = some c)
    (hread : Slot.ofJson c value = .ok slot) (d : Category) :
    s.memberSlot? [(c.name, value)] d = if d = c then some slot else none := by
  have hkept : s.skips c.name = false := by
    rw [Bool.eq_false_iff, Ne, skips_iff, h]
    nofun
  split
  · rename_i hd
    simp [memberSlot?, hd, hkept, Json.member?, hread, Except.toOption]
  · rename_i hd
    simp [memberSlot?, Json.member?, name_inj, Ne.symm hd]

/-- Members that are loaded to the end are laid over the session, and the cells are grouped once, at
the end, if they have been set. -/
theorem applyMembers_eq {touched : Bool} (halias : geohashAlias ∉ members.map (·.1))
    (loaded : ∀ m ∈ members, s.refuses m = false) :
    s.applyMembers touched members =
      .done (if touched || (s.memberSlot? members geohashes).isSome
        then (s.overlay members).regroup else s.overlay members) := by
  induction members generalizing s touched with
  | nil =>
      have hslot : ∀ d, s.memberSlot? [] d = none := by simp [memberSlot?, Json.member?]
      rw [applyMembers, overlay_of_none hslot, hslot, Option.isSome_none, Bool.or_false]
  | cons m rest ih =>
      obtain ⟨name, value⟩ := m
      rw [List.map_cons, List.mem_cons, not_or] at halias
      obtain ⟨hm, hrest⟩ := List.forall_mem_cons.mp loaded
      have accepted : s.Accepts rest := fun _ _ hvalue =>
        hrest _ (Json.mem_of_member?_eq_some hvalue)
      have hover := Json.overrides_append [(name, value)] rest
      have hslots := memberSlot?_of_overrides (c := geohashes) hover accepted
      have hoverlay := overlay_of_overrides hover accepted
      rw [List.singleton_append] at hslots hoverlay
      rw [hslots, ← hoverlay]
      cases hcategory : s.memberCategory? name with
      | none =>
          have hskipped := memberSlot?_skipped (skips_iff.mpr hcategory) value
          rw [applyMembers_of_none touched rest hcategory, overlay_of_none hskipped, hskipped,
            Option.or_none]
          exact ih halias.2 hrest
      | some c =>
          obtain rfl := eq_name_of_memberCategory? hcategory (Ne.symm halias.1)
          obtain ⟨slot, hread⟩ := (not_refuses_iff hcategory).mp hm
          have happlied := memberSlot?_applied hcategory hread
          have hput : s.overlay [(c.name, value)] = s.put c slot := by
            refine ext_get? rfl ?_
            intro d
            rw [get?_overlay, happlied, get?_put]
            split <;> rfl
          have hloaded : ∀ m ∈ rest, (s.put c slot).refuses m = false := by
            rwa [refuses_congr (defaults_put s c slot)]
          have hcells : (if geohashes = c then some slot else none).isSome = (c == geohashes) := by
            by_cases hc : geohashes = c
            · rw [if_pos hc, hc, beq_self_eq_true]
              rfl
            · rw [if_neg hc, beq_false_of_ne (Ne.symm hc)]
              rfl
          rw [applyMembers_of_ok touched rest hcategory hread, ih halias.2 hloaded,
            memberSlot?_congr (defaults_put s c slot), happlied, hput, Option.isSome_or, hcells,
            Bool.or_assoc, Bool.or_comm (c == geohashes)]

theorem memberSlot?_sortedMembers :
    s.memberSlot? (Json.sortedMembers members) = s.memberSlot? members := by
  funext c
  rw [memberSlot?, memberSlot?, Json.member?_sortedMembers]

/-- A document that loads is laid over the session. -/
theorem applyDocument_eq (halias : geohashAlias ∉ members.map (·.1))
    (loaded : (s.applyDocument (.object members)).error = none) :
    s.applyDocument (.object members) = .done (s.load members) := by
  have hsorted : geohashAlias ∉ (Json.sortedMembers members).map (·.1) := by
    intro hname
    obtain ⟨value, hvalue⟩ := Json.exists_member?_eq_some hname
    rw [Json.member?_sortedMembers] at hvalue
    exact halias (List.mem_map_of_mem (f := (·.1)) (Json.mem_of_member?_eq_some hvalue))
  have hoverlay : s.overlay (Json.sortedMembers members) = s.overlay members := by
    rw [overlay, overlay, memberSlot?_sortedMembers]
  rw [applyDocument, applyMembers_eq hsorted (applyMembers_error.mp loaded), hoverlay,
    memberSlot?_sortedMembers, Bool.false_or, load]

/-- What is skipped may be left out. -/
theorem applyMembers_filter {touched : Bool} {keeps : String → Bool}
    (h : ∀ name, keeps name = false → s.skips name = true) :
    s.applyMembers touched (members.filter (keeps ·.1)) = s.applyMembers touched members := by
  induction members generalizing s touched with
  | nil => rfl
  | cons m rest ih =>
      obtain ⟨name, value⟩ := m
      cases hkept : keeps name with
      | false =>
          rw [List.filter_cons_of_neg (by simp [hkept]),
            applyMembers_of_none touched rest (skips_iff.mp (h name hkept))]
          exact ih h
      | true =>
          rw [List.filter_cons_of_pos (by exact hkept)]
          cases hcategory : s.memberCategory? name with
          | none =>
              rw [applyMembers_of_none touched _ hcategory,
                applyMembers_of_none touched _ hcategory]
              exact ih h
          | some c =>
              cases hread : Slot.ofJson c value with
              | error e =>
                  rw [applyMembers_of_error touched _ hcategory hread,
                    applyMembers_of_error touched _ hcategory hread]
              | ok slot =>
                  rw [applyMembers_of_ok touched _ hcategory hread,
                    applyMembers_of_ok touched _ hcategory hread]
                  refine ih (s := s.put c slot) ?_
                  rwa [skips_congr (defaults_put s c slot)]

theorem accepts_of_overrides {both first second : List (String × Json)}
    (h : Json.Overrides both first second) (hfirst : s.Accepts first) (hsecond : s.Accepts second) :
    s.Accepts both := by
  intro name value hvalue
  rw [h name, Option.or_eq_some_iff] at hvalue
  rcases hvalue with hlater | ⟨-, hearlier⟩
  · exact hsecond name value hlater
  · exact hfirst name value hearlier

end State

/-- Two documents that load leave what the first one overridden by the second one leaves, which
loads as well. A document that loads is loaded twice in vain. What is skipped may be left out of any
document. -/
theorem documents_override (s : State) :
    (∀ first second both : List (String × Json), geohashAlias ∉ first.map (·.1) →
        geohashAlias ∉ second.map (·.1) → Json.Overrides both first second →
        (s.applyDocument (.object first)).error = none →
        (s.applyDocument (.object second)).error = none →
        (s.applyDocument (.object first)).state.applyDocument (.object second) =
            s.applyDocument (.object both) ∧
          (s.applyDocument (.object both)).error = none) ∧
      (∀ members : List (String × Json), geohashAlias ∉ members.map (·.1) →
        (s.applyDocument (.object members)).error = none →
        (s.applyDocument (.object members)).state.applyDocument (.object members) =
          s.applyDocument (.object members)) ∧
      ∀ (members : List (String × Json)) (keeps : String → Bool),
        (∀ name, keeps name = false → s.skips name = true) →
        s.applyDocument (.object (members.filter (keeps ·.1))) =
          s.applyDocument (.object members) := by
  have compose : ∀ first second both : List (String × Json), geohashAlias ∉ first.map (·.1) →
      geohashAlias ∉ second.map (·.1) → Json.Overrides both first second →
      (s.applyDocument (.object first)).error = none →
      (s.applyDocument (.object second)).error = none →
      (s.applyDocument (.object first)).state.applyDocument (.object second) =
          s.applyDocument (.object both) ∧
        (s.applyDocument (.object both)).error = none := by
    intro first second both hfirst hsecond hover loadedFirst loadedSecond
    have acceptedFirst := State.applyDocument_error.mp loadedFirst
    have acceptedSecond := State.applyDocument_error.mp loadedSecond
    have loadedBoth : (s.applyDocument (.object both)).error = none :=
      State.applyDocument_error.mpr (State.accepts_of_overrides hover acceptedFirst acceptedSecond)
    have loadedAfter : ((s.load first).applyDocument (.object second)).error = none := by
      rw [State.applyDocument_error, State.Accepts, State.refuses_congr State.defaults_load]
      exact acceptedSecond
    refine ⟨?_, loadedBoth⟩
    rw [State.applyDocument_eq hfirst loadedFirst, State.Outcome.state_done,
      State.applyDocument_eq hsecond loadedAfter,
      State.applyDocument_eq (hover.not_mem_names hfirst hsecond) loadedBoth,
      State.load_load hover acceptedSecond]
  refine ⟨compose, ?_, ?_⟩
  · intro members halias loaded
    exact (compose members members members halias halias Json.Overrides.self loaded loaded).1
  · intro members keeps h
    rw [State.applyDocument, Json.sortedMembers_filter]
    exact State.applyMembers_filter h

/-- Two cells and a term, beside a name that no category has. -/
def firstVisit : List (String × Json) :=
  [("geohashes", .array [.string "9r", .string "9x"]), ("pages", .number (.whole 3)),
    ("all", .array [.string "salmon"])]

/-- Other cells, and groups that are skipped. -/
def secondVisit : List (String × Json) :=
  [("geohashes", .array [.string "9q"]), ("geohashGroups", .string "none")]

theorem documents_override_visits :
    let s := (State.new (.forYear 2024)).put geohashes (.values [.plain "dr"])
    let loaded := (s.applyDocument (.object firstVisit)).state.applyDocument (.object secondVisit)
    s.groups = [] ∧ loaded = s.applyDocument (.object (firstVisit ++ secondVisit)) ∧
      (s.applyDocument (.object firstVisit)).state.applyDocument (.object firstVisit) =
        s.applyDocument (.object firstVisit) ∧
      s.applyDocument (.object (firstVisit.filter fun m => m.1 != "pages")) =
        s.applyDocument (.object firstVisit) ∧
      loaded.error = none ∧ loaded.state.values fullText = [.plain "salmon"] ∧
      loaded.state.groups = [{ level := 2, complete := false, cells := ["9q"] }] := by
  intro s loaded
  have loadedFirst : (s.applyDocument (.object firstVisit)).error = none := by
    decide +kernel
  have loadedSecond : (s.applyDocument (.object secondVisit)).error = none := by
    decide +kernel
  have hskips : ∀ name : String, (name != "pages") = false → s.skips name = true := by
    intro name hname
    obtain rfl : name = "pages" := by simpa using hname
    decide +kernel
  obtain ⟨compose, again, leave⟩ := documents_override s
  obtain ⟨hboth, loadedBoth⟩ := compose firstVisit secondVisit _ (by decide) (by decide)
    (Json.overrides_append _ _) loadedFirst loadedSecond
  refine ⟨by decide +kernel, hboth, again firstVisit (by decide) loadedFirst,
    leave firstVisit (· != "pages") hskips, ?_⟩
  change loaded = _ at hboth
  rw [hboth]
  exact ⟨loadedBoth, by decide +kernel, by decide +kernel⟩

end FacetedSearch
