import FacetedSearch.State.Session

/-!
# What a change does

A change that goes through puts slots in place; which slots, and under which conditions, is said
here once for each change. A setter that puts one slot in place checks everything before, so it
leaves the state alone when it is refused. The years and the members of a document are set one after
another, and those that come before a refused one stay.
-/

namespace FacetedSearch

theorem checkShape_eq_ok {c : Category} {slot : Slot} :
    checkShape c slot = .ok () ↔ c.shape.accepts slot = true := by
  rw [checkShape]
  split <;> simp_all

/-- Lists of values have the same shape, whatever they hold. -/
theorem Shape.accepts_values (shape : Shape) (vs ws : List FilterValue) :
    shape.accepts (.values vs) = shape.accepts (.values ws) := by
  cases shape <;> rfl

theorem Shape.accepts_exclusions (shape : Shape) (es fs : List Exclusion) :
    shape.accepts (.exclusions es) = shape.accepts (.exclusions fs) := by
  cases shape <;> rfl

namespace State

variable {s s' : State} {c : Category}

/-- What every step keeps, steps one after another keep, whether or not one of them is refused. -/
theorem Outcome.andThen_induction {P : State → Prop} {o : Outcome} {next : State → Outcome}
    (first : P o.state) (step : ∀ t, P t → P (next t).state) : P (o.andThen next).state := by
  rw [andThen]
  split
  · exact step o.state first
  · exact first

/-! ## Setters -/

/-- A slot is put in place after both checks: the category is available and takes its shape. -/
theorem set_eq (s : State) (c : Category) (slot : Slot) :
    s.set c slot =
      if s.isAvailable c then
        if c.shape.accepts slot then .done (s.put c slot) else .refused s (.shape c)
      else .refused s (.unavailable c) := by
  unfold set ensureAvailable ensureShape checkShape
  cases s.isAvailable c <;> cases c.shape.accepts slot <;> rfl

theorem set_of_accepts {slot : Slot} (available : s.isAvailable c = true)
    (accepts : c.shape.accepts slot = true) : s.set c slot = .done (s.put c slot) := by
  rw [set_eq, if_pos available, if_pos accepts]

theorem set_of_not_available (unavailable : s.isAvailable c = false) (slot : Slot) :
    s.set c slot = .refused s (.unavailable c) := by
  rw [set_eq, if_neg (by simp [unavailable])]

/-- Setting a slot goes through, or it is refused and changes nothing. -/
theorem set_cases (s : State) (c : Category) (slot : Slot) :
    s.isAvailable c = true ∧ c.shape.accepts slot = true ∧ s.set c slot = .done (s.put c slot) ∨
      ∃ e, s.set c slot = .refused s e := by
  rw [set_eq]
  cases s.isAvailable c with
  | false => exact Or.inr ⟨_, rfl⟩
  | true =>
      cases c.shape.accepts slot with
      | false => exact Or.inr ⟨_, rfl⟩
      | true => exact Or.inl ⟨rfl, rfl, rfl⟩

/-- A value is added to a list without a second check. -/
theorem pushValue_of_values {vs : List FilterValue} (available : s.isAvailable c = true)
    (held : s.get? c = some (.values vs)) (value : FilterValue) :
    s.pushValue c value = .done (s.put c (.values (vs ++ [value]))) := by
  rw [pushValue, ensureAvailable, if_pos available, Outcome.done_andThen, held]

/-- Where there is no list, the value is set as the only one. -/
theorem pushValue_of_other (available : s.isAvailable c = true)
    (other : ∀ vs, s.get? c ≠ some (.values vs)) (value : FilterValue) :
    s.pushValue c value = s.set c (.values [value]) := by
  rw [pushValue, ensureAvailable, if_pos available, Outcome.done_andThen]
  split
  · rename_i vs held
    exact absurd held (other vs)
  · rfl

theorem pushValue_of_not_available (unavailable : s.isAvailable c = false) (value : FilterValue) :
    s.pushValue c value = .refused s (.unavailable c) := by
  rw [pushValue, ensureAvailable, if_neg (by simp [unavailable]), Outcome.refused_andThen]

/-- A value is added to a list, it becomes the only value, or it is refused and nothing changes. -/
theorem pushValue_cases (s : State) (c : Category) (value : FilterValue) :
    (∃ vs, s.isAvailable c = true ∧ s.get? c = some (.values vs) ∧
        s.pushValue c value = .done (s.put c (.values (vs ++ [value])))) ∨
      s.isAvailable c = true ∧ c.shape.accepts (.values [value]) = true ∧
        s.pushValue c value = .done (s.put c (.values [value])) ∨
      ∃ e, s.pushValue c value = .refused s e := by
  cases available : s.isAvailable c with
  | false => exact Or.inr (Or.inr ⟨_, pushValue_of_not_available available value⟩)
  | true =>
      by_cases held : ∃ vs, s.get? c = some (.values vs)
      · obtain ⟨vs, held⟩ := held
        exact Or.inl ⟨vs, rfl, held, pushValue_of_values available held value⟩
      · rw [pushValue_of_other available (not_exists.mp held) value]
        rcases s.set_cases c (.values [value]) with ⟨-, accepts, hset⟩ | refused
        · exact Or.inr (Or.inl ⟨rfl, accepts, hset⟩)
        · exact Or.inr (Or.inr refused)

/-- The cells are set and grouped, or they are refused and nothing changes. -/
theorem setGeohashes_cases (s : State) (values : List FilterValue) :
    s.isAvailable .geohashes = true ∧
        s.setGeohashes values = .done (s.put .geohashes (.values values)).regroup ∨
      ∃ e, s.setGeohashes values = .refused s e := by
  rw [setGeohashes, setValues]
  rcases s.set_cases .geohashes (.values values) with ⟨available, -, hset⟩ | ⟨e, hset⟩
  · rw [hset]
    exact Or.inl ⟨available, rfl⟩
  · rw [hset]
    exact Or.inr ⟨e, rfl⟩

/-- The years are set one after the other, as far as they are available. -/
theorem setYearRange_eq (s : State) (first last : Int) :
    s.setYearRange first last =
      if s.isAvailable .yearMin then
        if s.isAvailable .yearMax then
          .done ((s.put .yearMin (.number (Defaults.wholeNumber first))).put .yearMax
            (.number (Defaults.wholeNumber last)))
        else
          .refused (s.put .yearMin (.number (Defaults.wholeNumber first))) (.unavailable .yearMax)
      else .refused s (.unavailable .yearMin) := by
  rw [setYearRange]
  cases hfirst : s.isAvailable .yearMin with
  | false =>
      rw [set_of_not_available hfirst, Outcome.refused_andThen]
      rfl
  | true =>
      rw [set_of_accepts hfirst rfl, Outcome.done_andThen, if_pos rfl]
      have hput : (s.put .yearMin (.number (Defaults.wholeNumber first))).isAvailable .yearMax =
          s.isAvailable .yearMax := rfl
      cases hlast : s.isAvailable .yearMax with
      | false => exact set_of_not_available (hput.trans hlast) _
      | true => exact set_of_accepts (hput.trans hlast) rfl

/-! ## Removals -/

/-- Removing an item puts a list of the same kind in place, or the default. -/
theorem removeItems_cases (s : State) (c : Category) (value : String) :
    (∃ vs, s.get? c = some (.values vs) ∧
        s.removeItems c value = s.put c (.values (vs.filter fun v => v.text != value))) ∨
      (∃ es, s.get? c = some (.exclusions es) ∧
        s.removeItems c value = s.put c (.exclusions (es.filter fun e => e.value != value))) ∨
      s.removeItems c value = s.reset c := by
  rw [removeItems]
  split
  · rename_i vs hvalues
    exact Or.inl ⟨vs, hvalues, rfl⟩
  · rename_i es hexclusions
    exact Or.inr (Or.inl ⟨es, hexclusions, rfl⟩)
  · exact Or.inr (Or.inr rfl)

/-! ## Documents -/

/-- A member sets a category that the deployment has, but not the groups of the cells. -/
theorem memberCategory?_eq_some {name : String} :
    s.memberCategory? name = some c ↔
      Category.ofName? name = some c ∧ s.isAvailable c = true ∧ c ≠ .geohashGroups := by
  simp [memberCategory?, Option.filter_eq_some_iff]

/-- The slot of a member has a shape that its category takes. -/
theorem accepts_of_ofJson {value : Json} {slot : Slot} (h : Slot.ofJson c value = .ok slot) :
    c.shape.accepts slot = true := by
  rw [Slot.ofJson] at h
  cases hread : Slot.ofValue c value with
  | error e => simp [hread, bind, Except.bind] at h
  | ok read =>
      cases hcheck : checkShape c read with
      | error e => simp [hread, hcheck, bind, Except.bind] at h
      | ok _ =>
          obtain rfl : read = slot := by
            simpa [hread, hcheck, bind, Except.bind, pure, Except.pure] using h
          exact checkShape_eq_ok.mp hcheck

/-- A member of an available category is put in place, unless its value cannot be read. -/
theorem applyMember_of_ok (available : s.isAvailable c = true) {value : Json} {slot : Slot}
    (hread : Slot.ofJson c value = .ok slot) : s.applyMember c value = .done (s.put c slot) := by
  rw [applyMember, hread]
  exact set_of_accepts available (accepts_of_ofJson hread)

section Members

variable {name : String} {value : Json} (touched : Bool) (rest : List (String × Json))

/-- A member that names nothing to be set is skipped. -/
theorem applyMembers_of_none (h : s.memberCategory? name = none) :
    s.applyMembers touched ((name, value) :: rest) = s.applyMembers touched rest := by
  rw [applyMembers, h]

/-- A member that can be read is put in place, and the next ones are applied. -/
theorem applyMembers_of_ok {slot : Slot} (h : s.memberCategory? name = some c)
    (hread : Slot.ofJson c value = .ok slot) :
    s.applyMembers touched ((name, value) :: rest) =
      (s.put c slot).applyMembers (touched || c == .geohashes) rest := by
  obtain ⟨-, available, -⟩ := memberCategory?_eq_some.mp h
  rw [applyMembers, h]
  dsimp only
  rw [applyMember_of_ok available hread, Outcome.done_andThen]

/-- A member that cannot be read ends the loading at the state reached so far. -/
theorem applyMembers_of_error {e : StateError} (h : s.memberCategory? name = some c)
    (hread : Slot.ofJson c value = .error e) :
    s.applyMembers touched ((name, value) :: rest) = .refused s e := by
  rw [applyMembers, h]
  dsimp only
  rw [applyMember, hread]
  rfl

end Members

end State

end FacetedSearch
