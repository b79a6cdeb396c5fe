import FacetedSearch.Command.Basic
import FacetedSearch.Proofs.Config.File
import Mathlib.Data.List.TakeWhile

/-!
# Switches

Where no option takes a value and there is no operand, nothing is ever pending, and an option
without a letter is given exactly when its long name is one of the arguments. So whether `init` may
overwrite a file, and whether it writes in the home directory, can be read off the arguments.
-/

namespace FacetedSearch.Command

open Config (bind_eq_ok)

/-! ## Long names -/

/-- An option, written with its long name. -/
def longText (name : String) : String :=
  "--" ++ name

theorem toList_longText (name : String) : (longText name).toList = '-' :: '-' :: name.toList := by
  rw [longText, String.toList_append]
  rfl

theorem longText_inj {name other : String} : longText name = longText other ↔ name = other := by
  rw [← String.toList_inj, toList_longText, toList_longText, List.cons.injEq, List.cons.injEq,
    String.toList_inj]
  simp

theorem splitValue_of_not_mem {s : List Char} (h : '=' ∉ s) :
    splitValue s = .long (String.ofList s) none := by
  have hall : ∀ c ∈ s, (c != '=') = true :=
    fun c hc => bne_iff_ne.mpr (ne_of_mem_of_not_mem hc h)
  rw [splitValue, List.dropWhile_eq_nil_iff.mpr hall, List.takeWhile_eq_self_iff.mpr hall]

theorem eq_toList_of_splitValue {s : List Char} {name : String}
    (h : splitValue s = .long name none) : s = name.toList := by
  rw [splitValue] at h
  cases hdrop : s.dropWhile (· != '=') with
  | nil =>
      rw [hdrop] at h
      obtain ⟨rfl, -⟩ := Argument.long.inj h
      rw [String.toList_ofList]
      exact (List.takeWhile_eq_self_iff.mpr (List.dropWhile_eq_nil_iff.mp hdrop)).symm
  | cons mark value =>
      rw [hdrop] at h
      cases (Argument.long.inj h).2

/-- A long name is read as such, unless it holds a value or is empty. -/
theorem ofText_longText {name : String} (nonempty : name ≠ "") (plain : '=' ∉ name.toList) :
    Argument.ofText (longText name) = .long name none := by
  rw [Argument.ofText, toList_longText]
  obtain ⟨c, rest, hname⟩ := List.exists_cons_of_ne_nil (mt String.toList_eq_nil_iff.mp nonempty)
  rw [hname]
  change splitValue (c :: rest) = .long name none
  rw [← hname, splitValue_of_not_mem plain, String.ofList_toList]

/-- An option that is written with its long name and without a value is this long name. -/
theorem eq_longText_of_ofText {argument name : String}
    (h : Argument.ofText argument = .long name none) : argument = longText name := by
  unfold Argument.ofText at h
  split at h
  · cases h
  · rename_i rest hrest
    rw [← String.toList_inj, hrest, toList_longText, eq_toList_of_splitValue h]
  · cases h
  · cases h

/-- An argument that is read in another way than a long name is not this long name. -/
theorem longText_ne_of_ofText {argument name : String}
    (hlong : Argument.ofText (longText name) = .long name none)
    (h : Argument.ofText argument ≠ .long name none) : longText name ≠ argument := by
  rintro rfl
  exact h hlong

/-! ## Options without values -/

/-- No option takes a value, and there is no operand. -/
structure ArgumentForm.HasSwitchesOnly (form : ArgumentForm) : Prop where
  noValue : ∀ option ∈ form.options, option.kind ≠ .value
  noOperand : form.takesOperand = false

namespace Given

variable {form : ArgumentForm} {g g' g'' : Given}

/-- Reading has added some options, and nothing is pending. -/
structure Adds (g g' : Given) (names : List String) : Prop where
  pending : g'.pending = none
  options : g'.options = g.options ++ names.map (·, "")

theorem has_iff_mem {name : String} : g.has name = true ↔ name ∈ g.options.map (·.1) := by
  rw [has, List.lookup_isSome_iff, List.mem_map]
  simp only [beq_iff_eq, eq_comm (a := name)]

namespace Adds

theorem none (pending : g.pending = none) : Adds g g [] where
  pending := pending
  options := (List.append_nil _).symm

theorem append {names more : List String} (h : Adds g g' names) (h' : Adds g' g'' more) :
    Adds g g'' (names ++ more) where
  pending := h'.pending
  options := by rw [h'.options, h.options, List.map_append, List.append_assoc]

theorem has_iff {names : List String} (h : Adds g g' names) (name : String) :
    g'.has name = true ↔ g.has name = true ∨ name ∈ names := by
  have hnames : (names.map (·, "")).map (·.1) = names := by
    simp [Function.comp_def]
  rw [has_iff_mem, has_iff_mem, h.options, List.map_append, List.mem_append, hnames]

end Adds

theorem settle_of_pending (h : g.pending = none) : g.settle = .ok g := by
  rw [settle, h]

theorem adds_addOnce {name : String} (pending : g.pending = none)
    (h : g.addOnce name "" = .ok g') : Adds g g' [name] := by
  unfold addOnce at h
  split at h
  · cases h
  · obtain rfl := Except.ok.inj h
    exact ⟨pending, rfl⟩

theorem adds_addOption {option : OptionForm} {value : Option String} (pending : g.pending = none)
    (noValue : option.kind ≠ .value) (h : g.addOption option value = .ok g') :
    value = Option.none ∧ Adds g g' [option.name] := by
  unfold addOption at h
  rw [settle_of_pending pending] at h
  split at h
  · exact absurd ‹option.kind = .value› noValue
  · exact absurd ‹option.kind = .value› noValue
  · cases h
  · exact ⟨rfl, adds_addOnce pending h⟩
  · obtain rfl := Except.ok.inj h
    exact ⟨rfl, pending, rfl⟩
  · cases h

theorem adds_addLong {name : String} {value : Option String} (hform : form.HasSwitchesOnly)
    (pending : g.pending = none) (h : g.addLong form name value = .ok g') :
    value = none ∧ Adds g g' [name] := by
  unfold addLong at h
  split at h
  · cases h
  · rename_i option hoption
    have hname : option.name = name := by simpa using List.find?_some hoption
    rw [← hname]
    exact adds_addOption pending (hform.noValue option (List.mem_of_find?_eq_some hoption)) h

/-- Letters add the options that have them. -/
theorem adds_addLetters {letters : List Char} (hform : form.HasSwitchesOnly)
    (pending : g.pending = none) (h : g.addLetters form letters = .ok g') :
    ∃ names, Adds g g' names ∧
      ∀ name ∈ names, ∃ option ∈ form.options, option.name = name ∧ option.letter ≠ none := by
  induction letters generalizing g with
  | nil =>
      obtain rfl := Except.ok.inj h
      exact ⟨[], .none pending, by simp⟩
  | cons c letters ih =>
      unfold addLetters at h
      split at h
      · cases h
      · rename_i option hoption
        have hmem := List.mem_of_find?_eq_some hoption
        have hletter : option.letter = some c := by simpa using List.find?_some hoption
        rw [if_neg (hform.noValue option hmem)] at h
        obtain ⟨g₁, hfirst, hrest⟩ := bind_eq_ok.mp h
        obtain ⟨-, hadds⟩ := adds_addOption pending (hform.noValue option hmem) hfirst
        obtain ⟨names, hmore, hnames⟩ := ih hadds.pending hrest
        refine ⟨[option.name] ++ names, hadds.append hmore, ?_⟩
        intro name hname
        rcases List.mem_cons.mp hname with rfl | hname
        · exact ⟨option, hmem, rfl, by simp [hletter]⟩
        · exact hnames name hname

theorem addOperand_of_noOperand (hform : form.HasSwitchesOnly) (text : String) :
    g.addOperand form text = .error .unknownArgument := by
  rw [addOperand, hform.noOperand]
  rfl

theorem eq_of_finish (hform : form.HasSwitchesOnly) (pending : g.pending = none)
    (h : g.finish form = .ok g') : g' = g := by
  rw [finish, settle_of_pending pending, hform.noOperand] at h
  exact (Except.ok.inj h).symm

/-- An option without a letter is given exactly when its long name is one of the arguments. -/
theorem has_of_read {name : String} {arguments : List String} (hform : form.HasSwitchesOnly)
    (nonempty : name ≠ "") (plain : '=' ∉ name.toList)
    (noLetter : ∀ option ∈ form.options, option.name = name → option.letter = none)
    (pending : g.pending = none) (h : g.read form arguments = .ok g') :
    g'.has name = true ↔ g.has name = true ∨ longText name ∈ arguments := by
  have hlong := ofText_longText nonempty plain
  induction arguments generalizing g with
  | nil =>
      rw [eq_of_finish hform pending h]
      simp
  | cons argument rest ih =>
      rw [read] at h
      split at h
      · rename_i hargument
        have hne : longText name ≠ argument :=
          longText_ne_of_ofText hlong (by simp [hargument])
        have hrest : rest = [] := by
          cases rest with
          | nil => rfl
          | cons text rest =>
              rw [List.foldlM_cons, addOperand_of_noOperand hform] at h
              cases h
        subst hrest
        rw [eq_of_finish hform pending h]
        simp [hne]
      · rename_i other value hargument
        obtain ⟨g₁, hfirst, hrest⟩ := bind_eq_ok.mp h
        obtain ⟨rfl, hadds⟩ := adds_addLong hform pending hfirst
        refine (ih hadds.pending hrest).trans ?_
        rw [hadds.has_iff, List.mem_singleton, List.mem_cons, eq_longText_of_ofText hargument,
          longText_inj, or_assoc]
      · rename_i letters hargument
        have hne : longText name ≠ argument :=
          longText_ne_of_ofText hlong (by simp [hargument])
        obtain ⟨g₁, hfirst, hrest⟩ := bind_eq_ok.mp h
        obtain ⟨names, hadds, hnames⟩ := adds_addLetters hform pending hfirst
        have hname : name ∉ names := by
          intro hmem
          obtain ⟨option, hoption, hsame, hletter⟩ := hnames name hmem
          exact hletter (noLetter option hoption hsame)
        refine (ih hadds.pending hrest).trans ?_
        rw [hadds.has_iff, List.mem_cons, or_iff_left hname, or_iff_right hne]
      · rename_i text hargument
        obtain ⟨g₁, hfirst, -⟩ := bind_eq_ok.mp h
        rw [addPlain, pending, addOperand_of_noOperand hform] at hfirst
        cases hfirst

end Given

/-! ## The switches of `init` -/

theorem hasSwitchesOnly_init : Name.init.form.HasSwitchesOnly where
  noValue := by decide
  noOperand := rfl

theorem eq_text_of_ofText? {argument : String} {name : Name}
    (h : Name.ofText? argument = some name) : argument = name.text := by
  have hname : name.text = argument := by simpa using List.find?_some h
  exact hname.symm

/-- The switches of `init`. -/
def initSwitches : List String :=
  ["global", "force"]

section InitSwitches

variable {name : String} (h : name ∈ initSwitches)

include h

theorem ofText_initSwitch : Argument.ofText (longText name) = .long name none := by
  have hall : ∀ name ∈ initSwitches, name ≠ "" ∧ '=' ∉ name.toList := by
    decide
  exact ofText_longText (hall name h).1 (hall name h).2

theorem has_initSwitch {arguments : List String} {g : Given}
    (hread : Given.read Name.init.form {} arguments = .ok g) :
    g.has name = true ↔ longText name ∈ arguments := by
  have hall : ∀ name ∈ initSwitches, name ≠ "" ∧ '=' ∉ name.toList ∧
      ∀ option ∈ Name.init.form.options, option.name = name → option.letter = none := by
    decide
  obtain ⟨nonempty, plain, noLetter⟩ := hall name h
  refine (Given.has_of_read hasSwitchesOnly_init nonempty plain noLetter rfl hread).trans ?_
  exact or_iff_right Bool.false_ne_true

/-- What may be given in front of a command is no switch of `init`. -/
theorem addLong_initSwitch (g : Given) (value : Option String) :
    g.addLong generalForm name value = .error .unknownArgument := by
  have hall : ∀ name ∈ initSwitches, generalForm.options.find? (·.name == name) = none := by
    decide
  rw [Given.addLong, hall name h]

end InitSwitches

/-- A command `init` overwrites a file, or writes in the home directory, exactly when it is among
the arguments that it should. -/
theorem init_of_read {g : Given} {arguments : List String} {inHome force : Bool}
    (h : read g arguments = .ok (.init inHome force)) :
    (inHome = true ↔ longText "global" ∈ arguments) ∧
      (force = true ↔ longText "force" ∈ arguments) := by
  induction arguments generalizing g with
  | nil => cases h
  | cons argument rest ih =>
      have skip (hne : ∀ name ∈ initSwitches, longText name ≠ argument) (name : String)
          (hname : name ∈ initSwitches) :
          longText name ∈ argument :: rest ↔ longText name ∈ rest :=
        List.mem_cons.trans (or_iff_right (hne name hname))
      rw [read] at h
      split at h
      · cases h
      · rename_i name _ hname
        obtain ⟨g', hread, hmake⟩ := bind_eq_ok.mp h
        cases name with
        | init =>
            obtain ⟨rfl, rfl⟩ := Command.init.inj (Except.ok.inj hmake)
            obtain rfl := eq_text_of_ofText? hname
            rw [skip (by decide) "global" (by decide), skip (by decide) "force" (by decide)]
            exact ⟨has_initSwitch (by decide) hread, has_initSwitch (by decide) hread⟩
        | _ => cases hmake
      · split at h
        · cases h
        · rename_i other value hargument
          obtain ⟨g', hfirst, hrest⟩ := bind_eq_ok.mp h
          have hne : ∀ name ∈ initSwitches, longText name ≠ argument := by
            rintro name hname rfl
            rw [ofText_initSwitch hname] at hargument
            obtain ⟨rfl, -⟩ := Argument.long.inj hargument
            rw [addLong_initSwitch hname] at hfirst
            cases hfirst
          rw [skip hne "global" (by decide), skip hne "force" (by decide)]
          exact ih hrest
        · rename_i letters hargument
          obtain ⟨g', hfirst, hrest⟩ := bind_eq_ok.mp h
          have hne : ∀ name ∈ initSwitches, longText name ≠ argument := by
            intro name hname
            exact longText_ne_of_ofText (ofText_initSwitch hname) (by simp [hargument])
          rw [skip hne "global" (by decide), skip hne "force" (by decide)]
          exact ih hrest
        · cases h

end FacetedSearch.Command
