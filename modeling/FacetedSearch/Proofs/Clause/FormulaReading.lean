import FacetedSearch.Proofs.Clause.Formula
import FacetedSearch.Proofs.Clause.Phrase

/-!
# Reading clauses

The formula of a clause is read from its text alone. A text is taken apart at the blanks, colons and
parentheses that are neither escaped nor in quotes, and each of them counts as far as the
parentheses around it allow. Fields and written values are words: they bring no such mark. A value
in a URL always is a word.
-/

namespace FacetedSearch

open Text

/-- Read the name of an operator. -/
def Operator.ofName? (name : List Char) : Option Operator :=
  [Operator.or, Operator.and].find? (·.name.toList == name)

@[simp] theorem Operator.ofName?_name (operator : Operator) :
    ofName? operator.name.toList = some operator := by
  cases operator <;> rfl

namespace Clause

/-! ## Marks -/

/-- Where a reader stands: within quotes, or behind a backslash. -/
structure Place where
  quoted : Bool := false
  escaped : Bool := false
  deriving DecidableEq, Repr

namespace Place

/-- The place behind a character. -/
def next (place : Place) (c : Char) : Place :=
  if place.escaped then { place with escaped := false }
  else if c = '\\' then { place with escaped := true }
  else if c = '"' then { place with quoted := !place.quoted }
  else place

/-- A character stands in the open, with the meaning that the query language gives it. -/
def isOpen (place : Place) : Bool :=
  !place.quoted && !place.escaped

end Place

/-- The marks that structure a clause. -/
def clauseMarks : List Char :=
  [' ', '(', ')', ':']

/-- The characters of a text. A mark in the open comes with the number of parentheses around it, of
which `depth` stand around the whole text. -/
def tokens (place : Place) (depth : Nat) : List Char → List (Char × Option Nat)
  | [] => []
  | c :: rest =>
    if place.isOpen && clauseMarks.contains c then
      if c = '(' then (c, some depth) :: tokens place (depth + 1) rest
      else if c = ')' then (c, some (depth - 1)) :: tokens place (depth - 1) rest
      else (c, some depth) :: tokens place depth rest
    else (c, none) :: tokens (place.next c) depth rest

/-- A text that brings no mark into the open and ends in the open. -/
def isWordFrom (place : Place) : List Char → Bool
  | [] => place.isOpen
  | c :: rest => !(place.isOpen && clauseMarks.contains c) && isWordFrom (place.next c) rest

/-- A text that the reader does not take apart. -/
def IsWord (text : String) : Prop :=
  isWordFrom {} text.toList = true

instance (text : String) : Decidable (IsWord text) :=
  inferInstanceAs (Decidable (_ = true))

/-- Take a text apart at a mark that has no parentheses around it. -/
def splitMark (mark : Char) (depth : Nat) (s : List Char) : List (List Char) :=
  ((tokens {} depth s).splitOn (mark, some 0)).map (·.map Prod.fst)

/-! ## The reader -/

/-- The members behind the first one, each behind the name of the operator. -/
def laterMembers? (name : List Char) : List (List Char) → Option (List (List Char))
  | [] => some []
  | [_] => none
  | operator :: member :: rest =>
    if operator = name then (laterMembers? name rest).map (member :: ·) else none

/-- Read the inside of a group. -/
def readMembers? : List (List Char) → Option (Combination (List Char))
  | first :: name :: rest => do
    let operator ← Operator.ofName? name
    let later ← laterMembers? name (name :: rest)
    return { operator, members := first :: later }
  | _ => none

/-- Read nothing, a single member or a group in parentheses. -/
def readGroup? : List Char → Option (Combination (List Char))
  | [] => some (.shown .and [])
  | '(' :: rest =>
    match splitMark ')' 1 rest with
    | [inside, []] => readMembers? (splitMark ' ' 0 inside)
    | _ => none
  | s => some (.shown .and [s])

/-- Read the clause of a field. -/
def readField? (s : List Char) : Option FieldFormula :=
  match splitMark ':' 0 s with
  | [field, value] => do
    let values ← readGroup? value
    let members := values.members.map String.ofList
    if IsWord (String.ofList field) ∧ ∀ term ∈ members, IsWord term then
      some { field := String.ofList field, values := { values with members } }
    else none
  | _ => none

/-- Read a clause. -/
def readFormula? (text : String) : Option Formula := do
  let clauses ← readGroup? text.toList
  let members ← clauses.members.mapM readField?
  return { clauses with members }

/-! ## Texts with balanced parentheses -/

/-- Behind the text a reader stands as it stood in front of it, and no mark of the text is further
outside than the text itself. -/
structure Balanced (s : List Char) : Prop where
  append : ∀ depth t, tokens {} depth (s ++ t) = tokens {} depth s ++ tokens {} depth t
  within : ∀ depth c n, (c, some n) ∈ tokens {} depth s → depth ≤ n

/-- A text without a mark of its own that could take it apart. -/
def Undivided (mark : Char) (s : List Char) : Prop :=
  (mark, some 0) ∉ tokens {} 0 s

variable {s t : List Char} {mark : Char} {place : Place} {depth : Nat}

@[simp] theorem tokens_nil (place : Place) (depth : Nat) : tokens place depth [] = [] := rfl

@[simp] theorem tokens_blank (depth : Nat) (t : List Char) :
    tokens {} depth (' ' :: t) = (' ', some depth) :: tokens {} depth t := rfl

@[simp] theorem tokens_colon (depth : Nat) (t : List Char) :
    tokens {} depth (':' :: t) = (':', some depth) :: tokens {} depth t := rfl

@[simp] theorem tokens_opening (depth : Nat) (t : List Char) :
    tokens {} depth ('(' :: t) = ('(', some depth) :: tokens {} (depth + 1) t := rfl

@[simp] theorem tokens_closing (depth : Nat) (t : List Char) :
    tokens {} (depth + 1) (')' :: t) = (')', some depth) :: tokens {} depth t := rfl

/-- The tokens of a text are its characters. -/
theorem map_fst_tokens (place : Place) (depth : Nat) (s : List Char) :
    (tokens place depth s).map Prod.fst = s := by
  induction s generalizing place depth with
  | nil => rfl
  | cons c s ih =>
      rw [tokens]
      split
      · split
        · rw [List.map_cons, ih]
        · split <;> rw [List.map_cons, ih]
      · rw [List.map_cons, ih]

theorem tokens_append_of_isWordFrom (h : isWordFrom place s = true) (t : List Char) :
    tokens place depth (s ++ t) = s.map (·, none) ++ tokens {} depth t := by
  induction s generalizing place with
  | nil =>
      have hplace : place = {} := by
        obtain ⟨_ | _, _ | _⟩ := place <;> simp_all [isWordFrom, Place.isOpen]
      simp [hplace]
  | cons c s ih =>
      rw [isWordFrom, Bool.and_eq_true, Bool.not_eq_true'] at h
      rw [List.cons_append, tokens, h.1, if_neg Bool.false_ne_true, ih h.2]
      rfl

theorem tokens_of_isWordFrom (h : isWordFrom place s = true) :
    tokens place depth s = s.map (·, none) := by
  simpa using tokens_append_of_isWordFrom h []

theorem balanced_of_isWordFrom (h : isWordFrom {} s = true) : Balanced s where
  append depth t := by
    rw [tokens_append_of_isWordFrom h, tokens_of_isWordFrom h]
  within depth c n hmem := by
    rw [tokens_of_isWordFrom h] at hmem
    simp at hmem

theorem undivided_of_isWordFrom (h : isWordFrom {} s = true) : Undivided mark s := by
  rw [Undivided, tokens_of_isWordFrom h]
  simp

namespace Balanced

theorem nil : Balanced [] where
  append _ _ := rfl
  within _ _ _ hmem := absurd hmem (List.not_mem_nil)

/-- A mark that is not a parenthesis changes nothing for what stands behind it. -/
theorem single
    (h : ∀ depth t, tokens {} depth (mark :: t) = (mark, some depth) :: tokens {} depth t) :
    Balanced [mark] where
  append depth t := by
    simp [h]
  within depth c n hmem := by
    simp_all

theorem blank : Balanced [' '] := single tokens_blank

theorem colon : Balanced [':'] := single tokens_colon

theorem concat (hs : Balanced s) (ht : Balanced t) : Balanced (s ++ t) where
  append depth u := by
    rw [List.append_assoc, hs.append, ht.append, hs.append, List.append_assoc]
  within depth c n hmem := by
    rw [hs.append, List.mem_append] at hmem
    exact hmem.elim (hs.within depth c n) (ht.within depth c n)

theorem tokens_parenthesized (hs : Balanced s) (depth : Nat) (t : List Char) :
    tokens {} depth ('(' :: (s ++ ')' :: t)) =
      ('(', some depth) :: (tokens {} (depth + 1) s ++ (')', some depth) :: tokens {} depth t) := by
  rw [tokens_opening, hs.append, tokens_closing]

theorem parenthesized (hs : Balanced s) : Balanced ('(' :: (s ++ [')'])) where
  append depth t := by
    rw [List.cons_append, List.append_assoc, List.singleton_append, tokens_parenthesized hs,
      tokens_parenthesized hs]
    simp
  within depth c n hmem := by
    rw [tokens_parenthesized hs] at hmem
    simp only [List.mem_cons, List.mem_append, tokens_nil, List.not_mem_nil, or_false,
      Prod.mk.injEq, Option.some.injEq] at hmem
    rcases hmem with ⟨-, rfl⟩ | hmem | ⟨-, rfl⟩
    · exact Nat.le_refl n
    · exact Nat.le_of_succ_le (hs.within (depth + 1) c n hmem)
    · exact Nat.le_refl n

end Balanced

namespace Undivided

theorem concat (hs : Balanced s) (hmark : Undivided mark s) (ht : Undivided mark t) :
    Undivided mark (s ++ t) := by
  rw [Undivided, hs.append, List.mem_append, not_or]
  exact ⟨hmark, ht⟩

/-- Parentheses keep their inside together. -/
theorem parenthesized (hs : Balanced s) (hopening : mark ≠ '(') (hclosing : mark ≠ ')') :
    Undivided mark ('(' :: (s ++ [')'])) := by
  rw [Undivided, hs.tokens_parenthesized]
  simp only [List.mem_cons, List.mem_append, tokens_nil, List.not_mem_nil, or_false,
    Prod.mk.injEq, hopening, hclosing, false_and, false_or]
  exact fun hmem => absurd (hs.within 1 mark 0 hmem) (by decide)

end Undivided

/-! ## Taking texts apart -/

theorem splitMark_of_undivided (h : Undivided mark s) : splitMark mark 0 s = [s] := by
  rw [splitMark, List.splitOn_eq_singleton h, List.map_singleton, map_fst_tokens]

theorem splitMark_append_cons (hs : Balanced s) (h : Undivided mark s)
    (hmark : tokens {} 0 (mark :: t) = (mark, some 0) :: tokens {} 0 t) :
    splitMark mark 0 (s ++ mark :: t) = s :: splitMark mark 0 t := by
  rw [splitMark, hs.append, hmark, List.splitOn_append_cons_self, List.splitOn_eq_singleton h,
    List.singleton_append, List.map_cons, map_fst_tokens, splitMark]

/-- The parenthesis that closes a group is the last character. -/
theorem splitMark_closing (hs : Balanced s) : splitMark ')' 1 (s ++ [')']) = [s, []] := by
  have hinside : (')', some 0) ∉ tokens {} 1 s := fun hmem =>
    absurd (hs.within 1 ')' 0 hmem) (by decide)
  rw [splitMark, hs.append, tokens_closing, List.splitOn_append_cons_self,
    List.splitOn_eq_singleton hinside, List.singleton_append, List.map_cons, map_fst_tokens]
  rfl

/-! ## Groups -/

/-- A text that can stand in a group. -/
structure IsMember (s : List Char) : Prop where
  balanced : Balanced s
  undivided : Undivided ' ' s
  filled : s ≠ []
  unwrapped : s.head? ≠ some '('

theorem head?_ne_of_isWordFrom (h : isWordFrom {} s = true) : s.head? ≠ some '(' := by
  cases s with
  | nil => simp
  | cons c s =>
      rintro ⟨⟩
      simp [isWordFrom, Place.isOpen, clauseMarks] at h

theorem IsWord.isMember {text : String} (h : IsWord text) (filled : text ≠ "") :
    IsMember text.toList where
  balanced := balanced_of_isWordFrom h
  undivided := undivided_of_isWordFrom h
  filled := by simpa using filled
  unwrapped := head?_ne_of_isWordFrom h

theorem isWord_name (operator : Operator) : isWordFrom {} operator.name.toList = true := by
  cases operator <;> decide

theorem toList_separator (operator : Operator) :
    operator.separator.toList = ' ' :: (operator.name.toList ++ [' ']) := by
  cases operator <;> rfl

section Groups

variable {operator : Operator} {members : List String}

theorem balanced_intercalate (operator : Operator) (h : ∀ m ∈ members, Balanced m.toList) :
    Balanced (operator.separator.intercalate members).toList := by
  induction members with
  | nil => exact Balanced.nil
  | cons m rest ih =>
      rw [List.forall_mem_cons] at h
      by_cases hrest : rest = []
      · simpa [hrest] using h.1
      · rw [String.intercalate_cons_of_ne_nil hrest, String.toList_append, String.toList_append,
          toList_separator, List.append_assoc, ← List.singleton_append]
        have hname := balanced_of_isWordFrom (isWord_name operator)
        simpa using ((h.1.concat (Balanced.blank.concat (hname.concat Balanced.blank))).concat
          (ih h.2))

theorem toList_group_of_several {first second : String} {rest : List String} :
    (group operator (first :: second :: rest)).toList =
      '(' :: ((operator.separator.intercalate (first :: second :: rest)).toList ++ [')']) := by
  simp [group]

theorem balanced_group (h : ∀ m ∈ members, Balanced m.toList) :
    Balanced (group operator members).toList := by
  rcases members with _ | ⟨first, _ | ⟨second, rest⟩⟩
  · exact Balanced.nil
  · exact h first List.mem_cons_self
  · rw [toList_group_of_several]
    exact (balanced_intercalate operator h).parenthesized

theorem undivided_group (balanced : ∀ m ∈ members, Balanced m.toList)
    (h : ∀ m ∈ members, Undivided mark m.toList) (hopening : mark ≠ '(') (hclosing : mark ≠ ')') :
    Undivided mark (group operator members).toList := by
  rcases members with _ | ⟨first, _ | ⟨second, rest⟩⟩
  · exact List.not_mem_nil
  · exact h first List.mem_cons_self
  · rw [toList_group_of_several]
    exact Undivided.parenthesized (balanced_intercalate operator balanced) hopening hclosing

/-- Between the members stand the names of the operator. -/
theorem splitMark_intercalate (operator : Operator) {first : String} {rest : List String}
    (h : ∀ m ∈ first :: rest, IsMember m.toList) :
    splitMark ' ' 0 (operator.separator.intercalate (first :: rest)).toList =
      first.toList :: (rest.map String.toList).flatMap fun m => [operator.name.toList, m] := by
  induction rest generalizing first with
  | nil =>
      rw [String.intercalate_singleton]
      exact splitMark_of_undivided (h first List.mem_cons_self).undivided
  | cons second rest ih =>
      obtain ⟨hm, hrest⟩ := List.forall_mem_cons.mp h
      rw [String.intercalate_cons_cons, String.toList_append, String.toList_append,
        toList_separator, List.append_assoc, List.cons_append, List.append_assoc,
        List.singleton_append, splitMark_append_cons hm.balanced hm.undivided (tokens_blank 0 _),
        splitMark_append_cons (balanced_of_isWordFrom (isWord_name operator))
          (undivided_of_isWordFrom (isWord_name operator)) (tokens_blank 0 _), ih hrest]
      rfl

theorem laterMembers?_flatMap (name : List Char) (later : List (List Char)) :
    laterMembers? name (later.flatMap fun m => [name, m]) = some later := by
  induction later with
  | nil => rfl
  | cons m later ih =>
      rw [List.flatMap_cons, List.cons_append, List.singleton_append, laterMembers?, if_pos rfl, ih,
        Option.map_some]

theorem readMembers?_flatMap (operator : Operator) (first second : List Char)
    (rest : List (List Char)) :
    readMembers? (first :: (second :: rest).flatMap fun m => [operator.name.toList, m]) =
      some (.shown operator (first :: second :: rest)) := by
  have hlater := laterMembers?_flatMap operator.name.toList (second :: rest)
  rw [List.flatMap_cons, List.cons_append] at hlater ⊢
  rw [readMembers?, Operator.ofName?_name, Option.bind_eq_bind, Option.bind_some, hlater]
  simp [Combination.shown]

/-- A group is read as its members and its operator. -/
theorem readGroup?_group (operator : Operator) (h : ∀ m ∈ members, IsMember m.toList) :
    readGroup? (group operator members).toList =
      some (.shown operator (members.map String.toList)) := by
  rcases members with _ | ⟨first, _ | ⟨second, rest⟩⟩
  · rfl
  · obtain ⟨-, -, filled, unwrapped⟩ := h first List.mem_cons_self
    rw [group, List.map_singleton, Combination.shown_singleton]
    unfold readGroup?
    split
    · simp_all
    · simp_all
    · rfl
  · rw [toList_group_of_several, readGroup?,
      splitMark_closing (balanced_intercalate operator fun m hm => (h m hm).balanced)]
    dsimp only
    rw [splitMark_intercalate operator h]
    exact readMembers?_flatMap operator first.toList second.toList (rest.map String.toList)

end Groups

/-! ## Formulas -/

/-- A combination that shows its operator, or has none to show. -/
def Combination.IsShown {α : Type} (combination : Combination α) : Prop :=
  combination = .shown combination.operator combination.members

/-- A field that is asked for words. -/
structure FieldFormula.IsReadable (formula : FieldFormula) : Prop where
  field : IsWord formula.field
  shown : formula.values.IsShown
  values : ∀ term ∈ formula.values.members, IsWord term
  filled : ∀ term ∈ formula.values.members, term ≠ ""

/-- A clause that asks fields for words. -/
structure Formula.IsReadable (formula : Formula) : Prop where
  shown : formula.IsShown
  fields : ∀ f ∈ formula.members, f.IsReadable

theorem FieldFormula.toList_text (formula : FieldFormula) :
    formula.text.toList = formula.field.toList ++
      ':' :: (group formula.values.operator formula.values.members).toList := by
  simp [FieldFormula.text, Combination.write]

namespace FieldFormula.IsReadable

variable {formula : FieldFormula} (h : formula.IsReadable)

include h

theorem isMember_values : ∀ term ∈ formula.values.members, IsMember term.toList :=
  fun term hterm => (h.values term hterm).isMember (h.filled term hterm)

theorem undivided_values (hopening : mark ≠ '(') (hclosing : mark ≠ ')') :
    Undivided mark (group formula.values.operator formula.values.members).toList :=
  undivided_group (fun term hterm => (h.isMember_values term hterm).balanced)
    (fun term hterm => undivided_of_isWordFrom (h.values term hterm)) hopening hclosing

/-- The clause of a field can stand in a group: its blanks are in parentheses. -/
theorem isMember : IsMember formula.text.toList := by
  have hfield := balanced_of_isWordFrom h.field
  have hvalues : Balanced (group formula.values.operator formula.values.members).toList :=
    balanced_group fun term hterm => (h.isMember_values term hterm).balanced
  rw [formula.toList_text]
  refine ⟨hfield.concat (Balanced.colon.concat hvalues), ?_, by simp, ?_⟩
  · refine Undivided.concat hfield (undivided_of_isWordFrom h.field) ?_
    exact Undivided.concat Balanced.colon (by simp [Undivided])
      (h.undivided_values (by decide) (by decide))
  · have hhead := head?_ne_of_isWordFrom h.field
    cases hlist : formula.field.toList with
    | nil => simp
    | cons c rest => simpa [hlist] using hhead

/-- The clause of a field is read back. -/
theorem readField?_text : readField? formula.text.toList = some formula := by
  have hsplit : splitMark ':' 0 formula.text.toList =
      [formula.field.toList, (group formula.values.operator formula.values.members).toList] := by
    rw [formula.toList_text, splitMark_append_cons (balanced_of_isWordFrom h.field)
      (undivided_of_isWordFrom h.field) (tokens_colon 0 _),
      splitMark_of_undivided (h.undivided_values (by decide) (by decide))]
  have hmembers : (formula.values.members.map String.toList).map String.ofList =
      formula.values.members := by
    simp [Function.comp_def]
  rw [readField?, hsplit]
  dsimp only
  rw [readGroup?_group _ h.isMember_values, Option.bind_eq_bind, Option.bind_some]
  simp only [Combination.shown, hmembers, String.ofList_toList, List.length_map]
  rw [if_pos ⟨h.field, h.values⟩]
  exact congrArg (fun values => some { formula with values }) h.shown.symm

end FieldFormula.IsReadable

theorem mapM_readField?_text {fs : List FieldFormula} (h : ∀ f ∈ fs, f.IsReadable) :
    (fs.map fun f => f.text.toList).mapM readField? = some fs := by
  induction fs with
  | nil => rfl
  | cons f fs ih =>
      rw [List.forall_mem_cons] at h
      rw [List.map_cons, List.mapM_cons, h.1.readField?_text, ih h.2]
      rfl

/-- The text of a clause is read back as its formula. -/
theorem readFormula?_text {formula : Formula} (h : formula.IsReadable) :
    readFormula? formula.text = some formula := by
  have hmembers : ∀ text ∈ formula.members.map FieldFormula.text, IsMember text.toList :=
    List.forall_mem_map.mpr fun f hf => (h.fields f hf).isMember
  rw [readFormula?, Formula.text, Combination.write, readGroup?_group _ hmembers,
    Option.bind_eq_bind, Option.bind_some, List.map_map]
  simp only [Combination.shown, List.length_map, Function.comp_def, mapM_readField?_text h.fields]
  exact congrArg some h.shown.symm

/-! ## Values in a URL -/

/-- A text without quote marks is a word when it brings no mark of a clause bare and leaves no
backslash open. -/
theorem isWordFrom_of_bareChars {escaped : Bool} (quote : '"' ∉ s)
    (h : ∀ c ∈ bareChars escaped s, c ∉ clauseMarks) (closed : leavesOpen escaped s = false) :
    isWordFrom { escaped } s = true := by
  induction s generalizing escaped with
  | nil =>
      rw [leavesOpen_nil] at closed
      rw [closed]
      rfl
  | cons c s ih =>
      rw [List.mem_cons, not_or] at quote
      cases escaped with
      | true => exact ih quote.2 h closed
      | false =>
          rw [bareChars_bare, List.forall_mem_cons] at h
          have hnext : ({} : Place).next c = { escaped := c == '\\' } := by
            by_cases hback : c = '\\'
            · simp [Place.next, hback]
            · simp [Place.next, hback, Ne.symm quote.1]
          rw [isWordFrom, hnext, ih quote.2 h.2 closed]
          simp [h.1]

/-- A value that is written in a URL is a word. -/
theorem isWord_of_formatValue {options : ClauseOptions} {value term : String}
    (url : options.encoding = .url) (h : formatValue options value = some term) : IsWord term := by
  have hmarks : bareMarks term = [] := by
    rw [bareMarks_formatValue h, url]
  have hquote : '"' ∉ term.toList :=
    not_mem_of_formatValue url h (by decide) (by decide) (by decide)
  have hblank : ' ' ∉ term.toList :=
    not_mem_of_formatValue url h (by decide) (by decide) (by decide)
  refine isWordFrom_of_bareChars hquote ?_ ?_
  · intro c hbare hmark
    rcases List.mem_cons.mp hmark with rfl | hmark
    · exact hblank ((bareChars_sublist false term.toList).subset hbare)
    · have hsubset : ['(', ')', ':'] ⊆ [':', '(', ')', '?'] := by
        simp
      have hquery : isQueryMark c = true := List.contains_iff_mem.mpr (hsubset hmark)
      exact List.filter_eq_nil_iff.mp hmarks c hbare hquery
  · obtain ⟨-, rfl⟩ := formatValue_eq_some.mp h
    have hframe : leavesOpen false (frame options (trim value)).toList = false :=
      leavesOpen_of_not_mem (backslash_not_mem_of_isNeutral (isNeutral_frame _ _))
    rw [url, String.toList_append, String.toList_append, leavesOpen_append, leavesOpen_append,
      hframe, Encoding.leavesOpen_encodeEscaped_url, hframe]

/-! ## Clauses over fields -/

section Fields

variable {options : ClauseOptions} {fields : List String} {values : List FilterValue}

theorem isShown_shown {α : Type} (operator : Operator) (members : List α) :
    (Combination.shown operator members).IsShown := by
  unfold Combination.IsShown Combination.shown
  split <;> rfl

theorem isReadable_formulaOf (words : ∀ field ∈ fields, IsWord field)
    (written : ∀ term ∈ termsOver options fields values, IsWord term) :
    (formulaOf options fields values).IsReadable := by
  by_cases filled : termsOver options fields values = []
  · rw [formulaOf_of_nil filled]
    exact ⟨isShown_shown _ _, List.forall_mem_nil _⟩
  · rw [formulaOf_of_ne_nil filled]
    refine ⟨isShown_shown _ _, List.forall_mem_map.mpr fun field hfield => ?_⟩
    exact {
      field := words field hfield
      shown := isShown_shown _ _
      values := written
      filled := fun _ => ne_empty_of_mem_formatValues }

/-- The values over some fields are written values, with the encoding of the options. -/
theorem exists_formatValue_of_mem_termsOver {term : String}
    (h : term ∈ termsOver options fields values) :
    ∃ (written : ClauseOptions) (value : String),
      written.encoding = options.encoding ∧ formatValue written value = some term := by
  obtain ⟨value, -, hformat⟩ := List.mem_filterMap.mp h
  obtain ⟨quotes, hoptions⟩ := exists_optionsOver_eq options fields
  exact ⟨optionsOver options fields, value.text, by rw [hoptions], hformat⟩

theorem isWord_of_mem_termsOver (url : options.encoding = .url) :
    ∀ term ∈ termsOver options fields values, IsWord term := by
  intro term hterm
  obtain ⟨_, value, hencoding, hformat⟩ := exists_formatValue_of_mem_termsOver hterm
  exact isWord_of_formatValue (hencoding.trans url) hformat

/-- A clause over words is read as the formula of its values. In a URL the values always are
words. -/
theorem readFormula?_ofFields (words : ∀ field ∈ fields, IsWord field)
    (written : options.encoding = .url ∨
      ∀ term ∈ termsOver options fields values, IsWord term) :
    readFormula? (ofFields options fields values) = some (formulaOf options fields values) := by
  rw [← text_formulaOf]
  exact readFormula?_text (isReadable_formulaOf words (written.elim isWord_of_mem_termsOver id))

end Fields

end Clause

end FacetedSearch
