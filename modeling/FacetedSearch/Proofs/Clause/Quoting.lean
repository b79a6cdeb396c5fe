import FacetedSearch.Clause.Quoting
import Mathlib.Algebra.BigOperators.Group.List.Basic
import Mathlib.Computability.Language

/-!
# The shapes that need quotes

The shapes of values are languages: concatenations of characters, words and gaps. The matchers look
for one way to split a text after another, and this finds a way whenever there is one. So a value
is quoted exactly when no timestamp stands in it, and it holds a space, has a distinguished name in
it or starts with an ORCID address.
-/

namespace FacetedSearch.Clause

open Text

/-! ## Shapes as languages -/

/-- A character of a class. -/
def ofClass (fits : Char → Bool) : Language Char :=
  {t | ∃ c, fits c = true ∧ t = [c]}

/-- A fixed character. -/
def mark (c : Char) : Language Char :=
  {[c]}

/-- One of the given characters. -/
def anyOf (chars : String) : Language Char :=
  {t | ∃ c ∈ chars.toList, t = [c]}

/-- A fixed text. -/
def word (text : String) : Language Char :=
  {text.toList}

/-- A digit of any script. -/
def digit : Language Char :=
  ofClass isDecimalDigit

/-- Two digits, the first of them one of the given. -/
def twoDigits (leading : String) : Language Char :=
  anyOf leading * digit

/-- The end of a timestamp: `Z`, or an offset such as `+02:00`. -/
def timeZone : Language Char :=
  mark 'Z' + anyOf "+-" * twoDigits "012" * mark ':' * twoDigits "012345"

/-- A timestamp: `2020-01-01T00:00:00Z`. -/
def timestamp : Language Char :=
  digit ^ 4 * mark '-' * twoDigits "01" * mark '-' * twoDigits "0123" * mark 'T'
    * twoDigits "012" * mark ':' * twoDigits "012345" * mark ':' * twoDigits "012345" * timeZone

/-- At least one character, and no line break. -/
def gap : Language Char :=
  {t | t ≠ [] ∧ '\n' ∉ t}

/-- An ASCII letter and an equals sign. -/
def attributeName : Language Char :=
  ofClass isAsciiLetter * mark '='

/-- A distinguished name, up to the name of its third attribute: `uid=jdoe,o=NCEAS,dc=`. -/
def subject : Language Char :=
  (word "uid=" + word "UID=" + word "cn=" + word "CN=") * gap * attributeName * gap * attributeName

/-- An ORCID address: `http://orcid.org/0000-0002-1825-009X`. -/
def orcidAddress : Language Char :=
  word "http://orcid.org/" * (ofClass isAsciiDigit ^ 4 * mark '-') ^ 3
    * ofClass (fun c => isAsciiDigit c || c == 'X') ^ 4

section Members

variable {t : List Char}

@[simp] theorem mem_ofClass {fits : Char → Bool} :
    t ∈ ofClass fits ↔ ∃ c, fits c = true ∧ t = [c] := Iff.rfl

@[simp] theorem mem_mark {c : Char} : t ∈ mark c ↔ t = [c] := Iff.rfl

@[simp] theorem mem_anyOf {chars : String} : t ∈ anyOf chars ↔ ∃ c ∈ chars.toList, t = [c] :=
  Iff.rfl

@[simp] theorem mem_word {text : String} : t ∈ word text ↔ t = text.toList := Iff.rfl

@[simp] theorem mem_gap : t ∈ gap ↔ t ≠ [] ∧ '\n' ∉ t := Iff.rfl

end Members

/-- A text of the language starts the text. -/
def StartsWith (shape : Language Char) (s : List Char) : Prop :=
  ∃ t ∈ shape, t <+: s

section StartsWith

variable {shape more : Language Char} {s : List Char}

theorem startsWith_one (s : List Char) : StartsWith 1 s :=
  ⟨[], Language.nil_mem_one, List.nil_prefix⟩

theorem startsWith_add :
    StartsWith (shape + more) s ↔ StartsWith shape s ∨ StartsWith more s := by
  simp only [StartsWith, Language.mem_add, or_and_right, exists_or]

theorem startsWith_mul :
    StartsWith (shape * more) s ↔ ∃ t ∈ shape, ∃ rest, s = t ++ rest ∧ StartsWith more rest := by
  constructor
  · rintro ⟨_, hmem, tail, rfl⟩
    obtain ⟨t, ht, u, hu, rfl⟩ := Language.mem_mul.mp hmem
    exact ⟨t, ht, u ++ tail, List.append_assoc t u tail, u, hu, List.prefix_append u tail⟩
  · rintro ⟨t, ht, _, rfl, u, hu, tail, rfl⟩
    refine ⟨t ++ u, Language.append_mem_mul ht hu, tail, List.append_assoc t u tail⟩

theorem startsWith_word_mul {text : String} :
    StartsWith (word text * shape) s ↔ ∃ rest, s = text.toList ++ rest ∧ StartsWith shape rest := by
  rw [startsWith_mul]
  constructor
  · rintro ⟨_, rfl, h⟩
    exact h
  · intro h
    exact ⟨text.toList, rfl, h⟩

/-- A text of the language stands somewhere in a text when it starts some end of it. -/
theorem exists_isInfix_iff :
    (∃ t ∈ shape, t <:+: s) ↔ ∃ rest, rest <:+ s ∧ StartsWith shape rest := by
  constructor
  · rintro ⟨t, ht, hinfix⟩
    obtain ⟨rest, hpre, hsuffix⟩ := List.infix_iff_prefix_suffix.mp hinfix
    exact ⟨rest, hsuffix, t, ht, hpre⟩
  · rintro ⟨rest, hsuffix, t, ht, hpre⟩
    exact ⟨t, ht, List.infix_iff_prefix_suffix.mpr ⟨rest, hpre, hsuffix⟩⟩

end StartsWith

/-! ## Lists of classes -/

/-- The texts whose characters fall in the given classes, one after another. -/
def ofClasses (classes : List (Char → Bool)) : Language Char :=
  (classes.map ofClass).prod

theorem ofClasses_append (classes more : List (Char → Bool)) :
    ofClasses (classes ++ more) = ofClasses classes * ofClasses more := by
  rw [ofClasses, List.map_append, List.prod_append]
  rfl

theorem ofClasses_cons (fits : Char → Bool) (classes : List (Char → Bool)) :
    ofClasses (fits :: classes) = ofClass fits * ofClasses classes := by
  rw [ofClasses, List.map_cons, List.prod_cons]
  rfl

@[simp] theorem ofClasses_nil : ofClasses [] = 1 := rfl

theorem ofClasses_replicate (n : Nat) (fits : Char → Bool) :
    ofClasses (List.replicate n fits) = ofClass fits ^ n := by
  rw [ofClasses, List.map_replicate, List.prod_replicate]

theorem ofClass_exactly (c : Char) : ofClass (exactly c) = mark c := by
  ext t
  simp [exactly]

theorem ofClass_oneOf (chars : String) : ofClass (oneOf chars) = anyOf chars := by
  ext t
  simp [oneOf]

theorem ofClasses_literally (text : String) : ofClasses (literally text) = word text := by
  rw [literally, ofClasses]
  induction h : text.toList generalizing text with
  | nil =>
      ext t
      simp [h]
  | cons c chars ih =>
      have hchars := ih (String.ofList chars) String.toList_ofList
      rw [List.map_cons, List.map_cons, List.prod_cons, hchars, ofClass_exactly]
      ext t
      simp [Language.mem_mul, h, eq_comm]

/-- Matching classes one after another finds the texts of their language. -/
theorem startsWithClasses_iff {classes : List (Char → Bool)} {s : List Char} :
    startsWithClasses classes s = true ↔ StartsWith (ofClasses classes) s := by
  induction classes generalizing s with
  | nil => simp [startsWithClasses, startsWith_one]
  | cons fits classes ih =>
      rw [ofClasses_cons, startsWith_mul]
      cases s with
      | nil => simp [startsWithClasses]
      | cons c rest =>
          rw [startsWithClasses, Bool.and_eq_true, ih]
          constructor
          · rintro ⟨hfits, hrest⟩
            exact ⟨[c], ⟨c, hfits, rfl⟩, rest, rfl, hrest⟩
          · rintro ⟨_, ⟨d, hfits, rfl⟩, tail, heq, htail⟩
            obtain ⟨rfl, rfl⟩ := List.cons.inj heq
            exact ⟨hfits, htail⟩

/-! ## Searching -/

section Search

variable {test : List Char → Bool} {s : List Char}

theorem anySuffix_iff : anySuffix test s = true ↔ ∃ rest, rest <:+ s ∧ test rest = true := by
  induction s with
  | nil => simp [anySuffix]
  | cons c s ih =>
      rw [anySuffix, Bool.or_eq_true, ih]
      simp only [List.suffix_cons_iff, or_and_right, exists_or, exists_eq_left]

/-- A gap may end at every place behind its first character and in front of the first line
break. -/
theorem afterGap_iff :
    afterGap test s = true ↔ ∃ t ∈ gap, ∃ rest, s = t ++ rest ∧ test rest = true := by
  induction s with
  | nil => simp [afterGap]
  | cons c s ih =>
      rw [afterGap, Bool.and_eq_true, Bool.or_eq_true, ih, bne_iff_ne]
      constructor
      · rintro ⟨hc, htest | ⟨t, ⟨-, ht⟩, rest, rfl, htest⟩⟩
        · exact ⟨[c], ⟨List.cons_ne_nil _ _, by simpa using hc.symm⟩, s, rfl, htest⟩
        · exact ⟨c :: t, ⟨List.cons_ne_nil _ _, by simp [hc.symm, ht]⟩, rest, rfl, htest⟩
      · rintro ⟨t, ⟨hne, ht⟩, rest, heq, htest⟩
        obtain ⟨d, t, rfl⟩ := List.exists_cons_of_ne_nil hne
        obtain ⟨rfl, rfl⟩ := List.cons.inj heq
        rw [List.mem_cons, not_or] at ht
        refine ⟨Ne.symm ht.1, ?_⟩
        cases t with
        | nil => exact Or.inl htest
        | cons e t => exact Or.inr ⟨e :: t, ⟨List.cons_ne_nil _ _, ht.2⟩, rest, rfl, htest⟩

theorem attributeThen_iff :
    attributeThen test s = true ↔
      ∃ t ∈ attributeName, ∃ rest, s = t ++ rest ∧ test rest = true := by
  constructor
  · intro h
    unfold attributeThen at h
    split at h
    · rename_i c rest
      rw [Bool.and_eq_true] at h
      have hname : [c] ++ ['='] ∈ attributeName :=
        Language.append_mem_mul (mem_ofClass.mpr ⟨c, h.1, rfl⟩) (mem_mark.mpr rfl)
      exact ⟨[c] ++ ['='], hname, rest, rfl, h.2⟩
    · cases h
  · rintro ⟨t, ht, rest, rfl, htest⟩
    obtain ⟨_, ⟨c, hc, rfl⟩, _, rfl, rfl⟩ := Language.mem_mul.mp ht
    change attributeThen test (c :: '=' :: rest) = true
    rw [attributeThen, hc, htest, Bool.and_true]

variable {shape : Language Char} (h : ∀ s, test s = true ↔ StartsWith shape s)

include h

/-- Looking for a shape at every place finds it wherever it stands. -/
theorem anySuffix_iff_exists : anySuffix test s = true ↔ ∃ t ∈ shape, t <:+: s := by
  simp only [anySuffix_iff, exists_isInfix_iff, h]

theorem afterGap_iff_startsWith : afterGap test s = true ↔ StartsWith (gap * shape) s := by
  simp only [afterGap_iff, startsWith_mul, h]

theorem attributeThen_iff_startsWith :
    attributeThen test s = true ↔ StartsWith (attributeName * shape) s := by
  simp only [attributeThen_iff, startsWith_mul, h]

end Search

/-! ## The three shapes -/

theorem ofClasses_dateTime_timeZone : ofClasses dateTimeClasses * timeZone = timestamp := by
  simp only [dateTimeClasses, ofClasses_cons, ofClasses_nil, ofClass_exactly, ofClass_oneOf,
    timestamp, twoDigits, digit, pow_succ, pow_zero, mul_assoc, one_mul, mul_one]

theorem timeZone_eq : timeZone = ofClasses [exactly 'Z'] + ofClasses offsetClasses := by
  simp only [offsetClasses, ofClasses_cons, ofClasses_nil, ofClass_exactly, ofClass_oneOf,
    timeZone, twoDigits, digit, mul_assoc, mul_one]

theorem startsWithTimestamp_iff {s : List Char} :
    startsWithTimestamp s = true ↔ StartsWith timestamp s := by
  rw [startsWithTimestamp, Bool.or_eq_true, startsWithClasses_iff, startsWithClasses_iff,
    ofClasses_append, ofClasses_append, ← startsWith_add, ← mul_add, ← timeZone_eq,
    ofClasses_dateTime_timeZone]

theorem ofClasses_orcid : ofClasses orcidClasses = orcidAddress := by
  simp only [orcidClasses, ofClasses_append, ofClasses_literally, ofClasses_replicate,
    ofClasses_cons, ofClasses_nil, ofClass_exactly, orcidAddress, pow_succ, pow_zero, mul_assoc,
    one_mul, mul_one]

theorem startsWithSubject_iff {s : List Char} :
    startsWithSubject s = true ↔ StartsWith subject s := by
  have hattributes (s : List Char) :
      afterGap (attributeThen (afterGap (attributeThen fun _ => true))) s = true ↔
        StartsWith (gap * (attributeName * (gap * (attributeName * 1)))) s :=
    afterGap_iff_startsWith fun _ => attributeThen_iff_startsWith fun _ =>
      afterGap_iff_startsWith fun _ => attributeThen_iff_startsWith fun s =>
        iff_of_true rfl (startsWith_one s)
  have hmark (name : String) :
      (name.toList.isPrefixOf s &&
          afterGap (attributeThen (afterGap (attributeThen fun _ => true)))
            (s.drop name.length)) = true ↔
        StartsWith (word name * (gap * (attributeName * (gap * (attributeName * 1))))) s := by
    rw [Bool.and_eq_true, List.isPrefixOf_iff_prefix, hattributes, startsWith_word_mul]
    constructor
    · rintro ⟨⟨rest, rfl⟩, h⟩
      rw [← String.length_toList, List.drop_left] at h
      exact ⟨rest, rfl, h⟩
    · rintro ⟨rest, rfl, h⟩
      rw [← String.length_toList, List.drop_left]
      exact ⟨List.prefix_append _ _, h⟩
  simp only [startsWithSubject, subjectMarks, List.any_cons, List.any_nil, Bool.or_false,
    Bool.or_eq_true, hmark, subject, ← startsWith_add, ← add_mul, add_assoc, mul_assoc, mul_one]

/-- A value is quoted exactly when no timestamp stands in it, and it holds a space, has a
distinguished name in it or starts with an ORCID address. -/
theorem needsQuotes_iff (value : String) :
    needsQuotes value = true ↔
      (¬ ∃ t ∈ timestamp, t <:+: value.toList) ∧
        (' ' ∈ value.toList ∨ (∃ t ∈ subject, t <:+: value.toList) ∨
          ∃ t ∈ orcidAddress, t <+: value.toList) := by
  rw [needsQuotes, needsQuotesChars, Bool.and_eq_true, Bool.or_eq_true, Bool.or_eq_true,
    Bool.not_eq_true', ← Bool.not_eq_true, anySuffix_iff_exists fun _ => startsWithTimestamp_iff,
    anySuffix_iff_exists fun _ => startsWithSubject_iff, startsWithClasses_iff, ofClasses_orcid,
    List.contains_iff_mem, StartsWith, or_assoc]

/-- The first mark does not lead to a distinguished name, since a gap ends at a line break. -/
example : needsQuotes "uid=jd\ncn=jdoe=x,dc=org" = true := by
  decide

/-- A timestamp overrides the space, also with digits of another script. -/
example : needsQuotes "[२००१-01-01T00:00:00Z TO *]" = false := by
  decide +kernel

end FacetedSearch.Clause
