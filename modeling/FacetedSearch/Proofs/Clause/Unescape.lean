import FacetedSearch.Proofs.Clause.Escape

/-!
# Escaping undone

An escaped text has the spellings of the query syntax where the text has them, each behind one
backslash more. So the backslashes are found again: without the character in front of each spelling
an escaped text is the text that was escaped, whatever backslashes it has of its own.
-/

namespace FacetedSearch.Clause

variable {spellings : List (List Char)} {p text : List Char}

/-! ## Occurrences -/

/-- How often a spelling stands in a text. -/
def occurrences (spelling text : List Char) : Nat :=
  text.tails.countP (spelling <+: ·)

theorem occurrences_nil (hp : p ≠ []) : occurrences p [] = 0 := by
  simp [occurrences, hp]

theorem occurrences_cons (p : List Char) (c : Char) (rest : List Char) :
    occurrences p (c :: rest) = occurrences p rest + if p <+: c :: rest then 1 else 0 := by
  simp [occurrences, List.countP_cons]

/-- How often the spellings stand in a text, all together. -/
def occurrencesOf : List (List Char) → List Char → Nat
  | [], _ => 0
  | p :: spellings, text => occurrences p text + occurrencesOf spellings text

theorem occurrencesOf_nil (filled : ∀ p ∈ spellings, p ≠ []) : occurrencesOf spellings [] = 0 := by
  induction spellings with
  | nil => rfl
  | cons p spellings ih =>
      rw [List.forall_mem_cons] at filled
      rw [occurrencesOf, occurrences_nil filled.1, ih filled.2]

theorem occurrencesOf_cons (spellings : List (List Char)) (c : Char) (rest : List Char) :
    occurrencesOf spellings (c :: rest) =
      occurrencesOf spellings rest + spellings.countP (· <+: c :: rest) := by
  induction spellings with
  | nil => rfl
  | cons p spellings ih =>
      rw [occurrencesOf, occurrencesOf, occurrences_cons, ih, List.countP_cons]
      simp only [decide_eq_true_eq]
      omega

/-- Of spellings none of which starts another, one at most stands at a place. -/
theorem countP_isPrefix (unordered : spellings.Pairwise fun p q => ¬ p <+: q ∧ ¬ q <+: p)
    (text : List Char) :
    spellings.countP (· <+: text) = if StartsWithAny spellings text then 1 else 0 := by
  induction spellings with
  | nil => simp [StartsWithAny]
  | cons p spellings ih =>
      obtain ⟨hfirst, hrest⟩ := List.pairwise_cons.mp unordered
      rw [List.countP_cons, ih hrest]
      by_cases hp : p <+: text
      · have hother : ¬ StartsWithAny spellings text := by
          rintro ⟨q, hq, hq_pre⟩
          rcases List.prefix_or_prefix_of_prefix hp hq_pre with hpq | hqp
          · exact (hfirst q hq).1 hpq
          · exact (hfirst q hq).2 hqp
        rw [if_neg hother, if_pos (decide_eq_true hp), if_pos ⟨p, List.mem_cons_self, hp⟩]
      · have hother : StartsWithAny (p :: spellings) text ↔ StartsWithAny spellings text := by
          simp [StartsWithAny, hp]
        simp only [hother, hp, decide_false, Bool.false_eq_true, if_false, Nat.add_zero]

/-! ## Guarded texts -/

/-- At the start of a guarded text no spelling stands: it would have its backslash there. -/
theorem not_startsWithAny_guardAll (h : Independent spellings) (text : List Char) :
    ¬ StartsWithAny spellings (guardAll spellings text) := by
  rintro ⟨p, hp, hpre⟩
  obtain ⟨after, hsplit⟩ := hpre
  have hbackslash : ([] : List Char).getLast? = some '\\' :=
    backslash_before_spelling h hp hsplit.symm
  simp at hbackslash

/-- Guarding neither makes nor breaks a spelling. -/
theorem occurrences_guardAll (h : Independent spellings) (hp : p ∈ spellings)
    (text : List Char) : occurrences p (guardAll spellings text) = occurrences p text := by
  induction text with
  | nil => rfl
  | cons c rest ih =>
      have hguarded : occurrences p (c :: guardAll spellings rest) = occurrences p (c :: rest) := by
        simp only [occurrences_cons, ih, isPrefix_cons_guardAll_of_mem h hp]
      rw [guardAll]
      split
      · obtain ⟨first, more, rfl, hfirst⟩ := h.exists_cons hp
        have hbackslash : ¬ first :: more <+: '\\' :: c :: guardAll spellings rest := by
          rw [List.cons_prefix_cons]
          exact fun hpre => hfirst hpre.1
        rw [occurrences_cons, if_neg hbackslash, hguarded, Nat.add_zero]
      · exact hguarded

/-- Guarding adds one character for each spelling that stands in the text. -/
theorem length_guardAll (h : Independent spellings) (text : List Char) :
    (guardAll spellings text).length = text.length + occurrencesOf spellings text := by
  induction text with
  | nil => rw [guardAll, occurrencesOf_nil h.filled, Nat.add_zero]
  | cons c rest ih =>
      rw [guardAll, occurrencesOf_cons, countP_isPrefix h.unordered]
      split
      · simp only [List.length_cons, ih]
        omega
      · simp only [List.length_cons, ih]
        omega

/-- Drop the character in front of each place where one of the spellings stands. -/
def unguardAll (spellings : List (List Char)) : List Char → List Char
  | [] => []
  | c :: rest =>
    if StartsWithAny spellings rest then unguardAll spellings rest
    else c :: unguardAll spellings rest

theorem unguardAll_guardAll (h : Independent spellings) (text : List Char) :
    unguardAll spellings (guardAll spellings text) = text := by
  induction text with
  | nil => rfl
  | cons c rest ih =>
      have hkept : unguardAll spellings (c :: guardAll spellings rest) = c :: rest := by
        rw [unguardAll, if_neg (not_startsWithAny_guardAll h rest), ih]
      rw [guardAll]
      split
      · rename_i hhit
        rw [unguardAll, if_pos ((startsWithAny_cons_guardAll_iff h rest).mpr hhit), hkept]
      · exact hkept

/-! ## Escaped texts -/

theorem toList_escape_eq_guardAll (term : String) :
    (escape term).toList = guardAll syntaxSpellings term.toList := by
  rw [toList_escape, escapeChars_eq_guardAll]

theorem unguardAll_escape (term : String) :
    unguardAll syntaxSpellings (escape term).toList = term.toList := by
  rw [toList_escape_eq_guardAll, unguardAll_guardAll independent_syntaxSpellings]

/-- Dealing with the spellings one after another comes to one pass over the text, which puts one
backslash in front of each place where one of them stands. All of them stand in the result as often
as in the text, each behind a backslash, and the result is longer by as many characters as there are
such places. Without the character in front of each of them the result is the text again, so no two
texts have the same result. -/
theorem escape_in_one_pass :
    (∀ term : String,
      (escape term).toList = guardAll syntaxSpellings term.toList ∧
      (∀ spelling ∈ escapedSpellings,
        occurrences spelling.toList (escape term).toList =
            occurrences spelling.toList term.toList ∧
          ∀ before after, (escape term).toList = before ++ spelling.toList ++ after →
            before.getLast? = some '\\') ∧
      (escape term).length = term.length + occurrencesOf syntaxSpellings term.toList ∧
      unguardAll syntaxSpellings (escape term).toList = term.toList) ∧
    Function.Injective escape := by
  refine ⟨fun term => ⟨toList_escape_eq_guardAll term, ?_, ?_, unguardAll_escape term⟩, ?_⟩
  · intro spelling hspelling
    have hmem : spelling.toList ∈ syntaxSpellings := List.mem_map_of_mem hspelling
    rw [toList_escape_eq_guardAll]
    exact ⟨occurrences_guardAll independent_syntaxSpellings hmem term.toList, fun _ _ =>
      backslash_before_spelling independent_syntaxSpellings hmem⟩
  · rw [← String.length_toList, ← String.length_toList, toList_escape_eq_guardAll,
      length_guardAll independent_syntaxSpellings]
  · intro term other hsame
    rw [← String.toList_inj, ← unguardAll_escape term, hsame, unguardAll_escape other]

/-- A text with a backslash of its own in front of a colon, and with marks in both spellings. -/
theorem escape_in_one_pass_own_backslash :
    escape "a\\:b%3A(" = "a\\\\:b\\%3A\\(" ∧
      ":" ∈ escapedSpellings ∧
      occurrences ":".toList "a\\\\:b\\%3A\\(".toList = 1 ∧
      "a\\\\:b\\%3A\\(".length = 8 + 3 ∧
      unguardAll syntaxSpellings "a\\\\:b\\%3A\\(".toList = "a\\:b%3A(".toList := by
  have hescape : escape "a\\:b%3A(" = "a\\\\:b\\%3A\\(" := by
    decide +kernel
  have hcolon : ":" ∈ escapedSpellings := by
    decide
  obtain ⟨-, hspellings, hlength, hback⟩ := escape_in_one_pass.1 "a\\:b%3A("
  have hcount := (hspellings ":" hcolon).1
  rw [hescape] at hcount hlength hback
  exact ⟨hescape, hcolon, hcount.trans (by decide +kernel), hlength.trans (by decide +kernel),
    hback⟩

end FacetedSearch.Clause
