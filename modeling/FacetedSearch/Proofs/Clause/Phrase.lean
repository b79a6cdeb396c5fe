import FacetedSearch.Proofs.Clause.Value
import FacetedSearch.Proofs.Text.Backslash

/-!
# What a value leaves bare

Escaping puts a backslash in front of each mark of the query language without a look at what stands
there already. In a URL the backslashes of the value itself are encoded, so every mark is escaped.
In a body they are not: behind an open backslash of the value the new one is escaped, and the mark
is bare. So a written value leaves bare exactly the marks that were escaped in the value.

Quote marks and backslashes are no such marks. A value in quotes is one phrase as long as it has no
quote mark that is bare where it is written, and no open backslash in front of the closing mark.
-/

namespace FacetedSearch

open Text

namespace Clause

/-! ## Guarded texts -/

section Guards

variable {spellings : List (List Char)} {text : List Char} {escaped : Bool} {c : Char}

/-- The backslashes of a guarded text are not its last characters. -/
theorem leavesOpen_guardAll (h : Independent spellings) (escaped : Bool) (text : List Char) :
    leavesOpen escaped (guardAll spellings text) = leavesOpen escaped text := by
  induction text generalizing escaped with
  | nil => rfl
  | cons c rest ih =>
      rw [guardAll]
      split
      · rename_i hhit
        have hback := beq_false_of_ne (ne_backslash_of_startsWithAny h (List.Subset.refl _) hhit)
        cases escaped <;> simp [hback, ih]
      · cases escaped <;> simp [ih]

/-- A mark that is guarded everywhere is left bare where it was escaped. -/
theorem filter_bareChars_guardAll (h : Independent spellings) {isMark : Char → Bool}
    (hmarks : ∀ c, isMark c = true → [c] ∈ spellings) (escaped : Bool) (text : List Char) :
    (bareChars escaped (guardAll spellings text)).filter isMark =
      (escapedChars escaped text).filter isMark := by
  have hbackslash : isMark '\\' = false := by
    rw [Bool.eq_false_iff]
    exact fun hmark => h.unescaped _ (hmarks '\\' hmark) List.mem_cons_self
  induction text generalizing escaped with
  | nil => simp [guardAll]
  | cons c rest ih =>
      rw [guardAll]
      split
      · rename_i hhit
        have hback := beq_false_of_ne (ne_backslash_of_startsWithAny h (List.Subset.refl _) hhit)
        cases escaped <;> simp [hback, hbackslash, List.filter_cons, ih]
      · rename_i hfree
        have hmark : isMark c = false := by
          rw [Bool.eq_false_iff]
          exact fun hmark => hfree ⟨[c], hmarks c hmark, List.prefix_append [c] rest⟩
        cases escaped <;> simp [hmark, ih]

/-- A character that starts no spelling is as bare as it was. -/
theorem mem_bareChars_guardAll (h : Independent spellings) (hback : c ≠ '\\')
    (hfree : ∀ p ∈ spellings, p.head? ≠ some c) :
    c ∈ bareChars escaped (guardAll spellings text) ↔ c ∈ bareChars escaped text := by
  induction text generalizing escaped with
  | nil => rfl
  | cons d rest ih =>
      rw [guardAll]
      split
      · rename_i hhit
        have hd := beq_false_of_ne (ne_backslash_of_startsWithAny h (List.Subset.refl _) hhit)
        have hne : c ≠ d := by
          rintro rfl
          obtain ⟨p, hp, hpre⟩ := hhit
          obtain ⟨first, more, rfl, -⟩ := h.exists_cons hp
          exact hfree _ hp (congrArg some (List.cons_prefix_cons.mp hpre).1)
        cases escaped <;> simp [hd, hne, hback, ih]
      · cases escaped <;> simp [ih]

end Guards

/-! ## Marks of the query language -/

/-- The marks that the query language gives a meaning and that values may hold. -/
def isQueryMark (c : Char) : Bool :=
  [':', '(', ')', '?'].contains c

/-- The marks of the query language that stand bare in a text, from left to right. -/
def bareMarks (text : String) : List Char :=
  (bareChars false text.toList).filter isQueryMark

theorem isQueryMark_spelling {c : Char} (h : isQueryMark c = true) : [c] ∈ syntaxSpellings := by
  have hall : [':', '(', ')', '?'].all ([·] ∈ syntaxSpellings) = true := by
    decide
  exact of_decide_eq_true (List.all_eq_true.mp hall c (List.contains_iff_mem.mp h))

variable {options : ClauseOptions} {value term : String}

/-- A text without marks of the query language and without backslashes. -/
def isNeutral (s : List Char) : Bool :=
  s.all fun c => !isQueryMark c && c != '\\'

theorem isNeutral_frame (options : ClauseOptions) (value : String) :
    isNeutral (frame options value).toList = true := by
  have hquote : isNeutral options.encoding.quote.toList = true := by
    cases options.encoding <;> decide
  unfold frame
  split
  · exact hquote
  · split <;> decide

theorem backslash_not_mem_of_isNeutral {s : List Char} (h : isNeutral s = true) : '\\' ∉ s := by
  intro hmem
  simpa using List.all_eq_true.mp h _ hmem

theorem filter_bareChars_of_isNeutral {s : List Char} (h : isNeutral s = true) (escaped : Bool) :
    (bareChars escaped s).filter isQueryMark = [] := by
  rw [List.filter_eq_nil_iff]
  intro c hc hmark
  have hplain := List.all_eq_true.mp h c ((bareChars_sublist _ _).subset hc)
  simp [hmark] at hplain

/-- The frame of a value changes nothing about the marks in it. -/
theorem bareMarks_framed (options : ClauseOptions) (value text : String) :
    bareMarks (frame options value ++ text ++ frame options value) = bareMarks text := by
  have hplain := isNeutral_frame options value
  rw [bareMarks, String.toList_append, String.toList_append, bareChars_append, bareChars_append,
    List.filter_append, List.filter_append,
    leavesOpen_of_not_mem (backslash_not_mem_of_isNeutral hplain),
    filter_bareChars_of_isNeutral hplain, filter_bareChars_of_isNeutral hplain, List.nil_append,
    List.append_nil, bareMarks]

/-- A written value leaves no mark bare in a URL, and in a body those that are escaped in the value
itself. -/
theorem bareMarks_formatValue (h : formatValue options value = some term) :
    bareMarks term =
      match options.encoding with
      | .url => []
      | .raw => (escapedChars false (trim value).toList).filter isQueryMark := by
  obtain ⟨-, rfl⟩ := formatValue_eq_some.mp h
  rw [bareMarks_framed, bareMarks]
  cases options.encoding with
  | url =>
      rw [Encoding.toList_encodeEscaped_url, filter_bareChars_guardAll independent_syntaxSpellings
        (fun _ => isQueryMark_spelling),
        escapedChars_of_not_mem (Encoding.backslash_not_mem_percentChars _)]
      rfl
  | raw =>
      rw [Encoding.toList_encodeEscaped_raw, filter_bareChars_guardAll independent_syntaxSpellings
        (fun _ => isQueryMark_spelling)]

/-- A colon with a backslash of its own and a parenthesis without one. -/
theorem bareMarks_formatValue_escapedColon :
    formatValue { encoding := .raw } "a\\:(b" = some "a\\\\:\\(b" ∧
      bareMarks "a\\\\:\\(b" = [':'] := by
  have hformat : formatValue { encoding := .raw } "a\\:(b" = some "a\\\\:\\(b" := by
    decide +kernel
  refine ⟨hformat, ?_⟩
  rw [bareMarks_formatValue hformat]
  decide +kernel

/-- The backslash of a value in a body takes away the one that escapes the colon behind it. -/
theorem escaped_colon_left_bare :
    formatValue { encoding := .raw } "\\:" = some "\\\\:" ∧ bareMarks "\\\\:" = [':'] := by
  refine ⟨by decide +kernel, by decide +kernel⟩

end Clause

namespace Encoding

open Clause

/-! ## Quote marks in a URL -/

variable {c : Char} {b : UInt8}

theorem percentByte_injective {other : UInt8} (h : percentByte b = percentByte other) :
    b = other := by
  have hb := percentBytes?_percentByte_append b []
  rw [h, percentBytes?_percentByte_append other []] at hb
  simpa [percentBytes?] using hb.symm

/-- A character that stands for itself neither starts a percent-encoded byte nor escapes. -/
theorem markedTails_component_append {s : List Char} (h : ∀ c ∈ s, isComponentChar c = true)
    (t : List Char) :
    markedTails ['%', '2', '2'] false (s ++ t) = markedTails ['%', '2', '2'] false t := by
  apply markedTails_append_of_not_mem
  · exact fun hmem => absurd (h _ hmem) (by decide)
  · exact fun hmem => absurd (h _ hmem) (by decide)

/-- An encoded byte other than that of a quote mark brings no quote mark. -/
theorem markedTails_percentByte_append (h : b ≠ 0x22) (t : List Char) :
    markedTails ['%', '2', '2'] false (percentByte b ++ t) =
      markedTails ['%', '2', '2'] false t := by
  have hmark : ¬ ['%', '2', '2'] <+: percentByte b ++ t := by
    intro hpre
    have hquote : ['%', '2', '2'] = percentByte b :=
      (List.prefix_of_prefix_length_le hpre (List.prefix_append _ t) (Nat.le_refl 3)).eq_of_length
        rfl
    exact h (percentByte_injective hquote.symm)
  rw [percentByte, List.cons_append] at hmark ⊢
  rw [markedTails_bare_of_not_isPrefix hmark]
  exact markedTails_component_append
    (forall_mem_digits (fun _ hn => isComponentChar_upperHex hn) b) t

theorem markedTails_flatMap_percentByte_append {bytes : List UInt8} (h : 0x22 ∉ bytes)
    (t : List Char) :
    markedTails ['%', '2', '2'] false (bytes.flatMap percentByte ++ t) =
      markedTails ['%', '2', '2'] false t := by
  induction bytes with
  | nil => rfl
  | cons b bytes ih =>
      rw [List.mem_cons, not_or] at h
      rw [List.flatMap_cons, List.append_assoc, markedTails_percentByte_append (Ne.symm h.1),
        ih h.2]

theorem markedTails_percentChar_append (h : c ≠ '"') (t : List Char) :
    markedTails ['%', '2', '2'] false (percentChar c ++ t) =
      markedTails ['%', '2', '2'] false t := by
  rw [percentChar]
  split
  · rename_i hcomponent
    exact markedTails_component_append (List.forall_mem_singleton.mpr hcomponent) t
  · apply markedTails_flatMap_percentByte_append
    intro hbyte
    have hcode := toNat_eq_of_mem_utf8EncodeChar hbyte (by decide)
    exact h (Char.toNat_inj.mp hcode)

/-- Of the characters of a value in a URL only a quote mark brings a quote mark. -/
theorem markedTails_urlChar_append (h : c ≠ '"') (t : List Char) :
    markedTails ['%', '2', '2'] false (urlChar c ++ t) = markedTails ['%', '2', '2'] false t := by
  rw [urlChar]
  split
  · rename_i hmark
    have hguarded : urlMarks.all (fun c =>
        percentChar c != [] && (percentChar c).tail.all isComponentChar) = true := by
      decide
    have hchar := List.all_eq_true.mp hguarded c hmark
    rw [Bool.and_eq_true, bne_iff_ne, List.all_eq_true] at hchar
    obtain ⟨hfilled, hrest⟩ := hchar
    obtain ⟨first, more, hsplit⟩ := List.exists_cons_of_ne_nil hfilled
    rw [hsplit] at hrest ⊢
    rw [List.cons_append, markedTails_bare_of_not_isPrefix (by simp [List.cons_prefix_cons]),
      beq_self_eq_true, List.cons_append, markedTails_escaped]
    exact markedTails_component_append hrest t
  · exact markedTails_percentChar_append h t

/-- A value in a URL has a bare quote mark for each quote mark of its own. -/
theorem markedTails_flatMap_urlChar_eq_nil {s : List Char} :
    markedTails ['%', '2', '2'] false (s.flatMap urlChar) = [] ↔ '"' ∉ s := by
  induction s with
  | nil => simp
  | cons c s ih =>
      rw [List.flatMap_cons, List.mem_cons, not_or]
      by_cases hquote : c = '"'
      · have hmark : urlChar c = ['%', '2', '2'] := by
          rw [hquote]
          decide
        rw [hmark, markedTails_mark_append (by decide) (by decide)]
        simp [hquote]
      · rw [markedTails_urlChar_append hquote, ih, and_iff_right (Ne.symm hquote)]

theorem leavesOpen_encodeEscaped_url (v : String) :
    leavesOpen false (url.encodeEscaped v).toList = false := by
  rw [toList_encodeEscaped_url, leavesOpen_guardAll independent_syntaxSpellings,
    leavesOpen_of_not_mem (backslash_not_mem_percentChars _)]

end Encoding

namespace Clause

open Encoding

/-! ## Phrases -/

/-- A value in quotes is one phrase in a URL when it has no quote mark, and in a body when each of
its quote marks is escaped and its last character is not a backslash that escapes. -/
theorem onePhrase_formatValue_iff {options : ClauseOptions} {value term : String}
    (h : formatValue options value = some term)
    (quoted : options.forceQuotes = true ∨ needsQuotes (trim value) = true) :
    OnePhrase options.encoding.quote term ↔
      match options.encoding with
      | .url => '"' ∉ (trim value).toList
      | .raw => '"' ∉ bareChars false (trim value).toList ∧
          leavesOpen false (trim value).toList = false := by
  obtain ⟨-, rfl⟩ := formatValue_eq_some.mp h
  rw [frame_of_quoted quoted]
  cases options.encoding with
  | url =>
      have hmark : url.quote.toList = ['%', '2', '2'] := rfl
      rw [onePhrase_quoted_iff (by decide) (by decide) hmark, hmark, toList_encodeEscaped_url_eq,
        markedTails_flatMap_urlChar_eq_nil, ← toList_encodeEscaped_url_eq,
        leavesOpen_encodeEscaped_url, and_iff_left rfl]
  | raw =>
      have hmark : raw.quote.toList = ['"'] := rfl
      rw [onePhrase_quoted_iff (by decide) (by decide) hmark, hmark, toList_encodeEscaped_raw,
        markedTails_singleton_eq_nil, leavesOpen_guardAll independent_syntaxSpellings,
        mem_bareChars_guardAll independent_syntaxSpellings (by decide) (by decide)]

/-- Quote marks with a backslash in front of them stay within the phrase. -/
theorem onePhrase_formatValue_escapedQuotes :
    needsQuotes (trim "the \\\"red\\\" list") = true ∧
      formatValue { encoding := .raw } "the \\\"red\\\" list" =
        some "\"the \\\"red\\\" list\"" ∧
      OnePhrase "\"" "\"the \\\"red\\\" list\"" := by
  have hquoted : needsQuotes (trim "the \\\"red\\\" list") = true := by
    decide +kernel
  have hformat : formatValue { encoding := .raw } "the \\\"red\\\" list" =
      some "\"the \\\"red\\\" list\"" := by
    decide +kernel
  exact ⟨hquoted, hformat, (onePhrase_formatValue_iff hformat (Or.inr hquoted)).mpr
    ⟨by decide +kernel, by decide +kernel⟩⟩

/-- A quote mark within a value ends its phrase, in a body and in a URL. -/
theorem quote_ends_phrase :
    formatValue { encoding := .raw } "a \"b" = some "\"a \"b\"" ∧
      ¬ OnePhrase "\"" "\"a \"b\"" ∧
      formatValue { encoding := .url } "a \"b" = some "%22a%20%22b%22" ∧
      ¬ OnePhrase "%22" "%22a%20%22b%22" := by
  refine ⟨by decide +kernel, by decide +kernel, by decide +kernel, by decide +kernel⟩

end Clause

end FacetedSearch
