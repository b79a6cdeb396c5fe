import FacetedSearch.Proofs.Clause.Value
import Mathlib.Data.List.Pairwise

/-!
# One value on two ways to the index

A value travels percent-encoded in a URL and as it is in the body of a request. The same spellings
of the query syntax get a backslash on both ways, in the encoded text on the one and in the plain
text on the other. A colon, a question mark or a parenthesis has its backslash on both. A brace has
it in a URL only, where it is spelled `%7B` or `%7D`; and a value that spells an encoded mark itself
has it in a body only, since its percent sign is encoded in a URL. Without such a spelling both ways
say the same, and with one they never do.
-/

namespace FacetedSearch

open Text

namespace Clause

/-! ## Two guarded texts -/

section Guards

variable {all first second : List (List Char)} {p q text : List Char}

/-- Only one of the spellings stands at a place. -/
theorem Independent.eq_of_isPrefix (h : Independent all) (hp : p ∈ all) (hq : q ∈ all)
    (hp_pre : p <+: text) (hq_pre : q <+: text) : p = q := by
  have hsymm : Std.Symm fun p q : List Char => ¬ p <+: q ∧ ¬ q <+: p :=
    ⟨fun _ _ h => ⟨h.2, h.1⟩⟩
  by_contra hne
  obtain ⟨hpq, hqp⟩ := h.unordered.forall hp hq hne
  rcases List.prefix_or_prefix_of_prefix hp_pre hq_pre with h | h
  · exact hpq h
  · exact hqp h

theorem startsWithAny_iff_startsWithAny (h : Independent all) (hfirst : first ⊆ all)
    (hsecond : second ⊆ all) :
    (StartsWithAny first text ↔ StartsWithAny second text) ↔
      ∀ p ∈ all, p <+: text → (p ∈ first ↔ p ∈ second) := by
  constructor
  · intro hsame p hp hpre
    constructor
    · intro hmem
      obtain ⟨q, hq, hq_pre⟩ := hsame.mp ⟨p, hmem, hpre⟩
      rwa [h.eq_of_isPrefix hp (hsecond hq) hpre hq_pre]
    · intro hmem
      obtain ⟨q, hq, hq_pre⟩ := hsame.mpr ⟨p, hmem, hpre⟩
      rwa [h.eq_of_isPrefix hp (hfirst hq) hpre hq_pre]
  · intro hsame
    constructor
    · rintro ⟨p, hp, hpre⟩
      exact ⟨p, (hsame p (hfirst hp) hpre).mp hp, hpre⟩
    · rintro ⟨p, hp, hpre⟩
      exact ⟨p, (hsame p (hsecond hp) hpre).mpr hp, hpre⟩

/-- The first character of a spelling is no backslash, so a backslash in front of it shows. -/
theorem guardAll_cons_eq_guardAll_cons_iff (h : Independent all) (hfirst : first ⊆ all)
    (hsecond : second ⊆ all) (c : Char) (rest : List Char) :
    guardAll first (c :: rest) = guardAll second (c :: rest) ↔
      (StartsWithAny first (c :: rest) ↔ StartsWithAny second (c :: rest)) ∧
        guardAll first rest = guardAll second rest := by
  rw [guardAll, guardAll]
  by_cases hleft : StartsWithAny first (c :: rest) <;>
    by_cases hright : StartsWithAny second (c :: rest)
  · simp [hleft, hright]
  · simp [hleft, hright, (ne_backslash_of_startsWithAny h hfirst hleft).symm]
  · simp [hleft, hright, ne_backslash_of_startsWithAny h hsecond hright]
  · simp [hleft, hright]

/-- Two guarded texts are the same when no spelling stands in the text that only one of them
guards. -/
theorem guardAll_eq_guardAll_iff (h : Independent all) (hfirst : first ⊆ all)
    (hsecond : second ⊆ all) (text : List Char) :
    guardAll first text = guardAll second text ↔
      ∀ p ∈ all, p <:+: text → (p ∈ first ↔ p ∈ second) := by
  induction text with
  | nil =>
      refine iff_of_true rfl ?_
      intro p hp hinfix
      exact absurd (List.infix_nil.mp hinfix) (h.filled p hp)
  | cons c rest ih =>
      rw [guardAll_cons_eq_guardAll_cons_iff h hfirst hsecond,
        startsWithAny_iff_startsWithAny h hfirst hsecond, ih, ← forall₂_and]
      simp only [List.infix_cons_iff, or_imp]

end Guards

end Clause

namespace Encoding

open Clause

/-! ## Reading a value in a URL -/

/-- The marks of a URL as spellings. -/
def plainMarks : List (List Char) :=
  urlMarks.map fun c => [c]

theorem startsWithAny_plainMarks {c : Char} {rest : List Char} :
    StartsWithAny plainMarks (c :: rest) ↔ c ∈ urlMarks := by
  simp [StartsWithAny, plainMarks]

theorem percentBytes?_urlChar_append (c : Char) (rest : List Char) :
    percentBytes? (urlChar c ++ rest) =
      (percentBytes? rest).map
        ((if c ∈ urlMarks then ['\\', c] else [c]).flatMap String.utf8EncodeChar ++ ·) := by
  rw [urlChar]
  split
  · rw [List.cons_append, percentBytes?_cons_of_ne (by decide), percentBytes?_percentChar_append,
      Option.map_map]
    simp [Function.comp_def]
  · simpa using percentBytes?_percentChar_append c rest

/-- Read back, a value in a URL has a backslash in front of each of its marks. -/
theorem percentBytes?_flatMap_urlChar_append (s rest : List Char) :
    percentBytes? (s.flatMap urlChar ++ rest) =
      (percentBytes? rest).map ((guardAll plainMarks s).flatMap String.utf8EncodeChar ++ ·) := by
  induction s with
  | nil => simp [guardAll]
  | cons c s ih =>
      rw [List.flatMap_cons, List.append_assoc, percentBytes?_urlChar_append, ih, Option.map_map,
        guardAll]
      simp only [startsWithAny_plainMarks]
      split <;> simp [Function.comp_def]

end Encoding

namespace Clause

open Encoding

/-- The way a value travels. -/
def onWay (options : ClauseOptions) (encoding : Encoding) : ClauseOptions :=
  { options with encoding }

@[simp] theorem encoding_onWay (options : ClauseOptions) (encoding : Encoding) :
    (onWay options encoding).encoding = encoding := rfl

/-- The frame of a value is encoded like a value. -/
theorem toList_frame_url (options : ClauseOptions) (value : String) :
    (frame (onWay options .url) value).toList =
      percentChars (frame (onWay options .raw) value).toList := by
  have hquote : url.quote.toList = percentChars raw.quote.toList := by
    decide
  unfold frame onWay
  split
  · exact hquote
  · split <;> decide

/-- A value in a URL is read as its frame and its text with a backslash in front of each mark. -/
theorem decodePercent?_framed (options : ClauseOptions) (value : String) :
    decodePercent? (frame (onWay options .url) value ++ url.encodeEscaped value ++
        frame (onWay options .url) value).toList =
      some ((frame (onWay options .raw) value).toList ++ guardAll plainMarks value.toList ++
        (frame (onWay options .raw) value).toList) := by
  apply decodePercent?_of_bytes
  have hbehind := percentBytes?_percentChars_append (frame (onWay options .raw) value).toList []
  rw [List.append_nil] at hbehind
  rw [String.toList_append, String.toList_append, toList_frame_url, toList_encodeEscaped_url_eq,
    List.append_assoc, percentBytes?_percentChars_append, percentBytes?_flatMap_urlChar_append,
    hbehind]
  simp [percentBytes?]

/-- The spellings that get a backslash on one way only. -/
def oneSidedSpellings : List String :=
  ["\x7b", "\x7d", "%7B", "%7D", "%3A", "%3F"]

/-- The spellings that get a backslash on either way. -/
def allSpellings : List (List Char) :=
  syntaxSpellings ++ [['\x7b'], ['\x7d']]

theorem independent_allSpellings : Independent allSpellings where
  filled := by decide
  unescaped := by decide
  apart := apart_of_all (by decide)
  unordered := by decide

theorem guardAll_plainMarks_eq_iff (text : List Char) :
    guardAll plainMarks text = guardAll syntaxSpellings text ↔
      ∀ spelling ∈ oneSidedSpellings, ¬ spelling.toList <:+: text := by
  rw [guardAll_eq_guardAll_iff independent_allSpellings (by decide) (by decide)]
  have hsided : ∀ p ∈ allSpellings,
      (p ∈ plainMarks ↔ p ∈ syntaxSpellings) ↔ p ∉ oneSidedSpellings.map String.toList := by
    decide
  have hall : ∀ spelling ∈ oneSidedSpellings, spelling.toList ∈ allSpellings := by
    decide
  constructor
  · intro h spelling hspelling hinfix
    exact (hsided _ (hall spelling hspelling)).mp (h _ (hall spelling hspelling) hinfix)
      (List.mem_map_of_mem hspelling)
  · intro h p hp hinfix
    rw [hsided p hp]
    rintro hmem
    obtain ⟨spelling, hspelling, rfl⟩ := List.mem_map.mp hmem
    exact h spelling hspelling hinfix

/-- A value is written on both ways or on none, and both say the same exactly when the value has
none of the spellings that get a backslash on one way only. -/
theorem formatValue_url_eq_raw_iff (options : ClauseOptions) (value : String) :
    (formatValue (onWay options .url) value = none ↔ trim value = "") ∧
      (formatValue (onWay options .raw) value = none ↔ trim value = "") ∧
      ((formatValue (onWay options .url) value).map (decodePercent? ·.toList) =
          (formatValue (onWay options .raw) value).map (some ·.toList) ↔
        ∀ spelling ∈ oneSidedSpellings, ¬ spelling.toList <:+: (trim value).toList) := by
  refine ⟨formatValue_eq_none, formatValue_eq_none, ?_⟩
  rw [← guardAll_plainMarks_eq_iff, formatValue_eq, formatValue_eq]
  split
  · rename_i hblank
    rw [hblank]
    exact iff_of_true rfl rfl
  · rw [Option.map_some, Option.map_some, Option.some.injEq, encoding_onWay, encoding_onWay,
      decodePercent?_framed, String.toList_append, String.toList_append, toList_encodeEscaped_raw,
      Option.some.injEq, List.append_left_inj, List.append_right_inj]

/-- An opening brace has its backslash in a URL only. -/
theorem brace_differs :
    formatValue (onWay {} .url) "\x7b" = some "\\%7B" ∧
      formatValue (onWay {} .raw) "\x7b" = some "\x7b" ∧
      decodePercent? "\\%7B".toList ≠ some "\x7b".toList := by
  refine ⟨by decide +kernel, by decide +kernel, by decide +kernel⟩

end Clause

end FacetedSearch
