import FacetedSearch.Proofs.Clause.UrlTerm

/-!
# Written values

A value that is not blank is written as its encoded and escaped text between two equal frames: quote
marks, wildcards or nothing. In a URL the text is written character by character: each one is
percent-encoded on its own, and a backslash stands in front of those that the query language gives a
meaning and of braces.
-/

namespace FacetedSearch

open Text

namespace Clause

variable {options : ClauseOptions} {value term : String}

/-- What stands in front of a written value and behind it. -/
def frame (options : ClauseOptions) (value : String) : String :=
  if options.forceQuotes || needsQuotes value then options.encoding.quote
  else if options.subtext then "*"
  else ""

theorem formatValue_eq (options : ClauseOptions) (value : String) :
    formatValue options value =
      if trim value = "" then none
      else some (frame options (trim value) ++ options.encoding.encodeEscaped (trim value) ++
        frame options (trim value)) := by
  unfold formatValue frame
  simp only [String.isEmpty_iff]
  split
  · rfl
  · split
    · rfl
    · split
      · rfl
      · simp

/-- Only a blank value is not written. -/
theorem formatValue_eq_none : formatValue options value = none ↔ trim value = "" := by
  rw [formatValue_eq]
  split
  · rename_i hblank
    exact iff_of_true rfl hblank
  · rename_i hfilled
    exact iff_of_false (Option.some_ne_none _) hfilled

theorem formatValue_eq_some :
    formatValue options value = some term ↔
      trim value ≠ "" ∧
        term = frame options (trim value) ++ options.encoding.encodeEscaped (trim value) ++
          frame options (trim value) := by
  rw [formatValue_eq]
  split
  · rename_i hblank
    exact iff_of_false (Option.some_ne_none term).symm fun h => h.1 hblank
  · rename_i hfilled
    rw [Option.some.injEq, eq_comm, and_iff_right hfilled]

theorem frame_of_quoted {value : String}
    (quoted : options.forceQuotes = true ∨ needsQuotes value = true) :
    frame options value = options.encoding.quote := by
  rw [frame, if_pos (by simpa using quoted)]

/-! ## Pieces of a guarded text -/

variable {all spellings : List (List Char)} {p text : List Char} {c : Char}

/-- No spelling starts with a backslash. -/
theorem ne_backslash_of_startsWithAny (h : Independent all) (hsubset : spellings ⊆ all)
    (hhit : StartsWithAny spellings (c :: text)) : c ≠ '\\' := by
  obtain ⟨p, hp, hpre⟩ := hhit
  obtain ⟨first, more, rfl, hfirst⟩ := h.exists_cons (hsubset hp)
  rwa [← (List.cons_prefix_cons.mp hpre).1]

/-- No spelling stands where its first character does not. -/
theorem guardAll_append_of_free {s : List Char} (h : ∀ c ∈ s, ∀ p ∈ spellings, p.head? ≠ some c)
    (filled : ∀ p ∈ spellings, p ≠ []) (t : List Char) :
    guardAll spellings (s ++ t) = s ++ guardAll spellings t := by
  induction s with
  | nil => rfl
  | cons c s ih =>
      rw [List.forall_mem_cons] at h
      have hfree : ¬ StartsWithAny spellings (c :: (s ++ t)) := by
        rintro ⟨p, hp, hpre⟩
        obtain ⟨first, more, rfl⟩ := List.exists_cons_of_ne_nil (filled p hp)
        obtain rfl := (List.cons_prefix_cons.mp hpre).1
        exact h.1 _ hp rfl
      rw [List.cons_append, guardAll, if_neg hfree, ih h.2, List.cons_append]

/-- A spelling gets one backslash. -/
theorem guardAll_append_of_mem (h : Independent spellings) (hp : p ∈ spellings) (t : List Char) :
    guardAll spellings (p ++ t) = '\\' :: p ++ guardAll spellings t := by
  obtain ⟨first, more, rfl, -⟩ := h.exists_cons hp
  have hhit : StartsWithAny spellings (first :: (more ++ t)) :=
    ⟨first :: more, hp, List.prefix_append (first :: more) t⟩
  rw [List.cons_append, guardAll, if_pos hhit, guardAll_append_of_free _ h.filled]
  · rfl
  · intro c hc q hq hhead
    exact h.apart q hq c hhead _ hp hc

end Clause

namespace Encoding

open Clause

theorem toList_encodeEscaped_raw (value : String) :
    (raw.encodeEscaped value).toList = guardAll syntaxSpellings value.toList := by
  rw [encodeEscaped, encode, toList_escape, escapeChars_eq_guardAll]

/-! ## Characters of a URL -/

/-- The characters that get a backslash in a URL. -/
def urlMarks : List Char :=
  ['(', ')', '\x7b', '\x7d', ':', '?']

/-- One character of a value in a URL. -/
def urlChar (c : Char) : List Char :=
  if c ∈ urlMarks then '\\' :: percentChar c else percentChar c

theorem percentChar_mem_of_mem_urlMarks {c : Char} (h : c ∈ urlMarks) :
    percentChar c ∈ syntaxSpellings := by
  have hall : urlMarks.all (percentChar · ∈ syntaxSpellings) = true := by
    decide
  exact of_decide_eq_true (List.all_eq_true.mp hall c h)

/-- The encoded bytes that get a backslash are those of marks. -/
theorem mem_urlMarks_of_percentByte {c : Char} {b : UInt8} (hb : b ∈ String.utf8EncodeChar c)
    (h : percentByte b ∈ syntaxSpellings) : c ∈ urlMarks := by
  have hall : ∀ n < 256, percentByte (UInt8.ofNat n) ∈ syntaxSpellings →
      n < 128 ∧ Char.ofNat n ∈ urlMarks := by
    decide +kernel
  obtain ⟨hascii, hmark⟩ := hall b.toNat b.toNat_lt (by rwa [UInt8.ofNat_toNat])
  rwa [← toNat_eq_of_mem_utf8EncodeChar hb hascii, Char.ofNat_toNat] at hmark

/-- A character that stands for itself starts a spelling only if it is a mark. -/
theorem head?_ne_of_isComponentChar {c : Char} (hcomponent : isComponentChar c = true)
    (hmark : c ∉ urlMarks) : ∀ p ∈ syntaxSpellings, p.head? ≠ some c := by
  have hall : ∀ p ∈ syntaxSpellings,
      (p.head?.all fun c => !isComponentChar c || urlMarks.contains c) = true := by
    decide
  intro p hp hhead
  have hfirst := hall p hp
  rw [hhead, Option.all_some, hcomponent, Bool.not_true, Bool.false_or,
    List.contains_iff_mem] at hfirst
  exact hmark hfirst

theorem upperHex_not_mem_urlMarks {n : Nat} (h : n < 16) : upperHex n ∉ urlMarks := by
  have hall : ∀ n < 16, upperHex n ∉ urlMarks := by
    decide
  exact hall n h

theorem guardAll_percentByte_append {b : UInt8} (h : percentByte b ∉ syntaxSpellings)
    (t : List Char) :
    guardAll syntaxSpellings (percentByte b ++ t) =
      percentByte b ++ guardAll syntaxSpellings t := by
  have hfree : ¬ StartsWithAny syntaxSpellings (percentByte b ++ t) := by
    rintro ⟨p, hp, hpre⟩
    -- A spelling that starts with a percent sign is as long as an encoded byte.
    have hlength : ∀ p ∈ syntaxSpellings, p.head? = some '%' → p.length = 3 := by
      decide
    obtain ⟨first, more, rfl, -⟩ := independent_syntaxSpellings.exists_cons hp
    obtain rfl := (List.cons_prefix_cons.mp hpre).1
    have hsame : '%' :: more = percentByte b :=
      (List.prefix_of_prefix_length_le hpre (List.prefix_append _ t)
        (Nat.le_of_eq (hlength _ hp rfl))).eq_of_length (hlength _ hp rfl)
    exact h (hsame ▸ hp)
  have hdigit : ∀ n < 16, ∀ p ∈ syntaxSpellings, p.head? ≠ some (upperHex n) := fun n hn =>
    head?_ne_of_isComponentChar (isComponentChar_upperHex hn) (upperHex_not_mem_urlMarks hn)
  rw [percentByte, List.cons_append] at hfree ⊢
  rw [guardAll, if_neg hfree, guardAll_append_of_free
    (forall_mem_digits hdigit b) independent_syntaxSpellings.filled]
  rfl

theorem guardAll_flatMap_percentByte_append {bytes : List UInt8}
    (h : ∀ b ∈ bytes, percentByte b ∉ syntaxSpellings) (t : List Char) :
    guardAll syntaxSpellings (bytes.flatMap percentByte ++ t) =
      bytes.flatMap percentByte ++ guardAll syntaxSpellings t := by
  induction bytes with
  | nil => rfl
  | cons b bytes ih =>
      rw [List.forall_mem_cons] at h
      rw [List.flatMap_cons, List.append_assoc, guardAll_percentByte_append h.1, ih h.2,
        List.append_assoc]

theorem guardAll_percentChar_append (c : Char) (t : List Char) :
    guardAll syntaxSpellings (percentChar c ++ t) = urlChar c ++ guardAll syntaxSpellings t := by
  rw [urlChar]
  split
  · rename_i hmark
    exact guardAll_append_of_mem independent_syntaxSpellings
      (percentChar_mem_of_mem_urlMarks hmark) t
  · rename_i hmark
    rw [percentChar]
    split
    · rename_i hcomponent
      apply guardAll_append_of_free _ independent_syntaxSpellings.filled
      rw [List.forall_mem_singleton]
      exact head?_ne_of_isComponentChar hcomponent hmark
    · exact guardAll_flatMap_percentByte_append
        (fun b hb hspelling => hmark (mem_urlMarks_of_percentByte hb hspelling)) t

/-- A value in a URL is written character by character. -/
theorem toList_encodeEscaped_url_eq (v : String) :
    (url.encodeEscaped v).toList = v.toList.flatMap urlChar := by
  rw [toList_encodeEscaped_url]
  induction v.toList with
  | nil => rfl
  | cons c s ih => rw [percentChars_cons, guardAll_percentChar_append, ih, List.flatMap_cons]

end Encoding

namespace Clause

open Encoding

variable {options : ClauseOptions} {value term : String}

/-! ## What a written value holds -/

theorem guardAll_eq_nil {spellings : List (List Char)} {text : List Char} :
    guardAll spellings text = [] ↔ text = [] := by
  cases text with
  | nil => simp [guardAll]
  | cons c rest =>
      rw [guardAll]
      split <;> simp

theorem percentChars_eq_nil {s : List Char} : percentChars s = [] ↔ s = [] := by
  refine ⟨fun h => ?_, fun h => by rw [h, percentChars_nil]⟩
  have hread := decodePercent?_percentChars s
  rw [h, ← percentChars_nil, decodePercent?_percentChars, Option.some.injEq] at hread
  exact hread.symm

/-- A value that is not blank leaves a text. -/
theorem formatValue_ne_empty (h : formatValue options value = some term) : term ≠ "" := by
  obtain ⟨hfilled, rfl⟩ := formatValue_eq_some.mp h
  have htext : options.encoding.encodeEscaped (trim value) ≠ "" := by
    rw [Ne, ← String.toList_eq_nil_iff] at hfilled ⊢
    cases options.encoding with
    | url => rwa [toList_encodeEscaped_url, guardAll_eq_nil, percentChars_eq_nil]
    | raw => rwa [toList_encodeEscaped_raw, guardAll_eq_nil]
  intro hempty
  rw [String.append_eq_empty_iff, String.append_eq_empty_iff] at hempty
  exact htext hempty.1.2

section Url

variable (url : options.encoding = .url)

include url

/-- In a URL the frame of a value is a percent-encoded quote mark or a wildcard. -/
theorem mem_frame {c : Char} (h : c ∈ (frame options value).toList) :
    c = '%' ∨ isComponentChar c = true := by
  have hquote : "%22".toList.all (fun c => c == '%' || isComponentChar c) = true := by
    decide
  have hwildcard : "*".toList.all (fun c => c == '%' || isComponentChar c) = true := by
    decide
  unfold frame at h
  rw [url] at h
  split at h
  · simpa using List.all_eq_true.mp hquote c h
  · split at h
    · simpa using List.all_eq_true.mp hwildcard c h
    · simp at h

/-- In a URL a written value holds characters of a URL component, percent signs and backslashes. -/
theorem not_mem_of_formatValue (h : formatValue options value = some term) {c : Char}
    (hc : isComponentChar c = false) (hpercent : c ≠ '%') (hback : c ≠ '\\') :
    c ∉ term.toList := by
  obtain ⟨-, rfl⟩ := formatValue_eq_some.mp h
  have hframe : c ∉ (frame options (trim value)).toList := by
    intro hmem
    rcases mem_frame url hmem with rfl | hcomponent
    · exact hpercent rfl
    · simp [hc] at hcomponent
  rw [url, String.toList_append, String.toList_append, List.mem_append, List.mem_append, not_or,
    not_or, toList_encodeEscaped_url]
  refine ⟨⟨hframe, fun hmem => ?_⟩, hframe⟩
  rcases mem_guardAll hmem with rfl | hmem
  · exact hback rfl
  · exact not_mem_percentChars hc hpercent _ hmem

end Url

end Clause

end FacetedSearch
