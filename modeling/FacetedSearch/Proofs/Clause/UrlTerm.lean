import FacetedSearch.Clause.Basic
import FacetedSearch.Proofs.Clause.Escape
import FacetedSearch.Proofs.Text.Percent

/-!
# Values in a URL

A value in a URL is percent-encoded first and escaped then. Percent-encoding leaves no backslash and
no colon or question mark in it, so the only backslashes are those of the escaping, and they stand
in front of the parentheses and of the encoded marks. Without them the value can be read back,
whatever it looked like: a percent sign of its own is encoded as well.
-/

namespace FacetedSearch.Encoding

open Clause Text

/-- The syntax that a percent-encoded value may still hold. -/
def urlSyntax : List String :=
  ["(", ")", "%7B", "%7D", "%3A", "%3F"]

theorem urlSyntax_subset : urlSyntax ⊆ escapedSpellings := by
  decide

/-- A character outside the class of component characters is encoded. -/
theorem not_mem_percentChars {c : Char} (hc : isComponentChar c = false) (hpercent : c ≠ '%')
    (s : List Char) : c ∉ percentChars s := by
  intro h
  rcases mem_percentChars h with hcomponent | rfl
  · exact absurd hcomponent (by simp [hc])
  · exact hpercent rfl

theorem backslash_not_mem_percentChars (s : List Char) : '\\' ∉ percentChars s :=
  not_mem_percentChars (by decide) (by decide) s

theorem toList_encodeEscaped_url (v : String) :
    (url.encodeEscaped v).toList = guardAll syntaxSpellings (percentChars v.toList) := by
  rw [encodeEscaped, encode, toList_escape, toList_percentEncode, escapeChars_eq_guardAll]

/-- The spelling behind a backslash is one that percent-encoding leaves. -/
theorem urlSyntax_after_backslash {v : String} {before after : List Char}
    (hsplit : (url.encodeEscaped v).toList = before ++ '\\' :: after) :
    ∃ spelling ∈ urlSyntax, spelling.toList <+: after := by
  have hchars : ∀ c ∈ after, c = '\\' ∨ c ∈ percentChars v.toList := by
    intro c hc
    have hmem : c ∈ guardAll syntaxSpellings (percentChars v.toList) := by
      rw [← toList_encodeEscaped_url, hsplit]
      exact List.mem_append_right before (List.mem_cons_of_mem _ hc)
    exact mem_guardAll hmem
  rw [toList_encodeEscaped_url] at hsplit
  obtain ⟨_, hp, hpre⟩ := spelling_after_backslash independent_syntaxSpellings
    (backslash_not_mem_percentChars v.toList) hsplit
  obtain ⟨spelling, hspelling, rfl⟩ := List.mem_map.mp hp
  refine ⟨spelling, ?_, hpre⟩
  -- A colon or a question mark of the value has been encoded, so it cannot stand here.
  have hencoded : ∀ c, isComponentChar c = false → c ≠ '%' → c ≠ '\\' →
      spelling.toList ≠ [c] := by
    intro c hc hpercent hback heq
    rw [heq] at hpre
    rcases hchars c (hpre.subset List.mem_cons_self) with h | h
    · exact hback h
    · exact not_mem_percentChars hc hpercent _ h
  have hcolon := hencoded ':' (by decide) (by decide) (by decide)
  have hquestion := hencoded '?' (by decide) (by decide) (by decide)
  have hcases : ∀ s ∈ escapedSpellings, s ∈ urlSyntax ∨ s.toList = [':'] ∨ s.toList = ['?'] := by
    decide
  rcases hcases spelling hspelling with h | h | h
  · exact h
  · exact absurd h hcolon
  · exact absurd h hquestion

/-- A value in a URL holds only characters of a URL component, percent signs and backslashes. Every
piece of query syntax in it stands behind a backslash, every backslash in front of one, and without
the backslashes the value is read back. -/
theorem encodeEscaped_url_lossless (v : String) :
    (∀ c ∈ (url.encodeEscaped v).toList, isAsciiDigit c = true ∨ isAsciiLetter c = true ∨
        c ∈ componentMarks ∨ c = '%' ∨ c = '\\') ∧
      (∀ spelling ∈ urlSyntax, ∀ before after,
        (url.encodeEscaped v).toList = before ++ spelling.toList ++ after →
          before.getLast? = some '\\') ∧
      (∀ before after, (url.encodeEscaped v).toList = before ++ '\\' :: after →
        ∃ spelling ∈ urlSyntax, spelling.toList <+: after) ∧
      decodePercent? ((url.encodeEscaped v).toList.filter (· != '\\')) = some v.toList := by
  refine ⟨?_, ?_, fun before after => urlSyntax_after_backslash, ?_⟩
  · intro c hc
    rw [toList_encodeEscaped_url] at hc
    rcases mem_guardAll hc with rfl | hc
    · simp
    · rcases mem_percentChars hc with hcomponent | rfl
      · simp only [isComponentChar, Bool.or_eq_true, List.contains_iff_mem] at hcomponent
        tauto
      · simp
  · intro spelling hspelling before after hsplit
    rw [toList_encodeEscaped_url] at hsplit
    exact backslash_before_spelling independent_syntaxSpellings
      (List.mem_map_of_mem (urlSyntax_subset hspelling)) hsplit
  · rw [toList_encodeEscaped_url, filter_guardAll _ (backslash_not_mem_percentChars v.toList),
      decodePercent?_percentChars]

end FacetedSearch.Encoding
