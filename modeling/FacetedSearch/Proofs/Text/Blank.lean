import FacetedSearch.Text.Blank
import Mathlib.Data.List.TakeWhile

/-!
# Trimmed texts

A text is its trimmed text between two blank ones. Blank characters around a text are not seen by
trimming, and a text of nothing else is trimmed to the empty text.
-/

namespace FacetedSearch.Text

section Chars

variable {s front back : List Char}

theorem trimEndChars_append (h : ∀ c ∈ back, isBlank c = true) :
    trimEndChars (s ++ back) = trimEndChars s := by
  have hback : ∀ c ∈ back.reverse, isBlank c = true := by
    simpa using h
  rw [trimEndChars, List.reverse_append, List.dropWhile_append_of_pos hback, trimEndChars]

theorem trimChars_padded (hfront : ∀ c ∈ front, isBlank c = true)
    (hback : ∀ c ∈ back, isBlank c = true) : trimChars (front ++ s ++ back) = trimChars s := by
  rw [trimChars, List.append_assoc, List.dropWhile_append_of_pos hfront, List.dropWhile_append,
    trimChars]
  split
  · rename_i hblank
    rw [List.isEmpty_iff.mp hblank, List.dropWhile_eq_nil_iff.mpr hback]
  · exact trimEndChars_append hback

theorem exists_padded_trimChars (s : List Char) :
    ∃ front back, (∀ c ∈ front, isBlank c = true) ∧ (∀ c ∈ back, isBlank c = true) ∧
      s = front ++ trimChars s ++ back := by
  refine ⟨s.takeWhile isBlank, ((s.dropWhile isBlank).reverse.takeWhile isBlank).reverse,
    fun c => List.mem_takeWhile_imp, ?_, ?_⟩
  · intro c hc
    exact List.mem_takeWhile_imp (List.mem_reverse.mp hc)
  · rw [trimChars, trimEndChars, List.append_assoc, ← List.reverse_append,
      List.takeWhile_append_dropWhile, List.reverse_reverse, List.takeWhile_append_dropWhile]

theorem trimChars_eq_nil : trimChars s = [] ↔ ∀ c ∈ s, isBlank c = true := by
  constructor
  · intro h
    obtain ⟨front, back, hfront, hback, hsplit⟩ := exists_padded_trimChars s
    rw [h, List.append_nil] at hsplit
    rw [hsplit, List.forall_mem_append]
    exact ⟨hfront, hback⟩
  · intro h
    rw [trimChars, List.dropWhile_eq_nil_iff.mpr h]
    rfl

end Chars

/-- A text of blank characters only. -/
def Blank (s : String) : Prop :=
  ∀ c ∈ s.toList, isBlank c = true

variable {s front back : String}

theorem trim_eq_empty : trim s = "" ↔ Blank s := by
  rw [← String.toList_eq_nil_iff, toList_trim, trimChars_eq_nil, Blank]

theorem trim_padded (hfront : Blank front) (hback : Blank back) :
    trim (front ++ s ++ back) = trim s := by
  rw [trim, trim, String.toList_append, String.toList_append, trimChars_padded hfront hback]

theorem exists_padded_trim (s : String) :
    ∃ front back, Blank front ∧ Blank back ∧ s = front ++ trim s ++ back := by
  obtain ⟨front, back, hfront, hback, hsplit⟩ := exists_padded_trimChars s.toList
  refine ⟨String.ofList front, String.ofList back, ?_, ?_, ?_⟩
  · rwa [Blank, String.toList_ofList]
  · rwa [Blank, String.toList_ofList]
  · rw [trim, ← String.ofList_append, ← String.ofList_append, ← hsplit, String.ofList_toList]

end FacetedSearch.Text
