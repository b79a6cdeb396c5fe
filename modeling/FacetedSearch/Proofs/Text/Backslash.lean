import Mathlib.Data.List.Basic

/-!
# Bare and escaped characters

A text is read from left to right. A backslash escapes the character behind it, unless it is
escaped itself, and a character that is not escaped is *bare*. The query language gives a meaning to
bare marks only. So a value may bring no bare mark of the syntax into a query, and a value in quotes
no bare quote mark; nor may it leave an open backslash, which would escape the mark that closes the
quotes.
-/

namespace FacetedSearch.Text

/-- What is left of a text from each bare character on. The first character of the text is escaped
itself if `escaped` says so. -/
def bareTails : (escaped : Bool) → List Char → List (List Char)
  | _, [] => []
  | true, _ :: rest => bareTails false rest
  | false, c :: rest => (c :: rest) :: bareTails (c == '\\') rest

/-- The bare characters of a text. -/
def bareChars (escaped : Bool) (s : List Char) : List Char :=
  (bareTails escaped s).filterMap List.head?

/-- The characters of a text that are escaped. -/
def escapedChars : (escaped : Bool) → List Char → List Char
  | _, [] => []
  | true, c :: rest => c :: escapedChars false rest
  | false, c :: rest => escapedChars (c == '\\') rest

/-- A character behind the text is escaped. -/
def leavesOpen : (escaped : Bool) → List Char → Bool
  | escaped, [] => escaped
  | true, _ :: rest => leavesOpen false rest
  | false, c :: rest => leavesOpen (c == '\\') rest

/-- What is left of a text from each place on where a mark stands and is bare. -/
def markedTails (mark : List Char) (escaped : Bool) (s : List Char) : List (List Char) :=
  (bareTails escaped s).filter (mark.isPrefixOf ·)

/-- A text has a bare mark at its start, one at its end and no other, so that what stands between
them is one phrase. -/
def OnePhrase (mark text : String) : Prop :=
  markedTails mark.toList false text.toList = [text.toList, mark.toList]

instance (mark text : String) : Decidable (OnePhrase mark text) :=
  inferInstanceAs (Decidable (_ = _))

variable {escaped : Bool} {s t mark : List Char} {c : Char}

@[simp] theorem bareTails_nil (escaped : Bool) : bareTails escaped [] = [] := by
  cases escaped <;> rfl

@[simp] theorem bareTails_escaped (c : Char) (s : List Char) :
    bareTails true (c :: s) = bareTails false s := rfl

@[simp] theorem bareTails_bare (c : Char) (s : List Char) :
    bareTails false (c :: s) = (c :: s) :: bareTails (c == '\\') s := rfl

@[simp] theorem bareChars_nil (escaped : Bool) : bareChars escaped [] = [] := by
  cases escaped <;> rfl

@[simp] theorem bareChars_escaped (c : Char) (s : List Char) :
    bareChars true (c :: s) = bareChars false s := rfl

@[simp] theorem bareChars_bare (c : Char) (s : List Char) :
    bareChars false (c :: s) = c :: bareChars (c == '\\') s := rfl

@[simp] theorem escapedChars_nil (escaped : Bool) : escapedChars escaped [] = [] := by
  cases escaped <;> rfl

@[simp] theorem escapedChars_escaped (c : Char) (s : List Char) :
    escapedChars true (c :: s) = c :: escapedChars false s := rfl

@[simp] theorem escapedChars_bare (c : Char) (s : List Char) :
    escapedChars false (c :: s) = escapedChars (c == '\\') s := rfl

@[simp] theorem leavesOpen_nil (escaped : Bool) : leavesOpen escaped [] = escaped := by
  cases escaped <;> rfl

@[simp] theorem leavesOpen_escaped (c : Char) (s : List Char) :
    leavesOpen true (c :: s) = leavesOpen false s := rfl

@[simp] theorem leavesOpen_bare (c : Char) (s : List Char) :
    leavesOpen false (c :: s) = leavesOpen (c == '\\') s := rfl

/-! ## One text behind another -/

theorem bareTails_append (escaped : Bool) (s t : List Char) :
    bareTails escaped (s ++ t) =
      (bareTails escaped s).map (· ++ t) ++ bareTails (leavesOpen escaped s) t := by
  induction s generalizing escaped with
  | nil => simp
  | cons c s ih => cases escaped <;> simp [ih]

theorem bareChars_append (escaped : Bool) (s t : List Char) :
    bareChars escaped (s ++ t) = bareChars escaped s ++ bareChars (leavesOpen escaped s) t := by
  induction s generalizing escaped with
  | nil => simp
  | cons c s ih => cases escaped <;> simp [ih]

theorem leavesOpen_append (escaped : Bool) (s t : List Char) :
    leavesOpen escaped (s ++ t) = leavesOpen (leavesOpen escaped s) t := by
  induction s generalizing escaped with
  | nil => simp
  | cons c s ih => cases escaped <;> simp [ih]

theorem ne_nil_of_mem_bareTails {tail : List Char} (h : tail ∈ bareTails escaped s) :
    tail ≠ [] := by
  induction s generalizing escaped with
  | nil => simp at h
  | cons c s ih =>
      cases escaped with
      | true => exact ih h
      | false =>
          rcases List.mem_cons.mp h with rfl | h
          · exact List.cons_ne_nil c s
          · exact ih h

theorem bareChars_sublist (escaped : Bool) (s : List Char) : (bareChars escaped s).Sublist s := by
  induction s generalizing escaped with
  | nil => simp
  | cons c s ih =>
      cases escaped with
      | true => exact (ih false).cons c
      | false => exact (ih _).cons_cons c

/-! ## Texts without backslashes -/

theorem leavesOpen_of_not_mem (h : '\\' ∉ s) : leavesOpen false s = false := by
  induction s with
  | nil => rfl
  | cons c s ih =>
      rw [List.mem_cons, not_or] at h
      rw [leavesOpen_bare, beq_false_of_ne (Ne.symm h.1), ih h.2]

theorem leavesOpen_of_filled (filled : s ≠ []) (h : '\\' ∉ s) : leavesOpen escaped s = false := by
  obtain ⟨c, s, rfl⟩ := List.exists_cons_of_ne_nil filled
  rw [List.mem_cons, not_or] at h
  cases escaped with
  | true => exact leavesOpen_of_not_mem h.2
  | false => rw [leavesOpen_bare, beq_false_of_ne (Ne.symm h.1), leavesOpen_of_not_mem h.2]

theorem escapedChars_of_not_mem (h : '\\' ∉ s) : escapedChars false s = [] := by
  induction s with
  | nil => rfl
  | cons c s ih =>
      rw [List.mem_cons, not_or] at h
      rw [escapedChars_bare, beq_false_of_ne (Ne.symm h.1), ih h.2]

/-! ## Marks -/

@[simp] theorem markedTails_nil (mark : List Char) (escaped : Bool) :
    markedTails mark escaped [] = [] := by
  rw [markedTails, bareTails_nil, List.filter_nil]

@[simp] theorem markedTails_escaped (mark : List Char) (c : Char) (s : List Char) :
    markedTails mark true (c :: s) = markedTails mark false s := rfl

theorem markedTails_bare_of_isPrefix (h : mark <+: c :: s) :
    markedTails mark false (c :: s) = (c :: s) :: markedTails mark (c == '\\') s := by
  rw [markedTails, bareTails_bare, List.filter_cons_of_pos (by simpa using h), markedTails]

theorem markedTails_bare_of_not_isPrefix (h : ¬ mark <+: c :: s) :
    markedTails mark false (c :: s) = markedTails mark (c == '\\') s := by
  rw [markedTails, bareTails_bare, List.filter_cons_of_neg (by simpa using h), markedTails]

/-- A mark of one character stands where the character is bare. -/
theorem markedTails_singleton_eq_nil :
    markedTails [c] escaped s = [] ↔ c ∉ bareChars escaped s := by
  induction s generalizing escaped with
  | nil => simp
  | cons d s ih =>
      cases escaped with
      | true => exact ih
      | false =>
          rw [bareChars_bare, List.mem_cons, not_or, ← ih]
          by_cases h : c = d
          · rw [markedTails_bare_of_isPrefix (by simp [h])]
            simp [h]
          · rw [markedTails_bare_of_not_isPrefix (by simp [h])]
            simp [h]

section Mark

variable {first : Char} {more : List Char}

/-- A mark does not start at other characters than its first. -/
theorem markedTails_append_of_not_mem (hfirst : first ∉ s) (hback : '\\' ∉ s) (t : List Char) :
    markedTails (first :: more) false (s ++ t) = markedTails (first :: more) false t := by
  induction s with
  | nil => rfl
  | cons c s ih =>
      rw [List.mem_cons, not_or] at hfirst hback
      have hmark : ¬ first :: more <+: c :: (s ++ t) := by
        simp [List.cons_prefix_cons, hfirst.1]
      rw [List.cons_append, markedTails_bare_of_not_isPrefix hmark,
        beq_false_of_ne (Ne.symm hback.1), ih hfirst.2 hback.2]

variable (hfirst : first ∉ more) (hback : '\\' ∉ first :: more)

include hfirst hback

theorem markedTails_mark_append (t : List Char) :
    markedTails (first :: more) false (first :: more ++ t) =
      (first :: more ++ t) :: markedTails (first :: more) false t := by
  rw [List.mem_cons, not_or] at hback
  have hmark : first :: more <+: first :: (more ++ t) := List.prefix_append (first :: more) t
  rw [List.cons_append, markedTails_bare_of_isPrefix hmark, beq_false_of_ne (Ne.symm hback.1),
    markedTails_append_of_not_mem hfirst hback.2]

theorem markedTails_mark :
    markedTails (first :: more) false (first :: more) = [first :: more] := by
  simpa using markedTails_mark_append hfirst hback []

theorem markedTails_mark_of_escaped : markedTails (first :: more) true (first :: more) = [] := by
  rw [List.mem_cons, not_or] at hback
  have hmore : markedTails (first :: more) false (more ++ []) =
      markedTails (first :: more) false [] :=
    markedTails_append_of_not_mem hfirst hback.2 []
  rwa [List.append_nil, markedTails_nil] at hmore

omit hback in
/-- A mark behind a text does not complete a mark that starts in the text. -/
theorem isPrefix_append_mark_iff (filled : s ≠ []) :
    first :: more <+: s ++ first :: more ↔ first :: more <+: s := by
  refine ⟨fun h => ?_, fun h => h.trans (List.prefix_append s _)⟩
  rcases List.prefix_or_prefix_of_prefix h (List.prefix_append s _) with hmark | ⟨overlap, hoverlap⟩
  · exact hmark
  · cases overlap with
    | nil =>
        rw [List.append_nil] at hoverlap
        exact hoverlap ▸ List.prefix_refl s
    | cons d overlap =>
        -- The rest of the first mark would start the second, but no mark starts within another.
        have hpre : s ++ d :: overlap <+: s ++ first :: more := by
          rwa [hoverlap]
        obtain rfl := (List.cons_prefix_cons.mp ((List.prefix_append_right_inj s).mp hpre)).1
        obtain ⟨c, s, rfl⟩ := List.exists_cons_of_ne_nil filled
        obtain ⟨-, rfl⟩ := List.cons.inj hoverlap
        exact absurd (List.mem_append_right s List.mem_cons_self) hfirst

theorem markedTails_append_mark (inside : List Char) :
    markedTails (first :: more) false (inside ++ first :: more) =
      (markedTails (first :: more) false inside).map (· ++ first :: more) ++
        if leavesOpen false inside then [] else [first :: more] := by
  have hinside : ((bareTails false inside).map (· ++ first :: more)).filter
      ((first :: more).isPrefixOf ·) =
        (markedTails (first :: more) false inside).map (· ++ first :: more) := by
    rw [List.filter_map, markedTails]
    congr 1
    apply List.filter_congr
    intro tail htail
    rw [Function.comp_apply, Bool.eq_iff_iff, List.isPrefixOf_iff_prefix,
      List.isPrefixOf_iff_prefix]
    exact isPrefix_append_mark_iff hfirst (ne_nil_of_mem_bareTails htail)
  rw [markedTails, bareTails_append, List.filter_append, hinside]
  cases leavesOpen false inside with
  | true => rw [← markedTails, markedTails_mark_of_escaped hfirst hback, if_pos rfl]
  | false => rw [← markedTails, markedTails_mark hfirst hback, if_neg Bool.false_ne_true]

/-- Between two marks a text is one phrase when it brings no bare mark and leaves no backslash
open. -/
theorem onePhrase_quoted_iff {mark inside : String} (hmark : mark.toList = first :: more) :
    OnePhrase mark (mark ++ inside ++ mark) ↔
      markedTails mark.toList false inside.toList = [] ∧
        leavesOpen false inside.toList = false := by
  rw [OnePhrase, String.toList_append, String.toList_append, hmark, List.append_assoc,
    markedTails_mark_append hfirst hback, List.cons.injEq, and_iff_right rfl,
    markedTails_append_mark hfirst hback]
  cases hopen : leavesOpen false inside.toList with
  | false => simp
  | true =>
      -- An open backslash takes the closing mark away, and no other mark is as short as this one.
      refine iff_of_false ?_ (by simp)
      intro h
      rw [if_pos rfl, List.append_nil, List.map_eq_singleton_iff] at h
      obtain ⟨tail, htail, hsame⟩ := h
      have hmem : tail ∈ markedTails (first :: more) false inside.toList := by
        rw [htail]
        exact List.mem_singleton_self tail
      exact ne_nil_of_mem_bareTails (List.mem_of_mem_filter hmem)
        (List.append_left_eq_self.mp hsame)

end Mark

end FacetedSearch.Text
