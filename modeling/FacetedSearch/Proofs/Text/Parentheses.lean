import FacetedSearch.Proofs.Text.Join
import Mathlib.Combinatorics.Enumerative.DyckWord
import Mathlib.Data.List.ReduceOption

/-!
# Parentheses in query text

A text is read from left to right. An opening parenthesis is a step up, a closing one a step down,
and the character behind a backslash is no step, whatever it is. A text is well parenthesized when
its steps form a Dyck word, so that every group is closed and none is closed that is not open, and
when no group is empty. Texts of this kind are put together from inert texts, which have no steps at
all, and from groups of texts of this kind.
-/

namespace FacetedSearch.Text

open DyckStep

/-- The step of a parenthesis. -/
def step? : Char → Option DyckStep
  | '(' => some U
  | ')' => some D
  | _ => none

/-- What each character of a text does to the depth. The first one does nothing if it stands behind
a backslash. -/
def steps (escaped : Bool) : List Char → List (Option DyckStep)
  | [] => []
  | c :: rest =>
    if escaped then none :: steps false rest else step? c :: steps (c == '\\') rest

theorem steps_open (t : List Char) : steps false ('(' :: t) = some U :: steps false t := rfl

theorem steps_close (t : List Char) : steps false (')' :: t) = some D :: steps false t := rfl

/-- No group of the text is left open or closed twice, and none is empty. -/
structure WellParenthesized (text : String) : Prop where
  balanced : ∃ word : DyckWord, word.toList = (steps false text.toList).reduceOption
  filled : (steps false text.toList).IsChain fun a b => ¬ (a = some U ∧ b = some D)

/-- A character that is no parenthesis and no backslash. -/
def IsPlain (c : Char) : Prop :=
  c ≠ '(' ∧ c ≠ ')' ∧ c ≠ '\\'

instance (c : Char) : Decidable (IsPlain c) :=
  inferInstanceAs (Decidable (_ ∧ _ ∧ _))

theorem IsPlain.step?_eq {c : Char} (h : IsPlain c) : step? c = none := by
  unfold step?
  split
  · exact absurd rfl h.1
  · exact absurd rfl h.2.1
  · rfl

/-! ## Inert texts -/

/-- Plain characters, and pairs of a backslash and any character. -/
inductive Inert : List Char → Prop
  | nil : Inert []
  | plain {c : Char} {rest : List Char} (hc : IsPlain c) (hrest : Inert rest) : Inert (c :: rest)
  | escaped (c : Char) {rest : List Char} (hrest : Inert rest) : Inert ('\\' :: c :: rest)

theorem Inert.append {s t : List Char} (hs : Inert s) (ht : Inert t) : Inert (s ++ t) := by
  induction hs with
  | nil => exact ht
  | plain hc _ ih => exact ih.plain hc
  | escaped c _ ih => exact ih.escaped c

/-- Inert text has no steps, nor does it change how the text behind it is read. -/
theorem Inert.steps_append {s : List Char} (hs : Inert s) (t : List Char) :
    steps false (s ++ t) = List.replicate s.length none ++ steps false t := by
  induction hs with
  | nil => rfl
  | @plain c rest hc _ ih =>
      have hback : (c == '\\') = false := beq_false_of_ne hc.2.2
      rw [List.cons_append, steps, if_neg Bool.false_ne_true, hc.step?_eq, hback, ih]
      rfl
  | escaped c _ ih =>
      rw [List.cons_append, List.cons_append, steps, if_neg Bool.false_ne_true, beq_self_eq_true,
        steps, if_pos rfl, ih]
      rfl

theorem Inert.steps_eq {s : List Char} (hs : Inert s) :
    steps false s = List.replicate s.length none := by
  simpa [steps] using hs.steps_append []

/-! ## Closed texts -/

/-- Inert texts and filled groups, one after another. -/
inductive Closed : List Char → Prop
  | nil : Closed []
  | inert {s rest : List Char} (hs : Inert s) (hrest : Closed rest) : Closed (s ++ rest)
  | group {inside rest : List Char} (filled : inside ≠ []) (hinside : Closed inside)
    (hrest : Closed rest) : Closed ('(' :: (inside ++ ')' :: rest))

theorem Inert.closed {s : List Char} (hs : Inert s) : Closed s := by
  simpa using Closed.nil.inert hs

namespace Closed

variable {s t : List Char}

theorem append (hs : Closed s) (ht : Closed t) : Closed (s ++ t) := by
  induction hs with
  | nil => exact ht
  | inert hs _ ih =>
      rw [List.append_assoc]
      exact ih.inert hs
  | group filled hinside _ _ ih =>
      rw [List.cons_append, List.append_assoc, List.cons_append]
      exact group filled hinside ih

/-- The steps of a text behind a closed text are those it has on its own. -/
theorem steps_append (hs : Closed s) (t : List Char) :
    steps false (s ++ t) = steps false s ++ steps false t := by
  induction hs generalizing t with
  | nil => rfl
  | inert hs _ ih =>
      rw [List.append_assoc, hs.steps_append, hs.steps_append, ih, List.append_assoc]
  | @group inside rest _ _ _ hinside hrest =>
      rw [List.cons_append, List.append_assoc, List.cons_append, steps_open, steps_open, hinside,
        hinside, steps_close, steps_close, hrest]
      simp only [List.cons_append, List.append_assoc]

theorem steps_group {inside : List Char} (hinside : Closed inside) (rest : List Char) :
    steps false ('(' :: (inside ++ ')' :: rest)) =
      some U :: (steps false inside ++ some D :: steps false rest) := by
  rw [steps_open, hinside.steps_append, steps_close]

/-- Groups nest, and one group stands behind another. -/
theorem exists_dyckWord (hs : Closed s) :
    ∃ word : DyckWord, word.toList = (steps false s).reduceOption := by
  induction hs with
  | nil => exact ⟨0, rfl⟩
  | @inert s rest hs _ ih =>
      obtain ⟨word, hword⟩ := ih
      refine ⟨word, ?_⟩
      rw [hs.steps_append, List.reduceOption_append, List.reduceOption_replicate_none, hword]
      rfl
  | @group inside rest _ hinside _ ihinside ihrest =>
      obtain ⟨inner, hinner⟩ := ihinside
      obtain ⟨behind, hbehind⟩ := ihrest
      refine ⟨inner.nest + behind, ?_⟩
      rw [hinside.steps_group, List.reduceOption_cons_of_some, List.reduceOption_append,
        List.reduceOption_cons_of_some, ← hinner, ← hbehind]
      change [U] ++ inner.toList ++ [D] ++ behind.toList = _
      simp

end Closed

/-! ## Filled groups -/

/-- Steps without an empty group, which do not close a group in front or open one at the end. -/
structure Filled (l : List (Option DyckStep)) : Prop where
  chain : l.IsChain fun a b => ¬ (a = some U ∧ b = some D)
  head : some D ∉ l.head?
  last : some U ∉ l.getLast?

namespace Filled

variable {l m : List (Option DyckStep)}

theorem replicate_none (n : Nat) : Filled (List.replicate n none) where
  chain := List.isChain_replicate_of_rel n (by simp)
  head := by cases n <;> simp [List.replicate_succ]
  last := by cases n <;> simp [List.getLast?_replicate]

theorem append (hl : Filled l) (hm : Filled m) : Filled (l ++ m) where
  chain := by
    refine List.isChain_append.mpr ⟨hl.chain, hm.chain, ?_⟩
    rintro a ha b - ⟨rfl, -⟩
    exact hl.last ha
  head := by
    rw [List.head?_append]
    cases hhead : l.head? with
    | none => exact hm.head
    | some a =>
        rw [← hhead]
        simpa [hhead] using hl.head
  last := by
    rw [List.getLast?_append]
    cases hlast : m.getLast? with
    | none => exact hl.last
    | some a => simpa [hlast] using hm.last

/-- What stands between the parentheses of a group keeps them apart. -/
theorem group (hl : Filled l) (hne : l ≠ []) : Filled (some U :: (l ++ [some D])) where
  chain := by
    rw [List.isChain_cons, List.isChain_append, List.head?_append_of_ne_nil _ hne]
    refine ⟨?_, hl.chain, List.isChain_singleton _, ?_⟩
    · rintro b hb ⟨-, rfl⟩
      exact hl.head hb
    · rintro a ha b - ⟨rfl, -⟩
      exact hl.last ha
  head := by simp
  last := by
    rw [← List.cons_append, List.getLast?_concat]
    simp

end Filled

theorem Closed.filled {s : List Char} (hs : Closed s) : Filled (steps false s) := by
  induction hs with
  | nil => exact Filled.replicate_none 0
  | inert hs _ ih =>
      rw [hs.steps_append]
      exact (Filled.replicate_none _).append ih
  | @group inside rest hne hinside _ ihinside ihrest =>
      have hsteps : steps false inside ≠ [] := by
        obtain ⟨c, more, rfl⟩ := List.exists_cons_of_ne_nil hne
        simp [steps]
      rw [hinside.steps_group, List.append_cons]
      exact (ihinside.group hsteps).append ihrest

/-! ## Strings -/

/-- The text holds no parenthesis and no backslash. -/
def PlainText (text : String) : Prop :=
  ∀ c ∈ text.toList, IsPlain c

-- Written out, since `Char` is finite: the search may decide this over all characters there are.
instance (text : String) : Decidable (PlainText text) :=
  List.decidableBAll IsPlain text.toList

/-- The text is put together from inert texts and filled groups. -/
def ClosedText (text : String) : Prop :=
  Closed text.toList

theorem ClosedText.wellParenthesized {text : String} (h : ClosedText text) :
    WellParenthesized text where
  balanced := h.exists_dyckWord
  filled := h.filled.chain

theorem inert_of_plain {s : List Char} (h : ∀ c ∈ s, IsPlain c) : Inert s := by
  induction s with
  | nil => exact Inert.nil
  | cons c s ih =>
      rw [List.forall_mem_cons] at h
      exact (ih h.2).plain h.1

theorem PlainText.append {s t : String} (hs : PlainText s) (ht : PlainText t) :
    PlainText (s ++ t) := by
  intro c hc
  rw [String.toList_append, List.mem_append] at hc
  rcases hc with hc | hc
  · exact hs c hc
  · exact ht c hc

theorem plainText_ofList {s : List Char} (h : ∀ c ∈ s, IsPlain c) :
    PlainText (String.ofList s) := by
  intro c hc
  rw [String.toList_ofList] at hc
  exact h c hc

theorem PlainText.inert {text : String} (h : PlainText text) : Inert text.toList :=
  inert_of_plain h

theorem PlainText.closed {text : String} (h : PlainText text) : ClosedText text :=
  h.inert.closed

namespace ClosedText

variable {s t sep : String} {texts : List String}

theorem empty : ClosedText "" :=
  Closed.nil

theorem append (hs : ClosedText s) (ht : ClosedText t) : ClosedText (s ++ t) := by
  rw [ClosedText, String.toList_append]
  exact Closed.append hs ht

theorem join (h : ∀ t ∈ texts, ClosedText t) : ClosedText (String.join texts) := by
  induction texts with
  | nil => exact empty
  | cons t texts ih =>
      rw [List.forall_mem_cons] at h
      rw [String.join_cons]
      exact h.1.append (ih h.2)

theorem intercalate (hsep : ClosedText sep) (h : ∀ t ∈ texts, ClosedText t) :
    ClosedText (sep.intercalate texts) := by
  cases texts with
  | nil => exact empty
  | cons t rest =>
      rw [List.forall_mem_cons] at h
      rw [intercalate_cons]
      refine h.1.append (join ?_)
      intro u hu
      obtain ⟨v, hv, rfl⟩ := List.mem_map.mp hu
      exact hsep.append (h.2 v hv)

theorem parenthesized (hs : ClosedText s) (hne : s ≠ "") : ClosedText ("(" ++ s ++ ")") := by
  have hlist : ("(" ++ s ++ ")").toList = '(' :: (s.toList ++ ')' :: []) := by
    simp
  rw [ClosedText, hlist]
  exact Closed.group (by simpa using hne) hs Closed.nil

/-- Several texts in a group have a separator between them, so that the group is not empty. -/
theorem several (hsep : ClosedText sep) (hne : sep ≠ "") {first second : String}
    (h : ∀ t ∈ first :: second :: texts, ClosedText t) :
    ClosedText ("(" ++ sep.intercalate (first :: second :: texts) ++ ")") := by
  apply (intercalate hsep h).parenthesized
  rw [String.intercalate_cons_cons]
  simp [hne]

end ClosedText

end FacetedSearch.Text
