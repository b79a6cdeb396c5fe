import FacetedSearch.Clause.Escape
import Mathlib.Data.List.Basic

/-!
# Escaping in one pass

The spellings of the query syntax do not get in each other's way: none is the start of another,
none goes on with a character that starts one, and none holds a backslash. So dealing with one
after another comes to the same as one pass over the text, which puts one backslash in front of
each place where a spelling stands. In the result a spelling stands only behind a backslash, and a
backslash that was not in the text only in front of a spelling.
-/

namespace FacetedSearch.Clause

/-- One of the spellings stands at the start of the text. -/
def StartsWithAny (spellings : List (List Char)) (text : List Char) : Prop :=
  ∃ p ∈ spellings, p <+: text

instance (spellings : List (List Char)) (text : List Char) :
    Decidable (StartsWithAny spellings text) :=
  inferInstanceAs (Decidable (∃ p ∈ spellings, p <+: text))

/-- Put a backslash in front of each place where one of the spellings stands. -/
def guardAll (spellings : List (List Char)) : List Char → List Char
  | [] => []
  | c :: rest =>
    if StartsWithAny spellings (c :: rest) then '\\' :: c :: guardAll spellings rest
    else c :: guardAll spellings rest

/-- Spellings that do not get in each other's way. -/
structure Independent (spellings : List (List Char)) : Prop where
  filled : ∀ p ∈ spellings, p ≠ []
  unescaped : ∀ p ∈ spellings, '\\' ∉ p
  /-- No spelling goes on with a character that starts one. -/
  apart : ∀ p ∈ spellings, ∀ c ∈ p.head?, ∀ q ∈ spellings, c ∉ q.tail
  /-- No spelling is the start of another. -/
  unordered : spellings.Pairwise fun p q => ¬ p <+: q ∧ ¬ q <+: p

variable {spellings : List (List Char)} {p text : List Char} {c : Char}

theorem Independent.of_append {front back : List (List Char)} (h : Independent (front ++ back)) :
    Independent front where
  filled p hp := h.filled p (List.mem_append_left back hp)
  unescaped p hp := h.unescaped p (List.mem_append_left back hp)
  apart p hp c hc q hq :=
    h.apart p (List.mem_append_left back hp) c hc q (List.mem_append_left back hq)
  unordered := (List.pairwise_append.mp h.unordered).1

theorem Independent.exists_cons (h : Independent spellings) (hp : p ∈ spellings) :
    ∃ first rest, p = first :: rest ∧ first ≠ '\\' := by
  obtain ⟨first, rest, rfl⟩ := List.exists_cons_of_ne_nil (h.filled p hp)
  refine ⟨first, rest, rfl, ?_⟩
  rintro rfl
  exact h.unescaped _ hp List.mem_cons_self

/-- A text without a backslash and without the start of a spelling is in front after guarding
exactly when it was before. -/
theorem isPrefix_guardAll_iff (h : Independent spellings) {t : List Char} (hback : '\\' ∉ t)
    (hstart : ∀ p ∈ spellings, ∀ c ∈ p.head?, c ∉ t) :
    t <+: guardAll spellings text ↔ t <+: text := by
  induction text generalizing t with
  | nil => rfl
  | cons c rest ih =>
      cases t with
      | nil => simp
      | cons d t =>
          rw [guardAll]
          split
          · rename_i hhit
            obtain ⟨p, hp, hpre⟩ := hhit
            obtain ⟨first, more, rfl, -⟩ := h.exists_cons hp
            obtain rfl := (List.cons_prefix_cons.mp hpre).1
            have hd : d ≠ first := by
              rintro rfl
              exact hstart _ hp d rfl List.mem_cons_self
            have hd_back : d ≠ '\\' := by
              rintro rfl
              exact hback List.mem_cons_self
            simp [List.cons_prefix_cons, hd, hd_back]
          · rw [List.cons_prefix_cons, List.cons_prefix_cons, ih]
            · exact fun hmem => hback (List.mem_cons_of_mem d hmem)
            · exact fun p hp c hc hmem => hstart p hp c hc (List.mem_cons_of_mem d hmem)

/-- Guarding the text behind the first character does not change whether a spelling stands there. -/
theorem isPrefix_cons_guardAll_iff {others : List (List Char)}
    (h : Independent (spellings ++ others)) (hp : p ∈ spellings ++ others) (rest : List Char) :
    p <+: c :: guardAll spellings rest ↔ p <+: c :: rest := by
  obtain ⟨first, more, rfl, -⟩ := h.exists_cons hp
  rw [List.cons_prefix_cons, List.cons_prefix_cons, isPrefix_guardAll_iff h.of_append]
  · exact fun hmem => h.unescaped _ hp (List.mem_cons_of_mem first hmem)
  · exact fun q hq c hc => h.apart q (List.mem_append_left others hq) c hc _ hp

theorem isPrefix_cons_guardAll_of_mem (h : Independent spellings) (hp : p ∈ spellings)
    (rest : List Char) : p <+: c :: guardAll spellings rest ↔ p <+: c :: rest := by
  rw [← List.append_nil spellings] at h hp
  simpa using isPrefix_cons_guardAll_iff h hp rest

theorem startsWithAny_cons_guardAll_iff (h : Independent spellings) (rest : List Char) :
    StartsWithAny spellings (c :: guardAll spellings rest) ↔
      StartsWithAny spellings (c :: rest) :=
  exists_congr fun _ => and_congr_right fun hp => isPrefix_cons_guardAll_of_mem h hp rest

/-! ## One after another -/

/-- Dealing with one more spelling comes to the same as dealing with it in the same pass. -/
theorem guardSpelling_guardAll (h : Independent (spellings ++ [p])) (text : List Char) :
    guardSpelling p (guardAll spellings text) = guardAll (spellings ++ [p]) text := by
  have hp : p ∈ spellings ++ [p] := List.mem_append_right spellings List.mem_cons_self
  obtain ⟨first, more, hp_cons, hfirst⟩ := h.exists_cons hp
  induction text with
  | nil => rfl
  | cons c rest ih =>
      have hpre : p <+: c :: guardAll spellings rest ↔ p <+: c :: rest :=
        isPrefix_cons_guardAll_iff h hp rest
      -- Where an earlier spelling stands, the new one cannot stand as well, nor at its backslash.
      by_cases hhit : StartsWithAny spellings (c :: rest)
      · obtain ⟨q, hq, hq_pre⟩ := hhit
        have hboth : StartsWithAny (spellings ++ [p]) (c :: rest) :=
          ⟨q, List.mem_append_left [p] hq, hq_pre⟩
        have hother : ¬ p <+: c :: rest := by
          intro hp_pre
          obtain ⟨hqp, hpq⟩ :=
            (List.pairwise_append.mp h.unordered).2.2 q hq p List.mem_cons_self
          rcases List.prefix_or_prefix_of_prefix hq_pre hp_pre with h' | h'
          · exact hqp h'
          · exact hpq h'
        have hback : ¬ p <+: '\\' :: c :: guardAll spellings rest := by
          rw [hp_cons, List.cons_prefix_cons]
          exact fun h' => hfirst h'.1
        rw [guardAll, if_pos ⟨q, hq, hq_pre⟩, guardAll, if_pos hboth, guardSpelling,
          if_neg (by rwa [List.isPrefixOf_iff_prefix]), guardSpelling,
          if_neg (by rwa [List.isPrefixOf_iff_prefix, hpre]), ih]
      · have hboth : StartsWithAny (spellings ++ [p]) (c :: rest) ↔ p <+: c :: rest := by
          simp only [StartsWithAny, List.mem_append, List.mem_singleton] at hhit ⊢
          constructor
          · rintro ⟨q, hq | rfl, hq_pre⟩
            · exact absurd ⟨q, hq, hq_pre⟩ hhit
            · exact hq_pre
          · exact fun hp_pre => ⟨p, Or.inr rfl, hp_pre⟩
        rw [guardAll, if_neg hhit, guardAll, guardSpelling, ih]
        simp only [List.isPrefixOf_iff_prefix, hpre, hboth]

theorem foldl_guardSpelling (done todo : List (List Char)) (h : Independent (done ++ todo))
    (text : List Char) :
    todo.foldl (fun t p => guardSpelling p t) (guardAll done text) =
      guardAll (done ++ todo) text := by
  induction todo generalizing done with
  | nil => rw [List.foldl_nil, List.append_nil]
  | cons p todo ih =>
      rw [List.append_cons] at h ⊢
      rw [List.foldl_cons, guardSpelling_guardAll h.of_append, ih (done ++ [p]) h]

theorem guardAll_nil (text : List Char) : guardAll [] text = text := by
  induction text with
  | nil => rfl
  | cons c rest ih =>
      have hhit : ¬ StartsWithAny [] (c :: rest) := by
        simp [StartsWithAny]
      rw [guardAll, if_neg hhit, ih]

/-- The spellings of the query syntax, as characters. -/
def syntaxSpellings : List (List Char) :=
  escapedSpellings.map String.toList

/-- A check of every first character against every spelling behind its own. -/
theorem apart_of_all (h : ∀ p ∈ spellings, ∀ q ∈ spellings,
    (p.head?.all fun c => !q.tail.contains c) = true) :
    ∀ p ∈ spellings, ∀ c ∈ p.head?, ∀ q ∈ spellings, c ∉ q.tail := by
  intro p hp c hc q hq
  have hfirst := h p hp q hq
  rw [Option.mem_def.mp hc] at hfirst
  simpa using hfirst

theorem independent_syntaxSpellings : Independent syntaxSpellings where
  filled := by decide
  unescaped := by decide
  apart := apart_of_all (by decide)
  unordered := by decide

/-- Escaping is one pass over the text. -/
theorem escapeChars_eq_guardAll (text : List Char) :
    escapeChars text = guardAll syntaxSpellings text := by
  have hfold := foldl_guardSpelling [] syntaxSpellings independent_syntaxSpellings text
  rw [guardAll_nil, List.nil_append] at hfold
  rw [← hfold, syntaxSpellings, List.foldl_map, escapeChars]

/-! ## What stands where -/

theorem mem_guardAll (h : c ∈ guardAll spellings text) : c = '\\' ∨ c ∈ text := by
  induction text with
  | nil => exact Or.inr h
  | cons d rest ih =>
      rw [guardAll] at h
      split at h
      · simp only [List.mem_cons] at h ⊢
        rcases h with h | h | h
        · exact Or.inl h
        · exact Or.inr (Or.inl h)
        · exact (ih h).imp_right Or.inr
      · simp only [List.mem_cons] at h ⊢
        rcases h with h | h
        · exact Or.inr (Or.inl h)
        · exact (ih h).imp_right Or.inr

/-- Without its backslashes a guarded text is the text. -/
theorem filter_guardAll (spellings : List (List Char)) (h : '\\' ∉ text) :
    (guardAll spellings text).filter (· != '\\') = text := by
  induction text with
  | nil => rfl
  | cons c rest ih =>
      rw [List.mem_cons, not_or] at h
      have hc : c ≠ '\\' := Ne.symm h.1
      rw [guardAll]
      split <;> simp [hc, ih h.2]

/-- Every spelling in a guarded text stands behind a backslash. -/
theorem backslash_before_spelling (h : Independent spellings) (hp : p ∈ spellings)
    {before after : List Char} (hsplit : guardAll spellings text = before ++ p ++ after) :
    before.getLast? = some '\\' := by
  obtain ⟨first, more, rfl, hfirst⟩ := h.exists_cons hp
  induction text generalizing before with
  | nil => simp [guardAll] at hsplit
  | cons c rest ih =>
      rw [guardAll] at hsplit
      split at hsplit
      · rcases before with _ | ⟨b, _ | ⟨b', before⟩⟩
        · exact absurd (List.cons.inj hsplit).1.symm hfirst
        · rw [(List.cons.inj hsplit).1]
          rfl
        · obtain ⟨-, hsplit⟩ := List.cons.inj hsplit
          obtain ⟨-, hsplit⟩ := List.cons.inj hsplit
          have hlast := ih hsplit
          rw [List.getLast?_cons, List.getLast?_cons, hlast]
          rfl
      · rename_i hhit
        rcases before with _ | ⟨b, before⟩
        · have hstart : StartsWithAny spellings (c :: guardAll spellings rest) :=
            ⟨first :: more, hp, after, hsplit.symm⟩
          exact absurd ((startsWithAny_cons_guardAll_iff h rest).mp hstart) hhit
        · have hlast := ih (List.cons.inj hsplit).2
          rw [List.getLast?_cons, hlast]
          rfl

/-- Every backslash in a guarded text that held none stands in front of a spelling. -/
theorem spelling_after_backslash (h : Independent spellings) (hback : '\\' ∉ text)
    {before after : List Char} (hsplit : guardAll spellings text = before ++ '\\' :: after) :
    StartsWithAny spellings after := by
  induction text generalizing before with
  | nil => simp [guardAll] at hsplit
  | cons c rest ih =>
      rw [List.mem_cons, not_or] at hback
      rw [guardAll] at hsplit
      split at hsplit
      · rename_i hhit
        rcases before with _ | ⟨b, _ | ⟨b', before⟩⟩
        · rw [← (List.cons.inj hsplit).2]
          exact (startsWithAny_cons_guardAll_iff h rest).mpr hhit
        · obtain ⟨-, hsplit⟩ := List.cons.inj hsplit
          exact absurd (List.cons.inj hsplit).1.symm hback.1
        · obtain ⟨-, hsplit⟩ := List.cons.inj hsplit
          exact ih hback.2 (List.cons.inj hsplit).2
      · rcases before with _ | ⟨b, before⟩
        · exact absurd (List.cons.inj hsplit).1.symm hback.1
        · exact ih hback.2 (List.cons.inj hsplit).2

end FacetedSearch.Clause
