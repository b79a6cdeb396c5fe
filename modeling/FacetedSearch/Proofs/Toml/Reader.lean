import FacetedSearch.Proofs.Toml.Quoted
import FacetedSearch.Proofs.Toml.Scalar
import FacetedSearch.Proofs.Toml.Table
import FacetedSearch.Toml.Reader

/-!
# Reading lines back

A document that is written line by line is read line by line. What a line holds is settled on the
line itself: a name is followed by a blank or a bracket, and a value by the line break. So the lines
are looked at one by one, and the readings are put together along the reader.
-/

namespace FacetedSearch.Toml

open Text

theorem EndsValue.endsString {rest : List Char} (ends : EndsValue rest) : EndsString rest where
  quote := ends.head?_ne (by decide)
  apostrophe := ends.head?_ne (by decide)

/-! ## Blanks -/

/-- A character at which skipping stops. -/
def opensToken (c : Char) : Bool :=
  !isSpaceOrBreak c && c != '#'

theorem isSpace_eq_false {c : Char} (h : opensToken c = true) : isSpace c = false := by
  cases hspace : isSpace c
  · rfl
  · simp [opensToken, isSpaceOrBreak, hspace] at h

theorem skipSpaces_of_opensToken {c : Char} (h : opensToken c = true) (t : List Char) :
    skipSpaces (c :: t) = c :: t := by
  simp [skipSpaces, isSpace_eq_false h]

theorem skipTrivia?_of_opensToken {c : Char} (h : opensToken c = true) (t : List Char) :
    skipTrivia? false (c :: t) = some (c :: t) := by
  have hne : ∀ d, opensToken d = false → c ≠ d := fun d => ne_of_kind h
  unfold skipTrivia?
  split
  · rename_i heq
    simp at heq
  · rename_i heq
    exact absurd (List.cons.inj heq).1 (hne '\n' (by decide))
  · rename_i heq
    exact absurd (List.cons.inj heq).1 (hne '\r' (by decide))
  · rename_i heq
    obtain ⟨rfl, rfl⟩ := List.cons.inj heq
    simp [isSpace_eq_false h, hne '#' (by decide)]

@[simp] theorem skipTrivia?_space (t : List Char) :
    skipTrivia? false (' ' :: t) = skipTrivia? false t := rfl

theorem opensToken_of_isBareChar {c : Char} (h : isBareChar c = true) : opensToken c = true := by
  have hne : ∀ d, isBareChar d = false → c ≠ d := fun d => ne_of_kind h
  simp [opensToken, isSpaceOrBreak, isSpace, hne ' ' (by decide), hne '\t' (by decide),
    hne '\n' (by decide), hne '\r' (by decide), hne '#' (by decide)]

/-! ## Names -/

/-- A name that needs no quotes. -/
def IsBareName (name : String) : Prop :=
  name.toList ≠ [] ∧ ∀ c ∈ name.toList, isNameChar c = true

instance (name : String) : Decidable (IsBareName name) :=
  decidable_of_iff ((!name.toList.isEmpty && name.toList.all isNameChar) = true)
    (by simp [IsBareName])

theorem isBareChar_of_isNameChar {c : Char} (h : isNameChar c = true) : isBareChar c = true := by
  simp only [isNameChar, Bool.or_eq_true] at h
  rcases h with ((h | h) | h) | h
  all_goals simp [isBareChar, h]

theorem IsBareName.exists_cons {name : String} (h : IsBareName name) :
    ∃ c t, name.toList = c :: t ∧ isNameChar c = true := by
  obtain ⟨c, t, hname⟩ := List.exists_cons_of_ne_nil h.1
  exact ⟨c, t, hname, h.2 c (by simp [hname])⟩

theorem readName?_bare {name : String} (h : IsBareName name) {c : Char}
    (stops : isNameChar c = false) (rest : List Char) :
    readName? (name.toList ++ c :: rest) = some (name, c :: rest) := by
  have hstops : ∀ d, (c :: rest).head? = some d → isNameChar d = false := by
    intro d hd
    exact Option.some.inj hd ▸ stops
  obtain ⟨hname, hrest⟩ := span_append h.2 hstops
  have hquoted : readShortString? (name.toList ++ c :: rest) = none := by
    obtain ⟨first, t, hcons, hfirst⟩ := h.exists_cons
    rw [hcons, List.cons_append]
    unfold readShortString?
    split
    · rename_i heq
      exact absurd (List.cons.inj heq).1 (ne_of_kind hfirst (by decide))
    · rename_i heq
      exact absurd (List.cons.inj heq).1 (ne_of_kind hfirst (by decide))
    · rfl
  rw [readName?, hquoted, hname, hrest]
  simp [h.1]

/-- A single name is the whole key when no point follows. -/
theorem readKey?_single {name : String} (h : IsBareName name) {fuel : Nat} (hfuel : fuel ≠ 0)
    {c : Char} (stops : isNameChar c = false) {rest : List Char}
    (single : (skipSpaces (c :: rest)).head? ≠ some '.') :
    readKey? fuel (name.toList ++ c :: rest) = some (.single name, skipSpaces (c :: rest)) := by
  obtain ⟨fuel, rfl⟩ := Nat.exists_eq_add_one_of_ne_zero hfuel
  rw [readKey?, readName?_bare h stops]
  dsimp only
  split
  · rename_i heq
    rw [heq] at single
    exact absurd rfl single
  · rfl

/-! ## Values -/

/-- A text in front of the end of a value is read as that value. -/
structure Reads (w : List Char) (v : Value) : Prop where
  opens : ∃ c t, w = c :: t ∧ opensToken c = true
  reads : ∀ (fuel depth : Nat) (rest : List Char), w.length ≤ fuel → EndsValue rest →
    readValue? (fuel + 1) (depth + 1) (w ++ rest) = some (v, rest)

theorem readValue?_bare {c : Char} (h : isBareChar c = true) (fuel depth : Nat) (t : List Char) :
    readValue? (fuel + 1) depth (c :: t) = readBare? (c :: t) := by
  have hne : ∀ d, isBareChar d = false → c ≠ d := fun d => ne_of_kind h
  unfold readValue?
  split
  · rename_i heq
    exact absurd (List.cons.inj heq).1 (hne '[' (by decide))
  · rename_i heq
    exact absurd (List.cons.inj heq).1 (hne '{' (by decide))
  · rename_i heq
    obtain ⟨rfl, rfl⟩ := List.cons.inj heq
    rw [if_neg (by simp [hne '"' (by decide), hne '\'' (by decide)])]
  · rename_i heq
    simp at heq

/-- A written string starts with a mark. -/
theorem exists_cons_writeString (s : String) :
    ∃ c t, (writeString s).toList = c :: t ∧ (c = '"' ∨ c = '\'') := by
  rw [writeString, String.toList_ofList]
  cases formFor s.toList with
  | basic => exact ⟨'"', _, rfl, Or.inl rfl⟩
  | literal => exact ⟨'\'', _, rfl, Or.inr rfl⟩
  | longBasic => exact ⟨'"', _, rfl, Or.inl rfl⟩
  | longLiteral => exact ⟨'\'', _, rfl, Or.inr rfl⟩

theorem readValue?_writeString (s : String) (fuel depth : Nat) {rest : List Char}
    (ends : EndsString rest) :
    readValue? (fuel + 1) depth ((writeString s).toList ++ rest) = some (.string s, rest) := by
  have hread := readString?_writeString s ends
  obtain ⟨c, t, hwritten, hmark⟩ := exists_cons_writeString s
  rw [hwritten, List.cons_append] at hread ⊢
  have hne : ∀ d, d ≠ '"' → d ≠ '\'' → c ≠ d := by
    rintro d hquote happostrophe rfl
    exact hmark.elim hquote happostrophe
  unfold readValue?
  split
  · rename_i heq
    exact absurd (List.cons.inj heq).1 (hne '[' (by decide) (by decide))
  · rename_i heq
    exact absurd (List.cons.inj heq).1 (hne '{' (by decide) (by decide))
  · rename_i heq
    obtain ⟨rfl, rfl⟩ := List.cons.inj heq
    rw [if_pos hmark, hread]
    simp
  · rename_i heq
    simp at heq

theorem head?_writeString_append (s : String) (rest : List Char) :
    ((writeString s).toList ++ rest).head? ≠ some ']' := by
  obtain ⟨c, t, hwritten, hmark⟩ := exists_cons_writeString s
  rw [hwritten]
  intro h
  obtain rfl := Option.some.inj h
  exact absurd hmark (by decide)

theorem opensToken_of_mark {c : Char} (h : c = '"' ∨ c = '\'') : opensToken c = true := by
  rcases h with rfl | rfl
  all_goals decide

theorem skipTrivia?_writeString (s : String) (rest : List Char) :
    skipTrivia? false ((writeString s).toList ++ rest) = some ((writeString s).toList ++ rest) := by
  obtain ⟨c, t, hwritten, hmark⟩ := exists_cons_writeString s
  rw [hwritten]
  exact skipTrivia?_of_opensToken (opensToken_of_mark hmark) (t ++ rest)

theorem reads_writeString (s : String) : Reads (writeString s).toList (.string s) where
  opens := by
    obtain ⟨c, t, hwritten, hmark⟩ := exists_cons_writeString s
    exact ⟨c, t, hwritten, opensToken_of_mark hmark⟩
  reads := by
    intro fuel depth rest _ ends
    exact readValue?_writeString s fuel (depth + 1) ends.endsString

/-- A bare text is read as the value that it is as a whole. -/
theorem reads_bare {token : List Char} {v : Value} (hne : token ≠ [])
    (bare : token.all isBareChar = true) (value : bareValue? token = some v) : Reads token v where
  opens := by
    obtain ⟨c, t, rfl⟩ := List.exists_cons_of_ne_nil hne
    exact ⟨c, t, rfl, opensToken_of_isBareChar (List.all_eq_true.mp bare c List.mem_cons_self)⟩
  reads := by
    intro fuel depth rest _ ends
    have bare := List.all_eq_true.mp bare
    have hread := readBare?_append bare ends
    obtain ⟨c, t, rfl⟩ := List.exists_cons_of_ne_nil hne
    rw [List.cons_append, readValue?_bare (bare c List.mem_cons_self), ← List.cons_append, hread,
      value]
    rfl

/-! ## Arrays -/

section Items

variable {fuel depth : Nat} {s rest : List Char} {item : Value} {items : List Value}

theorem readItems?_nil (fuel depth : Nat) (rest : List Char) :
    readItems? (fuel + 1) depth (']' :: rest) = some ([], rest) := by
  rw [readItems?]

theorem readItems?_last (hitem : readValue? fuel depth s = some (item, ']' :: rest))
    (hs : s.head? ≠ some ']') : readItems? (fuel + 1) depth s = some ([item], rest) := by
  have hbracket : skipTrivia? false (']' :: rest) = some (']' :: rest) :=
    skipTrivia?_of_opensToken (by decide) rest
  unfold readItems?
  split
  · exact absurd rfl hs
  · simp only [hitem, hbracket]

theorem readItems?_next {later after : List Char}
    (hitem : readValue? fuel depth s = some (item, ',' :: later)) (hs : s.head? ≠ some ']')
    (hlater : skipTrivia? false later = some after)
    (hitems : readItems? fuel depth after = some (items, rest)) :
    readItems? (fuel + 1) depth s = some (item :: items, rest) := by
  have hcomma : skipTrivia? false (',' :: later) = some (',' :: later) :=
    skipTrivia?_of_opensToken (by decide) later
  unfold readItems?
  split
  · exact absurd rfl hs
  · simp only [hitem, hcomma, hlater, hitems, Option.map_some]

theorem readValue?_array {after : List Char} (hafter : skipTrivia? false s = some after)
    (hitems : readItems? fuel depth after = some (items, rest)) :
    readValue? (fuel + 1) (depth + 1) ('[' :: s) = some (.array items, rest) := by
  unfold readValue?
  simp only [hafter, hitems, Option.map_some]

end Items

/-! ## Lines -/

/-- A text on a line of its own is read as a statement. -/
structure IsLine (line : List Char) (statement : Statement) : Prop where
  opens : ∃ c t, line = c :: t ∧ opensToken c = true
  reads : ∀ rest, readStatement? (line ++ '\n' :: rest) = some (statement, '\n' :: rest)

theorem readAssignment?_single {name : String} (hname : IsBareName name) {w : List Char}
    {v : Value} (hw : Reads w v) {rest : List Char} (ends : EndsValue rest) :
    readAssignment? (name.toList ++ ' ' :: '=' :: ' ' :: (w ++ rest)) =
      some (.single name v, rest) := by
  have hkey : readKey? (name.toList ++ ' ' :: '=' :: ' ' :: (w ++ rest)).length
      (name.toList ++ ' ' :: '=' :: ' ' :: (w ++ rest)) =
        some (.single name, '=' :: ' ' :: (w ++ rest)) :=
    readKey?_single hname (by simp) (by decide) (by simp [skipSpaces, isSpace])
  have hspace : skipSpaces (' ' :: (w ++ rest)) = w ++ rest := by
    obtain ⟨c, t, rfl, hc⟩ := hw.opens
    exact skipSpaces_of_opensToken hc (t ++ rest)
  have hvalue : readValue? (2 * (name.toList ++ ' ' :: '=' :: ' ' :: (w ++ rest)).length + 2)
      maxDepth (w ++ rest) = some (v, rest) := by
    apply hw.reads _ _ rest _ ends
    simp only [List.length_append, List.length_cons]
    omega
  simp only [readAssignment?, hkey, hspace, hvalue, Option.map_some, Assignment.single]

theorem isLine_assign {name : String} (hname : IsBareName name) {w : List Char} {v : Value}
    (hw : Reads w v) :
    IsLine (name.toList ++ ' ' :: '=' :: ' ' :: w) (.assign (.single name v)) where
  opens := by
    obtain ⟨c, t, hcons, hc⟩ := hname.exists_cons
    rw [hcons, List.cons_append]
    exact ⟨c, _, rfl, opensToken_of_isBareChar (isBareChar_of_isNameChar hc)⟩
  reads := by
    intro rest
    have ends : EndsValue ('\n' :: rest) := EndsValue.cons (by decide) rest
    have hread := readAssignment?_single hname hw ends
    obtain ⟨c, t, hcons, hc⟩ := hname.exists_cons
    have hbracket : c ≠ '[' := ne_of_kind hc (by decide)
    rw [List.append_assoc, List.cons_append, List.cons_append, List.cons_append]
    rw [hcons, List.cons_append] at hread ⊢
    unfold readStatement?
    split
    · rename_i heq
      exact absurd (List.cons.inj heq).1 hbracket
    · rename_i heq
      exact absurd (List.cons.inj heq).1 hbracket
    · rw [hread]
      rfl

theorem readTableHeader?_single {name : String} (hname : IsBareName name) (rest : List Char) :
    readTableHeader? (name.toList ++ ']' :: rest) = some (.single name, rest) := by
  have hspace : skipSpaces (name.toList ++ ']' :: rest) = name.toList ++ ']' :: rest := by
    obtain ⟨c, t, hcons, hc⟩ := hname.exists_cons
    rw [hcons, List.cons_append]
    exact skipSpaces_of_opensToken (opensToken_of_isBareChar (isBareChar_of_isNameChar hc)) _
  have hkey : readKey? (name.toList ++ ']' :: rest).length (name.toList ++ ']' :: rest) =
      some (.single name, ']' :: rest) :=
    readKey?_single hname (by simp) (by decide) (by simp [skipSpaces, isSpace])
  simp only [readTableHeader?, hspace, hkey, Header.single]

theorem isLine_header {name : String} (hname : IsBareName name) :
    IsLine ('[' :: (name.toList ++ [']'])) (.header (.single name)) where
  opens := ⟨'[', _, rfl, by decide⟩
  reads := by
    intro rest
    have hread := readTableHeader?_single hname ('\n' :: rest)
    have hopen : ∀ t, name.toList ++ ']' :: '\n' :: rest ≠ '[' :: t := by
      obtain ⟨c, t, hcons, hc⟩ := hname.exists_cons
      rw [hcons, List.cons_append]
      intro u heq
      exact ne_of_kind hc (by decide) (List.cons.inj heq).1
    rw [List.cons_append, List.append_assoc, List.cons_append, List.nil_append]
    unfold readStatement?
    split
    · rename_i heq
      exact absurd (List.cons.inj heq).2 (hopen _)
    · rename_i heq
      rw [← (List.cons.inj heq).2, hread]
      rfl
    · rename_i hother
      exact absurd rfl (hother _)

/-! ## Documents -/

/-- A text holds statements line by line, with empty lines between them. -/
inductive Holds : List Char → List Statement → Prop where
  | nil : Holds [] []
  | blank {text : List Char} {statements : List Statement} :
      Holds text statements → Holds ('\n' :: text) statements
  | line {line text : List Char} {statement : Statement} {statements : List Statement} :
      IsLine line statement → Holds text statements →
        Holds (line ++ '\n' :: text) (statement :: statements)

namespace Holds

theorem append {s t : List Char} {earlier later : List Statement} (hs : Holds s earlier)
    (ht : Holds t later) : Holds (s ++ t) (earlier ++ later) := by
  induction hs with
  | nil => exact ht
  | blank _ ih => exact .blank ih
  | line hline _ ih =>
      rw [List.append_assoc, List.cons_append, List.cons_append]
      exact .line hline ih

theorem flatMap {α : Type} {items : List α} {text : α → List Char}
    {statement : α → Statement} (h : ∀ a ∈ items, Holds (text a) [statement a]) :
    Holds (items.flatMap text) (items.map statement) := by
  induction items with
  | nil => exact .nil
  | cons a items ih =>
      rw [List.forall_mem_cons] at h
      rw [List.flatMap_cons, List.map_cons]
      exact h.1.append (ih h.2)

/-- What holds statements is read as them, line by line. -/
theorem readStatements?_eq {text : List Char} {statements : List Statement}
    (h : Holds text statements) :
    ∃ s, skipTrivia? false text = some s ∧ s.length ≤ text.length ∧
      ∀ fuel, s.length < fuel → readStatements? fuel s = some statements := by
  induction h with
  | nil =>
      refine ⟨[], rfl, Nat.le_refl _, ?_⟩
      intro fuel hfuel
      obtain ⟨fuel, rfl⟩ := Nat.exists_eq_add_one_of_ne_zero (Nat.ne_of_gt hfuel)
      rfl
  | blank _ ih =>
      obtain ⟨s, hskip, hlength, hread⟩ := ih
      exact ⟨s, hskip, Nat.le_succ_of_le hlength, hread⟩
  | @line line text statement statements hline _ ih =>
      obtain ⟨s, hskip, hlength, hread⟩ := ih
      obtain ⟨c, t, rfl, hc⟩ := hline.opens
      refine ⟨_, skipTrivia?_of_opensToken hc (t ++ '\n' :: text), Nat.le_refl _, ?_⟩
      intro fuel hfuel
      obtain ⟨fuel, rfl⟩ : ∃ f, fuel = f + 1 := Nat.exists_eq_add_one_of_ne_zero (by omega)
      have hstatement := hline.reads text
      have hnext : nextLine? ('\n' :: text) = some s := hskip
      have hrest : readStatements? fuel s = some statements := by
        apply hread
        simp only [List.length_append, List.length_cons] at hfuel
        omega
      rw [List.cons_append] at hstatement
      simp only [readStatements?, hstatement, hnext, hrest, Option.map_some]

end Holds

/-- A text that holds statements, behind no byte order mark, is split into them. -/
theorem statements?_eq {text : String} {statements : List Statement}
    (h : Holds text.toList statements) (unmarked : text.toList.head? ≠ some '\ufeff') :
    statements? text = some statements := by
  have hmark : dropByteOrderMark text.toList = text.toList := by
    unfold dropByteOrderMark
    split
    · rename_i heq
      simp [heq] at unmarked
    · rfl
  obtain ⟨s, hskip, -, hread⟩ := h.readStatements?_eq
  simp only [statements?, hmark, hskip]
  exact hread (s.length + 1) (Nat.lt_succ_self _)

end FacetedSearch.Toml
