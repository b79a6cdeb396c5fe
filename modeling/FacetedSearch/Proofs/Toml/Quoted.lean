import FacetedSearch.Proofs.Text.Percent
import FacetedSearch.Toml.Quoted

/-!
# Reading strings back

A written string is read back whatever stands behind it, other than a quote or an apostrophe. The
two forms with escapes can hold every text; the two without are only taken for texts that they can
hold. In a long form, up to two marks at the end of the text meet the closing ones: they are told
apart by counting.
-/

namespace FacetedSearch.Toml

open Text

/-- What stands behind a string does not go on with a mark. -/
structure EndsString (rest : List Char) : Prop where
  quote : rest.head? ≠ some '"'
  apostrophe : rest.head? ≠ some '\''

@[simp] theorem prepend_some (chars more rest : List Char) :
    prepend chars (some (more, rest)) = some (chars ++ more, rest) := rfl

/-! ## Escapes -/

theorem hexNumber?_fourHex {n : Nat} (h : n < 65536) :
    hexNumber? (fourHex upperHex n) = some n := by
  have hdigit : ∀ m, hexDigit? (upperHex (m % 16)) = some (m % 16) :=
    fun m => hexDigit?_upperHex (Nat.mod_lt m (by decide))
  have hvalue : 16 * (16 * (16 * (16 * 0 + n / 4096 % 16) + n / 256 % 16) + n / 16 % 16) + n % 16 =
      n := by
    omega
  simp only [hexNumber?, fourHex, List.foldlM_cons, List.foldlM_nil, hdigit, Option.map_some,
    Option.bind_eq_bind, Option.bind_some, hvalue]
  rfl

theorem numericEscape?_fourHex {c : Char} (h : c.toNat < 65536) (t : List Char) :
    numericEscape? 4 (fourHex upperHex c.toNat ++ t) = some (c, 5) := by
  have htake : (fourHex upperHex c.toNat ++ t).take 4 = fourHex upperHex c.toNat := rfl
  have hchar : scalar? c.toNat = some c := by
    rw [scalar?, if_pos (show c.toNat.isValidChar from c.valid), Char.ofNat_toNat]
  have hlength : (fourHex upperHex c.toNat).length = 4 := rfl
  rw [numericEscape?, htake, if_pos hlength, hexNumber?_fourHex h, Option.bind_some, hchar]
  rfl

theorem toNat_lt_of_isControl {c : Char} (h : isControl c = true) : c.toNat < 65536 := by
  rw [isControl, Bool.or_eq_true, Bool.and_eq_true, Bool.and_eq_true, decide_eq_true_eq,
    beq_iff_eq] at h
  omega

/-- Between quotes a character stands for itself, or an escape stands for it. -/
theorem writeChar_cases (c : Char) :
    (writeChar c = [c] ∧ c ≠ '"' ∧ c ≠ '\\' ∧ c ≠ '\n' ∧ isControl c = false) ∨
      ∃ code, writeChar c = '\\' :: code ∧ ∀ t, escape? (code ++ t) = some (c, code.length) := by
  unfold writeChar
  split
  · exact Or.inr ⟨['b'], rfl, fun _ => rfl⟩
  · exact Or.inr ⟨['t'], rfl, fun _ => rfl⟩
  · exact Or.inr ⟨['n'], rfl, fun _ => rfl⟩
  · exact Or.inr ⟨['f'], rfl, fun _ => rfl⟩
  · exact Or.inr ⟨['r'], rfl, fun _ => rfl⟩
  · exact Or.inr ⟨['"'], rfl, fun _ => rfl⟩
  · exact Or.inr ⟨['\\'], rfl, fun _ => rfl⟩
  · split
    · rename_i hcontrol
      exact Or.inr ⟨'u' :: fourHex upperHex c.toNat, rfl,
        fun t => numericEscape?_fourHex (toNat_lt_of_isControl hcontrol) t⟩
    · rename_i hcontrol
      refine Or.inl ⟨rfl, ?_⟩
      simp_all

theorem head?_writeChar_append (c : Char) (t : List Char) :
    (writeChar c ++ t).head? = some c ∧ isControl c = false ∧ c ≠ '"' ∧ c ≠ '\n' ∨
      (writeChar c ++ t).head? = some '\\' := by
  rcases writeChar_cases c with ⟨hplain, hquote, -, hbreak, hcontrol⟩ | ⟨code, hescape, -⟩
  · rw [hplain]
    exact Or.inl ⟨rfl, hcontrol, hquote, hbreak⟩
  · rw [hescape]
    exact Or.inr rfl

/-! ## One line -/

theorem readBasic?_skip (skipped t : List Char) :
    readBasic? skipped.length (skipped ++ t) = readBasic? 0 t := by
  induction skipped with
  | nil => rfl
  | cons c rest ih => exact ih

theorem readBasic?_writeChar (c : Char) (t : List Char) :
    readBasic? 0 (writeChar c ++ t) = prepend [c] (readBasic? 0 t) := by
  rcases writeChar_cases c with ⟨hplain, hquote, hslash, hbreak, hcontrol⟩ | ⟨code, hescape, hread⟩
  · rw [hplain, List.singleton_append, readBasic?]
    simp [hquote, hslash, hbreak, hcontrol]
  · rw [hescape, List.cons_append, readBasic?]
    simp [hread, readBasic?_skip]

theorem readBasic?_written (s rest : List Char) :
    readBasic? 0 (s.flatMap writeChar ++ '"' :: rest) = some (s, rest) := by
  induction s with
  | nil => simp [readBasic?]
  | cons c s ih =>
      rw [List.flatMap_cons, List.append_assoc, readBasic?_writeChar, ih, prepend_some,
        List.singleton_append]

theorem readLiteral?_written {s : List Char} (plain : ∀ c ∈ s, isControl c = false)
    (oneLine : '\n' ∉ s) (free : '\'' ∉ s) (rest : List Char) :
    readLiteral? (s ++ '\'' :: rest) = some (s, rest) := by
  induction s with
  | nil => simp [readLiteral?]
  | cons c s ih =>
      rw [List.forall_mem_cons] at plain
      rw [List.mem_cons, not_or] at oneLine free
      rw [List.cons_append, readLiteral?, if_neg (Ne.symm free.1),
        if_neg (by simp [plain.1, Ne.symm oneLine.1]), ih plain.2 oneLine.2 free.2, prepend_some,
        List.singleton_append]

/-! ## Several lines -/

/-- Up to two marks in front of what does not go on with the mark are counted. -/
theorem closing_replicate {mark : Char} {k : Nat} (hk : k ≤ 2) {rest : List Char}
    (hrest : rest.head? ≠ some mark) :
    closing mark (List.replicate k mark ++ rest) = (List.replicate k mark, rest) := by
  have htaken : (List.replicate k mark ++ rest).takeWhile (· == mark) = List.replicate k mark := by
    rw [List.takeWhile_append_of_pos (by simp)]
    cases rest with
    | nil => simp
    | cons c rest =>
        have hc : (c == mark) = false := by simpa using hrest
        simp [hc]
  simp only [closing, htaken, List.length_replicate, Nat.min_eq_right hk]
  rw [List.drop_left' (List.length_replicate)]

theorem readLongBasic?_skip (skipped t : List Char) :
    readLongBasic? skipped.length (skipped ++ t) = readLongBasic? 0 t := by
  induction skipped with
  | nil => rfl
  | cons c rest ih => exact ih

theorem readLongBasic?_writeChar (c : Char) (t : List Char) :
    readLongBasic? 0 (writeChar c ++ t) = prepend [c] (readLongBasic? 0 t) := by
  rcases writeChar_cases c with ⟨hplain, hquote, hslash, -, hcontrol⟩ | ⟨code, hescape, hread⟩
  · have hreturn : c ≠ '\r' := by
      rintro rfl
      exact absurd hcontrol (by decide)
    rw [hplain, List.singleton_append, readLongBasic?]
    simp [hquote, hslash, hreturn, hcontrol]
  · rw [hescape, List.cons_append, readLongBasic?]
    simp [hread, readLongBasic?_skip]

/-- The closing marks of a text in a long form, and what stands behind them. -/
def closingMarks (mark : Char) (rest : List Char) : List Char :=
  mark :: mark :: mark :: rest

/-- The text ends at its closing marks, with up to two marks of its own in front of them. -/
theorem exists_closes_closingMarks {mark : Char} {k : Nat} (hk : k ≤ 2) {rest : List Char}
    (hrest : rest.head? ≠ some mark) :
    ∃ t, List.replicate k mark ++ closingMarks mark rest = mark :: t ∧ closes mark t = true ∧
      closing mark (t.drop 2) = (List.replicate k mark, rest) := by
  rw [← closing_replicate hk hrest]
  obtain rfl | rfl | rfl : k = 0 ∨ k = 1 ∨ k = 2 := by omega
  all_goals exact ⟨_, rfl, by simp [closes, closingMarks], rfl⟩

/-- What is written between three quotes starts with an escape or with the text itself, and not with
a third quote in a row. -/
theorem head?_writeLong_append {run : Nat} {s t : List Char} {c : Char}
    (h : (writeLong run s ++ t).head? = some c) :
    s = [] ∨ c = '\\' ∨ s.head? = some c ∧ isControl c = false ∧ (run = 2 → c ≠ '"') := by
  cases s with
  | nil => exact Or.inl rfl
  | cons d s =>
      right
      unfold writeLong at h
      split at h
      · rename_i hquote
        subst hquote
        split at h
        · exact Or.inl (Option.some.inj h).symm
        · rename_i hrun
          obtain rfl := Option.some.inj h
          exact Or.inr ⟨rfl, by decide, fun hfull => absurd hfull hrun⟩
      · split at h
        · rename_i hbreak
          subst hbreak
          obtain rfl := Option.some.inj h
          exact Or.inr ⟨rfl, by decide, fun _ => by decide⟩
        · rw [List.append_assoc] at h
          rcases head?_writeChar_append d (writeLong 0 s ++ t) with
            ⟨hhead, hcontrol, hquote, -⟩ | hhead
          · obtain rfl := Option.some.inj (hhead.symm.trans h)
            exact Or.inr ⟨rfl, hcontrol, fun _ => hquote⟩
          · exact Or.inl (Option.some.inj (h.symm.trans hhead))

theorem closes_cons {mark c : Char} {t : List Char} :
    closes mark (c :: t) = true ↔ c = mark ∧ t.head? = some mark := by
  cases t <;> simp [closes]

/-- Behind one or two quotes, two more only follow at the end of the text. -/
theorem eq_of_closes_writeLong {run : Nat} (hrun : run = 1 ∨ run = 2) {s rest : List Char}
    (h : closes '"' (writeLong run s ++ closingMarks '"' rest) = true) :
    s = [] ∨ s = ['"'] ∧ run = 1 := by
  have hfirst : (writeLong run s ++ closingMarks '"' rest).head? = some '"' := by
    cases hwritten : writeLong run s ++ closingMarks '"' rest with
    | nil => simp [hwritten, closes] at h
    | cons c t =>
        rw [hwritten, closes_cons] at h
        exact congrArg some h.1
  rcases head?_writeLong_append hfirst with rfl | hslash | ⟨hquote, -, hne⟩
  · exact Or.inl rfl
  · exact absurd hslash (by decide)
  · obtain rfl : run = 1 := hrun.resolve_right fun hfull => hne hfull rfl
    obtain ⟨t, rfl⟩ : ∃ t, s = '"' :: t := List.head?_eq_some_iff.mp hquote
    rw [writeLong, if_pos rfl, if_neg (by decide), List.cons_append, closes_cons] at h
    rcases head?_writeLong_append h.2 with rfl | hslash | ⟨-, -, hne⟩
    · exact Or.inr ⟨rfl, rfl⟩
    · exact absurd hslash (by decide)
    · exact absurd rfl (hne rfl)

/-- A quote of the text that only quotes follow is read with the closing marks. -/
theorem readLongBasic?_quotes {k : Nat} (hk : k ≤ 2) {rest : List Char}
    (hrest : rest.head? ≠ some '"') :
    readLongBasic? 0 (List.replicate k '"' ++ closingMarks '"' rest) =
      some (List.replicate k '"', rest) := by
  obtain ⟨t, ht, hcloses, hclosing⟩ := exists_closes_closingMarks hk hrest
  rw [ht, readLongBasic?, if_pos rfl, if_pos hcloses, hclosing]

theorem readLongBasic?_written {run : Nat} (hrun : run ≤ 2) (s : List Char) {rest : List Char}
    (hrest : rest.head? ≠ some '"') :
    readLongBasic? 0 (writeLong run s ++ closingMarks '"' rest) = some (s, rest) := by
  induction s generalizing run with
  | nil => exact readLongBasic?_quotes (k := 0) (by decide) hrest
  | cons c s ih =>
      by_cases hquote : c = '"'
      · subst hquote
        by_cases hfull : run = 2
        · -- the third quote in a row is escaped
          rw [writeLong, if_pos rfl, if_pos hfull]
          have hread := readLongBasic?_writeChar '"' (writeLong 0 s ++ closingMarks '"' rest)
          rw [ih (by decide)] at hread
          exact hread
        · rw [writeLong, if_pos rfl, if_neg hfull, List.cons_append]
          by_cases hcloses : closes '"' (writeLong (run + 1) s ++ closingMarks '"' rest) = true
          · -- only quotes of the text are left, and they are read with the closing marks
            rcases eq_of_closes_writeLong (by omega) hcloses with rfl | ⟨rfl, hone⟩
            · exact readLongBasic?_quotes (k := 1) (by decide) hrest
            · obtain rfl : run = 0 := by omega
              exact readLongBasic?_quotes (k := 2) (by decide) hrest
          · rw [readLongBasic?, if_pos rfl, if_neg hcloses, ih (by omega)]
            rfl
      · by_cases hbreak : c = '\n'
        · subst hbreak
          rw [writeLong, if_neg hquote, if_pos rfl, List.cons_append, readLongBasic?,
            if_neg hquote, if_neg (by decide), if_neg (by decide), if_neg (by decide),
            ih (by decide)]
          rfl
        · rw [writeLong, if_neg hquote, if_neg hbreak, List.append_assoc,
            readLongBasic?_writeChar, ih (by decide)]
          rfl

theorem readLongLiteral?_apostrophes {k : Nat} (hk : k ≤ 2) {rest : List Char}
    (hrest : rest.head? ≠ some '\'') :
    readLongLiteral? (List.replicate k '\'' ++ closingMarks '\'' rest) =
      some (List.replicate k '\'', rest) := by
  obtain ⟨t, ht, hcloses, hclosing⟩ := exists_closes_closingMarks hk hrest
  rw [ht, readLongLiteral?, if_pos rfl, if_pos hcloses, hclosing]

/-- Two marks in front of the closing ones are both of the text, or only the closing ones. -/
theorem eq_of_closes_append {mark : Char} {s rest : List Char} (h : closes mark s = false)
    (hclosed : closes mark (s ++ closingMarks mark rest) = true) : s = [] ∨ s = [mark] := by
  match s with
  | [] => exact Or.inl rfl
  | [c] =>
      obtain rfl := (closes_cons.mp hclosed).1
      exact Or.inr rfl
  | a :: b :: s => exact absurd (h.symm.trans hclosed) (by decide)

theorem readLongLiteral?_written {s : List Char} (plain : ∀ c ∈ s, isControl c = false)
    (free : hasTriple '\'' s = false) {rest : List Char} (hrest : rest.head? ≠ some '\'') :
    readLongLiteral? (s ++ closingMarks '\'' rest) = some (s, rest) := by
  induction s with
  | nil => exact readLongLiteral?_apostrophes (k := 0) (by decide) hrest
  | cons c s ih =>
      rw [List.forall_mem_cons] at plain
      rw [hasTriple, Bool.or_eq_false_iff] at free
      have hread := ih plain.2 free.2
      by_cases hmark : c = '\''
      · subst hmark
        by_cases hcloses : closes '\'' (s ++ closingMarks '\'' rest) = true
        · rcases eq_of_closes_append (by simpa using free.1) hcloses with rfl | rfl
          · exact readLongLiteral?_apostrophes (k := 1) (by decide) hrest
          · exact readLongLiteral?_apostrophes (k := 2) (by decide) hrest
        · rw [List.cons_append, readLongLiteral?, if_pos rfl, if_neg hcloses, hread]
          rfl
      · have hreturn : c ≠ '\r' := by
          rintro rfl
          exact absurd plain.1 (by decide)
        rw [List.cons_append, readLongLiteral?, if_neg hmark, if_neg hreturn,
          if_neg (by simp [plain.1]), hread]
        rfl

/-! ## Openings -/

theorem dropBreak_of_head?_ne {s : List Char} (hbreak : s.head? ≠ some '\n')
    (hreturn : s.head? ≠ some '\r') : dropBreak s = s := by
  unfold dropBreak
  split
  · exact absurd rfl hbreak
  · exact absurd rfl hreturn
  · rfl

/-- The line break behind the opening marks is left out, and no other. -/
theorem dropBreak_openingBreak_append {s written : List Char}
    (hbreak : '\n' ∉ s → written.head? ≠ some '\n')
    (hreturn : written.head? ≠ some '\r') :
    dropBreak (openingBreak s ++ written) = written := by
  rw [openingBreak]
  split
  · rfl
  · rename_i hmem
    have hmem : '\n' ∉ s := by simpa using hmem
    exact dropBreak_of_head?_ne (hbreak hmem) hreturn

theorem readString?_quote {s : List Char} (h : closes '"' s = false) :
    readString? ('"' :: s) = readBasic? 0 s := by
  unfold readString?
  split
  · rename_i heq
    rw [(List.cons.inj heq).2] at h
    simp [closes] at h
  · rename_i heq
    simp at heq
  · rfl

theorem readString?_apostrophe {s : List Char} (h : closes '\'' s = false) :
    readString? ('\'' :: s) = readLiteral? s := by
  unfold readString?
  split
  · rename_i heq
    simp at heq
  · rename_i heq
    rw [(List.cons.inj heq).2] at h
    simp [closes] at h
  · rfl

/-! ## Every form -/

/-- A form can hold a text. -/
def Form.Holds : Form → List Char → Prop
  | .literal, s => (∀ c ∈ s, isControl c = false) ∧ '\n' ∉ s ∧ '\'' ∉ s
  | .longLiteral, s => (∀ c ∈ s, isControl c = false) ∧ hasTriple '\'' s = false
  | .basic, _ => True
  | .longBasic, _ => True

/-- A string is written in a form that can hold it. -/
theorem formFor_holds (s : List Char) : (formFor s).Holds s := by
  unfold formFor
  dsimp only
  split
  · trivial
  · split
    · rename_i h
      simpa [Form.Holds, and_assoc] using h
    · split
      · trivial
      · split
        · rename_i h
          simpa [Form.Holds] using h
        · split
          · trivial
          · trivial

theorem closes_append_of_head?_ne {mark : Char} {s rest : List Char} (hs : s.head? ≠ some mark)
    (hrest : rest.head? ≠ some mark) : closes mark (s ++ mark :: rest) = false := by
  rw [Bool.eq_false_iff]
  intro h
  cases s with
  | nil => exact hrest (closes_cons.mp h).2
  | cons c s => exact hs (congrArg some (closes_cons.mp h).1)

theorem head?_flatMap_writeChar (s : List Char) : (s.flatMap writeChar).head? ≠ some '"' := by
  cases s with
  | nil => simp
  | cons c s =>
      intro h
      rw [List.flatMap_cons] at h
      rcases head?_writeChar_append c (s.flatMap writeChar) with ⟨hhead, -, hquote, -⟩ | hhead
      · exact hquote (Option.some.inj (hhead.symm.trans h))
      · exact absurd (hhead.symm.trans h) (by decide)

theorem dropBreak_written (s rest : List Char) :
    dropBreak (openingBreak s ++ (writeLong 0 s ++ closingMarks '"' rest)) =
      writeLong 0 s ++ closingMarks '"' rest := by
  apply dropBreak_openingBreak_append
  · intro hmem h
    rcases head?_writeLong_append h with rfl | hslash | ⟨hhead, -⟩
    · exact absurd h (by simp [writeLong, closingMarks])
    · exact absurd hslash (by decide)
    · exact hmem (List.mem_of_mem_head? hhead)
  · intro h
    rcases head?_writeLong_append h with rfl | hslash | ⟨-, hcontrol, -⟩
    · exact absurd h (by simp [writeLong, closingMarks])
    · exact absurd hslash (by decide)
    · exact absurd hcontrol (by decide)

theorem eq_nil_or_mem_of_head?_append {s t : List Char} {c : Char}
    (h : (s ++ t).head? = some c) : s = [] ∨ c ∈ s := by
  cases s with
  | nil => exact Or.inl rfl
  | cons d s => exact Or.inr (List.mem_of_mem_head? h)

/-- A text is read back in every form that can hold it. -/
theorem readString?_writeAs {form : Form} {s : List Char} (h : form.Holds s) {rest : List Char}
    (ends : EndsString rest) : readString? (writeAs form s ++ rest) = some (s, rest) := by
  cases form with
  | basic =>
      have hwritten : writeAs .basic s ++ rest = '"' :: (s.flatMap writeChar ++ '"' :: rest) := by
        simp [writeAs]
      rw [hwritten,
        readString?_quote (closes_append_of_head?_ne (head?_flatMap_writeChar s) ends.quote),
        readBasic?_written]
  | literal =>
      obtain ⟨plain, oneLine, free⟩ := h
      have hwritten : writeAs .literal s ++ rest = '\'' :: (s ++ '\'' :: rest) := by
        simp [writeAs]
      have hhead : s.head? ≠ some '\'' := fun hhead => free (List.mem_of_mem_head? hhead)
      rw [hwritten, readString?_apostrophe (closes_append_of_head?_ne hhead ends.apostrophe),
        readLiteral?_written plain oneLine free]
  | longBasic =>
      have hwritten : writeAs .longBasic s ++ rest =
          closingMarks '"' (openingBreak s ++ (writeLong 0 s ++ closingMarks '"' rest)) := by
        simp [writeAs, closingMarks]
      rw [hwritten, closingMarks, readString?, dropBreak_written,
        readLongBasic?_written (by decide) s ends.quote]
  | longLiteral =>
      obtain ⟨plain, free⟩ := h
      have hwritten : writeAs .longLiteral s ++ rest =
          closingMarks '\'' (openingBreak s ++ (s ++ closingMarks '\'' rest)) := by
        simp [writeAs, closingMarks]
      have hdrop : dropBreak (openingBreak s ++ (s ++ closingMarks '\'' rest)) =
          s ++ closingMarks '\'' rest := by
        apply dropBreak_openingBreak_append
        · intro hbreak hhead
          rcases eq_nil_or_mem_of_head?_append hhead with rfl | hmem
          · exact absurd hhead (by simp [closingMarks])
          · exact hbreak hmem
        · intro hhead
          rcases eq_nil_or_mem_of_head?_append hhead with rfl | hmem
          · exact absurd hhead (by simp [closingMarks])
          · exact absurd (plain _ hmem) (by decide)
      rw [hwritten, closingMarks, readString?, hdrop,
        readLongLiteral?_written plain free ends.apostrophe]

/-- A written string is read back. -/
theorem readString?_writeString (s : String) {rest : List Char} (ends : EndsString rest) :
    readString? ((writeString s).toList ++ rest) = some (s.toList, rest) := by
  rw [writeString, String.toList_ofList]
  exact readString?_writeAs (formFor_holds s.toList) ends

end FacetedSearch.Toml
