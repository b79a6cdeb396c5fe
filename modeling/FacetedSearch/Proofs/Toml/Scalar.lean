import FacetedSearch.Toml.Scalar
import Mathlib.Data.List.Basic

/-!
# Reading bare values back

A bare value ends before a line break, a comma or a closing bracket. Truth values read back, and
decimal digits read as the number that they spell unless they start with a needless zero.
-/

namespace FacetedSearch.Toml

open Text

/-- Nothing but a line break, a comma or a closing bracket stands behind a value. -/
def EndsValue (rest : List Char) : Prop :=
  ∀ c, rest.head? = some c → c ∈ ['\n', ',', ']']

theorem EndsValue.cons {c : Char} (h : c ∈ ['\n', ',', ']']) (rest : List Char) :
    EndsValue (c :: rest) := by
  rintro d hd
  exact Option.some.inj hd ▸ h

theorem EndsValue.head?_ne {rest : List Char} (ends : EndsValue rest) {c : Char}
    (h : c ∉ ['\n', ',', ']']) : rest.head? ≠ some c :=
  fun hc => h (ends c hc)

/-- Characters of different kinds differ. -/
theorem ne_of_kind {p : Char → Bool} {c d : Char} (hc : p c = true) (hd : p d = false) :
    c ≠ d := by
  rintro rfl
  exact absurd hc (by simp [hd])

/-- A run of characters of a kind ends where a character of another kind follows. -/
theorem span_append {p : Char → Bool} {run rest : List Char} (inside : ∀ c ∈ run, p c = true)
    (stops : ∀ c, rest.head? = some c → p c = false) :
    (run ++ rest).takeWhile p = run ∧ (run ++ rest).dropWhile p = rest := by
  rw [List.takeWhile_append_of_pos inside, List.dropWhile_append_of_pos inside]
  cases rest with
  | nil => simp
  | cons c rest => simp [stops c rfl]

/-- A bare value goes on up to the first character that is no part of one. -/
theorem readBare?_append {token rest : List Char} (bare : ∀ c ∈ token, isBareChar c = true)
    (ends : EndsValue rest) :
    readBare? (token ++ rest) = (bareValue? token).map (·, rest) := by
  have hmarks : ['\n', ',', ']'].all (!isBareChar ·) = true := by decide
  have hstops : ∀ c, rest.head? = some c → isBareChar c = false := by
    intro c hc
    simpa using List.all_eq_true.mp hmarks c (ends c hc)
  obtain ⟨htoken, hrest⟩ := span_append bare hstops
  have htime : timeFollows token rest = false := by
    cases rest with
    | nil => simp [timeFollows]
    | cons c rest =>
        have hspace : c ≠ ' ' := by
          rintro rfl
          exact ends.head?_ne (by decide) rfl
        simp [timeFollows, hspace]
  rw [readBare?, htoken, hrest, if_neg (by simp [htime])]

/-! ## Whole numbers -/

section Digits

variable {s : List Char}

theorem groupedDigits?_digits (hne : s ≠ []) (digits : ∀ c ∈ s, isAsciiDigit c = true) :
    groupedDigits? isAsciiDigit s = some s := by
  have hwhole : s.splitOn '_' = [s] :=
    List.splitOn_eq_singleton fun hmem => absurd (digits _ hmem) (by decide)
  rw [groupedDigits?, hwhole]
  simpa [hne] using digits

theorem decimalDigits?_digits (hne : s ≠ []) (digits : ∀ c ∈ s, isAsciiDigit c = true)
    (first : s.head? = some '0' → s = ['0']) : decimalDigits? s = some s := by
  rw [decimalDigits?, groupedDigits?_digits hne digits]
  split
  · rename_i heq
    exact heq.symm
  · rename_i heq
    obtain rfl := Option.some.inj heq
    rename_i hlonger
    exact absurd (List.cons.inj (first rfl)).2 hlonger
  · rfl

theorem numberValue?_digits (digits : ∀ c ∈ s, isAsciiDigit c = true) :
    numberValue? s = unsignedValue? false s := by
  have hsign : spanSign s = (false, s) := by
    unfold spanSign
    split
    · exact absurd (digits '-' (by simp)) (by decide)
    · exact absurd (digits '+' (by simp)) (by decide)
    · rfl
  unfold numberValue?
  split
  · exact absurd (digits 'x' (by simp)) (by decide)
  · exact absurd (digits 'o' (by simp)) (by decide)
  · exact absurd (digits 'b' (by simp)) (by decide)
  · rw [hsign]

/-- Digits are neither a word nor a date, and have no sign, base, point or exponent. -/
theorem bareValue?_eq_of_digits (digits : ∀ c ∈ s, isAsciiDigit c = true) :
    bareValue? s = (decimalDigits? s).bind fun ds => integerValue? (digitsValue ds) := by
  have hword : ∀ word : List Char, ∀ c ∈ word, isAsciiDigit c = false → s ≠ word := by
    rintro word c hmem hc rfl
    exact absurd (digits c hmem) (by simp [hc])
  have hdate : looksLikeDate s = false := by
    have hrest : s.dropWhile isAsciiDigit = [] := by
      rw [← List.append_nil s, List.dropWhile_append_of_pos digits, List.dropWhile_nil]
    simp [looksLikeDate, spanDigits, hrest]
  have hreal : (s.any fun c => c == '.' || c == 'e' || c == 'E') = false := by
    rw [List.any_eq_false]
    intro c hc
    have hdigit := digits c hc
    simp only [Bool.or_eq_true, beq_iff_eq]
    rintro ((rfl | rfl) | rfl)
    all_goals exact absurd hdigit (by decide)
  rw [bareValue?, if_neg (hword _ 't' (by decide) (by decide)),
    if_neg (hword _ 'f' (by decide) (by decide)), if_neg (by simp [hdate]),
    numberValue?_digits digits, unsignedValue?, if_neg (hword _ 'i' (by decide) (by decide)),
    if_neg (hword _ 'n' (by decide) (by decide)), if_neg (by simp [hreal])]
  rfl

/-- Digits are read as the number that they spell. -/
theorem bareValue?_digits (hne : s ≠ []) (digits : ∀ c ∈ s, isAsciiDigit c = true)
    (first : s.head? = some '0' → s = ['0']) (fits : digitsValue s < Nat.pow 2 128) :
    bareValue? s = some (.integer (digitsValue s)) := by
  have hfits : integerValue? (digitsValue s) = some (.integer (digitsValue s)) := by
    have hsign : ¬ (digitsValue s : Int) < 0 := by omega
    simpa [integerValue?, hsign] using fits
  rw [bareValue?_eq_of_digits digits, decimalDigits?_digits hne digits first, Option.bind_some,
    hfits]

end Digits

theorem isAsciiDigit_of_mem_toDigits {n : Nat} {c : Char} (h : c ∈ Nat.toDigits 10 n) :
    isAsciiDigit c = true :=
  Nat.isDigit_of_mem_toDigits (by decide) (by decide) h

/-- Zero alone starts with the digit zero. -/
theorem head?_toDigits (n : Nat) (h : (Nat.toDigits 10 n).head? = some '0') : n = 0 := by
  induction n using Nat.strongRecOn with
  | ind n ih =>
      by_cases hsmall : n < 10
      · rw [Nat.toDigits_of_lt_base hsmall] at h
        have hall : ∀ m < 10, some (Nat.digitChar m) = some '0' → m = 0 := by decide
        exact hall n hsmall h
      · rw [Nat.toDigits_of_base_le (by decide) (by omega),
          List.head?_append_of_ne_nil _ Nat.toDigits_ne_nil] at h
        have hzero := ih (n / 10) (by omega) h
        omega

theorem digitsValue_toDigits (n : Nat) : digitsValue (Nat.toDigits 10 n) = n :=
  Nat.ofDigitChars_ten_toDigits

theorem isBareChar_of_mem_toDigits {n : Nat} {c : Char} (h : c ∈ Nat.toDigits 10 n) :
    isBareChar c = true := by
  simp [isBareChar, isAsciiDigit_of_mem_toDigits h]

/-- A number in decimal digits is read back. -/
theorem bareValue?_toDigits {n : Nat} (fits : n < Nat.pow 2 128) :
    bareValue? (Nat.toDigits 10 n) = some (.integer n) := by
  have digits : ∀ c ∈ Nat.toDigits 10 n, isAsciiDigit c = true :=
    fun c => isAsciiDigit_of_mem_toDigits
  have first : (Nat.toDigits 10 n).head? = some '0' → Nat.toDigits 10 n = ['0'] := by
    intro h
    rw [head?_toDigits n h, Nat.toDigits_zero]
  rw [← digitsValue_toDigits n] at fits
  rw [bareValue?_digits Nat.toDigits_ne_nil digits first fits, digitsValue_toDigits]

end FacetedSearch.Toml
