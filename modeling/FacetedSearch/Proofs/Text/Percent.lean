import FacetedSearch.Text.Percent

/-!
# Reading percent-encoded texts

What `percentChars` writes holds only characters of a URL component and percent signs, and
`decodePercent?` reads it back as the text it came from: a percent sign always opens a byte, and a
character that stands for itself is never one.
-/

namespace FacetedSearch.Text

/-! ## Bytes -/

theorem hexDigit?_upperHex {n : Nat} (h : n < 16) : hexDigit? (upperHex n) = some n := by
  have hall : ∀ m < 16, hexDigit? (upperHex m) = some m := by decide
  exact hall n h

theorem isComponentChar_upperHex {n : Nat} (h : n < 16) : isComponentChar (upperHex n) = true := by
  have hall : ∀ m < 16, isComponentChar (upperHex m) = true := by decide
  exact hall n h

/-- What holds of all hexadecimal digits holds of the two of a byte. -/
theorem forall_mem_digits {P : Char → Prop} (h : ∀ n < 16, P (upperHex n)) (b : UInt8) :
    ∀ c ∈ [upperHex (b.toNat / 16), upperHex (b.toNat % 16)], P c := by
  have hsize := b.toNat_lt
  rw [List.forall_mem_cons, List.forall_mem_singleton]
  exact ⟨h _ (by omega), h _ (by omega)⟩

theorem percentBytes?_percentByte_append (b : UInt8) (rest : List Char) :
    percentBytes? (percentByte b ++ rest) = (percentBytes? rest).map (b :: ·) := by
  have hsize := b.toNat_lt
  have hhigh : hexDigit? (upperHex (b.toNat / 16)) = some (b.toNat / 16) :=
    hexDigit?_upperHex (by omega)
  have hlow : hexDigit? (upperHex (b.toNat % 16)) = some (b.toNat % 16) :=
    hexDigit?_upperHex (by omega)
  have hbyte : UInt8.ofNat (16 * (b.toNat / 16) + b.toNat % 16) = b := by
    rw [Nat.div_add_mod, UInt8.ofNat_toNat]
  simp only [percentByte, List.cons_append, List.nil_append, percentBytes?, hhigh, hlow,
    Option.bind_eq_bind, Option.bind_some, hbyte]
  cases percentBytes? rest <;> rfl

theorem percentBytes?_flatMap_percentByte_append (bytes : List UInt8) (rest : List Char) :
    percentBytes? (bytes.flatMap percentByte ++ rest) =
      (percentBytes? rest).map (bytes ++ ·) := by
  induction bytes with
  | nil => simp
  | cons b bytes ih =>
      rw [List.flatMap_cons, List.append_assoc, percentBytes?_percentByte_append, ih,
        Option.map_map]
      rfl

/-- A character other than a percent sign stands for itself. -/
theorem percentBytes?_cons_of_ne {c : Char} (h : c ≠ '%') (rest : List Char) :
    percentBytes? (c :: rest) = (percentBytes? rest).map (String.utf8EncodeChar c ++ ·) := by
  rw [percentBytes?]
  · simp only [h, if_false]
    cases percentBytes? rest <;> rfl
  · intro _ _ _ hc
    exact absurd hc h

/-! ## Characters -/

theorem ne_percent_of_isComponentChar {c : Char} (h : isComponentChar c = true) : c ≠ '%' := by
  rintro rfl
  exact absurd h (by decide)

theorem percentBytes?_percentChar_append (c : Char) (rest : List Char) :
    percentBytes? (percentChar c ++ rest) =
      (percentBytes? rest).map (String.utf8EncodeChar c ++ ·) := by
  rw [percentChar]
  split
  · rename_i hcomponent
    exact percentBytes?_cons_of_ne (ne_percent_of_isComponentChar hcomponent) rest
  · exact percentBytes?_flatMap_percentByte_append _ rest

/-- A percent-encoded text stands for its UTF-8 bytes. -/
theorem percentBytes?_percentChars_append (s rest : List Char) :
    percentBytes? (percentChars s ++ rest) =
      (percentBytes? rest).map (s.flatMap String.utf8EncodeChar ++ ·) := by
  induction s with
  | nil => simp
  | cons c s ih =>
      rw [percentChars_cons, List.append_assoc, percentBytes?_percentChar_append, ih,
        Option.map_map, List.flatMap_cons]
      congr 1
      funext bytes
      exact (List.append_assoc _ _ _).symm

/-- Bytes that spell a text are read as this text. -/
theorem decodePercent?_of_bytes {s t : List Char}
    (h : percentBytes? s = some (t.flatMap String.utf8EncodeChar)) : decodePercent? s = some t := by
  have hencode : ByteArray.mk (t.flatMap String.utf8EncodeChar).toArray = t.utf8Encode :=
    ByteArray.ext List.data_toByteArray.symm
  simp [decodePercent?, h, hencode, List.utf8Decode?_utf8Encode]

/-- A percent-encoded text is read back. -/
theorem decodePercent?_percentChars (s : List Char) : decodePercent? (percentChars s) = some s := by
  apply decodePercent?_of_bytes
  simpa [percentBytes?] using percentBytes?_percentChars_append s []

/-- An ASCII byte stands for the character with its code point. -/
theorem toNat_eq_of_mem_utf8EncodeChar {c : Char} {b : UInt8}
    (h : b ∈ String.utf8EncodeChar c) (ascii : b.toNat < 128) : c.toNat = b.toNat := by
  unfold String.utf8EncodeChar at h
  dsimp only at h
  split at h
  · obtain rfl := List.mem_singleton.mp h
    rw [UInt8.toNat_ofNat']
    change c.val.toNat = _
    omega
  · -- All bytes of a longer character have their highest bit set.
    exfalso
    split at h
    · simp only [List.mem_cons, List.not_mem_nil, or_false] at h
      rcases h with rfl | rfl <;> rw [UInt8.toNat_ofNat'] at ascii <;> omega
    · split at h
      · simp only [List.mem_cons, List.not_mem_nil, or_false] at h
        rcases h with rfl | rfl | rfl <;> rw [UInt8.toNat_ofNat'] at ascii <;> omega
      · simp only [List.mem_cons, List.not_mem_nil, or_false] at h
        rcases h with rfl | rfl | rfl | rfl <;> rw [UInt8.toNat_ofNat'] at ascii <;> omega

theorem mem_percentByte {b : UInt8} {c : Char} (h : c ∈ percentByte b) :
    isComponentChar c = true ∨ c = '%' := by
  rcases List.mem_cons.mp h with rfl | hdigit
  · exact Or.inr rfl
  · have hcomponent :
        ∀ d ∈ [upperHex (b.toNat / 16), upperHex (b.toNat % 16)], isComponentChar d = true :=
      forall_mem_digits (fun _ hn => isComponentChar_upperHex hn) b
    exact Or.inl (hcomponent c hdigit)

/-- A percent-encoded text holds no other characters than those of a component and percent signs. -/
theorem mem_percentChars {s : List Char} {c : Char} (h : c ∈ percentChars s) :
    isComponentChar c = true ∨ c = '%' := by
  obtain ⟨d, -, hc⟩ := List.mem_flatMap.mp h
  rw [percentChar] at hc
  split at hc
  · rename_i hcomponent
    rw [List.mem_singleton.mp hc]
    exact Or.inl hcomponent
  · obtain ⟨b, -, hb⟩ := List.mem_flatMap.mp hc
    exact mem_percentByte hb

end FacetedSearch.Text
