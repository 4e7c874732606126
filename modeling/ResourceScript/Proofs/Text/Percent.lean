import ResourceScript.Text.Percent
import ResourceScript.Proofs.Text.Utf8
/-!
# Escapes are undone by decoding

Escaped bytes decode to the bytes (`decodeBytes_encodeBytes`), and escaped texts to the texts
(`decode_encodeBytes`). The text of a query string decodes to the text that was escaped
(`decodeQuery_encodeQuery`), and it consists of unreserved characters, percent signs and plus signs
(`isQueryChar_of_mem`), so it holds no character that separates the entries of a form.
-/

set_option autoImplicit false

namespace ResourceScript.Text.Percent

/-- The characters of escaped query strings. -/
def isQueryChar (c : Char) : Bool :=
  isUnreserved c || c == '%' || c == '+'

/-! ### Hexadecimal digits -/

theorem hexValue?_upperHexDigit {n : Nat} (hdigit : n < 16) :
    hexValue? (upperHexDigit n) = some n := by
  have hall : ∀ m < 16, hexValue? (upperHexDigit m) = some m := by decide
  exact hall n hdigit

theorem isUnreserved_upperHexDigit {n : Nat} (hdigit : n < 16) :
    isUnreserved (upperHexDigit n) = true := by
  have hall : ∀ m < 16, isUnreserved (upperHexDigit m) = true := by decide
  exact hall n hdigit

/-- The two digits of a byte give the byte. -/
theorem digits_byte (b : UInt8) : UInt8.ofNat (b.toNat / 16 * 16 + b.toNat % 16) = b := by
  rw [Nat.div_add_mod' b.toNat 16, UInt8.ofNat_toNat]

/-! ### One byte -/

section Bytes

variable (keep : Char → Bool)

theorem decodeAscii_plain {b : UInt8} (rest : List Char) (hsmall : b.toNat < 0x80)
    (hpercent : Char.ofNat b.toNat ≠ '%') :
    decodeAscii (Char.ofNat b.toNat :: rest) = b :: decodeAscii rest := by
  have hvalid : b.toNat.isValidChar := by
    left
    omega
  have htoNat : (Char.ofNat b.toNat).toNat = b.toNat := by
    rw [Char.ofNat, dif_pos hvalid]
    exact UInt32.toNat_ofNatLT ..
  rw [decodeAscii.eq_3 _ _ (by grind), htoNat, UInt8.ofNat_toNat]

/-- A byte is read back in front of any text. -/
theorem decodeAscii_encodeByte (b : UInt8) (rest : List Char) (hkeep : keep '%' = false) :
    decodeAscii (encodeByte keep b ++ rest) = b :: decodeAscii rest := by
  have hbyte : b.toNat < 0x100 := b.toNat_lt
  by_cases hplain : b.toNat < 0x80 ∧ (isUnreserved (Char.ofNat b.toNat) ||
      keep (Char.ofNat b.toNat)) = true
  · have hpercent : Char.ofNat b.toNat ≠ '%' := by
      intro heq
      rw [heq, hkeep] at hplain
      exact absurd hplain.2 (by decide)
    rw [encodeByte, if_pos hplain, List.singleton_append,
      decodeAscii_plain rest hplain.1 hpercent]
  · rw [encodeByte, if_neg hplain, List.cons_append, List.cons_append, List.singleton_append,
      decodeAscii, hexValue?_upperHexDigit (by omega), hexValue?_upperHexDigit (by omega)]
    exact congrArg (· :: decodeAscii rest) (digits_byte b)

theorem decodeAscii_encodeBytes (bytes : List UInt8) (hkeep : keep '%' = false) :
    decodeAscii (encodeBytes keep bytes) = bytes := by
  induction bytes with
  | nil => rw [encodeBytes, List.flatMap_nil, decodeAscii]
  | cons b bytes ih =>
    rw [encodeBytes, List.flatMap_cons, decodeAscii_encodeByte keep b _ hkeep]
    exact congrArg (b :: ·) ih

/-- Every character of an escaped text is unreserved, one that is kept, or a percent sign. -/
theorem of_mem_encodeBytes {bytes : List UInt8} {c : Char} (hmem : c ∈ encodeBytes keep bytes) :
    isUnreserved c = true ∨ keep c = true ∨ c = '%' := by
  obtain ⟨b, -, hmem⟩ := List.mem_flatMap.mp hmem
  have hbyte : b.toNat < 0x100 := b.toNat_lt
  by_cases hplain : b.toNat < 0x80 ∧ (isUnreserved (Char.ofNat b.toNat) ||
      keep (Char.ofNat b.toNat)) = true
  · rw [encodeByte, if_pos hplain, List.mem_singleton] at hmem
    rw [hmem]
    rcases Bool.or_eq_true_iff.mp hplain.2 with hunreserved | hkept
    · exact Or.inl hunreserved
    · exact Or.inr (Or.inl hkept)
  · rw [encodeByte, if_neg hplain] at hmem
    simp only [List.mem_cons, List.not_mem_nil, or_false] at hmem
    rcases hmem with hmem | hmem | hmem
    · exact Or.inr (Or.inr hmem)
    · exact Or.inl (hmem ▸ isUnreserved_upperHexDigit (by omega))
    · exact Or.inl (hmem ▸ isUnreserved_upperHexDigit (by omega))

end Bytes

/-- Unreserved characters are visible ASCII characters. -/
theorem toNat_of_isUnreserved {c : Char} (hc : isUnreserved c = true) :
    0x20 < c.toNat ∧ c.toNat < 0x80 := by
  simp only [isUnreserved, isAsciiLetter, isAsciiDigit, Bool.or_eq_true, Bool.and_eq_true,
    decide_eq_true_eq, beq_iff_eq, Char.le_def, UInt32.le_iff_toNat_le] at hc
  rcases hc with ((((hletter | hdigit) | rfl) | rfl) | rfl) | rfl
  · rcases hletter with ⟨hge, hle⟩ | ⟨hge, hle⟩ <;>
      exact ⟨Nat.lt_of_lt_of_le (by decide) hge, Nat.lt_of_le_of_lt hle (by decide)⟩
  · exact ⟨Nat.lt_of_lt_of_le (by decide) hdigit.1, Nat.lt_of_le_of_lt hdigit.2 (by decide)⟩
  all_goals decide

/-- Escaped bytes are ASCII characters, if the characters to keep are. -/
theorem isAscii_of_mem_encodeBytes {keep : Char → Bool} (hkeep : ∀ c, keep c = true → c.toNat < 0x80)
    {bytes : List UInt8} {c : Char} (hmem : c ∈ encodeBytes keep bytes) : c.toNat < 0x80 := by
  rcases of_mem_encodeBytes keep hmem with hunreserved | hkept | rfl
  · exact (toNat_of_isUnreserved hunreserved).2
  · exact hkeep c hkept
  · decide

/-- Bytes with everything escaped are read back. -/
theorem decodeBytes_encodeBytes (bytes : List UInt8) :
    decodeBytes (encodeBytes (fun _ ↦ false) bytes) = bytes := by
  have hascii : ∀ c ∈ encodeBytes (fun _ ↦ false) bytes, c.toNat < 0x80 := fun c hc ↦
    isAscii_of_mem_encodeBytes (fun _ hkept ↦ absurd hkept Bool.false_ne_true) hc
  have hsame : (Utf8.encode (encodeBytes (fun _ ↦ false) bytes)).map (fun b ↦ Char.ofNat b.toNat) =
      encodeBytes (fun _ ↦ false) bytes := by
    rw [Utf8.encode_of_isAscii hascii, List.map_map]
    refine (List.map_congr_left fun c hc ↦ ?_).trans (List.map_id _)
    show Char.ofNat (UInt8.ofNat c.toNat).toNat = c
    rw [Utf8.toNat_ofNat_of_isAscii (hascii c hc), Char.ofNat_toNat]
  rw [decodeBytes, hsame, decodeAscii_encodeBytes _ _ rfl]

/-! ### Query strings -/

theorem isQueryChar_of_mem {text : List Char} {c : Char} (hmem : c ∈ encodeQuery text) :
    isQueryChar c = true := by
  obtain ⟨d, hd, rfl⟩ := List.mem_map.mp hmem
  by_cases hspace : d = ' '
  · rw [if_pos hspace]
    rfl
  · rw [if_neg hspace]
    rcases of_mem_encodeBytes _ hd with hunreserved | hkept | hpercent
    · simp [isQueryChar, hunreserved]
    · exact absurd (beq_iff_eq.mp hkept) hspace
    · rw [hpercent]
      rfl

theorem isSpace_of_isQueryChar {c : Char} (hc : isQueryChar c = true) : isSpace c = false := by
  simp only [isQueryChar, Bool.or_eq_true, beq_iff_eq] at hc
  rcases hc with (hunreserved | rfl) | rfl
  · have hrange := toNat_of_isUnreserved hunreserved
    simp only [isSpace, Bool.or_eq_false_iff, Bool.and_eq_false_iff, decide_eq_false_iff_not,
      beq_eq_false_iff_ne]
    omega
  all_goals decide

/-- A text of ASCII characters is decoded in one run. -/
theorem decode_go_ascii (run text : List Char) (hascii : ∀ c ∈ text, c.toNat < 0x80) :
    decode.go run text = Utf8.decode (decodeAscii (run.reverse ++ text)) := by
  induction text generalizing run with
  | nil => rw [decode.go, List.append_nil]
  | cons c rest ih =>
    rw [decode.go, if_pos (hascii c List.mem_cons_self),
      ih (c :: run) fun d hd ↦ hascii d (List.mem_cons_of_mem c hd), List.reverse_cons,
      List.append_assoc, List.singleton_append]

/-- Decoding undoes escapes, if only ASCII characters other than the percent sign are kept. -/
theorem decode_encodeBytes {keep : Char → Bool} (hpercent : keep '%' = false)
    (hkeep : ∀ c, keep c = true → c.toNat < 0x80) (text : List Char) :
    decode (encodeBytes keep (Utf8.encode text)) = text := by
  have hascii : ∀ c ∈ encodeBytes keep (Utf8.encode text), c.toNat < 0x80 := fun c hc ↦
    isAscii_of_mem_encodeBytes hkeep hc
  rw [decode, decode_go_ascii [] _ hascii, List.reverse_nil, List.nil_append,
    decodeAscii_encodeBytes _ _ hpercent, Utf8.decode_encode]

/-- Decoding undoes the escapes of query strings. -/
theorem decodeQuery_encodeQuery (text : List Char) : decodeQuery (encodeQuery text) = text := by
  have hplus : (encodeQuery text).map (fun c ↦ if c = '+' then ' ' else c) =
      encodeBytes (· == ' ') (Utf8.encode text) := by
    rw [encodeQuery, List.map_map]
    refine (List.map_congr_left fun c hc ↦ ?_).trans (List.map_id _)
    have hnot : c ≠ '+' := by
      rintro rfl
      exact absurd (of_mem_encodeBytes _ hc) (by decide)
    by_cases hspace : c = ' '
    · simp [hspace]
    · simp [hspace, hnot]
  have hspace : ∀ c, (c == ' ') = true → c.toNat < 0x80 := by
    intro c hc
    rw [beq_iff_eq.mp hc]
    decide
  rw [decodeQuery, hplus, decode_encodeBytes (by decide) hspace]

end ResourceScript.Text.Percent
