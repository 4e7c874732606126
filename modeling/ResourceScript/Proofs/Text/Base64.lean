import ResourceScript.Text.Base64
/-!
# Base64 is undone by decoding

Each group of six bits is read back from its character, so three bytes are read back from the four
characters of a group, whatever follows (`decodeFrom_group`), and all bytes from their text
(`decode_encode`).
-/

set_option autoImplicit false

namespace ResourceScript.Text.Base64

variable {n : Nat}

/-! ### The alphabet -/

/-- The character of a group of six bits is a visible ASCII character, and no padding. -/
theorem digit_spec (hn : n < 64) : digitValue? (digit n) = some n ∧ digit n ≠ '=' ∧
    (digit n).toNat < 0x80 := by
  have hall : ∀ m < 64, digitValue? (digit m) = some m ∧ digit m ≠ '=' ∧ (digit m).toNat < 0x80 := by
    decide
  exact hall n hn

/-- A character of the alphabet is read by its place in the group. -/
theorem decodeFrom_digit (hn : n < 64) (position left pads : Nat) (rest : List Char) :
    decodeFrom position left pads (digit n :: rest) = match position with
      | 0 => decodeFrom 1 n 0 rest
      | 1 => (decodeFrom 2 (n % 16) 0 rest).map (UInt8.ofNat (left * 4 + n / 16) :: ·)
      | 2 => (decodeFrom 3 (n % 4) 0 rest).map (UInt8.ofNat (left * 16 + n / 4) :: ·)
      | _ => (decodeFrom 0 0 0 rest).map (UInt8.ofNat (left * 64 + n) :: ·) := by
  obtain ⟨hvalue, hpad, -⟩ := digit_spec hn
  rw [decodeFrom, if_neg hpad]
  generalize digitValue? (digit n) = found at hvalue ⊢
  subst hvalue
  rfl

/-! ### Groups -/

/-- A byte is what its bits in two neighbouring groups give. -/
theorem ofNat_eq {m : Nat} {b : UInt8} (h : m = b.toNat) : UInt8.ofNat m = b := by
  rw [h, UInt8.ofNat_toNat]

/-- Three bytes are read back from their group. -/
theorem decodeFrom_group (a b c : UInt8) (rest : List Char) :
    let n := (a.toNat * 256 + b.toNat) * 256 + c.toNat
    decodeFrom 0 0 0 (digit (n / 262144) :: digit (n / 4096 % 64) :: digit (n / 64 % 64) ::
      digit (n % 64) :: rest) = (decodeFrom 0 0 0 rest).map fun bytes ↦ a :: b :: c :: bytes := by
  intro n
  have ha := a.toNat_lt
  have hb := b.toNat_lt
  have hc := c.toNat_lt
  rw [decodeFrom_digit (by omega)]
  simp only
  rw [decodeFrom_digit (by omega)]
  simp only
  rw [decodeFrom_digit (by omega)]
  simp only
  rw [decodeFrom_digit (by omega)]
  simp only
  rw [ofNat_eq (show n / 262144 * 4 + n / 4096 % 64 / 16 = a.toNat by omega),
    ofNat_eq (show n / 4096 % 64 % 16 * 16 + n / 64 % 64 / 4 = b.toNat by omega),
    ofNat_eq (show n / 64 % 64 % 4 * 64 + n % 64 = c.toNat by omega)]
  cases decodeFrom 0 0 0 rest <;> rfl

/-- Bytes are read back from their text. -/
theorem decodeFrom_encode (bytes : List UInt8) : decodeFrom 0 0 0 (encode bytes) = .ok bytes := by
  fun_induction encode bytes with
  | case1 => rfl
  | case2 a n =>
    have ha := a.toNat_lt
    rw [decodeFrom_digit (by omega)]
    simp only
    rw [decodeFrom_digit (by omega)]
    simp only
    rw [ofNat_eq (show n / 64 * 4 + n % 64 / 16 = a.toNat by omega)]
    rfl
  | case3 a b n =>
    have ha := a.toNat_lt
    have hb := b.toNat_lt
    rw [decodeFrom_digit (by omega)]
    simp only
    rw [decodeFrom_digit (by omega)]
    simp only
    rw [decodeFrom_digit (by omega)]
    simp only
    rw [ofNat_eq (show n / 4096 * 4 + n / 64 % 64 / 16 = a.toNat by omega),
      ofNat_eq (show n / 64 % 64 % 16 * 16 + n % 64 / 4 = b.toNat by omega)]
    rfl
  | case4 a b c rest n ih => rw [decodeFrom_group, ih]; rfl

/-- The text of bytes consists of ASCII characters. -/
theorem isAscii_of_mem_encode {bytes : List UInt8} {c : Char} (hc : c ∈ encode bytes) :
    c.toNat < 0x80 := by
  have hdigit : ∀ m, m < 64 → (digit m).toNat < 0x80 := fun m hm ↦ (digit_spec hm).2.2
  have hpad : '='.toNat < 0x80 := by decide
  fun_induction encode bytes with
  | case1 => cases hc
  | case2 a n =>
    have ha := a.toNat_lt
    simp only [List.mem_cons, List.not_mem_nil, or_false] at hc
    rcases hc with rfl | rfl | rfl | rfl
    · exact hdigit _ (by omega)
    · exact hdigit _ (by omega)
    · exact hpad
    · exact hpad
  | case3 a b n =>
    have ha := a.toNat_lt
    have hb := b.toNat_lt
    simp only [List.mem_cons, List.not_mem_nil, or_false] at hc
    rcases hc with rfl | rfl | rfl | rfl
    · exact hdigit _ (by omega)
    · exact hdigit _ (by omega)
    · exact hdigit _ (by omega)
    · exact hpad
  | case4 a b c rest n ih =>
    have ha := a.toNat_lt
    have hb := b.toNat_lt
    have hc' := c.toNat_lt
    simp only [List.mem_cons] at hc
    rcases hc with rfl | rfl | rfl | rfl | hc
    · exact hdigit _ (by omega)
    · exact hdigit _ (by omega)
    · exact hdigit _ (by omega)
    · exact hdigit _ (by omega)
    · exact ih hc

/-- Decoding undoes encoding. -/
theorem decode_encode (bytes : List UInt8) : decode (encode bytes) = .ok bytes := by
  have hascii : (encode bytes).all (fun c ↦ c.toNat < 0x80) = true := by
    rw [List.all_eq_true]
    intro c hc
    exact decide_eq_true (isAscii_of_mem_encode hc)
  rw [decode, if_pos hascii, decodeFrom_encode]

end ResourceScript.Text.Base64
