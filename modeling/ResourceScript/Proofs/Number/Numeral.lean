import Mathlib.Tactic.Ring
import ResourceScript.Number.Numeral
import ResourceScript.Proofs.Text.Trim
/-!
# The decimal text of an integer

The whole numerals are the texts that spell an integer (`isWhole_iff`): digits behind an optional
sign. An integer of at most `Numeral.maxDigits` digits has a decimal text (`intText_eq_ok_iff`), and
an integer beyond has none. The text is a sign and digits without white space, and it reads back as
the integer (`read_of_intText`).
-/

set_option autoImplicit false

namespace ResourceScript

open Text

namespace Text

theorem isDigit_toNat {c : Char} (hc : c.isDigit = true) : 48 ≤ c.toNat ∧ c.toNat ≤ 57 := by
  simpa [Char.isDigit, Char.le_def, UInt32.le_iff_toNat_le] using hc

/-- The value of an ASCII digit. -/
theorem digitValue?_of_isDigit {c : Char} (hc : c.isDigit = true) :
    digitValue? c = some (c.toNat - 48) := by
  obtain ⟨hlow, hhigh⟩ := isDigit_toNat hc
  have hrange : '0' ≤ c ∧ c ≤ '9' := by
    simpa [Char.le_def, UInt32.le_iff_toNat_le] using And.intro hlow hhigh
  rw [digitValue?, if_pos (by omega), if_pos hrange]

theorem isSpace_of_isDigit {c : Char} (hc : c.isDigit = true) : isSpace c = false := by
  have hrange := isDigit_toNat hc
  simp only [isSpace, Bool.or_eq_false_iff, Bool.and_eq_false_iff, decide_eq_false_iff_not,
    beq_eq_false_iff_ne]
  omega

theorem isDecimalDigit_of_isDigit {c : Char} (hc : c.isDigit = true) : isDecimalDigit c = true := by
  rw [isDecimalDigit, digitValue?_of_isDigit hc]
  rfl

end Text

namespace Numeral

/-! ### Digits -/

theorem digitsValue_of_isDigit {digits : List Char} (hdigits : ∀ c ∈ digits, c.isDigit = true)
    (start : Nat) : digits.foldl (fun n c => 10 * n + (digitValue? c).getD 0) start =
      Nat.ofDigitChars 10 digits start := by
  induction digits generalizing start with
  | nil => rfl
  | cons c rest ih =>
    rw [List.foldl_cons, Nat.ofDigitChars_cons,
      digitValue?_of_isDigit (hdigits c List.mem_cons_self),
      ih fun d hd ↦ hdigits d (List.mem_cons_of_mem c hd)]
    rfl

theorem isDigit_of_mem_natDigits {n : Nat} {c : Char} (hc : c ∈ Decimal.natDigits n) :
    c.isDigit = true :=
  Nat.isDigit_of_mem_toDigits (by decide) (by decide) hc

/-- The digits of a natural number denote it. -/
theorem digitsValue_natDigits (n : Nat) : digitsValue (Decimal.natDigits n) = n :=
  calc digitsValue (Decimal.natDigits n)
    _ = Nat.ofDigitChars 10 (Nat.toDigits 10 n) 0 :=
      digitsValue_of_isDigit (fun _ hc ↦ isDigit_of_mem_natDigits hc) 0
    _ = n := Nat.ofDigitChars_ten_toDigits

theorem natDigits_ne_nil (n : Nat) : Decimal.natDigits n ≠ [] :=
  Nat.toDigits_ne_nil

theorem digitsValue_replicate_zero (n : Nat) : digitsValue (List.replicate n '0') = 0 := by
  induction n with
  | zero => rfl
  | succ n ih => exact ih

theorem digitsValue_append (whole rest : List Char) :
    digitsValue (whole ++ rest) = digitsValue whole * 10 ^ rest.length + digitsValue rest := by
  have hstart (digits : List Char) (start : Nat) :
      digits.foldl (fun n c => 10 * n + (digitValue? c).getD 0) start =
        start * 10 ^ digits.length + digitsValue digits := by
    unfold digitsValue
    induction digits generalizing start with
    | nil =>
      rw [List.foldl_nil, List.foldl_nil, List.length_nil, Nat.pow_zero, Nat.mul_one, Nat.add_zero]
    | cons c digits ih =>
      rw [List.foldl_cons, List.foldl_cons, ih (10 * start + _), ih (10 * 0 + _), List.length_cons,
        Nat.mul_zero, Nat.zero_add, Nat.pow_succ]
      ring
  rw [digitsValue, List.foldl_append, hstart rest]
  rfl

/-! ### Digits behind zeros -/

section Padded

open RealFormat

variable {width n : Nat}

theorem isDigit_of_mem_padZeros {c : Char} (hc : c ∈ padZeros width (Decimal.natDigits n)) :
    c.isDigit = true := by
  rcases List.mem_append.1 hc with hzero | hdigit
  · rw [List.eq_of_mem_replicate hzero]
    rfl
  · exact isDigit_of_mem_natDigits hdigit

theorem padZeros_ne_nil : padZeros width (Decimal.natDigits n) ≠ [] :=
  List.append_ne_nil_of_right_ne_nil _ (natDigits_ne_nil n)

/-- Numbers below a power of ten are written with as many digits. -/
theorem length_padZeros (hwidth : 0 < width) (hn : n < 10 ^ width) :
    (padZeros width (Decimal.natDigits n)).length = width := by
  have hlength : (Decimal.natDigits n).length ≤ width :=
    (Nat.length_toDigits_le_iff (by decide) hwidth).2 hn
  rw [padZeros, List.length_append, List.length_replicate, Nat.sub_add_cancel hlength]

theorem digitsValue_padZeros : digitsValue (padZeros width (Decimal.natDigits n)) = n := by
  rw [padZeros, digitsValue_append, digitsValue_replicate_zero, digitsValue_natDigits, Nat.zero_mul,
    Nat.zero_add]

end Padded

/-- Digits have no sign. -/
theorem sign_of_isDecimalDigit {c : Char} (hc : isDecimalDigit c = true) (rest : List Char) :
    sign (c :: rest) = (false, c :: rest) := by
  rw [sign.eq_def]
  split
  · rename_i heq
    cases heq
    exact absurd hc (by decide)
  · rename_i heq
    cases heq
    exact absurd hc (by decide)
  · rfl

theorem sign_of_isDigit {c : Char} (hc : c.isDigit = true) (rest : List Char) :
    sign (c :: rest) = (false, c :: rest) :=
  sign_of_isDecimalDigit (isDecimalDigit_of_isDigit hc) rest

theorem sign_natDigits (n : Nat) : sign (Decimal.natDigits n) = (false, Decimal.natDigits n) := by
  obtain ⟨c, rest, hdigits⟩ := List.exists_cons_of_ne_nil (natDigits_ne_nil n)
  have hc : c.isDigit = true := isDigit_of_mem_natDigits (hdigits ▸ List.mem_cons_self)
  rw [hdigits, sign_of_isDigit hc]

/-! ### Texts that spell an integer -/

/-- At least one decimal digit, and nothing else. -/
structure IsDigits (digits : List Char) : Prop where
  ne_nil : digits ≠ []
  isDecimalDigit : ∀ c ∈ digits, isDecimalDigit c = true

/-- Whether a text spells an integer: decimal digits behind an optional sign. -/
inductive Spells : List Char → Int → Prop
  | unsigned {digits : List Char} (h : IsDigits digits) : Spells digits (digitsValue digits)
  | plus {digits : List Char} (h : IsDigits digits) : Spells ('+' :: digits) (digitsValue digits)
  | minus {digits : List Char} (h : IsDigits digits) :
    Spells ('-' :: digits) (-(digitsValue digits : Int))

theorem IsDigits.sign {digits : List Char} (h : IsDigits digits) :
    sign digits = (false, digits) := by
  obtain ⟨c, rest, rfl⟩ := List.exists_cons_of_ne_nil h.ne_nil
  exact sign_of_isDecimalDigit (h.isDecimalDigit c List.mem_cons_self) rest

/-- A text that spells an integer is a sign in front of digits, and the integer is their value. -/
theorem Spells.sign {text : List Char} {n : Int} (h : Spells text n) :
    IsDigits (sign text).2 ∧ n = if (sign text).1 then -(digitsValue (sign text).2 : Int)
      else digitsValue (sign text).2 := by
  cases h with
  | unsigned h =>
    rw [h.sign]
    exact ⟨h, rfl⟩
  | plus h => exact ⟨h, rfl⟩
  | minus h => exact ⟨h, rfl⟩

theorem isDigits_iff {digits : List Char} :
    IsDigits digits ↔ (!digits.isEmpty && digits.all isDecimalDigit) = true := by
  rw [Bool.and_eq_true, List.all_eq_true, Bool.not_eq_true', List.isEmpty_eq_false_iff]
  exact ⟨fun h ↦ ⟨h.ne_nil, h.isDecimalDigit⟩, fun h ↦ ⟨h.1, h.2⟩⟩

/-- The whole numerals are the texts that spell an integer. -/
theorem isWhole_iff {text : List Char} : isWhole text = true ↔ ∃ n, Spells text n := by
  rw [isWhole, ← isDigits_iff]
  constructor
  · intro h
    rw [sign.eq_def] at h
    split at h
    · exact ⟨_, .minus h⟩
    · exact ⟨_, .plus h⟩
    · exact ⟨_, .unsigned h⟩
  · rintro ⟨n, h⟩
    exact h.sign.1

/-- The number that a text spells is read off unless the text has too many digits. -/
theorem wholeValue_of_spells {text : List Char} {n : Int} (h : Spells text n) :
    wholeValue text = if maxDigits < (sign text).2.length then .error .value else .ok n := by
  rw [h.sign.2]
  rfl

theorem dropFinalLineFeed_of_not_mem {text : List Char} (hline : '\n' ∉ text) :
    dropFinalLineFeed text = text := by
  rw [dropFinalLineFeed]
  split
  · rename_i rest hreverse
    have hmem : '\n' ∈ text.reverse := hreverse ▸ List.mem_cons_self
    exact absurd (List.mem_reverse.1 hmem) hline
  · rfl

theorem Spells.not_mem_lineFeed {text : List Char} {n : Int} (h : Spells text n) :
    '\n' ∉ text := by
  have hdigits {digits : List Char} (h : IsDigits digits) : '\n' ∉ digits := fun hmem ↦
    absurd (h.isDecimalDigit _ hmem) (by decide)
  cases h with
  | unsigned h => exact hdigits h
  | plus h | minus h =>
    intro hmem
    rcases List.mem_cons.1 hmem with hsign | hmem
    · exact absurd hsign (by decide)
    · exact hdigits h hmem

/-! ### The text of an integer -/

theorem length_natDigits_le_iff (n : Nat) :
    (Decimal.natDigits n).length ≤ maxDigits ↔ n < 10 ^ maxDigits :=
  Nat.length_toDigits_le_iff (by decide) (by decide)

/-- Exactly the integers of at most `maxDigits` digits have a text: their digits, behind a sign if
they are negative. -/
theorem intText_eq_ok_iff {n : Int} {text : List Char} :
    intText n = .ok text ↔ n.natAbs < 10 ^ maxDigits ∧
      text = if n < 0 then '-' :: Decimal.natDigits n.natAbs else Decimal.natDigits n.natAbs := by
  rw [← length_natDigits_le_iff, intText]
  split
  · rename_i hlong
    simp [Nat.not_le.2 hlong]
  · rename_i hshort
    simp [Nat.not_lt.1 hshort, eq_comm]

variable {n : Int} {text : List Char}

theorem intText_of_le (h : 10 ^ maxDigits ≤ n.natAbs) : intText n = .error .value := by
  rw [intText]
  split
  · rfl
  · rename_i hshort
    exact absurd ((length_natDigits_le_iff _).1 (Nat.not_lt.1 hshort)) (Nat.not_lt.2 h)

/-- The text of an integer consists of digits and the sign. -/
theorem isDigit_or_eq_of_mem_intText (htext : intText n = .ok text) {c : Char} (hc : c ∈ text) :
    c.isDigit = true ∨ c = '-' := by
  obtain ⟨-, rfl⟩ := intText_eq_ok_iff.1 htext
  split at hc
  · rcases List.mem_cons.1 hc with rfl | hc
    · exact .inr rfl
    · exact .inl (isDigit_of_mem_natDigits hc)
  · exact .inl (isDigit_of_mem_natDigits hc)

theorem not_mem_intText (htext : intText n = .ok text) {c : Char} (hdigit : c.isDigit = false)
    (hminus : c ≠ '-') : c ∉ text := by
  intro hc
  rcases isDigit_or_eq_of_mem_intText htext hc with h | h
  · rw [hdigit] at h
    cases h
  · exact hminus h

theorem intText_ne_nil (htext : intText n = .ok text) : text ≠ [] := by
  obtain ⟨-, rfl⟩ := intText_eq_ok_iff.1 htext
  split
  · exact List.cons_ne_nil _ _
  · exact natDigits_ne_nil _

theorem sign_intText (htext : intText n = .ok text) :
    sign text = (decide (n < 0), Decimal.natDigits n.natAbs) := by
  obtain ⟨-, rfl⟩ := intText_eq_ok_iff.1 htext
  split
  · rename_i hneg
    simp [sign, hneg]
  · rename_i hneg
    simp [sign_natDigits, hneg]

theorem isWhole_intText (htext : intText n = .ok text) : isWhole text = true := by
  have hdigit : ∀ c ∈ Decimal.natDigits n.natAbs, isDecimalDigit c = true := fun _ hc ↦
    isDecimalDigit_of_isDigit (isDigit_of_mem_natDigits hc)
  rw [isWhole, sign_intText htext, List.all_eq_true.2 hdigit]
  simp [natDigits_ne_nil]

theorem wholeValue_intText (htext : intText n = .ok text) : wholeValue text = .ok n := by
  have hlength : ¬ maxDigits < (Decimal.natDigits n.natAbs).length := by
    rw [Nat.not_lt]
    exact (Nat.length_toDigits_le_iff (by decide) (by decide)).2 (intText_eq_ok_iff.1 htext).1
  rw [wholeValue, sign_intText htext]
  simp only [if_neg hlength, digitsValue_natDigits, decide_eq_true_eq, Except.ok.injEq]
  split <;> omega

/-- The text of an integer reads back as the integer. -/
theorem read_of_intText (htext : intText n = .ok text) : read text = .ok (some (.int n)) := by
  have hsolid : ∀ c ∈ text, isSpace c = false := by
    intro c hc
    rcases isDigit_or_eq_of_mem_intText htext hc with hdigit | rfl
    · exact isSpace_of_isDigit hdigit
    · decide
  rw [read, trim_eq_self hsolid, if_pos (isWhole_intText htext), wholeValue_intText htext]
  rfl

end Numeral

end ResourceScript
