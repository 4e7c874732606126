import ResourceScript.Proofs.Number.Numeral
/-!
# Numerals with a point

ASCII digits with a point and further digits behind them are read as the double nearest to the ratio
that they spell (`Numeral.freeReal?_plainDecimal`, `Double.ofDecimal_neg`).
-/

set_option autoImplicit false

namespace ResourceScript

open Text

theorem Text.asciiLower_of_isDigit {c : Char} (hc : c.isDigit = true) : asciiLower c = c := by
  obtain ⟨-, hhigh⟩ := isDigit_toNat hc
  refine if_neg fun ⟨hletter, _⟩ ↦ ?_
  have hlow : 65 ≤ c.toNat := by
    simpa [Char.le_def, UInt32.le_iff_toNat_le] using hletter
  omega

namespace Numeral

variable {whole fraction : List Char}

/-- Digits and, if there are any, further digits behind a point. -/
def plainDecimal (whole fraction : List Char) : List Char :=
  whole ++ if fraction.isEmpty then [] else '.' :: fraction

theorem mem_plainDecimal {c : Char} (hwhole : ∀ d ∈ whole, d.isDigit = true)
    (hfraction : ∀ d ∈ fraction, d.isDigit = true) (hc : c ∈ plainDecimal whole fraction) :
    c.isDigit = true ∨ c = '.' := by
  rcases List.mem_append.1 hc with hc | hc
  · exact .inl (hwhole c hc)
  · split at hc
    · cases hc
    · exact (List.mem_cons.1 hc).symm.imp (hfraction c) id

theorem dropLowLines_eq_self {text : List Char} (habsent : '_' ∉ text) :
    dropLowLines text = some text := by
  induction text with
  | nil => rfl
  | cons c rest ih =>
    have hrest := ih (List.not_mem_of_not_mem_cons habsent)
    unfold dropLowLines
    split
    · rename_i heq
      cases heq
    · rename_i heq
      cases heq
      exact absurd List.mem_cons_self habsent
    · rename_i heq
      cases heq
      exact absurd (List.mem_cons_of_mem _ List.mem_cons_self) habsent
    · rename_i heq
      cases heq
      rw [hrest]
      rfl

/-- A real numeral without low lines that starts with a digit is read as it stands. -/
theorem freeReal?_of_isDigit {c : Char} {rest : List Char} (hc : c.isDigit = true)
    (hsolid : ∀ d ∈ c :: rest, isSpace d = false) (habsent : '_' ∉ c :: rest) :
    freeReal? (c :: rest) = real? (c :: rest) := by
  -- The words for what is not finite start with a letter.
  have hword (word : String) (hletter : (word.toList.head?.map Char.isDigit).getD false = false) :
      String.ofList ((c :: rest).map asciiLower) ≠ word := by
    rintro rfl
    rw [String.toList_ofList, List.map_cons, asciiLower_of_isDigit hc] at hletter
    exact absurd (hc.symm.trans hletter) (by decide)
  unfold freeReal?
  rw [trim_eq_self hsolid]
  dsimp only
  rw [sign_of_isDigit hc]
  dsimp only
  rw [if_neg (not_or.2 ⟨hword _ (by decide), hword _ (by decide)⟩), if_neg (hword _ (by decide)),
    dropLowLines_eq_self habsent]
  rfl

theorem real?_plainDecimal (hne : whole ≠ []) (hwhole : ∀ d ∈ whole, d.isDigit = true)
    (hfraction : ∀ d ∈ fraction, d.isDigit = true) :
    real? (plainDecimal whole fraction) =
      some (.ofDecimal false (digitsValue (whole ++ fraction)) (-(fraction.length : Int))) := by
  have hsign (rest : List Char) : sign (whole ++ rest) = (false, whole ++ rest) := by
    obtain ⟨c, more, rfl⟩ := List.exists_cons_of_ne_nil hne
    exact sign_of_isDigit (hwhole c List.mem_cons_self) (more ++ rest)
  have hdigits : ∀ d ∈ whole, isDecimalDigit d = true := fun d hd ↦
    isDecimalDigit_of_isDigit (hwhole d hd)
  have hmore : ∀ d ∈ fraction, isDecimalDigit d = true := fun d hd ↦
    isDecimalDigit_of_isDigit (hfraction d hd)
  have hwholeEmpty : whole.isEmpty = false := List.isEmpty_eq_false_iff.2 hne
  unfold real? plainDecimal
  rw [hsign]
  dsimp only
  rw [List.takeWhile_append_of_pos hdigits, List.dropWhile_append_of_pos hdigits]
  cases hfractionEmpty : fraction.isEmpty with
  | true =>
    cases List.isEmpty_iff.1 hfractionEmpty
    simp only [if_pos, List.takeWhile_nil, List.dropWhile_nil, List.append_nil, hwholeEmpty]
    rfl
  | false =>
    have hpoint : isDecimalDigit '.' = false := by decide
    rw [if_neg Bool.false_ne_true, List.takeWhile_cons_of_neg (by simp [hpoint]),
      List.dropWhile_cons_of_neg (by simp [hpoint])]
    simp only [List.append_nil, hwholeEmpty, List.takeWhile_eq_self_iff.2 hmore,
      List.dropWhile_eq_nil_iff.2 hmore]
    simp [exponent?]

/-- A numeral with a point is read as the nearest double to what its digits spell. -/
theorem freeReal?_plainDecimal (hne : whole ≠ []) (hwhole : ∀ d ∈ whole, d.isDigit = true)
    (hfraction : ∀ d ∈ fraction, d.isDigit = true) :
    freeReal? (plainDecimal whole fraction) =
      some (.ofDecimal false (digitsValue (whole ++ fraction)) (-(fraction.length : Int))) := by
  have hmem {c : Char} (hc : c ∈ plainDecimal whole fraction) : c.isDigit = true ∨ c = '.' :=
    mem_plainDecimal hwhole hfraction hc
  rw [← real?_plainDecimal hne hwhole hfraction]
  obtain ⟨c, more, rfl⟩ := List.exists_cons_of_ne_nil hne
  refine freeReal?_of_isDigit (hwhole c List.mem_cons_self) (fun d hd ↦ ?_) fun hlow ↦ ?_
  · rcases hmem hd with hdigit | rfl
    · exact isSpace_of_isDigit hdigit
    · decide
  · rcases hmem hlow with hdigit | hpoint
    · cases hdigit
    · exact absurd hpoint (by decide)

end Numeral

/-- A decimal of moderate size is the double nearest to its ratio. -/
theorem Double.ofDecimal_neg (negative : Bool) {digits places : Nat} (hplaces : places ≤ 300)
    (hdigits : digits < 2 ^ 200) :
    ofDecimal negative digits (-(places : Int)) = ofRatio negative digits (Nat.pow 10 places) := by
  by_cases hzero : digits = 0
  · rw [ofDecimal, if_pos hzero, ofRatio, if_pos hzero]
  have hlog : digits.log2 < 200 := (Nat.log2_lt hzero).2 hdigits
  rw [ofDecimal, if_neg hzero]
  dsimp only
  rw [if_neg (by omega), if_neg (by omega)]
  by_cases hwhole : places = 0
  · rw [hwhole, if_pos (by decide)]
    exact congrArg (ofRatio negative · 1) (Nat.mul_one digits)
  · rw [if_neg (by omega), neg_neg, Int.toNat_natCast]

end ResourceScript
