import ResourceScript.Data.Dates
import ResourceScript.Proofs.Number.PlainDecimal
import ResourceScript.Proofs.Number.Rounding
import ResourceScript.Proofs.Text.Pieces
/-!
# Moments read back from their text

A moment without a zone is read back from its text, with any separator between day and time
(`Data.toMoment_toText`). The fields are whole numerals behind zeros, which the separators part. The
seconds are read as a double; its whole part is the second, and what remains is nearer to the
microseconds than to any other whole number of them (`Moment.seconds?_secondsText`).
-/

set_option autoImplicit false

namespace ResourceScript

open Text Calendar RealFormat Decimal Numeral

/-! ### Valid fields -/

theorem Day.isValid_iff {d : Day} : d.isValid = true ↔ 1 ≤ d.year ∧ d.year ≤ 9999 ∧ 1 ≤ d.month ∧
    d.month ≤ 12 ∧ 1 ≤ d.day ∧ d.day ≤ daysInMonth d.year d.month := by
  simp only [isValid, Bool.and_eq_true, decide_eq_true_eq, and_assoc]

theorem Calendar.daysInMonth_le (year month : Nat) : daysInMonth year month ≤ 31 := by
  unfold daysInMonth
  split
  · split <;> decide
  all_goals decide

theorem TimeOfDay.isValid_iff {t : TimeOfDay} : t.isValid = true ↔
    t.hour < 24 ∧ t.minute < 60 ∧ t.second < 60 ∧ t.micro < 1000000 := by
  simp only [isValid, Bool.and_eq_true, decide_eq_true_eq, and_assoc]

theorem Moment.isValid_iff {m : Moment} :
    m.isValid = true ↔ m.day.isValid = true ∧ m.time.isValid = true := by
  rw [isValid, Bool.and_eq_true]

/-! ### Numerals -/

namespace Moment

theorem unsigned?_padZeros (width : Nat) {n : Nat} (hpositive : 0 < width)
    (hwidth : width ≤ maxDigits) (hn : n < 10 ^ width) :
    unsigned? (padZeros width (natDigits n)) = some n := by
  have hsolid : ∀ c ∈ padZeros width (natDigits n), isSpace c = false := fun _ hc ↦
    isSpace_of_isDigit (isDigit_of_mem_padZeros hc)
  have hdecimal : (padZeros width (natDigits n)).all isDecimalDigit = true :=
    List.all_eq_true.2 fun _ hc ↦ isDecimalDigit_of_isDigit (isDigit_of_mem_padZeros hc)
  have hempty : (padZeros width (natDigits n)).isEmpty = false :=
    List.isEmpty_eq_false_iff.2 padZeros_ne_nil
  unfold unsigned?
  rw [trim_eq_self hsolid]
  dsimp only
  rw [hempty, hdecimal, length_padZeros hpositive hn, decide_eq_false (Nat.not_lt.2 hwidth),
    digitsValue_padZeros]
  rfl

theorem unsigned?_twoDigits {n : Nat} (hn : n < 100) : unsigned? (twoDigits n) = some n :=
  unsigned?_padZeros 2 (by decide) (by decide) hn

end Moment

/-! ### Seconds -/

namespace Double

variable {x : Double} {size : ℚ} {whole micro : Nat}

/-- What remains of a double near a decimal with six places, in millionths. -/
theorem round?_fraction (hx : HasSize x false size) (hmicro : micro < 1000000)
    (hlow : (whole : ℚ) ≤ size) (hwhole : whole ≤ 2 ^ 53)
    (hnear : |size - (whole + micro / 1000000)| ≤ 1 / 2 ^ 45) :
    (mul (sub x (ofInt whole)) (ofInt 1000000)).round? = some (micro : Int) := by
  have hmillion : HasSize (ofInt 1000000) false 1000000 := hasSize_ofInt_natCast (by decide)
  have hupper : (micro : ℚ) ≤ 999999 := by exact_mod_cast Nat.le_of_lt_succ hmicro
  norm_num [abs_le] at hnear
  have hsmall : size - whole < 2 ^ 53 := by
    norm_num
    linarith
  obtain ⟨fraction, hfraction, herror⟩ :=
    exists_hasSize_sub hx (hasSize_ofInt_natCast hwhole) hlow (lt_two_zpow_of_lt hsmall)
  norm_num [abs_le] at herror
  have hproduct : fraction * 1000000 < 2 ^ 53 := by
    norm_num
    linarith
  obtain ⟨scaled, hscaled, hscaledError⟩ :=
    exists_hasSize_mul hfraction hmillion (lt_two_zpow_of_lt hproduct)
  norm_num [abs_le] at hscaledError
  refine round?_of_hasSize hscaled ?_
  rw [abs_lt]
  constructor
  · linarith
  · linarith

end Double

namespace TimeOfDay

/-- The digits of the microseconds in the text of a time of day. -/
def microText (t : TimeOfDay) : List Char :=
  if t.micro = 0 then [] else padZeros 6 (natDigits t.micro)

/-- The seconds in the text of a time of day. -/
def secondsText (t : TimeOfDay) : List Char :=
  plainDecimal (twoDigits t.second) t.microText

theorem isDigit_of_mem_microText {t : TimeOfDay} {c : Char} (hc : c ∈ t.microText) :
    c.isDigit = true := by
  unfold microText at hc
  split at hc
  · cases hc
  · exact isDigit_of_mem_padZeros hc

theorem digitsValue_microText (t : TimeOfDay) : digitsValue t.microText = t.micro := by
  unfold microText
  split
  · rename_i hzero
    exact hzero.symm
  · exact digitsValue_padZeros

theorem length_microText {t : TimeOfDay} (hmicro : t.micro < 1000000) :
    t.microText.length = if t.micro = 0 then 0 else 6 := by
  unfold microText
  split
  · rfl
  · exact length_padZeros (by decide) hmicro

/-- The seconds are read as the ratio that their digits spell, rounded. -/
theorem freeReal?_secondsText {t : TimeOfDay} (ht : t.isValid = true) :
    freeReal? t.secondsText =
      some (.ofRatio false (t.second * 10 ^ t.microText.length + t.micro)
        (Nat.pow 10 t.microText.length)) := by
  obtain ⟨-, -, hsecond, hmicro⟩ := isValid_iff.1 ht
  have hplaces : t.microText.length ≤ 6 := by
    rw [length_microText hmicro]
    split <;> decide
  have hpower : 10 ^ t.microText.length ≤ 10 ^ 6 := Nat.pow_le_pow_right (by decide) hplaces
  have hsize : t.second * 10 ^ t.microText.length ≤ 60 * 10 ^ 6 :=
    Nat.mul_le_mul hsecond.le hpower
  have hread : freeReal? t.secondsText = some _ :=
    freeReal?_plainDecimal padZeros_ne_nil (fun _ hc ↦ isDigit_of_mem_padZeros hc)
      fun _ hc ↦ isDigit_of_mem_microText hc
  rw [hread, digitsValue_append, twoDigits, digitsValue_padZeros, digitsValue_microText,
    Double.ofDecimal_neg false (by omega) (by omega)]

/-- The seconds are read as a double that is near to them and has the same whole part. -/
theorem exists_hasSize_secondsText {t : TimeOfDay} (ht : t.isValid = true) :
    ∃ x size, freeReal? t.secondsText = some x ∧ Double.HasSize x false size ∧
      (t.second : ℚ) ≤ size ∧ size < t.second + 1 ∧
      |size - (t.second + t.micro / 1000000)| ≤ 1 / 2 ^ 45 := by
  obtain ⟨-, -, hsecond, hmicro⟩ := isValid_iff.1 ht
  have hread := freeReal?_secondsText ht
  rw [length_microText hmicro] at hread
  by_cases hzero : t.micro = 0
  · rw [if_pos hzero, hzero, Nat.pow_zero, Nat.mul_one, Nat.add_zero] at hread
    refine ⟨_, _, hread, Double.hasSize_ofRatio_one false (by omega), le_refl _, lt_add_one _, ?_⟩
    rw [hzero]
    norm_num
  · rw [if_neg hzero] at hread
    have hratio : ((t.second * 10 ^ 6 + t.micro : Nat) : ℚ) / (Nat.pow 10 6 : Nat) =
        t.second + t.micro / 1000000 := by
      push_cast
      norm_num
      ring
    have hseconds : (t.second : ℚ) ≤ 59 := by exact_mod_cast Nat.le_of_lt_succ hsecond
    have hupper : (t.micro : ℚ) ≤ 999999 := by exact_mod_cast Nat.le_of_lt_succ hmicro
    have hpositive : (1 : ℚ) ≤ t.micro := by exact_mod_cast Nat.pos_of_ne_zero hzero
    have hsmall : ((t.second * 10 ^ 6 + t.micro : Nat) : ℚ) / (Nat.pow 10 6 : Nat) < 2 ^ 53 := by
      rw [hratio]
      norm_num
      linarith
    obtain ⟨size, hsize, herror⟩ := Double.exists_hasSize_ofRatio false _ (Nat.pow_pos (by decide))
      (Double.lt_two_zpow_of_lt hsmall)
    rw [hratio] at herror
    norm_num [abs_le] at herror
    refine ⟨_, size, hread, hsize, by linarith, by linarith, ?_⟩
    norm_num [abs_le]
    constructor
    · linarith
    · linarith

end TimeOfDay

/-! ### The characters of the text -/

theorem TimeOfDay.text_eq_joinWith (t : TimeOfDay) :
    t.text = joinWith [':'] [twoDigits t.hour, twoDigits t.minute, t.secondsText] := by
  have hsize : (padZeros 6 (natDigits t.micro)).isEmpty = false :=
    List.isEmpty_eq_false_iff.2 padZeros_ne_nil
  show (if t.micro = 0 then _ else _) = _
  unfold secondsText microText plainDecimal joinWith joinWith joinWith
  by_cases hzero : t.micro = 0
  · simp [hzero]
  · simp [hzero, hsize]

theorem Day.text_eq_joinWith (d : Day) : d.text =
    joinWith ['-'] [padZeros 4 (natDigits d.year), twoDigits d.month, twoDigits d.day] := by
  simp [text, joinWith]

theorem TimeOfDay.mem_piece {t : TimeOfDay} {piece : List Char}
    (hpiece : piece ∈ [twoDigits t.hour, twoDigits t.minute, t.secondsText]) {c : Char}
    (hc : c ∈ piece) : c.isDigit = true ∨ c = '.' := by
  simp only [List.mem_cons, List.not_mem_nil, or_false] at hpiece
  rcases hpiece with rfl | rfl | rfl
  · exact .inl (isDigit_of_mem_padZeros hc)
  · exact .inl (isDigit_of_mem_padZeros hc)
  · exact mem_plainDecimal (fun _ ↦ isDigit_of_mem_padZeros) (fun _ ↦ isDigit_of_mem_microText) hc

theorem Day.mem_piece {d : Day} {piece : List Char}
    (hpiece : piece ∈ [padZeros 4 (natDigits d.year), twoDigits d.month, twoDigits d.day])
    {c : Char} (hc : c ∈ piece) : c.isDigit = true := by
  simp only [List.mem_cons, List.not_mem_nil, or_false] at hpiece
  rcases hpiece with rfl | rfl | rfl <;> exact isDigit_of_mem_padZeros hc

theorem Day.mem_text {d : Day} {c : Char} (hc : c ∈ d.text) : c.isDigit = true ∨ c = '-' := by
  rw [text_eq_joinWith] at hc
  rcases mem_joinWith hc with hdash | ⟨piece, hpiece, hc⟩
  · exact .inr (List.mem_singleton.1 hdash)
  · exact .inl (mem_piece hpiece hc)

theorem Day.text_ne_nil (d : Day) : d.text ≠ [] :=
  List.append_ne_nil_of_left_ne_nil (List.append_ne_nil_of_left_ne_nil padZeros_ne_nil _) _

theorem TimeOfDay.isSpace_of_mem_text {t : TimeOfDay} {c : Char} (hc : c ∈ t.text) :
    isSpace c = false := by
  rw [text_eq_joinWith] at hc
  rcases mem_joinWith hc with hcolon | ⟨piece, hpiece, hc⟩
  · rw [List.mem_singleton.1 hcolon]
    decide
  · rcases mem_piece hpiece hc with hdigit | rfl
    · exact isSpace_of_isDigit hdigit
    · decide

theorem TimeOfDay.text_ne_nil (t : TimeOfDay) : t.text ≠ [] := by
  rw [text_eq_joinWith, joinWith_cons_cons]
  exact List.append_ne_nil_of_left_ne_nil (List.append_ne_nil_of_left_ne_nil padZeros_ne_nil _) _

theorem Moment.isSeparator_of_mem_text {d : Day} {c : Char} (hc : c ∈ d.text) :
    isSeparator c = false := by
  rcases d.mem_text hc with hdigit | rfl
  · refine Bool.eq_false_iff.2 fun hseparator ↦ ?_
    simp only [isSeparator, Bool.or_eq_true, beq_iff_eq] at hseparator
    rcases hseparator with ((((rfl | rfl) | rfl) | rfl) | rfl) | rfl <;> cases hdigit
  · decide

theorem Moment.text_of_offset {m : Moment} (hzone : m.offset = none) (c : Char) :
    m.text c = m.day.text ++ c :: m.time.text := by
  rw [text, textTo, hzone]
  exact List.append_nil _

/-! ### Reading the text -/

namespace Moment

/-- The seconds of a time of day are read back from their text. -/
theorem seconds?_secondsText {t : TimeOfDay} (ht : t.isValid = true) :
    seconds? t.secondsText = some (t.second, t.micro) := by
  obtain ⟨-, -, hsecond, hmicro⟩ := TimeOfDay.isValid_iff.1 ht
  obtain ⟨x, size, hread, hsize, hlow, hhigh, hnear⟩ := TimeOfDay.exists_hasSize_secondsText ht
  have hwhole : x.truncate? = some (t.second : Int) := Double.truncate?_of_hasSize hsize hlow hhigh
  have hrest := Double.round?_fraction hsize hmicro hlow (by omega) hnear
  unfold seconds?
  simp only [hread, hwhole, hrest, Option.bind_eq_bind, Option.bind_some]
  rw [if_pos ⟨Int.natCast_nonneg _, Int.natCast_nonneg _⟩]
  rfl

theorem ofFields?_of_isValid {m : Moment} (hvalid : m.isValid = true) (hzone : m.offset = none) :
    ofFields? m.day.year m.day.month m.day.day m.time.hour m.time.minute m.time.second
      m.time.micro = some m := by
  have hfields : m = ⟨m.day, m.time, none⟩ := by rw [← hzone]
  rw [hfields] at hvalid
  rw [ofFields?]
  exact (if_pos hvalid).trans (congrArg some hfields.symm)

/-- The time of a moment is read back on any moment of the same day. -/
theorem withTime?_text {m n : Moment} (hvalid : m.isValid = true) (hzone : m.offset = none)
    (hday : n.day = m.day) : n.withTime? m.time.text = some m := by
  obtain ⟨hhour, hminute, -, -⟩ := TimeOfDay.isValid_iff.1 (isValid_iff.1 hvalid).2
  have hsplit : splitOn ':' m.time.text =
      [twoDigits m.time.hour, twoDigits m.time.minute, m.time.secondsText] := by
    rw [TimeOfDay.text_eq_joinWith]
    refine splitOn_joinWith (List.cons_ne_nil _ _) fun piece hpiece hcolon ↦ ?_
    rcases TimeOfDay.mem_piece hpiece hcolon with hdigit | hpoint
    · cases hdigit
    · exact absurd hpoint (by decide)
  unfold withTime?
  rw [hsplit]
  have hreadHour : unsigned? (twoDigits m.time.hour) = some m.time.hour :=
    unsigned?_twoDigits (by omega)
  have hreadMinute : unsigned? (twoDigits m.time.minute) = some m.time.minute :=
    unsigned?_twoDigits (by omega)
  simp only [Option.bind_eq_bind, Option.bind_some, hreadHour, hreadMinute,
    seconds?_secondsText (isValid_iff.1 hvalid).2, hday]
  exact ofFields?_of_isValid hvalid hzone

/-- The first moment of a day is read back from the text of the day. -/
theorem mapM_unsigned?_text {d : Day} (hd : d.isValid = true) :
    ((splitOn '-' d.text).mapM unsigned?).bind ofArray? = some ⟨d, .midnight, none⟩ := by
  obtain ⟨_, hyear, _, hmonth, _, hday⟩ := Day.isValid_iff.1 hd
  have hsize := daysInMonth_le d.year d.month
  have hsplit : splitOn '-' d.text =
      [padZeros 4 (natDigits d.year), twoDigits d.month, twoDigits d.day] := by
    rw [Day.text_eq_joinWith]
    refine splitOn_joinWith (List.cons_ne_nil _ _) fun piece hpiece hdash ↦ ?_
    cases Day.mem_piece hpiece hdash
  have hreadYear : unsigned? (padZeros 4 (natDigits d.year)) = some d.year :=
    unsigned?_padZeros 4 (by decide) (by decide) (by omega)
  have hreadMonth : unsigned? (twoDigits d.month) = some d.month := unsigned?_twoDigits (by omega)
  have hreadDay : unsigned? (twoDigits d.day) = some d.day := unsigned?_twoDigits (by omega)
  rw [hsplit]
  simp only [List.mapM_cons, List.mapM_nil, hreadYear, hreadMonth, hreadDay]
  exact ofFields?_of_isValid (m := ⟨d, .midnight, none⟩) (isValid_iff.2 ⟨hd, rfl⟩) rfl

/-- A moment without a zone is read back from its text with any separator. -/
theorem ofText?_text {m : Moment} (hvalid : m.isValid = true) (hzone : m.offset = none) {c : Char}
    (hc : isSeparator c = true) : ofText? (m.text c) = some m := by
  obtain ⟨first, rest, hday⟩ := List.exists_cons_of_ne_nil m.day.text_ne_nil
  have hrest : ∀ d ∈ rest, (!isSeparator d) = true := by
    intro d hd
    rw [isSeparator_of_mem_text (d := m.day) (hday ▸ List.mem_cons_of_mem first hd)]
    rfl
  have hseparator : ¬ (!isSeparator c) = true := by
    rw [hc]
    exact Bool.false_ne_true
  have hany : (rest ++ c :: m.time.text).any isSeparator = true :=
    List.any_eq_true.2 ⟨c, List.mem_append_right rest List.mem_cons_self, hc⟩
  have htime : trim m.time.text = m.time.text := trim_eq_self fun _ ↦ TimeOfDay.isSpace_of_mem_text
  obtain ⟨digit, more, hmore⟩ := List.exists_cons_of_ne_nil m.time.text_ne_nil
  rw [text_of_offset hzone, hday, List.cons_append, ofText?, if_pos hany,
    List.takeWhile_append_of_pos hrest, List.dropWhile_append_of_pos hrest,
    List.takeWhile_cons_of_neg (p := fun d ↦ !isSeparator d) hseparator, List.append_nil,
    List.dropWhile_cons_of_neg (p := fun d ↦ !isSeparator d) hseparator, List.drop_one,
    List.tail_cons, htime, ← hday]
  unfold ofParts?
  simp only [mapM_unsigned?_text (isValid_iff.1 hvalid).1, Option.bind_eq_bind, Option.bind_some]
  have hlast := withTime?_text (n := ⟨m.day, .midnight, none⟩) hvalid hzone rfl
  rw [hmore] at hlast ⊢
  exact hlast

end Moment

namespace Data

/-- A text that spells a moment without a zone, with any separator, counts as the moment. -/
theorem toMoment_text {m : Moment} (hvalid : m.isValid = true) (hzone : m.offset = none) {c : Char}
    (hc : Moment.isSeparator c = true) (now : Moment) {s : String} (hs : s.toList = m.text c) :
    (text s).toMoment now = .ok (some m) := by
  have hends : trim s.toList = s.toList := by
    rw [hs, Moment.text_of_offset hzone]
    refine trim_eq_of_ends (fun d hd ↦ ?_) fun d hd ↦ ?_
    · rw [List.head?_append_of_ne_nil _ m.day.text_ne_nil] at hd
      rcases Day.mem_text (List.mem_of_head? hd) with hdigit | rfl
      · exact isSpace_of_isDigit hdigit
      · decide
    · rw [List.getLast?_append_of_ne_nil _ (List.cons_ne_nil _ _),
        List.getLast?_cons_of_ne_nil m.time.text_ne_nil] at hd
      exact TimeOfDay.isSpace_of_mem_text (List.mem_of_getLast? hd)
  have hempty : s.toList.isEmpty = false := by
    rw [hs, Moment.text_of_offset hzone]
    exact List.isEmpty_eq_false_iff.2 (List.append_ne_nil_of_left_ne_nil m.day.text_ne_nil _)
  show Except.ok (momentOfText now s) = _
  unfold momentOfText
  rw [hends]
  dsimp only
  rw [hempty, if_neg Bool.false_ne_true, hs, Moment.ofText?_text hvalid hzone hc]

/-- A moment without a zone is read back from its text, also when another separator stands in place
of the blank. -/
theorem toMoment_toText {m : Moment} (hvalid : m.isValid = true) (hzone : m.offset = none)
    (now : Moment) : ∃ s : String, (atom (.moment m)).toText = .ok s ∧
      (text s).toMoment now = .ok (some m) ∧
      ∀ c ∈ ['\t', 'T', 't', ',', '_'],
        (text (s.map fun d ↦ if d = ' ' then c else d)).toMoment now = .ok (some m) := by
  refine ⟨String.ofList (m.text ' '), rfl, toMoment_text hvalid hzone rfl now String.toList_ofList,
    fun c hc ↦ ?_⟩
  have hseparator : Moment.isSeparator c = true := by
    simp only [List.mem_cons, List.not_mem_nil, or_false] at hc
    rcases hc with rfl | rfl | rfl | rfl | rfl <;> rfl
  refine toMoment_text hvalid hzone hseparator now ?_
  have hkept {chars : List Char} (hblank : ' ' ∉ chars) :
      chars.map (fun d ↦ if d = ' ' then c else d) = chars :=
    (List.map_congr_left fun d hd ↦ if_neg fun (h : d = ' ') ↦ hblank (h ▸ hd)).trans
      (List.map_id chars)
  have hday : ' ' ∉ m.day.text := fun hblank ↦
    absurd (Moment.isSeparator_of_mem_text hblank) (by decide)
  have htime : ' ' ∉ m.time.text := fun hblank ↦
    absurd (TimeOfDay.isSpace_of_mem_text hblank) (by decide)
  rw [String.toList_map, String.toList_ofList, Moment.text_of_offset hzone,
    Moment.text_of_offset hzone, List.map_append, List.map_cons, if_pos rfl, hkept hday,
    hkept htime]

/-- The last microsecond of the first minute of the calendar. -/
theorem toMoment_toText_firstMinute :
    (text "0001-01-01T00:00:59.999999").toMoment .epoch =
      .ok (some ⟨⟨1, 1, 1⟩, ⟨0, 0, 59, 999999⟩, none⟩) := by
  obtain ⟨s, hs, -, hother⟩ :=
    toMoment_toText (m := ⟨⟨1, 1, 1⟩, ⟨0, 0, 59, 999999⟩, none⟩) (by decide) rfl .epoch
  have htext : "0001-01-01 00:00:59.999999" = s := Except.ok.inj hs
  have hreplaced : (s.map fun d ↦ if d = ' ' then 'T' else d) = "0001-01-01T00:00:59.999999" := by
    rw [← String.toList_inj, String.toList_map, ← htext]
    decide
  rw [← hreplaced]
  exact hother 'T' (by decide)

end Data

end ResourceScript
