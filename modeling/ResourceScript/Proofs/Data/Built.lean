import ResourceScript.Proofs.Data.Acyclic
import ResourceScript.Proofs.Data.DateText
/-!
# Data that is built from scalars, bytes and dates

Lists, sets, tuples and maps of scalars, bytes and dates always count as a truth value
(`Data.IsBuilt.exists_truth`) and describe a moment or none (`Data.IsBuilt.exists_toMoment`). They
count as a text if no integer in them is too long to be written (`Data.IsBuilt.exists_toText`).

The number of data is that of the data itself, or of its only item. It is found unless that is a
numeral with too many digits, or a moment without a zone on the first day of the calendar
(`Data.exists_toNumber`).
-/

set_option autoImplicit false

namespace ResourceScript

open Text

namespace Numeral

/-- Whether a text spells an integer with more digits than are read. -/
def IsTooLong (text : List Char) : Prop :=
  (∃ n, Spells (trim text) n) ∧ maxDigits < (sign (trim text)).2.length

theorem exists_read {text : List Char} (h : ¬ IsTooLong text) : ∃ found, read text = .ok found := by
  unfold read
  dsimp only
  split
  · rename_i hwhole
    obtain ⟨n, hspells⟩ := isWhole_iff.1 hwhole
    refine ⟨some (.int n), ?_⟩
    rw [wholeValue_of_spells hspells, if_neg fun hlong ↦ h ⟨⟨n, hspells⟩, hlong⟩]
    rfl
  · exact ⟨_, rfl⟩

/-- A text with a character that is neither a digit nor at the beginning spells no integer. -/
theorem not_isTooLong_of_mem {c d : Char} {rest : List Char} (hc : c.isDigit = true) (hd : d ∈ rest)
    (hnot : isDecimalDigit d = false) (hsolid : ∀ e ∈ rest, isSpace e = false) :
    ¬ IsTooLong (c :: rest) := by
  rintro ⟨⟨n, hspells⟩, -⟩
  have htrim : trim (c :: rest) = c :: rest :=
    trim_eq_self (List.forall_mem_cons.2 ⟨isSpace_of_isDigit hc, hsolid⟩)
  rw [htrim] at hspells
  have hdigits := hspells.sign.1
  rw [sign_of_isDigit hc] at hdigits
  have hdigit := hdigits.isDecimalDigit d (List.mem_cons_of_mem c hd)
  rw [hnot] at hdigit
  cases hdigit

end Numeral

/-- The text of a day is no numeral. -/
theorem Day.not_isTooLong_text (d : Day) : ¬ Numeral.IsTooLong d.text := by
  have hdigits : RealFormat.padZeros 4 (Decimal.natDigits d.year) ≠ [] := Numeral.padZeros_ne_nil
  obtain ⟨c, rest, hyear⟩ := List.exists_cons_of_ne_nil hdigits
  have hc : c.isDigit = true := Numeral.isDigit_of_mem_padZeros (hyear ▸ List.mem_cons_self)
  have htext : d.text = c :: (rest ++ '-' :: Calendar.twoDigits d.month ++
      '-' :: Calendar.twoDigits d.day) := by
    rw [text, hyear]
    rfl
  have hsolid : ∀ e ∈ d.text, isSpace e = false := by
    intro e he
    rcases d.mem_text he with hdigit | rfl
    · exact isSpace_of_isDigit hdigit
    · decide
  rw [htext] at hsolid ⊢
  exact Numeral.not_isTooLong_of_mem hc (d := '-') (by simp) (by decide)
    (List.forall_mem_cons.1 hsolid).2

namespace Data

variable {data : Data}

/-! ### Built data -/

/-- Whether data itself is a scalar, bytes, a date, or a list, a set, a tuple or a map. -/
def isBasic : Data → Bool
  | null | bool _ | int _ | real _ | text _ => true
  | atom (.bytes _) | atom (.moment _) | atom (.day _) => true
  | tuple _ | frozen _ | list _ | map _ | set _ | buffer _ => true
  | _ => false

/-- Whether data is built from scalars, bytes and dates by lists, sets, tuples and maps. -/
def IsBuilt (data : Data) : Prop :=
  ∀ part, IsPart part data → part.isBasic = true

/-- Whether no integer in data has more digits than a numeral may have. -/
def HasShortInts (data : Data) : Prop :=
  ∀ n, IsPart (.int n) data → n.natAbs < 10 ^ Numeral.maxDigits

theorem eq_of_isPart_atom {a : Atom} {part : Data} (h : IsPart part (atom a)) : part = atom a := by
  cases h with
  | whole => rfl
  | inside hchild => exact absurd hchild List.not_mem_nil

theorem isBuilt_atom {a : Atom} (h : (atom a).isBasic = true) : (atom a).IsBuilt := by
  intro part hpart
  rw [eq_of_isPart_atom hpart]
  exact h

theorem isBuilt_iff :
    data.IsBuilt ↔ data.isBasic = true ∧ ∀ part ∈ data.parts, part.IsBuilt := by
  constructor
  · intro h
    exact ⟨h data .whole, fun part hpart inner hinner ↦ h inner (.inside hpart hinner)⟩
  · rintro ⟨hbasic, hparts⟩ part hpart
    cases hpart with
    | whole => exact hbasic
    | inside hchild hpart => exact hparts _ hchild part hpart

theorem hasShortInts_iff :
    data.HasShortInts ↔ (∀ n, data = .int n → n.natAbs < 10 ^ Numeral.maxDigits) ∧
      ∀ part ∈ data.parts, part.HasShortInts := by
  constructor
  · intro h
    refine ⟨fun n hn ↦ h n (hn ▸ .whole), fun part hpart n hn ↦ h n (.inside hpart hn)⟩
  · rintro ⟨hself, hparts⟩ n hpart
    cases hpart with
    | whole => exact hself n rfl
    | inside hchild hpart => exact hparts _ hchild n hpart

theorem hasShortInts_atom {a : Atom} (ha : ∀ n, a ≠ .int n) : (atom a).HasShortInts :=
  hasShortInts_iff.2 ⟨fun n hn ↦ absurd (atom.inj hn) (ha n), List.forall_mem_nil _⟩

theorem IsBuilt.isAcyclic (h : data.IsBuilt) : data.IsAcyclic :=
  fun hcycle ↦ Bool.false_ne_true (h cycle hcycle)

theorem IsBuilt.isBasic (h : data.IsBuilt) : data.isBasic = true :=
  h data .whole

/-! ### Texts -/

theorem IsAcyclic.exists_toText (h : data.IsAcyclic) (hshort : data.HasShortInts) :
    ∃ s, data.toText = .ok s := by
  cases htext : data.toText with
  | ok s => exact ⟨s, rfl⟩
  | error cause =>
    obtain ⟨part, hpart, ⟨rfl, -⟩ | ⟨n, rfl, hlong, -⟩⟩ := onlyFails_toText data cause htext
    · exact absurd hpart h
    · exact absurd (hshort n hpart) (Nat.not_lt.2 hlong)

theorem IsAcyclic.exists_toBytes (h : data.IsAcyclic) (hshort : data.HasShortInts) :
    ∃ bytes, data.toBytes = .ok bytes := by
  obtain ⟨s, htext⟩ := h.exists_toText hshort
  unfold toBytes
  split
  · exact ⟨_, rfl⟩
  · exact ⟨_, rfl⟩
  · exact ⟨_, rfl⟩
  · rw [htext]
    exact ⟨_, rfl⟩

theorem exists_toText_atom {a : Atom} (ha : ∀ n, a ≠ .int n) : ∃ s, (atom a).toText = .ok s :=
  (isAcyclic_atom a).exists_toText (hasShortInts_atom ha)

/-! ### Truth values and moments -/

theorem IsBuilt.exists_truth (h : data.IsBuilt) : ∃ b, data.truth = .ok b := by
  have hbasic := h.isBasic
  cases data with
  | atom a =>
    cases a with
    | null | bool | int | real | text | bytes => exact ⟨_, rfl⟩
    | moment m =>
      obtain ⟨s, htext⟩ := exists_toText_atom (a := .moment m) nofun
      exact ⟨textTruth s, congrArg (· >>= fun s ↦ pure (textTruth s)) htext⟩
    | day d =>
      obtain ⟨s, htext⟩ := exists_toText_atom (a := .day d) nofun
      exact ⟨textTruth s, congrArg (· >>= fun s ↦ pure (textTruth s)) htext⟩
    | _ => cases hbasic
  | tuple | frozen | list | map | set | buffer => exact ⟨_, rfl⟩
  | _ => cases hbasic

theorem IsBuilt.exists_toMoment (h : data.IsBuilt) (now : Moment) :
    ∃ found, data.toMoment now = .ok found := by
  unfold toMoment
  split
  case h_11 =>
    split
    · exact ⟨_, rfl⟩
    · rename_i hdeep
      exact absurd (onlyFails_toText _ _ hdeep) h.isAcyclic.not_hasBlock
    · exact ⟨_, rfl⟩
  all_goals exact ⟨_, rfl⟩

/-! ### Numbers -/

/-- What the number of data is taken from: the data itself, or its only item. -/
def numberSource : Data → Data
  | list [item] | tuple [item] | set [item] | frozen [item] | map [(_, item)] => item
  | data => data

/-- Whether the number of data is within the limits of numerals and of the calendar. -/
structure IsCountable (data : Data) : Prop where
  /-- It is no numeral with too many digits. -/
  numeral : ∀ s, data.numberSource = .text s → ¬ Numeral.IsTooLong s.toList
  /-- It is no moment without a zone on the first day. -/
  moment : ∀ m, data.numberSource = .atom (.moment m) → m.offset = none → 1 < m.day.number

theorem exists_numeric? (htext : ∀ s, data = .text s → ¬ Numeral.IsTooLong s.toList)
    (hmoment : ∀ m, data = .atom (.moment m) → m.offset = none → 1 < m.day.number) :
    ∃ found, data.numeric? = .ok found := by
  unfold numeric?
  split
  · exact ⟨_, rfl⟩
  · exact ⟨_, rfl⟩
  · exact ⟨_, rfl⟩
  · exact Numeral.exists_read (htext _ rfl)
  · rename_i m
    unfold Moment.timestamp
    cases hoffset : m.offset with
    | some offset => exact ⟨_, rfl⟩
    | none =>
      rw [if_neg (Nat.not_le.2 (hmoment m rfl hoffset))]
      exact ⟨_, rfl⟩
  · exact ⟨_, rfl⟩

theorem exists_collectionNumber {items : List Data}
    (h : ∀ item, items = [item] → ∃ found, item.numeric? = .ok found) :
    ∃ n, collectionNumber items = .ok n := by
  unfold collectionNumber
  split
  · exact ⟨_, rfl⟩
  · rename_i item
    obtain ⟨found, hfound⟩ := h item rfl
    rw [hfound]
    cases found <;> exact ⟨_, rfl⟩
  · exact ⟨_, rfl⟩

theorem toText_day (d : Day) : (atom (.day d)).toText = .ok (String.ofList d.text) := by
  show (atom (.day d)).render.map String.ofList = _
  rw [render.eq_def]
  simp only [leafText]
  rw [written.eq_def]
  rfl

theorem exists_textNumber {text : List Char} (h : ¬ Numeral.IsTooLong text) :
    ∃ n, textNumber (String.ofList text) = .ok n := by
  obtain ⟨found, hread⟩ := Numeral.exists_read h
  rw [textNumber, String.toList_ofList, hread]
  cases found <;> exact ⟨_, rfl⟩

theorem toNumber_of_numeric? {n : Number} (h : data.numeric? = .ok (some n)) :
    data.toNumber = .ok n := by
  unfold toNumber
  rw [h]
  rfl

theorem toNumber_day (d : Day) :
    (atom (.day d)).toNumber = textNumber (String.ofList d.text) := by
  unfold toNumber
  simp only [numeric?, toText_day, bind, Except.bind]

/-- An atom counts as a number if its own number is within the limits. -/
theorem exists_toNumber_atom {a : Atom} (hbasic : (atom a).isBasic = true)
    (h : (atom a).IsCountable) : ∃ n, (atom a).toNumber = .ok n := by
  cases a with
  | null | bool | int | real | bytes => exact ⟨_, rfl⟩
  | text s =>
    obtain ⟨found, hfound⟩ : ∃ found, (text s).numeric? = .ok found :=
      exists_numeric? h.numeral h.moment
    unfold toNumber
    rw [hfound]
    cases found <;> exact ⟨_, rfl⟩
  | moment m =>
    obtain ⟨found, hfound⟩ : ∃ found, (atom (.moment m)).numeric? = .ok found :=
      exists_numeric? h.numeral h.moment
    obtain ⟨x, -, hsome⟩ := bind_eq_ok (x := m.timestamp) hfound
    cases hsome
    exact ⟨_, toNumber_of_numeric? hfound⟩
  | day d =>
    rw [toNumber_day]
    exact exists_textNumber d.not_isTooLong_text
  | _ => cases hbasic

/-- Data counts as a number if the number is within the limits. -/
theorem exists_toNumber (hbasic : data.isBasic = true) (h : data.IsCountable) :
    ∃ n, data.toNumber = .ok n := by
  have hcollection (items : List Data) (hitems : ∀ item, items = [item] → data.numberSource = item)
      (hnumber : data.toNumber = collectionNumber items) : ∃ n, data.toNumber = .ok n := by
    rw [hnumber]
    refine exists_collectionNumber fun item hitem ↦ ?_
    rw [← hitems item hitem]
    exact exists_numeric? h.numeral h.moment
  cases data with
  | atom a => exact exists_toNumber_atom hbasic h
  | tuple items | frozen items | list items | set items =>
    refine hcollection items (fun item hitem ↦ ?_) rfl
    rw [hitem]
    rfl
  | map entries =>
    refine hcollection (entries.map Prod.snd) (fun item hitem ↦ ?_) rfl
    obtain ⟨⟨key, value⟩, rfl, rfl⟩ := List.map_eq_singleton_iff.1 hitem
    rfl
  | buffer bytes => exact ⟨_, rfl⟩
  | _ => cases hbasic

end Data

end ResourceScript
