import ResourceScript.Proofs.Format.JsonString
import ResourceScript.Proofs.Number.Numeral
import ResourceScript.Proofs.Scope.OrderedMap
/-!
# JSON documents are read back

A written value is read back in front of any text that does not go on with it (`IsRead`): a word, an
integer or a string is, and so is a list or a map of values that are. The comma, the bracket or the
brace behind a value ends it. So plain data without doubles, whose integers have a text and whose
maps have distinct texts for keys, is written, and its document is read as the same data
(`exists_write_readOrNull`).
-/

set_option autoImplicit false

namespace ResourceScript.Json

open Text

/-- Entries with texts for keys. -/
def textKeyed (entries : List (String × Plain)) : List (Scalar × Plain) :=
  entries.map fun entry ↦ (.text entry.1, entry.2)

/-- The plain data whose documents are read back: no doubles, only integers that have a text, and
texts for keys. -/
inductive IsDocument : Plain → Prop
  /-- Null. -/
  | null : IsDocument .null
  /-- A truth value. -/
  | bool (b : Bool) : IsDocument (.bool b)
  /-- An integer with at most the greatest number of digits. -/
  | int {n : Int} (hdigits : n.natAbs < 10 ^ Numeral.maxDigits) : IsDocument (.int n)
  /-- A text. -/
  | text (s : String) : IsDocument (.text s)
  /-- A list. -/
  | list {items : List Plain} (hitems : ∀ item ∈ items, IsDocument item) : IsDocument (.list items)
  /-- A map from distinct texts. -/
  | map {entries : List (String × Plain)} (hkeys : (entries.map Prod.fst).Nodup)
    (hvalues : ∀ entry ∈ entries, IsDocument entry.2) :
    IsDocument (.map (textKeyed entries))

/-- Whether a text cannot go on with a value: it is empty or begins with a separator or the end of a
list or a map. -/
def EndsValue (text : List Char) : Prop :=
  ∀ c, text.head? = some c → c = ',' ∨ c = ']' ∨ c = '}'

/-- Whether a text begins neither with white space nor with the end of a list. -/
def BeginsValue (text : List Char) : Prop :=
  ∃ c rest, text = c :: rest ∧ isSpace c = false ∧ c ≠ ']'

/-- Whether a text is read as a value in front of any text that does not go on with it. The length
of the text bounds the number of reading steps. -/
structure IsRead (text : List Char) (value : Plain) : Prop where
  /-- It begins a value. -/
  head : BeginsValue text
  /-- It is read. -/
  read : ∀ (rest : List Char), EndsValue rest → ∀ (fuel : Nat), text.length ≤ fuel →
    readValue fuel (text ++ rest) = .ok (value, rest)

/-- A value has at least one character, so the first reading step is there. -/
theorem isRead_of_step {text : List Char} {value : Plain} (hbegins : BeginsValue text)
    (hstep : ∀ rest, EndsValue rest → ∀ fuel, text.length ≤ fuel + 1 →
      readValue (fuel + 1) (text ++ rest) = .ok (value, rest)) : IsRead text value where
  head := hbegins
  read := by
    intro rest hrest fuel hfuel
    obtain ⟨c, more, rfl, -⟩ := hbegins
    obtain ⟨k, rfl⟩ : ∃ k, fuel = k + 1 :=
      Nat.exists_eq_add_one_of_ne_zero (Nat.ne_of_gt (Nat.lt_of_lt_of_le (by simp) hfuel))
    exact hstep rest hrest k hfuel

/-! ### Layout -/

theorem isLayout_of_isSpace {c : Char} (hc : isSpace c = false) : isLayout c = false := by
  by_contra hlayout
  have hmember : c = ' ' ∨ c = '\t' ∨ c = '\n' ∨ c = '\r' := by
    simp only [isLayout, Bool.not_eq_false, Bool.or_eq_true, beq_iff_eq, or_assoc] at hlayout
    exact hlayout
  rcases hmember with rfl | rfl | rfl | rfl <;> exact absurd hc (by decide)

theorem skipLayout_cons {c : Char} (hc : isLayout c = false) (rest : List Char) :
    skipLayout (c :: rest) = c :: rest := by
  rw [skipLayout, List.dropWhile_cons, hc]
  rfl

theorem skipLayout_blank (text : List Char) : skipLayout (' ' :: text) = skipLayout text := rfl

theorem BeginsValue.skipLayout {text : List Char} (h : BeginsValue text) (rest : List Char) :
    skipLayout (text ++ rest) = text ++ rest := by
  obtain ⟨c, more, rfl, hspace, -⟩ := h
  exact skipLayout_cons (isLayout_of_isSpace hspace) _

theorem endsValue_cons {c : Char} (hc : c = ',' ∨ c = ']' ∨ c = '}') (rest : List Char) :
    EndsValue (c :: rest) := by
  intro d hd
  obtain rfl : c = d := by simpa using hd
  exact hc

/-! ### Words and strings -/

theorem isRead_null : IsRead "null".toList .null :=
  isRead_of_step ⟨'n', _, rfl, by decide, by decide⟩ fun _ _ _ _ ↦ rfl

theorem isRead_bool (b : Bool) : IsRead (if b then "true" else "false").toList (.bool b) := by
  cases b with
  | false => exact isRead_of_step ⟨'f', _, rfl, by decide, by decide⟩ fun _ _ _ _ ↦ rfl
  | true => exact isRead_of_step ⟨'t', _, rfl, by decide, by decide⟩ fun _ _ _ _ ↦ rfl

/-- What is written between quotes is read up to the closing quote. -/
theorem readString_quote (text rest : List Char) :
    readString (text.flatMap escapeChar ++ '"' :: rest) = .ok (text, rest) := by
  obtain ⟨parts, hspells, hparts⟩ := exists_spells_flatMap_escapeChar text
  exact readString_eq_ok_iff.2 ⟨_, parts, rfl, hspells, hparts⟩

theorem isRead_quote (s : String) : IsRead (quote s.toList) (.text s) := by
  refine isRead_of_step ⟨'"', _, rfl, by decide, by decide⟩ ?_
  intro rest hrest fuel hfuel
  have hquote : quote s.toList ++ rest = '"' :: (s.toList.flatMap escapeChar ++ '"' :: rest) := by
    simp [quote]
  rw [hquote, readValue, if_pos rfl, readString_quote]
  show Except.ok (Plain.text (String.ofList s.toList), rest) = _
  rw [String.ofList_toList]

/-! ### Integers -/

theorem isAsciiDigit_of_isDigit {c : Char} (hc : c.isDigit = true) : isAsciiDigit c = true := by
  have hrange := isDigit_toNat hc
  simpa [isAsciiDigit, Char.le_def, UInt32.le_iff_toNat_le] using hrange

/-- Only the number zero has a leading zero. -/
theorem natDigits_ne_zero_cons {n : Nat} (hn : n ≠ 0) (rest : List Char) :
    Decimal.natDigits n ≠ '0' :: rest := by
  induction n using Nat.strong_induction_on generalizing rest with
  | _ n ih =>
    intro hdigits
    by_cases hsmall : n < 10
    · have hsingle : Decimal.natDigits n = [n.digitChar] := Nat.toDigits_of_lt_base hsmall
      obtain ⟨hzero, -⟩ := List.cons.inj (hsingle.symm.trans hdigits)
      have hvalue := Numeral.digitsValue_natDigits n
      rw [hsingle, hzero] at hvalue
      exact hn hvalue.symm
    · have happend : Decimal.natDigits n = Decimal.natDigits (n / 10) ++ [(n % 10).digitChar] :=
        Nat.toDigits_of_base_le (by decide) (Nat.not_lt.1 hsmall)
      obtain ⟨c, more, hmore⟩ := List.exists_cons_of_ne_nil (Numeral.natDigits_ne_nil (n / 10))
      rw [happend, hmore, List.cons_append] at hdigits
      rw [(List.cons.inj hdigits).1] at hmore
      exact ih (n / 10) (by omega) (by omega) more hmore

/-- What ends a value is no part of a number. -/
theorem EndsValue.head_eq {rest : List Char} (hrest : EndsValue rest) :
    rest = [] ∨ ∃ c more, rest = c :: more ∧ isAsciiDigit c = false ∧ c ≠ '.' ∧ c ≠ 'e' ∧ c ≠ 'E' := by
  match rest with
  | [] => exact .inl rfl
  | c :: more =>
    refine .inr ⟨c, more, rfl, ?_⟩
    rcases hrest c rfl with rfl | rfl | rfl <;> decide

theorem readFraction_of_endsValue {rest : List Char} (hrest : EndsValue rest) :
    readFraction rest = ([], rest) := by
  rcases hrest.head_eq with rfl | ⟨c, more, rfl, -, hpoint, -⟩
  · rfl
  · exact readFraction.eq_2 _ fun d after hcons ↦ absurd (List.cons.inj hcons).1 hpoint

theorem readExponent_of_endsValue {rest : List Char} (hrest : EndsValue rest) :
    readExponent rest = (none, rest) := by
  rcases hrest.head_eq with rfl | ⟨c, more, rfl, -, -, hlower, hupper⟩
  · rfl
  · rw [readExponent, if_neg (not_or.2 ⟨hlower, hupper⟩)]

theorem takeWhile_digits {digits rest : List Char} (hdigits : ∀ c ∈ digits, c.isDigit = true)
    (hrest : EndsValue rest) : (digits ++ rest).takeWhile isAsciiDigit = digits ∧
      (digits ++ rest).dropWhile isAsciiDigit = rest := by
  have hall : ∀ c ∈ digits, isAsciiDigit c = true := fun c hc ↦
    isAsciiDigit_of_isDigit (hdigits c hc)
  rw [List.takeWhile_append_of_pos hall, List.dropWhile_append_of_pos hall]
  rcases hrest.head_eq with rfl | ⟨c, more, rfl, hc, -⟩
  · simp
  · simp [hc]

/-- The whole part of a number is its digits. -/
theorem readNumber_natDigits {n : Nat} {rest : List Char} (hrest : EndsValue rest)
    (negative : Bool) : readNumber negative (Decimal.natDigits n ++ rest) = (do
      let whole ← Numeral.wholeValue
        (if negative then '-' :: Decimal.natDigits n else Decimal.natDigits n)
      return (.int whole, rest)) := by
  by_cases hzero : n = 0
  · subst hzero
    have hdigits : Decimal.natDigits 0 = ['0'] := rfl
    simp only [hdigits, List.cons_append, List.nil_append, readNumber,
      readFraction_of_endsValue hrest, readExponent_of_endsValue hrest]
    rfl
  · obtain ⟨c, more, hdigits⟩ := List.exists_cons_of_ne_nil (Numeral.natDigits_ne_nil n)
    have hne : ∀ after, Decimal.natDigits n ++ rest ≠ '0' :: after := by
      intro after hafter
      rw [hdigits, List.cons_append] at hafter
      exact natDigits_ne_zero_cons hzero more (hdigits.trans (by rw [(List.cons.inj hafter).1]))
    obtain ⟨htake, hdrop⟩ := takeWhile_digits
      (fun d hd ↦ Numeral.isDigit_of_mem_natDigits (n := n) hd) hrest
    rw [readNumber.eq_2 _ _ hne, htake, hdrop]
    simp only [readFraction_of_endsValue hrest, readExponent_of_endsValue hrest, hdigits]
    rfl

/-- A digit begins a number. -/
theorem readValue_of_isDigit {c : Char} (hc : c.isDigit = true) (fuel : Nat) (rest : List Char) :
    readValue (fuel + 1) (c :: rest) = readNumber false (c :: rest) := by
  have hne : ∀ d : Char, d.isDigit = false → c ≠ d := by
    rintro d hd rfl
    rw [hc] at hd
    cases hd
  rw [readValue, if_neg (hne _ (by decide)), if_neg (hne _ (by decide)),
    if_neg (hne _ (by decide)), if_neg (hne _ (by decide)), if_pos (isAsciiDigit_of_isDigit hc)]

theorem beginsValue_intText {n : Int} {text : List Char} (htext : Numeral.intText n = .ok text) :
    BeginsValue text := by
  obtain ⟨c, more, rfl⟩ := List.exists_cons_of_ne_nil (Numeral.intText_ne_nil htext)
  refine ⟨c, more, rfl, ?_⟩
  rcases Numeral.isDigit_or_eq_of_mem_intText htext List.mem_cons_self with hdigit | rfl
  · refine ⟨isSpace_of_isDigit hdigit, ?_⟩
    rintro rfl
    exact absurd hdigit (by decide)
  · decide

/-- A sign begins a number unless the word for infinity follows. -/
theorem readValue_minus {c : Char} (hc : c.isDigit = true) (fuel : Nat) (rest : List Char) :
    readValue (fuel + 1) ('-' :: c :: rest) = readNumber true (c :: rest) := by
  have hinfinity : afterStart "Infinity".toList (c :: rest) = none := by
    refine if_neg ?_
    rintro rfl
    exact absurd hc (by decide)
  rw [readValue, if_neg (by decide), if_neg (by decide), if_neg (by decide), if_pos rfl]
  simp only [hinfinity]

theorem isRead_int {n : Int} {text : List Char} (htext : Numeral.intText n = .ok text) :
    IsRead text (.int n) := by
  refine isRead_of_step (beginsValue_intText htext) ?_
  intro rest hrest fuel hfuel
  have hvalue := Numeral.wholeValue_intText htext
  obtain ⟨-, rfl⟩ := Numeral.intText_eq_ok_iff.1 htext
  obtain ⟨c, more, hdigits⟩ := List.exists_cons_of_ne_nil (Numeral.natDigits_ne_nil n.natAbs)
  have hdigit : c.isDigit = true := Numeral.isDigit_of_mem_natDigits (hdigits ▸ List.mem_cons_self)
  by_cases hneg : n < 0
  · rw [if_pos hneg] at hvalue ⊢
    have hnumber := readNumber_natDigits (n := n.natAbs) hrest true
    rw [if_pos rfl, hvalue] at hnumber
    rw [hdigits, List.cons_append] at hnumber ⊢
    rw [List.cons_append, readValue_minus hdigit]
    exact hnumber
  · rw [if_neg hneg] at hvalue ⊢
    have hnumber := readNumber_natDigits (n := n.natAbs) hrest false
    rw [if_neg Bool.false_ne_true, hvalue] at hnumber
    rw [hdigits, List.cons_append] at hnumber ⊢
    rw [readValue_of_isDigit hdigit]
    exact hnumber

/-! ### Lists -/

/-- Whether a value is written and read back. -/
def IsReadBack (value : Plain) : Prop :=
  ∃ text, write value = .ok text ∧ IsRead text value

/-- The items of a list are read up to its end. -/
theorem exists_readItems {items : List Plain} (hne : items ≠ [])
    (hitems : ∀ item ∈ items, IsReadBack item) :
    ∃ text, writeItems items = .ok text ∧ BeginsValue text ∧
      ∀ (rest : List Char) (fuel : Nat), text.length < fuel →
        readItems fuel (text ++ ']' :: rest) = .ok (items, rest) := by
  induction items with
  | nil => exact absurd rfl hne
  | cons item more ih =>
    obtain ⟨text, hwrite, hread⟩ := hitems item List.mem_cons_self
    match more with
    | [] =>
      refine ⟨text, by rw [writeItems, hwrite], hread.head, ?_⟩
      intro rest fuel hfuel
      obtain ⟨k, rfl⟩ : ∃ k, fuel = k + 1 := ⟨fuel - 1, by omega⟩
      rw [readItems, hread.read _ (endsValue_cons (.inr (.inl rfl)) rest) _ (by omega)]
      rfl
    | next :: more =>
      obtain ⟨texts, hwrites, hbegins, hreads⟩ := ih (List.cons_ne_nil _ _) fun other hother ↦
        hitems other (List.mem_cons_of_mem _ hother)
      refine ⟨text ++ ',' :: ' ' :: texts, ?_, ?_, ?_⟩
      · rw [writeItems, hwrite, hwrites]
        rfl
      · obtain ⟨c, after, rfl, hc⟩ := hread.head
        exact ⟨c, _, rfl, hc⟩
      · intro rest fuel hfuel
        obtain ⟨k, rfl⟩ : ∃ k, fuel = k + 1 := ⟨fuel - 1, by omega⟩
        simp only [List.length_append, List.length_cons] at hfuel
        have hrest := hreads rest k (by omega)
        rw [List.append_assoc, List.cons_append, readItems,
          hread.read _ (endsValue_cons (.inl rfl) _) _ (by omega)]
        show (readItems k (Json.skipLayout (texts ++ ']' :: rest)) >>= fun found ↦
          .ok (item :: found.1, found.2)) = _
        rw [hbegins.skipLayout, hrest]
        rfl

theorem isReadBack_list {items : List Plain} (hitems : ∀ item ∈ items, IsReadBack item) :
    IsReadBack (.list items) := by
  by_cases hempty : items = []
  · subst hempty
    exact ⟨"[]".toList, rfl,
      isRead_of_step ⟨'[', _, rfl, by decide, by decide⟩ fun _ _ _ _ ↦ rfl⟩
  · obtain ⟨text, hwrite, hbegins, hread⟩ := exists_readItems hempty hitems
    refine ⟨'[' :: (text ++ [']']), by rw [write, hwrite]; rfl,
      isRead_of_step ⟨'[', _, rfl, by decide, by decide⟩ ?_⟩
    intro rest hrest fuel hfuel
    simp only [List.length_append, List.length_cons, List.length_nil] at hfuel
    have hitems := hread rest fuel (by omega)
    obtain ⟨c, more, hc, hspace, hbracket⟩ := hbegins
    have happend : '[' :: (text ++ [']']) ++ rest = '[' :: c :: (more ++ ']' :: rest) := by
      simp [hc]
    rw [hc, List.cons_append] at hitems
    rw [happend, readValue, if_neg (by decide), if_pos rfl,
      skipLayout_cons (isLayout_of_isSpace hspace)]
    split
    · rename_i hcons
      exact absurd (List.cons.inj hcons).1 hbracket
    · rw [hitems]
      rfl

/-! ### Maps -/

theorem sameKey_text (s t : String) : Scalar.sameKey (.text s) (.text t) = decide (s = t) := by
  simp [Scalar.sameKey, Scalar.number?]

theorem putText_of_new {entries : List (String × Plain)} {key : String}
    (hnew : key ∉ entries.map Prod.fst) (value : Plain) :
    putText key value (textKeyed entries) = textKeyed (entries ++ [(key, value)]) := by
  have hkeys : ∀ entry ∈ textKeyed entries, Scalar.sameKey entry.1 (.text key) = false := by
    intro entry hentry
    obtain ⟨other, hother, rfl⟩ := List.mem_map.1 hentry
    rw [sameKey_text]
    refine decide_eq_false ?_
    rintro rfl
    exact hnew (List.mem_map_of_mem hother)
  rw [putText, putEntry_of_new hkeys, textKeyed, textKeyed, List.map_append]
  rfl

/-- The text of an entry: its key between quotes and its value. -/
def entryText (key : String) (value : List Char) : List Char :=
  quote key.toList ++ ':' :: ' ' :: value

theorem readString_entryText (key : String) (value rest : List Char) :
    ∃ more, entryText key value ++ rest = '"' :: more ∧
      readString more = .ok (key.toList, ':' :: ' ' :: (value ++ rest)) :=
  ⟨key.toList.flatMap escapeChar ++ '"' :: ':' :: ' ' :: (value ++ rest),
    by simp [entryText, quote], readString_quote _ _⟩

/-- An entry is read and added to those that were read before. -/
theorem readEntries_entryText {key : String} {text : List Char} {value : Plain}
    (hread : IsRead text value) {before : List (String × Plain)}
    (hnew : key ∉ before.map Prod.fst) {fuel : Nat} (hfuel : text.length ≤ fuel)
    (after : List Char) :
    readEntries (fuel + 1) (textKeyed before) (entryText key text ++ '}' :: after) =
        .ok (textKeyed (before ++ [(key, value)]), after) ∧
      readEntries (fuel + 1) (textKeyed before) (entryText key text ++ ',' :: after) =
        readEntries fuel (textKeyed (before ++ [(key, value)])) (skipLayout after) := by
  have hvalue {rest : List Char} (hrest : EndsValue rest) :
      readValue fuel (skipLayout (' ' :: (text ++ rest))) = .ok (value, rest) := by
    rw [skipLayout_blank, hread.head.skipLayout, hread.read _ hrest _ hfuel]
  have hcolon (rest : List Char) : skipLayout (':' :: rest) = ':' :: rest :=
    skipLayout_cons rfl rest
  have hclose : skipLayout ('}' :: after) = '}' :: after := skipLayout_cons rfl after
  have hcomma : skipLayout (',' :: after) = ',' :: after := skipLayout_cons rfl after
  constructor
  · obtain ⟨more, htext, hkey⟩ := readString_entryText key text ('}' :: after)
    have hitem := hvalue (endsValue_cons (.inr (.inr rfl)) after)
    rw [htext, readEntries, hkey]
    simp only [hcolon, hitem, hclose, bind, Except.bind, pure, Except.pure, String.ofList_toList,
      putText_of_new hnew]
  · obtain ⟨more, htext, hkey⟩ := readString_entryText key text (',' :: after)
    have hitem := hvalue (endsValue_cons (.inl rfl) after)
    rw [htext, readEntries, hkey]
    simp only [hcolon, hitem, hcomma, bind, Except.bind, String.ofList_toList,
      putText_of_new hnew]

/-- The entries of a map are read up to its end, behind those that were read before. -/
theorem exists_readEntries {entries : List (String × Plain)} (hne : entries ≠ [])
    (hvalues : ∀ entry ∈ entries, IsReadBack entry.2) :
    ∃ text, writeEntries (textKeyed entries) = .ok text ∧ text.head? = some '"' ∧
      ∀ (rest : List Char) (fuel : Nat) (before : List (String × Plain)),
        ((before ++ entries).map Prod.fst).Nodup → text.length < fuel →
          readEntries fuel (textKeyed before) (text ++ '}' :: rest) =
            .ok (textKeyed (before ++ entries), rest) := by
  induction entries with
  | nil => exact absurd rfl hne
  | cons entry more ih =>
    obtain ⟨key, value⟩ := entry
    obtain ⟨text, hwrite, hread⟩ := hvalues (key, value) List.mem_cons_self
    have hnew : ∀ {before : List (String × Plain)},
        ((before ++ (key, value) :: more).map Prod.fst).Nodup → key ∉ before.map Prod.fst := by
      intro before hkeys hmem
      rw [List.map_append, List.map_cons] at hkeys
      exact (List.nodup_append.1 hkeys).2.2 key hmem key List.mem_cons_self rfl
    match more with
    | [] =>
      refine ⟨entryText key text, ?_, rfl, ?_⟩
      · show (do return quote key.toList ++ ':' :: ' ' :: (← write value)) = _
        rw [hwrite]
        rfl
      · intro rest fuel before hkeys hfuel
        simp only [entryText, quote, List.length_append, List.length_cons] at hfuel
        obtain ⟨k, rfl⟩ : ∃ k, fuel = k + 1 := ⟨fuel - 1, by omega⟩
        exact (readEntries_entryText hread (hnew hkeys) (by omega) rest).1
    | next :: more =>
      obtain ⟨texts, hwrites, hquote, hreads⟩ := ih (List.cons_ne_nil _ _) fun other hother ↦
        hvalues other (List.mem_cons_of_mem _ hother)
      refine ⟨entryText key text ++ ',' :: ' ' :: texts, ?_, rfl, ?_⟩
      · show (do return quote key.toList ++ ':' :: ' ' :: ((← write value) ++ ',' :: ' ' ::
          (← writeEntries (textKeyed (next :: more))))) = _
        rw [hwrite, hwrites]
        show Except.ok _ = _
        simp [entryText]
      · intro rest fuel before hkeys hfuel
        simp only [entryText, quote, List.length_append, List.length_cons] at hfuel
        obtain ⟨k, rfl⟩ : ∃ k, fuel = k + 1 := ⟨fuel - 1, by omega⟩
        obtain ⟨more', htexts⟩ := List.head?_eq_some_iff.1 hquote
        have hskip : skipLayout (' ' :: (texts ++ '}' :: rest)) = texts ++ '}' :: rest := by
          rw [skipLayout_blank, htexts]
          rfl
        have hkeys' : ((before ++ [(key, value)] ++ next :: more).map Prod.fst).Nodup := by
          simpa using hkeys
        rw [List.append_assoc, List.cons_append, List.cons_append,
          (readEntries_entryText hread (hnew hkeys) (by omega) _).2, hskip, hreads rest _ _ hkeys' (by omega), List.append_assoc]
        rfl

theorem isReadBack_map {entries : List (String × Plain)}
    (hkeys : (entries.map Prod.fst).Nodup) (hvalues : ∀ entry ∈ entries, IsReadBack entry.2) :
    IsReadBack (.map (textKeyed entries)) := by
  by_cases hempty : entries = []
  · subst hempty
    exact ⟨['{', '}'], rfl,
      isRead_of_step ⟨'{', _, rfl, by decide, by decide⟩ fun _ _ _ _ ↦ rfl⟩
  · obtain ⟨text, hwrite, hquote, hread⟩ := exists_readEntries hempty hvalues
    refine ⟨'{' :: (text ++ ['}']), by rw [write, hwrite]; rfl,
      isRead_of_step ⟨'{', _, rfl, by decide, by decide⟩ ?_⟩
    intro rest hrest fuel hfuel
    simp only [List.length_append, List.length_cons, List.length_nil] at hfuel
    obtain ⟨more, rfl⟩ := List.head?_eq_some_iff.1 hquote
    have hentries := hread rest fuel [] hkeys (by omega)
    have happend : '{' :: ('"' :: more ++ ['}']) ++ rest =
        '{' :: '"' :: (more ++ '}' :: rest) := by
      simp
    rw [happend]
    show (readEntries fuel (textKeyed []) ('"' :: more ++ '}' :: rest) >>= fun found ↦
      .ok (Plain.map found.1, found.2)) = _
    rw [hentries]
    rfl

/-! ### Documents -/

/-- Plain data without doubles is written and read back. -/
theorem isReadBack_of_isDocument {p : Plain} (hp : IsDocument p) : IsReadBack p := by
  induction hp with
  | null => exact ⟨_, rfl, isRead_null⟩
  | bool b => exact ⟨_, rfl, isRead_bool b⟩
  | int hdigits =>
    have htext := Numeral.intText_eq_ok_iff.2 ⟨hdigits, rfl⟩
    exact ⟨_, htext, isRead_int htext⟩
  | text s => exact ⟨_, rfl, isRead_quote s⟩
  | list _ ih => exact isReadBack_list ih
  | map hkeys _ ih => exact isReadBack_map hkeys ih

/-- The document of plain data is read as the same data. -/
theorem exists_write_readOrNull {p : Plain} (hp : IsDocument p) :
    ∃ text, write p = .ok text ∧ readOrNull text = .ok p := by
  obtain ⟨text, hwrite, hread⟩ := isReadBack_of_isDocument hp
  obtain ⟨c, more, rfl, hspace, -⟩ := hread.head
  refine ⟨_, hwrite, ?_⟩
  have hvalue := hread.read [] nofun (2 * (c :: more).length + 2) (by omega)
  rw [List.append_nil] at hvalue
  have hblank : (trim (c :: more)).isEmpty = false := by
    rw [List.isEmpty_eq_false_iff]
    exact trim_cons_ne_nil hspace more
  rw [readOrNull, hblank, if_neg Bool.false_ne_true, read,
    skipLayout_cons (isLayout_of_isSpace hspace), hvalue]
  rfl

end ResourceScript.Json
