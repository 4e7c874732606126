import ResourceScript.Proofs.Format.FormEntries
import ResourceScript.Proofs.Number.Numeral
import ResourceScript.Proofs.Text.Percent
/-!
# Forms are read back

The pairs of a form are escaped, so no part of the text holds an ampersand and none an equals sign
but the one between key and value; the parts between the ampersands are the pairs
(`entry_pairText`). The values of one key stand side by side and are grouped again
(`grouped_spread`).

The text of a value has no kind of its own, so a value comes back if the kind that is read off its
text is its own. Plain items are such values (`IsPlainItem`), and so are lists of several of them.
-/

set_option autoImplicit false

namespace ResourceScript.Form

open Text

/-! ### Items -/

/-- Whether a text is taken for nothing but itself: it is not split at commas, not a numeral, not
one of the words for null and the truth values, and does not begin as JSON does. -/
structure IsPlainText (text : List Char) : Prop where
  /-- It holds no comma. -/
  comma : ',' ∉ text
  /-- It is no numeral. -/
  number : Numeral.read text = .ok none
  /-- It is no word for null or a truth value. -/
  word : text ≠ "null".toList ∧ text ≠ "true".toList ∧ text ≠ "false".toList
  /-- It begins with no bracket, brace or quote. -/
  head : ∀ c, text.head? = some c → c ≠ '[' ∧ c ≠ '{' ∧ c ≠ '"'

/-- The items that come back as they are: null, the truth values, integers that have a text, and
plain texts. -/
inductive IsPlainItem : Scalar → Prop
  /-- Null. -/
  | null : IsPlainItem .null
  /-- A truth value. -/
  | bool (b : Bool) : IsPlainItem (.bool b)
  /-- An integer with at most the greatest number of digits. -/
  | int {n : Int} (hdigits : n.natAbs < 10 ^ Numeral.maxDigits) : IsPlainItem (.int n)
  /-- A text that is taken for nothing but itself. -/
  | text {s : String} (hplain : IsPlainText s.toList) : IsPlainItem (.text s)

/-- The values that come back as they are: a plain item or a list of at least two. -/
inductive IsPlainValue : Plain → Prop
  /-- A plain item. -/
  | item {item : Scalar} (hitem : IsPlainItem item) : IsPlainValue (.scalar item)
  /-- A list of at least two plain items. -/
  | list {items : List Scalar} (hlength : 2 ≤ items.length)
    (hitems : ∀ item ∈ items, IsPlainItem item) : IsPlainValue (.list (items.map .scalar))

theorem isSeparated_of_not_mem {text : List Char} (hcomma : ',' ∉ text) :
    isSeparated text = false := by
  rw [isSeparated, List.contains_eq_mem, decide_eq_false hcomma]
  rfl

theorem typed_intText {n : Int} {text : List Char} (htext : Numeral.intText n = .ok text) :
    typed text = .ok (.int n) := by
  have hword : ∀ word : List Char, (∃ c ∈ word, c.isDigit = false ∧ c ≠ '-') → text ≠ word := by
    rintro word ⟨c, hc, hdigit, hminus⟩ rfl
    exact Numeral.not_mem_intText htext hdigit hminus hc
  have hcomma : ',' ∉ text := Numeral.not_mem_intText htext (by decide) (by decide)
  rw [typed, isSeparated_of_not_mem hcomma]
  show typedPart text = _
  rw [typedPart, if_neg (hword _ ⟨'n', by decide, by decide⟩),
    if_neg (hword _ ⟨'t', by decide, by decide⟩), if_neg (hword _ ⟨'f', by decide, by decide⟩),
    Numeral.read_of_intText htext]
  rfl

theorem typed_of_isPlainText {text : List Char} (hplain : IsPlainText text) :
    typed text = .ok (.text (String.ofList text)) := by
  rw [typed, isSeparated_of_not_mem hplain.comma]
  show typedPart text = _
  rw [typedPart, if_neg hplain.word.1, if_neg hplain.word.2.1, if_neg hplain.word.2.2,
    hplain.number]
  dsimp only [bind, Except.bind]
  split
  · rename_i hhead
    exact absurd rfl (hplain.head _ hhead).1
  · rename_i hhead
    exact absurd rfl (hplain.head _ hhead).2.1
  · rename_i hhead
    exact absurd rfl (hplain.head _ hhead).2.2
  · rfl

/-- The text of a plain item in a form. -/
def itemText : Scalar → List Char
  | .null => "null".toList
  | .bool b => (if b then "true" else "false").toList
  | .int n => (Numeral.intText n).toOption.getD []
  | .real _ => []
  | .text s => s.toList

theorem intText_eq_itemText {n : Int} (hdigits : n.natAbs < 10 ^ Numeral.maxDigits) :
    Numeral.intText n = .ok (itemText (.int n)) := by
  have htext := Numeral.intText_eq_ok_iff.2 ⟨hdigits, rfl⟩
  rw [itemText, htext]
  rfl

/-- The kind that is read off the text of a plain item is its own. -/
theorem typed_itemText {item : Scalar} (hitem : IsPlainItem item) :
    typed (itemText item) = .ok (.scalar item) := by
  cases hitem with
  | null => rfl
  | bool b => cases b <;> rfl
  | int hdigits => exact typed_intText (intText_eq_itemText hdigits)
  | @text s hplain =>
    show typed s.toList = _
    rw [typed_of_isPlainText hplain, String.ofList_toList]

/-! ### Pairs -/

/-- The text of a pair. -/
def pairText (pair : List Char × List Char) : List Char :=
  Percent.encodeQuery pair.1 ++ '=' :: Percent.encodeQuery pair.2

theorem not_mem_encodeQuery {c : Char} (hc : Percent.isQueryChar c = false) (text : List Char) :
    c ∉ Percent.encodeQuery text := by
  intro hmem
  rw [Percent.isQueryChar_of_mem hmem] at hc
  cases hc

theorem of_mem_pairText {pair : List Char × List Char} {c : Char} (hc : c ∈ pairText pair) :
    Percent.isQueryChar c = true ∨ c = '=' := by
  rcases List.mem_append.1 hc with hc | hc
  · exact Or.inl (Percent.isQueryChar_of_mem hc)
  · rcases List.mem_cons.1 hc with hc | hc
    · exact Or.inr hc
    · exact Or.inl (Percent.isQueryChar_of_mem hc)

/-- A pair is read back from its text. -/
theorem entry_pairText (key : List Char) {value : List Char} {typedValue : Plain}
    (hvalue : typed value = .ok typedValue) :
    entry (pairText (key, value)) = .ok (String.ofList key, typedValue) := by
  rw [entry, pairText, cutAt_append (not_mem_encodeQuery (by decide) key)]
  show (do return (_, ← typed _)) = _
  rw [Percent.decodeQuery_encodeQuery, Percent.decodeQuery_encodeQuery, hvalue]
  rfl

/-- The parts of the text of pairs are the texts of the pairs. -/
theorem parts_write (pairs : List (List Char × List Char)) :
    parts (write pairs) = pairs.map pairText := by
  have hwrite : write pairs = joinWith ['&'] (pairs.map pairText) := rfl
  have hsolid : ∀ c ∈ write pairs, isSpace c = false := by
    intro c hc
    rcases mem_joinWith (hwrite ▸ hc) with hc | ⟨piece, hpiece, hc⟩
    · rw [List.mem_singleton.1 hc]
      decide
    · obtain ⟨pair, -, rfl⟩ := List.mem_map.1 hpiece
      rcases of_mem_pairText hc with hquery | rfl
      · exact Percent.isSpace_of_isQueryChar hquery
      · decide
  rw [parts, trim_eq_self hsolid, hwrite]
  by_cases hpairs : pairs = []
  · rw [hpairs]
    rfl
  have habsent : ∀ piece ∈ pairs.map pairText, '&' ∉ piece := by
    intro piece hpiece hc
    obtain ⟨pair, -, rfl⟩ := List.mem_map.1 hpiece
    rcases of_mem_pairText hc with hquery | heq
    · exact absurd hquery (by decide)
    · exact absurd heq (by decide)
  rw [splitOn_joinWith (by simpa using hpairs) habsent, List.filter_eq_self]
  intro piece hpiece
  obtain ⟨pair, -, rfl⟩ := List.mem_map.1 hpiece
  simp [pairText]

/-! ### Values of one key -/

/-- The values of each key, side by side. -/
def spread (entries : List (String × List Plain)) : List (String × Plain) :=
  entries.flatMap fun entry ↦ entry.2.map (entry.1, ·)

section Values

variable {entries : List (String × List Plain)} {key other : String} {values : List Plain}

theorem spread_cons (key : String) (values : List Plain) (entries : List (String × List Plain)) :
    spread ((key, values) :: entries) = values.map (key, ·) ++ spread entries :=
  List.flatMap_cons

theorem mem_keys_of_spread (hkey : key ∈ (spread entries).map Prod.fst) :
    key ∈ entries.map Prod.fst := by
  obtain ⟨found, hfound, rfl⟩ := List.mem_map.1 hkey
  obtain ⟨entry, hentry, hfound⟩ := List.mem_flatMap.1 hfound
  obtain ⟨value, -, rfl⟩ := List.mem_map.1 hfound
  exact List.mem_map_of_mem hentry

theorem valuesOf_map_self (key : String) (values : List Plain) :
    valuesOf key (values.map (key, ·)) = values := by
  simp [valuesOf, List.filter_map, Function.comp_def]

theorem valuesOf_map_of_ne (hother : other ≠ key) (values : List Plain) :
    valuesOf other (values.map (key, ·)) = [] := by
  simp [valuesOf, hother.symm]

theorem valuesOf_spread (hkeys : (entries.map Prod.fst).Nodup) (hentry : (key, values) ∈ entries) :
    valuesOf key (spread entries) = values := by
  induction entries with
  | nil => cases hentry
  | cons first rest ih =>
    obtain ⟨other, others⟩ := first
    obtain ⟨hnew, hrest⟩ := List.nodup_cons.1 hkeys
    rw [spread_cons, valuesOf_append]
    rcases List.mem_cons.1 hentry with heq | hentry
    · cases heq
      rw [valuesOf_map_self, valuesOf_eq_nil_iff.2 (mt mem_keys_of_spread hnew), List.append_nil]
    · have hkey : key ∈ rest.map Prod.fst := List.mem_map_of_mem hentry
      rw [valuesOf_map_of_ne (ne_of_mem_of_not_mem hkey hnew), List.nil_append, ih hrest hentry]

theorem eraseDups_keys_spread (hkeys : (entries.map Prod.fst).Nodup)
    (hvalues : ∀ entry ∈ entries, entry.2 ≠ []) :
    ((spread entries).map Prod.fst).eraseDups = entries.map Prod.fst := by
  induction entries with
  | nil => rfl
  | cons first rest ih =>
    obtain ⟨key, values⟩ := first
    obtain ⟨hnew, hrest⟩ := List.nodup_cons.1 hkeys
    obtain ⟨value, more, rfl⟩ := List.exists_cons_of_ne_nil (hvalues _ List.mem_cons_self)
    have hsame : ((more.map (key, ·)).map Prod.fst).filter (fun other ↦ !other == key) = [] := by
      simp
    have hothers : ((spread rest).map Prod.fst).filter (fun other ↦ !other == key) =
        (spread rest).map Prod.fst := by
      refine List.filter_eq_self.2 fun other hother ↦ ?_
      simpa using ne_of_mem_of_not_mem (mem_keys_of_spread hother) hnew
    rw [spread_cons, List.map_cons, List.cons_append, List.map_cons, List.eraseDups_cons,
      List.map_append, List.filter_append, hsame, hothers, List.nil_append,
      ih hrest fun entry hentry ↦ hvalues entry (List.mem_cons_of_mem _ hentry), List.map_cons]

/-- The values of a key stand side by side, so they are grouped under the key again. -/
theorem grouped_spread (hkeys : (entries.map Prod.fst).Nodup)
    (hvalues : ∀ entry ∈ entries, entry.2 ≠ []) :
    grouped id (spread entries) = entries.map fun entry ↦ (entry.1, joined entry.2) := by
  rw [grouped, eraseDups_keys_spread hkeys hvalues, List.map_map]
  refine List.map_congr_left fun entry hentry ↦ ?_
  rw [Function.comp_apply, valuesOf_spread hkeys hentry]
  rfl

end Values

/-! ### The whole form -/

/-- The items under each key, each with its key. -/
def keyedItems (entries : List (String × List Scalar)) : List (String × Scalar) :=
  entries.flatMap fun entry ↦ entry.2.map (entry.1, ·)

/-- The texts of an item and its key. -/
def textPair (item : String × Scalar) : List Char × List Char :=
  (item.1.toList, itemText item.2)

/-- Plain items under distinct keys are read back from their texts. -/
theorem read_write {entries : List (String × List Scalar)} (hkeys : (entries.map Prod.fst).Nodup)
    (hitems : ∀ entry ∈ entries, entry.2 ≠ [] ∧ ∀ item ∈ entry.2, IsPlainItem item) :
    read (write ((keyedItems entries).map textPair)) =
      .ok (entries.map fun entry ↦ (entry.1, joined (entry.2.map .scalar))) := by
  have hentries : (((keyedItems entries).map textPair).map pairText).mapM entry =
      .ok ((keyedItems entries).map fun item ↦ (item.1, .scalar item.2)) := by
    rw [List.map_map, List.mapM_map]
    refine mapM_eq_ok fun item hitem ↦ ?_
    obtain ⟨keyed, hkeyed, hitem⟩ := List.mem_flatMap.1 hitem
    obtain ⟨scalar, hscalar, rfl⟩ := List.mem_map.1 hitem
    have hread := entry_pairText keyed.1.toList
      (typed_itemText ((hitems keyed hkeyed).2 scalar hscalar))
    rwa [String.ofList_toList] at hread
  have hspread : ((keyedItems entries).map fun item ↦ (item.1, Plain.scalar item.2)) =
      spread (entries.map fun entry ↦ (entry.1, entry.2.map Plain.scalar)) := by
    simp only [keyedItems, spread, List.map_flatMap, List.flatMap_map, List.map_map,
      Function.comp_def]
  rw [read_eq, parts_write, hentries, hspread]
  refine congrArg Except.ok ((grouped_spread ?_ ?_).trans List.map_map)
  · simpa [Function.comp_def] using hkeys
  · intro entry hentry
    obtain ⟨items, hmem, rfl⟩ := List.mem_map.1 hentry
    simpa using (hitems items hmem).1

end ResourceScript.Form
