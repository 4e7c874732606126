import Mathlib.Algebra.Ring.Int.Defs
import ResourceScript.Media.Read
import ResourceScript.Media.Written
import ResourceScript.Proofs.Data.Made
import ResourceScript.Proofs.Format.Form
import ResourceScript.Proofs.Format.PropertyLines
import ResourceScript.Proofs.Scope.OrderedMap
import ResourceScript.Proofs.Text.Utf8
/-!
# Data that is read back from its bytes

Data round-trips through a media type if it is written and what reads the bytes makes the same data
(`Media.RoundTrips`). The bytes are the UTF-8 form of a text, and a media type without parameters is
read as UTF-8, so only the texts matter (`Media.roundTrips_iff_of_write`).

Maps from texts to texts round-trip as property lists exactly if their texts hold no line break that
is written as it is (`Media.roundTrips_properties_iff`). Maps from texts to plain items, or to lists
of at least two of them, round-trip as forms (`Media.roundTrips_form`), but for integers that are too
long to be written.
-/

set_option autoImplicit false

namespace ResourceScript

open Text

/-! ### Maps of texts -/

/-- A map from texts to texts. -/
def Data.textMap (entries : List (String × String)) : Data :=
  .map (entries.map fun (key, value) ↦ (.text key, .text value))

theorem Data.render_text (s : String) : (Data.text s).render = .ok s.toList := by
  rw [render.eq_def]
  simp only [leafText]
  rw [written.eq_def]
  rfl

theorem Value.sameBy_text (refers : Ref → Value → Bool) (s t : String) :
    sameBy refers (.text s) (.text t) = (s == t) := by
  rw [sameBy]
  rfl

/-- A map of texts is made as the texts themselves are. -/
theorem mapOfEntries_map_text (refers : Ref → Value → Bool) (entries : List (String × String)) :
    mapOfEntries (fun a b ↦ Value.sameBy refers a b)
        (entries.map fun entry ↦ (Value.text entry.1, Value.text entry.2)) =
      (mapOfEntries (· == ·) entries).map fun entry ↦ (Value.text entry.1, Value.text entry.2) :=
  foldl_putEntry_map (f := Value.text) (g := Value.text) (Value.sameBy_text refers) entries []

theorem Data.textMap_injective {entries other : List (String × String)}
    (h : textMap entries = textMap other) : entries = other := by
  have hentry : Function.Injective fun entry : String × String ↦
      ((Data.text entry.1, Data.text entry.2) : Data × Data) := by
    rintro ⟨key, value⟩ ⟨key', value'⟩ heq
    cases heq
    rfl
  exact List.map_injective_iff.2 hentry (Data.map.inj h)

/-- Entries of texts whose keys are distinct are a map as they are. -/
theorem mapOfEntries_text {α : Type} {entries : List (String × α)} {f : String × α → Value}
    (hkeys : (entries.map Prod.fst).Nodup) (refers : Ref → Value → Bool) :
    mapOfEntries (fun a b ↦ Value.sameBy refers a b)
        (entries.map fun entry ↦ (.text entry.1, f entry)) =
      entries.map fun entry ↦ (.text entry.1, f entry) := by
  refine mapOfEntries_of_distinct (List.pairwise_map.2 ?_)
  refine (List.pairwise_map.1 hkeys).imp fun hne ↦ ?_
  rw [Value.sameBy_text]
  exact beq_false_of_ne hne

/-- A new map of texts shows the texts. -/
theorem Script.adds_newMap_text (entries : List (String × String)) (w : World) :
    Adds w (newMap (entries.map fun entry ↦ (.text entry.1, .text entry.2))) fun s value ↦
      s.Shown value (Data.textMap entries) :=
  adds_newMap (List.forall₂_map_left_iff.2 (List.forall₂_map_right_iff.2
    (List.forall₂_same.2 fun _ _ ↦ ⟨Store.shows_atom _ _ _, Store.shows_atom _ _ _⟩)))

namespace Media

/-! ### Bytes and texts -/

theorem ofContentType?_name (m : Media) : ofContentType? (some m.name) = some m := by
  cases m <;> decide

theorem charset_name (m : Media) : charset (some m.name) = .utf8 := by
  cases m <;> rfl

/-- Whether data is written as a media type, and what reads the bytes makes the same data. -/
def RoundTrips (m : Media) (data : Data) : Prop :=
  ∃ bytes, encode (some m.name) data = .ok bytes ∧
    Script.Makes (Script.decode (some m.name) (.bytes bytes)) data

/-- The text of a media type is read back from its bytes. -/
theorem decode_encode_text (m : Media) (text : List Char) :
    Script.decode (some m.name) (.bytes (Utf8.encode text)) = Script.readMedia m text := by
  rw [Script.decode, ofContentType?_name]
  show Script.readMedia m ((charset (some m.name)).decode (Utf8.encode text)) = _
  rw [charset_name, Charset.decode, Utf8.decode_encode]

/-- Data is encoded as the UTF-8 form of its text. -/
theorem encode_name (m : Media) (data : Data) :
    encode (some m.name) data = (m.write data).map Utf8.encode := by
  rw [encode, ofContentType?_name]
  dsimp only
  cases m.write data <;> rfl

/-- Data that is written as a text round-trips exactly if what reads the text makes it again. -/
theorem roundTrips_iff_of_write {m : Media} {data : Data} {text : List Char}
    (hwrite : m.write data = .ok text) :
    m.RoundTrips data ↔ Script.Makes (Script.readMedia m text) data := by
  have hencode : encode (some m.name) data = .ok (Utf8.encode text) := by
    rw [encode_name, hwrite]
    rfl
  constructor
  · rintro ⟨bytes, hbytes, hmakes⟩
    obtain rfl : Utf8.encode text = bytes := Except.ok.inj (hencode.symm.trans hbytes)
    rwa [decode_encode_text] at hmakes
  · intro hmakes
    exact ⟨Utf8.encode text, hencode, by rwa [decode_encode_text]⟩

/-! ### Property lists -/

/-- The entries of a map of texts are written as they are. -/
theorem textEntries_textMap (entries : List (String × String)) :
    Data.textEntries (Data.textMap entries).mapEntries =
      .ok (entries.map fun entry ↦ (entry.1.toList, entry.2.toList)) := by
  show (entries.map _).mapM _ = _
  rw [List.mapM_map]
  refine mapM_eq_ok fun entry _ ↦ ?_
  show (do return (← (Data.text entry.1).render, ← (Data.text entry.2).render)) = _
  rw [Data.render_text, Data.render_text]
  rfl

/-- Whether a text holds no line break that is written as it is in property lists. -/
def HasWritableBreaks (s : String) : Prop :=
  ∀ c ∈ s.toList, Properties.IsWritable c

instance (s : String) : Decidable (HasWritableBreaks s) :=
  List.decidableBAll Properties.IsWritable s.toList

/-- The text of entries as a property list. -/
def propertiesText (entries : List (String × String)) : List Char :=
  Properties.write (entries.map fun entry ↦ (entry.1.toList, entry.2.toList))

theorem write_textMap (entries : List (String × String)) :
    properties.write (Data.textMap entries) = .ok (propertiesText entries) := by
  rw [write, textEntries_textMap]
  rfl

/-- The entries that are read are added as a map. -/
theorem makes_readMedia_properties {text : List Char} {back : List (List Char × List Char)}
    (hread : Properties.read text = .ok back) :
    Script.Makes (Script.readMedia properties text) (Data.textMap (mapOfEntries (· == ·)
      (back.map fun entry ↦ (String.ofList entry.1, String.ofList entry.2)))) := by
  have hmade : Script.readMedia properties text = Script.newMap ((mapOfEntries (· == ·)
      (back.map fun entry ↦ (String.ofList entry.1, String.ofList entry.2))).map
        fun entry ↦ (.text entry.1, .text entry.2)) := by
    rw [Script.readMedia, hread, ← mapOfEntries_map_text (fun _ _ ↦ false), List.map_map]
    rfl
  rw [hmade]
  exact Script.makes_of_adds (Script.adds_newMap_text _)

/-- Maps from texts to texts round-trip as property lists, with their entries in order, exactly if
their texts hold no line break other than the line feed and the carriage return. -/
theorem roundTrips_properties_iff {entries : List (String × String)}
    (hkeys : (entries.map Prod.fst).Nodup) :
    properties.RoundTrips (Data.textMap entries) ↔
      ∀ entry ∈ entries, HasWritableBreaks entry.1 ∧ HasWritableBreaks entry.2 := by
  rw [roundTrips_iff_of_write (write_textMap entries)]
  constructor
  · intro hmakes
    cases hread : Properties.read (propertiesText entries) with
    | error cause =>
      have hfail : Script.readMedia properties (propertiesText entries) = Script.fail cause := by
        rw [Script.readMedia, hread]
        rfl
      rw [hfail] at hmakes
      exact absurd hmakes (Script.not_makes_fail cause _)
    | ok back =>
      have hsame := hmakes.unique (makes_readMedia_properties hread)
      rw [Data.textMap_injective hsame]
      refine forall_mem_mapOfEntries fun entry hentry ↦ ?_
      obtain ⟨chars, hchars, rfl⟩ := List.mem_map.1 hentry
      have hwritable := Properties.isWritableEntry_of_read_write hread chars hchars
      simpa [HasWritableBreaks, Properties.IsWritableEntry] using hwritable
  · intro hbreaks
    have hwritable : ∀ entry ∈ entries.map fun entry ↦ (entry.1.toList, entry.2.toList),
        Properties.IsWritableEntry entry := by
      intro entry hentry
      obtain ⟨texts, htexts, rfl⟩ := List.mem_map.1 hentry
      exact hbreaks texts htexts
    have hmade := makes_readMedia_properties (Properties.read_write hwritable)
    simp only [List.map_map, Function.comp_def, String.ofList_toList, List.map_id'] at hmade
    have hdistinct : entries.Pairwise fun a b ↦ (a.1 == b.1) = false :=
      (List.pairwise_map.1 hkeys).imp beq_false_of_ne
    rwa [mapOfEntries_of_distinct hdistinct] at hmade

/-- An empty key and value, separators, marks of comments and the two breaks that are escaped come
back, a form feed does not. -/
theorem roundTrips_properties_separators :
    let entries : List (String × String) := [("", ""), ("# a = b", " \\:\n\r\\"), ("!", "u0041")]
    let feed : List (String × String) := [("a", "x\x0cy")]
    (entries.map Prod.fst).Nodup ∧ properties.RoundTrips (Data.textMap entries) ∧
      (feed.map Prod.fst).Nodup ∧ ¬ properties.RoundTrips (Data.textMap feed) := by
  intro entries feed
  have hkeys : (entries.map Prod.fst).Nodup := by decide
  have hbreaks : ∀ entry ∈ entries, HasWritableBreaks entry.1 ∧ HasWritableBreaks entry.2 := by
    decide
  have hfeed : (feed.map Prod.fst).Nodup := by decide
  have hbreak : ¬ ∀ entry ∈ feed, HasWritableBreaks entry.1 ∧ HasWritableBreaks entry.2 := by
    decide
  exact ⟨hkeys, (roundTrips_properties_iff hkeys).2 hbreaks, hfeed,
    fun htrips ↦ hbreak ((roundTrips_properties_iff hfeed).1 htrips)⟩

/-! ### Forms -/

theorem toText_text (s : String) : (Data.text s).toText = .ok s := by
  show (Data.text s).render.map String.ofList = _
  rw [Data.render_text]
  exact congrArg Except.ok String.ofList_toList

theorem toText_int (n : Int) : (Data.int n).toText = (Numeral.intText n).map String.ofList := by
  show (Data.int n).render.map String.ofList = _
  rw [Data.render.eq_def]
  simp only [Data.leafText]
  rw [Data.written.eq_def]
  rfl

/-- The text of a plain item is written in a form. -/
theorem toText_itemText {item : Scalar} (hitem : Form.IsPlainItem item) :
    (Xml.shown (.scalar item)).toText = .ok (String.ofList (Form.itemText item)) := by
  cases hitem with
  | null => rw [Xml.shown]; rfl
  | bool b =>
    rw [Xml.shown]
    show (Data.bool b).render.map String.ofList = _
    rw [Data.render.eq_def]
    rfl
  | @int n hdigits =>
    rw [Xml.shown, toText_int, Form.intText_eq_itemText hdigits]
    rfl
  | @text s hplain =>
    rw [Xml.shown, toText_text]
    show _ = Except.ok (String.ofList s.toList)
    rw [String.ofList_toList]

theorem shownItems_eq_map (items : List Plain) : Xml.shownItems items = items.map Xml.shown := by
  induction items with
  | nil => rw [Xml.shownItems]; rfl
  | cons item rest ih => rw [Xml.shownItems, ih]; rfl

theorem shownEntries_eq_map (entries : List (Scalar × Plain)) :
    Xml.shownEntries entries =
      entries.map fun entry ↦ (Xml.shown (.scalar entry.1), Xml.shown entry.2) := by
  induction entries with
  | nil => rw [Xml.shownEntries]; rfl
  | cons entry rest ih => rw [Xml.shownEntries, ih]; rfl

/-- A form holds the items of a value, a single item for itself. -/
theorem formValues_joined {items : List Scalar} (hitems : items ≠ []) :
    (Xml.shown (joined (items.map .scalar))).formValues =
      items.map fun item ↦ Xml.shown (.scalar item) := by
  match items with
  | [item] =>
    show (Xml.shown (.scalar item)).formValues = [Xml.shown (.scalar item)]
    cases item <;> rw [Xml.shown] <;> rfl
  | first :: second :: rest =>
    show (Xml.shown (.list ((first :: second :: rest).map .scalar))).formValues = _
    rw [Xml.shown, shownItems_eq_map, List.map_map]
    rfl

/-- A plain value is what the items under a key are together. -/
theorem exists_items {value : Plain} (hvalue : Form.IsPlainValue value) :
    ∃ items : List Scalar, items ≠ [] ∧ (∀ item ∈ items, Form.IsPlainItem item) ∧
      value = joined (items.map .scalar) := by
  cases hvalue with
  | @item item hitem =>
    exact ⟨[item], List.cons_ne_nil _ _, List.forall_mem_singleton.2 hitem, rfl⟩
  | @list items hlength hitems =>
    match items with
    | first :: second :: rest => exact ⟨_, List.cons_ne_nil _ _, hitems, rfl⟩

/-- The data of entries with texts for keys. -/
def formData (entries : List (String × Plain)) : Data :=
  Xml.shown (.map (entries.map fun entry ↦ (.text entry.1, entry.2)))

/-- The pairs that a form holds for an entry of data. -/
def formPairs (entry : Data × Data) : Except Fault (List (List Char × List Char)) :=
  entry.2.formValues.mapM fun item ↦ do
    return ((← entry.1.toText).toList, (← item.toText).toList)

/-- The items under a key are written one by one, each with the key. -/
theorem formPairs_joined {key : String} {items : List Scalar} (hitems : items ≠ [])
    (hplain : ∀ item ∈ items, Form.IsPlainItem item) :
    formPairs (.text key, Xml.shown (joined (items.map .scalar))) =
      .ok (items.map fun item ↦ Form.textPair (key, item)) := by
  rw [formPairs, formValues_joined hitems, List.mapM_map]
  refine mapM_eq_ok fun item hitem ↦ ?_
  show (do return ((← (Data.text key).toText).toList, (← (Xml.shown _).toText).toList)) = _
  rw [toText_text, toText_itemText (hplain item hitem)]
  show Except.ok (key.toList, (String.ofList (Form.itemText item)).toList) = _
  rw [String.toList_ofList]
  rfl

/-- The items under each key are written in order. -/
theorem toForm_formData {entries : List (String × List Scalar)}
    (hitems : ∀ entry ∈ entries, entry.2 ≠ [] ∧ ∀ item ∈ entry.2, Form.IsPlainItem item) :
    (formData (entries.map fun entry ↦ (entry.1, joined (entry.2.map .scalar)))).toForm =
      .ok (Form.write ((Form.keyedItems entries).map Form.textPair)) := by
  have hpairs : (Xml.shownEntries (entries.map fun entry ↦
      (.text entry.1, joined (entry.2.map .scalar)))).mapM formPairs =
        .ok (entries.map fun entry ↦ entry.2.map fun item ↦ Form.textPair (entry.1, item)) := by
    rw [shownEntries_eq_map, List.map_map, List.mapM_map]
    refine mapM_eq_ok fun entry hentry ↦ ?_
    show formPairs (Xml.shown (.text entry.1), Xml.shown _) = _
    rw [Xml.shown]
    exact formPairs_joined (hitems entry hentry).1 (hitems entry hentry).2
  rw [formData, Xml.shown, Data.toForm, List.map_map]
  show (do
    let pairs ← (Xml.shownEntries _).mapM formPairs
    return Form.write pairs.flatten) = _
  rw [Function.comp_def, hpairs]
  show Except.ok (Form.write _) = _
  rw [Form.keyedItems, ← List.flatMap_def, List.map_flatMap]
  simp only [List.map_map, Function.comp_def]

/-- Maps from texts to plain values round-trip as forms, with their entries in order. -/
theorem roundTrips_form {entries : List (String × Plain)} (hkeys : (entries.map Prod.fst).Nodup)
    (hvalues : ∀ entry ∈ entries, Form.IsPlainValue entry.2) :
    form.RoundTrips (formData entries) := by
  have hkeyed : ∃ keyed : List (String × List Scalar),
      (∀ entry ∈ keyed, entry.2 ≠ [] ∧ ∀ item ∈ entry.2, Form.IsPlainItem item) ∧
        entries = keyed.map fun entry ↦ (entry.1, joined (entry.2.map .scalar)) := by
    clear hkeys
    induction entries with
    | nil => exact ⟨[], nofun, rfl⟩
    | cons entry rest ih =>
      obtain ⟨key, value⟩ := entry
      obtain ⟨items, hne, hplain, rfl⟩ := exists_items (hvalues (key, value) List.mem_cons_self)
      obtain ⟨keyed, hkeyed, rfl⟩ := ih fun other hother ↦
        hvalues other (List.mem_cons_of_mem _ hother)
      exact ⟨(key, items) :: keyed, List.forall_mem_cons.2 ⟨⟨hne, hplain⟩, hkeyed⟩, rfl⟩
  obtain ⟨keyed, hkeyed, rfl⟩ := hkeyed
  have hdistinct : (keyed.map Prod.fst).Nodup := by simpa [Function.comp_def] using hkeys
  have hwrite : form.write _ = .ok _ := toForm_formData hkeyed
  rw [roundTrips_iff_of_write hwrite]
  have hread : Script.readMedia form (Form.write ((Form.keyedItems keyed).map Form.textPair)) =
      Script.ofPlain (.map ((keyed.map fun entry ↦
        (entry.1, joined (entry.2.map .scalar))).map fun entry ↦
          (.text entry.1, entry.2))) := by
    rw [Script.readMedia, Form.read_write hdistinct hkeyed, Script.ofPlain]
    rfl
  rw [hread]
  exact Script.makes_ofPlain _

/-- An empty key with an empty text, a key and a text of separators, and a list of several kinds. -/
theorem roundTrips_form_separators :
    let entries : List (String × Plain) := [("", .text ""), ("a=b&", .text "&+ %3D="),
      ("b", .list ([.null, .bool true, .int (-12), .text " 1 2"].map .scalar))]
    (entries.map Prod.fst).Nodup ∧ (∀ entry ∈ entries, Form.IsPlainValue entry.2) ∧
      form.RoundTrips (formData entries) := by
  intro entries
  have hkeys : (entries.map Prod.fst).Nodup := by decide
  have hdigits : (-12 : Int).natAbs < 10 ^ Numeral.maxDigits :=
    calc (-12 : Int).natAbs
      _ < 10 ^ 2 := by decide
      _ ≤ 10 ^ Numeral.maxDigits := Nat.pow_le_pow_right (by decide) (by decide)
  have hvalues : ∀ entry ∈ entries, Form.IsPlainValue entry.2 := by
    simp only [entries, List.forall_mem_cons]
    refine ⟨.item (.text ⟨by decide, rfl, by decide, by simp⟩),
      .item (.text ⟨by decide, rfl, by decide, by simp⟩), .list (by decide) ?_, nofun⟩
    simp only [List.forall_mem_cons]
    exact ⟨.null, .bool true, .int hdigits, .text ⟨by decide, rfl, by decide, by simp⟩, nofun⟩
  exact ⟨hkeys, hvalues, roundTrips_form hkeys hvalues⟩

/-- The least integer with too many digits is not written. -/
theorem not_roundTrips_form_tooManyDigits :
    ¬ form.RoundTrips (formData [("a", .int (10 ^ Numeral.maxDigits))]) := by
  rintro ⟨bytes, hencode, -⟩
  have hdigits : 10 ^ Numeral.maxDigits ≤ ((10 : Int) ^ Numeral.maxDigits).natAbs := by
    rw [Int.natAbs_pow]
    exact Nat.pow_le_pow_left (by decide) _
  rcases htext : Numeral.intText (10 ^ Numeral.maxDigits) with cause | text
  · have hpairs : formPairs (.text "a", .int (10 ^ Numeral.maxDigits)) = .error cause := by
      show (do
        let pair ← (do return ((← (Data.text "a").toText).toList,
          (← (Data.int (10 ^ Numeral.maxDigits)).toText).toList))
        return [pair]) = _
      rw [toText_text, toText_int, htext]
      rfl
    have hform : (formData [("a", .int (10 ^ Numeral.maxDigits))]).toForm = .error cause := by
      rw [formData, Xml.shown, shownEntries_eq_map]
      show (do
        let pairs ← [(Xml.shown (.text "a"), Xml.shown (.int _))].mapM formPairs
        return Form.write pairs.flatten) = _
      rw [Xml.shown, Xml.shown, List.mapM_cons, hpairs]
      rfl
    rw [encode, ofContentType?_name] at hencode
    simp only [write, hform] at hencode
    cases hencode
  · exact Nat.not_le.2 (Numeral.intText_eq_ok_iff.1 htext).1 hdigits

end Media

end ResourceScript
