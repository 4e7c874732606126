import ResourceScript.Proofs.Format.Json
import ResourceScript.Proofs.Media.RoundTrip
/-!
# Data that is read back from JSON

Data built from null, truth values, integers, texts, lists, tuples and maps with distinct texts for
keys is written as a JSON document, and the document is read as the same data with lists in the
place of tuples (`Media.decode_encode_json`), but for integers that are too long to be written.
-/

set_option autoImplicit false

namespace ResourceScript

namespace Data

/-- The entries of a map with texts for keys. -/
def textKeyed (entries : List (String × Data)) : List (Data × Data) :=
  entries.map fun entry ↦ (.text entry.1, entry.2)

/-- Data that JSON carries, with tuples: integers have a text, and the keys of maps are distinct
texts. -/
inductive IsJson : Data → Prop
  /-- Null. -/
  | null : IsJson .null
  /-- A truth value. -/
  | bool (b : Bool) : IsJson (.bool b)
  /-- An integer with at most the greatest number of digits. -/
  | int {n : Int} (hdigits : n.natAbs < 10 ^ Numeral.maxDigits) : IsJson (.int n)
  /-- A text. -/
  | text (s : String) : IsJson (.text s)
  /-- A list. -/
  | list {items : List Data} (hitems : ∀ item ∈ items, IsJson item) : IsJson (.list items)
  /-- A tuple. -/
  | tuple {items : List Data} (hitems : ∀ item ∈ items, IsJson item) : IsJson (.tuple items)
  /-- A map from distinct texts. -/
  | map {entries : List (String × Data)} (hkeys : (entries.map Prod.fst).Nodup)
    (hvalues : ∀ entry ∈ entries, IsJson entry.2) : IsJson (.map (textKeyed entries))

mutual

/-- Data with lists in the place of tuples. -/
def untupled : Data → Data
  | list items => list (untupledItems items)
  | tuple items => list (untupledItems items)
  | map entries => map (untupledEntries entries)
  | other => other

/-- Items with lists in the place of tuples. -/
def untupledItems : List Data → List Data
  | [] => []
  | item :: rest => untupled item :: untupledItems rest

/-- Entries with lists in the place of tuples. -/
def untupledEntries : List (Data × Data) → List (Data × Data)
  | [] => []
  | (key, value) :: rest => (untupled key, untupled value) :: untupledEntries rest

end

theorem untupled_atom (a : Atom) : (Data.atom a).untupled = .atom a := by
  rw [untupled.eq_def]

/-- Whether data is plain data that has a document, but for its tuples. -/
def IsDocument (data : Data) (p : Plain) : Prop :=
  data.toPlain = .ok p ∧ Xml.shown p = data.untupled ∧ Json.IsDocument p

theorem exists_isDocument_items {items : List Data}
    (hitems : ∀ item ∈ items, ∃ p, item.IsDocument p) :
    ∃ ps, plainItems items = .ok ps ∧ Xml.shownItems ps = untupledItems items ∧
      ∀ p ∈ ps, Json.IsDocument p := by
  induction items with
  | nil => exact ⟨[], by rw [plainItems], by rw [Xml.shownItems, untupledItems], nofun⟩
  | cons item rest ih =>
    obtain ⟨p, hplain, hshown, hp⟩ := hitems item List.mem_cons_self
    obtain ⟨ps, hplains, hshowns, hps⟩ := ih fun other hother ↦
      hitems other (List.mem_cons_of_mem _ hother)
    refine ⟨p :: ps, ?_, ?_, List.forall_mem_cons.2 ⟨hp, hps⟩⟩
    · rw [plainItems, hplain, hplains]
      rfl
    · rw [Xml.shownItems, untupledItems, hshown, hshowns]

theorem exists_isDocument_entries {entries : List (String × Data)}
    (hvalues : ∀ entry ∈ entries, ∃ p, entry.2.IsDocument p) :
    ∃ ps : List (String × Plain), plainEntries (textKeyed entries) = .ok (Json.textKeyed ps) ∧
      Xml.shownEntries (Json.textKeyed ps) = untupledEntries (textKeyed entries) ∧
      ps.map Prod.fst = entries.map Prod.fst ∧ ∀ entry ∈ ps, Json.IsDocument entry.2 := by
  induction entries with
  | nil => exact ⟨[], by rw [textKeyed, List.map_nil, plainEntries]; rfl,
      by rw [textKeyed, List.map_nil, untupledEntries, Json.textKeyed, List.map_nil,
        Xml.shownEntries], rfl, nofun⟩
  | cons entry rest ih =>
    obtain ⟨key, value⟩ := entry
    obtain ⟨p, hplain, hshown, hp⟩ := hvalues (key, value) List.mem_cons_self
    obtain ⟨ps, hplains, hshowns, hkeys, hps⟩ := ih fun other hother ↦
      hvalues other (List.mem_cons_of_mem _ hother)
    refine ⟨(key, p) :: ps, ?_, ?_, ?_, List.forall_mem_cons.2 ⟨hp, hps⟩⟩
    · show plainEntries ((.text key, value) :: textKeyed rest) = _
      rw [plainEntries, hplains]
      simp only [scalarKey?, hplain]
      rfl
    · show Xml.shownEntries ((.text key, p) :: Json.textKeyed ps) =
        untupledEntries ((.text key, value) :: textKeyed rest)
      rw [Xml.shownEntries, untupledEntries, hshown, hshowns, Xml.shown, untupled_atom]
    · rw [List.map_cons, List.map_cons, hkeys]

/-- Entries under distinct texts are a map as they are. -/
theorem mapOfEntries_textKeyed {entries : List (String × Plain)}
    (hkeys : (entries.map Prod.fst).Nodup) :
    mapOfEntries Scalar.sameKey (Json.textKeyed entries) = Json.textKeyed entries := by
  refine mapOfEntries_of_distinct (List.pairwise_map.2 ?_)
  refine (List.pairwise_map.1 hkeys).imp fun hne ↦ ?_
  rw [Json.sameKey_text]
  exact decide_eq_false hne

/-- Data that JSON carries has a document. -/
theorem IsJson.exists_isDocument {data : Data} (hdata : data.IsJson) :
    ∃ p, data.IsDocument p := by
  induction hdata with
  | null => exact ⟨.null, by rw [toPlain], by rw [Xml.shown, untupled_atom], .null⟩
  | bool b => exact ⟨.bool b, by rw [toPlain], by rw [Xml.shown, untupled_atom], .bool b⟩
  | @int n hdigits => exact ⟨.int n, by rw [toPlain], by rw [Xml.shown, untupled_atom], .int hdigits⟩
  | text s => exact ⟨.text s, by rw [toPlain], by rw [Xml.shown, untupled_atom], .text s⟩
  | list _ ih =>
    obtain ⟨ps, hplain, hshown, hps⟩ := exists_isDocument_items ih
    exact ⟨.list ps, by rw [toPlain, hplain]; rfl, by rw [Xml.shown, untupled, hshown], .list hps⟩
  | tuple _ ih =>
    obtain ⟨ps, hplain, hshown, hps⟩ := exists_isDocument_items ih
    exact ⟨.list ps, by rw [toPlain, hplain]; rfl, by rw [Xml.shown, untupled, hshown], .list hps⟩
  | map hkeys _ ih =>
    obtain ⟨ps, hplain, hshown, hsame, hps⟩ := exists_isDocument_entries ih
    rw [← hsame] at hkeys
    refine ⟨.map (Json.textKeyed ps), ?_, by rw [Xml.shown, untupled, hshown], .map hkeys hps⟩
    rw [toPlain, hplain]
    show Except.ok (Plain.map (mapOfEntries Scalar.sameKey (Json.textKeyed ps))) = _
    rw [mapOfEntries_textKeyed hkeys]

/-! ### What JSON carries refers to nothing -/

theorem IsJson.of_mem_map {entries : List (Data × Data)} (h : (Data.map entries).IsJson)
    {entry : Data × Data} (hentry : entry ∈ entries) : entry.1.IsJson ∧ entry.2.IsJson := by
  generalize hmap : Data.map entries = data at h
  cases h <;> cases hmap
  rename_i named _ hvalues
  obtain ⟨pair, hpair, rfl⟩ := List.mem_map.1 hentry
  exact ⟨.text pair.1, hvalues pair hpair⟩

section

variable {refer refer' : Ref → Data} {see see' : Value → Data}

mutual

/-- A value that shows data which JSON carries shows the same wherever its references do. -/
theorem shows_of_isJson (hrefer : ∀ ref, (refer ref).IsJson → refer' ref = refer ref)
    (value : Value) (h : (value.shows refer).IsJson) : value.shows refer' = value.shows refer := by
  match value with
  | .atom a => rw [Value.shows, Value.shows]
  | .tuple items =>
    rw [Value.shows] at h ⊢
    rw [Value.shows]
    cases h with
    | tuple hitems => rw [showsAll_of_isJson hrefer items hitems]
  | .frozen items =>
    rw [Value.shows] at h
    cases h
  | .call f params =>
    rw [Value.shows] at h
    cases h
  | .cell n =>
    rw [Value.shows] at h ⊢
    rw [Value.shows]
    exact hrefer _ h
  | .resource r =>
    rw [Value.shows] at h ⊢
    rw [Value.shows]
    exact hrefer _ h
  | .scope n =>
    rw [Value.shows] at h ⊢
    rw [Value.shows]
    exact hrefer _ h

theorem showsAll_of_isJson (hrefer : ∀ ref, (refer ref).IsJson → refer' ref = refer ref)
    (values : List Value) (h : ∀ data ∈ Value.showsAll refer values, data.IsJson) :
    Value.showsAll refer' values = Value.showsAll refer values := by
  match values with
  | [] => rw [Value.showsAll, Value.showsAll]
  | value :: rest =>
    rw [Value.showsAll] at h ⊢
    rw [Value.showsAll, shows_of_isJson hrefer value (h _ List.mem_cons_self),
      showsAll_of_isJson hrefer rest fun data hdata ↦ h data (List.mem_cons_of_mem _ hdata)]

end

/-- A container that shows data which JSON carries shows the same wherever its values do. -/
theorem cellShows_of_isJson (hsee : ∀ value, (see value).IsJson → see' value = see value)
    {sideOf sideOf' : MapSide → Nat → List Value} {content : Cell}
    (h : (content.shows see sideOf).IsJson) :
    content.shows see' sideOf' = content.shows see sideOf := by
  cases content with
  | list items =>
    have hitems : ∀ value ∈ items, see' value = see value := by
      intro value hvalue
      cases h with
      | list hitems => exact hsee value (hitems _ (List.mem_map_of_mem hvalue))
    exact congrArg Data.list (List.map_congr_left hitems)
  | map entries =>
    refine congrArg Data.map (List.map_congr_left fun entry hentry ↦ ?_)
    obtain ⟨hkey, hvalue⟩ := h.of_mem_map (List.mem_map_of_mem hentry)
    exact Prod.ext (hsee _ hkey) (hsee _ hvalue)
  | _ => cases h

end

end Data

namespace Store

variable {s t : Store}

theorem viewWithin_of_isJson (hcells : t.cells = s.cells) (extra depth : Nat) (path : List Ref)
    (value : Value) (h : (s.viewWithin depth path value).IsJson) :
    t.viewWithin (depth + extra) path value = s.viewWithin depth path value := by
  induction depth generalizing path value with
  | zero =>
    cases hextra : 0 + extra <;> refine Data.shows_of_isJson (fun ref href ↦ ?_) value h <;> cases href
  | succ depth ih =>
    rw [Nat.succ_add]
    refine Data.shows_of_isJson (fun ref href ↦ ?_) value h
    by_cases hpath : path.contains ref = true
    · rw [if_pos hpath] at href
      cases href
    · rw [if_neg hpath] at href ⊢
      rw [if_neg hpath]
      cases ref with
      | resource r => cases href
      | scope n => cases href
      | cell n =>
        have hcell : t.cell n = s.cell n := by
          rw [Store.cell, Store.cell, hcells]
        show (t.cell n).shows _ _ = _
        rw [hcell]
        exact Data.cellShows_of_isJson (ih _) href

/-- Data that JSON carries shows the same in a store with more resources. -/
theorem view_addResource_of_isJson {record : ResourceRecord} {value : Value}
    (h : (s.view value).IsJson) : (s.addResource record).1.view value = s.view value := by
  have hdepth : (s.addResource record).1.view value = (s.addResource record).1.viewWithin
      (s.cells.size + s.resources.size + s.scopes.size + 1 + 1) [] value := by
    rw [view]
    congr 1
    simp only [addResource, Array.size_push]
    omega
  have hcells : (s.addResource record).1.cells = s.cells := rfl
  rw [hdepth]
  exact viewWithin_of_isJson hcells 1 _ _ _ h

end Store

namespace Media

/-- Data that JSON carries is written as the UTF-8 form of a text, which is read as plain data that
shows it with lists in the place of tuples. -/
theorem exists_encode_json {data : Data} (hdata : data.IsJson) :
    ∃ text p, encode (some json.name) data = .ok (Text.Utf8.encode text) ∧
      Json.readOrNull text = .ok p ∧ Xml.shown p = data.untupled := by
  obtain ⟨p, hplain, hshown, hp⟩ := hdata.exists_isDocument
  obtain ⟨text, hwrite, hread⟩ := Json.exists_write_readOrNull hp
  have htext : json.write data = .ok text := by
    rw [write, hplain]
    exact hwrite
  refine ⟨text, p, ?_, hread, hshown⟩
  rw [encode_name, htext]
  rfl

/-- Data that JSON carries is written, and its document is read as the same data with lists in the
place of tuples: every part keeps its kind, and maps keep the order of their entries. -/
theorem decode_encode_json {data : Data} (hdata : data.IsJson) :
    ∃ bytes, encode (some json.name) data = .ok bytes ∧
      Script.Makes (Script.decode (some json.name) (.bytes bytes)) data.untupled := by
  obtain ⟨text, p, hencode, hread, hshown⟩ := exists_encode_json hdata
  refine ⟨Text.Utf8.encode text, hencode, ?_⟩
  rw [decode_encode_text, Script.readMedia, hread, ← hshown]
  exact Script.makes_ofPlain p

/-- A map of maps with quotes, a line feed and an empty text in its keys, and a tuple in a list. -/
theorem decode_encode_json_nested :
    let data : Data := .map (Data.textKeyed [("a \"b\"\n", .list [.tuple [.null, .bool true,
      .int (-12)], .int 1]), ("", .map (Data.textKeyed [("é", .text "\\u00e9\x01")]))])
    data.IsJson ∧ ∃ bytes, encode (some json.name) data = .ok bytes ∧
      Script.Makes (Script.decode (some json.name) (.bytes bytes)) data.untupled := by
  intro data
  have hdigits : ∀ n : Int, n.natAbs < 10 ^ 2 → n.natAbs < 10 ^ Numeral.maxDigits := fun n hn ↦
    hn.trans_le (Nat.pow_le_pow_right (by decide) (by decide))
  have hdata : data.IsJson := by
    refine .map (by decide) ?_
    simp only [List.forall_mem_cons]
    refine ⟨.list ?_, .map (by decide) ?_, nofun⟩
    · simp only [List.forall_mem_cons]
      refine ⟨.tuple ?_, .int (hdigits 1 (by decide)), nofun⟩
      simp only [List.forall_mem_cons]
      exact ⟨.null, .bool true, .int (hdigits (-12) (by decide)), nofun⟩
    · simp only [List.forall_mem_cons]
      exact ⟨.text _, nofun⟩
  exact ⟨hdata, decode_encode_json hdata⟩

/-- An integer with too many digits is not written. -/
theorem encode_json_int {n : Int} (hdigits : 10 ^ Numeral.maxDigits ≤ n.natAbs) :
    encode (some json.name) (.int n) = .error .value := by
  have hwrite : json.write (.int n) = .error .value := by
    rw [write, Data.toPlain]
    exact Numeral.intText_of_le hdigits
  rw [encode_name, hwrite]
  rfl

/-- The least integer with too many digits is not written, and what is written for a map with half a
surrogate pair in a text has no bytes. -/
theorem not_roundTrips_json :
    ¬ json.RoundTrips (.int (10 ^ Numeral.maxDigits)) ∧
      Text.Utf8.encodePoints? ("\x7b\"a\": \"".toList.map Char.toNat ++
        0xd800 :: "\"\x7d".toList.map Char.toNat) = none := by
  refine ⟨?_, Text.Utf8.encodePoints?_of_surrogate (n := 0xd800) (by simp) (by decide) (by decide)⟩
  rintro ⟨bytes, hencode, -⟩
  have hdigits : 10 ^ Numeral.maxDigits ≤ ((10 : Int) ^ Numeral.maxDigits).natAbs := by
    rw [Int.natAbs_pow]
    exact Nat.pow_le_pow_left (by decide) _
  rw [encode_json_int hdigits] at hencode
  cases hencode

end Media

end ResourceScript
