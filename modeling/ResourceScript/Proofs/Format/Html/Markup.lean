import ResourceScript.Format.Html.Written
import ResourceScript.Proofs.Data.Built
/-!
# Data cannot break out of its markup

Data as HTML is balanced markup of tables and line breaks (`Markup`), whose tags and attributes are
those of the tables alone. All other text in it is a line feed, or a key or a leaf of the data in
escaped form, in which no bracket of a tag is left (`Html.write_isMarkup`).

Rendered text goes into cells and lines as it is. So the proof is an induction on the data that shows
for each form that what is put together are keys, leaves, and parts that are markup already.
-/

set_option autoImplicit false

namespace ResourceScript

open Text

namespace Html

/-! ### Markup -/

/-- The tags that stand around content. -/
inductive Tag where
  /-- A table. -/
  | table
  /-- A row of a table. -/
  | row
  /-- A header of a table. -/
  | header
  /-- A cell of a table. -/
  | cell
  deriving Repr, DecidableEq

namespace Tag

/-- The name of a tag. -/
def name : Tag → List Char
  | table => "table".toList
  | row => "tr".toList
  | header => "th".toList
  | cell => "td".toList

/-- The attributes of a tag: only tables have some. -/
def attributes : Tag → List Char
  | table => " border=1 cellspacing=2 cellpadding=2".toList
  | _ => []

end Tag

/-- Balanced markup. -/
inductive Markup where
  /-- Text. -/
  | text (content : List Char)
  /-- A line break. -/
  | lineBreak
  /-- Content between the tags of an element. -/
  | element (tag : Tag) (content : List Markup)

mutual

/-- Markup as text. -/
def Markup.chars : Markup → List Char
  | .text content => content
  | .lineBreak => "<br>".toList
  | .element tag content =>
    '<' :: tag.name ++ tag.attributes ++ '>' :: charsAll content ++ '<' :: '/' :: tag.name ++ ['>']

/-- Pieces of markup as text. -/
def charsAll : List Markup → List Char
  | [] => []
  | piece :: rest => piece.chars ++ charsAll rest

end

mutual

/-- The texts between the tags of markup. -/
def Markup.texts : Markup → List (List Char)
  | .text content => [content]
  | .lineBreak => []
  | .element _ content => textsAll content

/-- The texts between the tags of pieces of markup. -/
def textsAll : List Markup → List (List Char)
  | [] => []
  | piece :: rest => piece.texts ++ textsAll rest

end

/-- Whether a text is balanced markup around line feeds and texts of a sort, with no bracket of a tag
in them. -/
def IsMarkup (P : List Char → Prop) (out : List Char) : Prop :=
  ∃ content : List Markup, charsAll content = out ∧
    ∀ text ∈ textsAll content, '<' ∉ text ∧ '>' ∉ text ∧ (text = ['\n'] ∨ P text)

theorem charsAll_append (first second : List Markup) :
    charsAll (first ++ second) = charsAll first ++ charsAll second := by
  induction first with
  | nil => rw [charsAll]; rfl
  | cons piece rest ih => rw [List.cons_append, charsAll, charsAll, ih, List.append_assoc]

theorem textsAll_append (first second : List Markup) :
    textsAll (first ++ second) = textsAll first ++ textsAll second := by
  induction first with
  | nil => rw [textsAll]; rfl
  | cons piece rest ih => rw [List.cons_append, textsAll, textsAll, ih, List.append_assoc]

theorem charsAll_singleton (piece : Markup) : charsAll [piece] = piece.chars := by
  rw [charsAll, charsAll, List.append_nil]

theorem textsAll_singleton (piece : Markup) : textsAll [piece] = piece.texts := by
  rw [textsAll, textsAll, List.append_nil]

namespace IsMarkup

variable {P Q : List Char → Prop} {first second out : List Char}

theorem nil : IsMarkup P [] :=
  ⟨[], by rw [charsAll], by rw [textsAll]; nofun⟩

theorem mono (h : IsMarkup P out) (hPQ : ∀ text, P text → Q text) : IsMarkup Q out := by
  obtain ⟨content, hchars, htexts⟩ := h
  refine ⟨content, hchars, fun text htext ↦ ?_⟩
  obtain ⟨hopen, hclose, hshown⟩ := htexts text htext
  exact ⟨hopen, hclose, hshown.imp_right (hPQ text)⟩

theorem append (hfirst : IsMarkup P first) (hsecond : IsMarkup P second) :
    IsMarkup P (first ++ second) := by
  obtain ⟨content, rfl, htexts⟩ := hfirst
  obtain ⟨more, rfl, hmore⟩ := hsecond
  refine ⟨content ++ more, charsAll_append content more, ?_⟩
  rw [textsAll_append]
  exact List.forall_mem_append.2 ⟨htexts, hmore⟩

theorem flatMap {α : Type} {items : List α} {f : α → List Char}
    (h : ∀ item ∈ items, IsMarkup P (f item)) : IsMarkup P (items.flatMap f) := by
  induction items with
  | nil => exact nil
  | cons item rest ih =>
    obtain ⟨hitem, hrest⟩ := List.forall_mem_cons.1 h
    exact hitem.append (ih hrest)

theorem piece (h : ∀ text ∈ Markup.texts (.text out), '<' ∉ text ∧ '>' ∉ text ∧
    (text = ['\n'] ∨ P text)) : IsMarkup P out := by
  refine ⟨[.text out], ?_, ?_⟩
  · rw [charsAll_singleton, Markup.chars]
  · rwa [textsAll_singleton]

/-- A text of the sort without brackets. -/
theorem shown (hopen : '<' ∉ out) (hclose : '>' ∉ out) (h : P out) : IsMarkup P out := by
  refine piece fun text htext ↦ ?_
  rw [Markup.texts, List.mem_singleton] at htext
  rw [htext]
  exact ⟨hopen, hclose, .inr h⟩

theorem lineFeed : IsMarkup P ['\n'] := by
  refine piece fun text htext ↦ ?_
  rw [Markup.texts, List.mem_singleton] at htext
  rw [htext]
  exact ⟨by decide, by decide, .inl rfl⟩

theorem lineBreak : IsMarkup P "<br>".toList := by
  refine ⟨[.lineBreak], ?_, ?_⟩
  · rw [charsAll_singleton, Markup.chars]
  · rw [textsAll_singleton, Markup.texts]
    nofun

/-- Markup between the tags of an element. -/
theorem element (tag : Tag) (h : IsMarkup P out) :
    IsMarkup P ('<' :: tag.name ++ tag.attributes ++ '>' :: out ++ '<' :: '/' :: tag.name ++ ['>']) := by
  obtain ⟨content, rfl, htexts⟩ := h
  refine ⟨[.element tag content], ?_, ?_⟩
  · rw [charsAll_singleton, Markup.chars]
  · rwa [textsAll_singleton, Markup.texts]

/-- Lines of markup with breaks between them. -/
theorem joinBreaks {lines : List (List Char)} (h : ∀ line ∈ lines, IsMarkup P line) :
    IsMarkup P (joinWith "<br>\n".toList lines) := by
  induction lines with
  | nil => exact nil
  | cons line rest ih =>
    obtain ⟨hline, hrest⟩ := List.forall_mem_cons.1 h
    cases rest with
    | nil => exact hline
    | cons next rest => exact (hline.append (lineBreak.append lineFeed)).append (ih hrest)

/-! ### Tables -/

theorem row {cells : List Char} (h : IsMarkup P cells) : IsMarkup P (Html.row cells) := by
  have hstart : "<tr>".toList = '<' :: Tag.row.name ++ ['>'] := rfl
  have hend : "</tr>\n".toList = '<' :: '/' :: Tag.row.name ++ ['>', '\n'] := rfl
  have hnone : Tag.row.attributes = [] := rfl
  have hrow := (h.element .row).append lineFeed
  rw [hnone] at hrow
  rw [Html.row, hstart, hend]
  simpa only [List.append_assoc, List.cons_append, List.nil_append] using hrow

theorem table {rows : List Char} (h : IsMarkup P rows) :
    IsMarkup P (tableStart ++ rows ++ tableEnd) := by
  have hstart : tableStart = '<' :: Tag.table.name ++ Tag.table.attributes ++ ['>', '\n'] := rfl
  have hend : tableEnd = '<' :: '/' :: Tag.table.name ++ ['>'] := rfl
  have htable := (lineFeed.append h).element .table
  rw [hstart, hend]
  simpa only [List.append_assoc, List.cons_append, List.nil_append] using htable

/-- A table of markup of keys and values. -/
theorem mapTable {entries : List (List Char × List Char)}
    (h : ∀ entry ∈ entries, IsMarkup P entry.1 ∧ IsMarkup P entry.2) :
    IsMarkup P (Html.mapTable entries) := by
  refine table (flatMap fun entry hentry ↦ ?_)
  obtain ⟨hkey, hvalue⟩ := h entry hentry
  exact row ((hkey.element .cell).append (hvalue.element .cell))

/-- A table of markup of headers and cells. -/
theorem listTable {headers : List (List Char)} {rows : List (List (List Char))}
    (hheaders : ∀ header ∈ headers, IsMarkup P header)
    (hrows : ∀ cells ∈ rows, ∀ content ∈ cells, IsMarkup P content) :
    IsMarkup P (Html.listTable headers rows) := by
  have hhead : IsMarkup P (Html.row (headers.flatMap (Html.cell "th"))) :=
    row (flatMap fun header hheader ↦ (hheaders header hheader).element .header)
  have hbody : IsMarkup P (rows.flatMap fun cells ↦ Html.row (cells.flatMap (Html.cell "td"))) :=
    flatMap fun cells hcells ↦
      row (flatMap fun content hcontent ↦ (hrows cells hcells content hcontent).element .cell)
  have htable := table (hhead.append hbody)
  rwa [← List.append_assoc] at htable

end IsMarkup

/-! ### Escaped texts -/

theorem ne_of_mem_entity {entity : List Char} {c : Char} (h : '<' ∉ entity ∧ '>' ∉ entity)
    (hc : c ∈ entity) : c ≠ '<' ∧ c ≠ '>' :=
  ⟨fun hopen ↦ h.1 (hopen ▸ hc), fun hclose ↦ h.2 (hclose ▸ hc)⟩

theorem forall_mem_escapeText (text : List Char) :
    ∀ c ∈ Xml.escapeText text, c ≠ '<' ∧ c ≠ '>' := by
  intro c hc
  obtain ⟨d, -, hcd⟩ := List.mem_flatMap.1 hc
  by_cases hamp : d = '&'
  · rw [if_pos hamp] at hcd
    exact ne_of_mem_entity (by decide) hcd
  by_cases hclose : d = '>'
  · rw [if_neg hamp, if_pos hclose] at hcd
    exact ne_of_mem_entity (by decide) hcd
  by_cases hopen : d = '<'
  · rw [if_neg hamp, if_neg hclose, if_pos hopen] at hcd
    exact ne_of_mem_entity (by decide) hcd
  · rw [if_neg hamp, if_neg hclose, if_neg hopen, List.mem_singleton] at hcd
    exact hcd ▸ ⟨hopen, hclose⟩

theorem forall_mem_escapeQuoted (text : List Char) :
    ∀ c ∈ escapeQuoted text, c ≠ '<' ∧ c ≠ '>' := by
  intro c hc
  obtain ⟨d, hd, hcd⟩ := List.mem_flatMap.1 hc
  by_cases hdouble : d = '"'
  · rw [if_pos hdouble] at hcd
    exact ne_of_mem_entity (by decide) hcd
  by_cases hsingle : d = '\''
  · rw [if_neg hdouble, if_pos hsingle] at hcd
    exact ne_of_mem_entity (by decide) hcd
  · rw [if_neg hdouble, if_neg hsingle, List.mem_singleton] at hcd
    exact hcd ▸ forall_mem_escapeText text d hd

namespace IsMarkup

variable {P : List Char → Prop} {text : List Char}

theorem escapeText (h : P (Xml.escapeText text)) : IsMarkup P (Xml.escapeText text) :=
  shown (fun hopen ↦ (forall_mem_escapeText text _ hopen).1 rfl)
    (fun hclose ↦ (forall_mem_escapeText text _ hclose).2 rfl) h

theorem escapeQuoted (h : P (escapeQuoted text)) : IsMarkup P (Html.escapeQuoted text) :=
  shown (fun hopen ↦ (forall_mem_escapeQuoted text _ hopen).1 rfl)
    (fun hclose ↦ (forall_mem_escapeQuoted text _ hclose).2 rfl) h

end IsMarkup

/-! ### Data -/

/-- The escaped texts that data shows: its keys, and its leaves. -/
inductive Shows : Data → List Char → Prop
  /-- The text of an atom. -/
  | atom {a : Atom} {s : String} (hs : (Data.atom a).toText = .ok s) :
    Shows (.atom a) (Xml.escapeText s.toList)
  /-- The text of bytes. -/
  | buffer {bytes : List UInt8} {s : String} (hs : (Data.buffer bytes).toText = .ok s) :
    Shows (.buffer bytes) (Xml.escapeText s.toList)
  /-- The text of a key. -/
  | key {entries : List (Data × Data)} {entry : Data × Data} {s : String} (hentry : entry ∈ entries)
    (hs : entry.1.toText = .ok s) : Shows (.map entries) (escapeQuoted s.toList)
  /-- A text of a value. -/
  | value {entries : List (Data × Data)} {entry : Data × Data} {text : List Char}
    (hentry : entry ∈ entries) (h : Shows entry.2 text) : Shows (.map entries) text
  /-- A text of an item. -/
  | item {data item : Data} {text : List Char} (hdata : data.entries? = none)
    (hitem : item ∈ data.parts) (h : Shows item text) : Shows data text

theorem mem_parts_map {entries : List (Data × Data)} {entry : Data × Data} (hentry : entry ∈ entries) :
    entry.1 ∈ (Data.map entries).parts ∧ entry.2 ∈ (Data.map entries).parts :=
  ⟨List.mem_flatMap.2 ⟨entry, hentry, List.mem_cons_self⟩,
    List.mem_flatMap.2 ⟨entry, hentry, List.mem_cons_of_mem _ (List.mem_singleton_self _)⟩⟩

/-- Whether data is built from scalars, bytes and dates, with integers that are not too long. -/
structure IsWritable (data : Data) : Prop where
  /-- It is built. -/
  built : data.IsBuilt
  /-- It has short integers. -/
  short : data.HasShortInts

namespace IsWritable

variable {data : Data}

theorem of_mem_parts (h : IsWritable data) {part : Data} (hpart : part ∈ data.parts) :
    IsWritable part where
  built := fun inner hinner ↦ h.built inner (.inside hpart hinner)
  short := fun n hn ↦ h.short n (.inside hpart hn)

theorem exists_toText (h : IsWritable data) : ∃ s, data.toText = .ok s :=
  h.built.isAcyclic.exists_toText h.short

/-- A map among writable data is no page. -/
theorem eq_map (h : IsWritable data) {entries : List (Data × Data)}
    (hentries : data.entries? = some entries) : data = .map entries := by
  have hbasic := h.built.isBasic
  cases data with
  | map found => exact congrArg Data.map (Option.some.inj hentries)
  | page | scope => cases hbasic
  | _ => cases hentries

end IsWritable

theorem mem_gatherKeys {keys : List Data} {entries : List (Data × Data)} {key : Data}
    (h : key ∈ Data.gatherKeys keys entries) : key ∈ keys ∨ ∃ entry ∈ entries, entry.1 = key := by
  induction entries generalizing keys with
  | nil => exact .inl h
  | cons entry rest ih =>
    rw [Data.gatherKeys, List.foldl_cons, ← Data.gatherKeys] at h
    rcases ih h with h | ⟨other, hother, hkey⟩
    · split at h
      · exact .inl h
      · refine (List.mem_append.1 h).imp_right fun hfirst ↦ ?_
        exact ⟨entry, List.mem_cons_self, (List.mem_singleton.1 hfirst).symm⟩
    · exact .inr ⟨other, List.mem_cons_of_mem entry hother, hkey⟩

/-- The headers of records are keys of them. -/
theorem mem_foldl_gatherKeys {records : List (List (Data × Data))} {keys : List Data} {key : Data}
    (h : key ∈ records.foldl Data.gatherKeys keys) :
    key ∈ keys ∨ ∃ entries ∈ records, ∃ entry ∈ entries, entry.1 = key := by
  induction records generalizing keys with
  | nil => exact .inl h
  | cons entries rest ih =>
    rcases ih h with h | ⟨others, hothers, hkey⟩
    · exact (mem_gatherKeys h).imp_right fun hkey ↦ ⟨entries, List.mem_cons_self, hkey⟩
    · exact .inr ⟨others, List.mem_cons_of_mem entries hothers, hkey⟩

/-- Whether a computation gives markup. -/
def GivesMarkup (P : List Char → Prop) (x : Except Fault (List Char)) : Prop :=
  ∃ out, x = .ok out ∧ IsMarkup P out

section Writing

variable {P Q : List Char → Prop} {items : List Data}

theorem GivesMarkup.mono {x : Except Fault (List Char)} (h : GivesMarkup P x)
    (hPQ : ∀ text, P text → Q text) : GivesMarkup Q x := by
  obtain ⟨out, hx, hout⟩ := h
  exact ⟨out, hx, hout.mono hPQ⟩

theorem writeLines_eq_mapM (items : List Data) : writeLines items = items.mapM write := by
  induction items with
  | nil => rw [writeLines]; rfl
  | cons item rest ih => rw [writeLines, List.mapM_cons, ih]

/-- The table of a map is markup if its keys and its values are. -/
theorem givesMarkup_mapTable {entries : List (Data × Data)}
    (h : ∀ entry ∈ entries, GivesMarkup P (keyText entry.1) ∧ GivesMarkup P (write entry.2)) :
    GivesMarkup P (do return mapTable (← writtenRows entries)) := by
  have hrows : ∃ rows, writtenRows entries = .ok rows ∧
      ∀ row ∈ rows, IsMarkup P row.1 ∧ IsMarkup P row.2 := by
    induction entries with
    | nil => exact ⟨[], by rw [writtenRows], List.forall_mem_nil _⟩
    | cons entry rest ih =>
      obtain ⟨⟨⟨key, hkey, hkeyMarkup⟩, value, hvalue, hvalueMarkup⟩, hrest⟩ := List.forall_mem_cons.1 h
      obtain ⟨rows, hmore, hrows⟩ := ih hrest
      refine ⟨(key, value) :: rows, ?_, List.forall_mem_cons.2 ⟨⟨hkeyMarkup, hvalueMarkup⟩, hrows⟩⟩
      rw [writtenRows, hkey, hvalue, hmore]
      rfl
  obtain ⟨rows, heq, hrows⟩ := hrows
  rw [heq]
  exact ⟨mapTable rows, rfl, IsMarkup.mapTable hrows⟩

theorem exists_writtenValues {entries : List (Data × Data)}
    (h : ∀ entry ∈ entries, GivesMarkup P (write entry.2)) :
    ∃ values, writtenValues entries = .ok values ∧ ∀ entry ∈ values, IsMarkup P entry.2 := by
  induction entries with
  | nil => exact ⟨[], by rw [writtenValues], List.forall_mem_nil _⟩
  | cons entry rest ih =>
    obtain ⟨⟨out, hvalue, hout⟩, hrest⟩ := List.forall_mem_cons.1 h
    obtain ⟨values, hmore, hvalues⟩ := ih hrest
    refine ⟨(entry.1, out) :: values, ?_, List.forall_mem_cons.2 ⟨hout, hvalues⟩⟩
    rw [writtenValues, hvalue, hmore]
    rfl

theorem exists_writtenRecords (h : ∀ item ∈ items, ∀ entries, item.entries? = some entries →
      ∀ entry ∈ entries, GivesMarkup P (write entry.2)) :
    ∃ records, writtenRecords items = .ok records ∧
      ∀ record ∈ records, ∀ entry ∈ record, IsMarkup P entry.2 := by
  induction items with
  | nil => exact ⟨[], by rw [writtenRecords], List.forall_mem_nil _⟩
  | cons item rest ih =>
    obtain ⟨hitem, hothers⟩ := List.forall_mem_cons.1 h
    obtain ⟨records, hrest, hrecords⟩ := ih hothers
    cases item with
    | map entries | page entries source | scope entries =>
      obtain ⟨values, hentries, hvalues⟩ := exists_writtenValues (hitem entries rfl)
      refine ⟨values :: records, ?_, List.forall_mem_cons.2 ⟨hvalues, hrecords⟩⟩
      rw [writtenRecords, hentries, hrest]
      rfl
    | _ =>
      rw [writtenRecords.eq_def]
      exact ⟨records, hrest, hrecords⟩

/-- The table of records is markup if their keys and their values are. -/
theorem givesMarkup_recordTable {records : List (List (Data × Data))}
    {written : List (List (Data × List Char))}
    (hkeys : ∀ entries ∈ records, ∀ entry ∈ entries, GivesMarkup P (keyText entry.1))
    (hwritten : ∀ record ∈ written, ∀ entry ∈ record, IsMarkup P entry.2) :
    GivesMarkup P (recordTable records written) := by
  have hheaders : ∀ header ∈ records.foldl Data.gatherKeys [], GivesMarkup P (keyText header) := by
    intro header hheader
    rcases mem_foldl_gatherKeys hheader with hnone | ⟨entries, hentries, entry, hentry, rfl⟩
    · cases hnone
    · exact hkeys entries hentries entry hentry
  obtain ⟨names, heq, hnames⟩ := exists_mapM hheaders
  rw [recordTable, heq]
  refine ⟨_, rfl, IsMarkup.listTable hnames fun cells hcells content hcontent ↦ ?_⟩
  obtain ⟨record, hrecord, rfl⟩ := List.mem_map.1 hcells
  obtain ⟨header, -, rfl⟩ := List.mem_map.1 hcontent
  cases hfound : findEntry Data.sameKey header record with
  | none => exact .nil
  | some value =>
    obtain ⟨entry, hentry, rfl⟩ := exists_mem_of_findEntry hfound
    exact hwritten record hrecord entry hentry

theorem exists_mem_of_mapM_entries? {records : List (List (Data × Data))}
    (h : items.mapM Data.entries? = some records) :
    ∀ entries ∈ records, ∃ item ∈ items, item.entries? = some entries := by
  induction items generalizing records with
  | nil =>
    cases h
    nofun
  | cons item rest ih =>
    rw [List.mapM_cons] at h
    obtain ⟨entries, hitem, h⟩ := Option.bind_eq_some_iff.1 h
    obtain ⟨more, hmore, h⟩ := Option.bind_eq_some_iff.1 h
    cases h
    refine List.forall_mem_cons.2 ⟨⟨item, List.mem_cons_self, hitem⟩, fun other hother ↦ ?_⟩
    obtain ⟨found, hfound, heq⟩ := ih hmore other hother
    exact ⟨found, List.mem_cons_of_mem item hfound, heq⟩

/-- Items are markup if they are so by themselves, and the keys and values of maps among them. -/
theorem givesMarkup_writeItems (hitems : ∀ item ∈ items, GivesMarkup P (write item))
    (hentries : ∀ item ∈ items, ∀ entries, item.entries? = some entries → ∀ entry ∈ entries,
      GivesMarkup P (keyText entry.1) ∧ GivesMarkup P (write entry.2)) :
    GivesMarkup P (writeItems items) := by
  rw [writeItems]
  split
  · rename_i records hrecords
    have hall : items.mapM Data.entries? = some records := by
      rw [records?] at hrecords
      split at hrecords
      · cases hrecords
      · exact hrecords
    obtain ⟨written, hwritten, hmarkup⟩ := exists_writtenRecords fun item hitem entries heq entry he ↦
      (hentries item hitem entries heq entry he).2
    rw [hwritten]
    refine givesMarkup_recordTable (fun entries hrecord entry hentry ↦ ?_) hmarkup
    obtain ⟨item, hitem, heq⟩ := exists_mem_of_mapM_entries? hall entries hrecord
    exact (hentries item hitem entries heq entry hentry).1
  · obtain ⟨lines, hlines, hmarkup⟩ := exists_mapM hitems
    rw [writeLines_eq_mapM, hlines]
    exact ⟨_, rfl, IsMarkup.joinBreaks hmarkup⟩

/-- Data without parts is markup of its escaped text. -/
theorem givesMarkup_leaf {data : Data} {s : String} (hs : data.toText = .ok s)
    (hdocument : ∀ d, data ≠ .atom (.document d)) (h : P (Xml.escapeText s.toList)) :
    GivesMarkup P (leaf data) := by
  unfold leaf
  split
  · exact ⟨[], rfl, .nil⟩
  · exact absurd rfl (hdocument _)
  · rw [hs]
    exact ⟨_, rfl, IsMarkup.escapeText h⟩

theorem givesMarkup_keyText {key : Data} {s : String} (hs : key.toText = .ok s)
    (h : P (escapeQuoted s.toList)) : GivesMarkup P (keyText key) := by
  rw [keyText, hs]
  exact ⟨_, rfl, IsMarkup.escapeQuoted h⟩

end Writing

/-- A map is markup of what it shows if its values are. -/
theorem givesMarkup_map {entries : List (Data × Data)} (hwritable : IsWritable (.map entries))
    (hvalues : ∀ entry ∈ entries, GivesMarkup (Shows entry.2) (write entry.2)) :
    ∀ entry ∈ entries, GivesMarkup (Shows (.map entries)) (keyText entry.1) ∧
      GivesMarkup (Shows (.map entries)) (write entry.2) := by
  intro entry hentry
  obtain ⟨s, hs⟩ := (hwritable.of_mem_parts (mem_parts_map hentry).1).exists_toText
  exact ⟨givesMarkup_keyText hs (.key hentry hs),
    (hvalues entry hentry).mono fun _ h ↦ .value hentry h⟩

/-- Data that is a list or a set is markup of what it shows if its items are, and the values of maps
among them. -/
theorem givesMarkup_items {data : Data} {items : List Data} (hwritable : IsWritable data)
    (hdata : data.entries? = none) (hparts : data.parts = items)
    (h : ∀ item ∈ items, ∀ inner, Data.IsPart inner item → IsWritable inner →
      GivesMarkup (Shows inner) (write inner)) : GivesMarkup (Shows data) (writeItems items) := by
  subst hparts
  refine givesMarkup_writeItems (fun item hitem ↦ ?_) fun item hitem entries hentries ↦ ?_
  · exact (h item hitem item .whole (hwritable.of_mem_parts hitem)).mono fun _ hshows ↦
      .item hdata hitem hshows
  · obtain rfl := (hwritable.of_mem_parts hitem).eq_map hentries
    have hmap := hwritable.of_mem_parts hitem
    have hvalues : ∀ entry ∈ entries, GivesMarkup (Shows entry.2) (write entry.2) := by
      intro entry hentry
      have hvalue := (mem_parts_map hentry).2
      exact h _ hitem entry.2 (.inside hvalue .whole) (hmap.of_mem_parts hvalue)
    intro entry hentry
    have hentry' := givesMarkup_map hmap hvalues entry hentry
    exact hentry'.imp (fun hkey ↦ hkey.mono fun _ hshows ↦ .item hdata hitem hshows)
      fun hvalue ↦ hvalue.mono fun _ hshows ↦ .item hdata hitem hshows

/-- Data is markup of what it shows if all its parts are. -/
theorem givesMarkup_of_parts {data : Data} (hwritable : IsWritable data)
    (h : ∀ part ∈ data.parts, ∀ inner, Data.IsPart inner part → IsWritable inner →
      GivesMarkup (Shows inner) (write inner)) : GivesMarkup (Shows data) (write data) := by
  have hbasic := hwritable.built.isBasic
  obtain ⟨s, hs⟩ := hwritable.exists_toText
  cases data with
  | atom a =>
    have hdocument : ∀ d, Data.atom a ≠ .atom (.document d) := by
      intro d hd
      rw [hd] at hbasic
      cases hbasic
    have hleaf := givesMarkup_leaf hs hdocument (Shows.atom hs)
    cases a with
    | url => cases hbasic
    | _ =>
      rw [write.eq_def]
      exact hleaf
  | map entries =>
    rw [write]
    refine givesMarkup_mapTable (givesMarkup_map hwritable fun entry hentry ↦ ?_)
    have hvalue := (mem_parts_map hentry).2
    exact h entry.2 hvalue entry.2 .whole (hwritable.of_mem_parts hvalue)
  | list | tuple | set | frozen =>
    rw [write]
    exact givesMarkup_items hwritable rfl rfl h
  | buffer =>
    rw [write.eq_def]
    exact givesMarkup_leaf hs (fun _ ↦ Data.noConfusion) (.buffer hs)
  | _ => cases hbasic

/-- Data that is built from scalars, bytes and dates, with integers that are not too long, is balanced
markup as HTML: with the tags and attributes of tables and with line breaks, and with no text in it
but line feeds and the escaped keys and leaves of the data. -/
theorem write_eq_charsAll {data : Data} (hbuilt : data.IsBuilt) (hshort : data.HasShortInts) :
    ∃ content : List Markup, write data = .ok (charsAll content) ∧
      ∀ text ∈ textsAll content, '<' ∉ text ∧ '>' ∉ text ∧ (text = ['\n'] ∨ Shows data text) := by
  have hall : ∀ inner, Data.IsPart inner data → IsWritable inner →
      GivesMarkup (Shows inner) (write inner) := by
    clear hbuilt hshort
    induction data using Data.induction_on_parts with
    | h data ih =>
      intro inner hinner hwritable
      cases hinner with
      | whole => exact givesMarkup_of_parts hwritable ih
      | inside hchild hpart => exact ih _ hchild inner hpart hwritable
  obtain ⟨out, hout, content, rfl, htexts⟩ := hall data .whole ⟨hbuilt, hshort⟩
  exact ⟨content, hout, htexts⟩

/-- Markup in a key and in a value is escaped, in the header and in the cell. -/
theorem write_eq_charsAll_bracketed :
    ∃ content : List Markup,
      charsAll content = "<table border=1 cellspacing=2 cellpadding=2>\n".toList ++
        "<tr><th>&lt;b&gt;</th></tr>\n<tr><td>1 &lt; 2</td></tr>\n</table>".toList ∧
      ∀ text ∈ textsAll content, '<' ∉ text ∧ '>' ∉ text ∧
        (text = ['\n'] ∨ Shows (.list [.map [(.text "<b>", .text "1 < 2")]]) text) := by
  have hbuilt : (Data.list [.map [(.text "<b>", .text "1 < 2")]]).IsBuilt := by
    refine Data.isBuilt_iff.2 ⟨rfl, List.forall_mem_singleton.2 (Data.isBuilt_iff.2 ⟨rfl, ?_⟩)⟩
    exact List.forall_mem_cons.2 ⟨Data.isBuilt_atom rfl,
      List.forall_mem_singleton.2 (Data.isBuilt_atom rfl)⟩
  have hshort : (Data.list [.map [(.text "<b>", .text "1 < 2")]]).HasShortInts := by
    refine Data.hasShortInts_iff.2 ⟨nofun, List.forall_mem_singleton.2 (Data.hasShortInts_iff.2
      ⟨nofun, ?_⟩)⟩
    exact List.forall_mem_cons.2 ⟨Data.hasShortInts_atom nofun,
      List.forall_mem_singleton.2 (Data.hasShortInts_atom nofun)⟩
  have hwrite : write (.list [.map [(.text "<b>", .text "1 < 2")]]) =
      .ok ("<table border=1 cellspacing=2 cellpadding=2>\n".toList ++
        "<tr><th>&lt;b&gt;</th></tr>\n<tr><td>1 &lt; 2</td></tr>\n</table>".toList) := by
    cbv
  obtain ⟨content, hcontent, htexts⟩ := write_eq_charsAll hbuilt hshort
  exact ⟨content, Except.ok.inj (hcontent.symm.trans hwrite), htexts⟩

/-- An integer with too many digits is not written. -/
theorem write_int {n : Int} (hdigits : 10 ^ Numeral.maxDigits ≤ n.natAbs) :
    write (.int n) = .error .value := by
  have htext : (Data.int n).toText = .error .value := by
    have hwritten : (Data.int n).written true = .error .value := by
      rw [Data.written]
      exact Numeral.intText_of_le hdigits
    show (Data.int n).render.map String.ofList = _
    rw [Data.render.eq_def]
    simp only [Data.leafText, hwritten]
    rfl
  have hleaf : leaf (.int n) = .error .value := by
    show (do return Xml.escapeText (← (Data.int n).toText).toList) = _
    rw [htext]
    rfl
  rw [write.eq_def]
  exact hleaf

/-- The least integer with too many digits is built as it should be, and is not written. -/
theorem write_int_tooManyDigits : (Data.int (10 ^ Numeral.maxDigits)).IsBuilt ∧
    ¬ ∃ out, write (.int (10 ^ Numeral.maxDigits)) = .ok out := by
  refine ⟨Data.isBuilt_atom rfl, ?_⟩
  rintro ⟨out, hout⟩
  have hdigits : 10 ^ Numeral.maxDigits ≤ ((10 : Int) ^ Numeral.maxDigits).natAbs := by
    rw [Int.natAbs_pow]
    exact Nat.pow_le_pow_left (by decide) _
  rw [write_int hdigits] at hout
  cases hout

end Html

end ResourceScript
