import ResourceScript.Proofs.Media.Table
import ResourceScript.Proofs.Resource.FailedWrites
/-!
# Records that are posted to tables

A map of texts that is posted to a file of comma-separated values becomes the last record of the
file: the file is read, the record is appended to the list, and the list is written again, under the
columns that are gathered from all of its records. So there is one record more, and every record, the
posted one included, keeps what it has under these columns (`Script.keepsUnder_of_posted_record`).
What it has under other keys is lost (`Script.lost_of_posted_record_newColumn`).
-/

set_option autoImplicit false

namespace ResourceScript

/-- Whether records keep, one by one, what they have under given names. -/
def Data.KeepsUnder (names : List String) :
    List (List (String × String)) → List (List (String × String)) → Prop :=
  List.Forall₂ fun before after ↦ ∀ name ∈ names, ∀ value,
    before.lookup name = some value → after.lookup name = some value

theorem Data.keepsUnder_underColumns (names : List String)
    (records : List (List (String × String))) :
    KeepsUnder names records (records.map (underColumns names)) :=
  List.forall₂_map_right_iff.2 (List.forall₂_same.2 fun _ _ _ hname _ hvalue ↦
    lookup_underColumns hname hvalue)

theorem Data.recordList_injective {records other : List (List (String × String))}
    (h : recordList records = recordList other) : records = other :=
  List.map_injective_iff.2 (fun _ _ ↦ textMap_injective) (Data.list.inj h)

namespace Script

open Text

variable {jobs : Job → Script Value} {r : ResourceRef} {uri : String} {mimetype : Option String}
  {value : Value} {path : FilePath} {w u v : World}

/-! ### Steps -/

theorem resource_grows (h : w.Grows v) (r : ResourceRef) :
    v.store.resource r = w.store.resource r := by
  obtain ⟨cells, rfl⟩ := h
  cases r <;> rfl

/-- The media type of a file with a known extension is found without changing the data. -/
theorem run_mimetypeOf_of_extension {mimetype : String} (jobs : Job → Script Value)
    (huri : (w.store.resource r).uri = some uri) (hplace : Location.place uri = .file)
    (hextension : Media.ofExtension? uri = some mimetype)
    (hmimetype : (w.store.resource r).mimetype = none ∨
      (w.store.resource r).mimetype = some mimetype) :
    ∃ t, (mimetypeOf r).run jobs w = (.ok (some mimetype), t) ∧
      t.store.cells = w.store.cells ∧ (t.store.resource r).uri = some uri ∧
      (t.store.resource r).mimetype = some mimetype := by
  have hresource : (resource r).run jobs w = (.ok (w.store.resource r), w) := rfl
  rw [mimetypeOf, Task.run_bind, bind_of_ok hresource, huri]
  rcases hmimetype with hnone | hsome
  · rw [hnone]
    have hfind : findMimetype uri = pure mimetype := by
      rw [findMimetype, hplace]
      dsimp only
      rw [hextension]
    let record : ResourceRecord := { w.store.resource r with mimetype := some mimetype }
    have hkept := Store.resource_setResource (Store.has_of_uri huri) record
    refine ⟨{ w with store := w.store.setResource r record }, ?_, ?_, ?_, ?_⟩
    · dsimp only
      rw [hfind]
      rfl
    · cases r <;> rfl
    · exact (congrArg ResourceRecord.uri hkept).trans huri
    · exact congrArg ResourceRecord.mimetype hkept
  · rw [hsome]
    exact ⟨w, rfl, rfl, huri, hsome⟩

theorem run_getData_of_file (huri : (w.store.resource r).uri = some uri)
    (hplace : Location.place uri = .file) :
    (getData r).run jobs w =
      (operate r .cannotGet .null fun _ ↦ mimetypeOf r >>= getFile uri).run jobs w := by
  rw [getData, run_operate huri, run_operate huri]
  simp only [hplace]

theorem eq_of_run_execute_of_isPlain {answer : Value} (hvalue : value.IsPlain) {depth : Nat}
    (hrun : (Script.execute value).run (Job.run depth) w = (.ok answer, v)) :
    answer = value ∧ v = w := by
  cases depth with
  | zero => cases hrun
  | succ depth =>
    rw [← Task.runAt, runAt_execute_of_isPlain hvalue] at hrun
    cases hrun
    exact ⟨rfl, rfl⟩

theorem makeAround_eq_ok {made : FileSystem}
    (hrun : (makeAround path).run jobs w = (.ok made, v)) :
    w.files.makeDirectory path.dropLast = .ok made ∧ v = { w with files := made } := by
  rw [run_makeAround] at hrun
  cases hmade : w.files.makeDirectory path.dropLast with
  | error cause =>
    rw [hmade] at hrun
    cases hrun
  | ok made' =>
    rw [hmade] at hrun
    cases hrun
    exact ⟨rfl, rfl⟩

theorem writeBytes_eq_true {made : FileSystem}
    (hrun : (writeBytes path mimetype value made).run jobs w = (.ok true, v)) :
    ∃ bytes written, fileBytes mimetype (w.store.view value) = .ok bytes ∧
      made.write path bytes = .ok written ∧
      v = { w with files := { w.files with entries := written.entries } } := by
  have hsteps : (writeBytes path mimetype value made).run jobs w =
      ((ofExcept (fileBytes mimetype (w.store.view value)) : Task _) >>= fun bytes ↦
        ofExcept (made.write path bytes) >>= fun written ↦
          setFiles written >>= fun _ ↦ pure true).run jobs w := rfl
  rw [hsteps] at hrun
  obtain ⟨bytes, _, hencode, hwrite⟩ := run_bind_eq_ok_iff.1 hrun
  obtain ⟨hbytes, rfl⟩ := run_ofExcept_eq_ok_iff.1 hencode
  obtain ⟨written, _, hfill, hset⟩ := run_bind_eq_ok_iff.1 hwrite
  obtain ⟨hwritten, rfl⟩ := run_ofExcept_eq_ok_iff.1 hfill
  cases hset
  exact ⟨bytes, written, hbytes, hwritten, rfl⟩

/-- A write that is done leaves the bytes at the path. -/
theorem putFile_eq_true (hrun : (putFile uri mimetype value).run jobs w = (.ok true, v)) :
    ∃ path bytes, w.files.Reaches uri path ∧ w.files.isDirectory path = false ∧
      fileBytes mimetype (w.store.view value) = .ok bytes ∧ v.store = w.store ∧
      v.files.directories = w.files.directories ∧
      FileSystem.entry? v.files path = some (.file bytes) := by
  rw [putFile_eq] at hrun
  obtain ⟨⟨path, pathText⟩, _, hplace, hwrite⟩ := run_bind_eq_ok_iff.1 hrun
  obtain ⟨rfl, hlocation⟩ := pathOf_eq_ok hplace
  obtain ⟨found, _, hfound, hrest⟩ := run_bind_eq_ok_iff.1 hwrite
  obtain ⟨rfl, hnames, hdirectory⟩ := isDirectory_eq_ok hfound
  cases found with
  | true => cases hrest
  | false =>
    rw [if_neg Bool.false_ne_true] at hrest
    obtain ⟨made, _, hmake, hbytes⟩ := run_bind_eq_ok_iff.1 hrest
    obtain ⟨hmade, rfl⟩ := makeAround_eq_ok hmake
    obtain ⟨bytes, written, hencoded, hwritten, rfl⟩ := writeBytes_eq_true hbytes
    obtain ⟨filled, -, -, -, rfl⟩ := FileSystem.write_eq_ok_iff.1 hwritten
    have hpath : path ≠ [] := by
      rintro rfl
      cases hdirectory
    have hdirectories := FileSystem.directories_makeDirectory hmade
    exact ⟨path, bytes, ⟨hlocation, hnames⟩, hdirectory.symm, hencoded, rfl, hdirectories,
      (FileSystem.entry?_putFile hpath (.file bytes) path).trans (if_pos rfl)⟩

/-! ### Tables in files -/

theorem readMedia_csv (text : List Char) :
    readMedia .csv text = ofExcept (Csv.read text) >>= newRecords := rfl

/-- Records are read back from their rows, under the columns of these. -/
theorem makes_readMedia_rowsOf {names : List String} (hnames : names.Nodup) (hne : names ≠ [])
    {records : List (List (String × String))} (hfit : Csv.FitRows (Data.rowsOf names records)) :
    Makes (readMedia .csv (Csv.write (Data.rowsOf names records)))
      (Data.recordList (records.map (Data.underColumns names))) := by
  rw [readMedia_csv, Csv.read_write_of_fitRows (Data.rowsOf_ne_nil hne records) hfit]
  exact makes_newRecords hnames hne records

/-- A file that is read as a table holds the list of its records, and a missing file nothing. -/
theorem holdsList_of_getFile (hreaches : w.files.Reaches uri path)
    (hpath : w.files.isDirectory path = false)
    (hrun : (getFile uri (some Media.csv.name)).run jobs w = (.ok value, v)) :
    w.Grows v ∧ (value = .null ∨ ∃ records, Csv.Fits records ∧
      v.store.HoldsList w.store.cells.size value (records.map Data.textMap)) := by
  rw [run_getFile_of_reaches hreaches hpath] at hrun
  rcases hentry : FileSystem.entry? w.files path with _ | bytes | _
  · rw [hentry] at hrun
    cases hrun
    exact ⟨.refl _, Or.inl rfl⟩
  · rw [hentry] at hrun
    dsimp only at hrun
    have hread : ∃ text, decode (some Media.csv.name) (.bytes bytes) = readMedia .csv text := by
      rw [decode, Media.ofContentType?_name]
      exact ⟨_, rfl⟩
    obtain ⟨text, hread⟩ := hread
    rw [hread, readMedia_csv] at hrun
    obtain ⟨rows, t, hparse, hmade⟩ := run_bind_eq_ok_iff.1 hrun
    obtain ⟨hrows, rfl⟩ := run_ofExcept_eq_ok_iff.1 hparse
    obtain ⟨found, u, hadds, hgrows, hholds⟩ := adds_table rows t jobs
    rw [hadds] at hmade
    cases hmade
    exact ⟨hgrows, Or.inr ⟨Csv.recordsOf rows, Csv.fits_of_read hrows, hholds⟩⟩
  · rw [hentry] at hrun
    cases hrun
    exact ⟨.refl _, Or.inl rfl⟩

/-- A post of a value that is done: the file is read, the value is posted to what was read, or to a
new list, and that is written. -/
theorem postFile_eq_ok (hvalue : value ≠ .null)
    (hrun : (postFile uri mimetype value).run jobs w = (.ok value, v)) :
    ∃ found existing done u t x, (getFile uri mimetype).run jobs w = (.ok found, u) ∧
      (if found.isNull then newList [] else pure found : Task Value).run jobs u =
        (.ok existing, t) ∧
      (postValue existing value).run jobs t = (.ok done, x) ∧
      (putFile uri mimetype existing).run jobs x = (.ok true, v) := by
  rw [postFile_eq] at hrun
  obtain ⟨found, u, hfound, hread⟩ := run_bind_eq_ok_iff.1 hrun
  obtain ⟨existing, t, hexisting, hlist⟩ := run_bind_eq_ok_iff.1 hread
  obtain ⟨_, _, hstore, hkind⟩ := run_bind_eq_ok_iff.1 hlist
  cases hstore
  split at hkind
  · obtain ⟨_, x, hdiscard, hwrite⟩ := run_bind_eq_ok_iff.1 hkind
    obtain ⟨done, _, hposted, hrest⟩ := run_bind_eq_ok_iff.1 hdiscard
    cases hrest
    obtain ⟨written, _, hput, hanswer⟩ := run_bind_eq_ok_iff.1 hwrite
    cases written with
    | true =>
      cases hanswer
      exact ⟨found, existing, done, u, t, x, hfound, hexisting, hposted, hput⟩
    | false =>
      cases hanswer
      exact absurd rfl hvalue
  · cases hkind
    exact absurd rfl hvalue

theorem run_postValue_of_holdsList {bound : Nat} {item : Value} {shown : List Data} {data : Data}
    (jobs : Job → Script Value)
    (hlist : w.store.HoldsList bound value shown) (hitem : w.store.Shows bound item data) :
    ∃ s : Store, (postValue value item).run jobs w = (.ok true, { w with store := s }) ∧
      (∀ r, s.resource r = w.store.resource r) ∧ s.view value = .list (shown ++ [data]) := by
  obtain ⟨s, hposted, hresource, hview⟩ := hlist.append hitem
  refine ⟨s, ?_, hresource, hview⟩
  have hrun : (postValue value item).run jobs w =
    (change (w.store.postValue value item)).run jobs w := rfl
  rw [hrun, hposted]
  rfl

/-- The list to which a value is posted: that of the records in the file, or a new one. -/
theorem holdsList_of_existing {found existing : Value} (hreaches : w.files.Reaches uri path)
    (hpath : w.files.isDirectory path = false)
    (hfound : (getFile uri (some Media.csv.name)).run jobs w = (.ok found, u))
    (hexisting : (if found.isNull then newList [] else pure found : Task Value).run jobs u =
      (.ok existing, v)) :
    w.Grows v ∧ ∃ records, Csv.Fits records ∧
      v.store.HoldsList w.store.cells.size existing (records.map Data.textMap) ∧
      (found = .null ∧ records = [] ∨ u.store.view found = Data.recordList records) := by
  obtain ⟨hgrows, rfl | ⟨records, hfits, hholds⟩⟩ := holdsList_of_getFile hreaches hpath hfound
  · obtain ⟨list, t, hadds, hnew, hholds⟩ := adds_newList_holds (w := u) .nil jobs
    have hsame : (newList []).run jobs u = (.ok existing, v) := hexisting
    rw [hadds] at hsame
    cases hsame
    exact ⟨hgrows.trans hnew, [], List.forall_mem_nil _, hholds.mono hgrows.size_le, Or.inl ⟨rfl, rfl⟩⟩
  · have hview := hholds.view
    obtain ⟨n, items, rfl, hrest⟩ := hholds
    cases hexisting
    exact ⟨hgrows, records, hfits, ⟨n, items, rfl, hrest⟩, Or.inr hview⟩

theorem fileBytes_recordList (records : List (List (String × String))) :
    fileBytes (some Media.csv.name) (Data.recordList records) =
      .ok (Utf8.encode (Csv.write
        (Data.rowsOf (Data.columnsOf Data.stableRun records) records))) := by
  show Media.encode (some Media.csv.name) (Data.recordList _) = _
  rw [Media.encode_name, Media.write, Data.toCsv_recordList]
  rfl

/-- A map of texts that is posted to a table is written behind the records that were read. -/
theorem postFile_eq_record {m : Nat} {entries : List (String × String)}
    (hm : m < w.store.cells.size)
    (hcell : w.store.cell m = .map (entries.map fun entry ↦ (.text entry.1, .text entry.2)))
    (hrun : (postFile uri (some Media.csv.name) (.cell m)).run jobs w = (.ok (.cell m), v)) :
    ∃ records found u path, Csv.Fits records ∧
      (getFile uri (some Media.csv.name)).run jobs w = (.ok found, u) ∧
      (found = .null ∧ records = [] ∨ u.store.view found = Data.recordList records) ∧
      v.files.Reaches uri path ∧
      FileSystem.entry? v.files path = some (.file (Utf8.encode (Csv.write (Data.rowsOf
        (Data.columnsOf Data.stableRun (records ++ [entries])) (records ++ [entries]))))) ∧
      ∀ r, v.store.resource r = w.store.resource r := by
  have hvalue : Value.cell m ≠ .null := Value.noConfusion
  obtain ⟨found, existing, done, u, t, x, hfound, hexisting, hposted, hput⟩ :=
    postFile_eq_ok hvalue hrun
  obtain ⟨path, bytes, hreaches, hpath, hbytes, hstored, hdirectories, hentry⟩ :=
    putFile_eq_true hput
  have hfiles : x.files = w.files :=
    (files_eq_of_run hposted).trans ((files_eq_of_run hexisting).trans (files_eq_of_run hfound))
  rw [hfiles] at hreaches hpath hdirectories
  obtain ⟨hgrows, records, hfits, hlist, hrecords⟩ :=
    holdsList_of_existing hreaches hpath hfound hexisting
  have hitem : t.store.Shows w.store.cells.size (.cell m) (Data.textMap entries) :=
    (Store.shows_textMap hcell hm).mono (Nat.le_refl _) fun _ ↦ hgrows.cell
  obtain ⟨s, hdone, hresource, hview⟩ := run_postValue_of_holdsList jobs hlist hitem
  rw [hdone] at hposted
  cases hposted
  have hall : Data.list (records.map Data.textMap ++ [Data.textMap entries]) =
      Data.recordList (records ++ [entries]) := by
    rw [Data.recordList, List.map_append]
    rfl
  rw [hview, hall, fileBytes_recordList] at hbytes
  rw [← Except.ok.inj hbytes] at hentry
  obtain ⟨pathText, hlocation, hnamed⟩ := hreaches.location
  refine ⟨records, found, u, path, hfits, hfound, hrecords,
    ⟨⟨pathText, hlocation, hdirectories ▸ hnamed⟩, hreaches.names⟩, hentry, fun r ↦ ?_⟩
  rw [hstored, hresource, resource_grows hgrows]

/-! ### Tables with known content -/

/-- The file at a path holds a text, and a resource has the location of the file and the type of
tables. -/
structure HasTable (w : World) (r : ResourceRef) (uri : String) (path : FilePath)
    (text : List Char) : Prop where
  /-- The location of the resource. -/
  location : (w.store.resource r).uri = some uri
  /-- Its media type. -/
  mimetype : (w.store.resource r).mimetype = some Media.csv.name
  /-- It is a file. -/
  place : Location.place uri = .file
  /-- It has the path. -/
  reaches : w.files.Reaches uri path
  /-- The text of the file. -/
  entry : FileSystem.entry? w.files path = some (.file (Utf8.encode text))

namespace HasTable

variable {text : List Char}

theorem run_mimetypeOf (h : HasTable w r uri path text) :
    (mimetypeOf r).run jobs w = (.ok (some Media.csv.name), w) := by
  have hresource : (resource r).run jobs w = (.ok (w.store.resource r), w) := rfl
  rw [mimetypeOf, Task.run_bind, bind_of_ok hresource, h.mimetype]
  rfl

theorem run_getFile (h : HasTable w r uri path text) :
    (getFile uri (some Media.csv.name)).run jobs w = (readMedia .csv text).run jobs w := by
  have hdirectory : w.files.isDirectory path = false := by
    rw [FileSystem.isDirectory, h.entry]
    rfl
  rw [run_getFile_of_reaches h.reaches hdirectory, h.entry]
  dsimp only
  rw [Media.decode_encode_text]

/-- The data of the resource is what is read from the text. -/
theorem run_getData (h : HasTable w r uri path text)
    (hread : (readMedia .csv text).run jobs w = (.ok value, v)) :
    (getData r).run jobs w = (.ok value, v) := by
  rw [run_getData_of_file h.location h.place]
  refine run_operate_of_ok h.location ?_
  rw [Task.run_bind, bind_of_ok h.run_mimetypeOf, h.run_getFile, hread]

end HasTable

/-! ### Posting and getting -/

section

variable {m depth : Nat} {entries : List (String × String)}
  {records : List (List (String × String))} {before : Value}

/-- Posting a map of texts to a table, as steps on the file: the records that the resource has are
those that are read, and the file then holds their rows with one more. -/
theorem postData_eq_record (huri : (w.store.resource r).uri = some uri)
    (hplace : Location.place uri = .file)
    (hextension : Media.ofExtension? uri = some Media.csv.name)
    (hmimetype : (w.store.resource r).mimetype = none ∨
      (w.store.resource r).mimetype = some Media.csv.name)
    (hm : m < w.store.cells.size)
    (hcell : w.store.cell m = .map (entries.map fun entry ↦ (.text entry.1, .text entry.2)))
    (hbefore : (getData r).runAt depth w = (.ok before, u))
    (hrecords : before = .null ∧ records = [] ∨ u.store.view before = Data.recordList records)
    (hpost : (postData Script.execute r (.cell m)).runAt depth w = (.ok (.cell m), v)) :
    ∃ path, Csv.Fits records ∧ HasTable v r uri path (Csv.write (Data.rowsOf
      (Data.columnsOf Data.stableRun (records ++ [entries])) (records ++ [entries]))) := by
  have hvalue : Value.cell m ≠ .null := Value.noConfusion
  have hbody := run_body_of_operate huri hpost hvalue
  simp only [hplace] at hbody
  obtain ⟨t, hfind, hcells, huri', hmimetype'⟩ :=
    run_mimetypeOf_of_extension (Job.run depth) huri hplace hextension hmimetype
  rw [Task.run_bind, bind_of_ok hfind] at hbody
  obtain ⟨executed, t', hexecuted, hfile⟩ := run_bind_eq_ok_iff.1 hbody
  have hplain : (Value.cell m).IsPlain := trivial
  obtain ⟨rfl, rfl⟩ := eq_of_run_execute_of_isPlain hplain hexecuted
  have hcell' : t'.store.cell m = w.store.cell m := by
    rw [Store.cell, hcells]
    rfl
  obtain ⟨read, found, u', path, hfits, hget, hread, hreaches, hentry, hresource⟩ :=
    postFile_eq_record (hcells ▸ hm) (hcell'.trans hcell) hfile
  have hdata : (getData r).runAt depth w = (.ok found, u') := by
    rw [Task.runAt, run_getData_of_file huri hplace]
    refine run_operate_of_ok huri ?_
    rw [Task.run_bind, bind_of_ok hfind, hget]
  rw [hdata] at hbefore
  cases hbefore
  obtain rfl : records = read := by
    rcases hread with ⟨rfl, rfl⟩ | hread
    · exact (hrecords.resolve_right fun h ↦ by cases h).2
    · rcases hrecords with ⟨rfl, -⟩ | hrecords
      · cases hread
      · exact Data.recordList_injective (hrecords.symm.trans hread)
  rw [← hresource] at huri' hmimetype'
  exact ⟨path, hfits, huri', hmimetype', hplace, hreaches, hentry⟩

/-- What a resource of a table has when rows have been written to its file. -/
theorem getData_of_rowsOf {names : List String} (jobs : Job → Script Value)
    (hnames : names.Nodup) (hne : names ≠ [])
    (hfit : Csv.FitRows (Data.rowsOf names records))
    (h : HasTable w r uri path (Csv.write (Data.rowsOf names records))) :
    ∃ value v, (getData r).run jobs w = (.ok value, v) ∧
      v.store.view value = Data.recordList (records.map (Data.underColumns names)) := by
  obtain ⟨value, v, hmade, -, hview⟩ := makes_readMedia_rowsOf hnames hne hfit jobs w
  exact ⟨value, v, h.run_getData hmade, hview⟩

/-- Let a resource of a file of comma-separated values have records, or no data, and let a map of
texts be posted to it. Afterwards it has one record more, and each record, the posted one included,
keeps what it has under the columns that are gathered from all of them. So nothing is lost if all
keys are gathered. No text of the map may be longer than the reader takes, and there must be
columns. -/
theorem keepsUnder_of_posted_record (huri : (w.store.resource r).uri = some uri)
    (hplace : Location.place uri = .file)
    (hextension : Media.ofExtension? uri = some Media.csv.name)
    (hmimetype : (w.store.resource r).mimetype = none ∨
      (w.store.resource r).mimetype = some Media.csv.name)
    (hm : m < w.store.cells.size)
    (hcell : w.store.cell m = .map (entries.map fun entry ↦ (.text entry.1, .text entry.2)))
    (hfits : Csv.Fits [entries])
    (hbefore : (getData r).runAt depth w = (.ok before, u))
    (hrecords : before = .null ∧ records = [] ∨ u.store.view before = Data.recordList records)
    (hpost : (postData Script.execute r (.cell m)).runAt depth w = (.ok (.cell m), v))
    (hcolumns : Data.columnsOf Data.stableRun (records ++ [entries]) ≠ []) :
    ∃ value t after, (getData r).runAt depth v = (.ok value, t) ∧
      t.store.view value = Data.recordList after ∧ after.length = records.length + 1 ∧
      Data.KeepsUnder (Data.columnsOf Data.stableRun (records ++ [entries]))
        (records ++ [entries]) after := by
  obtain ⟨path, hread, htable⟩ :=
    postData_eq_record huri hplace hextension hmimetype hm hcell hbefore hrecords hpost
  have hall : Csv.Fits (records ++ [entries]) := by
    intro record hrecord
    exact (List.mem_append.1 hrecord).elim (hread record) (hfits record)
  obtain ⟨value, t, hget, hview⟩ := getData_of_rowsOf (Job.run depth)
    (nodup_eraseDups _) hcolumns (Data.fitRows_rowsOf hall _) htable
  exact ⟨value, t, _, hget, hview, by simp, Data.keepsUnder_underColumns _ _⟩

end

/-! ### Tables of one column -/

/-- Records with one field each, under the key `a`. -/
def fieldRecords (fields : List String) : List (List (String × String)) :=
  fields.map fun field ↦ [("a", field)]

/-- The text of a table with one column. -/
def tableText (fields : List String) : List Char :=
  Csv.write (Data.rowsOf ["a"] (fieldRecords fields))

/-- A world with other containers. -/
def withCells (w : World) (cells : List Cell) : World :=
  { w with store := { w.store with cells := cells.toArray } }

/-- A container with a record of one field. -/
def recordCell (name value : String) : Cell :=
  .map [(.text name, .text value)]

/-- The world in which nothing is stored but a record under another key, and the resource of a table
with one column. -/
def tableWorld (fields : List String) : World :=
  let w := withCells builtinWorld [recordCell "b" "x"]
  { w with
    files := w.files.putFile ["r.csv"] (.file (Utf8.encode (tableText fields)))
    store := (w.store.addResource
      ⟨.text "file:///r.csv", some "file:///r.csv", some Media.csv.name⟩).1 }

theorem hasTable_tableWorld (fields : List String) :
    HasTable (tableWorld fields) (.made 0) "file:///r.csv" ["r.csv"] (tableText fields) where
  location := rfl
  mimetype := rfl
  place := by decide
  reaches := ⟨⟨"/r.csv", by decide +kernel, rfl⟩, rfl⟩
  entry := rfl

/-- The table is read. -/
theorem getData_tableWorld (jobs : Job → Script Value) {fields : List String}
    (hfit : Csv.FitRows (Data.rowsOf ["a"] (fieldRecords fields))) :
    ∃ before u, (getData (.made 0)).run jobs (tableWorld fields) = (.ok before, u) ∧
      u.store.view before = Data.recordList (fieldRecords fields) := by
  have hsame : (fieldRecords fields).map (Data.underColumns ["a"]) = fieldRecords fields := by
    simp [fieldRecords, Data.underColumns, Data.fieldOf]
  obtain ⟨before, u, hget, hview⟩ := getData_of_rowsOf jobs (List.nodup_cons.2 ⟨List.not_mem_nil, .nil⟩)
    (List.cons_ne_nil _ _) hfit (hasTable_tableWorld fields)
  exact ⟨before, u, hget, hsame ▸ hview⟩

/-- A table of two records gets a new column. -/
theorem keepsUnder_of_posted_record_newColumn :
    ∃ v value t after,
      (postData Script.execute (.made 0) (.cell 0)).runAt Job.maxDepth (tableWorld ["1", "2"]) =
        (.ok (.cell 0), v) ∧
      (getData (.made 0)).runAt Job.maxDepth v = (.ok value, t) ∧
      t.store.view value = Data.recordList after ∧ after.length = 3 ∧
      Data.KeepsUnder ["a", "b"] [[("a", "1")], [("a", "2")], [("b", "x")]] after := by
  have htable := hasTable_tableWorld ["1", "2"]
  have hread : Csv.FitRows (Data.rowsOf ["a"] (fieldRecords ["1", "2"])) := by decide
  obtain ⟨before, u, hget, hview⟩ := getData_tableWorld (Job.run Job.maxDepth) hread
  have hposted : ((postData Script.execute (.made 0) (.cell 0)).runAt Job.maxDepth
      (tableWorld ["1", "2"])).1 = .ok (.cell 0) := by
    decide +kernel
  obtain ⟨v, hpost⟩ := exists_eq_of_fst hposted
  have hextension : Media.ofExtension? "file:///r.csv" = some Media.csv.name := by decide
  have hcolumns : Data.columnsOf Data.stableRun (fieldRecords ["1", "2"] ++ [[("b", "x")]]) =
      ["a", "b"] := by
    decide
  have hfits : Csv.Fits [[("b", "x")]] := by decide
  obtain ⟨value, t, after, hagain, hshown, hlength, hkeeps⟩ := keepsUnder_of_posted_record rfl
    htable.place hextension (Or.inr rfl) Nat.one_pos rfl hfits hget (Or.inr hview)
    hpost (by rw [hcolumns]; exact List.cons_ne_nil _ _)
  rw [hcolumns] at hkeeps
  exact ⟨v, value, t, after, hpost, hagain, hshown, hlength, hkeeps⟩

/-- Six records complete a run of five that bring no new key. So the key of a record that is posted
behind them is not gathered: the post is done, and the last record that the resource has then lacks
what was posted. -/
theorem lost_of_posted_record_newColumn :
    ∃ before u v value t,
      (getData (.made 0)).runAt Job.maxDepth (tableWorld ["1", "2", "3", "4", "5", "6"]) =
        (.ok before, u) ∧
      u.store.view before = Data.recordList (fieldRecords ["1", "2", "3", "4", "5", "6"]) ∧
      (postData Script.execute (.made 0) (.cell 0)).runAt Job.maxDepth
        (tableWorld ["1", "2", "3", "4", "5", "6"]) = (.ok (.cell 0), v) ∧
      (getData (.made 0)).runAt Job.maxDepth v = (.ok value, t) ∧
      ∀ after last, t.store.view value = Data.recordList (after ++ [last]) →
        last.lookup "b" ≠ some "x" := by
  have htable := hasTable_tableWorld ["1", "2", "3", "4", "5", "6"]
  have hread : Csv.FitRows (Data.rowsOf ["a"] (fieldRecords ["1", "2", "3", "4", "5", "6"])) := by
    decide
  obtain ⟨before, u, hget, hview⟩ := getData_tableWorld (Job.run Job.maxDepth) hread
  have hposted : ((postData Script.execute (.made 0) (.cell 0)).runAt Job.maxDepth
      (tableWorld ["1", "2", "3", "4", "5", "6"])).1 = .ok (.cell 0) := by
    decide +kernel
  obtain ⟨v, hpost⟩ := exists_eq_of_fst hposted
  have hextension : Media.ofExtension? "file:///r.csv" = some Media.csv.name := by decide
  have hcell : (tableWorld ["1", "2", "3", "4", "5", "6"]).store.cell 0 =
      .map ([("b", "x")].map fun entry ↦ (.text entry.1, .text entry.2)) := rfl
  obtain ⟨path, -, hafter⟩ := postData_eq_record rfl htable.place hextension (Or.inr rfl)
    Nat.one_pos hcell hget (Or.inr hview) hpost
  have hcolumns : Data.columnsOf Data.stableRun
      (fieldRecords ["1", "2", "3", "4", "5", "6"] ++ [[("b", "x")]]) = ["a"] := by
    decide
  rw [hcolumns] at hafter
  have hfit : Csv.FitRows (Data.rowsOf ["a"]
      (fieldRecords ["1", "2", "3", "4", "5", "6"] ++ [[("b", "x")]])) := by
    decide
  obtain ⟨value, t, hagain, hshown⟩ := getData_of_rowsOf (Job.run Job.maxDepth)
    (by decide) (List.cons_ne_nil _ _) hfit hafter
  refine ⟨before, u, v, value, t, hget, hview, hpost, hagain, fun after last hlast ↦ ?_⟩
  have hrecords := Data.recordList_injective (hshown.symm.trans hlast)
  rw [List.map_append] at hrecords
  obtain ⟨-, hlast⟩ := List.append_inj' hrecords rfl
  rw [← List.singleton_inj.1 hlast]
  decide

end Script

end ResourceScript
