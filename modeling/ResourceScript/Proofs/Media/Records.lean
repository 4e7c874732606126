import Mathlib.Data.List.Induction
import ResourceScript.Proofs.Format.Csv
import ResourceScript.Proofs.Media.RoundTrip
/-!
# Records that are read back from comma-separated values

The columns of records are their keys in order of first appearance, but only up to the first record
that completes a run of records which bring no new key (`Data.columns`). Gathering computes them in
one pass (`Data.gatherFields_eq_columns`): after each record it has the keys so far, and it counts
how many records at the end brought nothing (`Data.IsStable`).

Records of texts are read back as they are under these columns, with the empty text where a record
lacks a key (`Media.makes_decode_toCsv`), unless a field is longer than the reader takes.
-/

set_option autoImplicit false

namespace ResourceScript

open Text

namespace Data

/-! ### Columns -/

section Columns

variable {run : Int} {keys : List (List String)} {n stable : Nat}

/-- Whether a record brings no key that the records before it lack. -/
def BringsNothing (keys : List (List String)) (i : Nat) : Prop :=
  ∀ key ∈ keys.getD i [], key ∈ (keys.take i).flatten

/-- Whether the first records end in a run of records that bring nothing. -/
def CompletesRun (run : Int) (keys : List (List String)) (n : Nat) : Prop :=
  run ≤ n ∧ ∀ i < n, (n : Int) ≤ i + run → BringsNothing keys i

instance (keys : List (List String)) (i : Nat) : Decidable (BringsNothing keys i) :=
  inferInstanceAs (Decidable (∀ key ∈ keys.getD i [], key ∈ (keys.take i).flatten))

instance (run : Int) (keys : List (List String)) (n : Nat) : Decidable (CompletesRun run keys n) :=
  inferInstanceAs (Decidable (_ ∧ ∀ i < n, (n : Int) ≤ i + run → BringsNothing keys i))

/-- The columns of records with the given keys: the keys in order of first appearance, up to the
first record that completes a run of records that bring nothing. -/
def columns (run : Int) (keys : List (List String)) : List String :=
  let count := ((List.range' 1 keys.length).find? fun n ↦ CompletesRun run keys n).getD keys.length
  (keys.take count).flatten.eraseDups

theorem columns_of_first (hn : 1 ≤ n) (hlength : n ≤ keys.length)
    (hcompletes : CompletesRun run keys n)
    (hfirst : ∀ m, 1 ≤ m → m < n → ¬ CompletesRun run keys m) :
    columns run keys = (keys.take n).flatten.eraseDups := by
  have hfind : (List.range' 1 keys.length).find? (fun n ↦ CompletesRun run keys n) = some n := by
    rw [List.find?_range'_eq_some]
    refine ⟨decide_eq_true hcompletes, List.mem_range'_1.2 ⟨hn, by omega⟩, fun m hm hlt ↦ ?_⟩
    rw [decide_eq_false (hfirst m hm hlt)]
    rfl
  rw [columns, hfind]
  rfl

theorem columns_of_none (hnone : ∀ m, 1 ≤ m → m ≤ keys.length → ¬ CompletesRun run keys m) :
    columns run keys = keys.flatten.eraseDups := by
  have hfind : (List.range' 1 keys.length).find? (fun n ↦ CompletesRun run keys n) = none := by
    rw [List.find?_range'_eq_none]
    intro m hm hlt
    rw [decide_eq_false (hnone m hm (by omega))]
    rfl
  rw [columns, hfind]
  show (keys.take keys.length).flatten.eraseDups = _
  rw [List.take_length]

/-! ### Runs of records that bring nothing -/

/-- Whether a number counts the records in a row, the last of the first records among them, that
bring nothing. -/
structure IsStable (keys : List (List String)) (n stable : Nat) : Prop where
  /-- They are among the first records. -/
  le : stable ≤ n
  /-- They bring nothing. -/
  nothing : ∀ i < n, n ≤ i + stable → BringsNothing keys i
  /-- The record in front of them brings something. -/
  something : ∀ i, i + stable + 1 = n → ¬ BringsNothing keys i

theorem isStable_zero (keys : List (List String)) : IsStable keys 0 0 :=
  ⟨Nat.le_refl 0, fun _ hi ↦ absurd hi (Nat.not_lt_zero _), fun _ hi ↦ absurd hi (by omega)⟩

/-- The count decides whether a run is completed. -/
theorem IsStable.completesRun_iff (hstable : IsStable keys n stable) :
    CompletesRun run keys n ↔ run ≤ stable := by
  constructor
  · rintro ⟨hrun, hnothing⟩
    by_contra hlarge
    obtain ⟨i, hi⟩ : ∃ i, i + stable + 1 = n := ⟨n - stable - 1, by omega⟩
    exact hstable.something i hi (hnothing i (by omega) (by omega))
  · intro hrun
    have hle := hstable.le
    exact ⟨by omega, fun i hi hlast ↦ hstable.nothing i hi (by omega)⟩

/-- One more record goes into the count, or starts it again. -/
theorem IsStable.step (hstable : IsStable keys n stable) :
    IsStable keys (n + 1) (if BringsNothing keys n then stable + 1 else 0) := by
  have hle := hstable.le
  by_cases hn : BringsNothing keys n
  · rw [if_pos hn]
    refine ⟨by omega, fun i hi hlast ↦ ?_, fun i hi ↦ hstable.something i (by omega)⟩
    rcases Nat.lt_succ_iff_lt_or_eq.1 hi with hi | rfl
    · exact hstable.nothing i hi (by omega)
    · exact hn
  · rw [if_neg hn]
    refine ⟨by omega, fun i hi hlast ↦ absurd hlast (by omega), fun i hi ↦ ?_⟩
    obtain rfl : i = n := by omega
    exact hn

end Columns

/-! ### Gathering -/

/-- More keys do not lengthen a list without repetitions exactly if they are all there. -/
theorem length_eraseDups_append_iff (names more : List String) :
    (names ++ more).eraseDups.length = names.eraseDups.length ↔ ∀ key ∈ more, key ∈ names := by
  rw [List.eraseDups_append, List.length_append]
  constructor
  · intro hlength key hkey
    have hnil : (more.removeAll names).eraseDups = [] := List.length_eq_zero_iff.1 (by omega)
    by_contra hnew
    have hmem : key ∈ (more.removeAll names).eraseDups := by
      simp [List.removeAll, hkey, hnew]
    rw [hnil] at hmem
    exact absurd hmem List.not_mem_nil
  · intro hall
    have hnil : more.removeAll names = [] := by
      simpa [List.removeAll] using hall
    rw [hnil]
    rfl

theorem sameKey_text (s t : String) : sameKey (text s) (text t) = (s == t) := by
  rw [sameKey]
  rfl

/-- The entries of a record of texts. -/
def textRecord (record : List (String × String)) : List (Data × Data) :=
  record.map fun entry ↦ (.text entry.1, .text entry.2)

/-- The keys of a record of texts are gathered in order of first appearance. -/
theorem gatherKeys_textRecord (names : List String) (record : List (String × String)) :
    gatherKeys (names.eraseDups.map text) (textRecord record) =
      (names ++ record.map Prod.fst).eraseDups.map text := by
  induction record generalizing names with
  | nil => rw [List.map_nil, List.append_nil]; rfl
  | cons entry rest ih =>
    have hany : (names.eraseDups.map text).any (sameKey (.text entry.1)) =
        decide (entry.1 ∈ names) := by
      rw [List.any_map, Bool.eq_iff_iff, List.any_eq_true, decide_eq_true_iff]
      simp [sameKey_text]
    have hfirst : (if (names.eraseDups.map text).any (sameKey (.text entry.1)) = true then
        names.eraseDups.map text else names.eraseDups.map text ++ [text entry.1]) =
          (names ++ [entry.1]).eraseDups.map text := by
      rw [hany, eraseDups_concat]
      by_cases hmem : entry.1 ∈ names
      · simp [hmem]
      · simp [hmem]
    have happend : names ++ (entry :: rest).map Prod.fst =
        names ++ [entry.1] ++ rest.map Prod.fst := by simp
    rw [happend, ← ih, gatherKeys, textRecord, List.map_cons, List.foldl_cons, hfirst]
    rfl

/-- A record leaves the number of keys as it is exactly if it brings nothing. -/
theorem length_gatherKeys_iff (names : List String) (record : List (String × String)) :
    (gatherKeys (names.eraseDups.map text) (textRecord record)).length =
      (names.eraseDups.map text).length ↔ ∀ key ∈ record.map Prod.fst, key ∈ names := by
  rw [gatherKeys_textRecord, List.length_map, List.length_map, length_eraseDups_append_iff]

theorem bringsNothing_append (done : List (List String)) (more : List String)
    (rest : List (List String)) :
    BringsNothing (done ++ more :: rest) done.length ↔ ∀ key ∈ more, key ∈ done.flatten := by
  simp [BringsNothing]

/-- The columns begin with the keys of the records that are gathered, and with the next record the
count goes on as it should. -/
theorem gatherFields_textRecord {run : Int} (done : List (List String)) {stable : Nat}
    (record : List (String × String)) (rest : List (List (String × String))) :
    let keys := done ++ record.map Prod.fst :: rest.map fun record ↦ record.map Prod.fst
    let next := done ++ [record.map Prod.fst]
    let count := if BringsNothing keys done.length then stable + 1 else 0
    gatherFields run (done.flatten.eraseDups.map text) stable ((record :: rest).map textRecord) =
      if run ≤ count then next.flatten.eraseDups.map text
      else gatherFields run (next.flatten.eraseDups.map text) count (rest.map textRecord) := by
  intro keys next count
  have hmore : gatherKeys (done.flatten.eraseDups.map text) (textRecord record) =
      next.flatten.eraseDups.map text := by
    rw [gatherKeys_textRecord, List.flatten_append, List.flatten_singleton]
  have hnothing := (length_gatherKeys_iff done.flatten record).trans
    (bringsNothing_append done _ (rest.map fun record ↦ record.map Prod.fst)).symm
  have hcount : (if (gatherKeys (done.flatten.eraseDups.map text) (textRecord record)).length =
      (done.flatten.eraseDups.map text).length then (stable : Int) + 1 else 0) = count := by
    by_cases hn : BringsNothing keys done.length
    · have hmoreCount : count = stable + 1 := if_pos hn
      rw [if_pos (hnothing.2 hn), hmoreCount]
      rfl
    · have hzero : count = 0 := if_neg hn
      rw [if_neg (mt hnothing.1 hn), hzero]
      rfl
  rw [List.map_cons, gatherFields]
  simp only [hcount]
  rw [hmore]

/-- What is gathered from the remaining records, after records whose keys and count are at hand and
among which none completes a run. -/
theorem gatherFields_rest {run : Int} {keys : List (List String)} (done : List (List String))
    {rest : List (List (String × String))} {stable : Nat}
    (hkeys : keys = done ++ rest.map fun record ↦ record.map Prod.fst)
    (hstable : IsStable keys done.length stable)
    (hnone : ∀ m, 1 ≤ m → m ≤ done.length → ¬ CompletesRun run keys m) :
    gatherFields run (done.flatten.eraseDups.map text) stable (rest.map textRecord) =
      (columns run keys).map text := by
  induction rest generalizing done stable with
  | nil =>
    rw [List.map_nil, List.append_nil] at hkeys
    subst hkeys
    rw [columns_of_none hnone]
    rfl
  | cons record rest ih =>
    have hsplit : keys = done ++ [record.map Prod.fst] ++
        rest.map fun record ↦ record.map Prod.fst := by simpa using hkeys
    have hnext : IsStable keys (done ++ [record.map Prod.fst]).length
        (if BringsNothing keys done.length then stable + 1 else 0) := by
      rw [List.length_append]
      exact hstable.step
    rw [gatherFields_textRecord, ← List.map_cons, ← hkeys]
    by_cases hcompletes : CompletesRun run keys (done ++ [record.map Prod.fst]).length
    · rw [if_pos (hnext.completesRun_iff.1 hcompletes), columns_of_first (by simp) (by simp [hkeys])
        hcompletes fun m hm hlt ↦ hnone m hm (by simpa [Nat.lt_succ_iff] using hlt), hsplit,
        List.take_left]
    · rw [if_neg (mt hnext.completesRun_iff.2 hcompletes)]
      refine ih _ hsplit hnext fun m hm hle ↦ ?_
      rcases Nat.le_iff_lt_or_eq.1 hle with hlt | rfl
      · exact hnone m hm (by simpa [Nat.lt_succ_iff] using hlt)
      · exact hcompletes

/-- The fields that are gathered are the columns. -/
theorem gatherFields_eq_columns (run : Int) (records : List (List (String × String))) :
    gatherFields run [] 0 (records.map textRecord) =
      (columns run (records.map fun record ↦ record.map Prod.fst)).map text :=
  gatherFields_rest [] rfl (isStable_zero _) fun _ hm hle ↦
    absurd (Nat.le_trans hm hle) (Nat.not_succ_le_zero 0)

/-! ### Tables -/

/-- A list of records of texts. -/
def recordList (records : List (List (String × String))) : Data :=
  .list (records.map textMap)

/-- The columns of records of texts. -/
def columnsOf (run : Int) (records : List (List (String × String))) : List String :=
  columns run (records.map fun record ↦ record.map Prod.fst)

/-- The text of a record in a column: empty when the record has no such key. -/
def fieldOf (record : List (String × String)) (name : String) : String :=
  (record.lookup name).getD ""

/-- A record under given columns. -/
def underColumns (names : List String) (record : List (String × String)) : List (String × String) :=
  names.map fun name ↦ (name, fieldOf record name)

/-- The rows of texts for records under given columns: the columns and a row for each record. -/
def rowsOf (names : List String) (records : List (List (String × String))) :
    List (List (List Char)) :=
  names.map String.toList :: records.map fun record ↦
    names.map fun name ↦ (fieldOf record name).toList

theorem rowsOf_ne_nil {names : List String} (hne : names ≠ [])
    (records : List (List (String × String))) : ∀ row ∈ rowsOf names records, row ≠ [] := by
  intro row hrow
  rcases List.mem_cons.1 hrow with rfl | hrow
  · simpa using hne
  · obtain ⟨record, -, rfl⟩ := List.mem_map.1 hrow
    simpa using hne

theorem findEntry_textRecord (name : String) (record : List (String × String)) :
    findEntry sameKey (text name) (textRecord record) = (record.lookup name).map text := by
  induction record with
  | nil => rfl
  | cons entry rest ih =>
    obtain ⟨key, value⟩ := entry
    show (if sameKey (text key) (text name) = true then _ else _) = _
    rw [sameKey_text, List.lookup_cons]
    by_cases hkey : key = name
    · simp [hkey]
    · rw [beq_false_of_ne hkey, beq_false_of_ne (Ne.symm hkey)]
      exact ih

/-- The text of a record in a column is written as it is. -/
theorem render_findEntry (name : String) (record : List (String × String)) :
    ((findEntry sameKey (text name) (textRecord record)).getD .null).render =
      .ok (fieldOf record name).toList := by
  rw [findEntry_textRecord, fieldOf]
  cases record.lookup name with
  | none =>
    rw [render.eq_def]
    rfl
  | some value => exact render_text value

theorem toCsv_recordList (run : Int) (records : List (List (String × String))) :
    (recordList records).toCsv run =
      .ok (Csv.write (rowsOf (columnsOf run records) records)) := by
  have hrecords : (recordList records).records = records.map textRecord := by
    show (records.map textMap).map mapEntries = _
    rw [List.map_map]
    rfl
  have hheader : ((columnsOf run records).map text).mapM render =
      .ok ((columnsOf run records).map String.toList) := by
    rw [List.mapM_map]
    exact mapM_eq_ok fun name _ ↦ render_text name
  have hrows : (records.map textRecord).mapM (fun record ↦
      ((columnsOf run records).map text).mapM fun field ↦
        ((findEntry sameKey field record).getD .null).render) =
      .ok (records.map fun record ↦
        (columnsOf run records).map fun name ↦ (fieldOf record name).toList) := by
    rw [List.mapM_map]
    refine mapM_eq_ok fun record _ ↦ ?_
    show ((columnsOf run records).map text).mapM _ = _
    rw [List.mapM_map]
    exact mapM_eq_ok fun name _ ↦ render_findEntry name record
  rw [toCsv]
  simp only [hrecords, gatherFields_eq_columns]
  rw [← columnsOf, hheader]
  simp only [hrows]
  rfl

end Data

/-! ### Reading tables -/

namespace Script

/-- A row under a header of distinct names makes the record of the names and fields. -/
theorem recordOf_map {names : List String} (hnames : names.Nodup) (field : String → String) :
    recordOf (names.map String.toList) (names.map fun name ↦ (field name).toList) =
      (names.map fun name ↦ (name, field name)).map fun entry ↦ (.text entry.1, .text entry.2) := by
  have hkeys : ((names.map fun name ↦ (name, field name)).map Prod.fst).Nodup := by
    simpa [Function.comp_def] using hnames
  rw [← mapOfEntries_text hkeys fun _ _ ↦ false, recordOf, List.zip_map', List.map_map,
    List.map_map]
  simp only [Function.comp_def, String.ofList_toList]

/-- The rows of records under distinct columns make the records under these columns. -/
theorem makes_newRecords {names : List String} (hnames : names.Nodup) (hne : names ≠ [])
    (records : List (List (String × String))) :
    Makes (newRecords (Data.rowsOf names records))
      (Data.recordList (records.map (Data.underColumns names))) := by
  have hfilled : (records.map fun record ↦
      names.map fun name ↦ (Data.fieldOf record name).toList).filter (fun row ↦ !row.isEmpty) =
        records.map fun record ↦ names.map fun name ↦ (Data.fieldOf record name).toList := by
    rw [List.filter_eq_self]
    intro row hrow
    obtain ⟨record, -, rfl⟩ := List.mem_map.1 hrow
    simpa using hne
  have hread : newRecords (Data.rowsOf names records) = (do
      newList (← records.mapM fun record ↦ newMap ((Data.underColumns names record).map
        fun entry ↦ (.text entry.1, .text entry.2)))) := by
    rw [Data.rowsOf, newRecords, hfilled, List.mapM_map]
    simp only [Function.comp_def, recordOf_map hnames]
    rfl
  rw [hread]
  refine makes_of_adds fun w ↦ (adds_mapM (g := fun record ↦
    Data.textMap (Data.underColumns names record)) (fun record _ w ↦ ?_) w).bind
      fun _ _ _ hvalues ↦ ?_
  · exact adds_newMap_text _ w
  · rw [Data.recordList, List.map_map]
    exact adds_newList hvalues

end Script

namespace Media

/-- Records of texts are written as comma-separated values, and what reads the text makes the
records with their columns, if there are columns and no name or field is longer than the reader
takes. If one is longer, the reader fails. -/
theorem makes_decode_toCsv (run : Int) (records : List (List (String × String)))
    (hcolumns : Data.columnsOf run records ≠ []) :
    ∃ text, (Data.recordList records).toCsv run = .ok text ∧
      (Csv.FitRows (Data.rowsOf (Data.columnsOf run records) records) →
        Script.Makes (Script.decode (some csv.name) (.text text))
          (Data.recordList (records.map (Data.underColumns (Data.columnsOf run records))))) ∧
      (¬ Csv.FitRows (Data.rowsOf (Data.columnsOf run records) records) →
        Script.decode (some csv.name) (.text text) = Script.fail .csv) := by
  have hrows := Data.rowsOf_ne_nil hcolumns records
  have hdecode : ∀ text, Script.decode (some csv.name) (.text text) = (do
      Script.newRecords (← Script.ofExcept (Csv.read text))) := by
    intro text
    rw [Script.decode, ofContentType?_name]
    rfl
  refine ⟨_, Data.toCsv_recordList run records, fun hfit ↦ ?_, fun hfit ↦ ?_⟩
  · rw [hdecode, Csv.read_write_of_fitRows hrows hfit]
    exact Script.makes_newRecords (nodup_eraseDups _) hcolumns records
  · rw [hdecode, Csv.read_write_of_not_fitRows hrows hfit]
    rfl

/-- A lone column with an empty name and fields that are empty, quoted or broken: the second record
completes a run, so the key of the third is no column. -/
theorem makes_decode_toCsv_loneColumn :
    let records : List (List (String × String)) :=
      [[("", "")], [("", "\r\n\"")], [("b", ","), ("", "x")]]
    Data.columnsOf 1 records ≠ [] ∧
      Csv.FitRows (Data.rowsOf (Data.columnsOf 1 records) records) ∧
      ∃ text, (Data.recordList records).toCsv 1 = .ok text ∧
        Script.Makes (Script.decode (some csv.name) (.text text))
          (Data.recordList [[("", "")], [("", "\r\n\"")], [("", "x")]]) := by
  intro records
  have hcolumns : Data.columnsOf 1 records ≠ [] := by decide
  have hfit : Csv.FitRows (Data.rowsOf (Data.columnsOf 1 records) records) := by
    decide
  obtain ⟨text, htext, hmakes, -⟩ := makes_decode_toCsv 1 records hcolumns
  exact ⟨hcolumns, hfit, text, htext, hmakes hfit⟩

end Media

end ResourceScript
