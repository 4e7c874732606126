import ResourceScript.Proofs.Media.Records
/-!
# Lists of records in tables

What a table of comma-separated values holds is a list of records of texts (`Csv.recordsOf`), and
reading it adds exactly these: the list is younger than its records, and these hold texts only
(`Script.adds_table`). So one more record can be appended to the list, which then shows it behind the
others (`Store.HoldsList.append`).

The reader refuses fields that are too long, so the names and fields of records that have been read
can be read again (`Csv.fits_of_read`).
-/

set_option autoImplicit false

namespace ResourceScript

open Text

/-! ### Tables that are read -/

namespace Csv

/-- The records of a table: a row of names and a row of fields for each record, but for empty rows. Of
two fields under the same name the last counts. -/
def recordsOf : List (List (List Char)) → List (List (String × String))
  | [] => []
  | header :: rows => (rows.filter fun row ↦ !row.isEmpty).map fun row ↦
      mapOfEntries (· == ·) ((header.zip row).map fun entry ↦
        (String.ofList entry.1, String.ofList entry.2))

theorem checkRow_eq_ok {row checked : List (List Char)} (h : checkRow row = .ok checked) :
    ∀ field ∈ checked, field.length ≤ maxField := by
  unfold checkRow at h
  split at h
  · rename_i hall
    cases h
    simpa using hall
  · cases h

theorem fitRows_of_checkRow {row : List (List Char)} {rows : List (List (List Char))}
    (h : (do return [← checkRow row]) = Except.ok rows) : FitRows rows := by
  obtain ⟨checked, hchecked, heq⟩ := bind_eq_ok h
  cases heq
  exact List.forall_mem_singleton.2 (checkRow_eq_ok hchecked)

/-- The reader answers rows whose fields are not too long. -/
theorem fitRows_of_readFrom {p : Partial} {text : List Char} {rows : List (List (List Char))}
    (h : readFrom p text = .ok rows) : FitRows rows := by
  induction text generalizing p rows with
  | nil =>
    unfold readFrom at h
    dsimp only at h
    split at h
    · cases h
      exact List.forall_mem_nil _
    · split at h <;> exact fitRows_of_checkRow h
  | cons c rest ih =>
    rw [readFrom] at h
    obtain ⟨next, -, h⟩ := bind_eq_ok h
    dsimp only at h
    split at h
    · split at h
      · obtain ⟨checked, hchecked, h⟩ := bind_eq_ok h
        obtain ⟨more, hmore, heq⟩ := bind_eq_ok h
        cases heq
        exact List.forall_mem_cons.2 ⟨checkRow_eq_ok hchecked, ih hmore⟩
      · exact ih h
    · exact ih h

/-- No name and no field of records is longer than the reader takes. -/
def Fits (records : List (List (String × String))) : Prop :=
  ∀ record ∈ records, ∀ entry ∈ record,
    entry.1.toList.length ≤ maxField ∧ entry.2.toList.length ≤ maxField

instance (records : List (List (String × String))) : Decidable (Fits records) :=
  inferInstanceAs (Decidable (∀ record ∈ records, ∀ entry ∈ record,
    entry.1.toList.length ≤ maxField ∧ entry.2.toList.length ≤ maxField))

theorem fits_of_read {text : List Char} {rows : List (List (List Char))}
    (h : read text = .ok rows) : Fits (recordsOf rows) := by
  have hfit : FitRows rows := fitRows_of_readFrom h
  cases rows with
  | nil => nofun
  | cons header rows =>
    intro record hrecord
    obtain ⟨row, hrow, rfl⟩ := List.mem_map.1 hrecord
    refine forall_mem_mapOfEntries (P := fun name : String ↦ name.toList.length ≤ maxField)
      (Q := fun field : String ↦ field.toList.length ≤ maxField) fun entry hentry ↦ ?_
    obtain ⟨⟨name, field⟩, hpair, rfl⟩ := List.mem_map.1 hentry
    obtain ⟨hname, hfield⟩ := List.of_mem_zip hpair
    simp only [String.toList_ofList]
    exact ⟨hfit header List.mem_cons_self name hname,
      hfit row (List.mem_cons_of_mem header (List.mem_of_mem_filter hrow)) field hfield⟩

end Csv

namespace Data

/-- Each column is a key of a record. -/
theorem exists_entry_of_mem_columnsOf {run : Int} {records : List (List (String × String))}
    {name : String} (h : name ∈ columnsOf run records) :
    ∃ record ∈ records, ∃ entry ∈ record, entry.1 = name := by
  obtain ⟨keys, hkeys, hname⟩ := List.mem_flatten.1 (List.mem_eraseDups.1 h)
  obtain ⟨record, hrecord, rfl⟩ := List.mem_map.1 (List.mem_of_mem_take hkeys)
  obtain ⟨entry, hentry, rfl⟩ := List.mem_map.1 hname
  exact ⟨record, hrecord, entry, hentry, rfl⟩

/-- Records that fit are written in rows that fit. -/
theorem fitRows_rowsOf {records : List (List (String × String))} (hfits : Csv.Fits records)
    (run : Int) : Csv.FitRows (rowsOf (columnsOf run records) records) := by
  intro row hrow field hfield
  rcases List.mem_cons.1 hrow with rfl | hrow
  · obtain ⟨name, hname, rfl⟩ := List.mem_map.1 hfield
    obtain ⟨record, hrecord, entry, hentry, rfl⟩ := exists_entry_of_mem_columnsOf hname
    exact (hfits record hrecord entry hentry).1
  · obtain ⟨record, hrecord, rfl⟩ := List.mem_map.1 hrow
    obtain ⟨name, -, rfl⟩ := List.mem_map.1 hfield
    rw [fieldOf]
    cases hvalue : record.lookup name with
    | none => exact Nat.zero_le _
    | some value =>
      obtain ⟨front, back, rfl, -⟩ := List.lookup_eq_some_iff.1 hvalue
      exact (hfits _ hrecord (name, value) (by simp)).2

/-- Under the columns, a record still has the values of its keys that are columns. -/
theorem lookup_underColumns {names : List String} {record : List (String × String)}
    {name value : String} (hname : name ∈ names) (hvalue : record.lookup name = some value) :
    (underColumns names record).lookup name = some value := by
  rw [underColumns]
  induction names with
  | nil => exact absurd hname List.not_mem_nil
  | cons first rest ih =>
    rw [List.map_cons, List.lookup_cons]
    by_cases hfirst : name = first
    · subst hfirst
      simp [fieldOf, hvalue]
    · rw [beq_false_of_ne hfirst]
      exact ih ((List.mem_cons.1 hname).resolve_left hfirst)

end Data

/-! ### Lists in the store -/

namespace Store

variable {s t : Store} {bound n : Nat} {value item : Value} {shown : List Data} {data : Data}

/-- Whether a value is a list that is at a position from a bound on and shows items of data by
containers before it. -/
def HoldsList (s : Store) (bound : Nat) (value : Value) (shown : List Data) : Prop :=
  ∃ n items, value = .cell n ∧ bound ≤ n ∧ n < s.cells.size ∧ s.cell n = .list items ∧
    List.Forall₂ (s.Shows n) items shown

theorem HoldsList.mono (h : s.HoldsList bound value shown) {least : Nat} (hleast : least ≤ bound) :
    s.HoldsList least value shown := by
  obtain ⟨n, items, hvalue, hbound, hrest⟩ := h
  exact ⟨n, items, hvalue, Nat.le_trans hleast hbound, hrest⟩

theorem HoldsList.view (h : s.HoldsList bound value shown) : s.view value = .list shown := by
  obtain ⟨n, items, rfl, -, hn, hcell, hitems⟩ := h
  exact Shown.view ((shows_list hcell hitems).mono hn fun _ _ ↦ rfl)

/-- A list to which an older value is posted shows it behind the others. -/
theorem HoldsList.append (h : s.HoldsList bound value shown) (hitem : s.Shows bound item data) :
    ∃ t, s.postValue value item = .ok (t, true) ∧ (∀ r, t.resource r = s.resource r) ∧
      t.view value = .list (shown ++ [data]) := by
  obtain ⟨n, items, rfl, hbound, hn, hcell, hitems⟩ := h
  have hother (m : Nat) (hm : m < n) : (s.setCell n (.list (items ++ [item]))).cell m = s.cell m := by
    simp [cell, setCell, Array.getD_eq_getD_getElem?, Nat.ne_of_gt hm]
  have hself : (s.setCell n (.list (items ++ [item]))).cell n = .list (items ++ [item]) := by
    simp [cell, setCell, Array.getD_eq_getD_getElem?, hn]
  refine ⟨s.setCell n (.list (items ++ [item])), ?_, fun r ↦ by cases r <;> rfl, ?_⟩
  · rw [postValue]
    simp only [hcell]
  · have hall : List.Forall₂ ((s.setCell n (.list (items ++ [item]))).Shows n) (items ++ [item])
        (shown ++ [data]) :=
      List.rel_append (hitems.imp fun _ _ hshows ↦ hshows.mono (Nat.le_refl n) hother)
        (.cons (hitem.mono hbound fun m hm ↦ hother m (Nat.lt_of_lt_of_le hm hbound)) .nil)
    have hsize : n < (s.setCell n (.list (items ++ [item]))).cells.size := by simpa [setCell] using hn
    exact Shown.view ((shows_list hself hall).mono hsize fun _ _ ↦ rfl)

/-- A map of texts shows the texts. -/
theorem shows_textMap {entries : List (String × String)}
    (hcell : s.cell n = .map (entries.map fun entry ↦ (.text entry.1, .text entry.2)))
    (hn : n < bound) : s.Shows bound (.cell n) (Data.textMap entries) := by
  refine (shows_map hcell ?_).mono hn fun _ _ ↦ rfl
  exact List.forall₂_map_left_iff.2 (List.forall₂_map_right_iff.2
    (List.forall₂_same.2 fun _ _ ↦ ⟨shows_atom _ _ _, shows_atom _ _ _⟩))

end Store

namespace Script

variable {w : World}

/-- A new list is younger than all that there was. -/
theorem adds_newList_holds {items : List Value} {shown : List Data}
    (hitems : List.Forall₂ w.store.Shown items shown) :
    Adds w (newList items) fun s value ↦ s.HoldsList w.store.cells.size value shown := by
  intro jobs
  have hgrows : w.Grows { w with
      store := { w.store with cells := w.store.cells.push (.list items) } } := ⟨#[.list items], rfl⟩
  refine ⟨.cell w.store.cells.size, _, rfl, hgrows, w.store.cells.size, items, rfl,
    Nat.le_refl _, ?_, ?_, hitems.imp fun _ _ hshown ↦ hshown.mono (Nat.le_refl _) fun _ ↦ hgrows.cell⟩
  · show _ < (w.store.cells.push (.list items)).size
    rw [Array.size_push]
    exact Nat.lt_succ_self _
  · show (w.store.cells.push (.list items)).getD w.store.cells.size _ = _
    simp [Array.getD_eq_getD_getElem?]

theorem recordOf_eq (header row : List (List Char)) :
    recordOf header row = (mapOfEntries (· == ·) ((header.zip row).map fun entry ↦
      (String.ofList entry.1, String.ofList entry.2))).map
        fun entry ↦ (.text entry.1, .text entry.2) := by
  rw [← mapOfEntries_map_text (fun _ _ ↦ false), recordOf, List.map_map]
  rfl

/-- Reading a table adds the list of its records. -/
theorem adds_table (rows : List (List (List Char))) (w : World) :
    Adds w (newRecords rows) fun s value ↦
      s.HoldsList w.store.cells.size value ((Csv.recordsOf rows).map Data.textMap) := by
  cases rows with
  | nil => exact adds_newList_holds .nil
  | cons header rows =>
    have hmaps (w : World) : Adds w
        ((rows.filter fun row ↦ !row.isEmpty).mapM fun row ↦ newMap (recordOf header row))
        fun s items ↦ List.Forall₂ s.Shown items ((Csv.recordsOf (header :: rows)).map Data.textMap) := by
      rw [Csv.recordsOf, List.map_map]
      refine adds_mapM (fun row _ w ↦ ?_) w
      rw [recordOf_eq]
      exact adds_newMap_text _ w
    refine (hmaps w).bind fun items v hgrows hitems jobs ↦ ?_
    obtain ⟨value, u, hrun, hafter, hholds⟩ := adds_newList_holds hitems jobs
    exact ⟨value, u, hrun, hafter, hholds.mono hgrows.size_le⟩

end Script

end ResourceScript
