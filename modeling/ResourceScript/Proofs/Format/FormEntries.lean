import ResourceScript.Format.Form
import ResourceScript.Proofs.Scope.Grouped
import ResourceScript.Proofs.Text.Pieces
/-!
# Every entry of a form is kept

A form is read entry by entry. What has been read so far has each key once, where it occurred first,
with its only value or with the list of all its values, and it knows which keys are repeated
(`Gathered.Holds`). One more entry keeps this (`Gathered.Holds.add`), also when values are lists
themselves, because the repeated keys tell lists of values from values that are lists. So the whole
form is its entries grouped by their keys (`entries_foldl_add`), and reading fails only at a value
that cannot be read (`read_keeps_entries`).
-/

set_option autoImplicit false

namespace ResourceScript.Form

open Text

/-! ### One more entry -/

namespace Gathered

variable {gathered : Gathered} {entries : List (String × Plain)} {key : String} {value : Plain}

/-- What has been read of entries: they are grouped by their keys, and the keys with more than one
value are known. -/
structure Holds (gathered : Gathered) (entries : List (String × Plain)) : Prop where
  /-- The entries are grouped. -/
  kept : gathered.entries = grouped id entries
  /-- The repeated keys have several values. -/
  repeated : ∀ key, key ∈ gathered.repeated ↔ 2 ≤ (valuesOf key entries).length

theorem holds_empty : Holds empty [] :=
  ⟨rfl, fun _ ↦ ⟨nofun, nofun⟩⟩

theorem sameKey (a b : String) : (id a == id b) = decide (a = b) :=
  beq_eq_decide a b

/-- Adding an entry changes the values of its key and of no other. -/
theorem two_le_concat_iff (key other : String) (value : Plain) :
    2 ≤ (valuesOf other (entries ++ [(key, value)])).length ↔
      2 ≤ (valuesOf other entries).length ∨ other = key ∧ key ∈ entries.map Prod.fst := by
  by_cases hother : other = key
  · subst hother
    have hsome : 0 < (valuesOf other entries).length ↔ other ∈ entries.map Prod.fst := by
      rw [List.length_pos_iff, Ne, valuesOf_eq_nil_iff, not_not]
    rw [valuesOf_concat_self, List.length_append, List.length_singleton, ← hsome]
    simp only [true_and]
    omega
  · rw [valuesOf_concat_of_ne hother]
    simp [hother]

theorem add_of_new (hnew : findEntry (· == ·) key gathered.entries = none) :
    gathered.add (key, value) =
      { gathered with entries := putEntry (· == ·) key value gathered.entries } := by
  simp only [add, hnew]

theorem add_of_repeated {old : Plain} (hold : findEntry (· == ·) key gathered.entries = some old)
    (hrepeated : key ∈ gathered.repeated) :
    gathered.add (key, value) =
      { gathered with entries := putEntry (· == ·) key (listed value old) gathered.entries } := by
  simp only [add, hold, List.contains_iff_mem.2 hrepeated, if_true]

theorem add_of_single {old : Plain} (hold : findEntry (· == ·) key gathered.entries = some old)
    (hsingle : key ∉ gathered.repeated) :
    gathered.add (key, value) =
      ⟨putEntry (· == ·) key (.list [old, value]) gathered.entries, key :: gathered.repeated⟩ := by
  simp only [add, hold, mt List.contains_iff_mem.1 hsingle, Bool.false_eq_true, if_false]

namespace Holds

variable (h : gathered.Holds entries)

include h

/-- A new key has the value for its only one. -/
theorem add_new (hkey : key ∉ entries.map Prod.fst) (value : Plain) :
    (gathered.add (key, value)).Holds (entries ++ [(key, value)]) := by
  have hnone : findEntry (· == ·) key gathered.entries = none := by
    rw [h.kept]
    exact findEntry_grouped_of_new id sameKey hkey
  rw [add_of_new hnone, h.kept]
  refine ⟨putEntry_grouped_of_new id sameKey hkey value, fun other ↦ (h.repeated other).trans ?_⟩
  rw [two_le_concat_iff]
  exact ⟨Or.inl, fun hor ↦ hor.elim id fun hother ↦ absurd hother.2 hkey⟩

/-- What is found under a known key. -/
theorem findEntry_eq (hkey : key ∈ entries.map Prod.fst) :
    findEntry (· == ·) key gathered.entries = some (joined (valuesOf key entries)) := by
  rw [h.kept]
  exact findEntry_grouped id sameKey hkey

/-- A repeated key has a list of values already, to which the value is added. -/
theorem add_repeated (hkey : key ∈ entries.map Prod.fst)
    (htwo : 2 ≤ (valuesOf key entries).length) (value : Plain) :
    (gathered.add (key, value)).Holds (entries ++ [(key, value)]) := by
  have hlisted : listed value (joined (valuesOf key entries)) =
      joined (valuesOf key entries ++ [value]) := by
    rw [joined_of_two_le htwo, joined_of_two_le (by simpa using Nat.le_succ_of_le htwo)]
    rfl
  rw [add_of_repeated (h.findEntry_eq hkey) ((h.repeated key).2 htwo), hlisted, h.kept]
  refine ⟨putEntry_grouped id sameKey hkey value, fun other ↦ (h.repeated other).trans ?_⟩
  rw [two_le_concat_iff]
  exact ⟨Or.inl, fun hor ↦ hor.elim id fun hother ↦ hother.1 ▸ htwo⟩

/-- The value of a key that is not repeated is its only one, even if it is a list. -/
theorem add_single (hkey : key ∈ entries.map Prod.fst)
    (hone : ¬ 2 ≤ (valuesOf key entries).length) (value : Plain) :
    (gathered.add (key, value)).Holds (entries ++ [(key, value)]) := by
  have hsome : valuesOf key entries ≠ [] := fun hnil ↦ valuesOf_eq_nil_iff.1 hnil hkey
  have hold := (joined_cases hsome).resolve_right fun htwo ↦ hone htwo.1
  have hput := putEntry_grouped id sameKey hkey value
  rw [hold] at hput
  rw [add_of_single (h.findEntry_eq hkey) (mt (h.repeated key).1 hone), h.kept]
  refine ⟨hput, fun other ↦ ?_⟩
  rw [two_le_concat_iff, List.mem_cons, h.repeated other, or_comm]
  exact or_congr_right ⟨fun hother ↦ ⟨hother, hkey⟩, And.left⟩

/-- One more entry is grouped with the others. -/
theorem add (entry : String × Plain) : (gathered.add entry).Holds (entries ++ [entry]) := by
  obtain ⟨key, value⟩ := entry
  by_cases hkey : key ∈ entries.map Prod.fst
  · by_cases htwo : 2 ≤ (valuesOf key entries).length
    · exact h.add_repeated hkey htwo value
    · exact h.add_single hkey htwo value
  · exact h.add_new hkey value

end Holds

theorem holds_foldl (entries : List (String × Plain)) :
    (entries.foldl add empty).Holds entries := by
  induction entries using List.reverseRecOn with
  | nil => exact holds_empty
  | append_singleton entries entry ih =>
    rw [List.foldl_concat]
    exact ih.add entry

end Gathered

/-- The entries that are gathered one by one are grouped by their keys. -/
theorem entries_foldl_add (entries : List (String × Plain)) :
    (entries.foldl Gathered.add .empty).entries = grouped id entries :=
  (Gathered.holds_foldl entries).kept

/-! ### The whole form -/

/-- The parts of a form: what stands between ampersands, unless it is empty. White space at both ends
of the form does not count. -/
def parts (text : List Char) : List (List Char) :=
  (splitOn '&' (trim text)).filter fun part ↦ !part.isEmpty

/-- What a part of a form is an entry of: a key with the value true, or a key and the value of a
text, between which the first equals sign stands. -/
inductive IsEntry : List Char → String × Plain → Prop
  /-- A part without an equals sign. -/
  | flag {part : List Char} (hpart : '=' ∉ part) :
    IsEntry part (String.ofList (Percent.decodeQuery part), .bool true)
  /-- A key and the text of a value. -/
  | pair {key text : List Char} {value : Plain} (hkey : '=' ∉ key)
    (hvalue : typed (Percent.decodeQuery text) = .ok value) :
    IsEntry (key ++ '=' :: text) (String.ofList (Percent.decodeQuery key), value)

/-- Whether a part of a form has a value that cannot be read. -/
def IsUnreadable (part : List Char) : Prop :=
  ∃ key text fault, '=' ∉ key ∧ part = key ++ '=' :: text ∧
    typed (Percent.decodeQuery text) = .error fault

theorem entry_flag {part : List Char} (hpart : '=' ∉ part) :
    entry part = .ok (String.ofList (Percent.decodeQuery part), .bool true) := by
  rw [entry, cutAt_eq_none hpart]

theorem entry_pair {key : List Char} (hkey : '=' ∉ key) (text : List Char) :
    entry (key ++ '=' :: text) =
      (typed (Percent.decodeQuery text)).map (String.ofList (Percent.decodeQuery key), ·) := by
  rw [entry, cutAt_append hkey]
  rfl

/-- A part is read as what it is an entry of. -/
theorem entry_eq_ok_iff {part : List Char} {found : String × Plain} :
    entry part = .ok found ↔ IsEntry part found := by
  constructor
  · intro h
    by_cases hmem : '=' ∈ part
    · obtain ⟨key, text, rfl, hkey⟩ := List.eq_append_cons_of_mem hmem
      rw [entry_pair hkey] at h
      obtain ⟨value, hvalue, rfl⟩ := map_eq_ok h
      exact .pair hkey hvalue
    · rw [entry_flag hmem] at h
      cases h
      exact .flag hmem
  · intro h
    cases h with
    | flag hpart => exact entry_flag hpart
    | pair hkey hvalue =>
      rw [entry_pair hkey, hvalue]
      rfl

theorem exists_entry_or_isUnreadable (part : List Char) :
    (∃ found, entry part = .ok found) ∨ IsUnreadable part := by
  by_cases hmem : '=' ∈ part
  · obtain ⟨key, text, rfl, hkey⟩ := List.eq_append_cons_of_mem hmem
    rcases hvalue : typed (Percent.decodeQuery text) with fault | value
    · exact Or.inr ⟨key, text, fault, hkey, rfl, hvalue⟩
    · exact Or.inl ⟨_, entry_eq_ok_iff.2 (.pair hkey hvalue)⟩
  · exact Or.inl ⟨_, entry_flag hmem⟩

theorem IsUnreadable.entry_ne {part : List Char} (h : IsUnreadable part) (found : String × Plain) :
    entry part ≠ .ok found := by
  obtain ⟨key, text, fault, hkey, rfl, hvalue⟩ := h
  rw [entry_pair hkey, hvalue]
  nofun

/-- The parts are read as their entries. -/
theorem mapM_entry_eq_ok_iff {texts : List (List Char)} {entries : List (String × Plain)} :
    texts.mapM entry = .ok entries ↔ List.Forall₂ IsEntry texts entries := by
  induction texts generalizing entries with
  | nil =>
    rw [List.forall₂_nil_left_iff]
    exact ⟨fun h ↦ (Except.ok.inj h).symm, fun h ↦ h ▸ rfl⟩
  | cons part rest ih =>
    rw [List.mapM_cons, List.forall₂_cons_left_iff]
    constructor
    · intro h
      obtain ⟨found, hfound, h⟩ := bind_eq_ok h
      obtain ⟨more, hmore, h⟩ := bind_eq_ok h
      cases h
      exact ⟨found, more, entry_eq_ok_iff.1 hfound, ih.1 hmore, rfl⟩
    · rintro ⟨found, more, hfound, hmore, rfl⟩
      rw [entry_eq_ok_iff.2 hfound, ih.2 hmore]
      rfl

theorem exists_entry_of_mem {texts : List (List Char)} {entries : List (String × Plain)}
    (hentries : List.Forall₂ IsEntry texts entries) {part : List Char} (hpart : part ∈ texts) :
    ∃ found, IsEntry part found := by
  induction hentries with
  | nil => cases hpart
  | cons hfound _ ih =>
    rcases List.mem_cons.1 hpart with rfl | hrest
    · exact ⟨_, hfound⟩
    · exact ih hrest

/-- A form is read as its entries grouped by their keys. -/
theorem read_eq (text : List Char) : read text = ((parts text).mapM entry).map (grouped id) := by
  show ((parts text).mapM entry >>= fun entries ↦
    pure (entries.foldl Gathered.add .empty).entries) = _
  simp only [entries_foldl_add]
  cases (parts text).mapM entry <;> rfl

/-- A map is the grouped entries if it has their keys in the order of their first occurrence, each
with its only value or the list of all its values. -/
theorem eq_grouped_iff {entries map : List (String × Plain)} : map = grouped id entries ↔
    map.map Prod.fst = (entries.map Prod.fst).eraseDups ∧ ∀ entry ∈ map,
      valuesOf entry.1 entries = [entry.2] ∨ 2 ≤ (valuesOf entry.1 entries).length ∧
        entry.2 = .list (valuesOf entry.1 entries) := by
  constructor
  · rintro rfl
    refine ⟨?_, fun entry hentry ↦ ?_⟩
    · rw [grouped, List.map_map]
      exact List.map_id _
    · obtain ⟨key, hkey, rfl⟩ := List.mem_map.1 hentry
      have hsome : valuesOf key entries ≠ [] := fun hnil ↦
        valuesOf_eq_nil_iff.1 hnil (List.mem_eraseDups.1 hkey)
      exact joined_cases hsome
  · rintro ⟨hkeys, hvalues⟩
    rw [grouped, ← hkeys, List.map_map]
    refine ((List.map_congr_left fun entry hentry ↦ ?_).trans (List.map_id map)).symm
    rcases hvalues entry hentry with hone | ⟨htwo, hlist⟩
    · rw [Function.comp_apply, hone]
      rfl
    · rw [Function.comp_apply, joined_of_two_le htwo, ← hlist]
      rfl

/-- A form is read as a map exactly if its parts are read as entries, and then the keys of the map
are those of the entries in the order of their first occurrence, and each has the value of its only
entry, or the list of the values of all its entries, one for each of them and in order. Reading
fails exactly if some value cannot be read. -/
theorem read_keeps_entries (text : List Char) :
    (∀ map, read text = .ok map ↔ ∃ entries, List.Forall₂ IsEntry (parts text) entries ∧
      map.map Prod.fst = (entries.map Prod.fst).eraseDups ∧ ∀ entry ∈ map,
        valuesOf entry.1 entries = [entry.2] ∨ 2 ≤ (valuesOf entry.1 entries).length ∧
          entry.2 = .list (valuesOf entry.1 entries)) ∧
      ((∃ fault, read text = .error fault) ↔ ∃ part ∈ parts text, IsUnreadable part) := by
  constructor
  · intro map
    simp only [← eq_grouped_iff, ← mapM_entry_eq_ok_iff]
    rw [read_eq]
    constructor
    · intro h
      obtain ⟨entries, hentries, hmap⟩ := map_eq_ok h
      exact ⟨entries, hentries, hmap.symm⟩
    · rintro ⟨entries, hentries, rfl⟩
      rw [hentries]
      rfl
  · rw [read_eq]
    constructor
    · rintro ⟨fault, h⟩
      by_contra hnone
      have hread : ∀ part ∈ parts text, ∃ found, entry part = .ok found ∧ True := by
        intro part hpart
        rcases exists_entry_or_isUnreadable part with ⟨found, hfound⟩ | hfault
        · exact ⟨found, hfound, trivial⟩
        · exact absurd ⟨part, hpart, hfault⟩ hnone
      obtain ⟨entries, hentries, -⟩ := exists_mapM hread
      rw [hentries] at h
      cases h
    · rintro ⟨part, hpart, hfault⟩
      rcases hentries : (parts text).mapM entry with fault | entries
      · exact ⟨fault, rfl⟩
      · obtain ⟨found, hfound⟩ := exists_entry_of_mem (mapM_entry_eq_ok_iff.1 hentries) hpart
        exact absurd (entry_eq_ok_iff.2 hfound) (hfault.entry_ne found)

end ResourceScript.Form
