import Mathlib.Data.List.Induction
import ResourceScript.Plain
import ResourceScript.Proofs.Store.Keys
/-!
# Ordered maps under an equality of keys

An ordered map holds keys, and no two of them are the same. Putting an entry changes the value under
its key and no other (`findEntry_putEntry`), and it adds the key at the end if it is new
(`map_fst_putEntry`). Dropping a key leaves the entries of all other keys (`dropEntry_eq_filter`).
Other keys that are the same exactly when the keys are make a map alike (`foldl_putEntry_map`).
-/

set_option autoImplicit false

namespace ResourceScript

variable {κ α : Type} {IsKey : κ → Prop} {same : κ → κ → Bool}

namespace IsKeyEquality

variable (h : IsKeyEquality IsKey same) {a b c : κ}

include h

theorem comm (ha : IsKey a) (hb : IsKey b) : same a b = same b a :=
  Bool.eq_iff_iff.2 ⟨h.symm ha hb, h.symm hb ha⟩

/-- The same key equals the same keys. -/
theorem congr_left (ha : IsKey a) (hb : IsKey b) (hc : IsKey c) (hab : same a b = true) :
    same a c = same b c :=
  Bool.eq_iff_iff.2 ⟨h.trans hb ha hc (h.symm ha hb hab), h.trans ha hb hc hab⟩

end IsKeyEquality

/-- Whether entries are an ordered map: their keys are keys, and no two of them are the same. -/
structure IsOrderedMap (IsKey : κ → Prop) (same : κ → κ → Bool) (entries : List (κ × α)) :
    Prop where
  /-- The keys are keys. -/
  keys : ∀ entry ∈ entries, IsKey entry.1
  /-- No two keys are the same. -/
  distinct : entries.Pairwise fun a b => same a.1 b.1 = false

theorem isOrderedMap_iff {entries : List (κ × α)} : IsOrderedMap IsKey same entries ↔
    (∀ key ∈ entries.map Prod.fst, IsKey key) ∧
      (entries.map Prod.fst).Pairwise fun a b => same a b = false := by
  rw [List.forall_mem_map, List.pairwise_map]
  exact ⟨fun h ↦ ⟨h.keys, h.distinct⟩, fun h ↦ ⟨h.1, h.2⟩⟩

theorem isOrderedMap_nil : IsOrderedMap IsKey same ([] : List (κ × α)) :=
  ⟨nofun, .nil⟩

theorem IsOrderedMap.tail {entry : κ × α} {rest : List (κ × α)}
    (hmap : IsOrderedMap IsKey same (entry :: rest)) : IsOrderedMap IsKey same rest :=
  ⟨fun e he ↦ hmap.keys e (List.mem_cons_of_mem _ he), (List.pairwise_cons.1 hmap.distinct).2⟩

theorem IsOrderedMap.filter {entries : List (κ × α)} (hmap : IsOrderedMap IsKey same entries)
    (keep : κ × α → Bool) : IsOrderedMap IsKey same (entries.filter keep) :=
  ⟨fun e he ↦ hmap.keys e (List.mem_filter.1 he).1, hmap.distinct.filter keep⟩

/-! ### Finding -/

theorem findEntry_cons (key k : κ) (value : α) (rest : List (κ × α)) :
    findEntry same key ((k, value) :: rest) =
      if same k key then some value else findEntry same key rest := rfl

theorem findEntry_append (key : κ) (first second : List (κ × α)) :
    findEntry same key (first ++ second) =
      (findEntry same key first).or (findEntry same key second) := by
  induction first with
  | nil => rfl
  | cons entry rest ih =>
    obtain ⟨k, value⟩ := entry
    rw [List.cons_append, findEntry_cons, findEntry_cons, ih]
    split <;> rfl

/-- What is found stands in the map. -/
theorem exists_mem_of_findEntry {key : κ} {value : α} {entries : List (κ × α)}
    (h : findEntry same key entries = some value) : ∃ entry ∈ entries, entry.2 = value := by
  induction entries with
  | nil => cases h
  | cons entry rest ih =>
    obtain ⟨k, other⟩ := entry
    rw [findEntry_cons] at h
    split at h
    · exact ⟨(k, other), List.mem_cons_self, Option.some.inj h⟩
    · obtain ⟨entry, hentry, hvalue⟩ := ih h
      exact ⟨entry, List.mem_cons_of_mem _ hentry, hvalue⟩

theorem findEntry_isSome_iff {key : κ} {entries : List (κ × α)} :
    (findEntry same key entries).isSome = true ↔ ∃ entry ∈ entries, same entry.1 key = true := by
  induction entries with
  | nil => simp [findEntry]
  | cons entry rest ih =>
    obtain ⟨k, value⟩ := entry
    rw [findEntry_cons, List.exists_mem_cons_iff, ← ih]
    split
    · rename_i hk
      simp [hk]
    · rename_i hk
      simp [hk]

theorem findEntry_eq_none_iff {key : κ} {entries : List (κ × α)} :
    findEntry same key entries = none ↔ ∀ entry ∈ entries, same entry.1 key = false := by
  rw [← Option.not_isSome_iff_eq_none, findEntry_isSome_iff]
  simp

/-- What is found under a key depends on which keys equal it. -/
theorem findEntry_congr_same {same' : κ → κ → Bool} {key : κ} (h : ∀ k, same k key = same' k key)
    (entries : List (κ × α)) : findEntry same key entries = findEntry same' key entries := by
  induction entries with
  | nil => rfl
  | cons entry rest ih => rw [findEntry_cons, findEntry_cons, h, ih]

theorem findEntry_congr (h : IsKeyEquality IsKey same) {entries : List (κ × α)}
    (hkeys : ∀ entry ∈ entries, IsKey entry.1) {key key' : κ} (hkey : IsKey key)
    (hkey' : IsKey key') (hsame : same key key' = true) :
    findEntry same key entries = findEntry same key' entries := by
  induction entries with
  | nil => rfl
  | cons entry rest ih =>
    obtain ⟨k, value⟩ := entry
    have hk := hkeys (k, value) List.mem_cons_self
    have hcongr : same k key = same k key' := by
      rw [h.comm hk hkey, h.comm hk hkey', h.congr_left hkey hkey' hk hsame]
    rw [findEntry_cons, findEntry_cons, hcongr, ih fun e he ↦ hkeys e (List.mem_cons_of_mem _ he)]

/-- What is filtered out by its key is not found, and all other keys are found as before. -/
theorem findEntry_filter (keep : κ → Bool) {entries : List (κ × α)} {key : κ}
    (hkeep : ∀ entry ∈ entries, same entry.1 key = true → keep entry.1 = keep key) :
    findEntry same key (entries.filter fun entry => keep entry.1) =
      if keep key then findEntry same key entries else none := by
  induction entries with
  | nil => simp [findEntry]
  | cons entry rest ih =>
    obtain ⟨k, value⟩ := entry
    have htail := ih fun e he ↦ hkeep e (List.mem_cons_of_mem _ he)
    have hhead := hkeep (k, value) List.mem_cons_self
    by_cases hsame : same k key = true
    · rw [List.filter_cons, hhead hsame]
      by_cases hkey : keep key = true
      · simp [hkey, findEntry_cons, hsame]
      · simp only [hkey, if_false, Bool.false_eq_true] at htail ⊢
        exact htail
    · rw [List.filter_cons]
      split
      · simp only [findEntry_cons, hsame, Bool.false_eq_true, if_false]
        exact htail
      · simp only [findEntry_cons, hsame, Bool.false_eq_true, if_false]
        exact htail

/-- An ordered map with entries of another behind it, whose keys it does not hold. -/
theorem IsOrderedMap.append_filter {first second : List (κ × α)}
    (hfirst : IsOrderedMap IsKey same first) (hsecond : IsOrderedMap IsKey same second)
    {keep : κ × α → Bool}
    (hkeep : ∀ entry ∈ second, keep entry = true → findEntry same entry.1 first = none) :
    IsOrderedMap IsKey same (first ++ second.filter keep) := by
  refine ⟨List.forall_mem_append.2 ⟨hfirst.keys, (hsecond.filter keep).keys⟩,
    List.pairwise_append.2 ⟨hfirst.distinct, (hsecond.filter keep).distinct, ?_⟩⟩
  intro entry hentry other hother
  obtain ⟨hmem, hkept⟩ := List.mem_filter.1 hother
  exact findEntry_eq_none_iff.1 (hkeep other hmem hkept) entry hentry

/-! ### Putting -/

/-- Putting an entry changes what is found under its key and under no other. -/
theorem findEntry_putEntry (h : IsKeyEquality IsKey same) {entries : List (κ × α)}
    (hkeys : ∀ entry ∈ entries, IsKey entry.1) {key key' : κ} (hkey : IsKey key)
    (hkey' : IsKey key') (value : α) :
    findEntry same key' (putEntry same key value entries) =
      if same key key' then some value else findEntry same key' entries := by
  induction entries with
  | nil => rfl
  | cons entry rest ih =>
    obtain ⟨k, old⟩ := entry
    have hk := hkeys (k, old) List.mem_cons_self
    have htail := ih fun e he ↦ hkeys e (List.mem_cons_of_mem _ he)
    by_cases hsame : same k key = true
    · have hcongr := h.congr_left hk hkey hkey' hsame
      rw [putEntry, if_pos hsame, findEntry_cons, findEntry_cons, hcongr]
      split <;> rfl
    · rw [putEntry, if_neg hsame, findEntry_cons, findEntry_cons, htail]
      by_cases hput : same key key' = true
      · -- The key at the head is not the one that is put, so it is not found under it either.
        have hback : same k key' ≠ true := fun hfound ↦
          hsame (h.trans hk hkey' hkey hfound (h.symm hkey hkey' hput))
        rw [if_neg hback, if_pos hput, if_pos hput]
      · rw [if_neg hput, if_neg hput]

/-- A key that equals itself is found once it is put. -/
theorem findEntry_putEntry_self {key : κ} (hself : same key key = true) (value : α)
    (entries : List (κ × α)) :
    findEntry same key (putEntry same key value entries) = some value := by
  induction entries with
  | nil => rw [putEntry, findEntry_cons, if_pos hself]
  | cons entry rest ih =>
    obtain ⟨k, old⟩ := entry
    rw [putEntry]
    split
    · rename_i hk
      rw [findEntry_cons, if_pos hk]
    · rename_i hk
      rw [findEntry_cons, if_neg hk, ih]

/-- A key that is there keeps its place, and a new one goes to the end. -/
theorem map_fst_putEntry (key : κ) (value : α) (entries : List (κ × α)) :
    (putEntry same key value entries).map Prod.fst =
      if (findEntry same key entries).isSome then entries.map Prod.fst
      else entries.map Prod.fst ++ [key] := by
  induction entries with
  | nil => rfl
  | cons entry rest ih =>
    obtain ⟨k, old⟩ := entry
    rw [putEntry, findEntry_cons]
    split
    · rfl
    · rw [List.map_cons, ih]
      split <;> rfl

theorem IsOrderedMap.putEntry {entries : List (κ × α)} (hmap : IsOrderedMap IsKey same entries)
    {key : κ} (hkey : IsKey key) (value : α) :
    IsOrderedMap IsKey same (putEntry same key value entries) := by
  obtain ⟨hkeys, hdistinct⟩ := isOrderedMap_iff.1 hmap
  rw [isOrderedMap_iff, map_fst_putEntry]
  split
  · exact ⟨hkeys, hdistinct⟩
  · rename_i hnew
    rw [findEntry_isSome_iff] at hnew
    refine ⟨List.forall_mem_append.2 ⟨hkeys, List.forall_mem_singleton.2 hkey⟩,
      List.pairwise_append.2 ⟨hdistinct, List.pairwise_singleton _ _, ?_⟩⟩
    intro k hk other hother
    obtain ⟨entry, hentry, rfl⟩ := List.mem_map.1 hk
    rw [List.mem_singleton.1 hother, ← Bool.not_eq_true]
    exact fun hsame ↦ hnew ⟨entry, hentry, hsame⟩

/-- A new key goes to the end. -/
theorem putEntry_of_new {entries : List (κ × α)} {key : κ}
    (hnew : ∀ entry ∈ entries, same entry.1 key = false) (value : α) :
    putEntry same key value entries = entries ++ [(key, value)] := by
  induction entries with
  | nil => rfl
  | cons entry rest ih =>
    obtain ⟨k, old⟩ := entry
    have hk : same k key = false := hnew (k, old) List.mem_cons_self
    have hrest := ih fun other hother ↦ hnew other (List.mem_cons_of_mem _ hother)
    rw [putEntry, hk, hrest]
    rfl

/-- Entries without a repeated key are a map as they are. -/
theorem mapOfEntries_of_distinct {entries : List (κ × α)}
    (hdistinct : entries.Pairwise fun a b => same a.1 b.1 = false) :
    mapOfEntries same entries = entries := by
  have hfold : ∀ first rest : List (κ × α),
      (first ++ rest).Pairwise (fun a b => same a.1 b.1 = false) →
        rest.foldl (fun map entry => putEntry same entry.1 entry.2 map) first = first ++ rest := by
    intro first rest
    induction rest generalizing first with
    | nil => simp
    | cons entry rest ih =>
      intro hdistinct
      have hnew : ∀ other ∈ first, same other.1 entry.1 = false := fun other hother ↦
        (List.pairwise_append.1 hdistinct).2.2 other hother entry List.mem_cons_self
      rw [List.foldl_cons, putEntry_of_new hnew entry.2, ih _ (by simpa using hdistinct)]
      simp
  exact hfold [] entries hdistinct

theorem putEntry_ne_nil (key : κ) (value : α) (entries : List (κ × α)) :
    putEntry same key value entries ≠ [] := by
  cases entries with
  | nil => exact List.cons_ne_nil _ _
  | cons entry rest =>
    rw [putEntry]
    split <;> exact List.cons_ne_nil _ _

/-- A map of some entries has entries. -/
theorem mapOfEntries_ne_nil {entries : List (κ × α)} (hne : entries ≠ []) :
    mapOfEntries same entries ≠ [] := by
  rw [mapOfEntries, ← List.dropLast_append_getLast hne, List.foldl_concat]
  exact putEntry_ne_nil _ _ _

theorem forall_mem_putEntry {P : κ → Prop} {Q : α → Prop} {entries : List (κ × α)} {key : κ}
    {value : α} (hentries : ∀ entry ∈ entries, P entry.1 ∧ Q entry.2) (hkey : P key)
    (hvalue : Q value) : ∀ entry ∈ putEntry same key value entries, P entry.1 ∧ Q entry.2 := by
  induction entries with
  | nil => exact List.forall_mem_singleton.2 ⟨hkey, hvalue⟩
  | cons entry rest ih =>
    obtain ⟨hentry, hrest⟩ := List.forall_mem_cons.1 hentries
    rw [putEntry]
    split
    · exact List.forall_mem_cons.2 ⟨⟨hentry.1, hvalue⟩, hrest⟩
    · exact List.forall_mem_cons.2 ⟨hentry, ih hrest⟩

/-- The keys and the values of a map are among those that it is made of. -/
theorem forall_mem_mapOfEntries {P : κ → Prop} {Q : α → Prop} {entries : List (κ × α)}
    (hentries : ∀ entry ∈ entries, P entry.1 ∧ Q entry.2) :
    ∀ entry ∈ mapOfEntries same entries, P entry.1 ∧ Q entry.2 := by
  have hfold : ∀ map : List (κ × α), (∀ entry ∈ map, P entry.1 ∧ Q entry.2) →
      ∀ entry ∈ entries.foldl (fun map entry => putEntry same entry.1 entry.2 map) map,
        P entry.1 ∧ Q entry.2 := by
    induction entries with
    | nil => exact fun map hmap ↦ hmap
    | cons entry rest ih =>
      intro map hmap
      obtain ⟨hentry, hrest⟩ := List.forall_mem_cons.1 hentries
      exact ih hrest _ (forall_mem_putEntry hmap hentry.1 hentry.2)
  exact hfold [] nofun

/-! ### Names -/

section

variable {ι : Type} [DecidableEq ι] {names : List ι} {name : ι}

/-- A name that has occurred already adds nothing to the names, and a new one goes to the end. -/
theorem eraseDups_concat (names : List ι) (name : ι) :
    (names ++ [name]).eraseDups =
      if name ∈ names then names.eraseDups else names.eraseDups ++ [name] := by
  rw [List.eraseDups_append]
  by_cases hname : name ∈ names
  · simp [List.removeAll, hname]
  · simp [List.removeAll, hname, List.eraseDups_cons]

theorem nodup_eraseDups (names : List ι) : names.eraseDups.Nodup := by
  induction names using List.reverseRecOn with
  | nil => exact List.nodup_nil
  | append_singleton names name ih =>
    rw [eraseDups_concat]
    split
    · exact ih
    · rename_i hnew
      refine List.nodup_append.2 ⟨ih, List.pairwise_singleton _ name, ?_⟩
      rintro other hother _ hname rfl
      exact hnew (List.mem_singleton.1 hname ▸ List.mem_eraseDups.1 hother)

variable (f : ι → κ) {content : ι → α} (hsame : ∀ a b, same (f a) (f b) = decide (a = b))

include hsame

/-- What stands under one of some names is found. -/
theorem findEntry_of_mem (hname : name ∈ names) :
    findEntry same (f name) (names.map fun n ↦ (f n, content n)) = some (content name) := by
  induction names with
  | nil => exact absurd hname List.not_mem_nil
  | cons first rest ih =>
    rw [List.map_cons, findEntry_cons, hsame]
    by_cases hfirst : first = name
    · simp [hfirst]
    · rw [decide_eq_false hfirst]
      exact ih ((List.mem_cons.1 hname).resolve_left fun h ↦ hfirst h.symm)

/-- Among distinct names, putting a value under one of them changes the value of that name. -/
theorem putEntry_of_mem (hnodup : names.Nodup) (hname : name ∈ names) (value : α) :
    putEntry same (f name) value (names.map fun n ↦ (f n, content n)) =
      names.map fun n ↦ (f n, if n = name then value else content n) := by
  induction names with
  | nil => exact absurd hname List.not_mem_nil
  | cons first rest ih =>
    obtain ⟨hfirst, hrest⟩ := List.nodup_cons.1 hnodup
    rw [List.map_cons, putEntry, hsame, List.map_cons]
    by_cases heq : first = name
    · subst heq
      have hothers : rest.map (fun n ↦ (f n, content n)) =
          rest.map fun n ↦ (f n, if n = first then value else content n) :=
        List.map_congr_left fun n hn ↦ by rw [if_neg (ne_of_mem_of_not_mem hn hfirst)]
      rw [hothers]
      simp
    · rw [decide_eq_false heq, if_neg heq,
        ih hrest ((List.mem_cons.1 hname).resolve_left fun h ↦ heq h.symm)]
      rfl

end

/-! ### Dropping -/

/-- Dropping a key leaves the entries of the other keys. -/
theorem dropEntry_eq_filter (h : IsKeyEquality IsKey same) {entries : List (κ × α)}
    (hmap : IsOrderedMap IsKey same entries) {key : κ} (hkey : IsKey key) :
    dropEntry same key entries = entries.filter fun entry => !same entry.1 key := by
  induction entries with
  | nil => rfl
  | cons entry rest ih =>
    obtain ⟨k, value⟩ := entry
    have hk := hmap.keys (k, value) List.mem_cons_self
    rw [dropEntry, List.filter_cons]
    by_cases hsame : same k key = true
    · have hrest : ∀ entry ∈ rest, (!same entry.1 key) = true := by
        intro entry hentry
        have hentryKey := hmap.keys entry (List.mem_cons_of_mem _ hentry)
        have hdistinct := (List.pairwise_cons.1 hmap.distinct).1 entry hentry
        rw [h.comm hentryKey hkey, ← h.congr_left hk hkey hentryKey hsame, hdistinct]
        rfl
      rw [if_pos hsame, List.filter_eq_self.2 hrest]
      simp [hsame]
    · rw [if_neg hsame, ih hmap.tail]
      simp [hsame]

/-- Without the entries of a key it is not found, and all other keys are. -/
theorem findEntry_filter_not_same (h : IsKeyEquality IsKey same) {entries : List (κ × α)}
    (hkeys : ∀ entry ∈ entries, IsKey entry.1) {key key' : κ} (hkey : IsKey key)
    (hkey' : IsKey key') :
    findEntry same key' (entries.filter fun entry => !same entry.1 key) =
      if same key key' then none else findEntry same key' entries := by
  rw [findEntry_filter (fun k => !same k key) fun entry hentry hsame ↦ by
    rw [h.congr_left (hkeys entry hentry) hkey' hkey hsame], h.comm hkey hkey']
  rcases same key' key with _ | _ <;> rfl

/-! ### Maps with other keys and values -/

section

variable {κ' β : Type} {same' : κ' → κ' → Bool} {f : κ → κ'} {g : α → β}

theorem findEntry_map (hsame : ∀ a b, same' (f a) (f b) = same a b) (key : κ)
    (entries : List (κ × α)) :
    findEntry same' (f key) (entries.map fun e ↦ (f e.1, g e.2)) =
      (findEntry same key entries).map g := by
  induction entries with
  | nil => rfl
  | cons e rest ih =>
    simp only [List.map_cons, findEntry, hsame, ih]
    split <;> rfl

theorem putEntry_map (hsame : ∀ a b, same' (f a) (f b) = same a b) (key : κ) (value : α)
    (entries : List (κ × α)) :
    putEntry same' (f key) (g value) (entries.map fun e ↦ (f e.1, g e.2)) =
      (putEntry same key value entries).map fun e ↦ (f e.1, g e.2) := by
  induction entries with
  | nil => rfl
  | cons e rest ih =>
    simp only [List.map_cons, putEntry, hsame, ih]
    split <;> rfl

/-- Putting entries one after the other. -/
theorem foldl_putEntry_map (hsame : ∀ a b, same' (f a) (f b) = same a b)
    (added entries : List (κ × α)) :
    (added.map fun e ↦ (f e.1, g e.2)).foldl (fun map e ↦ putEntry same' e.1 e.2 map)
        (entries.map fun e ↦ (f e.1, g e.2)) =
      (added.foldl (fun map e ↦ putEntry same e.1 e.2 map) entries).map
        fun e ↦ (f e.1, g e.2) := by
  induction added generalizing entries with
  | nil => rfl
  | cons e rest ih =>
    have hput := putEntry_map (g := g) hsame e.1 e.2 entries
    rw [List.map_cons, List.foldl_cons, List.foldl_cons, hput, ih]

theorem dropEntry_map (hsame : ∀ a b, same' (f a) (f b) = same a b) (key : κ)
    (entries : List (κ × α)) :
    dropEntry same' (f key) (entries.map fun e ↦ (f e.1, g e.2)) =
      (dropEntry same key entries).map fun e ↦ (f e.1, g e.2) := by
  induction entries with
  | nil => rfl
  | cons e rest ih =>
    simp only [List.map_cons, dropEntry, hsame, ih]
    split <;> rfl

end

end ResourceScript
