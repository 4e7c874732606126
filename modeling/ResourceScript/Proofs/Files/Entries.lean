import ResourceScript.Files
/-!
# Entries of the file system

What stands at a path after a file was written or a directory was made. Making a directory only adds
what is missing on the way to it (`FileSystem.entry?_makeDirectory`), and nothing when all of it is
there (`FileSystem.makeDirectory_eq_self`). The file system that has taken a failed write differs
from the one before in no more than that (`FileSystem.AddsDirectories`).
-/

set_option autoImplicit false

namespace ResourceScript

namespace FileSystem

variable {files made : FileSystem} {path other : FilePath}

/-! ### Entries that are put -/

theorem lookup_putEntry (path other : FilePath) (entry : FileEntry)
    (entries : List (FilePath × FileEntry)) :
    (putEntry (· == ·) path entry entries).lookup other =
      if other = path then some entry else entries.lookup other := by
  induction entries with
  | nil =>
    by_cases h : other = path
    · simp [putEntry, h]
    · simp [putEntry, List.lookup_cons, h, beq_eq_false_iff_ne.mpr h]
  | cons first rest ih =>
    obtain ⟨k, v⟩ := first
    rw [putEntry]
    by_cases hk : k = path
    · subst hk
      by_cases h : other = k
      · simp [h]
      · simp [List.lookup_cons, h, beq_eq_false_iff_ne.mpr h]
    · rw [if_neg (by simpa using hk), List.lookup_cons, List.lookup_cons, ih]
      by_cases h : other = k
      · subst h
        simp [hk]
      · simp [beq_eq_false_iff_ne.mpr h]

theorem entry?_nil (files : FileSystem) : files.entry? [] = some .directory := rfl

theorem entry?_putFile (hpath : path ≠ []) (entry : FileEntry) (other : FilePath) :
    entry? (files.putFile path entry) other =
      if other = path then some entry else files.entry? other := by
  cases other with
  | nil => rw [if_neg hpath.symm, entry?_nil, entry?_nil]
  | cons name rest => exact lookup_putEntry path (name :: rest) entry files.entries

/-! ### Directories that are made -/

theorem mem_beginnings : other ∈ beginnings path ↔ other <+: path ∧ other ≠ [] := by
  rw [beginnings, List.mem_map]
  constructor
  · rintro ⟨n, hn, rfl⟩
    have hpath : path ≠ [] := by
      rintro rfl
      exact absurd (List.mem_range.mp hn) (Nat.not_lt_zero n)
    exact ⟨List.take_prefix _ _, by simp [List.take_eq_nil_iff, hpath]⟩
  · rintro ⟨hbegins, hother⟩
    have hlength : 0 < other.length := List.length_pos_iff.mpr hother
    refine ⟨other.length - 1, List.mem_range.mpr ?_, ?_⟩
    · have hle := hbegins.length_le
      omega
    · rw [Nat.sub_add_cancel hlength]
      exact (List.prefix_iff_eq_take.mp hbegins).symm

/-- Makes a single directory, unless it is there. -/
def ensure (files : FileSystem) (step : FilePath) : Except Fault FileSystem :=
  match files.entry? step with
  | some .directory => .ok files
  | some (.file _) => .error .file
  | none => .ok (files.putFile step .directory)

theorem makeDirectory_eq_ok_iff :
    files.makeDirectory path = .ok made ↔
      hasNull path = false ∧ (beginnings path).foldlM ensure files = .ok made := by
  have hmake : files.makeDirectory path =
      if hasNull path then .error .value else (beginnings path).foldlM ensure files := rfl
  rw [hmake]
  by_cases hnull : hasNull path <;> simp [hnull]

theorem ensure_eq_ok {step : FilePath} (hstep : step ≠ []) (h : files.ensure step = .ok made) :
    made.directories = files.directories ∧
      (∀ bytes, files.entry? step ≠ some (.file bytes)) ∧
      ∀ other, made.entry? other = if other = step then some .directory else files.entry? other := by
  unfold ensure at h
  split at h
  · rename_i hentry
    cases h
    refine ⟨rfl, fun bytes hfile ↦ ?_, fun other ↦ ?_⟩
    · rw [hentry] at hfile
      cases hfile
    · by_cases hother : other = step
      · rw [if_pos hother, hother, hentry]
      · rw [if_neg hother]
  · cases h
  · rename_i hentry
    cases h
    refine ⟨rfl, fun bytes hfile ↦ ?_, entry?_putFile hstep .directory⟩
    rw [hentry] at hfile
    cases hfile

/-- After directories have been made one after the other, each of them is one where no file was, and
all else is as before. -/
theorem foldlM_ensure_eq_ok {steps : List FilePath} (hsteps : [] ∉ steps)
    (h : steps.foldlM ensure files = .ok made) :
    made.directories = files.directories ∧
      (∀ step ∈ steps, ∀ bytes, files.entry? step ≠ some (.file bytes)) ∧
      ∀ other, made.entry? other = if other ∈ steps then some .directory else files.entry? other := by
  induction steps generalizing files with
  | nil =>
    cases h
    exact ⟨rfl, nofun, fun other ↦ rfl⟩
  | cons step rest ih =>
    rw [List.mem_cons, not_or] at hsteps
    rw [List.foldlM_cons] at h
    cases hfirst : files.ensure step with
    | error cause =>
      rw [hfirst] at h
      cases h
    | ok first =>
      rw [hfirst] at h
      obtain ⟨hdirectories, hfree, hentry⟩ := ensure_eq_ok (Ne.symm hsteps.1) hfirst
      obtain ⟨hdirectories', hfree', hentry'⟩ := ih hsteps.2 h
      refine ⟨hdirectories'.trans hdirectories, fun other hother ↦ ?_, fun other ↦ ?_⟩
      · by_cases hsame : other = step
        · rw [hsame]
          exact hfree
        · have hrest := hfree' other ((List.mem_cons.mp hother).resolve_left hsame)
          rwa [hentry, if_neg hsame] at hrest
      · rw [hentry', hentry]
        by_cases hrest : other ∈ rest <;> simp [hrest]

theorem nil_notMem_beginnings (path : FilePath) : [] ∉ beginnings path :=
  fun hmem ↦ (mem_beginnings.mp hmem).2 rfl

theorem directories_makeDirectory (h : files.makeDirectory path = .ok made) :
    made.directories = files.directories :=
  (foldlM_ensure_eq_ok (nil_notMem_beginnings path) (makeDirectory_eq_ok_iff.mp h).2).1

/-- A directory is only made where no file is in the way. -/
theorem entry?_ne_file_of_makeDirectory (h : files.makeDirectory path = .ok made)
    (hother : other <+: path) (bytes : List UInt8) : files.entry? other ≠ some (.file bytes) := by
  by_cases hnil : other = []
  · subst hnil
    rw [entry?_nil]
    nofun
  · exact (foldlM_ensure_eq_ok (nil_notMem_beginnings path) (makeDirectory_eq_ok_iff.mp h).2).2.1
      other (mem_beginnings.mpr ⟨hother, hnil⟩) bytes

/-- After a directory has been made, all that is on the way to it are directories, and all else is
as before. -/
theorem entry?_makeDirectory (h : files.makeDirectory path = .ok made) (other : FilePath) :
    made.entry? other = if other <+: path then some .directory else files.entry? other := by
  have hsteps := nil_notMem_beginnings path
  rw [(foldlM_ensure_eq_ok hsteps (makeDirectory_eq_ok_iff.mp h).2).2.2 other]
  by_cases hother : other = []
  · subst hother
    rw [if_neg hsteps, if_pos ( List.nil_prefix), entry?_nil]
  · simp only [mem_beginnings, hother, ne_eq, not_false_eq_true, and_true]

theorem foldlM_ensure_of_directories {steps : List FilePath}
    (h : ∀ step ∈ steps, files.entry? step = some .directory) :
    steps.foldlM ensure files = .ok files := by
  induction steps with
  | nil => rfl
  | cons step rest ih =>
    have hfirst : files.ensure step = .ok files := by
      rw [ensure, h step (List.mem_cons_self)]
    rw [List.foldlM_cons, hfirst]
    exact ih fun other hother ↦ h other (List.mem_cons_of_mem step hother)

/-- Making a directory that is there, with all that is on the way to it, changes nothing. -/
theorem makeDirectory_eq_self (h : ∀ other, other <+: path → files.entry? other = some .directory)
    (hmade : files.makeDirectory path = .ok made) : made = files := by
  have hsame := foldlM_ensure_of_directories fun step hstep ↦ h step (mem_beginnings.mp hstep).1
  rw [(makeDirectory_eq_ok_iff.mp hmade).2] at hsame
  exact Except.ok.inj hsame

/-! ### Directories and nothing else -/

/-- Whether one file system is another one in which nothing but directories on the way to a path, the
last included, has been made. -/
structure AddsDirectories (path : FilePath) (before after : FileSystem) : Prop where
  /-- The working directory and the home directory stay. -/
  directories_eq : after.directories = before.directories
  /-- What was there is there, with its content. -/
  kept : ∀ other entry, before.entry? other = some entry → after.entry? other = some entry
  /-- What is new is a directory on the way. -/
  added : ∀ other entry, before.entry? other = none → after.entry? other = some entry →
    entry = .directory ∧ other <+: path
  /-- Nothing is new when the directories were there. -/
  unchanged : (∀ other, other <+: path → before.entry? other = some .directory) → after = before

theorem AddsDirectories.refl (path : FilePath) (files : FileSystem) :
    AddsDirectories path files files where
  directories_eq := rfl
  kept := fun _ _ h ↦ h
  added := by
    intro other entry hnone hsome
    rw [hnone] at hsome
    cases hsome
  unchanged := fun _ ↦ rfl

theorem addsDirectories_makeDirectory (h : files.makeDirectory path = .ok made) :
    AddsDirectories path files made where
  directories_eq := directories_makeDirectory h
  kept := by
    intro other entry hentry
    rw [entry?_makeDirectory h]
    split
    · rename_i hother
      cases entry with
      | directory => rfl
      | file bytes => exact absurd hentry (entry?_ne_file_of_makeDirectory h hother bytes)
    · exact hentry
  added := by
    intro other entry hnone hsome
    rw [entry?_makeDirectory h] at hsome
    split at hsome
    · rename_i hother
      exact ⟨(Option.some.inj hsome).symm, hother⟩
    · rw [hnone] at hsome
      cases hsome
  unchanged := fun hpath ↦ makeDirectory_eq_self hpath h

/-! ### Files that are written -/

theorem write_eq_ok_iff {bytes : List UInt8} {written : FileSystem} :
    files.write path bytes = .ok written ↔
      ∃ made, files.makeDirectory path.dropLast = .ok made ∧ hasNull path = false ∧
        made.isDirectory path = false ∧ written = made.putFile path (.file bytes) := by
  have hwrite : files.write path bytes = files.makeDirectory path.dropLast >>= fun made ↦
      if hasNull path then .error .value
      else if made.isDirectory path then .error .file
      else .ok (made.putFile path (.file bytes)) := rfl
  rw [hwrite]
  cases files.makeDirectory path.dropLast with
  | error cause => exact ⟨nofun, fun ⟨_, hmade, _⟩ ↦ nomatch hmade⟩
  | ok made =>
    show (if hasNull path then _ else if made.isDirectory path then _ else _) = _ ↔ _
    constructor
    · intro h
      split at h
      · cases h
      · rename_i hnull
        split at h
        · cases h
        · rename_i hdirectory
          cases h
          exact ⟨made, rfl, Bool.eq_false_iff.mpr hnull, Bool.eq_false_iff.mpr hdirectory, rfl⟩
    · rintro ⟨_, hmade, hnull, hdirectory, rfl⟩
      cases hmade
      rw [hnull, hdirectory]
      rfl

end FileSystem

end ResourceScript
