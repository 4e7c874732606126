import ResourceScript.Proofs.Resource.Steps
import ResourceScript.Proofs.Text.Percent
import ResourceScript.Proofs.Text.Pieces
import ResourceScript.Proofs.Text.Trim
/-!
# Paths of files and their locations

An absolute path in its shortest spelling is made of names, each behind a slash (`IsFilePath`). Its
`file:` location is that text with its UTF-8 bytes escaped but for slashes and unreserved
characters, so it holds none of the characters at which a location is cut, and nothing that is
trimmed. Cutting off the scheme and undoing the escapes gives the path back, and taken as a text the
location denotes itself (`filePath_ofPath`).
-/

set_option autoImplicit false

namespace ResourceScript

open Text

/-! ### Locations of files cut into parts -/

namespace SplitUrl

/-- Behind the scheme and two slashes, a path without marks of queries and fragments is all of a
location. -/
theorem ofText_file {path : List Char} (hslash : path.head? = some '/')
    (hvisible : ∀ c ∈ path, 0x20 < c.toNat) (hquery : '?' ∉ path) (hfragment : '#' ∉ path) :
    ofText (String.ofList ("file://".toList ++ path)) =
      .ok ⟨"file", "", String.ofList path, "", ""⟩ := by
  obtain ⟨rest, rfl⟩ := List.head?_eq_some_iff.1 hslash
  have hall : ∀ c ∈ "file://".toList ++ '/' :: rest, 0x20 < c.toNat := by
    intro c hc
    rcases List.mem_append.1 hc with hc | hc
    · have hmarks : "file://".toList.all (0x20 < ·.toNat) = true := by decide
      exact of_decide_eq_true (List.all_eq_true.1 hmarks c hc)
    · exact hvisible c hc
  have hdropped : ("file://".toList ++ '/' :: rest).dropWhile (fun c ↦ decide (c.toNat ≤ 0x20)) =
      "file://".toList ++ '/' :: rest := rfl
  have hkept : ("file://".toList ++ '/' :: rest).filter
      (fun c ↦ c != '\t' && c != '\n' && c != '\r') = "file://".toList ++ '/' :: rest := by
    refine List.filter_eq_self.2 fun c hc ↦ ?_
    have hrange := hall c hc
    have hne : ∀ d : Char, d.toNat ≤ 0x20 → c ≠ d := by
      rintro d hd rfl
      omega
    simp [hne '\t' (by decide), hne '\n' (by decide), hne '\r' (by decide)]
  have hscheme : cutScheme ("file://".toList ++ '/' :: rest) =
      ("file".toList, '/' :: '/' :: '/' :: rest) := rfl
  unfold ofText
  rw [String.toList_ofList, hdropped, hkept]
  simp only [hscheme]
  have hauthority : ('/' :: rest).takeWhile (fun c ↦ !(c == '/' || c == '?' || c == '#')) = [] :=
    rfl
  have hbehind : ('/' :: rest).dropWhile (fun c ↦ !(c == '/' || c == '?' || c == '#')) =
      '/' :: rest := rfl
  simp only [hauthority, hbehind, cutAt_eq_none hfragment, cutAt_eq_none hquery, Option.getD_none]
  rfl

end SplitUrl

namespace Location

/-! ### Paths -/

/-- Whether a text is the name of an entry in a directory. -/
structure IsFileName (name : List Char) : Prop where
  /-- It is not empty. -/
  filled : name ≠ []
  /-- It is not the name of the directory itself. -/
  point : name ≠ ['.']
  /-- It is not the name of the parent of the directory. -/
  points : name ≠ ['.', '.']
  /-- No slash is in it. -/
  slash : '/' ∉ name
  /-- No null character is in it. -/
  null : Char.ofNat 0 ∉ name

/-- Whether a text is an absolute path in its shortest spelling: a slash, and names with a slash
between neighbours. -/
def IsFilePath (text : List Char) : Prop :=
  ∃ names : List (List Char), (∀ name ∈ names, IsFileName name) ∧
    text = '/' :: joinWith ['/'] names

theorem map_toList_ofList (names : List (List Char)) :
    (names.map String.ofList).map String.toList = names := by
  rw [List.map_map]
  exact (List.map_congr_left fun _ _ ↦ String.toList_ofList).trans (List.map_id _)

section Names

variable {names : List (List Char)} (hnames : ∀ name ∈ names, IsFileName name)

include hnames

/-- The names of a path are read back from it. -/
theorem pathNames_joinWith : pathNames ('/' :: joinWith ['/'] names) = names.map String.ofList := by
  have hfront : splitOn '/' ('/' :: joinWith ['/'] names) =
      [] :: splitOn '/' (joinWith ['/'] names) := rfl
  by_cases hempty : names = []
  · subst hempty
    decide
  · rw [pathNames, hfront, splitOn_joinWith hempty fun name hname ↦ (hnames name hname).slash,
      List.map_cons, List.filter_cons_of_neg (by decide)]
    refine List.filter_eq_self.2 fun text htext ↦ ?_
    obtain ⟨name, hname, rfl⟩ := List.mem_map.1 htext
    have hfilled : String.ofList name ≠ "" := fun heq ↦
      (hnames name hname).filled (String.ofList_injective heq)
    have hpoint : String.ofList name ≠ "." := fun heq ↦
      (hnames name hname).point (String.ofList_injective heq)
    simp [hfilled, hpoint]

/-- Names that do not lead to a parent are appended. -/
theorem follow_names (directory : FilePath) :
    follow directory (names.map String.ofList) = directory ++ names.map String.ofList := by
  induction names generalizing directory with
  | nil => exact (List.append_nil _).symm
  | cons name rest ih =>
    rw [List.forall_mem_cons] at hnames
    have hpoints : String.ofList name ≠ ".." := fun heq ↦
      hnames.1.points (String.ofList_injective heq)
    have hstep : follow directory ((name :: rest).map String.ofList) =
        follow (directory ++ [String.ofList name]) (rest.map String.ofList) := by
      rw [follow, List.map_cons, List.foldl_cons, if_neg hpoints]
      rfl
    rw [hstep, ih hnames.2, List.append_assoc]
    rfl

theorem not_mem_null : Char.ofNat 0 ∉ '/' :: joinWith ['/'] names := by
  intro hmem
  rcases List.mem_cons.1 hmem with hmem | hmem
  · revert hmem
    decide
  · rcases mem_joinWith hmem with hmem | ⟨name, hname, hmem⟩
    · revert hmem
      decide
    · exact (hnames name hname).null hmem

/-- An absolute path is resolved to its names. -/
theorem resolve_joinWith (directories : Directories) :
    resolve directories ('/' :: joinWith ['/'] names) = .ok (names.map String.ofList) := by
  have hnull : ('/' :: joinWith ['/'] names).contains (Char.ofNat 0) = false := by
    rw [← Bool.not_eq_true, List.contains_iff_mem]
    exact not_mem_null hnames
  have habsolute : isAbsolute ('/' :: joinWith ['/'] names) = true := rfl
  unfold resolve
  simp only [hnull, habsolute, Bool.false_eq_true, if_false, if_true, pathNames_joinWith hnames]
  rw [follow_names hnames []]
  rfl

/-- A path is its own shortest spelling. -/
theorem pathText_joinWith :
    pathText ('/' :: joinWith ['/'] names) = '/' :: joinWith ['/'] names := by
  have hroot : pathRoot ('/' :: joinWith ['/'] names) = ['/'] := by
    have hhead : (joinWith ['/'] names).head? ≠ some '/' := by
      cases names with
      | nil => exact nofun
      | cons name rest =>
        have hname := hnames name List.mem_cons_self
        obtain ⟨c, more, rfl⟩ := List.exists_cons_of_ne_nil hname.filled
        have hc : c ≠ '/' := (List.ne_of_not_mem_cons hname.slash).symm
        cases rest with
        | nil => simpa using hc
        | cons next rest => simpa [joinWith_cons_cons] using hc
    cases hjoined : joinWith ['/'] names with
    | nil => rfl
    | cons c rest =>
      rw [hjoined] at hhead
      have hc : c ≠ '/' := fun hc ↦ hhead (congrArg some hc)
      unfold pathRoot
      split <;> simp_all
  rw [pathText, pathNames_joinWith hnames, map_toList_ofList, hroot]
  rfl

end Names

/-! ### Locations of files -/

/-- A path with its bytes escaped. -/
def escapedPath (text : List Char) : List Char :=
  Percent.encodeBytes (· == '/') (Utf8.encode text)

theorem escapedPath_slash (text : List Char) :
    escapedPath ('/' :: text) = '/' :: escapedPath text := by
  have hchar : Utf8.encodeChar '/' = [0x2f] := by decide
  have hbyte : Percent.encodeByte (· == '/') 0x2f = ['/'] := by decide
  rw [escapedPath, Utf8.encode, List.flatMap_cons, hchar, List.singleton_append,
    Percent.encodeBytes, List.flatMap_cons, hbyte]
  rfl

theorem decode_escapedPath (text : List Char) : Percent.decode (escapedPath text) = text := by
  have hslash : ∀ c, (c == '/') = true → c.toNat < 0x80 := by
    intro c hc
    rw [beq_iff_eq.1 hc]
    decide
  exact Percent.decode_encodeBytes (by decide) hslash text

/-- The location of a file: the scheme, two slashes, and the path with its bytes escaped. -/
theorem toList_fileUri (path : FilePath) : (fileUri path).toList =
    "file://".toList ++ escapedPath ('/' :: joinWith ['/'] (path.map String.toList)) := by
  have hfront : "file:///".toList = "file://".toList ++ ['/'] := by decide
  have huri : (fileUri path).toList =
      "file:///".toList ++ escapedPath (joinWith ['/'] (path.map String.toList)) :=
    String.toList_ofList
  rw [huri, hfront, List.append_assoc, List.singleton_append, escapedPath_slash]

/-- An escaped path consists of visible characters, none of which is a mark of queries, fragments or
a space. -/
theorem of_mem_escapedPath {text : List Char} {c : Char} (hc : c ∈ escapedPath text) :
    0x20 < c.toNat ∧ c ≠ '?' ∧ c ≠ '#' ∧ isSpace c = false := by
  have hplain : ∀ d : Char, Percent.isUnreserved d = false → d ≠ '/' → d ≠ '%' → c ≠ d := by
    rintro d hd hslash hpercent rfl
    rcases Percent.of_mem_encodeBytes _ hc with hfound | hfound | hfound
    · rw [hd] at hfound
      cases hfound
    · exact hslash (beq_iff_eq.1 hfound)
    · exact hpercent hfound
  have hrange : 0x20 < c.toNat ∧ c.toNat < 0x80 := by
    rcases Percent.of_mem_encodeBytes _ hc with hfound | hfound | rfl
    · exact Percent.toNat_of_isUnreserved hfound
    · rw [beq_iff_eq.1 hfound]
      decide
    · decide
  refine ⟨hrange.1, hplain '?' (by decide) (by decide) (by decide),
    hplain '#' (by decide) (by decide) (by decide), ?_⟩
  simp only [isSpace, Bool.or_eq_false_iff, Bool.and_eq_false_iff, decide_eq_false_iff_not,
    beq_eq_false_iff_ne]
  omega

theorem scheme?_fileUri (path : FilePath) : scheme? (fileUri path).toList = some "file" := by
  rw [toList_fileUri]
  rfl

theorem place_fileUri (path : FilePath) : place (fileUri path) = .file := by
  rw [place, scheme?_fileUri]
  rfl

/-- The location of a file, taken as a text, denotes itself. -/
theorem ofText?_fileUri (directories : Directories) (path : FilePath) :
    ofText? directories (fileUri path).toList = .ok (some (fileUri path)) := by
  have hsolid : ∀ c ∈ (fileUri path).toList, isSpace c = false := by
    intro c hc
    rw [toList_fileUri, List.mem_append] at hc
    rcases hc with hc | hc
    · have hmarks : "file://".toList.all (!isSpace ·) = true := by decide
      exact Bool.not_eq_true' _ ▸ List.all_eq_true.1 hmarks c hc
    · exact (of_mem_escapedPath hc).2.2.2
  have hfilled : (fileUri path).toList.isEmpty = false := by
    rw [toList_fileUri]
    rfl
  have hpath : beginsPath (fileUri path).toList = false := by
    rw [toList_fileUri]
    rfl
  have hsupported : supportedSchemes.contains "file" = true := by decide
  unfold ofText?
  simp only [trim_eq_self hsolid, hfilled, hpath, scheme?_fileUri, hsupported, Bool.false_eq_true,
    if_false, if_true, String.ofList_toList]

/-- The path of a file is read back from its location. -/
theorem filePath_fileUri {names : List (List Char)} (hnames : ∀ name ∈ names, IsFileName name) :
    filePath (fileUri (names.map String.ofList)) =
      .ok (String.ofList ('/' :: joinWith ['/'] names)) := by
  have huri : fileUri (names.map String.ofList) =
      String.ofList ("file://".toList ++ escapedPath ('/' :: joinWith ['/'] names)) := by
    rw [← String.ofList_toList (s := fileUri _), toList_fileUri, map_toList_ofList]
  have hquery : '?' ∉ escapedPath ('/' :: joinWith ['/'] names) := fun hmem ↦
    (of_mem_escapedPath hmem).2.1 rfl
  have hfragment : '#' ∉ escapedPath ('/' :: joinWith ['/'] names) := fun hmem ↦
    (of_mem_escapedPath hmem).2.2.1 rfl
  have hslash : (escapedPath ('/' :: joinWith ['/'] names)).head? = some '/' := by
    rw [escapedPath_slash]
    rfl
  have hparts := SplitUrl.ofText_file hslash
    (fun c hc ↦ (of_mem_escapedPath hc).1) hquery hfragment
  have hfilled : String.ofList (escapedPath ('/' :: joinWith ['/'] names)) ≠ "" := by
    rw [escapedPath_slash]
    exact fun heq ↦ List.cons_ne_nil _ _ (String.ofList_injective heq)
  rw [filePath, huri, hparts]
  show Except.ok (String.ofList (pathText (Percent.decode _))) = _
  rw [if_neg hfilled, String.toList_ofList, decode_escapedPath, pathText_joinWith hnames]

/-- Every absolute path in its shortest spelling has a `file:` location, from which the path is read
back; and the resource made of the location as a text has that location. -/
theorem filePath_ofPath {text : List Char} (hpath : IsFilePath text) (directories : Directories) :
    ∃ uri, ofPath directories text = .ok uri ∧ filePath uri = .ok (String.ofList text) ∧
      ∀ (jobs : Job → Script Value) (w : World), ∃ n v,
        (Script.newResource (.text uri)).run jobs w = (.ok n, v) ∧
          (v.store.resource n).uri = some uri := by
  obtain ⟨names, hnames, rfl⟩ := hpath
  refine ⟨fileUri (names.map String.ofList), ?_, filePath_fileUri hnames, fun jobs w ↦ ?_⟩
  · rw [ofPath, resolve_joinWith hnames]
    rfl
  · have hlocation := ofText?_fileUri w.surroundings.directories (names.map String.ofList)
    exact ⟨_, _, Script.run_newResource_of_location hlocation, Script.uri_withResource w _⟩

/-- A path with marks of locations, an escape, blanks and a letter beyond ASCII. -/
theorem filePath_ofPath_marks :
    IsFilePath "/a;b=50%41#c?/é \n~/...".toList ∧
      ∃ uri, ofPath ⟨["work"], ["home"]⟩ "/a;b=50%41#c?/é \n~/...".toList = .ok uri ∧
        filePath uri = .ok "/a;b=50%41#c?/é \n~/..." := by
  have hpath : IsFilePath "/a;b=50%41#c?/é \n~/...".toList := by
    refine ⟨["a;b=50%41#c?".toList, "é \n~".toList, "...".toList], ?_, by decide⟩
    refine List.forall_mem_cons.2 ⟨?_, List.forall_mem_cons.2 ⟨?_, List.forall_mem_singleton.2 ?_⟩⟩
    all_goals exact ⟨by decide, by decide, by decide, by decide, by decide⟩
  obtain ⟨uri, huri, hback, -⟩ := filePath_ofPath hpath ⟨["work"], ["home"]⟩
  exact ⟨hpath, uri, huri, hback⟩

end Location

end ResourceScript
