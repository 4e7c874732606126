import ResourceScript.Location
import ResourceScript.Proofs.Number.Numeral
import ResourceScript.Proofs.Text.Pieces
import ResourceScript.Proofs.Text.Trim
/-!
# The grammar of paths of variables

A path of variables consists of names between single slashes and points, and begins with an ASCII
letter. The test for paths looks at each piece between the separators and does not see one line feed
at its end (`isSegment_iff`), so it takes pieces of names with or without a line feed
(`isPath_iff`). The texts of the grammar are the paths without line feeds, and no other white space
is ever in a path. A text of the grammar denotes itself (`IsPathOf.ofText?_eq`), and the segments of
a path of names are the names (`segments_variablePath`).
-/

set_option autoImplicit false

namespace ResourceScript.Location

open Text

/-! ### The grammar -/

/-- Whether a text is a name: ASCII letters, digits, low lines and hyphens, with a letter or digit
at both ends. -/
structure IsName (name : List Char) : Prop where
  /-- It begins with a letter or digit. -/
  first : ∃ c, name.head? = some c ∧ isAlphanumeric c = true
  /-- It ends in a letter or digit. -/
  last : ∃ c, name.getLast? = some c ∧ isAlphanumeric c = true
  /-- It holds nothing else but letters, digits, low lines and hyphens. -/
  chars : ∀ c ∈ name, isAlphanumeric c = true ∨ c = '_' ∨ c = '-'

/-- A name, with a line feed behind it or not. -/
def IsNameOrLine (piece : List Char) : Prop :=
  ∃ name, IsName name ∧ (piece = name ∨ piece = name ++ ['\n'])

/-- Texts of one piece or more, with a slash or a point between neighbours. -/
inductive IsJoined (IsPiece : List Char → Prop) : List Char → Prop
  /-- A single piece. -/
  | single {piece : List Char} (hpiece : IsPiece piece) : IsJoined IsPiece piece
  /-- A piece, a separator and the other pieces. -/
  | cons {piece rest : List Char} {separator : Char} (hpiece : IsPiece piece)
    (hseparator : separator = '/' ∨ separator = '.') (hrest : IsJoined IsPiece rest) :
    IsJoined IsPiece (piece ++ separator :: rest)

/-- Whether a text consists of pieces between separators and begins with a letter. -/
structure IsPathOf (IsPiece : List Char → Prop) (text : List Char) : Prop where
  /-- It consists of pieces between separators. -/
  joined : IsJoined IsPiece text
  /-- It begins with an ASCII letter. -/
  letter : ∃ c, text.head? = some c ∧ isAsciiLetter c = true

/-! ### Characters -/

/-- The code points of the ASCII letters. -/
theorem toNat_of_isAsciiLetter {c : Char} (hc : isAsciiLetter c = true) :
    97 ≤ c.toNat ∧ c.toNat ≤ 122 ∨ 65 ≤ c.toNat ∧ c.toNat ≤ 90 := by
  simpa [isAsciiLetter, Char.le_def, UInt32.le_iff_toNat_le] using hc

/-- The code points of the ASCII letters and digits. -/
theorem toNat_of_isAlphanumeric {c : Char} (hc : isAlphanumeric c = true) :
    (97 ≤ c.toNat ∧ c.toNat ≤ 122 ∨ 65 ≤ c.toNat ∧ c.toNat ≤ 90) ∨
      48 ≤ c.toNat ∧ c.toNat ≤ 57 := by
  simpa [isAlphanumeric, isAsciiLetter, isAsciiDigit, Char.le_def, UInt32.le_iff_toNat_le] using hc

theorem isAlphanumeric_ne {c d : Char} (hc : isAlphanumeric c = true)
    (hd : isAlphanumeric d = false) : c ≠ d := by
  rintro rfl
  rw [hc] at hd
  cases hd

/-- Of the ASCII letters and digits, only the letters are letters of any script. -/
theorem isLetter_of_isAlphanumeric {c : Char} (hc : isAlphanumeric c = true) :
    isLetter c = isAsciiLetter c := by
  have hrange := toNat_of_isAlphanumeric hc
  rw [isLetter, if_pos (by omega), isAsciiLetter]

theorem isDecimalDigit_of_isAsciiLetter {c : Char} (hc : isAsciiLetter c = true) :
    isDecimalDigit c = false := by
  have hrange := toNat_of_isAsciiLetter hc
  have hdigit : ¬ ('0' ≤ c ∧ c ≤ '9') := by
    simp only [Char.le_def, UInt32.le_iff_toNat_le]
    show ¬ (48 ≤ c.toNat ∧ c.toNat ≤ 57)
    omega
  rw [isDecimalDigit, digitValue?, if_pos (by omega), if_neg hdigit]
  rfl

theorem isSpace_of_isAlphanumeric {c : Char} (hc : isAlphanumeric c = true) :
    isSpace c = false := by
  have hrange := toNat_of_isAlphanumeric hc
  simp only [isSpace, Bool.or_eq_false_iff, Bool.and_eq_false_iff, decide_eq_false_iff_not,
    beq_eq_false_iff_ne]
  omega

/-! ### Names -/

namespace IsName

variable {name : List Char} (hname : IsName name)

include hname

theorem not_mem {c : Char} (hc : isAlphanumeric c = false) (hmark : c ≠ '_' ∧ c ≠ '-') :
    c ∉ name := by
  intro hmem
  rcases hname.chars c hmem with hfound | hfound | hfound
  · exact isAlphanumeric_ne hfound hc rfl
  · exact hmark.1 hfound
  · exact hmark.2 hfound

theorem dropFinalLineFeed_eq_self : Numeral.dropFinalLineFeed name = name := by
  obtain ⟨c, hlast, hc⟩ := hname.last
  rw [List.getLast?_eq_head?_reverse] at hlast
  obtain ⟨rest, hreverse⟩ := List.head?_eq_some_iff.1 hlast
  rw [Numeral.dropFinalLineFeed, hreverse]
  split
  · rename_i hcons
    exact absurd (List.cons.inj hcons).1 (isAlphanumeric_ne hc (by decide))
  · rfl

end IsName

/-- Letters and digits alone are a name. -/
theorem isName_of_isAlphanumeric {name : List Char} (hfilled : name ≠ [])
    (hchars : ∀ c ∈ name, isAlphanumeric c = true) : IsName name where
  first := ⟨name.head hfilled, List.head?_eq_some_head hfilled, hchars _ (List.head_mem hfilled)⟩
  last := ⟨name.getLast hfilled, List.getLast?_eq_some_getLast hfilled,
    hchars _ (List.getLast_mem hfilled)⟩
  chars := fun c hc ↦ .inl (hchars c hc)

theorem isName_of_all {keys : List String}
    (hkeys : keys.all (fun key ↦ !key.toList.isEmpty && key.toList.all isAlphanumeric) = true) :
    ∀ key ∈ keys, IsName key.toList := by
  intro key hkey
  have hword := List.all_eq_true.1 hkeys key hkey
  rw [Bool.and_eq_true, Bool.not_eq_true', List.isEmpty_eq_false_iff] at hword
  exact isName_of_isAlphanumeric hword.1 (List.all_eq_true.1 hword.2)

theorem dropFinalLineFeed_append (text : List Char) :
    Numeral.dropFinalLineFeed (text ++ ['\n']) = text := by
  rw [Numeral.dropFinalLineFeed, List.reverse_append]
  exact List.reverse_reverse text

theorem eq_or_eq_append_of_dropFinalLineFeed (text : List Char) :
    text = Numeral.dropFinalLineFeed text ∨ text = Numeral.dropFinalLineFeed text ++ ['\n'] := by
  rw [Numeral.dropFinalLineFeed]
  split
  · rename_i rest hreverse
    refine Or.inr ?_
    rw [← List.reverse_cons, ← hreverse, List.reverse_reverse]
  · exact Or.inl rfl

/-- What is seen of a segment is a name. -/
theorem isSegment_iff_isName (text : List Char) :
    isSegment text = true ↔ IsName (Numeral.dropFinalLineFeed text) := by
  rw [isSegment]
  generalize Numeral.dropFinalLineFeed text = seen
  constructor
  · intro h
    rw [Bool.and_eq_true] at h
    obtain ⟨hends, hchars⟩ := h
    split at hends
    · rename_i first last hfirst hlast
      rw [Bool.and_eq_true] at hends
      refine ⟨⟨first, hfirst, hends.1⟩, ⟨last, hlast, hends.2⟩, fun c hc ↦ ?_⟩
      simpa [or_assoc] using List.all_eq_true.1 hchars c hc
    · cases hends
  · rintro ⟨⟨first, hfirst, hfirstChar⟩, ⟨last, hlast, hlastChar⟩, hchars⟩
    rw [hfirst, hlast]
    simpa [hfirstChar, hlastChar, or_assoc] using hchars

/-- The test for segments takes names, and it does not see one line feed behind a name. -/
theorem isSegment_iff (piece : List Char) : isSegment piece = true ↔ IsNameOrLine piece := by
  rw [isSegment_iff_isName]
  constructor
  · intro hname
    exact ⟨_, hname, eq_or_eq_append_of_dropFinalLineFeed piece⟩
  · rintro ⟨name, hname, rfl | rfl⟩
    · rwa [hname.dropFinalLineFeed_eq_self]
    · rwa [dropFinalLineFeed_append]

theorem IsNameOrLine.char {piece : List Char} (hpiece : IsNameOrLine piece) {c : Char}
    (hc : c ∈ piece) : isAlphanumeric c = true ∨ c = '_' ∨ c = '-' ∨ c = '\n' := by
  obtain ⟨name, hname, rfl | rfl⟩ := hpiece
  · rcases hname.chars c hc with hfound | hfound | hfound <;> simp [hfound]
  · rcases List.mem_append.1 hc with hc | hc
    · rcases hname.chars c hc with hfound | hfound | hfound <;> simp [hfound]
    · simp [List.mem_singleton.1 hc]

theorem IsNameOrLine.head {piece : List Char} (hpiece : IsNameOrLine piece) :
    ∃ c rest, piece = c :: rest ∧ isAlphanumeric c = true := by
  obtain ⟨name, hname, hpiece⟩ := hpiece
  obtain ⟨c, hfirst, hc⟩ := hname.first
  obtain ⟨rest, rfl⟩ := List.head?_eq_some_iff.1 hfirst
  rcases hpiece with rfl | rfl
  · exact ⟨c, rest, rfl, hc⟩
  · exact ⟨c, rest ++ ['\n'], rfl, hc⟩

/-! ### Pieces -/

/-- Whether no separator of paths stands in a text. -/
def IsUnseparated (piece : List Char) : Prop :=
  '/' ∉ piece ∧ '.' ∉ piece

theorem IsNameOrLine.isUnseparated {piece : List Char} (hpiece : IsNameOrLine piece) :
    IsUnseparated piece := by
  constructor <;>
  · intro hmem
    rcases hpiece.char hmem with hfound | hfound | hfound | hfound <;> revert hfound <;> decide

theorem map_of_isUnseparated {piece : List Char} (hpiece : IsUnseparated piece) :
    (piece.map fun c => if c = '.' then '/' else c) = piece := by
  refine (List.map_congr_left fun c hc ↦ if_neg ?_).trans (List.map_id _)
  rintro rfl
  exact hpiece.2 hc

theorem splitPath_of_isUnseparated {piece : List Char} (hpiece : IsUnseparated piece) :
    splitPath piece = [piece] := by
  rw [splitPath, map_of_isUnseparated hpiece]
  exact splitOn_go_of_not_mem hpiece.1 []

theorem splitPath_append {piece : List Char} (hpiece : IsUnseparated piece) {separator : Char}
    (hseparator : separator = '/' ∨ separator = '.') (rest : List Char) :
    splitPath (piece ++ separator :: rest) = piece :: splitPath rest := by
  have hslash : (if separator = '.' then '/' else separator) = '/' := by
    rcases hseparator with rfl | rfl <;> rfl
  rw [splitPath, List.map_append, List.map_cons, map_of_isUnseparated hpiece, hslash]
  exact splitOn_go_append hpiece.1 [] _

/-- A text has no separator, or one behind its first piece. -/
theorem isUnseparated_or_exists (text : List Char) : IsUnseparated text ∨
    ∃ piece separator rest, IsUnseparated piece ∧ (separator = '/' ∨ separator = '.') ∧
      text = piece ++ separator :: rest := by
  induction text with
  | nil => exact Or.inl ⟨List.not_mem_nil, List.not_mem_nil⟩
  | cons c more ih =>
    by_cases hc : c = '/' ∨ c = '.'
    · exact Or.inr ⟨[], c, more, ⟨List.not_mem_nil, List.not_mem_nil⟩, hc, rfl⟩
    · rw [not_or] at hc
      have hcons : ∀ piece, IsUnseparated piece → IsUnseparated (c :: piece) := fun piece hpiece ↦
        ⟨List.not_mem_cons_of_ne_of_not_mem (Ne.symm hc.1) hpiece.1,
          List.not_mem_cons_of_ne_of_not_mem (Ne.symm hc.2) hpiece.2⟩
      rcases ih with hmore | ⟨piece, separator, rest, hpiece, hseparator, rfl⟩
      · exact Or.inl (hcons more hmore)
      · exact Or.inr ⟨c :: piece, separator, rest, hcons piece hpiece, hseparator, rfl⟩

/-- The pieces of a text are what it is joined of, if no separator stands in a piece. -/
theorem forall_mem_splitPath_iff {IsPiece : List Char → Prop}
    (hpieces : ∀ piece, IsPiece piece → IsUnseparated piece) (text : List Char) :
    (∀ piece ∈ splitPath text, IsPiece piece) ↔ IsJoined IsPiece text := by
  constructor
  · intro h
    induction hlength : text.length using Nat.strongRecOn generalizing text with
    | ind length ih =>
      rcases isUnseparated_or_exists text with htext | ⟨piece, separator, rest, hpiece, hsep, rfl⟩
      · rw [splitPath_of_isUnseparated htext] at h
        exact .single (h text List.mem_cons_self)
      · rw [splitPath_append hpiece hsep, List.forall_mem_cons] at h
        have hshorter : rest.length < length := by
          rw [← hlength, List.length_append, List.length_cons]
          omega
        exact .cons h.1 hsep (ih rest.length hshorter rest h.2 rfl)
  · intro h
    induction h with
    | single hpiece =>
      rw [splitPath_of_isUnseparated (hpieces _ hpiece)]
      exact List.forall_mem_singleton.2 hpiece
    | cons hpiece hsep _ ih =>
      rw [splitPath_append (hpieces _ hpiece) hsep]
      exact List.forall_mem_cons.2 ⟨hpiece, ih⟩

namespace IsJoined

variable {IsPiece IsOther : List Char → Prop} {text : List Char}

theorem mono (hpieces : ∀ piece, IsPiece piece → IsOther piece) (htext : IsJoined IsPiece text) :
    IsJoined IsOther text := by
  induction htext with
  | single hpiece => exact .single (hpieces _ hpiece)
  | cons hpiece hsep _ ih => exact .cons (hpieces _ hpiece) hsep ih

/-- A character of a joined text stands in a piece or separates two. -/
theorem char (htext : IsJoined IsPiece text) {c : Char} (hc : c ∈ text) :
    (∃ piece, IsPiece piece ∧ c ∈ piece) ∨ c = '/' ∨ c = '.' := by
  induction htext with
  | single hpiece => exact Or.inl ⟨_, hpiece, hc⟩
  | cons hpiece hsep _ ih =>
    rcases List.mem_append.1 hc with hc | hc
    · exact Or.inl ⟨_, hpiece, hc⟩
    · rcases List.mem_cons.1 hc with rfl | hc
      · exact Or.inr hsep
      · exact ih hc

/-- What is joined of names begins with a letter or digit. -/
theorem head (htext : IsJoined IsNameOrLine text) :
    ∃ c, text.head? = some c ∧ isAlphanumeric c = true := by
  cases htext with
  | single hpiece =>
    obtain ⟨c, rest, rfl, hc⟩ := hpiece.head
    exact ⟨c, rfl, hc⟩
  | cons hpiece =>
    obtain ⟨c, rest, rfl, hc⟩ := hpiece.head
    exact ⟨c, rfl, hc⟩

/-- Without line feeds, the pieces are names. -/
theorem isName (htext : IsJoined IsNameOrLine text) (habsent : '\n' ∉ text) :
    IsJoined IsName text := by
  have hname : ∀ piece, IsNameOrLine piece → '\n' ∉ piece → IsName piece := by
    rintro piece ⟨name, hname, rfl | rfl⟩ hpiece
    · exact hname
    · exact absurd (List.mem_append_right name List.mem_cons_self) hpiece
  induction htext with
  | single hpiece => exact .single (hname _ hpiece habsent)
  | cons hpiece hsep _ ih =>
    rw [List.mem_append, List.mem_cons, not_or, not_or] at habsent
    exact .cons (hname _ hpiece habsent.1) hsep (ih habsent.2.2)

end IsJoined

/-! ### The test for paths -/

theorem isNameOrLine_of_isName {piece : List Char} (hname : IsName piece) : IsNameOrLine piece :=
  ⟨piece, hname, Or.inl rfl⟩

/-- The test for paths takes the texts of names between separators that begin with a letter, where
each name may have a line feed behind it. -/
theorem isPath_iff (text : List Char) : isPath text = true ↔ IsPathOf IsNameOrLine text := by
  have hsegments : (splitPath text).all isSegment = true ↔ IsJoined IsNameOrLine text := by
    rw [List.all_eq_true, ← forall_mem_splitPath_iff fun _ ↦ IsNameOrLine.isUnseparated]
    exact forall₂_congr fun piece _ ↦ isSegment_iff piece
  unfold isPath
  rw [Bool.and_eq_true, hsegments]
  constructor
  · rintro ⟨hfirst, hjoined⟩
    obtain ⟨c, hhead, hc⟩ := hjoined.head
    obtain ⟨rest, rfl⟩ := List.head?_eq_some_iff.1 hhead
    exact ⟨hjoined, c, hhead, (isLetter_of_isAlphanumeric hc).symm.trans hfirst⟩
  · rintro ⟨hjoined, c, hhead, hletter⟩
    obtain ⟨rest, rfl⟩ := List.head?_eq_some_iff.1 hhead
    have hc : isAlphanumeric c = true := by rw [isAlphanumeric, hletter, Bool.true_or]
    exact ⟨(isLetter_of_isAlphanumeric hc).trans hletter, hjoined⟩

/-- A text is taken for a path of variables if and only if it consists of names between slashes and
points, each with a line feed behind it or not, and begins with a letter. The texts of names alone
are the paths without line feeds. No other white space is in a path. -/
theorem isPath_grammar (text : List Char) :
    (isPath text = true ↔ IsPathOf IsNameOrLine text) ∧
      (IsPathOf IsName text ↔ isPath text = true ∧ '\n' ∉ text) ∧
      (isPath text = true → ∀ c ∈ text, isSpace c = true → c = '\n') := by
  refine ⟨isPath_iff text, ?_, ?_⟩
  · rw [isPath_iff]
    constructor
    · rintro ⟨hjoined, hletter⟩
      refine ⟨⟨hjoined.mono fun _ ↦ isNameOrLine_of_isName, hletter⟩, fun hmem ↦ ?_⟩
      rcases hjoined.char hmem with ⟨piece, hname, hpiece⟩ | hfound | hfound
      · exact hname.not_mem (by decide) (by decide) hpiece
      · revert hfound
        decide
      · revert hfound
        decide
    · rintro ⟨⟨hjoined, hletter⟩, habsent⟩
      exact ⟨hjoined.isName habsent, hletter⟩
  · intro hpath c hc hspace
    rcases ((isPath_iff text).1 hpath).joined.char hc with ⟨piece, hpiece, hmem⟩ | rfl | rfl
    · rcases hpiece.char hmem with hfound | rfl | rfl | hfound
      · rw [isSpace_of_isAlphanumeric hfound] at hspace
        cases hspace
      · revert hspace
        decide
      · revert hspace
        decide
      · exact hfound
    · revert hspace
      decide
    · revert hspace
      decide

/-- A line feed behind a name is not seen, and so this text counts as a path. -/
example : isPath "a\n/b".toList = true := by decide

/-! ### Paths as locations -/

/-- What is joined of names ends in a letter or digit. -/
theorem IsJoined.getLast {text : List Char} (htext : IsJoined IsName text) :
    ∃ c, text.getLast? = some c ∧ isAlphanumeric c = true := by
  induction htext with
  | single hpiece => exact hpiece.last
  | @cons piece rest separator _ _ _ ih =>
    obtain ⟨c, hlast, hc⟩ := ih
    refine ⟨c, ?_, hc⟩
    rw [List.getLast?_append, List.getLast?_cons, hlast]
    rfl

namespace IsPathOf

variable {text : List Char} (htext : IsPathOf IsName text)

include htext

theorem not_mem_of_mark {c : Char} (hc : isAlphanumeric c = false)
    (hmark : c ≠ '_' ∧ c ≠ '-' ∧ c ≠ '/' ∧ c ≠ '.') : c ∉ text := by
  intro hmem
  rcases htext.joined.char hmem with ⟨piece, hpiece, hfound⟩ | hfound | hfound
  · exact hpiece.not_mem hc ⟨hmark.1, hmark.2.1⟩ hfound
  · exact hmark.2.2.1 hfound
  · exact hmark.2.2.2 hfound

theorem isSpace_eq_false {c : Char} (hc : c ∈ text) : isSpace c = false := by
  have hgrammar := isPath_grammar text
  obtain ⟨hpath, hline⟩ := hgrammar.2.1.1 htext
  by_contra hspace
  rw [Bool.not_eq_false] at hspace
  exact hline (hgrammar.2.2 hpath c hc hspace ▸ hc)

theorem scheme?_eq_none : scheme? text = none := by
  unfold scheme?
  dsimp only
  split
  · rename_i rest hrest
    have hmem : ':' ∈ text := (List.dropWhile_suffix _).subset (hrest ▸ List.mem_cons_self)
    exact absurd hmem (htext.not_mem_of_mark (by decide) (by decide))
  · rfl

/-- A text of the grammar of paths denotes itself. -/
theorem ofText?_eq (directories : Directories) :
    ofText? directories text = .ok (some (String.ofList text)) := by
  have hpath : isPath text = true := ((isPath_grammar text).2.1.1 htext).1
  obtain ⟨c, hhead, hc⟩ := htext.letter
  obtain ⟨rest, rfl⟩ := List.head?_eq_some_iff.1 hhead
  have hbegins : beginsPath (c :: rest) = false := by
    have hne : ∀ d : Char, isAsciiLetter d = false → d ≠ c := by
      rintro d hd rfl
      rw [hc] at hd
      cases hd
    simp [beginsPath, startsWith, afterStart, hne '/' (by decide), hne '.' (by decide),
      hne '~' (by decide)]
  unfold ofText?
  simp only [trim_eq_self fun d hd ↦ htext.isSpace_eq_false hd, List.isEmpty_cons, hbegins,
    htext.scheme?_eq_none, hpath, Bool.false_eq_true, if_false, if_true]

/-- The segments of a path are its pieces. -/
theorem segments_eq : segments (String.ofList text) = (splitPath text).map String.ofList := by
  obtain ⟨c, hhead, hc⟩ := htext.letter
  obtain ⟨d, hlast, hd⟩ := htext.joined.getLast
  have hslash : ∀ {e : Char}, isAlphanumeric e = true → (e == '/') = false := fun he ↦
    beq_eq_false_iff_ne.2 (isAlphanumeric_ne he (by decide))
  have hkept : trimEndBy (· == '/') (trimStartBy (· == '/') text) = text := by
    refine trimBy_eq_of_ends (fun e he ↦ ?_) fun e he ↦ ?_
    · cases hhead.symm.trans he
      exact hslash (by rw [isAlphanumeric, hc, Bool.true_or])
    · cases hlast.symm.trans he
      exact hslash hd
  have hfilled : text.isEmpty = false := by
    rw [List.isEmpty_eq_false_iff]
    rintro rfl
    cases hhead
  unfold segments
  simp only [String.toList_ofList, htext.scheme?_eq_none, reduceCtorEq, if_false, hkept, hfilled,
    Bool.false_eq_true]

end IsPathOf

/-- Whether a text is the name of a variable: it begins with an ASCII letter. -/
structure IsVariableName (name : List Char) : Prop extends IsName name where
  /-- It begins with a letter. -/
  letter : ∃ c, name.head? = some c ∧ isAsciiLetter c = true

/-- The name of a variable does not begin with a digit or a sign, so it spells no integer. -/
theorem IsVariableName.not_spells {name : List Char} (hname : IsVariableName name) (n : Int) :
    ¬ Numeral.Spells name n := by
  obtain ⟨c, hhead, hc⟩ := hname.letter
  obtain ⟨rest, rfl⟩ := List.head?_eq_some_iff.1 hhead
  intro hspells
  cases hspells with
  | unsigned hdigits =>
    have hdigit := hdigits.isDecimalDigit c List.mem_cons_self
    rw [isDecimalDigit_of_isAsciiLetter hc] at hdigit
    cases hdigit
  | plus | minus =>
    revert hc
    decide

/-- The path of names. -/
def variablePath (names : List String) : String :=
  String.ofList (joinWith ['/'] (names.map String.toList))

theorem splitPath_joinWith {names : List (List Char)} (hfilled : names ≠ [])
    (hnames : ∀ name ∈ names, IsName name) : splitPath (joinWith ['/'] names) = names := by
  induction names with
  | nil => exact absurd rfl hfilled
  | cons name rest ih =>
    rw [List.forall_mem_cons] at hnames
    have hname : IsUnseparated name := (isNameOrLine_of_isName hnames.1).isUnseparated
    cases rest with
    | nil => exact splitPath_of_isUnseparated hname
    | cons next rest =>
      rw [joinWith_cons_cons, List.append_assoc, List.singleton_append,
        splitPath_append hname (.inl rfl), ih (List.cons_ne_nil next rest) hnames.2]

section Names

variable {name : String} {keys : List String} (hname : IsVariableName name.toList)
  (hkeys : ∀ key ∈ keys, IsName key.toList)

include hname hkeys

theorem splitPath_variablePath : splitPath (variablePath (name :: keys)).toList =
    (name :: keys).map String.toList := by
  rw [variablePath, String.toList_ofList]
  refine splitPath_joinWith (List.cons_ne_nil _ _) fun piece hpiece ↦ ?_
  obtain ⟨key, hkey, rfl⟩ := List.mem_map.1 hpiece
  rcases List.mem_cons.1 hkey with rfl | hkey
  · exact hname.toIsName
  · exact hkeys key hkey

theorem isPathOf_variablePath : IsPathOf IsName (variablePath (name :: keys)).toList := by
  have hsplit := splitPath_variablePath hname hkeys
  refine ⟨(forall_mem_splitPath_iff (fun _ h ↦ (isNameOrLine_of_isName h).isUnseparated) _).1
    fun piece hpiece ↦ ?_, ?_⟩
  · rw [hsplit] at hpiece
    obtain ⟨key, hkey, rfl⟩ := List.mem_map.1 hpiece
    rcases List.mem_cons.1 hkey with rfl | hkey
    · exact hname.toIsName
    · exact hkeys key hkey
  · obtain ⟨c, hhead, hc⟩ := hname.letter
    obtain ⟨rest, hrest⟩ := List.head?_eq_some_iff.1 hhead
    refine ⟨c, ?_, hc⟩
    cases keys <;> simp [variablePath, joinWith, hrest]

/-- The segments of the path of names are the names. -/
theorem segments_variablePath : segments (variablePath (name :: keys)) = name :: keys := by
  have hsegments := (isPathOf_variablePath hname hkeys).segments_eq
  rw [String.ofList_toList, splitPath_variablePath hname hkeys, List.map_map] at hsegments
  exact hsegments.trans ((List.map_congr_left fun _ _ ↦ String.ofList_toList).trans (List.map_id _))

end Names

end ResourceScript.Location
