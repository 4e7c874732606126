import Mathlib.Data.List.Forall2
import ResourceScript.Format.Properties
import ResourceScript.Proofs.Text.Pieces
/-!
# Property lists are read back

A character of a key or a value is written as a unit: itself, or a backslash and another character
(`IsUnit`). Units are undone by `unescape`, end no key and no line, and leave the number of
backslashes at the end even. So the line of an entry is a logical line of its own, and it is split
where it was joined (`split_entryLine`).

A list of entries is read back from its text (`read_write`) if its texts hold no line break other
than the line feed and the carriage return. These two are escaped; the other characters that end a
line when the text is read are written as they are.
-/

set_option autoImplicit false

namespace ResourceScript.Properties

open Text

/-! ### Units -/

/-- Whether a character is written so that no line ends at it. -/
def IsWritable (c : Char) : Prop :=
  isLineBreak c = true → c = '\n' ∨ c = '\r'

instance (c : Char) : Decidable (IsWritable c) :=
  inferInstanceAs (Decidable (_ → _))

/-- The white space that is never escaped. -/
def formFeed : Char := Char.ofNat 0x0c

theorem IsWritable.ne_formFeed {c : Char} (hc : IsWritable c) : c ≠ formFeed := by
  rintro rfl
  exact absurd (hc (by decide)) (by decide)

theorem isGap_iff {c : Char} : isGap c = true ↔ c = ' ' ∨ c = '\t' ∨ c = formFeed := by
  simp [isGap, formFeed, or_assoc]

/-- The units that a character of a key or a value can be written as. -/
inductive IsUnit (key first : Bool) (c : Char) : List Char → Prop
  /-- A backslash and a character that stands for the character. -/
  | pair {e : Char} (hescaped : escaped e = c) (hunit : e ≠ 'u') (hbreak : isLineBreak e = false)
    (hfeed : e ≠ 'f') : IsUnit key first c ['\\', e]
  /-- The character itself, which is none that separates, begins a comment or a space in front. -/
  | plain (hslash : c ≠ '\\') (hbreak : c ≠ '\n' ∧ c ≠ '\r') (htab : c ≠ '\t')
    (hkey : key = true → c ≠ '=' ∧ c ≠ ':' ∧ c ≠ '#' ∧ c ≠ '!')
    (hspace : key = true ∨ first = true → c ≠ ' ') : IsUnit key first c [c]

theorem isUnit_escapeChar (key first : Bool) (c : Char) :
    IsUnit key first c (escapeChar key first c) := by
  unfold escapeChar
  split
  · rename_i hc
    subst hc
    exact .pair (by decide) (by decide) (by decide) (by decide)
  rename_i hslash
  split
  · rename_i hc
    subst hc
    exact .pair (by decide) (by decide) (by decide) (by decide)
  rename_i hfeed
  split
  · rename_i hc
    subst hc
    exact .pair (by decide) (by decide) (by decide) (by decide)
  rename_i hreturn
  split
  · rename_i hc
    subst hc
    exact .pair (by decide) (by decide) (by decide) (by decide)
  rename_i htab
  split
  · rename_i hc
    simp only [Bool.and_eq_true, Bool.or_eq_true, beq_iff_eq] at hc
    obtain ⟨-, ((rfl | rfl) | rfl) | rfl⟩ := hc <;>
      exact .pair (by decide) (by decide) (by decide) (by decide)
  rename_i hseparator
  split
  · rename_i hc
    rw [hc.1]
    exact .pair (by decide) (by decide) (by decide) (by decide)
  rename_i hspace
  refine .plain hslash ⟨hfeed, hreturn⟩ htab (fun hkey ↦ ?_) fun hplace hc ↦ hspace ⟨hc, ?_⟩
  · simpa [hkey, and_assoc] using hseparator
  · rcases hplace with hplace | hplace <;> simp [hplace]

theorem unescape_plain {c : Char} (hslash : c ≠ '\\') (rest : List Char) :
    unescape (c :: rest) = (unescape rest).map (c :: ·) := by
  rw [unescape.eq_def]
  simp only [if_neg hslash]
  rfl

theorem unescape_pair {e : Char} (hunit : e ≠ 'u') (hbreak : isLineBreak e = false)
    (rest : List Char) :
    unescape ('\\' :: e :: rest) = (unescape rest).map (escaped e :: ·) := by
  have hfeed : e ≠ '\n' := by
    rintro rfl
    exact absurd hbreak (by decide)
  rw [unescape, if_pos rfl]
  simp only [if_neg hunit, if_neg hfeed]
  rfl

/-- A backslash and another character leave the number of backslashes at the end even. -/
theorem continues_append_pair {line : List Char} (hline : continues line = false) (e : Char) :
    continues (line ++ ['\\', e]) = false := by
  by_cases he : e = '\\'
  · subst he
    simp only [continues, List.reverse_append, List.reverse_cons, List.reverse_nil,
      List.nil_append, List.cons_append, List.takeWhile_cons] at hline ⊢
    simpa [Nat.add_assoc] using hline
  · simp [continues, he]

section Units

variable {key first : Bool} {c : Char} {unit : List Char} (hunit : IsUnit key first c unit)

include hunit

theorem IsUnit.unescape_append (rest : List Char) :
    unescape (unit ++ rest) = (unescape rest).map (c :: ·) := by
  cases hunit with
  | pair hescaped hunit hbreak => exact hescaped ▸ unescape_pair hunit hbreak rest
  | plain hslash => exact unescape_plain hslash rest

/-- What a line ends at is in a unit only if it is written as it is, and then it is neither a line
feed nor a carriage return. -/
theorem IsUnit.eq_and_ne_of_mem {d : Char} (hd : d ∈ unit) (hbreak : isLineBreak d = true) :
    d = c ∧ d ≠ '\n' ∧ d ≠ '\r' := by
  cases hunit with
  | pair _ _ hnone =>
    rcases List.mem_cons.1 hd with rfl | hd
    · exact absurd hbreak (by decide)
    · rw [List.mem_singleton.1 hd, hnone] at hbreak
      cases hbreak
  | plain _ hne =>
    obtain rfl := List.mem_singleton.1 hd
    exact ⟨rfl, hne⟩

/-- The number of backslashes at the end stays even. -/
theorem IsUnit.continues_append {line : List Char} (hline : continues line = false) :
    continues (line ++ unit) = false := by
  cases hunit with
  | pair => exact continues_append_pair hline _
  | plain hslash => simp [continues, hslash]

/-- No unit of a key ends it, but for a form feed. -/
theorem IsUnit.cutKey_append (hkey : key = true) (hfeed : c ≠ formFeed) (rest : List Char) :
    cutKey (unit ++ rest) = (unit ++ (cutKey rest).1, (cutKey rest).2) := by
  cases hunit with
  | pair => rfl
  | plain hslash _ htab hkeys hspace =>
    have hgap : ¬ isGap c = true := by simp [isGap_iff, htab, hspace (Or.inl hkey), hfeed]
    rw [List.singleton_append, cutKey.eq_3 _ _ (by simp [hslash]),
      if_neg (by simp [hkeys hkey, hgap])]
    rfl

/-- The first unit of a key or a value is not dropped as white space, but for a form feed, and that
of a key begins no comment. -/
theorem IsUnit.head (hfirst : first = true) (hfeed : c ≠ formFeed) :
    ∃ d more, unit = d :: more ∧ isGap d = false ∧ (key = true → d ≠ '#' ∧ d ≠ '!') := by
  cases hunit with
  | pair => exact ⟨'\\', _, rfl, by decide, fun _ ↦ by decide⟩
  | plain hslash _ htab hkeys hspace =>
    have hgap : ¬ isGap c = true := by simp [isGap_iff, htab, hspace (Or.inr hfirst), hfeed]
    refine ⟨c, [], rfl, eq_false_of_ne_true hgap, fun hkey ↦ ?_⟩
    exact ⟨(hkeys hkey).2.2.1, (hkeys hkey).2.2.2⟩

end Units

/-! ### Keys and values -/

/-- The units of a text. -/
def AreUnits (key : Bool) (text : List Char) (units : List (List Char)) : Prop :=
  List.Forall₂ (fun c unit ↦ ∃ first, IsUnit key first c unit) text units

theorem exists_units (key : Bool) (text : List Char) :
    ∃ units, escape key text = units.flatten ∧ AreUnits key text units := by
  cases text with
  | nil => exact ⟨[], rfl, .nil⟩
  | cons c rest =>
    refine ⟨escapeChar key true c :: rest.map (escapeChar key false), ?_,
      .cons ⟨true, isUnit_escapeChar key true c⟩ ?_⟩
    · rw [escape, List.flatten_cons, List.flatMap_def]
    · exact List.forall₂_map_right_iff.2
        (List.forall₂_same.2 fun d _ ↦ ⟨false, isUnit_escapeChar key false d⟩)

variable {key : Bool} {text : List Char}

/-- Escapes are undone. -/
theorem unescape_escape (key : Bool) (text : List Char) :
    unescape (escape key text) = .ok text := by
  obtain ⟨units, hescape, hunits⟩ := exists_units key text
  rw [hescape]
  clear hescape
  induction hunits with
  | nil => rw [List.flatten_nil, unescape]
  | cons hunit _ ih =>
    obtain ⟨first, hunit⟩ := hunit
    rw [List.flatten_cons, hunit.unescape_append, ih]
    rfl

/-- What a line ends at is in an escaped text only if it is in the text, and then it is neither a
line feed nor a carriage return. -/
theorem mem_and_ne_of_mem_escape {d : Char} (hd : d ∈ escape key text)
    (hbreak : isLineBreak d = true) : d ∈ text ∧ d ≠ '\n' ∧ d ≠ '\r' := by
  obtain ⟨units, hescape, hunits⟩ := exists_units key text
  rw [hescape] at hd
  clear hescape
  induction hunits with
  | nil => exact absurd hd List.not_mem_nil
  | cons hunit _ ih =>
    obtain ⟨first, hunit⟩ := hunit
    rcases List.mem_append.1 hd with hd | hd
    · obtain ⟨rfl, hne⟩ := hunit.eq_and_ne_of_mem hd hbreak
      exact ⟨List.mem_cons_self, hne⟩
    · exact (ih hd).imp_left (List.mem_cons_of_mem _)

theorem isLineBreak_of_mem_escape (htext : ∀ c ∈ text, IsWritable c) {d : Char}
    (hd : d ∈ escape key text) : isLineBreak d = false := by
  rw [← Bool.not_eq_true]
  intro hbreak
  obtain ⟨hmem, hfeed, hreturn⟩ := mem_and_ne_of_mem_escape hd hbreak
  exact (htext d hmem hbreak).elim hfeed hreturn

theorem continues_append_escape {line : List Char} (hline : continues line = false) :
    continues (line ++ escape key text) = false := by
  obtain ⟨units, hescape, hunits⟩ := exists_units key text
  rw [hescape]
  clear hescape
  induction hunits generalizing line with
  | nil => rwa [List.flatten_nil, List.append_nil]
  | cons hunit _ ih =>
    obtain ⟨first, hunit⟩ := hunit
    rw [List.flatten_cons, ← List.append_assoc]
    exact ih (hunit.continues_append hline)

/-- A written key without form feeds ends where the equals sign stands. -/
theorem cutKey_escape (htext : formFeed ∉ text) (rest : List Char) :
    cutKey (escape true text ++ '=' :: rest) = (escape true text, '=' :: rest) := by
  obtain ⟨units, hescape, hunits⟩ := exists_units true text
  rw [hescape]
  clear hescape
  induction hunits with
  | nil => rfl
  | cons hunit _ ih =>
    obtain ⟨first, hunit⟩ := hunit
    rw [List.mem_cons, not_or] at htext
    rw [List.flatten_cons, List.append_assoc, hunit.cutKey_append rfl (Ne.symm htext.1),
      ih htext.2]

/-- A written text begins with no white space unless the text begins with a form feed, and a written
key with no mark of comments. -/
theorem head_escape (key : Bool) (htext : text.head? ≠ some formFeed) : escape key text = [] ∨
    ∃ d more, escape key text = d :: more ∧ isGap d = false ∧
      (key = true → d ≠ '#' ∧ d ≠ '!') := by
  cases text with
  | nil => exact Or.inl rfl
  | cons c rest =>
    have hfeed : c ≠ formFeed := fun hc ↦ htext (congrArg some hc)
    obtain ⟨d, more, hunit, hd⟩ := (isUnit_escapeChar key true c).head rfl hfeed
    exact Or.inr ⟨d, more ++ rest.flatMap (escapeChar key false), by rw [escape, hunit]; rfl, hd⟩

theorem trimStartBy_escape (htext : text.head? ≠ some formFeed) :
    trimStartBy isGap (escape key text) = escape key text := by
  rcases head_escape key htext with hnil | ⟨d, more, hcons, hd, -⟩
  · rw [hnil]
    rfl
  · rw [hcons, trimStartBy, List.dropWhile_cons_of_neg (by simp [hd])]

/-! ### Entries -/

/-- Whether the texts of an entry are written so that no line ends inside. -/
def IsWritableEntry (entry : List Char × List Char) : Prop :=
  (∀ c ∈ entry.1, IsWritable c) ∧ ∀ c ∈ entry.2, IsWritable c

/-- The line of an entry without its end. -/
def entryLine (entry : List Char × List Char) : List Char :=
  escape true entry.1 ++ '=' :: escape false entry.2

variable {entry : List Char × List Char}

/-- The form feeds of an entry that is split where it was joined: none in the key, and none at the
beginning of the value. -/
def IsSplitEntry (entry : List Char × List Char) : Prop :=
  formFeed ∉ entry.1 ∧ entry.2.head? ≠ some formFeed

theorem IsWritableEntry.isSplitEntry (hentry : IsWritableEntry entry) : IsSplitEntry entry :=
  ⟨fun hmem ↦ (hentry.1 _ hmem).ne_formFeed rfl, fun hhead ↦
    (hentry.2 _ (List.mem_of_head? hhead)).ne_formFeed rfl⟩

/-- Without form feeds in the key, the line of an entry is split behind the key, and the value is
trimmed. -/
theorem split_entryLine_eq (entry : List Char × List Char) (hkey : formFeed ∉ entry.1) :
    split (entryLine entry) =
      (escape true entry.1, trimStartBy isGap (escape false entry.2)) := by
  have hequals : trimStartBy isGap ('=' :: escape false entry.2) = '=' :: escape false entry.2 :=
    List.dropWhile_cons_of_neg (by decide)
  rw [split, entryLine, cutKey_escape hkey]
  simp only [hequals, true_or, if_true]

/-- The line of an entry is split where it was joined. -/
theorem split_entryLine (hentry : IsSplitEntry entry) :
    split (entryLine entry) = (escape true entry.1, escape false entry.2) := by
  rw [split_entryLine_eq entry hentry.1, trimStartBy_escape hentry.2]

theorem entry_entryLine (hentry : IsWritableEntry entry) :
    Properties.entry (entryLine entry) = .ok entry := by
  rw [Properties.entry, split_entryLine hentry.isSplitEntry]
  simp only [unescape_escape]
  rfl

theorem isLineBreak_of_mem_entryLine (hentry : IsWritableEntry entry) {c : Char}
    (hc : c ∈ entryLine entry) : isLineBreak c = false := by
  rcases List.mem_append.1 hc with hc | hc
  · exact isLineBreak_of_mem_escape hentry.1 hc
  · rcases List.mem_cons.1 hc with rfl | hc
    · decide
    · exact isLineBreak_of_mem_escape hentry.2 hc

/-- Whether a line is a property as it stands: nothing in front is dropped, it is no comment, and it
does not go on with the next. -/
structure IsProperty (line : List Char) : Prop where
  /-- It begins with no white space. -/
  trimmed : trimStartBy isGap line = line
  /-- It is neither empty nor a comment. -/
  kept : isSkipped line = false
  /-- It does not go on with the next line. -/
  ends : continues line = false

theorem isProperty_entryLine (hentry : IsWritableEntry entry) : IsProperty (entryLine entry) := by
  have hends : continues (entryLine entry) = false := by
    have hequals : continues (escape true entry.1 ++ ['=']) = false := by simp [continues]
    rw [entryLine, ← List.singleton_append, ← List.append_assoc]
    exact continues_append_escape hequals
  have hhead : entry.1.head? ≠ some formFeed := fun hhead ↦
    hentry.isSplitEntry.1 (List.mem_of_head? hhead)
  rcases head_escape true hhead with hnil | ⟨d, more, hcons, hgap, hmark⟩
  · have hline : entryLine entry = '=' :: escape false entry.2 := by rw [entryLine, hnil]; rfl
    rw [hline] at hends ⊢
    exact ⟨List.dropWhile_cons_of_neg (by decide), rfl, hends⟩
  · have hline : entryLine entry = d :: (more ++ '=' :: escape false entry.2) := by
      rw [entryLine, hcons]
      rfl
    rw [hline] at hends ⊢
    exact ⟨List.dropWhile_cons_of_neg (by simp [hgap]), by simp [isSkipped, hmark rfl], hends⟩

/-- If no line goes on with the next, the properties are the lines that are neither blank nor
comments. -/
theorem logicalLines_of_ends {raws : List (List Char)}
    (hends : ∀ raw ∈ raws, continues (trimStartBy isGap raw) = false) :
    logicalLines [] raws = (raws.map (trimStartBy isGap)).filter fun line ↦ !isSkipped line := by
  induction raws with
  | nil => rfl
  | cons raw rest ih =>
    rw [List.forall_mem_cons] at hends
    rw [logicalLines, hends.1, List.map_cons, List.filter_cons, ← ih hends.2]
    cases isSkipped (trimStartBy isGap raw) <;> rfl

/-- Properties as they stand are read one by one. -/
theorem logicalLines_of_isProperty {lines : List (List Char)}
    (hlines : ∀ line ∈ lines, IsProperty line) : logicalLines [] lines = lines := by
  have htrimmed : lines.map (trimStartBy isGap) = lines :=
    (List.map_congr_left fun line hline ↦ (hlines line hline).trimmed).trans (List.map_id _)
  rw [logicalLines_of_ends fun line hline ↦ (hlines line hline).trimmed.symm ▸
    (hlines line hline).ends, htrimmed]
  exact List.filter_eq_self.2 fun line hline ↦ by rw [(hlines line hline).kept]; rfl

theorem lines_write {entries : List (List Char × List Char)}
    (hentries : ∀ entry ∈ entries, IsWritableEntry entry) :
    lines (write entries) = entries.map entryLine := by
  induction entries with
  | nil => rfl
  | cons entry rest ih =>
    have hwrite : write (entry :: rest) = entryLine entry ++ '\n' :: write rest := by
      simp [write, writeEntry, entryLine]
    have hentry := hentries entry List.mem_cons_self
    rw [hwrite, lines_append fun c hc ↦ isLineBreak_of_mem_entryLine hentry hc,
      ih fun other hother ↦ hentries other (List.mem_cons_of_mem entry hother), List.map_cons]

/-- A list of entries is read back from its text. -/
theorem read_write {entries : List (List Char × List Char)}
    (hentries : ∀ entry ∈ entries, IsWritableEntry entry) : read (write entries) = .ok entries := by
  have hproperties : ∀ line ∈ entries.map entryLine, IsProperty line := by
    intro line hline
    obtain ⟨entry, hentry, rfl⟩ := List.mem_map.1 hline
    exact isProperty_entryLine (hentries entry hentry)
  have hread : (entries.map entryLine).mapM Properties.entry = .ok entries := by
    rw [List.mapM_map]
    exact (mapM_eq_ok fun entry hentry ↦ entry_entryLine (hentries entry hentry)).trans
      (congrArg _ (List.map_id _))
  rw [read, lines_write hentries, logicalLines_of_isProperty hproperties, hread]

end ResourceScript.Properties
