import ResourceScript.Proofs.Format.Properties
/-!
# What written property lists are read as

A text of entries consists of units, line feeds, and characters that are written as they are. Cut
into lines and split, it still does, because no break separates a backslash from what it escapes
(`IsWritten`). So no line goes on with the next, and no escape stands for a line break other than the
line feed and the carriage return: a key or a value that holds another is never read back
(`isWritableEntry_of_read_write`).
-/

set_option autoImplicit false

namespace ResourceScript.Properties

open Text

/-- Whether a text consists of characters that are written as they are and of backslashes with a
character behind them; `whole` tells that no line ends inside. -/
inductive IsWritten (whole : Bool) : List Char → Prop
  /-- Nothing. -/
  | nil : IsWritten whole []
  /-- A character as it is. -/
  | plain {c : Char} {rest : List Char} (hslash : c ≠ '\\') (hreturn : c ≠ '\r')
    (hwhole : whole = true → isLineBreak c = false) (hrest : IsWritten whole rest) :
    IsWritten whole (c :: rest)
  /-- A backslash and a character, which stand for no line break that is written as it is. -/
  | pair {e : Char} {rest : List Char} (hunit : e ≠ 'u') (hfeed : e ≠ 'f')
    (hbreak : isLineBreak e = false) (hrest : IsWritten whole rest) :
    IsWritten whole ('\\' :: e :: rest)

theorem isWritable_escaped {e : Char} (hfeed : e ≠ 'f') (hbreak : isLineBreak e = false) :
    IsWritable (escaped e) := by
  unfold escaped
  split_ifs
  · decide
  · decide
  · decide
  · intro hline
    rw [hbreak] at hline
    cases hline

namespace IsWritten

variable {whole : Bool} {text other : List Char}

theorem append (htext : IsWritten whole text) (hother : IsWritten whole other) :
    IsWritten whole (text ++ other) := by
  induction htext with
  | nil => exact hother
  | plain hslash hreturn hwhole _ ih => exact .plain hslash hreturn hwhole ih
  | pair hunit hfeed hbreak _ ih => exact .pair hunit hfeed hbreak ih

theorem trimStartBy (htext : IsWritten whole text) :
    IsWritten whole (trimStartBy isGap text) := by
  induction htext with
  | nil => exact .nil
  | plain hslash hreturn hwhole hrest ih =>
    rw [Text.trimStartBy, List.dropWhile_cons]
    split
    · exact ih
    · exact .plain hslash hreturn hwhole hrest
  | pair hunit hfeed hbreak hrest =>
    rw [Text.trimStartBy, List.dropWhile_cons_of_neg (by decide)]
    exact .pair hunit hfeed hbreak hrest

/-- The number of backslashes at the end stays even. -/
theorem continues_append (htext : IsWritten whole text) {line : List Char}
    (hline : continues line = false) : continues (line ++ text) = false := by
  induction htext generalizing line with
  | nil => rwa [List.append_nil]
  | plain hslash _ _ _ ih =>
    rw [← List.singleton_append, ← List.append_assoc]
    exact ih (by simp [continues, hslash])
  | @pair e rest _ _ _ _ ih =>
    have happend : line ++ '\\' :: e :: rest = line ++ ['\\', e] ++ rest := by simp
    rw [happend]
    exact ih (continues_append_pair hline e)

theorem ends (htext : IsWritten whole text) : continues text = false := by
  have hnothing : continues [] = false := rfl
  exact htext.continues_append hnothing

theorem cutKey (htext : IsWritten whole text) :
    IsWritten whole (Properties.cutKey text).1 ∧ IsWritten whole (Properties.cutKey text).2 := by
  induction htext with
  | nil => exact ⟨.nil, .nil⟩
  | plain hslash hreturn hwhole hrest ih =>
    rw [Properties.cutKey.eq_3 _ _ (by simp [hslash])]
    split
    · exact ⟨.nil, .plain hslash hreturn hwhole hrest⟩
    · exact ⟨.plain hslash hreturn hwhole ih.1, ih.2⟩
  | pair hunit hfeed hbreak _ ih => exact ⟨.pair hunit hfeed hbreak ih.1, ih.2⟩

/-- The key and the value of a line are written like the line. -/
theorem split (htext : IsWritten whole text) :
    IsWritten whole (Properties.split text).1 ∧ IsWritten whole (Properties.split text).2 := by
  obtain ⟨hkey, hafter⟩ := htext.cutKey
  have htrimmed := hafter.trimStartBy
  unfold Properties.split
  dsimp only
  generalize Text.trimStartBy isGap (Properties.cutKey text).2 = after at htrimmed
  cases htrimmed with
  | nil => exact ⟨hkey, .nil⟩
  | plain hslash hreturn hwhole hrest =>
    dsimp only
    split_ifs
    · exact ⟨hkey, hrest.trimStartBy⟩
    · exact ⟨hkey, .plain hslash hreturn hwhole hrest⟩
  | pair hunit hfeed hbreak hrest => exact ⟨hkey, .pair hunit hfeed hbreak hrest⟩

/-- What a line is read as holds no break that is written as it is. -/
theorem isWritable_of_unescape (htext : IsWritten true text) {read : List Char}
    (hread : unescape text = .ok read) : ∀ c ∈ read, IsWritable c := by
  induction htext generalizing read with
  | nil =>
    rw [unescape] at hread
    cases hread
    exact fun _ hc ↦ absurd hc List.not_mem_nil
  | @plain c rest hslash _ hwhole _ ih =>
    rw [unescape_plain hslash] at hread
    obtain ⟨more, hrest, rfl⟩ := map_eq_ok hread
    refine List.forall_mem_cons.2 ⟨fun hbreak ↦ ?_, ih hrest⟩
    rw [hwhole rfl] at hbreak
    cases hbreak
  | @pair e rest hunit hfeed hbreak _ ih =>
    rw [unescape_pair hunit hbreak] at hread
    obtain ⟨more, hrest, rfl⟩ := map_eq_ok hread
    exact List.forall_mem_cons.2 ⟨isWritable_escaped hfeed hbreak, ih hrest⟩

/-- Cut into lines, a written text is written in each of them. -/
theorem of_mem_lines_go {line : List Char} (hline : IsWritten true line.reverse)
    (htext : IsWritten whole text) : ∀ found ∈ lines.go line text, IsWritten true found := by
  induction htext generalizing line with
  | nil =>
    rw [lines.go]
    split
    · exact fun _ hfound ↦ absurd hfound List.not_mem_nil
    · exact List.forall_mem_singleton.2 hline
  | @plain c rest hslash hreturn _ _ ih =>
    rw [lines.go.eq_3 _ _ _ fun _ hc ↦ absurd hc hreturn]
    split
    · exact List.forall_mem_cons.2 ⟨hline, ih .nil⟩
    · rename_i hbreak
      refine ih ?_
      rw [List.reverse_cons]
      exact hline.append (.plain hslash hreturn (fun _ ↦ eq_false_of_ne_true hbreak) .nil)
  | @pair e rest hunit hfeed hbreak _ ih =>
    have hreturn : e ≠ '\r' := by
      rintro rfl
      exact absurd hbreak (by decide)
    have hslash : isLineBreak '\\' = false := by decide
    rw [lines.go.eq_3 _ _ _ fun _ hc ↦ absurd hc (by decide), hslash, if_neg Bool.false_ne_true,
      lines.go.eq_3 _ _ _ fun _ hc ↦ absurd hc hreturn, hbreak, if_neg Bool.false_ne_true]
    refine ih ?_
    rw [List.reverse_cons, List.reverse_cons, List.append_assoc]
    exact hline.append (.pair hunit hfeed hbreak .nil)

/-- The entry of a line is written so that no line ends inside. -/
theorem isWritableEntry (htext : IsWritten true text) {found : List Char × List Char}
    (hentry : entry text = .ok found) : IsWritableEntry found := by
  obtain ⟨hkey, hvalue⟩ := htext.split
  obtain ⟨key, hreadKey, hentry⟩ := bind_eq_ok hentry
  obtain ⟨value, hreadValue, hentry⟩ := bind_eq_ok hentry
  cases hentry
  exact ⟨hkey.isWritable_of_unescape hreadKey, hvalue.isWritable_of_unescape hreadValue⟩

end IsWritten

/-! ### The text of entries -/

theorem IsUnit.isWritten {key first : Bool} {c : Char} {unit : List Char}
    (hunit : IsUnit key first c unit) : IsWritten false unit := by
  cases hunit with
  | pair _ hunit hbreak hfeed => exact .pair hunit hfeed hbreak .nil
  | plain hslash hbreak => exact .plain hslash hbreak.2 nofun .nil

theorem isWritten_escape (key : Bool) (text : List Char) : IsWritten false (escape key text) := by
  obtain ⟨units, hescape, hunits⟩ := exists_units key text
  rw [hescape]
  clear hescape
  induction hunits with
  | nil => exact .nil
  | cons hunit _ ih =>
    obtain ⟨first, hunit⟩ := hunit
    rw [List.flatten_cons]
    exact hunit.isWritten.append ih

theorem isWritten_write (entries : List (List Char × List Char)) :
    IsWritten false (write entries) := by
  induction entries with
  | nil => exact .nil
  | cons entry rest ih =>
    have hend : IsWritten false ('\n' :: write rest) := .plain (by decide) (by decide) nofun ih
    have hvalue := (isWritten_escape false entry.2).append hend
    have hequals : IsWritten false ('=' :: (escape false entry.2 ++ '\n' :: write rest)) :=
      .plain (by decide) (by decide) nofun hvalue
    have hwrite : write (entry :: rest) =
        escape true entry.1 ++ '=' :: (escape false entry.2 ++ '\n' :: write rest) := by
      simp [write, writeEntry]
    rw [hwrite]
    exact (isWritten_escape true entry.1).append hequals

/-- Whatever entries are written, none is read back in which a line ends. -/
theorem isWritableEntry_of_read_write {entries back : List (List Char × List Char)}
    (hread : read (write entries) = .ok back) : ∀ entry ∈ back, IsWritableEntry entry := by
  have hlines : ∀ raw ∈ lines (write entries), IsWritten true (trimStartBy isGap raw) := by
    intro raw hraw
    have hempty : IsWritten true ([] : List Char).reverse := .nil
    exact (IsWritten.of_mem_lines_go hempty (isWritten_write entries) raw hraw).trimStartBy
  rw [read, logicalLines_of_ends fun raw hraw ↦ (hlines raw hraw).ends] at hread
  refine forall_mem_of_mapM hread fun line hline found hfound ↦ ?_
  obtain ⟨raw, hraw, rfl⟩ := List.mem_map.1 (List.mem_filter.1 hline).1
  exact (hlines raw hraw).isWritableEntry hfound

end ResourceScript.Properties
