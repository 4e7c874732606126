import ResourceScript.Proofs.Format.PropertyLines
/-!
# Escapes of property lists

Escaping a key or a value is undone by unescaping, and it leaves neither a line feed nor a carriage
return, nor a backslash at the end that could join the line to the next. Of the characters that
separate a key from a value, only the form feed is written as it is. So the line of an entry is
split where it was joined exactly if no form feed is in the key or at the beginning of the value
(`split_entryLine_iff`); `unescape_and_split_escape` says all this of every text.
-/

set_option autoImplicit false

namespace ResourceScript.Properties

open Text

variable {key : Bool} {text : List Char}

/-! ### What is never escaped -/

/-- A form feed is written as it is. -/
theorem IsUnit.eq_of_formFeed {first : Bool} {unit : List Char}
    (hunit : IsUnit key first formFeed unit) : unit = [formFeed] := by
  generalize hc : formFeed = c at hunit
  cases hunit with
  | pair hescaped _ hbreak hfeed =>
    exact absurd (hescaped.trans hc.symm) (isWritable_escaped hfeed hbreak).ne_formFeed
  | plain => rfl

theorem ends_escape (key : Bool) (text : List Char) : continues (escape key text) = false := by
  have hnothing : continues [] = false := rfl
  exact continues_append_escape hnothing

/-! ### Where a line is split -/

/-- A written key is cut off whole exactly if no form feed is in it: a form feed ends the key. -/
theorem cutKey_escape_iff (text rest : List Char) :
    (cutKey (escape true text ++ '=' :: rest)).1 = escape true text ↔ formFeed ∉ text := by
  constructor
  · intro hcut
    obtain ⟨units, hescape, hunits⟩ := exists_units true text
    rw [hescape] at hcut
    clear hescape
    induction hunits with
    | nil => exact List.not_mem_nil
    | @cons c unit more units hunit _ ih =>
      obtain ⟨first, hunit⟩ := hunit
      by_cases hfeed : c = formFeed
      · subst hfeed
        have hgap : isGap formFeed = true := by decide
        rw [hunit.eq_of_formFeed, List.flatten_cons, List.singleton_append, List.cons_append,
          cutKey.eq_3 _ _ fun _ _ hslash ↦ absurd hslash (by decide),
          if_pos (by simp [hgap])] at hcut
        exact absurd hcut (List.cons_ne_nil _ _).symm
      · rw [List.flatten_cons, List.append_assoc, hunit.cutKey_append rfl hfeed] at hcut
        rw [List.mem_cons, not_or]
        exact ⟨Ne.symm hfeed, ih (List.append_cancel_left hcut)⟩
  · intro htext
    rw [cutKey_escape htext]

/-- A written text keeps its beginning exactly if it does not begin with a form feed. -/
theorem trimStartBy_escape_iff (key : Bool) (text : List Char) :
    trimStartBy isGap (escape key text) = escape key text ↔ text.head? ≠ some formFeed := by
  constructor
  · intro htrim hhead
    obtain ⟨rest, rfl⟩ := List.head?_eq_some_iff.1 hhead
    have hunit := (isUnit_escapeChar key true formFeed).eq_of_formFeed
    have hgap : isGap formFeed = true := by decide
    rw [escape, hunit, List.singleton_append, trimStartBy, List.dropWhile_cons_of_pos hgap] at htrim
    have hlength :=
      (List.dropWhile_sublist (l := rest.flatMap (escapeChar key false)) isGap).length_le
    rw [htrim, List.length_cons] at hlength
    omega
  · exact trimStartBy_escape

theorem split_fst (line : List Char) : (split line).1 = (cutKey line).1 := by
  unfold split
  dsimp only
  split
  · split <;> rfl
  · rfl

/-- The line of an entry is split where it was joined exactly if no form feed is in the key or at
the beginning of the value. -/
theorem split_entryLine_iff (entry : List Char × List Char) :
    split (entryLine entry) = (escape true entry.1, escape false entry.2) ↔ IsSplitEntry entry := by
  constructor
  · intro hsplit
    have hkey : formFeed ∉ entry.1 := by
      rw [← cutKey_escape_iff entry.1 (escape false entry.2)]
      exact (split_fst _).symm.trans (congrArg Prod.fst hsplit)
    rw [split_entryLine_eq entry hkey] at hsplit
    exact ⟨hkey, (trimStartBy_escape_iff false entry.2).1 (congrArg Prod.snd hsplit)⟩
  · exact split_entryLine

/-- Escaping a text, as a key or as a value, is undone by unescaping; the escaped text holds neither
a line feed nor a carriage return and ends in an even number of backslashes. An escaped key, an
equals sign and an escaped value are split into the two again exactly if no form feed is in the key
or at the beginning of the value. -/
theorem unescape_and_split_escape :
    (∀ key text, unescape (escape key text) = .ok text ∧
      '\n' ∉ escape key text ∧ '\r' ∉ escape key text ∧
      ((escape key text).reverse.takeWhile (· == '\\')).length % 2 = 0) ∧
    ∀ key value, split (escape true key ++ '=' :: escape false value) =
      (escape true key, escape false value) ↔
        formFeed ∉ key ∧ value.head? ≠ some formFeed := by
  refine ⟨fun key text ↦ ⟨unescape_escape key text, ?_, ?_, ?_⟩, fun key value ↦ ?_⟩
  · intro hmem
    exact (mem_and_ne_of_mem_escape hmem (by decide)).2.1 rfl
  · intro hmem
    exact (mem_and_ne_of_mem_escape hmem (by decide)).2.2 rfl
  · simpa [continues] using ends_escape key text
  · exact split_entryLine_iff (key, value)

/-- A key of separators, quotes and backslashes before a value that looks like an escape. -/
example : split (escape true "a =:\\u0".toList ++ '=' :: escape false " =\\u0041 ".toList) =
    ("a\\ \\=\\:\\\\u0".toList, "\\ =\\\\u0041 ".toList) := by decide

end ResourceScript.Properties
