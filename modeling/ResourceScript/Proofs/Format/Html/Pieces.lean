import ResourceScript.Proofs.Format.Html.Elements
import ResourceScript.Proofs.Text.Case
/-!
# The pieces of a text

Tags have names that begin with a letter, so that no element is taken for an attribute or for the text
of another one (`isNamed_of_pieces`). What is read leniently counts all elements of its pieces.
-/

set_option autoImplicit false

namespace ResourceScript.Html

open Text

/-- Whether the element that a piece of markup starts, if it does, has the name of an element. -/
def Reading.isNamed : Reading → Bool
  | .piece p _ => p.isNamed
  | _ => true

/-- A name that begins with a letter is one of an element, in lower case too. -/
theorem isElementName_lower {c : Char} (hc : isAsciiLetter c = true) (name : List Char) :
    Xml.isElementName (String.ofList (lower (c :: name))) = true := by
  have hhead : ∀ d, (lower (c :: name)).head? = some d → isAsciiLetter d = true ∨ IsSolid d := by
    intro d hd
    refine (head?_lower hd).imp_left fun hfirst ↦ ?_
    rwa [← Option.some.inj hfirst]
  refine Xml.isElementName_iff.2 ⟨fun hat ↦ ?_, fun htext ↦ ?_⟩
  · rw [String.toList_ofList] at hat
    exact absurd (hhead '@' hat) (by decide)
  · have hsign : (lower (c :: name)).head? = some '#' := by
      rw [← String.toList_ofList (l := lower (c :: name)), htext]
      rfl
    exact absurd (hhead '#' hsign) (by decide)

theorem isTagChar_of_isAsciiLetter {c : Char} (hc : isAsciiLetter c = true) :
    isTagChar c = true := by
  rw [isTagChar, Bool.not_eq_true', Bool.eq_false_iff]
  simp only [ne_eq, Bool.or_eq_true, beq_iff_eq]
  rintro (((((((rfl | rfl) | rfl) | rfl) | rfl) | rfl) | rfl) | rfl) <;> exact absurd hc (by decide)

/-- A start tag has a name that begins with a letter. -/
theorem isNamed_readStartTag {c : Char} (hc : isAsciiLetter c = true) (rest : List Char) :
    (readStartTag ('<' :: c :: rest)).isNamed = true := by
  unfold readStartTag
  simp only [List.drop_succ_cons, List.drop_zero,
    List.takeWhile_cons_of_pos (isTagChar_of_isAsciiLetter hc)]
  split
  · rfl
  · exact isElementName_lower hc _
  · exact isElementName_lower hc _
  · split <;> rfl

theorem isNamed_readEndTag (text : List Char) : (readEndTag text).isNamed = true := by
  unfold readEndTag
  split
  · rfl
  · split
    · rfl
    · split <;> rfl

theorem isNamed_skipToBracket (text : List Char) : (skipToBracket text).isNamed = true := by
  unfold skipToBracket
  split <;> rfl

theorem isNamed_skipComment (text : List Char) : (skipComment text).isNamed = true := by
  induction text with
  | nil => rfl
  | cons c rest ih =>
    rw [skipComment]
    split
    · split
      · rfl
      · exact ih
    · exact ih

theorem isNamed_skipSection (brackets : Nat) (text : List Char) :
    (skipSection brackets text).isNamed = true := by
  induction text with
  | nil => rfl
  | cons c rest ih =>
    rw [skipSection]
    split
    · rfl
    · exact ih

theorem isNamed_of_readSection {text : List Char} {reading : Reading}
    (h : readSection text = .ok reading) : reading.isNamed = true := by
  unfold readSection at h
  dsimp only at h
  repeat' split at h
  all_goals cases h
  · rfl
  · rfl
  · exact isNamed_skipSection 2 text
  · exact isNamed_skipSection 1 text

/-- A piece of markup starts elements under their names only. -/
theorem isNamed_of_readMarkup {text : List Char} {reading : Reading}
    (h : readMarkup text = .ok reading) : reading.isNamed = true := by
  unfold readMarkup at h
  split at h
  · exact Except.ok.inj h ▸ isNamed_readEndTag _
  · exact Except.ok.inj h ▸ isNamed_skipComment _
  · exact Except.ok.inj h ▸ isNamed_skipToBracket _
  · exact isNamed_of_readSection h
  · split at h <;> exact Except.ok.inj h ▸ isNamed_skipToBracket _
  · split at h
    · rename_i hc
      exact Except.ok.inj h ▸ isNamed_readStartTag hc _
    · exact Except.ok.inj h ▸ rfl
  · exact Except.ok.inj h ▸ rfl

/-- All elements that the pieces of a text start have names of elements. -/
theorem isNamed_of_pieces {fuel : Nat} {text : List Char} {found : List Piece}
    (h : pieces fuel text = .ok found) : ∀ piece ∈ found, piece.isNamed = true := by
  fun_induction pieces fuel text generalizing found with
  | case1 =>
    cases h
    nofun
  | case2 =>
    cases h
    nofun
  | case3 fuel rest ih =>
    obtain ⟨reading, hreading, h⟩ := bind_eq_ok h
    have hnamed := isNamed_of_readMarkup hreading
    split at h
    · obtain ⟨more, hmore, h⟩ := bind_eq_ok h
      cases h
      exact List.forall_mem_cons.2 ⟨rfl, ih _ hmore⟩
    · exact ih _ h
    · split at h
      · split at h
        · obtain ⟨more, hmore, h⟩ := bind_eq_ok h
          cases h
          exact List.forall_mem_cons.2 ⟨hnamed, List.forall_mem_cons.2 ⟨rfl, ih _ hmore⟩⟩
        · cases h
          exact List.forall_mem_singleton.2 hnamed
      · obtain ⟨more, hmore, h⟩ := bind_eq_ok h
        cases h
        exact List.forall_mem_cons.2 ⟨hnamed, ih _ hmore⟩
    · obtain ⟨more, hmore, h⟩ := bind_eq_ok h
      cases h
      exact List.forall_mem_cons.2 ⟨hnamed, ih _ hmore⟩
  | case4 =>
    rename_i ih
    obtain ⟨more, hmore, h⟩ := bind_eq_ok h
    cases h
    exact List.forall_mem_cons.2 ⟨rfl, ih hmore⟩

/-- Lenient reading gives as many elements as tags start. -/
theorem elementCount_of_readLenient {text : List Char} {fields : Xml.Fields}
    (h : readLenient text = .ok fields) :
    ∃ found, pieces (text.length + 1) text = .ok found ∧
      Xml.elementCount fields = (found.filter Piece.isStart).length := by
  obtain ⟨found, hfound, h⟩ := bind_eq_ok h
  obtain rfl := Except.ok.inj h
  exact ⟨found, hfound, elementCount_build (isNamed_of_pieces hfound)⟩

end ResourceScript.Html
