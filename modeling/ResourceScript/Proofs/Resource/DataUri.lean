import ResourceScript.DataUri
import ResourceScript.Proofs.Text.Base64
import ResourceScript.Proofs.Text.Case
import ResourceScript.Proofs.Text.Percent
import ResourceScript.Proofs.Text.Pieces
import ResourceScript.Proofs.Text.Trim
/-!
# Locations that hold data are read back

Reading a location that holds data trims the parts of its header, drops those without text, and
writes the media type in lower case. A header in this form (`DataUri.IsNormal`) is read from its
text as it is, whatever data stands behind it (`DataUri.ofUri_text`). So a location keeps its media
type, its parameters and its base64 mark when its data is exchanged (`DataUri.ofUri_text_of_ofUri`).
-/

set_option autoImplicit false

namespace ResourceScript

open Text

namespace DataUri

/-- Whether a text can stand between the marks of a header: it is trimmed and holds none. -/
def IsPart (text : List Char) : Prop :=
  trim text = text ∧ ',' ∉ text ∧ ';' ∉ text

/-- Whether the header of a location is in the form in which it is read. -/
structure IsNormal (u : DataUri) : Prop where
  /-- The media type is a part in lower case. -/
  mimetype : IsPart u.mimetype.toList ∧ lower u.mimetype.toList = u.mimetype.toList ∧
    u.mimetype.toList ≠ []
  /-- The parameters are parts other than the mark of base64. -/
  parameters : ∀ parameter ∈ u.parameters, IsPart parameter.toList ∧ parameter.toList ≠ [] ∧
    lower parameter.toList ≠ base64Word

/-- The header does not depend on the data. -/
theorem IsNormal.withData {u : DataUri} (h : u.IsNormal) (data : List UInt8) :
    IsNormal { u with data } :=
  ⟨h.mimetype, h.parameters⟩

/-! ### What is read -/

theorem isPart_trim {text : List Char} (hcomma : ',' ∉ text) (hsemicolon : ';' ∉ text) :
    IsPart (trim text) :=
  ⟨trim_trim text, fun h ↦ hcomma ((trim_sublist text).subset h),
    fun h ↦ hsemicolon ((trim_sublist text).subset h)⟩

/-- Lower case keeps parts: it brings in neither white space nor a mark. -/
theorem IsPart.lower {text : List Char} (h : IsPart text) : IsPart (lower text) := by
  obtain ⟨htrim, hcomma, hsemicolon⟩ := h
  refine ⟨trim_eq_of_ends ?_ ?_, ?_, ?_⟩
  · intro c hc
    rcases head?_lower hc with hhead | hsolid
    · exact head?_trim (htrim.symm ▸ hhead)
    · exact hsolid.2
  · intro c hc
    rcases getLast?_lower hc with hlast | hsolid
    · exact getLast?_trim (htrim.symm ▸ hlast)
    · exact hsolid.2
  · intro hmem
    rcases (of_mem_lower hmem).2 with hmem | hsolid
    · exact hcomma hmem
    · exact absurd hsolid (by decide)
  · intro hmem
    rcases (of_mem_lower hmem).2 with hmem | hsolid
    · exact hsemicolon hmem
    · exact absurd hsolid (by decide)

theorem not_mem_of_cutAt {separator : Char} {text before after : List Char}
    (h : cutAt separator text = some (before, after)) : separator ∉ before := by
  induction text generalizing before with
  | nil => cases h
  | cons c rest ih =>
    rw [cutAt] at h
    by_cases hc : c = separator
    · rw [if_pos hc] at h
      cases h
      exact List.not_mem_nil
    · rw [if_neg hc, Option.map_eq_some_iff] at h
      obtain ⟨⟨start, behind⟩, hcut, hsame⟩ := h
      cases hsame
      exact List.not_mem_cons_of_ne_of_not_mem (Ne.symm hc) (ih hcut)

/-- The pieces of a text hold no separator, and nothing that the text does not hold. -/
theorem of_mem_splitOn {separator : Char} {text part : List Char}
    (hpart : part ∈ splitOn separator text) : separator ∉ part ∧ ∀ c ∈ part, c ∈ text := by
  have hgo : ∀ (text piece : List Char), separator ∉ piece → ∀ part ∈ splitOn.go separator piece text,
      separator ∉ part ∧ ∀ c ∈ part, c ∈ piece ∨ c ∈ text := by
    intro text
    induction text with
    | nil =>
      intro piece hpiece part hpart
      rw [splitOn.go, List.mem_singleton] at hpart
      subst hpart
      exact ⟨fun hmem ↦ hpiece (List.mem_reverse.1 hmem), fun c hc ↦ .inl (List.mem_reverse.1 hc)⟩
    | cons c rest ih =>
      intro piece hpiece part hpart
      rw [splitOn.go] at hpart
      by_cases hc : c = separator
      · rw [if_pos hc, List.mem_cons] at hpart
        rcases hpart with rfl | hpart
        · exact ⟨fun hmem ↦ hpiece (List.mem_reverse.1 hmem),
            fun d hd ↦ .inl (List.mem_reverse.1 hd)⟩
        · obtain ⟨habsent, hmem⟩ := ih [] List.not_mem_nil part hpart
          refine ⟨habsent, fun d hd ↦ .inr (List.mem_cons_of_mem c ?_)⟩
          exact (hmem d hd).resolve_left List.not_mem_nil
      · rw [if_neg hc] at hpart
        obtain ⟨habsent, hmem⟩ := ih (c :: piece)
          (List.not_mem_cons_of_ne_of_not_mem (Ne.symm hc) hpiece) part hpart
        refine ⟨habsent, fun d hd ↦ ?_⟩
        rcases hmem d hd with hd | hd
        · rcases List.mem_cons.1 hd with rfl | hd
          · exact .inr List.mem_cons_self
          · exact .inl hd
        · exact .inr (List.mem_cons_of_mem c hd)
  obtain ⟨habsent, hmem⟩ := hgo text [] List.not_mem_nil part hpart
  exact ⟨habsent, fun c hc ↦ (hmem c hc).resolve_left List.not_mem_nil⟩

/-- Whether the parts of a header end in the mark of base64. -/
def isMarked (parts : List (List Char)) : Bool :=
  1 < parts.length && ((parts.getLast?).map fun part ↦ lower part == base64Word).getD false

/-- The parameters among the parts of a header. -/
def parametersOf (parts : List (List Char)) : List (List Char) :=
  (parts.drop 1).filter fun part ↦ !part.isEmpty && !(lower part == base64Word)

/-- The media type of the parts of a header. -/
def mimetypeOf (parts : List (List Char)) : String :=
  if (lower (parts.headD [])).isEmpty then "text/plain" else String.ofList (lower (parts.headD []))

/-- The data behind a header. -/
def dataOf (base64 : Bool) (payload : List Char) : Except Fault (List UInt8) :=
  if base64 then Base64.decode payload else .ok (Percent.decodeBytes payload)

theorem read_of_cutAt {text header payload : List Char}
    (hcut : cutAt ',' text = some (header, payload)) {parts : List (List Char)}
    (hparts : (splitOn ';' header).map trim = parts) :
    read text = (dataOf (isMarked parts) payload).map fun data ↦
      ⟨mimetypeOf parts, (parametersOf parts).map String.ofList, isMarked parts, data⟩ := by
  subst hparts
  rw [read, hcut]
  show (if isMarked ((splitOn ';' header).map trim) then _ else _) = _
  by_cases hmarked : isMarked ((splitOn ';' header).map trim)
  · rw [if_pos hmarked, dataOf, if_pos hmarked]
    cases Base64.decode payload <;> rfl
  · rw [if_neg hmarked, dataOf, if_neg hmarked]
    rfl

/-- What is read has a header in normal form. -/
theorem isNormal_of_read {text : List Char} {u : DataUri} (h : read text = .ok u) : u.IsNormal := by
  cases hcut : cutAt ',' text with
  | none =>
    rw [read, hcut] at h
    cases h
  | some halves =>
    obtain ⟨header, payload⟩ := halves
    rw [read_of_cutAt hcut rfl] at h
    obtain ⟨data, -, rfl⟩ := map_eq_ok h
    have hcomma := not_mem_of_cutAt hcut
    have hparts : ∀ part ∈ (splitOn ';' header).map trim, IsPart part := by
      intro part hpart
      obtain ⟨piece, hpiece, rfl⟩ := List.mem_map.1 hpart
      obtain ⟨hsemicolon, hmem⟩ := of_mem_splitOn hpiece
      exact isPart_trim (fun hc ↦ hcomma (hmem _ hc)) hsemicolon
    refine ⟨?_, ?_⟩
    · have hhead : IsPart (((splitOn ';' header).map trim).headD []) := by
        cases hcases : (splitOn ';' header).map trim with
        | nil => exact ⟨rfl, List.not_mem_nil, List.not_mem_nil⟩
        | cons part rest => exact hparts part (hcases ▸ List.mem_cons_self)
      show IsPart (mimetypeOf _).toList ∧ lower (mimetypeOf _).toList = (mimetypeOf _).toList ∧
        (mimetypeOf _).toList ≠ []
      rw [mimetypeOf]
      by_cases hempty : (lower (((splitOn ';' header).map trim).headD [])).isEmpty = true
      · rw [if_pos hempty]
        exact ⟨⟨by decide, by decide, by decide⟩, by decide, by decide⟩
      · rw [if_neg hempty, String.toList_ofList]
        exact ⟨hhead.lower, lower_lower _, fun hnil ↦ hempty (List.isEmpty_iff.2 hnil)⟩
    · intro parameter hparameter
      obtain ⟨part, hpart, rfl⟩ := List.mem_map.1 hparameter
      rw [parametersOf, List.mem_filter, Bool.and_eq_true] at hpart
      obtain ⟨hmem, hfilled, hmark⟩ := hpart
      rw [String.toList_ofList]
      refine ⟨hparts part (List.mem_of_mem_drop hmem), ?_, ?_⟩
      · simpa using hfilled
      · simpa using hmark

/-! ### What is read back -/

/-- The parts of the text of a header. -/
def parts (u : DataUri) : List (List Char) :=
  u.mimetype.toList :: u.parameters.map String.toList ++ if u.base64 then [base64Word] else []

/-- The text of the data. -/
def payload (u : DataUri) : List Char :=
  if u.base64 then Base64.encode u.data else Percent.encodeBytes (fun _ ↦ false) u.data

theorem text_eq (u : DataUri) :
    u.text.toList = "data:".toList ++ (joinWith [';'] u.parts ++ ',' :: u.payload) := by
  have htext : u.text = String.ofList ("data:".toList ++ joinWith [';'] u.parts ++ ',' :: u.payload) :=
    rfl
  rw [htext, String.toList_ofList, List.append_assoc]

variable {u : DataUri}

theorem isPart_of_mem_parts (h : u.IsNormal) : ∀ part ∈ u.parts, IsPart part := by
  intro part hpart
  rw [parts, List.cons_append, List.mem_cons, List.mem_append, List.mem_map] at hpart
  rcases hpart with rfl | ⟨parameter, hparameter, rfl⟩ | hmark
  · exact h.mimetype.1
  · exact (h.parameters parameter hparameter).1
  · split at hmark
    · rw [List.mem_singleton.1 hmark]
      exact ⟨by decide, by decide, by decide⟩
    · cases hmark

theorem isMarked_parts (h : u.IsNormal) : isMarked u.parts = u.base64 := by
  by_cases hmark : u.base64 = true
  · have hparts : u.parts = (u.mimetype.toList :: u.parameters.map String.toList) ++ [base64Word] := by
      rw [parts, if_pos hmark]
    have hword : (lower base64Word == base64Word) = true := by decide
    rw [isMarked, hparts, List.getLast?_append_of_ne_nil _ (List.cons_ne_nil _ _), hmark]
    simp [hword]
  · have hparts : u.parts = u.mimetype.toList :: u.parameters.map String.toList := by
      rw [parts, if_neg hmark, List.append_nil]
    rw [Bool.not_eq_true] at hmark
    rw [isMarked, hparts, hmark]
    cases hparameters : u.parameters.getLast? with
    | none =>
      rw [List.getLast?_eq_none_iff] at hparameters
      rw [hparameters]
      rfl
    | some last =>
      have hlast := (h.parameters last (List.mem_of_getLast? hparameters)).2.2
      rw [List.getLast?_cons, List.getLast?_map, hparameters]
      simp [hlast]

theorem parametersOf_parts (h : u.IsNormal) :
    (parametersOf u.parts).map String.ofList = u.parameters := by
  have hkept : (u.parameters.map String.toList).filter
      (fun part ↦ !part.isEmpty && !(lower part == base64Word)) = u.parameters.map String.toList := by
    rw [List.filter_eq_self]
    intro part hpart
    obtain ⟨parameter, hparameter, rfl⟩ := List.mem_map.1 hpart
    obtain ⟨-, hfilled, hmark⟩ := h.parameters parameter hparameter
    simp [hfilled, hmark]
  have hdropped : (if u.base64 then [base64Word] else []).filter
      (fun part ↦ !part.isEmpty && !(lower part == base64Word)) = [] := by
    split <;> decide
  rw [parametersOf, parts, List.cons_append, List.drop_one, List.tail_cons, List.filter_append, hkept,
    hdropped, List.append_nil, List.map_map]
  exact (List.map_congr_left fun _ _ ↦ String.ofList_toList).trans (List.map_id _)

theorem mimetypeOf_parts (h : u.IsNormal) : mimetypeOf u.parts = u.mimetype := by
  obtain ⟨-, hlower, hfilled⟩ := h.mimetype
  have hhead : u.parts.headD [] = u.mimetype.toList := rfl
  rw [mimetypeOf, hhead, hlower, if_neg (by simpa using hfilled), String.ofList_toList]

theorem dataOf_payload (u : DataUri) : dataOf u.base64 u.payload = .ok u.data := by
  rw [dataOf, payload]
  by_cases hmark : u.base64 = true
  · rw [if_pos hmark, if_pos hmark, Base64.decode_encode]
  · rw [if_neg hmark, if_neg hmark, Percent.decodeBytes_encodeBytes]

/-- A location in normal form is read from its text. -/
theorem ofUri_text (h : u.IsNormal) : ofUri u.text = .ok u := by
  have hjoined : ',' ∉ joinWith [';'] u.parts := by
    intro hmem
    rcases mem_joinWith hmem with hmark | ⟨part, hpart, hc⟩
    · exact absurd hmark (by decide)
    · exact (isPart_of_mem_parts h part hpart).2.1 hc
  have hsplit : (splitOn ';' (joinWith [';'] u.parts)).map trim = u.parts := by
    rw [splitOn_joinWith (by simp [parts]) fun part hpart ↦ (isPart_of_mem_parts h part hpart).2.2]
    exact (List.map_congr_left fun part hpart ↦ (isPart_of_mem_parts h part hpart).1).trans
      (List.map_id _)
  have hdrop : u.text.toList.drop 5 = joinWith [';'] u.parts ++ ',' :: u.payload := by
    rw [text_eq]
    rfl
  rw [ofUri, hdrop, read_of_cutAt (cutAt_append hjoined u.payload) hsplit, isMarked_parts h,
    parametersOf_parts h, mimetypeOf_parts h, dataOf_payload]
  rfl

/-- A location that was read keeps its header when its data is exchanged. -/
theorem ofUri_text_of_ofUri {uri : String} (h : ofUri uri = .ok u) (data : List UInt8) :
    ofUri (text { u with data }) = .ok { u with data } :=
  ofUri_text ((isNormal_of_read h).withData data)

end DataUri

end ResourceScript
