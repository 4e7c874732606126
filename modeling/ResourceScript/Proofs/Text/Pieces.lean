import ResourceScript.Text.Space
/-!
# Pieces and lines read back from a joined text

Pieces that do not hold the separator are read back from the text that joins them
(`splitOn_joinWith`), the text in front of the first separator is read back by cutting
(`cutAt_append`), and so is a line without breaks in front of a line feed (`lines_append`). Pieces
that are read one by one are read together (`mapM_eq_ok`).
-/

set_option autoImplicit false

namespace ResourceScript.Text

section Separator

variable {separator : Char} {text : List Char}

theorem cutAt_eq_none (habsent : separator ∉ text) : cutAt separator text = none := by
  induction text with
  | nil => rfl
  | cons c rest ih =>
    rw [cutAt, if_neg (List.ne_of_not_mem_cons habsent).symm,
      ih (List.not_mem_of_not_mem_cons habsent)]
    rfl

theorem cutAt_append (habsent : separator ∉ text) (rest : List Char) :
    cutAt separator (text ++ separator :: rest) = some (text, rest) := by
  induction text with
  | nil => rw [List.nil_append, cutAt, if_pos rfl]
  | cons c more ih =>
    rw [List.cons_append, cutAt, if_neg (List.ne_of_not_mem_cons habsent).symm,
      ih (List.not_mem_of_not_mem_cons habsent)]
    rfl

theorem splitOn_go_of_not_mem (habsent : separator ∉ text) (piece : List Char) :
    splitOn.go separator piece text = [piece.reverse ++ text] := by
  induction text generalizing piece with
  | nil => rw [splitOn.go, List.append_nil]
  | cons c rest ih =>
    rw [splitOn.go, if_neg (List.ne_of_not_mem_cons habsent).symm,
      ih (List.not_mem_of_not_mem_cons habsent), List.reverse_cons, List.append_assoc,
      List.singleton_append]

theorem splitOn_go_append (habsent : separator ∉ text) (piece rest : List Char) :
    splitOn.go separator piece (text ++ separator :: rest) =
      (piece.reverse ++ text) :: splitOn.go separator [] rest := by
  induction text generalizing piece with
  | nil => rw [List.nil_append, splitOn.go, if_pos rfl, List.append_nil]
  | cons c more ih =>
    rw [List.cons_append, splitOn.go, if_neg (List.ne_of_not_mem_cons habsent).symm,
      ih (List.not_mem_of_not_mem_cons habsent), List.reverse_cons, List.append_assoc,
      List.singleton_append]

/-- Pieces without the separator are read back from the text that joins them. -/
theorem splitOn_joinWith {pieces : List (List Char)} (hpieces : pieces ≠ [])
    (habsent : ∀ piece ∈ pieces, separator ∉ piece) :
    splitOn separator (joinWith [separator] pieces) = pieces := by
  induction pieces with
  | nil => exact absurd rfl hpieces
  | cons piece rest ih =>
    have hpiece := habsent piece List.mem_cons_self
    cases rest with
    | nil => exact splitOn_go_of_not_mem hpiece []
    | cons next rest =>
      have hrest := ih (List.cons_ne_nil next rest) fun other hother ↦
        habsent other (List.mem_cons_of_mem piece hother)
      rw [joinWith_cons_cons, List.append_assoc, List.singleton_append, splitOn,
        splitOn_go_append hpiece, ← splitOn, hrest]
      rfl

theorem mem_joinWith {joint : List Char} {pieces : List (List Char)} {c : Char}
    (hmem : c ∈ joinWith joint pieces) : c ∈ joint ∨ ∃ piece ∈ pieces, c ∈ piece := by
  induction pieces with
  | nil => exact absurd hmem List.not_mem_nil
  | cons piece rest ih =>
    cases rest with
    | nil => exact Or.inr ⟨piece, List.mem_cons_self, hmem⟩
    | cons next rest =>
      rw [joinWith_cons_cons, List.append_assoc, List.mem_append, List.mem_append] at hmem
      rcases hmem with hmem | hmem | hmem
      · exact Or.inr ⟨piece, List.mem_cons_self, hmem⟩
      · exact Or.inl hmem
      · refine (ih hmem).imp_right ?_
        rintro ⟨other, hother, hc⟩
        exact ⟨other, List.mem_cons_of_mem piece hother, hc⟩

end Separator

theorem lines_go_append {line text : List Char} (htext : ∀ c ∈ text, isLineBreak c = false)
    (rest : List Char) :
    lines.go line (text ++ '\n' :: rest) = (line.reverse ++ text) :: lines.go [] rest := by
  induction text generalizing line with
  | nil =>
    have hbreak : isLineBreak '\n' = true := by decide
    rw [List.nil_append, lines.go.eq_3 _ _ _ (by simp), if_pos hbreak, List.append_nil]
  | cons c more ih =>
    have hc : isLineBreak c = false := htext c List.mem_cons_self
    have hreturn : ∀ after, c = '\r' → more ++ '\n' :: rest = '\n' :: after → False := by
      rintro after rfl -
      exact absurd hc (by decide)
    rw [List.cons_append, lines.go.eq_3 _ _ _ hreturn, hc]
    have hmore : lines.go (c :: line) (more ++ '\n' :: rest) = _ :=
      ih fun d hd ↦ htext d (List.mem_cons_of_mem c hd)
    simpa using hmore

/-- A line without breaks is read back in front of a line feed. -/
theorem lines_append {line : List Char} (hline : ∀ c ∈ line, isLineBreak c = false)
    (rest : List Char) : lines (line ++ '\n' :: rest) = line :: lines rest :=
  lines_go_append hline rest

/-! ### Readers that may fail -/

section

variable {ε α β : Type}

theorem bind_eq_ok {x : Except ε α} {next : α → Except ε β} {b : β} (h : x >>= next = .ok b) :
    ∃ a, x = .ok a ∧ next a = .ok b := by
  cases x with
  | error stop => cases h
  | ok a => exact ⟨a, rfl, h⟩

theorem map_eq_ok {x : Except ε α} {f : α → β} {b : β} (h : x.map f = .ok b) :
    ∃ a, x = .ok a ∧ f a = b := by
  cases x with
  | error stop => cases h
  | ok a => exact ⟨a, rfl, Except.ok.inj h⟩

/-- Pieces that are read one by one are read together. -/
theorem mapM_eq_ok {f : α → Except ε β} {g : α → β} {pieces : List α}
    (hpieces : ∀ piece ∈ pieces, f piece = .ok (g piece)) :
    pieces.mapM f = .ok (pieces.map g) := by
  induction pieces with
  | nil => rfl
  | cons piece rest ih =>
    rw [List.mapM_cons, hpieces piece List.mem_cons_self,
      ih fun other hother ↦ hpieces other (List.mem_cons_of_mem piece hother)]
    rfl

/-- What is read from pieces together is read from each of them. -/
theorem forall_mem_of_mapM {f : α → Except ε β} {P : β → Prop} {pieces : List α} {all : List β}
    (hall : pieces.mapM f = .ok all)
    (hf : ∀ piece ∈ pieces, ∀ found, f piece = .ok found → P found) : ∀ found ∈ all, P found := by
  induction pieces generalizing all with
  | nil =>
    cases hall
    nofun
  | cons piece rest ih =>
    rw [List.mapM_cons] at hall
    obtain ⟨found, hfound, hall⟩ := bind_eq_ok hall
    obtain ⟨more, hmore, hall⟩ := bind_eq_ok hall
    cases hall
    exact List.forall_mem_cons.2 ⟨hf piece List.mem_cons_self found hfound,
      ih hmore fun other hother ↦ hf other (List.mem_cons_of_mem piece hother)⟩

/-- Pieces that can be read one by one can be read together. -/
theorem exists_mapM {f : α → Except ε β} {P : β → Prop} {pieces : List α}
    (hf : ∀ piece ∈ pieces, ∃ found, f piece = .ok found ∧ P found) :
    ∃ all, pieces.mapM f = .ok all ∧ ∀ found ∈ all, P found := by
  induction pieces with
  | nil => exact ⟨[], rfl, List.forall_mem_nil _⟩
  | cons piece rest ih =>
    obtain ⟨⟨found, hpiece, hfound⟩, hothers⟩ := List.forall_mem_cons.1 hf
    obtain ⟨all, hrest, hall⟩ := ih hothers
    refine ⟨found :: all, ?_, List.forall_mem_cons.2 ⟨hfound, hall⟩⟩
    rw [List.mapM_cons, hpiece, hrest]
    rfl

end

end ResourceScript.Text
