import ResourceScript.Proofs.Text.Trim
/-!
# The lines of a text

A text can be cut at the ends of its lines: what comes before a line and what comes after it are
split into lines on their own (`IsLineOf.lines_eq`). So a text in which no line ends is its only line
(`lines_of_unbroken`); a stripped text that has a single line is that line
(`eq_trim_of_lines_eq_singleton`).
-/

set_option autoImplicit false

namespace ResourceScript.Text

theorem isSpace_of_isLineBreak {c : Char} (hc : isLineBreak c = true) : isSpace c = true := by
  unfold isLineBreak at hc
  unfold isSpace
  grind

/-! ### Lines inside a text -/

/-- Whether a text without line breaks is one of the lines of a text: what comes before it ends in a
line break, and what comes after it begins with one, if there is anything. -/
structure IsLineOf (before line after : List Char) : Prop where
  /-- It begins where a line begins. -/
  begins : ∀ c, before.getLast? = some c → isLineBreak c = true
  /-- No line ends inside. -/
  unbroken : ∀ c ∈ line, isLineBreak c = false
  /-- It ends where a line ends. -/
  ends : ∀ c, after.head? = some c → isLineBreak c = true

variable {before line after : List Char}

/-- Whole lines are split as if nothing came after them, unless a line feed does, which may belong to
their last line end. -/
theorem lines_go_append_of_ends {text : List Char} (hempty : before = [] → line = [])
    (hends : ∀ c, before.getLast? = some c → isLineBreak c = true)
    (htext : text.head? ≠ some '\n') :
    lines.go line (before ++ text) = lines.go line before ++ lines text := by
  fun_induction lines.go line before with
  | case1 line hline =>
    rw [hempty rfl]
    rfl
  | case2 line hline => exact absurd (by rw [hempty rfl]; rfl) hline
  | case3 line rest ih =>
    have hrest := ih (fun _ ↦ rfl) fun c hc ↦
      hends c (by rw [List.getLast?_cons_cons, List.getLast?_cons, hc]; rfl)
    rw [List.cons_append, List.cons_append, lines.go, hrest, List.cons_append]
  | case4 line c rest hpair hbreak ih =>
    have hreturn : ∀ after, c = '\r' → rest ++ text = '\n' :: after → False := by
      intro after hc hafter
      cases rest with
      | nil => exact htext (by rw [← List.nil_append text, hafter]; rfl)
      | cons d more => exact hpair more hc (by rw [(List.cons.inj hafter).1])
    have hrest := ih (fun _ ↦ rfl) fun d hd ↦ hends d (by rw [List.getLast?_cons, hd]; rfl)
    rw [List.cons_append, lines.go.eq_3 _ _ _ hreturn, if_pos hbreak, hrest, List.cons_append]
  | case5 line c rest hpair hbreak ih =>
    have hmore : rest ≠ [] := by
      rintro rfl
      exact hbreak (hends c rfl)
    have hreturn : ∀ after, c = '\r' → rest ++ text = '\n' :: after → False := by
      rintro after rfl -
      exact hbreak (by decide)
    have hrest := ih (fun hnil ↦ absurd hnil hmore) fun d hd ↦
      hends d (by rw [List.getLast?_cons, hd]; rfl)
    rw [List.cons_append, lines.go.eq_3 _ _ _ hreturn, if_neg hbreak, hrest]

/-- Characters that end no line are collected. -/
theorem lines_go_unbroken (hline : ∀ c ∈ line, isLineBreak c = false) (start after : List Char) :
    lines.go start (line ++ after) = lines.go (line.reverse ++ start) after := by
  induction line generalizing start with
  | nil => rfl
  | cons c rest ih =>
    obtain ⟨hc, hrest⟩ := List.forall_mem_cons.1 hline
    have hreturn : ∀ more, c = '\r' → rest ++ after = '\n' :: more → False := by
      rintro more rfl -
      exact absurd hc (by decide)
    rw [List.cons_append, lines.go.eq_3 _ _ _ hreturn, hc, if_neg Bool.false_ne_true, ih hrest,
      List.reverse_cons, List.append_assoc, List.singleton_append]

/-- The lines behind the end of a line. -/
def linesBehind : List Char → List (List Char)
  | [] => []
  | '\r' :: '\n' :: rest => lines rest
  | _ :: rest => lines rest

/-- What comes after a line is split into the same lines whatever the line is. Only an empty line at
the end of the text is none. -/
theorem lines_append_of_ends (hline : ∀ c ∈ line, isLineBreak c = false)
    (hafter : ∀ c, after.head? = some c → isLineBreak c = true) (hsome : line ≠ [] ∨ after ≠ []) :
    lines (line ++ after) = line :: linesBehind after := by
  rw [lines, lines_go_unbroken hline, List.append_nil]
  rcases after with _ | ⟨c, rest⟩
  · have hfilled : line.reverse.isEmpty = false := by simpa using hsome
    rw [lines.go, hfilled, if_neg Bool.false_ne_true, List.reverse_reverse]
    rfl
  · have hbreak : isLineBreak c = true := hafter c rfl
    by_cases hpair : c = '\r' ∧ ∃ more, rest = '\n' :: more
    · obtain ⟨rfl, more, rfl⟩ := hpair
      rw [lines.go, List.reverse_reverse]
      rfl
    · have hreturn : ∀ more, c = '\r' → rest = '\n' :: more → False := fun more hc hrest ↦
        hpair ⟨hc, more, hrest⟩
      rw [lines.go.eq_3 _ _ _ hreturn, if_pos hbreak, List.reverse_reverse,
        linesBehind.eq_3 _ _ hreturn]
      rfl

/-- A line of a text stands among its lines, between those before and those after it. -/
theorem IsLineOf.lines_eq (h : IsLineOf before line after) (hline : line ≠ []) :
    lines (before ++ (line ++ after)) = lines before ++ line :: linesBehind after := by
  obtain ⟨c, rest, rfl⟩ := List.exists_cons_of_ne_nil hline
  have hfeed : (c :: rest ++ after).head? ≠ some '\n' := by
    intro hhead
    have hbreak := h.unbroken c List.mem_cons_self
    rw [Option.some.inj hhead] at hbreak
    exact absurd hbreak (by decide)
  rw [lines, lines_go_append_of_ends (fun _ ↦ rfl) h.begins hfeed,
    lines_append_of_ends h.unbroken h.ends (Or.inl hline)]
  rfl

/-! ### Single lines -/

/-- A text in which no line ends is its only line. -/
theorem lines_of_unbroken {text : List Char} (hunbroken : ∀ c ∈ text, isLineBreak c = false)
    (htext : text ≠ []) : lines text = [text] := by
  have hlines := @lines_append_of_ends text [] hunbroken nofun (Or.inl htext)
  rwa [List.append_nil] at hlines

theorem eq_nil_of_lines_go {line text : List Char} (h : lines.go line text = []) :
    line = [] ∧ text = [] := by
  fun_induction lines.go line text with
  | case1 line hline => exact ⟨List.isEmpty_iff.1 hline, rfl⟩
  | case2 => cases h
  | case3 => cases h
  | case4 => cases h
  | case5 line c rest _ _ ih => cases (ih h).1

/-- A text with a single line is that line, in which no line ends, or it ends in a line break. -/
theorem lines_go_eq_singleton {line text only : List Char} (h : lines.go line text = [only]) :
    (only = line.reverse ++ text ∧ ∀ c ∈ text, isLineBreak c = false) ∨
      ∃ c, text.getLast? = some c ∧ isSpace c = true := by
  fun_induction lines.go line text with
  | case1 => cases h
  | case2 line hline => exact Or.inl ⟨by simpa using (List.cons.inj h).1.symm, nofun⟩
  | case3 line rest ih =>
    obtain ⟨-, rfl⟩ := eq_nil_of_lines_go (List.cons.inj h).2
    exact Or.inr ⟨'\n', rfl, by decide⟩
  | case4 line c rest _ hc ih =>
    obtain ⟨-, rfl⟩ := eq_nil_of_lines_go (List.cons.inj h).2
    exact Or.inr ⟨c, rfl, isSpace_of_isLineBreak hc⟩
  | case5 line c rest _ hc ih =>
    rcases ih h with ⟨honly, hrest⟩ | ⟨d, hlast, hd⟩
    · exact Or.inl ⟨by simpa using honly,
        List.forall_mem_cons.2 ⟨by simpa using hc, hrest⟩⟩
    · exact Or.inr ⟨d, by rw [List.getLast?_cons, hlast]; rfl, hd⟩

/-- The single line of a stripped text is that text. -/
theorem eq_trim_of_lines_eq_singleton {text only : List Char} (h : lines (trim text) = [only]) :
    only = trim text := by
  rcases lines_go_eq_singleton h with ⟨honly, -⟩ | ⟨c, hlast, hc⟩
  · simpa using honly
  · rw [getLast?_trim hlast] at hc
    cases hc

/-- A stripped text with a line break inside has several lines. -/
theorem lines_trim_of_isLineBreak {text : List Char} {c : Char} (hc : c ∈ trim text)
    (hbreak : isLineBreak c = true) :
    ∃ line next rest, lines (trim text) = line :: next :: rest := by
  rcases hlines : lines (trim text) with _ | ⟨line, _ | ⟨next, rest⟩⟩
  · rw [(eq_nil_of_lines_go hlines).2] at hc
    cases hc
  · rcases lines_go_eq_singleton hlines with ⟨-, hunbroken⟩ | ⟨d, hlast, hd⟩
    · rw [hunbroken c hc] at hbreak
      cases hbreak
    · rw [getLast?_trim hlast] at hd
      cases hd
  · exact ⟨line, next, rest, rfl⟩

end ResourceScript.Text
