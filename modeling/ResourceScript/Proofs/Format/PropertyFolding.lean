import ResourceScript.Media.Read
import ResourceScript.Proofs.Format.Properties
import ResourceScript.Proofs.Text.Lines
import ResourceScript.Proofs.Text.Trim
/-!
# Folded lines of property lists

A line may be folded: a backslash, a line feed and white space are put somewhere inside, and the
property is read as before. Whether a line is skipped depends on the text that is pending from the
lines before it, and whether it goes on with the next on the backslashes at the end of each piece.
Behind an even number of backslashes a piece goes on exactly if its other half does
(`continues_append_of_ends`), so the two halves together do what the line did
(`logicalLines_folded`), whatever comes before and after it (`read_folded`).
-/

set_option autoImplicit false

namespace ResourceScript

open Text

namespace Properties

/-! ### Reading line after line -/

/-- The text that is pending behind some lines: what the last of them have left for the next. -/
def pendingBehind (pending : List Char) : List (List Char) → List Char
  | [] => pending
  | raw :: rest =>
    let line := trimStartBy isGap raw
    if pending.isEmpty && isSkipped line then pendingBehind pending rest
    else if continues line then pendingBehind (pending ++ line.dropLast) rest
    else pendingBehind [] rest

/-- Whether a line behind others is dropped: nothing is pending, and it is blank or a comment. -/
def isSkippedBehind (before : List (List Char)) (line : List Char) : Bool :=
  (pendingBehind [] before).isEmpty && isSkipped (trimStartBy isGap line)

/-- Lines that are read alike behind some lines can take each other's place there. -/
theorem logicalLines_append_congr {pending : List Char} {before raws others : List (List Char)}
    (h : logicalLines (pendingBehind pending before) raws =
      logicalLines (pendingBehind pending before) others) :
    logicalLines pending (before ++ raws) = logicalLines pending (before ++ others) := by
  induction before generalizing pending with
  | nil => exact h
  | cons raw rest ih =>
    rw [pendingBehind] at h
    rw [List.cons_append, List.cons_append, logicalLines, logicalLines]
    split
    · rename_i hskipped
      rw [if_pos hskipped] at h
      exact ih h
    · rename_i hskipped
      rw [if_neg hskipped] at h
      split
      · rename_i hcontinues
        rw [if_pos hcontinues] at h
        exact ih h
      · rename_i hcontinues
        rw [if_neg hcontinues] at h
        exact congrArg _ (ih h)

/-! ### Halves of a line -/

variable {first second gaps pending : List Char}

/-- Behind an even number of backslashes, only the rest of a line decides whether it goes on. -/
theorem continues_append_of_ends (hfirst : continues first = false) (second : List Char) :
    continues (first ++ second) = continues second := by
  rw [continues, continues, List.reverse_append, List.takeWhile_append]
  split
  · rename_i hall
    have heven : (first.reverse.takeWhile (· == '\\')).length % 2 = 0 := by
      simpa [continues] using hfirst
    rw [List.length_append, hall]
    have hparity : (second.reverse.length + (first.reverse.takeWhile (· == '\\')).length) % 2 =
        second.reverse.length % 2 := by omega
    rw [hparity]
  · rfl

/-- White space ends in no backslash. -/
theorem continues_of_isGap (hgaps : ∀ c ∈ gaps, isGap c = true) : continues gaps = false := by
  have hnone : gaps.reverse.takeWhile (· == '\\') = [] := by
    rcases hreverse : gaps.reverse with _ | ⟨c, rest⟩
    · rfl
    · have hc : isGap c = true := hgaps c (List.mem_reverse.1 (hreverse ▸ List.mem_cons_self))
      refine List.takeWhile_cons_of_neg fun hslash ↦ ?_
      rw [beq_iff_eq.1 hslash] at hc
      exact absurd hc (by decide)
  rw [continues, hnone]
  rfl

/-- What begins a line that is not all white space: trimming takes nothing off behind it, and it goes
on exactly if the line does. -/
theorem trimStartBy_append_of_exists (hfirst : ∃ c ∈ first, isGap c = false) :
    trimStartBy isGap first ≠ [] ∧
      (∀ second, trimStartBy isGap (first ++ second) = trimStartBy isGap first ++ second) ∧
        continues (trimStartBy isGap first) = continues first := by
  obtain ⟨d, hd, hkept⟩ := hfirst
  have hfilled : trimStartBy isGap first ≠ [] := by
    intro hnil
    rw [List.dropWhile_eq_nil_iff.1 hnil d hd] at hkept
    cases hkept
  have hgaps : ∀ c ∈ first.takeWhile isGap, isGap c = true := fun c hmem ↦
    List.mem_takeWhile_imp hmem
  have hsplit : first.takeWhile isGap ++ trimStartBy isGap first = first :=
    List.takeWhile_append_dropWhile
  refine ⟨hfilled, fun second ↦ ?_, ?_⟩
  · conv_lhs => rw [← hsplit]
    rw [List.append_assoc]
    refine dropWhile_append_of_head hgaps fun c hc ↦ ?_
    rw [List.head?_append_of_ne_nil _ hfilled] at hc
    exact head?_dropWhile hc
  · conv_rhs => rw [← hsplit]
    exact (continues_append_of_ends (continues_of_isGap hgaps) _).symm

theorem isSkipped_append (hfirst : first ≠ []) (second : List Char) :
    isSkipped (first ++ second) = isSkipped first := by
  obtain ⟨c, rest, rfl⟩ := List.exists_cons_of_ne_nil hfirst
  rfl

/-! ### One line -/

section Line

variable {raw line : List Char} (htrim : trimStartBy isGap raw = line)
  (hkept : (pending.isEmpty && isSkipped line) = false) (others : List (List Char))

include htrim hkept

theorem logicalLines_cons_of_continues (hgoes : continues line = true) :
    logicalLines pending (raw :: others) = logicalLines (pending ++ line.dropLast) others := by
  rw [logicalLines]
  simp only [htrim, hkept, hgoes, Bool.false_eq_true, if_false, if_true]

theorem logicalLines_cons_of_ends (hends : continues line = false) :
    logicalLines pending (raw :: others) = (pending ++ line) :: logicalLines [] others := by
  rw [logicalLines]
  simp only [htrim, hkept, hends, Bool.false_eq_true, if_false]

end Line

/-- An empty line ends the property that is pending, as the end of the text does. -/
theorem logicalLines_nil_of_pending (hpending : pending ≠ []) :
    logicalLines pending [[]] = logicalLines pending [] := by
  have hfilled : pending.isEmpty = false := by simpa using hpending
  have htrim : trimStartBy isGap ([] : List Char) = [] := rfl
  rw [logicalLines_cons_of_ends htrim (by rw [hfilled, Bool.false_and]) [] rfl, List.append_nil,
    logicalLines, logicalLines, hfilled]
  rfl

/-! ### Two halves -/

/-- The first half of a folded line is left pending. -/
theorem logicalLines_firstHalf (hfirst : ∃ c ∈ first, isGap c = false)
    (hkept : (pending.isEmpty && isSkipped (trimStartBy isGap first)) = false)
    (hends : continues first = false) (others : List (List Char)) :
    logicalLines pending ((first ++ ['\\']) :: others) =
      logicalLines (pending ++ trimStartBy isGap first) others := by
  obtain ⟨hfilled, htrim, htrimmed⟩ := trimStartBy_append_of_exists hfirst
  have hgoes : continues (trimStartBy isGap first ++ ['\\']) = true := by
    rw [continues_append_of_ends (htrimmed.trans hends)]
    rfl
  have hkeptHalf : (pending.isEmpty && isSkipped (trimStartBy isGap first ++ ['\\'])) = false := by
    rwa [isSkipped_append hfilled]
  rw [logicalLines_cons_of_continues (htrim _) hkeptHalf others hgoes, List.dropLast_concat]

/-- Behind the first half of a line, the second half is read as the line is. -/
theorem logicalLines_secondHalf (hfirst : ∃ c ∈ first, isGap c = false)
    (hkept : (pending.isEmpty && isSkipped (trimStartBy isGap first)) = false)
    (hends : continues first = false) (hgaps : ∀ c ∈ gaps, isGap c = true)
    (hsecond : ∀ c, second.head? = some c → isGap c = false) (others : List (List Char)) :
    logicalLines (pending ++ trimStartBy isGap first) ((gaps ++ second) :: others) =
      logicalLines pending ((first ++ second) :: others) := by
  obtain ⟨hfilled, htrim, htrimmed⟩ := trimStartBy_append_of_exists hfirst
  have hkeptLine : (pending.isEmpty && isSkipped (trimStartBy isGap first ++ second)) = false := by
    rwa [isSkipped_append hfilled]
  have hcontinues : continues (trimStartBy isGap first ++ second) = continues second :=
    continues_append_of_ends (htrimmed.trans hends) second
  have hrest : trimStartBy isGap (gaps ++ second) = second := dropWhile_append_of_head hgaps hsecond
  have hkeptRest : ((pending ++ trimStartBy isGap first).isEmpty && isSkipped second) = false := by
    simp [hfilled]
  by_cases hgoes : continues second = true
  · have hsome : second ≠ [] := by
      rintro rfl
      cases hgoes
    rw [logicalLines_cons_of_continues hrest hkeptRest others hgoes,
      logicalLines_cons_of_continues (htrim second) hkeptLine others (hcontinues.trans hgoes),
      List.dropLast_append_of_ne_nil hsome, List.append_assoc]
  · rw [Bool.not_eq_true] at hgoes
    rw [logicalLines_cons_of_ends hrest hkeptRest others hgoes,
      logicalLines_cons_of_ends (htrim second) hkeptLine others (hcontinues.trans hgoes),
      List.append_assoc]

/-! ### The whole text -/

variable {before after : List Char}

/-- A folded text has the same properties. -/
theorem read_folded (hline : IsLineOf before (first ++ second) after)
    (hkept : isSkippedBehind (lines before) (first ++ second) = false)
    (hfirst : ∃ c ∈ first, isGap c = false) (hends : continues first = false)
    (hgaps : ∀ c ∈ gaps, c = ' ' ∨ c = '\t')
    (hsecond : ∀ c, second.head? = some c → isGap c = false) :
    read (before ++ (first ++ '\\' :: '\n' :: (gaps ++ (second ++ after)))) =
      read (before ++ (first ++ (second ++ after))) := by
  have hisGap : ∀ c ∈ gaps, isGap c = true := by
    intro c hc
    rcases hgaps c hc with rfl | rfl <;> rfl
  obtain ⟨c, hc, -⟩ := id hfirst
  have hfilled : first ≠ [] := List.ne_nil_of_mem hc
  have hunbrokenFirst : ∀ c ∈ first ++ ['\\'], isLineBreak c = false := by
    intro c hc
    rcases List.mem_append.1 hc with hc | hc
    · exact hline.unbroken c (List.mem_append_left _ hc)
    · rw [List.mem_singleton.1 hc]
      decide
  have hunbrokenSecond : ∀ c ∈ gaps ++ second, isLineBreak c = false := by
    intro c hc
    rcases List.mem_append.1 hc with hc | hc
    · rcases hgaps c hc with rfl | rfl <;> decide
    · exact hline.unbroken c (List.mem_append_right _ hc)
  have hlines : lines (before ++ (first ++ (second ++ after))) =
      lines before ++ (first ++ second) :: linesBehind after := by
    rw [← List.append_assoc first]
    exact hline.lines_eq (List.append_ne_nil_of_left_ne_nil hfilled _)
  have hfolded : lines (before ++ (first ++ '\\' :: '\n' :: (gaps ++ (second ++ after)))) =
      lines before ++ (first ++ ['\\']) :: lines (gaps ++ second ++ after) := by
    have hhalf : IsLineOf before (first ++ ['\\']) ('\n' :: (gaps ++ second ++ after)) := by
      refine ⟨hline.begins, hunbrokenFirst, ?_⟩
      rintro _ ⟨rfl⟩
      decide
    have hcut := hhalf.lines_eq (List.append_ne_nil_of_left_ne_nil hfilled _)
    rw [List.append_assoc, List.singleton_append, List.append_assoc gaps] at hcut
    rw [hcut, List.append_assoc gaps]
    rfl
  obtain ⟨hfilledHalf, htrim, -⟩ := trimStartBy_append_of_exists hfirst
  have hkeptHalf : ((pendingBehind [] (lines before)).isEmpty &&
      isSkipped (trimStartBy isGap first)) = false := by
    rw [isSkippedBehind, htrim, isSkipped_append hfilledHalf] at hkept
    exact hkept
  have hsecondHalf := logicalLines_secondHalf hfirst hkeptHalf hends hisGap hsecond
    (linesBehind after)
  rw [read, read, hlines, hfolded]
  refine congrArg _ (logicalLines_append_congr ?_)
  rw [logicalLines_firstHalf hfirst hkeptHalf hends, ← hsecondHalf]
  by_cases hsome : gaps ++ second ≠ [] ∨ after ≠ []
  · rw [lines_append_of_ends hunbrokenSecond hline.ends hsome]
  · -- The line is cut at the end of the text, where the second half is no line of its own.
    rw [not_or, not_not, not_not] at hsome
    rw [hsome.1, hsome.2]
    exact (logicalLines_nil_of_pending (List.append_ne_nil_of_right_ne_nil _ hfilledHalf)).symm

/-- Take a line of a text that is not dropped as blank or a comment, and cut it behind a half that
is not all white space and ends in an even number of backslashes, and in front of a half that is
empty or begins with no white space. The text in which a backslash, a line feed and any blanks and
tabulators stand between the halves is read as the text is. -/
theorem readMedia_folded (hline : IsLineOf before (first ++ second) after)
    (hkept : isSkippedBehind (lines before) (first ++ second) = false)
    (hfirst : ∃ c ∈ first, isGap c = false)
    (heven : (first.reverse.takeWhile (· == '\\')).length % 2 = 0)
    (hsecond : ∀ c, second.head? = some c → isGap c = false)
    (hgaps : ∀ c ∈ gaps, c = ' ' ∨ c = '\t') :
    Script.readMedia .properties (before ++ first ++ '\\' :: '\n' :: gaps ++ second ++ after) =
      Script.readMedia .properties (before ++ first ++ second ++ after) := by
  have hends : continues first = false := by
    rw [continues, heven]
    rfl
  have hread := read_folded hline hkept hfirst hends hgaps hsecond
  have hfolded : before ++ first ++ '\\' :: '\n' :: gaps ++ second ++ after =
      before ++ (first ++ '\\' :: '\n' :: (gaps ++ (second ++ after))) := by
    simp only [List.append_assoc, List.cons_append]
  have htext : before ++ first ++ second ++ after = before ++ (first ++ (second ++ after)) := by
    simp only [List.append_assoc]
  rw [hfolded, htext, Script.readMedia, Script.readMedia, hread]

/-- A line that begins with a number sign is no comment behind a line that goes on, and it can be
folded again behind two backslashes. -/
theorem readMedia_folded_pending :
    isSkippedBehind (lines "# c\na = 1,\\\n".toList) "  #2\\\\,3\\".toList = false ∧
      Script.readMedia .properties "# c\na = 1,\\\n  #2\\\\\\\n\t ,3\\\r\n4".toList =
        Script.readMedia .properties "# c\na = 1,\\\n  #2\\\\,3\\\r\n4".toList := by
  have hkept : isSkippedBehind (lines "# c\na = 1,\\\n".toList)
      ("  #2\\\\".toList ++ ",3\\".toList) = false := by decide
  have hunbroken : ("  #2\\\\".toList ++ ",3\\".toList).all (!isLineBreak ·) = true := by decide
  have hline : IsLineOf "# c\na = 1,\\\n".toList ("  #2\\\\".toList ++ ",3\\".toList)
      "\r\n4".toList := by
    refine ⟨?_, fun c hc ↦ Bool.not_inj (List.all_eq_true.1 hunbroken c hc), ?_⟩ <;>
    · rintro _ ⟨rfl⟩
      decide
  have hfirst : ∃ c ∈ "  #2\\\\".toList, isGap c = false := ⟨'#', by decide, by decide⟩
  have hsecond : ∀ c, ",3\\".toList.head? = some c → isGap c = false := by
    rintro _ ⟨rfl⟩
    decide
  have hgaps : ∀ c ∈ "\t ".toList, c = ' ' ∨ c = '\t' :=
    List.forall_mem_cons.2 ⟨.inr rfl, List.forall_mem_singleton.2 (.inl rfl)⟩
  have heven : ("  #2\\\\".toList.reverse.takeWhile (· == '\\')).length % 2 = 0 := by decide
  have hsame := readMedia_folded hline hkept hfirst heven hsecond hgaps
  exact ⟨by decide, hsame⟩

end Properties

end ResourceScript
