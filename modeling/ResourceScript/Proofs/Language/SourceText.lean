import ResourceScript.Proofs.Language.CodeLines
import ResourceScript.Proofs.Text.Lines
/-!
# The lines of code of source text

Source text is stripped and split into lines before it is compiled. Its lines of code do not depend
on the blanks around it (`codeLines_lines_trim`), and those of two texts joined by a line feed are
those of the one followed by those of the other (`codeLines_lines_append`). Neither holds of the
lines themselves: stripping drops blank lines, and a carriage return at the end of the first text makes
one line end with the line feed behind it.
-/

set_option autoImplicit false

namespace ResourceScript

namespace Compiler

open Text

/-- The texts of code among lines, without the blanks around them. -/
def codeTexts (texts : List (List Char)) : List (List Char) :=
  (texts.map trim).filter isCode

theorem codeLines_map_ofList (texts : List (List Char)) :
    codeLines (texts.map String.ofList) = (codeTexts texts).map String.ofList := by
  simp only [codeLines, codeTexts, List.map_map, Function.comp_def, String.toList_ofList]

theorem codeTexts_cons (text : List Char) (rest : List (List Char)) :
    codeTexts (text :: rest) = codeTexts [text] ++ codeTexts rest := by
  simp only [codeTexts, List.map_cons, List.map_nil, List.filter_cons, List.filter_nil]
  split <;> rfl

theorem codeTexts_append (first second : List (List Char)) :
    codeTexts (first ++ second) = codeTexts first ++ codeTexts second := by
  simp only [codeTexts, List.map_append, List.filter_append]

theorem codeTexts_congr {text other : List Char} (h : trim text = trim other) :
    codeTexts [text] = codeTexts [other] := by
  simp only [codeTexts, List.map_cons, List.map_nil, h]

/-- The pieces of a text between its line breaks, each of which counts by itself; `line` holds the
current piece in reverse. -/
def pieces (line : List Char) : List Char → List (List Char)
  | [] => [line.reverse]
  | c :: rest => if isLineBreak c then line.reverse :: pieces [] rest else pieces (c :: line) rest

section

variable {c : Char} (line rest : List Char)

theorem pieces_cons_of_break (hc : isLineBreak c = true) :
    pieces line (c :: rest) = line.reverse :: pieces [] rest := by
  rw [pieces, if_pos hc]

theorem pieces_cons_of_not_break (hc : ¬ isLineBreak c = true) :
    pieces line (c :: rest) = pieces (c :: line) rest := by
  rw [pieces, if_neg hc]

end

/-- The lines of a text and its pieces have the same code: they differ by blank ones. -/
theorem codeTexts_lines_go (line text : List Char) :
    codeTexts (lines.go line text) = codeTexts (pieces line text) := by
  fun_induction lines.go line text with
  | case1 line hline => rw [List.isEmpty_iff.1 hline]; rfl
  | case2 line hline => rfl
  | case3 line rest ih =>
    rw [pieces_cons_of_break _ _ (by decide), pieces_cons_of_break _ _ (by decide),
      codeTexts_cons line.reverse (lines.go [] rest), ih,
      codeTexts_cons line.reverse ([].reverse :: pieces [] rest), codeTexts_cons [].reverse]
    rfl
  | case4 line c rest _ hc ih =>
    rw [pieces_cons_of_break _ _ hc, codeTexts_cons line.reverse, ih, ← codeTexts_cons]
  | case5 line c rest _ hc ih => rw [pieces_cons_of_not_break _ _ hc, ih]

theorem pieces_append {c : Char} (hc : isLineBreak c = true) (line first second : List Char) :
    pieces line (first ++ c :: second) = pieces line first ++ pieces [] second := by
  induction first generalizing line with
  | nil => exact pieces_cons_of_break line second hc
  | cons d rest ih =>
    by_cases hd : isLineBreak d = true
    · rw [List.cons_append, pieces_cons_of_break _ _ hd, pieces_cons_of_break _ _ hd, ih,
        List.cons_append]
    · rw [List.cons_append, pieces_cons_of_not_break _ _ hd, pieces_cons_of_not_break _ _ hd, ih]

theorem codeTexts_pieces_concat_front {c : Char} (hc : isSpace c = true) (line text : List Char) :
    codeTexts (pieces (line ++ [c]) text) = codeTexts (pieces line text) := by
  have hfront (line : List Char) :
      codeTexts [(line ++ [c]).reverse] = codeTexts [line.reverse] := by
    rw [List.reverse_append, List.reverse_singleton, List.singleton_append]
    exact codeTexts_congr (trim_cons_of_isSpace hc _)
  induction text generalizing line with
  | nil => exact hfront line
  | cons d rest ih =>
    by_cases hd : isLineBreak d = true
    · rw [pieces_cons_of_break _ _ hd, pieces_cons_of_break _ _ hd, codeTexts_cons, hfront,
        ← codeTexts_cons]
    · rw [pieces_cons_of_not_break _ _ hd, pieces_cons_of_not_break _ _ hd]
      exact ih (d :: line)

theorem codeTexts_pieces_cons {c : Char} (hc : isSpace c = true) (text : List Char) :
    codeTexts (pieces [] (c :: text)) = codeTexts (pieces [] text) := by
  by_cases hbreak : isLineBreak c = true
  · rw [pieces_cons_of_break _ _ hbreak, codeTexts_cons]
    rfl
  · rw [pieces_cons_of_not_break _ _ hbreak]
    exact codeTexts_pieces_concat_front hc [] text

theorem codeTexts_pieces_concat {c : Char} (hc : isSpace c = true) (line text : List Char) :
    codeTexts (pieces line (text ++ [c])) = codeTexts (pieces line text) := by
  induction text generalizing line with
  | nil =>
    rw [List.nil_append]
    by_cases hbreak : isLineBreak c = true
    · rw [pieces_cons_of_break _ _ hbreak, codeTexts_cons]
      exact List.append_nil _
    · rw [pieces_cons_of_not_break _ _ hbreak, pieces, pieces, List.reverse_cons]
      exact codeTexts_congr (trim_concat_of_isSpace hc _)
  | cons d rest ih =>
    rw [List.cons_append]
    by_cases hd : isLineBreak d = true
    · rw [pieces_cons_of_break _ _ hd, pieces_cons_of_break _ _ hd, codeTexts_cons, ih,
        ← codeTexts_cons]
    · rw [pieces_cons_of_not_break _ _ hd, pieces_cons_of_not_break _ _ hd, ih]

theorem codeTexts_pieces_trim (text : List Char) :
    codeTexts (pieces [] (trim text)) = codeTexts (pieces [] text) := by
  have hstart : codeTexts (pieces [] (trimStartBy isSpace text)) = codeTexts (pieces [] text) := by
    unfold trimStartBy
    induction text with
    | nil => rfl
    | cons c rest ih =>
      rw [List.dropWhile_cons]
      split
      · rename_i hc
        rw [ih, codeTexts_pieces_cons hc]
      · rfl
  rw [trim, ← hstart]
  generalize trimStartBy isSpace text = text
  unfold trimEndBy
  have hend (back : List Char) :
      codeTexts (pieces [] (back.dropWhile isSpace).reverse) =
        codeTexts (pieces [] back.reverse) := by
    induction back with
    | nil => rfl
    | cons c rest ih =>
      rw [List.dropWhile_cons]
      split
      · rename_i hc
        rw [ih, List.reverse_cons, codeTexts_pieces_concat hc]
      · rfl
  rw [hend, List.reverse_reverse]

/-- Stripping a text leaves its lines of code. -/
theorem codeLines_lines_trim (text : List Char) :
    codeLines ((lines (trim text)).map String.ofList) =
      codeLines ((lines text).map String.ofList) := by
  rw [codeLines_map_ofList, codeLines_map_ofList, lines, lines, codeTexts_lines_go,
    codeTexts_lines_go, codeTexts_pieces_trim]

/-- The lines of code of two texts that are joined by a line feed. -/
theorem codeLines_lines_append (first second : List Char) :
    codeLines ((lines (first ++ '\n' :: second)).map String.ofList) =
      codeLines ((lines first).map String.ofList) ++
        codeLines ((lines second).map String.ofList) := by
  simp only [codeLines_map_ofList, lines, codeTexts_lines_go]
  rw [pieces_append (by decide), codeTexts_append, List.map_append]

end Compiler

end ResourceScript
