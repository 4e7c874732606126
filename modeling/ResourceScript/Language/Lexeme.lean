import ResourceScript.Text.Space
/-!
# Lexemes of a line

A line of source text is a sequence of blanks, words and quoted literals, and perhaps a comment at
its end. A literal begins with a double quote where no word is open and ends at the first following
double quote behind an even number of backslashes. Every other run of characters without blanks is
a word. A comment begins with a number sign where no word is open.
-/

set_option autoImplicit false

namespace ResourceScript

open Text

/-- A lexeme of a line. -/
inductive Lexeme where
  /-- A run of characters without blanks. -/
  | word (text : List Char)
  /-- The characters between the quotes of a literal. -/
  | literal (body : List Char)
  /-- A literal without a closing quote. -/
  | unclosed
  deriving DecidableEq, Repr

namespace Lexeme

/-- The body of a literal and the text after its closing quote. -/
def closing : List Char → Option (List Char × List Char)
  | [] => none
  | '"' :: rest => some ([], rest)
  | '\\' :: c :: rest => (closing rest).map fun (body, after) => ('\\' :: c :: body, after)
  | c :: rest => (closing rest).map fun (body, after) => (c :: body, after)

theorem closing_length {text body after : List Char} (h : closing text = some (body, after)) :
    after.length < text.length := by
  fun_induction closing text generalizing body after with
  | case1 => simp at h
  | case2 rest => simp_all
  | case3 c rest ih =>
    obtain ⟨⟨b, a⟩, hclosing, heq⟩ := Option.map_eq_some_iff.1 h
    obtain ⟨-, rfl⟩ := Prod.mk.inj heq
    have := ih hclosing
    simp only [List.length_cons]
    omega
  | case4 c rest _ _ ih =>
    obtain ⟨⟨b, a⟩, hclosing, heq⟩ := Option.map_eq_some_iff.1 h
    obtain ⟨-, rfl⟩ := Prod.mk.inj heq
    have := ih hclosing
    simp only [List.length_cons]
    omega

/-- The lexemes of a line in order. A literal without a closing quote is the last of them. -/
def scan : List Char → List Lexeme
  | [] => []
  | c :: rest =>
    if isBlank c then scan rest
    else if c = '#' then []
    else if c = '"' then
      match _hclosing : closing rest with
      | some (body, after) => literal body :: scan after
      | none => [unclosed]
    else
      word (c :: rest.takeWhile fun c => !isBlank c) :: scan (rest.dropWhile fun c => !isBlank c)
termination_by text => text.length
decreasing_by
  · simp
  · have := closing_length _hclosing
    simp only [List.length_cons]
    omega
  · have := (List.dropWhile_sublist (l := rest) fun c => !isBlank c).length_le
    simp only [List.length_cons]
    omega

end Lexeme

end ResourceScript
