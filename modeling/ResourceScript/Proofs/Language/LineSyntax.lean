import ResourceScript.Language.Token
import ResourceScript.Proofs.Format.JsonString
import ResourceScript.Proofs.Language.Literal
/-!
# The syntax of a line

A line is a sequence of blanks and lexemes, perhaps with a comment behind them. `Compiler.Reads` is
that grammar: a literal ends at the first quote that is not escaped and has the value of a JSON
string, a word is a run of characters up to a blank or the end of the line. A line that cannot be
read to its end stops at a lexeme without a value (`Compiler.Stops`): a literal that is not closed
or is no JSON string, or a word that denotes nothing.

The result of tokenizing is that of the grammar (`tokenizeWith_yields_iff_isLine`), whatever words
denote. When all of them denote something, a line has its tokens or it is refused as malformed.
-/

set_option autoImplicit false

namespace ResourceScript

open Text

/-- A JSON string is the body of a literal. -/
theorem Json.Spells.isBody {body : List Char} {parts : List Json.Part}
    (hspells : Json.Spells body parts) : Lexeme.IsBody body := by
  have hexDigit : ∀ {c : Char} {n : Nat}, hexValue? c = some n → c ≠ '"' ∧ c ≠ '\\' := by
    intro c n hc
    constructor <;> rintro rfl <;> cases hc
  induction hspells with
  | nil => exact Lexeme.isBody_nil
  | char hquote hback _ _ ih => exact (Lexeme.isBody_cons hquote hback _).2 ih
  | short _ _ ih => exact (Lexeme.isBody_escape _ _).2 ih
  | unit hunit _ ih =>
    simp only [Json.unit?, Option.bind_eq_bind, Option.bind_eq_some_iff] at hunit
    obtain ⟨_, ha, _, hb, _, hc, _, hd, -⟩ := hunit
    rw [Lexeme.isBody_escape, Lexeme.isBody_cons (hexDigit ha).1 (hexDigit ha).2,
      Lexeme.isBody_cons (hexDigit hb).1 (hexDigit hb).2,
      Lexeme.isBody_cons (hexDigit hc).1 (hexDigit hc).2,
      Lexeme.isBody_cons (hexDigit hd).1 (hexDigit hd).2]
    exact ih

/-- Whether a text in front of a rest is a word: it has no blanks, begins neither a literal nor a
comment, and cannot be longer. -/
structure IsWord (word rest : List Char) : Prop where
  /-- It has no blanks. -/
  solid : ∀ c ∈ word, isBlank c = false
  /-- It begins neither a literal nor a comment. -/
  start : ∃ c tail, word = c :: tail ∧ c ≠ '"' ∧ c ≠ '#'
  /-- A blank or the end of the line follows. -/
  maximal : ∀ c tail, rest = c :: tail → isBlank c = true

theorem isBlank_eq_false_of_all {text : List Char}
    (htext : (text.all fun c => !isBlank c) = true) : ∀ c ∈ text, isBlank c = false := by
  intro c hc
  simpa using List.all_eq_true.1 htext c hc

namespace Lexeme

/-! ### Scanning -/

theorem scan_nil : scan [] = [] := by
  rw [scan]

theorem scan_blank {c : Char} (hc : isBlank c = true) (rest : List Char) :
    scan (c :: rest) = scan rest := by
  rw [scan, if_pos hc]

theorem scan_comment (rest : List Char) : scan ('#' :: rest) = [] := by
  rw [scan, if_neg (by decide), if_pos rfl]

theorem scan_literal {body : List Char} (hbody : IsBody body) (rest : List Char) :
    scan ('"' :: (body ++ '"' :: rest)) = literal body :: scan rest := by
  have hclosing := closing_append hbody rest
  rw [scan, if_neg (by decide), if_neg (by decide), if_pos rfl]
  split
  · rename_i body' after h
    rw [hclosing] at h
    cases h
    rfl
  · rename_i h
    rw [hclosing] at h
    cases h

theorem scan_unclosed {rest : List Char} (hrest : QuotesEscaped rest) :
    scan ('"' :: rest) = [unclosed] := by
  have hclosing := closing_eq_none_iff.2 hrest
  rw [scan, if_neg (by decide), if_neg (by decide), if_pos rfl]
  split
  · rename_i body' after h
    rw [hclosing] at h
    cases h
  · rfl

theorem scan_word {text rest : List Char} (hword : IsWord text rest) :
    scan (text ++ rest) = word text :: scan rest := by
  obtain ⟨hsolid, ⟨c, tail, rfl, hquote, hcomment⟩, hmaximal⟩ := hword
  have hblank : ¬ isBlank c = true := by simp [hsolid c List.mem_cons_self]
  have htail : ∀ d ∈ tail, (!isBlank d) = true := fun d hd ↦ by
    simp [hsolid d (List.mem_cons_of_mem c hd)]
  have hrest : rest.takeWhile (fun c => !isBlank c) = [] ∧
      rest.dropWhile (fun c => !isBlank c) = rest := by
    cases rest with
    | nil => exact ⟨rfl, rfl⟩
    | cons d rest => simp [hmaximal d rest rfl]
  rw [List.cons_append, scan, if_neg hblank, if_neg hcomment, if_neg hquote,
    List.takeWhile_append_of_pos htail, List.dropWhile_append_of_pos htail, hrest.1, hrest.2,
    List.append_nil]

end Lexeme

namespace Compiler

/-- How blanks and lexemes are read off a text up to a rest, with the values of the lexemes. -/
inductive Reads (denotes : String → Value → Prop) :
    List Char → List Value → List Char → Prop where
  | done (rest : List Char) : Reads denotes rest [] rest
  | blank {c : Char} {text rest : List Char} {values : List Value} (hc : isBlank c = true)
      (hreads : Reads denotes text values rest) : Reads denotes (c :: text) values rest
  | literal {body text rest : List Char} {parts : List Json.Part} {values : List Value}
      (hbody : Lexeme.IsBody body) (hspells : Json.Spells body parts)
      (hreads : Reads denotes text values rest) :
      Reads denotes ('"' :: (body ++ '"' :: text))
        (.text (String.ofList (Json.characters parts)) :: values) rest
  | word {word text rest : List Char} {value : Value} {values : List Value}
      (hword : IsWord word text) (hvalue : denotes (String.ofList word) value)
      (hreads : Reads denotes text values rest) :
      Reads denotes (word ++ text) (value :: values) rest

/-- Whether a line ends where no word is open: nothing is left, or a comment. -/
def Ends (rest : List Char) : Prop :=
  rest = [] ∨ ∃ comment, rest = '#' :: comment

/-- Whether a line is blanks and lexemes with the given values, and perhaps a comment. -/
def IsLine (denotes : String → Value → Prop) (text : List Char) (values : List Value) : Prop :=
  ∃ rest, Reads denotes text values rest ∧ Ends rest

/-- A lexeme without a value at the beginning of a text where no word is open, and the failure that
it leads to. -/
inductive Stops (denote : String → Compiler Value) (s : Surroundings) (line : String) :
    List Char → Fault → Prop where
  | unclosed {rest : List Char} (hrest : Lexeme.QuotesEscaped rest) :
      Stops denote s line ('"' :: rest) (.parse (.missingQuote line))
  | invalid {body rest : List Char} {fault : Json.StringFault} (hbody : Lexeme.IsBody body)
      (hspells : ∀ parts, ¬ Json.Spells body parts)
      (hfault : Json.readString (body ++ ['"']) = .error fault) :
      Stops denote s line ('"' :: (body ++ '"' :: rest))
        (.parse (.badLiteral (String.ofList ('"' :: (body ++ ['"']))) fault.reason))
  | word {word rest : List Char} {cause : Fault} (hword : IsWord word rest)
      (hcause : (denote (String.ofList word) s).1 = .error cause) :
      Stops denote s line (word ++ rest) cause

section

variable {α β : Type} {s : Surroundings} {f : α → Compiler β} {a : α}

theorem mapM_cons_of_ok {b : β} (ha : (f a s).1 = .ok b) (rest : List α) :
    ((a :: rest).mapM f s).1 = ((rest.mapM f s).1).map (b :: ·) := by
  have hfirst : f a s = (.ok b, (f a s).2) := Prod.ext ha rfl
  rw [List.mapM_cons, bind_of_ok hfirst]
  rcases hrest : rest.mapM f s with ⟨cause | values, t⟩
  · rw [bind_of_error hrest]
    rfl
  · rw [bind_of_ok hrest]
    rfl

theorem mapM_cons_of_error {cause : Fault} (ha : (f a s).1 = .error cause) (rest : List α) :
    ((a :: rest).mapM f s).1 = .error cause := by
  have hfirst : f a s = (.error cause, (f a s).2) := Prod.ext ha rfl
  rw [List.mapM_cons, bind_of_error hfirst]

end

/-! ### The result of reading -/

section

variable (denote : String → Compiler Value) (s : Surroundings) (line : String)

/-- What comes of the lexemes of a text. -/
def result (text : List Char) : Except Fault (List Value) :=
  ((Lexeme.scan text).mapM (evalLexeme denote line) s).1

variable {denote s line}

theorem evalLexeme_literal {body : List Char} {parts : List Json.Part}
    (hspells : Json.Spells body parts) :
    evalLexeme denote line (.literal body) =
      pure (.text (String.ofList (Json.characters parts))) := by
  rw [evalLexeme, Json.readString_append hspells]

theorem result_of_ends {rest : List Char} (hends : Ends rest) :
    result denote s line rest = .ok [] := by
  rcases hends with rfl | ⟨comment, rfl⟩
  · rw [result, Lexeme.scan_nil]
    rfl
  · rw [result, Lexeme.scan_comment]
    rfl

theorem result_of_stops {rest : List Char} {cause : Fault}
    (hstops : Stops denote s line rest cause) :
    result denote s line rest = .error cause := by
  cases hstops with
  | unclosed hrest =>
    rw [result, Lexeme.scan_unclosed hrest]
    exact mapM_cons_of_error rfl []
  | invalid hbody _ hfault =>
    rw [result, Lexeme.scan_literal hbody]
    refine mapM_cons_of_error ?_ _
    rw [evalLexeme, hfault]
    rfl
  | word hword hcause =>
    rw [result, Lexeme.scan_word hword]
    refine mapM_cons_of_error ?_ _
    exact hcause

/-- Where a text is read up to a rest, it gives the values read and then what comes of the rest. -/
theorem result_of_reads {text rest : List Char} {values : List Value}
    (hreads : Reads (fun word value => (denote word).Yields s value) text values rest) :
    result denote s line text = (result denote s line rest).map (values ++ ·) := by
  have hmap : ∀ (value : Value) (values : List Value) (r : Except Fault (List Value)),
      (r.map (values ++ ·)).map (value :: ·) = r.map (value :: values ++ ·) := by
    intro value values r
    cases r <;> rfl
  induction hreads with
  | done rest => cases result denote s line rest <;> rfl
  | blank hc _ ih =>
    rw [← ih, result, Lexeme.scan_blank hc]
    rfl
  | literal hbody hspells _ ih =>
    rw [result, Lexeme.scan_literal hbody, mapM_cons_of_ok, ← hmap, ← ih]
    · rfl
    · rw [evalLexeme_literal hspells]
      rfl
  | @word word text rest value values hword hvalue _ ih =>
    have hfirst : (evalLexeme denote line (.word word) s).1 = .ok value := hvalue
    rw [result, Lexeme.scan_word hword, mapM_cons_of_ok hfirst, ← hmap, ← ih]
    rfl

/-- A body in front of its closing quote either spells a JSON string, or reading stops there. -/
theorem spells_or_stops {body : List Char} (hbody : Lexeme.IsBody body) (rest : List Char) :
    (∃ parts, Json.Spells body parts) ∨
      ∃ cause, Stops denote s line ('"' :: (body ++ '"' :: rest)) cause := by
  by_cases hspells : ∃ parts, Json.Spells body parts
  · exact .inl hspells
  · right
    rw [not_exists] at hspells
    rcases hread : Json.readString (body ++ ['"']) with fault | ⟨chars, after⟩
    · exact ⟨_, .invalid hbody hspells hread⟩
    · obtain ⟨body', parts, htext, hspells', -⟩ := Json.readString_eq_ok_iff.1 hread
      have hclosing := Lexeme.closing_append hbody []
      rw [htext, Lexeme.closing_append hspells'.isBody] at hclosing
      cases hclosing
      exact absurd hspells' (hspells parts)

/-- The first word of a text that begins with one. -/
theorem isWord_takeWhile {c : Char} (hblank : isBlank c = false) (hquote : c ≠ '"')
    (hcomment : c ≠ '#') (rest : List Char) :
    IsWord (c :: rest.takeWhile fun c => !isBlank c) (rest.dropWhile fun c => !isBlank c) where
  solid := by
    intro d hd
    rcases List.mem_cons.1 hd with rfl | hd
    · exact hblank
    · simpa using List.all_eq_true.1 List.all_takeWhile d hd
  start := ⟨c, _, rfl, hquote, hcomment⟩
  maximal := by
    intro d tail htail
    have hhead := List.head?_dropWhile_not (fun c => !isBlank c) rest
    rw [htail] at hhead
    simpa using hhead

/-- Every text is read up to a place where the line ends, or where reading stops. The induction
follows the scanner. -/
theorem exists_reads (denote : String → Compiler Value) (s : Surroundings) (line : String)
    (text : List Char) :
    ∃ values rest, Reads (fun word value => (denote word).Yields s value) text values rest ∧
      (Ends rest ∨ ∃ cause, Stops denote s line rest cause) := by
  induction text using Lexeme.scan.induct with
  | case1 => exact ⟨[], [], .done [], .inl (.inl rfl)⟩
  | case2 c rest hblank ih =>
    obtain ⟨values, left, hreads, hleft⟩ := ih
    exact ⟨values, left, .blank hblank hreads, hleft⟩
  | case3 rest hblank => exact ⟨[], _, .done _, .inl (.inr ⟨rest, rfl⟩)⟩
  | case4 rest body after hclosing hblank hcomment ih =>
    obtain ⟨rfl, hbody⟩ := Lexeme.closing_eq_some_iff.1 hclosing
    rcases spells_or_stops hbody after with ⟨parts, hspells⟩ | hstops
    · obtain ⟨values, left, hreads, hleft⟩ := ih
      exact ⟨_, left, .literal hbody hspells hreads, hleft⟩
    · exact ⟨[], _, .done _, .inr hstops⟩
  | case5 rest hclosing hblank hcomment =>
    exact ⟨[], _, .done _, .inr ⟨_, .unclosed (Lexeme.closing_eq_none_iff.1 hclosing)⟩⟩
  | case6 c rest hblank hcomment hquote ih =>
    have hword := isWord_takeWhile (Bool.eq_false_iff.2 hblank) hquote hcomment rest
    have htext : c :: rest = (c :: rest.takeWhile fun c => !isBlank c) ++
        rest.dropWhile fun c => !isBlank c := by
      rw [List.cons_append, List.takeWhile_append_dropWhile]
    rcases hvalue : (denote (String.ofList (c :: rest.takeWhile fun c => !isBlank c)) s).1
      with cause | value
    · exact ⟨[], _, .done _, .inr ⟨cause, htext ▸ .word hword hvalue⟩⟩
    · obtain ⟨values, left, hreads, hleft⟩ := ih
      exact ⟨value :: values, left, htext ▸ .word hword hvalue hreads, hleft⟩

theorem result_of_isLine {text : List Char} {values : List Value}
    (hline : IsLine (fun word value => (denote word).Yields s value) text values) :
    result denote s line text = .ok values := by
  obtain ⟨rest, hreads, hends⟩ := hline
  rw [result_of_reads hreads, result_of_ends hends]
  exact congrArg Except.ok (List.append_nil values)

theorem result_of_reads_of_stops {text rest : List Char} {values : List Value} {cause : Fault}
    (hreads : Reads (fun word value => (denote word).Yields s value) text values rest)
    (hstops : Stops denote s line rest cause) : result denote s line text = .error cause := by
  rw [result_of_reads hreads, result_of_stops hstops]
  rfl

/-- The lexemes of a text have values exactly when it is a line of the grammar with these values. -/
theorem result_eq_ok_iff {text : List Char} {values : List Value} :
    result denote s line text = .ok values ↔
      IsLine (fun word value => (denote word).Yields s value) text values := by
  constructor
  · intro hok
    obtain ⟨others, rest, hreads, hends | ⟨cause, hstops⟩⟩ :=
      exists_reads denote s line text
    · rw [result_of_isLine ⟨rest, hreads, hends⟩] at hok
      cases hok
      exact ⟨rest, hreads, hends⟩
    · rw [result_of_reads_of_stops hreads hstops] at hok
      cases hok
  · exact result_of_isLine

/-- The lexemes of a text fail exactly where reading stops. -/
theorem result_eq_error_iff {text : List Char} {cause : Fault} :
    result denote s line text = .error cause ↔
      ∃ values rest, Reads (fun word value => (denote word).Yields s value) text values rest ∧
        Stops denote s line rest cause := by
  constructor
  · intro herror
    obtain ⟨values, rest, hreads, hends | ⟨other, hstops⟩⟩ :=
      exists_reads denote s line text
    · rw [result_of_isLine ⟨rest, hreads, hends⟩] at herror
      cases herror
    · rw [result_of_reads_of_stops hreads hstops] at herror
      cases herror
      exact ⟨values, rest, hreads, hstops⟩
  · rintro ⟨values, rest, hreads, hstops⟩
    exact result_of_reads_of_stops hreads hstops

/-- Where all words denote something, reading only stops at malformed literals. -/
theorem Stops.exists_parse {rest : List Char} {cause : Fault}
    (hstops : Stops denote s line rest cause)
    (hdenote : ∀ word, ∃ value, (denote word).Yields s value) : ∃ fault, cause = .parse fault := by
  cases hstops with
  | unclosed => exact ⟨_, rfl⟩
  | invalid => exact ⟨_, rfl⟩
  | word _ hcause =>
    obtain ⟨value, hvalue⟩ := hdenote _
    rw [Yields, hcause] at hvalue
    cases hvalue

end

/-! ### Tokens -/

/-- Tokenizing accepts exactly the syntax of lines, whatever words denote. A line has the tokens
that are the values of its lexemes. It fails exactly where a lexeme has no value, with the failure
of the first such lexeme. If all words denote something, that can only be a malformed literal. -/
theorem tokenizeWith_yields_iff_isLine (denote : String → Compiler Value) (s : Surroundings)
    (line : String) :
    (∀ values, (tokenizeWith denote line).Yields s values ↔
      IsLine (fun word value => (denote word).Yields s value) line.toList values) ∧
    (∀ cause, (tokenizeWith denote line s).1 = .error cause ↔
      ∃ values rest,
        Reads (fun word value => (denote word).Yields s value) line.toList values rest ∧
        Stops denote s line rest cause) ∧
    ((∀ word, ∃ value, (denote word).Yields s value) →
      (¬ ∃ values, IsLine (fun word value => (denote word).Yields s value) line.toList values) →
        ∃ fault, (tokenizeWith denote line s).1 = .error (.parse fault)) := by
  refine ⟨fun values ↦ result_eq_ok_iff, fun cause ↦ result_eq_error_iff, fun hdenote hline ↦ ?_⟩
  obtain ⟨values, rest, hreads, hends | ⟨cause, hstops⟩⟩ :=
    exists_reads denote s line line.toList
  · exact absurd ⟨values, rest, hreads, hends⟩ hline
  · obtain ⟨fault, rfl⟩ := hstops.exists_parse hdenote
    exact ⟨fault, result_of_reads_of_stops hreads hstops⟩

/-- A line with a quote inside a word, and a literal whose second quote is escaped: it is refused,
though every word denotes its own text. -/
theorem tokenizeWith_yields_iff_isLine_unclosed :
    let denote : String → Compiler Value := fun word => pure (.text word)
    let s : Surroundings :=
      ⟨fun _ => none, [], ⟨[], []⟩, .epoch, false, fun _ => true, fun _ _ => none, 0⟩
    let line := "x\"y \"a\\\""
    (∀ word, ∃ value, (denote word).Yields s value) ∧
      (¬ ∃ values, IsLine (fun word value => (denote word).Yields s value) line.toList values) ∧
      ∃ fault, (tokenizeWith denote line s).1 = .error (.parse fault) := by
  intro denote s line
  have hdenote : ∀ word, ∃ value, (denote word).Yields s value := fun word ↦ ⟨.text word, rfl⟩
  have hword : IsWord ['x', '"', 'y'] [' ', '"', 'a', '\\', '"'] :=
    ⟨isBlank_eq_false_of_all rfl, ⟨'x', ['"', 'y'], rfl, by decide, by decide⟩,
      by rintro c tail ⟨⟩; decide⟩
  have hescaped : Lexeme.QuotesEscaped ['a', '\\', '"'] := by
    rw [Lexeme.quotesEscaped_cons (by decide) (by decide), Lexeme.quotesEscaped_escape]
    exact Lexeme.quotesEscaped_nil
  have hreads : Reads (fun word value => (denote word).Yields s value) line.toList
      [.text (String.ofList ['x', '"', 'y'])] ['"', 'a', '\\', '"'] := by
    have htext : line.toList = ['x', '"', 'y'] ++ [' ', '"', 'a', '\\', '"'] := by simp [line]
    rw [htext]
    exact .word hword rfl (.blank (by decide) (.done _))
  have hstops : Stops denote s line ['"', 'a', '\\', '"'] (.parse (.missingQuote line)) :=
    .unclosed hescaped
  have hline : ¬ ∃ values,
      IsLine (fun word value => (denote word).Yields s value) line.toList values := by
    rintro ⟨values, hvalues⟩
    have hok : result denote s line line.toList = .ok values := result_of_isLine hvalues
    rw [result_of_reads_of_stops hreads hstops] at hok
    cases hok
  exact ⟨hdenote, hline, (tokenizeWith_yields_iff_isLine denote s line).2.2 hdenote hline⟩

end Compiler

end ResourceScript
