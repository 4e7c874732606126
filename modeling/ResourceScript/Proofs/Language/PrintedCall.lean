import ResourceScript.Proofs.Language.BlockProgram
import ResourceScript.Proofs.Language.CallTree
import ResourceScript.Proofs.Language.PrintedScalars
import ResourceScript.Proofs.Language.SourceText
/-!
# Printed calls are source text

A call of a function that takes any number of parameters, with scalars as parameters, is printed as
the name of the function and the scalars behind it. That text is one line, and compiling it gives
the call back (`Compiler.compile_printed_call`).

JSON strings hold three characters unescaped at which source text is cut into lines: the next line
(U+0085), the line separator and the paragraph separator. The texts among the parameters are without
them. A text with a line separator does not come back, and neither does an integer that has too many
digits to be printed, or whose numeral is the name of a function
(`Compiler.not_compile_printed_call`).
-/

set_option autoImplicit false

namespace ResourceScript

open Text

namespace Text

/-! ### Texts on a line -/

/-- Whether a text can stand on a line of its own: it has no line break, and no white space at its
ends. -/
structure IsTrimmedLine (text : List Char) : Prop where
  /-- It has no line break. -/
  unbroken : ∀ c ∈ text, isLineBreak c = false
  /-- It begins with something. -/
  head : ∃ c, text.head? = some c ∧ isSpace c = false
  /-- It ends with something. -/
  last : ∃ c, text.getLast? = some c ∧ isSpace c = false

namespace IsTrimmedLine

variable {text other : List Char}

theorem trim_eq (h : IsTrimmedLine text) : trim text = text := by
  obtain ⟨-, ⟨first, hfirst, hfirstSpace⟩, last, hlast, hlastSpace⟩ := h
  refine trim_eq_of_ends (fun c hc ↦ ?_) fun c hc ↦ ?_
  · cases hfirst.symm.trans hc
    exact hfirstSpace
  · cases hlast.symm.trans hc
    exact hlastSpace

theorem lines_trim (h : IsTrimmedLine text) : lines (trim text) = [text] := by
  have hne : text ≠ [] := by
    rintro rfl
    obtain ⟨c, hc, -⟩ := h.head
    cases hc
  rw [h.trim_eq]
  exact lines_of_unbroken h.unbroken hne

/-- Two such texts with a space between them are another. -/
theorem append (h : IsTrimmedLine text) (hother : IsTrimmedLine other) :
    IsTrimmedLine (text ++ [' '] ++ other) where
  unbroken := by
    have hspace : isLineBreak ' ' = false := by decide
    simp only [List.mem_append, List.mem_singleton]
    rintro c ((hc | rfl) | hc)
    · exact h.unbroken c hc
    · exact hspace
    · exact hother.unbroken c hc
  head := by
    obtain ⟨c, hc, hspace⟩ := h.head
    exact ⟨c, by simp [hc], hspace⟩
  last := by
    obtain ⟨c, hc, hspace⟩ := hother.last
    have hlast : (text ++ [' '] ++ other).getLast? = some c := by
      rw [List.getLast?_append, hc]
      rfl
    exact ⟨c, hlast, hspace⟩

end IsTrimmedLine

theorem isTrimmedLine_joinWith {text : List Char} {texts : List (List Char)}
    (htext : IsTrimmedLine text) (htexts : ∀ other ∈ texts, IsTrimmedLine other) :
    IsTrimmedLine (joinWith [' '] (text :: texts)) := by
  induction texts generalizing text with
  | nil => exact htext
  | cons other rest ih =>
    rw [joinWith_cons_cons]
    exact htext.append (ih (htexts other List.mem_cons_self)
      fun t ht ↦ htexts t (List.mem_cons_of_mem _ ht))

end Text

/-! ### Printed scalars on a line -/

theorem isLineBreak_of_mem_hexDigits {width n : Nat} {c : Char} (hc : c ∈ hexDigits width n) :
    isLineBreak c = false := by
  have hdigit : ∀ k < 16, isLineBreak (hexDigit k) = false := by decide
  induction width generalizing n with
  | zero => cases hc
  | succ width ih =>
    rcases List.mem_append.1 hc with hfront | hlast
    · exact ih hfront
    · rw [List.mem_singleton.1 hlast]
      exact hdigit _ (Nat.mod_lt n (by decide))

/-- Whether a character is no line break that a literal holds as it is. -/
def Json.IsUnbroken (c : Char) : Prop :=
  c ≠ '\x85' ∧ c ≠ '\u2028' ∧ c ≠ '\u2029'

/-- What is written for such a character in a literal is no line break. -/
theorem Json.isLineBreak_of_mem_escapeChar {c d : Char} (hc : IsUnbroken c)
    (hd : d ∈ escapeChar c) : isLineBreak d = false := by
  have hshort (e : Char) (he : isLineBreak e = false) (hmem : d ∈ ['\\', e]) :
      isLineBreak d = false := by
    rcases List.mem_cons.1 hmem with rfl | hmem
    · decide
    · exact List.mem_singleton.1 hmem ▸ he
  unfold escapeChar at hd
  split at hd
  · exact hshort _ (by decide) hd
  split at hd
  · exact hshort _ (by decide) hd
  split at hd
  · exact hshort _ (by decide) hd
  split at hd
  · exact hshort _ (by decide) hd
  split at hd
  · exact hshort _ (by decide) hd
  split at hd
  · exact hshort _ (by decide) hd
  split at hd
  · exact hshort _ (by decide) hd
  split at hd
  · simp only [List.mem_cons] at hd
    rcases hd with rfl | rfl | hd
    · decide
    · decide
    · exact isLineBreak_of_mem_hexDigits hd
  · rename_i hlarge
    rw [List.mem_singleton.1 hd]
    have hne (e : Char) (he : c ≠ e) : c.toNat ≠ e.toNat := fun h ↦ he (Char.toNat_inj.1 h)
    have hnext : c.toNat ≠ 0x85 := hne '\x85' hc.1
    have hline : c.toNat ≠ 0x2028 := hne '\u2028' hc.2.1
    have hparagraph : c.toNat ≠ 0x2029 := hne '\u2029' hc.2.2
    simp only [isLineBreak, Bool.or_eq_false_iff, Bool.and_eq_false_iff, decide_eq_false_iff_not,
      beq_eq_false_iff_ne]
    omega

/-- A text without white space stands on a line of its own. -/
theorem isTrimmedLine_of_solid {text : List Char} (hne : text ≠ [])
    (hsolid : (text.all fun c => !isSpace c) = true) : IsTrimmedLine text := by
  have hspace (c : Char) (hc : c ∈ text) : isSpace c = false := by
    simpa using List.all_eq_true.1 hsolid c hc
  refine ⟨fun c hc ↦ ?_, ⟨text.head hne, List.head?_eq_some_head hne, hspace _ (List.head_mem hne)⟩,
    ⟨text.getLast hne, List.getLast?_eq_some_getLast hne, hspace _ (List.getLast_mem hne)⟩⟩
  refine Bool.eq_false_iff.2 fun hbreak ↦ Bool.false_ne_true ?_
  rw [← hspace c hc, isSpace_of_isLineBreak hbreak]

theorem isTrimmedLine_quote {text : List Char} (htext : ∀ c ∈ text, Json.IsUnbroken c) :
    IsTrimmedLine (Json.quote text) where
  unbroken c hc := by
    have hquote : isLineBreak '"' = false := by decide
    simp only [Json.quote, List.mem_cons, List.mem_append, List.mem_flatMap, List.mem_nil_iff,
      or_false] at hc
    rcases hc with rfl | ⟨d, hd, hcd⟩ | rfl
    · exact hquote
    · exact Json.isLineBreak_of_mem_escapeChar (htext d hd) hcd
    · exact hquote
  head := ⟨'"', rfl, by decide⟩
  last := ⟨'"', by rw [Json.quote, ← List.cons_append, List.getLast?_concat], by decide⟩

namespace Compiler

variable {w : World} {f : Function} {params : List Value}

/-- A printed scalar stands on a line. -/
theorem isTrimmedLine_printed {value : Value} (hscalar : value.IsScalar)
    (hunbroken : ∀ s, value = .text s → ∀ c ∈ s.toList, Json.IsUnbroken c) {indent level : Nat}
    {text : List Char} (hprint : (w.store.view value).printed indent level = .ok text) :
    IsTrimmedLine text := by
  cases hscalar with
  | null =>
    cases hprint
    exact isTrimmedLine_of_solid (by decide) (by decide)
  | bool b =>
    cases b with
    | false =>
      cases hprint
      exact isTrimmedLine_of_solid (by decide) (by decide)
    | true =>
      cases hprint
      exact isTrimmedLine_of_solid (by decide) (by decide)
  | @int n hdigits =>
    have htext : Numeral.intText n = .ok text := hprint
    refine isTrimmedLine_of_solid (Numeral.intText_ne_nil htext) (List.all_eq_true.2 fun c hc ↦ ?_)
    rcases Numeral.isDigit_or_eq_of_mem_intText htext hc with hdigit | rfl
    · rw [isSpace_of_isDigit hdigit, Bool.not_false]
    · decide
  | text s =>
    cases hprint
    exact isTrimmedLine_quote (hunbroken s rfl)

/-- Scalars as parameters are printed as texts that stand on a line and read as the scalars. -/
theorem exists_printedParams (hscalars : ∀ value ∈ params, value.IsScalar)
    (hnames : ∀ n text, .int n ∈ params → Numeral.intText n = .ok text →
      w.registry.lookup (String.ofList text) = none)
    (hunbroken : ∀ s, .text s ∈ params → ∀ c ∈ s.toList, Json.IsUnbroken c) (indent level : Nat) :
    ∃ texts, Data.printedParams indent level (params.map w.store.view) = .ok texts ∧
      List.Forall₂ (fun text value => ReadsBack w.surroundings (String.ofList text) value)
        texts params ∧
      ∀ text ∈ texts, IsTrimmedLine text := by
  induction params with
  | nil => exact ⟨[], rfl, .nil, fun _ h ↦ absurd h List.not_mem_nil⟩
  | cons value rest ih =>
    obtain ⟨hvalue, hrest⟩ := List.forall_mem_cons.1 hscalars
    obtain ⟨texts, htexts, hback, hlines⟩ := ih hrest
      (fun n text hn ↦ hnames n text (List.mem_cons_of_mem value hn))
      (fun s hs ↦ hunbroken s (List.mem_cons_of_mem value hs))
    obtain ⟨text, htext, hfirst⟩ := exists_printed_readsBack hvalue
      (fun n text hn ↦ hnames n text (hn ▸ List.mem_cons_self)) indent level
    have hline := isTrimmedLine_printed hvalue
      (fun s hs ↦ hunbroken s (hs ▸ List.mem_cons_self)) htext
    have hplain : (w.store.view value).needsParentheses = false := by
      cases hvalue <;> rfl
    refine ⟨text :: texts, ?_, .cons hfirst hback, List.forall_mem_cons.2 ⟨hline, hlines⟩⟩
    rw [List.map_cons, Data.printedParams, htext, htexts, hplain]
    rfl

/-- A call shows its parameters. -/
theorem view_call (s : Store) (f : Option Function) (params : List Value) :
    s.view (.call f params) = .call f (params.map s.view) :=
  congrArg (Data.call f) (Value.showsAll_eq_map _ params)

end Compiler

namespace Call

/-- A call that takes any number of parameters takes all values that are no functions. -/
theorem takeParams_values {f : Function} (harity : f.arity = none) (hbloc : f.isBloc = false)
    {values : List Value} (hvalues : ∀ value ∈ values, ∀ g, value ≠ .function g) (taken : Nat) :
    (takeParams (some f) taken values).val = ⟨values, []⟩ := by
  have hfull (taken : Nat) : isFull (some f) taken = false := by
    simp only [isFull, harity]
  induction values generalizing taken with
  | nil => exact takeParams_nil
  | cons value rest ih =>
    obtain ⟨hvalue, hrest⟩ := List.forall_mem_cons.1 hvalues
    rw [takeParams_value (hfull taken) hbloc hvalue, ih hrest]

theorem ofTokens_values {f : Function} (harity : f.arity = none) (hbloc : f.isBloc = false)
    {values : List Value} (hvalues : ∀ value ∈ values, ∀ g, value ≠ .function g) :
    ofTokens (.function f :: values) = .call (some f) values := by
  rw [ofTokens, calls_function, takeParams_values harity hbloc hvalues, calls_nil]

end Call

/-- Whether the name of a function resolves to it in source text: it stands on a line as a single
word, and that word denotes the function. -/
structure Function.IsResolved (f : Function) (s : Surroundings) : Prop where
  /-- The name stands on a line. -/
  line : IsTrimmedLine f.name.toList
  /-- The name is a word. -/
  word : IsWord f.name.toList []
  /-- The word denotes the function. -/
  denotes : (Compiler.evalWord f.name).Yields s (.function f)

/-- A name that resolves to its function reads as the function. -/
theorem Function.IsResolved.readsBack {f : Function} {s : Surroundings} (hname : f.IsResolved s) :
    Compiler.ReadsBack s f.name (.function f) := by
  intro rest values hrest hreads
  have hdenotes := hname.denotes
  rw [← f.name.ofList_toList] at hdenotes
  exact .word ⟨hname.word.solid, hname.word.start, hrest⟩ hdenotes hreads

namespace Compiler

/-- For every function that takes any number of parameters, is no bloc, and has a name that resolves
to it, and for all parameters each of which is null, a truth value, an integer of at most
`Numeral.maxDigits` digits under whose numeral no function is registered, or a text without the line
breaks that literals hold as they are: the call is printed, and its printed form is compiled to the
call. -/
theorem compile_printed_call (w : World) (f : Function) (harity : f.arity = none)
    (hbloc : f.isBloc = false) (hname : f.IsResolved w.surroundings) (params : List Value)
    (hscalars : ∀ value ∈ params, value.IsScalar)
    (hnames : ∀ n text, .int n ∈ params → Numeral.intText n = .ok text →
      w.registry.lookup (String.ofList text) = none)
    (hunbroken : ∀ s, .text s ∈ params → ∀ c ∈ s.toList, Json.IsUnbroken c) (indent : Nat) :
    ∃ text, (w.store.view (.call (some f) params)).print indent = .ok text ∧
      (compile text).Yields w.surroundings (.call (some f) params) := by
  obtain ⟨texts, htexts, hback, hlines⟩ :=
    exists_printedParams hscalars hnames hunbroken indent 1
  refine ⟨String.ofList (joinWith [' '] (f.name.toList :: texts)), ?print, ?compile⟩
  case print =>
    rw [view_call, Data.print, Data.printed, htexts]
    rfl
  case compile =>
    have hline : lines (trim (String.ofList (joinWith [' '] (f.name.toList :: texts))).toList) =
        [joinWith [' '] (f.name.toList :: texts)] := by
      rw [String.toList_ofList]
      exact (isTrimmedLine_joinWith hname.line hlines).lines_trim
    have hfirst : ReadsBack w.surroundings (String.ofList f.name.toList) (.function f) := by
      rw [String.ofList_toList]
      exact hname.readsBack
    have hreads := reads_joinWith (.cons hfirst hback)
    have htokens : (tokenize (String.ofList (joinWith [' '] (f.name.toList :: texts)))).Yields
        w.surroundings (.function f :: params) := by
      refine result_of_isLine ⟨[], ?_, .inl rfl⟩
      rw [String.toList_ofList]
      exact hreads
    have hvalues : ∀ value ∈ params, ∀ g, value ≠ .function g := by
      rintro value hvalue g rfl
      cases hscalars _ hvalue
    rw [compile, hline]
    show (compileLine _).Yields w.surroundings _
    rw [compileLine, ← Call.ofTokens_values harity hbloc hvalues]
    exact (yields_bind _ _ _).2 ⟨_, htokens, rfl⟩

/-- The function that adds. -/
def addFunction : Function := ⟨"add", .command, none, .builtin .add⟩

theorem isResolved_addFunction {s : Surroundings} (hfind : s.find "add" = some addFunction) :
    addFunction.IsResolved s where
  line := isTrimmedLine_of_solid (by decide) (by decide)
  word := ⟨isBlank_eq_false_of_all rfl, ⟨'a', ['d', 'd'], rfl, by decide, by decide⟩,
    fun _ _ h ↦ by cases h⟩
  denotes := evalWord_name rfl hfind

/-- A text with a quote, a backslash, a line feed and a number sign among other scalars. -/
theorem compile_printed_call_builtin :
    let w := Script.builtinWorld
    let params : List Value := [.text "a\"b\\\n# c", .int (-7), .null, .bool false]
    (∀ value ∈ params, value.IsScalar) ∧
      ∃ text, (w.store.view (.call (some addFunction) params)).print 2 = .ok text ∧
        (compile text).Yields w.surroundings (.call (some addFunction) params) := by
  intro w params
  have hscalars : ∀ value ∈ params, value.IsScalar := by
    have hdigits : (-7 : Int).natAbs < 10 ^ Numeral.maxDigits :=
      calc (-7 : Int).natAbs
        _ < 10 ^ 1 := by decide
        _ ≤ 10 ^ Numeral.maxDigits := Nat.pow_le_pow_right (by decide) (by decide)
    simp only [params, List.forall_mem_cons]
    exact ⟨.text _, .int hdigits, .null, .bool _, by simp⟩
  have hunbroken : ∀ s, .text s ∈ params → ∀ c ∈ s.toList, Json.IsUnbroken c := by
    intro s hs
    have htext : s = "a\"b\\\n# c" := by simpa [params] using hs
    have hall : (s.toList.all fun c => c != '\x85' && c != '\u2028' && c != '\u2029') = true := by
      rw [htext]
      decide
    intro c hc
    simpa [Json.IsUnbroken, and_assoc] using List.all_eq_true.1 hall c hc
  exact ⟨hscalars, compile_printed_call w addFunction rfl rfl (isResolved_addFunction rfl) params
    hscalars (fun _ _ _ htext ↦ registry_lookup_intText htext) hunbroken 2⟩

/-! ### Calls that do not come back -/

/-- A world in which a function is registered under a numeral. -/
def numeralWorld : World :=
  { Script.builtinWorld with
    registry := Builtin.registry ++ [("12", ⟨"12", .command, none, .tally⟩)] }

/-- An integer with too many digits is not printed as a parameter. -/
theorem print_call_int_ne_ok {n : Int} (hdigits : 10 ^ Numeral.maxDigits ≤ n.natAbs) (s : Store)
    (f : Function) (indent : Nat) (text : String) :
    (s.view (.call (some f) [.int n])).print indent ≠ .ok text := by
  intro hprint
  rw [view_call, Data.print, Data.printed, List.map_cons, Data.printedParams] at hprint
  cases hparam : (s.view (.int n)).printed indent 1 with
  | error cause =>
    rw [hparam] at hprint
    cases hprint
  | ok chars => exact Nat.not_le.2 (Numeral.intText_eq_ok_iff.1 hparam).1 hdigits

/-- Of two lines at a line separator inside a literal, the first does not end. -/
theorem not_yields_compile_separator (s : Surroundings) (hfind : s.find "add" = some addFunction)
    (value : Value) : ¬ (compile "add \"a\u2028b\"").Yields s value := by
  have hlines : lines (trim "add \"a\u2028b\"".toList) = ["add \"a".toList, "b\"".toList] := by
    decide
  have hword : IsWord ['a', 'd', 'd'] [' ', '"', 'a'] :=
    ⟨isBlank_eq_false_of_all rfl, ⟨'a', ['d', 'd'], rfl, by decide, by decide⟩,
      by rintro c tail ⟨⟩; decide⟩
  have hreads : Reads (fun word value => (evalWord word).Yields s value)
      (['a', 'd', 'd'] ++ [' ', '"', 'a']) [.function addFunction] ['"', 'a'] :=
    .word hword (evalWord_name rfl hfind) (.blank (by decide) (.done _))
  have hstops : Stops evalWord s "add \"a" ['"', 'a'] (.parse (.missingQuote "add \"a")) := by
    refine .unclosed ?_
    rw [Lexeme.quotesEscaped_cons (by decide) (by decide)]
    exact Lexeme.quotesEscaped_nil
  rw [compile, hlines]
  show ¬ (compileLines ["add \"a", "b\""]).Yields s value
  rw [yields_compileLines_iff]
  rintro ⟨o, hfold, -⟩
  have hcode : codeLines ["add \"a", "b\""] = ["add \"a", "b\""] := by decide
  rw [hcode, List.foldlM_cons, yields_bind] at hfold
  obtain ⟨first, hfirst, -⟩ := hfold
  rw [addCode, yields_bind] at hfirst
  obtain ⟨call, hcall, -⟩ := hfirst
  rw [compileLine, yields_bind] at hcall
  obtain ⟨tokens, htokens, -⟩ := hcall
  have hok : result evalWord s "add \"a" (['a', 'd', 'd'] ++ [' ', '"', 'a']) = .ok tokens :=
    htokens
  rw [result_of_reads_of_stops hreads hstops] at hok
  cases hok

/-- A numeral under which a function is registered is a call of it. -/
theorem yields_compile_numeral :
    (compile "add 12").Yields numeralWorld.surroundings
      (.call (some addFunction) [.call (some ⟨"12", .command, none, .tally⟩) []]) := by
  have htokens : (tokenize "add 12").Yields numeralWorld.surroundings
      [.function addFunction, .function ⟨"12", .command, none, .tally⟩] := by
    refine tokenize_words [("add", .function addFunction), ("12", .function _)]
      (by simp [Lexeme.scan, Text.isBlank]) ?_
    rw [List.forall_mem_cons, List.forall_mem_singleton]
    exact ⟨evalWord_name rfl rfl, evalWord_name (by simp [Token.keyword?]) rfl⟩
  have hline : lines (trim "add 12".toList) = ["add 12".toList] := by decide
  rw [compile, hline]
  show (compileLine "add 12").Yields _ _
  rw [compileLine, yields_bind]
  refine ⟨_, htokens, ?_⟩
  rw [yields_pure, Call.ofTokens, Call.calls_function, Call.takeParams_call rfl rfl rfl,
    Call.takeParams_nil, Call.takeParams_nil, Call.calls_nil]

/-- A call does not come back if an integer among its parameters has too many digits, since it is
not printed; if a text among them has a line separator, since the literal is cut there; or if a
function is registered under the numeral of an integer, since it is called. -/
theorem not_compile_printed_call :
    let comesBack (w : World) (params : List Value) : Prop :=
      ∃ text, (w.store.view (.call (some addFunction) params)).print 2 = .ok text ∧
        (compile text).Yields w.surroundings (.call (some addFunction) params)
    addFunction.arity = none ∧ addFunction.isBloc = false ∧
    addFunction.IsResolved Script.builtinWorld.surroundings ∧
    addFunction.IsResolved numeralWorld.surroundings ∧
    ¬ comesBack Script.builtinWorld [.int (10 ^ Numeral.maxDigits)] ∧
    ¬ comesBack Script.builtinWorld [.text "a\u2028b"] ∧
    ¬ comesBack numeralWorld [.int 12] := by
  intro comesBack
  refine ⟨rfl, rfl, isResolved_addFunction rfl, isResolved_addFunction rfl, ?digits, ?separator,
    ?numeral⟩
  case digits =>
    have hdigits : 10 ^ Numeral.maxDigits ≤ ((10 : Int) ^ Numeral.maxDigits).natAbs := by
      rw [Int.natAbs_pow]
      exact Nat.pow_le_pow_left (by decide) _
    rintro ⟨text, hprint, -⟩
    exact print_call_int_ne_ok hdigits _ _ 2 text hprint
  case separator =>
    rintro ⟨text, hprint, hyields⟩
    have htext : text = "add \"a\u2028b\"" := (Except.ok.inj hprint).symm
    exact not_yields_compile_separator _ rfl _ (htext ▸ hyields)
  case numeral =>
    rintro ⟨text, hprint, hyields⟩
    have htext : text = "add 12" := (Except.ok.inj hprint).symm
    cases yields_compile_numeral.symm.trans (htext ▸ hyields)

end Compiler

end ResourceScript
