import ResourceScript.Library
import ResourceScript.Proofs.Language.CodeLines
/-!
# Block programs and their lines

A block program is the text of a script as its author has it in mind: statements, and blocs each of
which has a header, a block program inside it and a closing line. It is written as its lines in
order, and `compileLines_lines` shows that compiling recovers its structure, whatever the
indentation and whatever blank lines and comments stand between: a statement becomes its call, and a bloc the
call of its function on the tokens of the header and the trees of what is inside it.

The compiler keeps a stack of open blocs. The invariant is that a block program read inside any
outline leaves that outline with its trees added, so that the bloc a closing line meets is always
the innermost one.
-/

set_option autoImplicit false

namespace ResourceScript

/-- A block program: statements and blocs one after the other. -/
inductive BlockProgram where
  /-- The end. -/
  | done
  /-- A statement, and what follows it. -/
  | statement (line : String) (rest : BlockProgram)
  /-- A bloc with its header, what is inside it and its closing line, and what follows it. -/
  | bloc (header : String) (body : BlockProgram) (closing : String) (rest : BlockProgram)

namespace BlockProgram

open Compiler

/-- The lines of a block program. -/
def lines : BlockProgram → List String
  | done => []
  | statement line rest => line :: rest.lines
  | bloc header body closing rest => header :: (body.lines ++ closing :: rest.lines)

/-- Whether lines are those of a block program with any indentation, among any blank lines and
comments. -/
def Renders (text : List String) (p : BlockProgram) : Prop :=
  codeLines text = p.lines

section

variable (s : Surroundings)

/-- Whether a line is a statement: it has tokens, and the root of their call is no bloc. -/
def IsStatement (line : String) : Prop :=
  ∃ tokens, (tokenize line).Yields s tokens ∧
    ∀ f params, Call.ofTokens tokens = .call (some f) params → f.isBloc = false

/-- Whether a line opens a bloc of a function: the root of its call is that function, which is a
bloc function other than `end`. -/
def Opens (line : String) (f : Function) : Prop :=
  f.isBloc = true ∧ f.name ≠ "end" ∧
    ∃ tokens params, (tokenize line).Yields s tokens ∧ Call.ofTokens tokens = .call (some f) params

/-- Whether a line closes a bloc of a function: its root is the bloc function `end`, without
parameters or with a single one that names the function. -/
def Closes (line : String) (f : Function) : Prop :=
  ∃ (e : Function) (tokens params : List Value), e.isBloc = true ∧ e.name = "end" ∧
    (tokenize line).Yields s tokens ∧ Call.ofTokens tokens = .call (some e) params ∧
      (params = [] ∨ ∃ token, params = [token] ∧ Store.empty.blocName token = .ok (some f.name))

/-- Whether the lines of a block program are what it takes them for. -/
def Fits : BlockProgram → Prop
  | done => True
  | statement line rest => IsStatement s line ∧ rest.Fits
  | bloc header body closing rest =>
    (∃ f, Opens s header f ∧ Closes s closing f) ∧ body.Fits ∧ rest.Fits

/-- The tokens of a line. -/
def tokensOf (line : String) : List Value :=
  match (tokenize line s).1 with
  | .ok tokens => tokens
  | .error _ => []

/-- The function that a line begins with, if there is one. -/
def function? (line : String) : Option Function :=
  match tokensOf s line with
  | .function f :: _ => some f
  | _ => none

/-- The trees of the items of a block program in order. -/
def trees : BlockProgram → List Value
  | done => []
  | statement line rest => Call.ofTokens (tokensOf s line) :: rest.trees
  | bloc header body _ rest =>
    .call (function? s header) ((tokensOf s header).tail ++ body.trees) :: rest.trees

/-- The tokens of the header and the trees of the body of each bloc of a block program. -/
def nodes : BlockProgram → List (List Value × List Value)
  | done => []
  | statement _ rest => rest.nodes
  | bloc header body _ rest =>
    ((tokensOf s header).tail, body.trees s) :: (body.nodes ++ rest.nodes)

end

end BlockProgram

/-! ### Tokens -/

namespace Compiler

variable {s : Surroundings}

theorem Yields.of_mem_mapM {α β : Type} {f : α → Compiler β} {P : β → Prop}
    (hf : ∀ a b, (f a).Yields s b → P b) {items : List α} {found : List β}
    (hfound : (items.mapM f).Yields s found) : ∀ b ∈ found, P b := by
  induction items generalizing found with
  | nil =>
    rw [List.mapM_nil, yields_pure] at hfound
    subst hfound
    exact fun b hb ↦ absurd hb List.not_mem_nil
  | cons a rest ih =>
    rw [List.mapM_cons, yields_bind] at hfound
    obtain ⟨b, hb, hrest⟩ := hfound
    rw [yields_bind] at hrest
    obtain ⟨more, hmore, hpure⟩ := hrest
    rw [yields_pure] at hpure
    subst hpure
    exact List.forall_mem_cons.2 ⟨hf a b hb, ih hmore⟩

theorem isLine_keyword {word : String} {token : Value} (h : Token.keyword? word = some token) :
    Library.isLine token = false := by
  unfold Token.keyword? at h
  grind [Library.isLine]

/-- A word denotes no call. -/
theorem Yields.isLine_evalWord {word : String} {token : Value}
    (h : (evalWord word).Yields s token) : Library.isLine token = false := by
  unfold evalWord at h
  split at h
  · rename_i value hkeyword
    obtain rfl := (yields_pure _ _).1 h
    exact isLine_keyword hkeyword
  · obtain ⟨f?, -, h⟩ := (yields_bind _ _ _).1 h
    rcases f? with _ | f
    · obtain ⟨number?, -, h⟩ := (yields_bind _ _ _).1 h
      rcases number? with _ | number
      · obtain ⟨moment?, -, h⟩ := (yields_bind _ _ _).1 h
        rcases moment? with _ | m
        · obtain ⟨r?, -, h⟩ := (yields_bind _ _ _).1 h
          rcases r? with _ | r
          · obtain rfl := (yields_pure _ _).1 h
            rfl
          · obtain rfl := (yields_pure _ _).1 h
            rfl
        · obtain rfl := (yields_pure _ _).1 h
          rfl
      · obtain rfl := (yields_pure _ _).1 h
        cases number <;> rfl
    · obtain rfl := (yields_pure _ _).1 h
      rfl

theorem Yields.isLine_evalLexeme {line : String} {lexeme : Lexeme} {token : Value}
    (h : (evalLexeme evalWord line lexeme).Yields s token) : Library.isLine token = false := by
  cases lexeme with
  | word text => exact h.isLine_evalWord
  | literal body =>
    simp only [evalLexeme] at h
    split at h
    · obtain rfl := (yields_pure _ _).1 h
      rfl
    · exact absurd h (yields_fail _ _)
  | unclosed => exact absurd h (yields_fail _ _)

/-- No token of a line is a call. -/
theorem Yields.isLine_tokenize {line : String} {tokens : List Value}
    (h : (tokenize line).Yields s tokens) : ∀ t ∈ tokens, Library.isLine t = false :=
  Yields.of_mem_mapM (fun _ _ hlexeme ↦ hlexeme.isLine_evalLexeme) h

/-- The tokens of a line of words are what the words denote. -/
theorem tokenize_words {line : String} (words : List (String × Value))
    (hline : Lexeme.scan line.toList = words.map fun word ↦ .word word.1.toList)
    (hwords : ∀ word ∈ words, (evalWord word.1).Yields s word.2) :
    (tokenize line).Yields s (words.map Prod.snd) := by
  rw [tokenize, tokenizeWith, hline]
  clear hline
  induction words with
  | nil => exact (yields_pure _ _).2 rfl
  | cons word rest ih =>
    obtain ⟨hword, hrest⟩ := List.forall_mem_cons.1 hwords
    rw [List.map_cons, List.mapM_cons, yields_bind]
    refine ⟨word.2, ?_, ?_⟩
    · rw [evalLexeme, String.ofList_toList]
      exact hword
    · rw [yields_bind]
      exact ⟨_, ih hrest, (yields_pure _ _).2 rfl⟩

end Compiler

/-! ### The root of a bloc -/

namespace Call

theorem takeParams_append_of_bloc {f : Option Function} (hf : isBlocHeader f = true) (taken : Nat)
    (tokens : List Value) :
    (takeParams f taken tokens).val.params ++ (takeParams f taken tokens).val.rest = tokens := by
  induction tokens generalizing taken with
  | nil => simp
  | cons token rest ih =>
    cases hfull : isFull f taken with
    | true => simp [takeParams_full hfull]
    | false => simp [takeParams_header hfull hf, ih]

theorem eq_nil_of_calls {tokens : List Value} (h : calls tokens = []) : tokens = [] := by
  cases tokens with
  | nil => rfl
  | cons token rest =>
    by_cases htoken : ∃ g, token = .function g
    · obtain ⟨g, rfl⟩ := htoken
      simp [calls_function] at h
    · simp [calls_value (not_exists.1 htoken)] at h

/-- A line whose root is a bloc function consists of that function and the parameters of its
call. -/
theorem tokens_of_bloc {tokens params : List Value} {f : Function} (hbloc : f.isBloc = true)
    (h : ofTokens tokens = .call (some f) params) : tokens = .function f :: params := by
  have hcalls : calls tokens = [.call (some f) params] := by
    unfold ofTokens at h
    split at h
    · rename_i call hcall
      rw [hcall, h]
    · cases h
  cases tokens with
  | nil => simp at hcalls
  | cons token rest =>
    by_cases htoken : ∃ g, token = .function g
    · obtain ⟨g, rfl⟩ := htoken
      rw [calls_function] at hcalls
      obtain ⟨hcall, hrest⟩ := List.cons.inj hcalls
      obtain ⟨rfl, hparams⟩ : g = f ∧ (takeParams (some g) 0 rest).val.params = params := by
        simpa using hcall
      have happend := takeParams_append_of_bloc (f := some g) (by simpa [isBlocHeader]) 0 rest
      rw [hparams, eq_nil_of_calls hrest, List.append_nil] at happend
      rw [happend]
    · rw [calls_value (not_exists.1 htoken)] at hcalls
      obtain ⟨hcall, -⟩ := List.cons.inj hcalls
      cases hcall

theorem takeParams_of_bloc {f : Function} (hbloc : f.isBloc = true) (harity : f.arity = none)
    (taken : Nat) (tokens : List Value) :
    (takeParams (some f) taken tokens).val = ⟨tokens, []⟩ := by
  induction tokens generalizing taken with
  | nil => simp
  | cons token rest ih =>
    rw [takeParams_header (by simp [isFull, harity]) (by simpa [isBlocHeader]), ih]

/-- The root of a line that begins with a bloc function without arity is the call of that function
on the other tokens. -/
theorem ofTokens_of_bloc {f : Function} (hbloc : f.isBloc = true) (harity : f.arity = none)
    (tokens : List Value) : ofTokens (.function f :: tokens) = .call (some f) tokens := by
  simp [ofTokens, calls_function, takeParams_of_bloc hbloc harity]

theorem isLine_ofTokens (tokens : List Value) : Library.isLine (ofTokens tokens) = true := by
  unfold ofTokens
  split
  · rename_i call hcall
    cases tokens with
    | nil => simp at hcall
    | cons token rest =>
      by_cases htoken : ∃ g, token = .function g
      · obtain ⟨g, rfl⟩ := htoken
        rw [calls_function] at hcall
        rw [← (List.cons.inj hcall).1]
        rfl
      · rw [calls_value (not_exists.1 htoken)] at hcall
        rw [← (List.cons.inj hcall).1]
        rfl
  · rfl

end Call

/-! ### Outlines -/

namespace Outline

/-- Adds calls one after the other. -/
def addAll (o : Outline) (calls : List Value) : Outline :=
  calls.foldl add o

@[simp] theorem addAll_nil (o : Outline) : o.addAll [] = o := rfl

@[simp] theorem addAll_cons (o : Outline) (call : Value) (rest : List Value) :
    o.addAll (call :: rest) = (o.add call).addAll rest := rfl

theorem add_openBloc (o : Outline) (f : Function) (params : List Value) (call : Value) :
    (o.openBloc f params).add call = o.openBloc f (params ++ [call]) := rfl

/-- What is added inside a bloc becomes its parameters. -/
theorem addAll_openBloc (o : Outline) (f : Function) (params calls : List Value) :
    (o.openBloc f params).addAll calls = o.openBloc f (params ++ calls) := by
  induction calls generalizing params with
  | nil => simp
  | cons call rest ih =>
    rw [addAll_cons, add_openBloc, ih, List.append_assoc, List.singleton_append]

theorem closeBloc_openBloc (o : Outline) (f : Function) (params : List Value) :
    (o.openBloc f params).closeBloc = o.add (.call (some f) params) := rfl

theorem inside?_openBloc (o : Outline) (f : Function) (params : List Value) {name : Option String}
    (hname : name = none ∨ name = some f.name) : (o.openBloc f params).inside? name = some 0 := by
  unfold inside? openBloc
  rcases hname with rfl | rfl <;> simp [List.findIdx?_cons]

theorem addAll_empty (calls : List Value) : empty.addAll calls = ⟨[], calls⟩ := by
  suffices h : ∀ before, (⟨[], before⟩ : Outline).addAll calls = ⟨[], before ++ calls⟩ from h []
  induction calls with
  | nil => simp
  | cons call rest ih =>
    intro before
    rw [addAll_cons, add, ih]
    simp

theorem program_addAll (calls : List Value) :
    (empty.addAll calls).program = .call (some Builtin.evalFunction) calls := by
  rw [addAll_empty]
  rfl

end Outline

/-! ### Compiling the lines of a block program -/

namespace BlockProgram

open Compiler

variable {s : Surroundings}

theorem tokensOf_eq {line : String} {tokens : List Value} (h : (tokenize line).Yields s tokens) :
    tokensOf s line = tokens := by
  unfold Yields at h
  simp only [tokensOf, h]

theorem addCode_yields {line : String} {tokens : List Value} {o o' : Outline}
    (h : (tokenize line).Yields s tokens)
    (hadd : (addLine 0 line (Call.ofTokens tokens) o).Yields s o') :
    (addCode o line).Yields s o' := by
  unfold addCode compileLine
  simp only [yields_bind, yields_pure]
  exact ⟨_, ⟨tokens, h, rfl⟩, hadd⟩

/-- A statement is added to the innermost bloc. -/
theorem addCode_statement {line : String} (hline : IsStatement s line) (o : Outline) :
    (addCode o line).Yields s (o.add (Call.ofTokens (tokensOf s line))) := by
  obtain ⟨tokens, htokens, hroot⟩ := hline
  refine addCode_yields htokens ?_
  rw [tokensOf_eq htokens]
  unfold addLine
  split
  · rename_i f params hcall
    simp [hroot f params hcall, hcall]
  · simp

theorem Opens.tokens {line : String} {f : Function} (h : Opens s line f) :
    (tokenize line).Yields s (.function f :: (tokensOf s line).tail) := by
  obtain ⟨hbloc, -, tokens, params, htokens, hcall⟩ := h
  obtain rfl := Call.tokens_of_bloc hbloc hcall
  rwa [tokensOf_eq htokens]

theorem Opens.function? {line : String} {f : Function} (h : Opens s line f) :
    function? s line = some f := by
  unfold BlockProgram.function?
  rw [tokensOf_eq h.tokens]

/-- A header opens its bloc. -/
theorem addCode_header {line : String} {f : Function} (h : Opens s line f) (o : Outline) :
    (addCode o line).Yields s (o.openBloc f (tokensOf s line).tail) := by
  have htail := h.tokens
  obtain ⟨hbloc, hname, tokens, params, htokens, hcall⟩ := h
  refine addCode_yields htokens ?_
  obtain rfl := Call.tokens_of_bloc hbloc hcall
  rw [hcall, tokensOf_eq htokens]
  simp [addLine, hbloc, hname]

/-- A closing line closes the innermost bloc when that is a bloc of its function. -/
theorem addCode_closing {line : String} {f : Function} (h : Closes s line f) (o : Outline)
    (params : List Value) :
    (addCode (o.openBloc f params) line).Yields s (o.add (.call (some f) params)) := by
  obtain ⟨e, tokens, header, hbloc, hname, htokens, hcall, hheader⟩ := h
  refine addCode_yields htokens ?_
  have hclosed : ∃ name, (closedName header).Yields s name ∧
      (name = none ∨ name = some f.name) := by
    rcases hheader with rfl | ⟨token, rfl, htoken⟩
    · exact ⟨none, (yields_pure _ _).2 rfl, Or.inl rfl⟩
    · exact ⟨some f.name, htoken, Or.inr rfl⟩
  obtain ⟨name, hyields, hnamed⟩ := hclosed
  simp only [hcall, addLine, hbloc, hname, BEq.rfl, Bool.and_self, if_true, closeNamed, yields_bind]
  refine ⟨name, hyields, ?_⟩
  simp only [o.inside?_openBloc f params hnamed, yields_bind, yields_pure]
  exact ⟨(), yields_report _ _, o.closeBloc_openBloc f params⟩

/-- A block program read inside an outline leaves that outline with its trees added. -/
theorem foldlM_lines {p : BlockProgram} (hp : p.Fits s) (o : Outline) :
    (p.lines.foldlM addCode o).Yields s (o.addAll (p.trees s)) := by
  induction p generalizing o with
  | done => exact (yields_pure _ _).2 rfl
  | statement line rest ih =>
    obtain ⟨hline, hrest⟩ := hp
    rw [lines, List.foldlM_cons, yields_bind]
    exact ⟨_, addCode_statement hline o, ih hrest _⟩
  | bloc header body closing rest ihbody ihrest =>
    obtain ⟨⟨f, hopens, hcloses⟩, hbody, hrest⟩ := hp
    have hinside := ihbody hbody (o.openBloc f (tokensOf s header).tail)
    rw [Outline.addAll_openBloc] at hinside
    rw [lines, List.foldlM_cons, yields_bind]
    refine ⟨_, addCode_header hopens o, ?_⟩
    rw [List.foldlM_append, yields_bind]
    refine ⟨_, hinside, ?_⟩
    rw [List.foldlM_cons, yields_bind]
    refine ⟨_, addCode_closing hcloses o _, ?_⟩
    rw [trees, hopens.function?]
    exact ihrest hrest _

theorem isLine_of_mem_trees (p : BlockProgram) : ∀ t ∈ p.trees s, Library.isLine t = true := by
  induction p with
  | done => exact fun t ht ↦ absurd ht List.not_mem_nil
  | statement line rest ih =>
    exact List.forall_mem_cons.2 ⟨Call.isLine_ofTokens _, ih⟩
  | bloc header body closing rest _ ih => exact List.forall_mem_cons.2 ⟨rfl, ih⟩

/-- The parameters of a bloc fall apart into those that are no calls and those that are. -/
theorem splitBloc_append {header body : List Value}
    (hheader : ∀ t ∈ header, Library.isLine t = false)
    (hbody : ∀ t ∈ body, Library.isLine t = true) :
    Library.splitBloc (header ++ body) = (header, body) := by
  have hheader' : ∀ t ∈ header, ¬ Library.isLine t = true := fun t ht ↦ by simp [hheader t ht]
  unfold Library.splitBloc
  rw [List.filter_append, List.filter_append, List.filter_eq_nil_iff.2 hheader',
    List.filter_eq_self.2 hbody, List.filter_eq_self.2 (by simpa using hheader),
    List.filter_eq_nil_iff.2 (by simpa using hbody), List.append_nil, List.nil_append]

theorem splitBloc_of_mem_nodes {p : BlockProgram} (hp : p.Fits s) :
    ∀ node ∈ p.nodes s, Library.splitBloc (node.1 ++ node.2) = node := by
  induction p with
  | done => exact fun node hnode ↦ absurd hnode List.not_mem_nil
  | statement line rest ih => exact ih hp.2
  | bloc header body closing rest ihbody ihrest =>
    obtain ⟨⟨f, hopens, -⟩, hbody, hrest⟩ := hp
    rw [nodes, List.forall_mem_cons]
    refine ⟨splitBloc_append (fun t ht ↦ ?_) body.isLine_of_mem_trees, fun node hnode ↦ ?_⟩
    · exact hopens.tokens.isLine_tokenize t (List.mem_cons_of_mem _ ht)
    · rcases List.mem_append.1 hnode with hnode | hnode
      · exact ihbody hbody node hnode
      · exact ihrest hrest node hnode

/-- The lines of a block program compile to its trees under `eval`, and each bloc among these splits
into the tokens of its header and the trees of its body. -/
theorem compileLines_lines {p : BlockProgram} (hp : p.Fits s) {text : List String}
    (htext : Renders text p) :
    (compileLines text).Yields s (.call (some Builtin.evalFunction) (p.trees s)) ∧
      ∀ node ∈ p.nodes s, Library.splitBloc (node.1 ++ node.2) = node := by
  refine ⟨?_, splitBloc_of_mem_nodes hp⟩
  have hcode := foldlM_lines hp .empty
  rw [← htext] at hcode
  exact (yields_compileLines_iff text).2 ⟨_, hcode, Outline.program_addAll _⟩

/-! ### Lines of words -/

theorem isStatement_of_tokens {line : String} {tokens : List Value}
    (htokens : (tokenize line).Yields s tokens)
    (hfirst : ∀ f rest, tokens = .function f :: rest → f.isBloc = false) : IsStatement s line := by
  refine ⟨tokens, htokens, fun f params hcall ↦ ?_⟩
  cases hbloc : f.isBloc with
  | false => rfl
  | true => rw [← hbloc, hfirst f params (Call.tokens_of_bloc hbloc hcall)]

theorem opens_of_tokens {line : String} {tokens : List Value} {f : Function}
    (htokens : (tokenize line).Yields s (.function f :: tokens)) (hbloc : f.isBloc = true)
    (harity : f.arity = none) (hname : f.name ≠ "end") : Opens s line f :=
  ⟨hbloc, hname, _, _, htokens, Call.ofTokens_of_bloc hbloc harity tokens⟩

section

variable {e : Function} (hend : s.find "end" = some e) (hbloc : e.isBloc = true)
  (hname : e.name = "end") (harity : e.arity = none)

include hend hbloc hname harity

/-- The line `end` closes a bloc of any function. -/
theorem closes_end (f : Function) : Closes s "end" f := by
  refine ⟨e, _, [], hbloc, hname, ?_, Call.ofTokens_of_bloc hbloc harity [], Or.inl rfl⟩
  refine tokenize_words [("end", .function e)] (by simp [Lexeme.scan, Text.isBlank]) ?_
  exact List.forall_mem_singleton.2 (evalWord_name (by simp [Token.keyword?]) hend)

/-- The line of `end` and the name of a function closes a bloc of that function. -/
theorem closes_end_name {f : Function} (hword : Lexeme.scan f.name.toList = [.word f.name.toList])
    (hkeyword : Token.keyword? f.name = none) (hf : s.find f.name = some f) :
    Closes s ("end " ++ f.name) f := by
  refine ⟨e, _, [.function f], hbloc, hname, ?_, Call.ofTokens_of_bloc hbloc harity _,
    Or.inr ⟨_, rfl, rfl⟩⟩
  refine tokenize_words [("end", .function e), (f.name, .function f)]
    (by simp [Lexeme.scan, Text.isBlank, hword]) ?_
  rw [List.forall_mem_cons, List.forall_mem_singleton]
  exact ⟨evalWord_name (by simp [Token.keyword?]) hend, evalWord_name hkeyword hf⟩

end

/-- The surroundings in which only the built-in functions are known. -/
def builtinSurroundings : Surroundings :=
  ⟨fun name ↦ Builtin.registry.lookup name, [], ⟨[], []⟩, Moment.epoch, false, fun _ ↦ true,
    fun _ _ ↦ none, 0⟩

/-- A loop inside a loop: the inner one is closed by its name, the outer one by a bare `end`. -/
def nestedLoops : BlockProgram :=
  .bloc "while true" (.bloc "while true" (.statement "print true" .done) "end while" .done) "end"
    (.statement "print true" .done)

/-- The lines of the nested loops with indentation, a comment and a blank line. -/
def nestedLoopsText : List String :=
  ["while true", "  # again and again", "\twhile true", "    print true  ", "", "  end while",
    "end", "print true"]

theorem fits_nestedLoops : nestedLoops.Fits builtinSurroundings := by
  have hend : builtinSurroundings.find "end" = some ⟨"end", .bloc, none, .builtin .endBloc⟩ := rfl
  have hwhile : builtinSurroundings.find "while" = some ⟨"while", .bloc, none, .builtin .while⟩ :=
    rfl
  have hprint : builtinSurroundings.find "print" =
      some ⟨"print", .command, none, .builtin .print⟩ :=
    rfl
  have hopens : Opens builtinSurroundings "while true" ⟨"while", .bloc, none, .builtin .while⟩ := by
    refine opens_of_tokens (tokenize_words [("while", .function _), ("true", .bool true)]
      (by simp [Lexeme.scan, Text.isBlank]) ?_) rfl rfl (by decide)
    rw [List.forall_mem_cons, List.forall_mem_singleton]
    exact ⟨evalWord_name (by simp [Token.keyword?]) hwhile, evalWord_keyword rfl⟩
  have hstatement : IsStatement builtinSurroundings "print true" := by
    refine isStatement_of_tokens (tokenize_words
      [("print", .function ⟨"print", .command, none, .builtin .print⟩), ("true", .bool true)]
      (by simp [Lexeme.scan, Text.isBlank]) ?_) ?_
    · rw [List.forall_mem_cons, List.forall_mem_singleton]
      exact ⟨evalWord_name (by simp [Token.keyword?]) hprint, evalWord_keyword rfl⟩
    · rintro f rest ⟨⟩
      rfl
  have hnamed := closes_end_name hend rfl rfl rfl (f := ⟨"while", .bloc, none, .builtin .while⟩)
    (by simp [Lexeme.scan, Text.isBlank]) (by simp [Token.keyword?]) hwhile
  exact ⟨⟨_, hopens, closes_end hend rfl rfl rfl _⟩, ⟨⟨_, hopens, hnamed⟩, ⟨hstatement, trivial⟩,
    trivial⟩, hstatement, trivial⟩

theorem compileLines_lines_nestedLoops :
    nestedLoops.Fits builtinSurroundings ∧ Renders nestedLoopsText nestedLoops ∧
      (compileLines nestedLoopsText).Yields builtinSurroundings
        (.call (some Builtin.evalFunction) (nestedLoops.trees builtinSurroundings)) := by
  have hrenders : Renders nestedLoopsText nestedLoops := by
    unfold Renders
    rfl
  exact ⟨fits_nestedLoops, hrenders, (compileLines_lines fits_nestedLoops hrenders).1⟩

end BlockProgram

end ResourceScript
