import Mathlib.Algebra.Ring.Int.Defs
import Mathlib.Data.List.Forall2
import ResourceScript.Proofs.Language.LineSyntax
import ResourceScript.Proofs.Number.Numeral
import ResourceScript.Proofs.Text.Pieces
import ResourceScript.Store.View
/-!
# Printed scalars are source text

Null, truth values, integers and texts are printed as one lexeme each: a keyword, a numeral or a
literal. Printed side by side with a space between neighbours they are a line of the language, and
its tokens are the values themselves (`tokenize_printed`), provided that no function is registered
under a numeral.

An integer of more than `Numeral.maxDigits` digits is not printed, so it does not come back
(`not_tokenize_printed_tooManyDigits`).
-/

set_option autoImplicit false

namespace ResourceScript

open Text

/-- The values that are printed as one lexeme: null, truth values, the integers that have a text,
and texts. -/
inductive Value.IsScalar : Value → Prop
  | null : IsScalar .null
  | bool (b : Bool) : IsScalar (.bool b)
  | int {n : Int} (hdigits : n.natAbs < 10 ^ Numeral.maxDigits) : IsScalar (.int n)
  | text (s : String) : IsScalar (.text s)

/-! ### Numerals are no names -/

/-- A name without a point and a number sign is not qualified, so the host has no function of it. -/
theorem Registry.hostFunction?_eq_none {name : String} (hpoint : '.' ∉ name.toList)
    (hmember : '#' ∉ name.toList) (classes : List HostClass) :
    hostFunction? classes name = none := by
  have hsplit : splitOn '.' name.toList = [name.toList] := splitOn_go_of_not_mem hpoint []
  have hqualified : qualifiedName? name = none := by
    rw [qualifiedName?, cutAt_eq_none hmember]
    simp [hsplit]
  rw [hostFunction?, hqualified]
  rfl

namespace Numeral

variable {n : Int} {text : List Char}

theorem keyword?_intText (htext : intText n = .ok text) :
    Token.keyword? (String.ofList text) = none := by
  have hword : ∀ (c : Char) (rest : List Char), c.isDigit = false → c ≠ '-' →
      String.ofList text ≠ String.ofList (c :: rest) := by
    intro c rest hdigit hminus heq
    have hmem : c ∈ text := by
      rw [String.ofList_injective heq]
      exact List.mem_cons_self
    exact not_mem_intText htext hdigit hminus hmem
  rw [Token.keyword?, if_neg (hword 't' ['r', 'u', 'e'] (by decide) (by decide)),
    if_neg (hword 'f' ['a', 'l', 's', 'e'] (by decide) (by decide)),
    if_neg (hword 'n' ['u', 'l', 'l'] (by decide) (by decide))]

/-- The text of an integer is a word, in front of a blank or the end of a line. -/
theorem isWord_intText (htext : intText n = .ok text) {rest : List Char}
    (hrest : ∀ c tail, rest = c :: tail → isBlank c = true) : IsWord text rest where
  solid := by
    intro c hc
    rcases isDigit_or_eq_of_mem_intText htext hc with hdigit | rfl
    · have hrange := isDigit_toNat hdigit
      simp only [isBlank, Bool.or_eq_false_iff, Bool.and_eq_false_iff, decide_eq_false_iff_not]
      omega
    · decide
  start := by
    obtain ⟨c, tail, rfl⟩ := List.exists_cons_of_ne_nil (intText_ne_nil htext)
    refine ⟨c, tail, rfl, ?_, ?_⟩
    · rintro rfl
      exact not_mem_intText htext (by decide) (by decide) List.mem_cons_self
    · rintro rfl
      exact not_mem_intText htext (by decide) (by decide) List.mem_cons_self
  maximal := hrest

end Numeral

namespace Compiler

variable {w : World}

/-- The text of an integer denotes the integer, unless a function is registered under it. -/
theorem evalWord_intText {n : Int} {text : List Char} (htext : Numeral.intText n = .ok text)
    (hname : w.registry.lookup (String.ofList text) = none) :
    (evalWord (String.ofList text)).Yields w.surroundings (.int n) := by
  have hpoint : '.' ∉ (String.ofList text).toList := by
    rw [String.toList_ofList]
    exact Numeral.not_mem_intText htext (by decide) (by decide)
  have hmember : '#' ∉ (String.ofList text).toList := by
    rw [String.toList_ofList]
    exact Numeral.not_mem_intText htext (by decide) (by decide)
  have hfind : w.surroundings.find (String.ofList text) = none := by
    show w.find (String.ofList text) = none
    rw [World.find, hname, Registry.hostFunction?_eq_none hpoint hmember]
    rfl
  have hread : Numeral.read (String.ofList text).toList = .ok (some (.int n)) := by
    rw [String.toList_ofList]
    exact Numeral.read_of_intText htext
  exact evalWord_number (Numeral.keyword?_intText htext) hfind hread

/-! ### Reading what was printed -/

/-- Whether a text reads as a value in front of a blank or the end of a line. -/
def ReadsBack (s : Surroundings) (text : String) (value : Value) : Prop :=
  ∀ rest values, (∀ c tail, rest = c :: tail → isBlank c = true) →
    Reads (fun word value => (evalWord word).Yields s value) rest values [] →
    Reads (fun word value => (evalWord word).Yields s value)
      (text.toList ++ rest) (value :: values) []

theorem readsBack_keyword {s : Surroundings} {word : String} {value : Value}
    (hsolid : (word.toList.all fun c => !isBlank c) = true)
    (hstart : ∃ c tail, word.toList = c :: tail ∧ c ≠ '"' ∧ c ≠ '#')
    (hword : Token.keyword? word = some value) : ReadsBack s word value := by
  intro rest values hrest hreads
  refine .word ⟨isBlank_eq_false_of_all hsolid, hstart, hrest⟩ ?_ hreads
  rw [String.ofList_toList]
  exact evalWord_keyword hword

/-- A text between quotes reads as the text. -/
theorem readsBack_quote (s : Surroundings) (text : String) :
    ReadsBack s (String.ofList (Json.quote text.toList)) (.text text) := by
  intro rest values _ hreads
  obtain ⟨parts, hspells, hparts⟩ := Json.exists_spells_flatMap_escapeChar text.toList
  have hliteral := Reads.literal hspells.isBody hspells hreads
  rw [hparts, String.ofList_toList] at hliteral
  simpa [Json.quote] using hliteral

/-- A scalar is printed, at any level of indentation, as a text that reads as the scalar. -/
theorem exists_printed_readsBack {value : Value} (hscalar : value.IsScalar)
    (hname : ∀ n text, value = .int n → Numeral.intText n = .ok text →
      w.registry.lookup (String.ofList text) = none) (indent level : Nat) :
    ∃ text, (w.store.view value).printed indent level = .ok text ∧
      ReadsBack w.surroundings (String.ofList text) value := by
  cases hscalar with
  | null =>
    exact ⟨"null".toList, rfl, readsBack_keyword rfl ⟨_, _, rfl, by decide, by decide⟩ rfl⟩
  | bool b =>
    cases b with
    | false =>
      exact ⟨"false".toList, rfl, readsBack_keyword rfl ⟨_, _, rfl, by decide, by decide⟩ rfl⟩
    | true =>
      exact ⟨"true".toList, rfl, readsBack_keyword rfl ⟨_, _, rfl, by decide, by decide⟩ rfl⟩
  | @int n hdigits =>
    obtain ⟨text, htext⟩ : ∃ text, Numeral.intText n = .ok text :=
      ⟨_, Numeral.intText_eq_ok_iff.2 ⟨hdigits, rfl⟩⟩
    refine ⟨text, htext, fun rest values hrest hreads ↦ ?_⟩
    rw [String.toList_ofList]
    exact .word (Numeral.isWord_intText htext hrest)
      (evalWord_intText htext (hname n text rfl htext)) hreads
  | text s => exact ⟨_, rfl, readsBack_quote _ s⟩

/-- Texts that read as values read as these values when they stand side by side. -/
theorem reads_joinWith {s : Surroundings} {texts : List (List Char)} {values : List Value}
    (hback : List.Forall₂ (fun text value => ReadsBack s (String.ofList text) value) texts values) :
    Reads (fun word value => (evalWord word).Yields s value) (joinWith [' '] texts) values [] := by
  induction hback with
  | nil => exact .done []
  | @cons text value texts rest hfirst _ ih =>
    cases texts with
    | nil =>
      have hlast := hfirst _ rest (fun _ _ h ↦ by cases h) ih
      simpa using hlast
    | cons next texts =>
      have hspaced := Reads.blank (c := ' ') (by decide) ih
      have hboth := hfirst _ rest (fun c tail h ↦ by cases h; decide) hspaced
      simpa [joinWith_cons_cons] using hboth

theorem toList_intercalate_space (texts : List (List Char)) :
    (" ".intercalate (texts.map String.ofList)).toList = joinWith [' '] texts := by
  induction texts with
  | nil => rfl
  | cons text rest ih =>
    cases rest with
    | nil => simp
    | cons next rest =>
      rw [joinWith_cons_cons, ← ih]
      simp [String.intercalate_cons_cons]

/-- Scalars are printed side by side as texts that read as the scalars. -/
theorem exists_mapM_print_readsBack {values : List Value}
    (hscalars : ∀ value ∈ values, value.IsScalar)
    (hnames : ∀ n text, Numeral.intText n = .ok text →
      w.registry.lookup (String.ofList text) = none) (indent : Nat) :
    ∃ texts, values.mapM (fun value => (w.store.view value).print indent) =
        .ok (texts.map String.ofList) ∧
      List.Forall₂ (fun text value => ReadsBack w.surroundings (String.ofList text) value)
        texts values := by
  induction values with
  | nil => exact ⟨[], rfl, .nil⟩
  | cons value rest ih =>
    obtain ⟨texts, htexts, hrest⟩ := ih fun v hv ↦ hscalars v (List.mem_cons_of_mem value hv)
    obtain ⟨text, htext, hback⟩ := exists_printed_readsBack
      (hscalars value List.mem_cons_self) (fun n text _ ↦ hnames n text) indent 0
    refine ⟨text :: texts, ?_, .cons hback hrest⟩
    rw [List.mapM_cons, Data.print, htext, htexts]
    rfl

/-- Null, truth values, texts and integers of at most `Numeral.maxDigits` digits, printed side by
side, have as tokens the values themselves, in order and of the same kinds. -/
theorem tokenize_printed (w : World) (values : List Value)
    (hscalars : ∀ value ∈ values, value.IsScalar)
    (hnames : ∀ n text, Numeral.intText n = .ok text →
      w.registry.lookup (String.ofList text) = none) (indent : Nat) :
    ∃ texts, values.mapM (fun value => (w.store.view value).print indent) = .ok texts ∧
      (tokenize (" ".intercalate texts)).Yields w.surroundings values := by
  obtain ⟨texts, htexts, hback⟩ := exists_mapM_print_readsBack hscalars hnames indent
  refine ⟨texts.map String.ofList, htexts, result_of_isLine ⟨[], ?_, .inl rfl⟩⟩
  rw [toList_intercalate_space]
  exact reads_joinWith hback

/-- No built-in function has a name that is the text of an integer. -/
theorem registry_lookup_intText {n : Int} {text : List Char}
    (htext : Numeral.intText n = .ok text) :
    Builtin.registry.lookup (String.ofList text) = none := by
  have hnames : (Builtin.registry.all fun entry =>
      entry.1.toList.any fun c => !c.isDigit && c != '-') = true := by decide
  rw [List.lookup_eq_none_iff]
  intro entry hentry
  obtain ⟨c, hc, hother⟩ := List.any_eq_true.1 (List.all_eq_true.1 hnames entry hentry)
  obtain ⟨hdigit, hminus⟩ : c.isDigit = false ∧ c ≠ '-' := by simpa using hother
  have hne : String.ofList text ≠ entry.1 := by
    rintro heq
    rw [← heq, String.toList_ofList] at hc
    exact Numeral.not_mem_intText htext hdigit hminus hc
  exact bne_iff_ne.2 hne

/-- Among the built-in functions: a literal with an escaped quote behind a backslash, a control
character and a number sign, between a negative integer and keywords. -/
theorem tokenize_printed_builtin :
    let w := Script.builtinWorld
    let values : List Value :=
      [.int (-120), .text "a\\\"#\x01 \u00a0", .null, .bool true, .text "12"]
    (∀ value ∈ values, value.IsScalar) ∧
      (∀ n text, Numeral.intText n = .ok text → w.registry.lookup (String.ofList text) = none) ∧
      ∃ texts, values.mapM (fun value => (w.store.view value).print 2) = .ok texts ∧
        (tokenize (" ".intercalate texts)).Yields w.surroundings values := by
  intro w values
  have hscalars : ∀ value ∈ values, value.IsScalar := by
    have hdigits : (-120 : Int).natAbs < 10 ^ Numeral.maxDigits :=
      calc (-120 : Int).natAbs
        _ < 10 ^ 3 := by decide
        _ ≤ 10 ^ Numeral.maxDigits := Nat.pow_le_pow_right (by decide) (by decide)
    simp only [values, List.forall_mem_cons]
    exact ⟨.int hdigits, .text _, .null, .bool _, .text _, by simp⟩
  exact ⟨hscalars, fun _ _ htext ↦ registry_lookup_intText htext,
    tokenize_printed w values hscalars (fun _ _ htext ↦ registry_lookup_intText htext) 2⟩

/-- An integer with too many digits is not printed. -/
theorem print_int_ne_ok {n : Int} (hdigits : 10 ^ Numeral.maxDigits ≤ n.natAbs) (s : Store)
    (indent : Nat) (text : String) : (s.view (.int n)).print indent ≠ .ok text := by
  intro hprint
  have htext : (Numeral.intText n).map String.ofList = .ok text := hprint
  obtain ⟨chars, hchars, -⟩ := map_eq_ok htext
  exact Nat.not_le.2 (Numeral.intText_eq_ok_iff.1 hchars).1 hdigits

/-- The least integer with too many digits does not come back. -/
theorem not_tokenize_printed_tooManyDigits :
    let w := Script.builtinWorld
    let values : List Value := [.int (10 ^ Numeral.maxDigits)]
    (∀ n text, Numeral.intText n = .ok text → w.registry.lookup (String.ofList text) = none) ∧
      ¬ ∃ texts, values.mapM (fun value => (w.store.view value).print 2) = .ok texts ∧
        (tokenize (" ".intercalate texts)).Yields w.surroundings values := by
  intro w values
  refine ⟨fun _ _ htext ↦ registry_lookup_intText htext, ?_⟩
  rintro ⟨texts, htexts, -⟩
  have hdigits : 10 ^ Numeral.maxDigits ≤ ((10 : Int) ^ Numeral.maxDigits).natAbs := by
    rw [Int.natAbs_pow]
    exact Nat.pow_le_pow_left (by decide) _
  rcases hprint : (w.store.view (.int (10 ^ Numeral.maxDigits))).print 2 with cause | text
  · rw [List.mapM_cons, hprint] at htexts
    cases htexts
  · exact print_int_ne_ok hdigits w.store 2 text hprint

end Compiler

end ResourceScript
