import ResourceScript.Format.Xml.Read
import ResourceScript.Proofs.Format.Xml.Written
/-!
# Written elements are read back

A document of one element, with names that can be read and texts of characters that a document may
have, is read as the element that was written (`Xml.read_printed`): its text is cut at the escaped
characters and put together again, and its children are read one after the other up to its end tag.

Reading is bounded by a count that goes down with each piece. Every piece has a character at least, so
the length of the text is enough.
-/

set_option autoImplicit false

namespace ResourceScript.Xml

open Text

/-! ### Names -/

/-- Whether a text is a name. -/
def isName (name : String) : Bool :=
  match name.toList with
  | [] => false
  | c :: rest => isNameStart c && rest.all isNameChar

section Names

variable {name : String} {c d : Char}

theorem exists_of_isName (hname : isName name = true) : ∃ c rest, name.toList = c :: rest ∧
    isNameStart c = true ∧ ∀ d ∈ rest, isNameChar d = true := by
  unfold isName at hname
  split at hname
  · cases hname
  · rename_i c rest hchars
    obtain ⟨hc, hrest⟩ := Bool.and_eq_true_iff.1 hname
    exact ⟨c, rest, hchars, hc, List.all_eq_true.1 hrest⟩

theorem isNameChar_of_isNameStart (hc : isNameStart c = true) : isNameChar c = true := by
  simp [isNameChar, hc]

theorem isNameChar_of_mem (hname : isName name = true) (hc : c ∈ name.toList) :
    isNameChar c = true := by
  obtain ⟨first, rest, hchars, hfirst, hrest⟩ := exists_of_isName hname
  rw [hchars] at hc
  rcases List.mem_cons.1 hc with rfl | hc
  · exact isNameChar_of_isNameStart hfirst
  · exact hrest c hc

theorem ne_of_isNameChar (hc : isNameChar c = true) (hd : isNameChar d = false) : c ≠ d := by
  rintro rfl
  exact Bool.false_ne_true (hd.symm.trans hc)

theorem ne_of_isNameStart (hc : isNameStart c = true) (hd : isNameStart d = false) : c ≠ d := by
  rintro rfl
  exact Bool.false_ne_true (hd.symm.trans hc)

/-- The codes of white space. -/
def spaceCodes : List Nat :=
  [0x09, 0x0a, 0x0b, 0x0c, 0x0d, 0x1c, 0x1d, 0x1e, 0x1f, 0x20, 0x85, 0xa0, 0x1680, 0x2000, 0x2001, 0x2002,
    0x2003, 0x2004, 0x2005, 0x2006, 0x2007, 0x2008, 0x2009, 0x200a, 0x2028, 0x2029, 0x202f, 0x205f, 0x3000]

theorem mem_spaceCodes (hspace : isSpace c = true) : c.toNat ∈ spaceCodes := by
  simp only [isSpace, Bool.or_eq_true, Bool.and_eq_true, decide_eq_true_eq, beq_iff_eq] at hspace
  simp only [spaceCodes, List.mem_cons, List.not_mem_nil, or_false]
  omega

/-- White space is not in names. -/
theorem isSpace_of_isNameChar (hc : isNameChar c = true) : isSpace c = false := by
  have hcodes : ∀ n ∈ spaceCodes, isNameChar (Char.ofNat n) = false := by decide +kernel
  rw [Bool.eq_false_iff]
  intro hspace
  have hother := hcodes c.toNat (mem_spaceCodes hspace)
  rw [Char.ofNat_toNat, hc] at hother
  cases hother

/-- A name can be written. -/
theorem isTagName_of_isName (hname : isName name = true) : isTagName name = true := by
  obtain ⟨first, rest, hchars, hfirst, -⟩ := exists_of_isName hname
  have hhead : ∀ d, isNameStart d = false → name.toList.head? ≠ some d := by
    intro d hd h
    rw [hchars] at h
    exact ne_of_isNameStart hfirst hd (Option.some.inj h)
  refine isTagName_iff.2 ⟨isElementName_iff.2 ⟨hhead '@' (by decide), ?_⟩, ?_, ?_⟩
  · rintro rfl
    exact hhead '#' (by decide) rfl
  · rintro rfl
    exact hhead '#' (by decide) rfl
  · have hall : ∀ c ∈ name.toList, (!(c == '<' || c == '>' || c == '/' || c == '"' || c == '\'' ||
        c == '=' || isSpace c)) = true := by
      intro c hc
      have hchar := isNameChar_of_mem hname hc
      have hne (d : Char) (hd : isNameChar d = false) : (c == d) = false :=
        beq_eq_false_iff_ne.2 (ne_of_isNameChar hchar hd)
      rw [hne '<' (by decide), hne '>' (by decide), hne '/' (by decide), hne '"' (by decide),
        hne '\'' (by decide), hne '=' (by decide), isSpace_of_isNameChar hchar]
      rfl
    rw [isWritableName, List.all_eq_true.2 hall]
    simp [hhead '?' (by decide), hhead '!' (by decide)]

/-- A name is read up to a character that is none of a name. -/
theorem readName_append (hname : isName name = true) (hd : isNameChar d = false) (rest : List Char) :
    readName (name.toList ++ d :: rest) = .ok (name.toList, d :: rest) := by
  obtain ⟨first, more, hchars, hfirst, hmore⟩ := exists_of_isName hname
  have hstop : ¬ isNameChar d = true := Bool.eq_false_iff.1 hd
  rw [hchars, List.cons_append, readName, if_pos hfirst, List.takeWhile_append_of_pos hmore,
    List.dropWhile_append_of_pos hmore, List.takeWhile_cons_of_neg hstop,
    List.dropWhile_cons_of_neg hstop, List.append_nil]

end Names

/-! ### Texts -/

/-- Whether a text can be read as content. -/
def isContent (text : String) : Bool :=
  text.toList.all fun c => isAllowed c && c != '\r'

/-- Whether a character is written as it is. -/
def isUnescaped (c : Char) : Bool :=
  c != '&' && c != '<' && c != '>'

section Texts

variable {fuel : Nat} {d : Declarations} {text rest : List Char}

theorem readContent_endTag : readContent (fuel + 1) d ('<' :: '/' :: rest) =
    .ok ([], '<' :: '/' :: rest) := by
  rw [readContent]

variable {nodes : List Node} {after : List Char}

theorem readContent_reference {code : List Char} {c : Char}
    (hcode : readReference (code ++ rest) = .ok (.char c, rest))
    (hmore : readContent fuel d rest = .ok (nodes, after)) :
    readContent (fuel + 1) d ('&' :: (code ++ rest)) = .ok (addText [c] nodes, after) := by
  rw [readContent, hcode]
  show (readContent fuel d rest >>= _) = _
  rw [hmore]
  rfl

theorem readContent_plain {c : Char} (hc : isPlainChar c = true)
    (hcheck : checkText ((c :: rest).takeWhile isPlainChar) = .ok ())
    (hmore : readContent fuel d ((c :: rest).dropWhile isPlainChar) = .ok (nodes, after)) :
    readContent (fuel + 1) d (c :: rest) =
      .ok (addText ((c :: rest).takeWhile isPlainChar) nodes, after) := by
  have hopen : c ≠ '<' := by
    rintro rfl
    exact absurd hc (by decide)
  have hamp : c ≠ '&' := by
    rintro rfl
    exact absurd hc (by decide)
  rw [readContent]
  · rw [hcheck, hmore]
    rfl
  · nofun
  all_goals intro tail heq
  all_goals first
    | exact hopen (List.cons.inj heq).1
    | exact hamp (List.cons.inj heq).1

theorem textNodes_of_ne_nil (htext : text ≠ []) :
    textNodes (String.ofList text) = [.text (String.ofList text)] := by
  rw [textNodes, if_neg fun hempty ↦ htext (String.ofList_injective hempty)]

/-- Text in front of a text makes one text with it. -/
theorem addText_textNodes (first second : List Char) :
    addText first (textNodes (String.ofList second)) = textNodes (String.ofList (first ++ second)) := by
  cases first with
  | nil => rfl
  | cons c first =>
    rw [List.cons_append, textNodes_of_ne_nil (List.cons_ne_nil c (first ++ second))]
    by_cases hsecond : second = []
    · rw [hsecond, List.append_nil]
      rfl
    · rw [textNodes_of_ne_nil hsecond, ← List.cons_append, String.ofList_append]
      rfl

theorem escapeText_append (first second : List Char) :
    escapeText (first ++ second) = escapeText first ++ escapeText second :=
  List.flatMap_append

theorem escapeText_of_isUnescaped (htext : ∀ c ∈ text, isUnescaped c = true) :
    escapeText text = text := by
  induction text with
  | nil => rfl
  | cons c rest ih =>
    obtain ⟨hc, hrest⟩ := List.forall_mem_cons.1 htext
    simp only [isUnescaped, Bool.and_eq_true, bne_iff_ne] at hc
    obtain ⟨⟨hamp, hopen⟩, hclose⟩ := hc
    rw [escapeText, List.flatMap_cons, if_neg hamp, if_neg hclose, if_neg hopen, ← escapeText, ih hrest]
    rfl

theorem eq_of_isUnescaped_eq_false {c : Char} (hc : isUnescaped c = false) :
    c = '&' ∨ c = '<' ∨ c = '>' := by
  simp only [isUnescaped, Bool.and_eq_false_iff, bne_eq_false_iff_eq] at hc
  exact or_assoc.1 hc

/-- A character that is escaped is written as a reference, which is read as the character. -/
theorem exists_reference {c : Char} (hc : isUnescaped c = false) : ∃ code : List Char,
    escapeText [c] = '&' :: code ∧ ∀ rest, readReference (code ++ rest) = .ok (.char c, rest) := by
  rcases eq_of_isUnescaped_eq_false hc with rfl | rfl | rfl
  · exact ⟨"amp;".toList, rfl, fun rest ↦ rfl⟩
  · exact ⟨"lt;".toList, rfl, fun rest ↦ rfl⟩
  · exact ⟨"gt;".toList, rfl, fun rest ↦ rfl⟩

/-- What follows unescaped text begins with markup. -/
theorem exists_escapeText_append (htext : ∀ c, text.head? = some c → isUnescaped c = false)
    (rest : List Char) :
    ∃ c more, escapeText text ++ '<' :: '/' :: rest = c :: more ∧ isPlainChar c = false := by
  cases text with
  | nil => exact ⟨'<', '/' :: rest, rfl, rfl⟩
  | cons c after =>
    obtain ⟨code, hcode, -⟩ := exists_reference (htext c rfl)
    refine ⟨'&', code ++ escapeText after ++ '<' :: '/' :: rest, ?_, rfl⟩
    rw [← List.singleton_append, escapeText_append, hcode]
    rfl

theorem eq_append_of_afterStart {start : List Char} (h : afterStart start text = some rest) :
    text = start ++ rest := by
  induction start generalizing text with
  | nil => exact Option.some.inj h
  | cons p start ih =>
    cases text with
    | nil => cases h
    | cons c text =>
      rw [afterStart] at h
      split at h
      · rename_i hpc
        rw [hpc, List.cons_append, ← ih h]
      · cases h

/-- A text without the bracket that ends a section does not contain that end. -/
theorem occursIn_sectionEnd (htext : '>' ∉ text) : occursIn "]]>".toList text = false := by
  induction text with
  | nil => rfl
  | cons c rest ih =>
    have hstart : startsWith "]]>".toList (c :: rest) = false := by
      rw [startsWith, Option.isSome_eq_false_iff, Option.isNone_iff_eq_none,
        Option.eq_none_iff_forall_ne_some]
      intro after hafter
      rw [eq_append_of_afterStart hafter] at htext
      exact htext (List.mem_append_left _ (by decide))
    rw [occursIn, hstart, ih fun h ↦ htext (List.mem_cons_of_mem c h)]
    rfl

theorem checkText_eq (hallowed : ∀ c ∈ text, isAllowed c = true) (htext : '>' ∉ text) :
    checkText text = .ok () := by
  rw [checkText, List.all_eq_true.2 hallowed, occursIn_sectionEnd htext]
  rfl

/-- Text that is written as it is is read up to the next reference or tag. -/
theorem readContent_run {run text : List Char} (hrun : run ≠ [])
    (hchars : ∀ c ∈ run, isUnescaped c = true) (hallowed : ∀ c ∈ run, isAllowed c = true)
    (htext : ∀ c, text.head? = some c → isUnescaped c = false)
    (hmore : readContent fuel d (escapeText text ++ '<' :: '/' :: rest) = .ok (nodes, after)) :
    readContent (fuel + 1) d (run ++ (escapeText text ++ '<' :: '/' :: rest)) =
      .ok (addText run nodes, after) := by
  have hplain : ∀ c ∈ run, isPlainChar c = true := by
    intro c hc
    have hchar := hchars c hc
    simp only [isUnescaped, Bool.and_eq_true] at hchar
    exact Bool.and_eq_true_iff.2 ⟨hchar.1.2, hchar.1.1⟩
  have hclose : '>' ∉ run := fun h ↦ absurd (hchars _ h) (by decide)
  obtain ⟨e, tail, hbehind, he⟩ := exists_escapeText_append htext rest
  have hstop : ¬ isPlainChar e = true := Bool.eq_false_iff.1 he
  rw [hbehind] at hmore ⊢
  have htake : (run ++ e :: tail).takeWhile isPlainChar = run := by
    rw [List.takeWhile_append_of_pos hplain, List.takeWhile_cons_of_neg hstop, List.append_nil]
  have hdrop : (run ++ e :: tail).dropWhile isPlainChar = e :: tail := by
    rw [List.dropWhile_append_of_pos hplain, List.dropWhile_cons_of_neg hstop]
  match run, hrun with
  | c :: run, _ =>
    rw [List.cons_append] at htake hdrop ⊢
    rw [readContent_plain (hplain c List.mem_cons_self) (htake ▸ checkText_eq hallowed hclose)
      (hdrop ▸ hmore), htake]

/-- A text that does not begin with an escaped character has text that is written as it is in front of
the first one. -/
theorem exists_run {c : Char} (hc : isUnescaped c = true) (more : List Char) :
    ∃ run behind, c :: more = run ++ behind ∧ run ≠ [] ∧ (∀ e ∈ run, isUnescaped e = true) ∧
      ∀ e, behind.head? = some e → isUnescaped e = false := by
  refine ⟨(c :: more).takeWhile isUnescaped, (c :: more).dropWhile isUnescaped,
    List.takeWhile_append_dropWhile.symm, ?_, fun e he ↦ List.mem_takeWhile_imp he,
    fun e he ↦ head?_dropWhile he⟩
  rw [List.takeWhile_cons_of_pos hc]
  exact List.cons_ne_nil _ _

/-- Escaped text is read as the text. -/
theorem readContent_escapeText (text : List Char) (hallowed : ∀ c ∈ text, isAllowed c = true)
    (rest : List Char) (d : Declarations) (fuel : Nat) (hfuel : (escapeText text).length ≤ fuel) :
    readContent (fuel + 1) d (escapeText text ++ '<' :: '/' :: rest) =
      .ok (textNodes (String.ofList text), '<' :: '/' :: rest) := by
  match text with
  | [] => exact readContent_endTag
  | c :: more =>
    by_cases hc : isUnescaped c = true
    · obtain ⟨run, behind, hsplit, hrun, hchars, hhead⟩ := exists_run hc more
      have hpositive := List.length_pos_of_ne_nil hrun
      have hshorter : behind.length < (c :: more).length := by
        rw [hsplit, List.length_append]
        exact Nat.lt_add_of_pos_left hpositive
      rw [hsplit] at hallowed hfuel ⊢
      obtain ⟨hrunAllowed, hbehind⟩ := List.forall_mem_append.1 hallowed
      rw [escapeText_append, escapeText_of_isUnescaped hchars] at hfuel ⊢
      rw [List.length_append] at hfuel
      obtain ⟨fuel, rfl⟩ := Nat.exists_eq_add_of_le' (hpositive.trans_le (Nat.le_of_add_right_le hfuel))
      have hmore := readContent_escapeText behind hbehind rest d fuel (by omega)
      rw [List.append_assoc, readContent_run hrun hchars hrunAllowed hhead hmore, addText_textNodes]
    · obtain ⟨code, hcode, hread⟩ := exists_reference (Bool.eq_false_iff.2 hc)
      have hsplit : escapeText (c :: more) = '&' :: (code ++ escapeText more) := by
        rw [← List.singleton_append, escapeText_append, hcode]
        rfl
      rw [hsplit, List.length_cons, List.length_append] at hfuel
      obtain ⟨fuel, rfl⟩ := Nat.exists_eq_add_of_le' (Nat.le_of_add_left_le hfuel)
      have hmore := readContent_escapeText more (List.forall_mem_cons.1 hallowed).2 rest d fuel
        (by omega)
      rw [hsplit, List.cons_append, List.append_assoc, readContent_reference (hread _) hmore,
        addText_textNodes, List.singleton_append]
termination_by text.length
decreasing_by
  · exact hshorter
  · exact Nat.lt_succ_self _

end Texts

/-! ### Elements -/

/-- Whether a node is an element that can be read: with a name, without attributes, and with a text or
with such elements inside. -/
inductive IsReadable : Node → Prop
  /-- An element around a text. -/
  | leaf {name content : String} (hname : isName name = true) (hcontent : isContent content = true) :
    IsReadable (.element name [] (textNodes content))
  /-- An element around elements. -/
  | branch {name : String} {children : List Node} (hname : isName name = true)
    (hchildren : ∀ child ∈ children, IsReadable child) : IsReadable (.element name [] children)

section Elements

variable {fuel : Nat} {d : Declarations} {name : String} {content rest after : List Char}
  {nodes children : List Node}

theorem wrap_append (name content rest : List Char) : wrap name [] content ++ rest =
    '<' :: (name ++ '>' :: (content ++ '<' :: '/' :: (name ++ '>' :: rest))) := by
  simp [wrap]

theorem readAttributes_end : readAttributes d (fuel + 1) ('>' :: rest) = .ok ([], false, rest) := by
  rw [readAttributes]
  rfl

theorem expect_append (start rest : List Char) : expect start (start ++ rest) = .ok rest := by
  rw [expect, afterStart_append]

/-- The tags around the content of an element. -/
theorem readContent_element (hname : isName name = true)
    (hinside : readContent fuel d (content ++ '<' :: '/' :: (name.toList ++ '>' :: rest)) =
      .ok (children, '<' :: '/' :: (name.toList ++ '>' :: rest)))
    (hmore : readContent fuel d rest = .ok (nodes, after)) :
    readContent (fuel + 1) d (wrap name.toList [] content ++ rest) =
      .ok (.element name [] children :: nodes, after) := by
  have hread := readName_append hname (d := '>') (by decide)
    (content ++ '<' :: '/' :: (name.toList ++ '>' :: rest))
  obtain ⟨c, more, hchars, hc, -⟩ := exists_of_isName hname
  have hne (e : Char) (he : isNameStart e = false) (tail : List Char) :
      ¬ name.toList ++ '>' :: (content ++ '<' :: '/' :: (name.toList ++ '>' :: rest)) = e :: tail := by
    rw [hchars]
    exact fun h ↦ ne_of_isNameStart hc he (List.cons.inj h).1
  have hend : expect (['<', '/'] ++ name.toList) ('<' :: '/' :: (name.toList ++ '>' :: rest)) =
      .ok ('>' :: rest) := expect_append (['<', '/'] ++ name.toList) ('>' :: rest)
  rw [wrap_append, readContent]
  · have hclose : expect ['>'] (skipGap ('>' :: rest)) = .ok rest := expect_append ['>'] rest
    simp only [bind, Except.bind, pure, Except.pure, hread, readAttributes_end, hinside, hend, hclose,
      hmore, Bool.false_eq_true, if_false, String.ofList_toList]
  · exact fun tail h ↦ hne '/' (by decide) tail h
  · exact fun tail h ↦ hne '?' (by decide) tail h
  · exact fun tail h ↦ hne '!' (by decide) tail h

/-- Whether nodes are read back up to the end tag behind them. -/
def ReadsBack (children : List Node) : Prop :=
  ∀ (d : Declarations) (rest : List Char) (fuel : Nat), (printedAll children).length ≤ fuel →
    readContent (fuel + 1) d (printedAll children ++ '<' :: '/' :: rest) =
      .ok (children, '<' :: '/' :: rest)

/-- Whether a node is an element whose children are read back. -/
def IsReadBack (node : Node) : Prop :=
  ∃ name children, node = .element name [] children ∧ isName name = true ∧ ReadsBack children

theorem printed_element (name : String) (children : List Node) :
    Node.printed (.element name [] children) = wrap name.toList [] (printedAll children) := by
  rw [Node.printed, List.flatMap_nil]

theorem lt_length_wrap (name content : List Char) :
    content.length < (wrap name [] content).length := by
  simp only [wrap, List.length_append, List.length_cons]
  omega

/-- A text is read back. -/
theorem readsBack_textNodes {content : String} (hcontent : isContent content = true) :
    ReadsBack (textNodes content) := by
  intro d rest fuel hfuel
  have hallowed : ∀ c ∈ content.toList, isAllowed c = true := fun c hc ↦
    (Bool.and_eq_true_iff.1 (List.all_eq_true.1 hcontent c hc)).1
  rw [printedAll_textNodes] at hfuel ⊢
  rw [readContent_escapeText content.toList hallowed rest d fuel hfuel, String.ofList_toList]

/-- Elements are read back one after the other. -/
theorem readsBack_of_elements (h : ∀ child ∈ children, IsReadBack child) : ReadsBack children := by
  intro d rest
  induction children with
  | nil =>
    intro fuel _
    rw [printedAll]
    exact readContent_endTag
  | cons child others ih =>
    intro fuel hfuel
    obtain ⟨⟨name, inner, rfl, hname, hinner⟩, hothers⟩ := List.forall_mem_cons.1 h
    have hlonger := lt_length_wrap name.toList (printedAll inner)
    rw [printedAll, printed_element, List.length_append] at hfuel
    obtain ⟨fuel, rfl⟩ := Nat.exists_eq_add_of_le' ((Nat.zero_lt_of_lt hlonger).trans_le
      (Nat.le_of_add_right_le hfuel))
    have hinside := fun rest ↦ hinner d (name.toList ++ '>' :: rest) fuel (by omega)
    rw [printedAll, printed_element, List.append_assoc,
      readContent_element hname (hinside _) (ih hothers fuel (by omega))]

theorem IsReadable.isReadBack {node : Node} (h : IsReadable node) : IsReadBack node := by
  induction h with
  | leaf hname hcontent => exact ⟨_, _, rfl, hname, readsBack_textNodes hcontent⟩
  | branch hname _ ih => exact ⟨_, _, rfl, hname, readsBack_of_elements ih⟩

/-- Escaping brings in no other characters than those of references. -/
theorem not_mem_escapeText {text : List Char} (htext : '\r' ∉ text) : '\r' ∉ escapeText text := by
  induction text with
  | nil => exact List.not_mem_nil
  | cons c rest ih =>
    rw [← List.singleton_append, escapeText_append, List.mem_append, not_or]
    refine ⟨?_, ih fun h ↦ htext (List.mem_cons_of_mem c h)⟩
    by_cases hc : isUnescaped c = true
    · rw [escapeText_of_isUnescaped (List.forall_mem_singleton.2 hc), List.mem_singleton]
      rintro rfl
      exact htext List.mem_cons_self
    · rcases eq_of_isUnescaped_eq_false (Bool.eq_false_iff.2 hc) with rfl | rfl | rfl <;> decide

theorem mem_printedAll {c : Char} : c ∈ printedAll nodes ↔ ∃ node ∈ nodes, c ∈ node.printed := by
  induction nodes with
  | nil => simp [printedAll]
  | cons node rest ih => rw [printedAll, List.mem_append, ih, List.exists_mem_cons_iff]

/-- Elements that can be read hold no carriage return. -/
theorem IsReadable.not_mem_printed {node : Node} (h : IsReadable node) : '\r' ∉ node.printed := by
  have hwrap {name : String} {content : List Char} (hname : isName name = true)
      (hcontent : '\r' ∉ content) : '\r' ∉ wrap name.toList [] content := by
    have hchars : '\r' ∉ name.toList := fun hmem ↦
      absurd (isNameChar_of_mem hname hmem) (by decide)
    simp [wrap, hchars, hcontent]
  induction h with
  | leaf hname hcontent =>
    rw [printed_element, printedAll_textNodes]
    refine hwrap hname (not_mem_escapeText fun hmem ↦ ?_)
    exact absurd (List.all_eq_true.1 hcontent _ hmem) (by decide)
  | branch hname _ ih =>
    rw [printed_element]
    refine hwrap hname fun hmem ↦ ?_
    obtain ⟨child, hchild, hinside⟩ := mem_printedAll.1 hmem
    exact ih child hchild hinside

/-! ### Documents -/

theorem printed_eq {c : Char} {more : List Char} (hchars : name.toList = c :: more)
    (children : List Node) : Node.printed (.element name [] children) =
      '<' :: c :: (more ++ '>' :: (printedAll children ++ '<' :: '/' :: (name.toList ++ ['>']))) := by
  have hwrap := wrap_append name.toList (printedAll children) []
  have hfirst (inside : List Char) : name.toList ++ '>' :: inside = c :: (more ++ '>' :: inside) := by
    rw [hchars]
    rfl
  rw [List.append_nil] at hwrap
  rw [printed_element, hwrap, hfirst (printedAll children ++ _)]

/-- The element of a document is read back. -/
theorem readRoot_printed {node : Node} (h : IsReadBack node) (d : Declarations) :
    readRoot d node.printed = .ok (node, []) := by
  obtain ⟨name, children, rfl, hname, hchildren⟩ := h
  obtain ⟨c, more, hchars, hc, -⟩ := exists_of_isName hname
  let inside := printedAll children ++ '<' :: '/' :: (name.toList ++ ['>'])
  have htext : Node.printed (.element name [] children) = '<' :: c :: (more ++ '>' :: inside) :=
    printed_eq hchars children
  have hread : readName (c :: (more ++ '>' :: inside)) = .ok (name.toList, '>' :: inside) := by
    rw [← List.cons_append, ← hchars]
    exact readName_append hname (by decide) inside
  have hlength : (printedAll children).length ≤ inside.length + d.size := by
    rw [List.length_append, Nat.add_assoc]
    exact Nat.le_add_right _ _
  have hinside := hchildren d (name.toList ++ ['>']) (inside.length + d.size) hlength
  have hend : expect (['<', '/'] ++ name.toList) ('<' :: '/' :: (name.toList ++ ['>'])) =
      .ok ['>'] := expect_append (['<', '/'] ++ name.toList) ['>']
  have hclose : expect ['>'] (skipGap ['>']) = .ok [] := expect_append ['>'] []
  rw [htext, readRoot, if_pos hc]
  simp only [bind, Except.bind, pure, Except.pure, hread, readAttributes_end, hinside, hend, hclose,
    Bool.false_eq_true, if_false, String.ofList_toList, inside]

theorem unifyLineEnds_eq_self {text : List Char} (htext : '\r' ∉ text) :
    unifyLineEnds text = text := by
  fun_induction unifyLineEnds text with
  | case1 => rfl
  | case2 => exact absurd List.mem_cons_self htext
  | case3 => exact absurd List.mem_cons_self htext
  | case4 c rest _ _ ih => rw [ih fun h ↦ htext (List.mem_cons_of_mem c h)]

/-- Nothing stands between the parts of a document in front of its element. -/
theorem readMisc_of_skipGap {text : List Char} {c : Char} (hc : isNameStart c = true)
    (htext : skipGap text = '<' :: c :: rest) :
    readMisc (fuel + 1) text = .ok ([], '<' :: c :: rest) := by
  have hquestion : c ≠ '?' := ne_of_isNameStart hc (by decide)
  have hbang : c ≠ '!' := ne_of_isNameStart hc (by decide)
  rw [readMisc, htext]
  split
  · rename_i heq
    exact absurd (List.cons.inj (List.cons.inj heq).2).1 hquestion
  · rename_i heq
    exact absurd (List.cons.inj (List.cons.inj heq).2).1 hbang
  · rfl

theorem readMisc_nil : readMisc (fuel + 1) [] = .ok ([], []) := by
  rw [readMisc]
  rfl

theorem readDoctype?_of_isNameStart {c : Char} (hc : isNameStart c = true) (allowed : Bool)
    (rest : List Char) :
    readDoctype? allowed ('<' :: c :: rest) = .ok ([], .empty allowed, '<' :: c :: rest) := by
  have hbang : '!' ≠ c := (ne_of_isNameStart hc (by decide)).symm
  have hnone : afterStart "<!DOCTYPE".toList ('<' :: c :: rest) = none := by
    show (if '<' = '<' then if '!' = c then _ else none else none) = none
    rw [if_pos rfl, if_neg hbang]
  rw [readDoctype?, hnone]

/-- The document of an element that can be read is read as that element. -/
theorem read_printed {node : Node} (hnode : IsReadable node) (entities : Bool) :
    Document.read false entities (declaration ++ node.printed) = .ok ⟨[node]⟩ := by
  have h := hnode.isReadBack
  obtain ⟨c, rest, hprinted, hc⟩ : ∃ c rest, node.printed = '<' :: c :: rest ∧
      isNameStart c = true := by
    obtain ⟨name, children, rfl, hname, -⟩ := h
    obtain ⟨c, more, hchars, hc, -⟩ := exists_of_isName hname
    exact ⟨c, _, printed_eq hchars children, hc⟩
  have hlines : unifyLineEnds (declaration ++ node.printed) = declaration ++ node.printed :=
    unifyLineEnds_eq_self fun hmem ↦
      (List.mem_append.1 hmem).elim (fun h ↦ absurd h (by decide)) hnode.not_mem_printed
  have hmark : ¬ (declaration ++ node.printed).head? = some (Char.ofNat 0xfeff) := by
    show ¬ some '<' = some (Char.ofNat 0xfeff)
    decide
  have hdeclaration : skipDeclaration (declaration ++ node.printed) = .ok ('\n' :: node.printed) := rfl
  have hbefore : ∀ fuel, readMisc (fuel + 1) ('\n' :: node.printed) = .ok ([], node.printed) := by
    intro fuel
    rw [hprinted]
    exact readMisc_of_skipGap hc rfl
  have hbetween : ∀ fuel, readMisc (fuel + 1) node.printed = .ok ([], node.printed) := by
    intro fuel
    rw [hprinted]
    exact readMisc_of_skipGap hc rfl
  have hdoctype : readDoctype? entities node.printed = .ok ([], .empty entities, node.printed) := by
    rw [hprinted]
    exact readDoctype?_of_isNameStart hc entities rest
  have hroot := readRoot_printed h (.empty entities)
  rw [Document.read, hlines]
  simp only [bind, Except.bind, pure, Except.pure, if_neg hmark, hdeclaration, hbefore, hdoctype,
    hbetween, hroot, readMisc_nil, List.isEmpty_nil, Bool.not_true, Bool.false_eq_true, if_false,
    List.nil_append, List.append_nil]

end Elements

/-! ### Data -/

/-- Data that can be read can be written. -/
theorem isTree_isTagName {data : Data} {isText : String → Bool} (h : data.IsTree isName isText) :
    data.IsTree isTagName fun _ ↦ true :=
  h.mono (fun _ ↦ isTagName_of_isName) fun _ _ ↦ rfl

/-- Data with names for keys and with texts that can be read has elements that can be read. -/
theorem isReadable_of_mem_elementsOf {data : Data} (h : data.IsTree isName isContent) {name : String}
    (hname : isName name = true) {node : Node} (hnode : node ∈ data.elementsOf name) :
    IsReadable node := by
  induction h generalizing name node with
  | text hs =>
    rw [Data.elementsOf] at hnode
    rw [List.mem_singleton.1 hnode]
    exact .leaf hname hs
  | list _ _ ih =>
    rw [Data.elementsOf] at hnode
    obtain ⟨item, hitem, hmem⟩ := Data.mem_itemElements.1 hnode
    exact ih item hitem hname hmem
  | map _ hnames _ ih =>
    rw [Data.elementsOf] at hnode
    rw [List.mem_singleton.1 hnode]
    refine .branch hname fun child hchild ↦ ?_
    obtain ⟨entry, hentry, hmem⟩ := Data.mem_entryElements.1 hchild
    exact ih entry hentry (hnames entry hentry) hmem

theorem isReadable_of_mem_rootsOf {entries : List (String × Data)}
    (h : (Data.map (Data.textKeyed entries)).IsTree isName isContent) {node : Node}
    (hnode : node ∈ Data.rootsOf entries) : IsReadable node := by
  by_cases hone : entries.length = 1
  · obtain ⟨⟨key, value⟩, rfl⟩ := List.length_eq_one_iff.1 hone
    obtain ⟨-, hnames, hvalues⟩ := Data.isTree_map_iff.1 h
    exact isReadable_of_mem_elementsOf (hvalues _ (List.mem_singleton_self _))
      (hnames _ (List.mem_singleton_self _)) hnode
  · rw [Data.rootsOf_of_length_ne hone] at hnode
    have hroot : isName "root" = true := by decide
    exact isReadable_of_mem_elementsOf h hroot (by rwa [Data.elementsOf])

end ResourceScript.Xml
