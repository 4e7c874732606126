import Mathlib.Logic.Relation
import ResourceScript.Proofs.Format.Html.Nested
/-!
# No element is lost

Pieces of markup in any order build a document. Each piece that starts an element has a parent: the
element that is innermost open there (`startsOf`), which is a matter of the names of the tags alone.
What is built is a forest of elements that holds, in the order of the pieces, exactly the started
elements, each under its parent (`build_keeps_elements`).

The invariant is about the open elements together with the closed ones inside them: what a tree holds
(`Tree.Holds`) lists the elements that were started so far (`stackStarts`). Opening an element adds it
at the end of the list, and closing one leaves the list as it is, since it goes to the place where it
was started.
-/

set_option autoImplicit false

namespace ResourceScript.Html

open Text

/-! ### Started elements -/

/-- An element that a piece of markup starts. -/
structure Start where
  /-- The number of the piece. -/
  number : Nat
  /-- The name of the element. -/
  name : String
  /-- Its attributes. -/
  attributes : Attributes
  /-- The number of the element that is innermost open, if there is one. -/
  parent : Option Nat
  deriving Repr, DecidableEq

namespace Piece

/-- Whether a piece starts an element. -/
def isStart : Piece → Bool
  | startTag .. | emptyTag .. => true
  | _ => false

/-- Whether the element that a piece starts, if it does, has the name of an element. -/
def isNamed : Piece → Bool
  | startTag name _ | emptyTag name _ => Xml.isElementName name
  | _ => true

/-- The element that a piece starts among open elements, of which the innermost is the first. -/
def start? (number : Nat) (inner : List (Nat × String)) : Piece → Option Start
  | startTag name attributes | emptyTag name attributes =>
    some ⟨number, name, attributes, inner.head?.map Prod.fst⟩
  | _ => none

end Piece

/-- The numbers and names of the open elements behind a piece, the innermost first. A tag opens its
element unless that has no content; an end tag closes the innermost element of its name and all that
is open inside it, if there is such an element. -/
def openBehind (number : Nat) (inner : List (Nat × String)) : Piece → List (Nat × String)
  | .startTag name _ => if voidElements.contains name then inner else (number, name) :: inner
  | .endTag name =>
    if name ∈ inner.map Prod.snd then (inner.dropWhile fun e ↦ e.2 != name).drop 1 else inner
  | _ => inner

/-- The elements that pieces start, among open elements, when the first piece has a number. -/
def startsOf (number : Nat) (inner : List (Nat × String)) : List Piece → List Start
  | [] => []
  | piece :: rest =>
    (piece.start? number inner).toList ++ startsOf (number + 1) (openBehind number inner piece) rest

theorem length_startsOf (number : Nat) (inner : List (Nat × String)) (pieces : List Piece) :
    (startsOf number inner pieces).length = (pieces.filter Piece.isStart).length := by
  induction pieces generalizing number inner with
  | nil => rfl
  | cons piece rest ih =>
    rw [startsOf, List.length_append, ih, List.filter_cons]
    cases piece with
    | startTag | emptyTag => exact Nat.add_comm 1 _
    | endTag | text => exact Nat.zero_add _

theorem le_number_of_mem_startsOf {number : Nat} {inner : List (Nat × String)}
    {pieces : List Piece} {start : Start} (h : start ∈ startsOf number inner pieces) :
    number ≤ start.number := by
  induction pieces generalizing number inner with
  | nil => cases h
  | cons piece rest ih =>
    rcases List.mem_append.1 h with h | h
    · cases piece with
      | startTag | emptyTag =>
        obtain rfl := List.mem_singleton.1 h
        exact Nat.le_refl _
      | endTag | text => cases h
    · exact Nat.le_of_succ_le (ih h)

/-- Started elements have different numbers: those of their pieces in order. -/
theorem pairwise_startsOf (number : Nat) (inner : List (Nat × String)) (pieces : List Piece) :
    (startsOf number inner pieces).Pairwise fun first second ↦ first.number < second.number := by
  induction pieces generalizing number inner with
  | nil => exact .nil
  | cons piece rest ih =>
    have hlater : ∀ start ∈ startsOf (number + 1) (openBehind number inner piece) rest,
        number < start.number := fun start hstart ↦ le_number_of_mem_startsOf hstart
    rw [startsOf]
    cases piece with
    | startTag | emptyTag => exact List.pairwise_cons.2 ⟨hlater, ih _ _⟩
    | endTag | text => exact ih _ _

/-! ### Forests of elements -/

/-- An element with the number of the piece that starts it, its text and its children in order. -/
structure Element where
  /-- The number of the piece. -/
  number : Nat
  /-- The name. -/
  name : String
  /-- The attributes. -/
  attributes : Attributes
  /-- The text directly inside. -/
  text : List Char
  /-- The children. -/
  children : List Element

namespace Element

mutual

/-- The value of an element. -/
def value : Element → Plain
  | ⟨_, _, attributes, text, children⟩ =>
    Xml.elementValue (Tree.fieldsOf attributes) (values children) text

/-- The names and the values of elements. -/
def values : List Element → List (String × Plain)
  | [] => []
  | e :: rest => (e.name, value e) :: values rest

end

mutual

/-- An element with all elements inside it as started elements, each in front of its children. -/
def starts (parent : Option Nat) : Element → List Start
  | ⟨number, name, attributes, _, children⟩ =>
    ⟨number, name, attributes, parent⟩ :: startsAll (some number) children

/-- Elements with all elements inside them as started elements. -/
def startsAll (parent : Option Nat) : List Element → List Start
  | [] => []
  | e :: rest => starts parent e ++ startsAll parent rest

end

/-- An element that is not closed yet, as an open one. -/
def opened (e : Element) : OpenElement :=
  ⟨e.name, Xml.pushAll (Tree.fieldsOf e.attributes) (values e.children), e.text⟩

/-- An element with one more child. -/
def withChild (e child : Element) : Element :=
  { e with children := e.children ++ [child] }

theorem values_concat (elements : List Element) (e : Element) :
    values (elements ++ [e]) = values elements ++ [(e.name, e.value)] := by
  induction elements with
  | nil => rw [List.nil_append, values, values]; rfl
  | cons first rest ih => rw [List.cons_append, values, values, ih]; rfl

theorem startsAll_append (parent : Option Nat) (first second : List Element) :
    startsAll parent (first ++ second) = startsAll parent first ++ startsAll parent second := by
  induction first with
  | nil => rw [startsAll]; rfl
  | cons e rest ih => rw [List.cons_append, startsAll, startsAll, ih, List.append_assoc]

theorem startsAll_singleton (parent : Option Nat) (e : Element) :
    startsAll parent [e] = e.starts parent := by
  rw [startsAll, startsAll, List.append_nil]

theorem starts_eq (parent : Option Nat) (e : Element) :
    e.starts parent =
      ⟨e.number, e.name, e.attributes, parent⟩ :: startsAll (some e.number) e.children := by
  obtain ⟨number, name, attributes, text, children⟩ := e
  rw [starts]

theorem starts_withChild (parent : Option Nat) (e child : Element) :
    (e.withChild child).starts parent = e.starts parent ++ child.starts (some e.number) := by
  rw [starts_eq, starts_eq, withChild, startsAll_append, startsAll_singleton]
  rfl

/-- One more child pushes its value into an open element. -/
theorem opened_withChild (e child : Element) : (e.withChild child).opened =
    { e.opened with fields := Xml.pushField e.opened.fields child.name child.value } := by
  have hpush := Xml.pushAll_concat (Tree.fieldsOf e.attributes) (values e.children) child.name
    child.value
  rw [← values_concat] at hpush
  rw [opened, opened, ← hpush]
  rfl

theorem isSingle_value (e : Element) : Xml.IsSingle e.value := by
  obtain ⟨number, name, attributes, text, children⟩ := e
  rw [value]
  exact Xml.isSingle_elementValue _ _ _

/-- The names of elements are those under which they are started. -/
theorem values_keys {parent : Option Nat} {elements : List Element}
    (hnamed : ∀ start ∈ startsAll parent elements, Xml.isElementName start.name = true) :
    ∀ child ∈ values elements, Xml.isElementName child.1 = true ∧ Xml.IsSingle child.2 := by
  induction elements with
  | nil =>
    rw [values]
    nofun
  | cons e rest ih =>
    rw [startsAll, starts_eq] at hnamed
    rw [values]
    refine List.forall_mem_cons.2 ⟨⟨hnamed ⟨e.number, e.name, e.attributes, parent⟩ ?_,
      isSingle_value e⟩, ih fun start hstart ↦ hnamed start (List.mem_append_right _ hstart)⟩
    simp

end Element

theorem Tree.fieldsOf_keys (attributes : Attributes) :
    ∀ entry ∈ fieldsOf attributes, ∃ name, entry.1 = .text ("@" ++ name) := by
  intro entry hentry
  refine (forall_mem_mapOfEntries (P := fun key ↦ ∃ name, key = .text ("@" ++ name))
    (Q := fun _ ↦ True) ?_ entry hentry).1
  intro entry hentry
  obtain ⟨⟨name, content⟩, -, rfl⟩ := List.mem_map.1 hentry
  exact ⟨⟨name, rfl⟩, trivial⟩

/-- Closing an element gives it its value. -/
theorem Element.valueOf_opened {parent : Option Nat} {e : Element}
    (hnamed : ∀ start ∈ e.starts parent, Xml.isElementName start.name = true) :
    Tree.valueOf e.opened = e.value := by
  obtain ⟨number, name, attributes, text, children⟩ := e
  rw [starts] at hnamed
  rw [opened, value]
  exact Tree.valueOf_eq (Tree.fieldsOf_keys attributes)
    (values_keys fun start hstart ↦ hnamed start (List.mem_cons_of_mem _ hstart)) name text

/-! ### What a tree holds -/

/-- The elements that were started: the closed ones on the top level, then the open ones from the
outermost inward, each with the closed ones inside it. -/
def stackStarts (roots : List Element) : List Element → List Start
  | [] => Element.startsAll none roots
  | e :: outer => stackStarts roots outer ++ e.starts (outer.head?.map Element.number)

/-- The numbers and names of elements. -/
def labels (elements : List Element) : List (Nat × String) :=
  elements.map fun e ↦ (e.number, e.name)

namespace Tree

/-- Whether a tree holds open elements, the innermost first, over closed ones on the top level. -/
structure Holds (t : Tree) (inner roots : List Element) : Prop where
  /-- The open elements. -/
  elements : t.elements = inner.map Element.opened
  /-- The fields of the document. -/
  root : t.root = Xml.pushAll [] (Element.values roots)
  /-- All elements have names of elements. -/
  named : ∀ start ∈ stackStarts roots inner, Xml.isElementName start.name = true

variable {t : Tree} {inner outer roots : List Element} {e : Element}

theorem holds_empty : Holds ⟨[], []⟩ [] [] where
  elements := rfl
  root := by rw [Element.values]; rfl
  named := by
    rw [stackStarts, Element.startsAll]
    nofun

theorem attach_document (root : Xml.Fields) (name : String) (value : Plain) :
    Tree.attach ⟨[], root⟩ name value = ⟨[], Xml.pushField root name value⟩ := rfl

theorem attach_element (first : OpenElement) (outer : List OpenElement) (root : Xml.Fields)
    (name : String) (value : Plain) : Tree.attach ⟨first :: outer, root⟩ name value =
      ⟨{ first with fields := Xml.pushField first.fields name value } :: outer, root⟩ := rfl

theorem close_element (first : OpenElement) (outer : List OpenElement) (root : Xml.Fields) :
    Tree.close ⟨first :: outer, root⟩ = Tree.attach ⟨outer, root⟩ first.name (valueOf first) := rfl

/-- An attached element goes into the innermost open one, and counts as started there. -/
theorem Holds.attach (h : t.Holds inner roots)
    (hnamed : ∀ start ∈ e.starts (inner.head?.map Element.number),
      Xml.isElementName start.name = true) :
    ∃ inner' roots', (t.attach e.name e.value).Holds inner' roots' ∧ labels inner' = labels inner ∧
      stackStarts roots' inner' =
        stackStarts roots inner ++ e.starts (inner.head?.map Element.number) := by
  obtain ⟨elements, root⟩ := t
  obtain ⟨rfl, rfl, hall⟩ := h
  cases inner with
  | nil =>
    have hstarts : stackStarts (roots ++ [e]) [] = stackStarts roots [] ++ e.starts none := by
      rw [stackStarts, stackStarts, Element.startsAll_append, Element.startsAll_singleton]
    refine ⟨[], roots ++ [e], ⟨rfl, ?_, ?_⟩, rfl, hstarts⟩
    · rw [Element.values_concat, Xml.pushAll_concat, List.map_nil, attach_document]
    · rw [hstarts]
      exact List.forall_mem_append.2 ⟨hall, hnamed⟩
  | cons first outer =>
    have hstarts : stackStarts roots (first.withChild e :: outer) =
        stackStarts roots (first :: outer) ++ e.starts (some first.number) := by
      rw [stackStarts, stackStarts, Element.starts_withChild, List.append_assoc]
    refine ⟨first.withChild e :: outer, roots, ⟨?_, rfl, ?_⟩, rfl, hstarts⟩
    · rw [List.map_cons, List.map_cons, attach_element, Element.opened_withChild]
    · rw [hstarts]
      exact List.forall_mem_append.2 ⟨hall, hnamed⟩

/-- Closing the innermost element leaves it among the started ones where it was. -/
theorem Holds.close (h : t.Holds (e :: outer) roots) :
    ∃ inner' roots', t.close.Holds inner' roots' ∧ labels inner' = labels outer ∧
      stackStarts roots' inner' = stackStarts roots (e :: outer) := by
  obtain ⟨elements, root⟩ := t
  obtain ⟨rfl, rfl, hall⟩ := h
  obtain ⟨houter, hnamed⟩ := List.forall_mem_append.1 hall
  obtain ⟨inner', roots', hholds, hlabels, hstarts⟩ := Holds.attach
    (t := ⟨outer.map Element.opened, Xml.pushAll [] (Element.values roots)⟩) ⟨rfl, rfl, houter⟩ hnamed
  refine ⟨inner', roots', ?_, hlabels, hstarts⟩
  rw [List.map_cons, close_element, Element.valueOf_opened hnamed]
  exact hholds

/-- Closing as many elements as are open, or fewer. -/
theorem Holds.closeMany (h : t.Holds inner roots) {count : Nat} (hcount : count ≤ inner.length) :
    ∃ inner' roots', (t.closeMany count).Holds inner' roots' ∧
      labels inner' = (labels inner).drop count ∧
      stackStarts roots' inner' = stackStarts roots inner := by
  induction count generalizing t inner roots with
  | zero => exact ⟨inner, roots, h, rfl, rfl⟩
  | succ count ih =>
    cases inner with
    | nil => exact absurd hcount (Nat.not_succ_le_zero count)
    | cons e outer =>
      obtain ⟨next, nextRoots, hnext, hlabels, hstarts⟩ := h.close
      have hlength : count ≤ next.length := by
        have hsame := congrArg List.length hlabels
        simp only [labels, List.length_map, List.length_cons] at hsame hcount
        omega
      obtain ⟨inner', roots', hholds, hinner, hsame⟩ := ih hnext hlength
      refine ⟨inner', roots', hholds, ?_, hsame.trans hstarts⟩
      rw [hinner, hlabels]
      rfl

/-- An element without content has the value of an element without children and text. -/
theorem attachEmpty_eq (t : Tree) (number : Nat) (name : String) (attributes : Attributes) :
    t.attachEmpty name attributes =
      t.attach name (Element.value ⟨number, name, attributes, [], []⟩) := by
  have hvalue : Element.value ⟨number, name, attributes, [], []⟩ =
      if (fieldsOf attributes).isEmpty then .null else .map (fieldsOf attributes) := by
    rw [Element.value, Element.values, Xml.elementValue]
    simp [Xml.gathered, trim, trimEndBy, trimStartBy]
  rw [attachEmpty, hvalue]
  cases attributes with
  | nil => rfl
  | cons first rest =>
    have hne : fieldsOf (first :: rest) ≠ [] := mapOfEntries_ne_nil (List.cons_ne_nil _ _)
    rw [List.isEmpty_cons, List.isEmpty_eq_false_iff.2 hne]

/-! ### The run -/

/-- Dropping up to the first of a sort drops as many as its position tells. -/
theorem drop_dropWhile_of_findIdx? {α : Type} {p : α → Bool} {l : List α} {i : Nat}
    (h : l.findIdx? p = some i) : (l.dropWhile fun a ↦ !p a).drop 1 = l.drop (i + 1) := by
  induction l generalizing i with
  | nil => cases h
  | cons a rest ih =>
    rw [List.findIdx?_cons] at h
    by_cases ha : p a = true
    · rw [if_pos ha] at h
      obtain rfl := Option.some.inj h
      simp [ha]
    · rw [if_neg ha] at h
      obtain ⟨j, hj, rfl⟩ := Option.map_eq_some_iff.1 h
      simp [ha, ih hj]

/-- An element without content is attached where it starts. -/
theorem Holds.attachEmpty (h : t.Holds inner roots) (number : Nat) {name : String}
    (hname : Xml.isElementName name = true) (attributes : Attributes) :
    ∃ inner' roots', (t.attachEmpty name attributes).Holds inner' roots' ∧
      labels inner' = labels inner ∧ stackStarts roots' inner' =
        stackStarts roots inner ++ [⟨number, name, attributes, inner.head?.map Element.number⟩] := by
  have hstarts (parent : Option Nat) : Element.starts parent ⟨number, name, attributes, [], []⟩ =
      [⟨number, name, attributes, parent⟩] := by
    rw [Element.starts, Element.startsAll]
  rw [attachEmpty_eq t number, ← hstarts]
  refine h.attach (e := ⟨number, name, attributes, [], []⟩) fun start hstart ↦ ?_
  rw [hstarts] at hstart
  rw [List.mem_singleton.1 hstart]
  exact hname

/-- A tag opens its element inside the innermost one. -/
theorem Holds.push (h : t.Holds inner roots) (number : Nat) {name : String}
    (hname : Xml.isElementName name = true) (attributes : Attributes) :
    Holds { t with elements := ⟨name, fieldsOf attributes, []⟩ :: t.elements }
        (⟨number, name, attributes, [], []⟩ :: inner) roots ∧
      stackStarts roots (⟨number, name, attributes, [], []⟩ :: inner) =
        stackStarts roots inner ++ [⟨number, name, attributes, inner.head?.map Element.number⟩] := by
  have hstarts : stackStarts roots (⟨number, name, attributes, [], []⟩ :: inner) =
      stackStarts roots inner ++ [⟨number, name, attributes, inner.head?.map Element.number⟩] := by
    rw [stackStarts, Element.starts, Element.startsAll]
  refine ⟨⟨?_, h.root, ?_⟩, hstarts⟩
  · rw [h.elements, List.map_cons, Element.opened, Element.values]
    rfl
  · rw [hstarts]
    exact List.forall_mem_append.2 ⟨h.named, List.forall_mem_singleton.2 hname⟩

/-- An end tag closes as many elements as its name tells. -/
theorem Holds.endTag (h : t.Holds inner roots) (number : Nat) (name : String) :
    ∃ inner' roots', (t.add (.endTag name)).Holds inner' roots' ∧
      labels inner' = openBehind number (labels inner) (.endTag name) ∧
      stackStarts roots' inner' = stackStarts roots inner := by
  have hfind : t.elements.findIdx? (fun e ↦ e.name == name) =
      (labels inner).findIdx? fun e ↦ e.2 == name := by
    rw [h.elements, labels, List.findIdx?_map, List.findIdx?_map]
    rfl
  rw [add, openBehind]
  cases hposition : (labels inner).findIdx? fun e ↦ e.2 == name with
  | none =>
    rw [hfind, hposition]
    have habsent : name ∉ (labels inner).map Prod.snd := by
      intro hmem
      obtain ⟨e, he, rfl⟩ := List.mem_map.1 hmem
      have hother := List.findIdx?_eq_none_iff.1 hposition e he
      rw [beq_self_eq_true] at hother
      cases hother
    exact ⟨inner, roots, h, (if_neg habsent).symm, rfl⟩
  | some i =>
    rw [hfind, hposition]
    obtain ⟨hi, hname, -⟩ := List.findIdx?_eq_some_iff_getElem.1 hposition
    have hmem : name ∈ (labels inner).map Prod.snd :=
      List.mem_map.2 ⟨_, List.getElem_mem hi, beq_iff_eq.1 hname⟩
    have hcount : i + 1 ≤ inner.length := Nat.succ_le_of_lt (by simpa [labels] using hi)
    obtain ⟨inner', roots', hholds, hlabels, hstarts⟩ := h.closeMany hcount
    refine ⟨inner', roots', hholds, ?_, hstarts⟩
    rw [hlabels, if_pos hmem]
    exact (drop_dropWhile_of_findIdx? hposition).symm

/-- Text goes into the innermost open element. -/
theorem Holds.addText (h : t.Holds inner roots) (content : List Char) :
    ∃ inner', (t.addText content).Holds inner' roots ∧ labels inner' = labels inner ∧
      stackStarts roots inner' = stackStarts roots inner := by
  obtain ⟨elements, root⟩ := t
  obtain ⟨rfl, rfl, hall⟩ := h
  cases inner with
  | nil => exact ⟨[], ⟨rfl, rfl, hall⟩, rfl, rfl⟩
  | cons first outer =>
    have hstarts : stackStarts roots ({ first with text := first.text ++ content } :: outer) =
        stackStarts roots (first :: outer) := by
      rw [stackStarts, stackStarts, Element.starts_eq, Element.starts_eq]
    exact ⟨{ first with text := first.text ++ content } :: outer, ⟨rfl, rfl, hstarts ▸ hall⟩, rfl,
      hstarts⟩

/-- One piece keeps what is started, with what it starts itself at the end. -/
theorem Holds.add (h : t.Holds inner roots) {piece : Piece} (hnamed : piece.isNamed = true)
    (number : Nat) :
    ∃ inner' roots', (t.add piece).Holds inner' roots' ∧
      labels inner' = openBehind number (labels inner) piece ∧
      stackStarts roots' inner' =
        stackStarts roots inner ++ (piece.start? number (labels inner)).toList := by
  have hparent : (labels inner).head?.map Prod.fst = inner.head?.map Element.number := by
    cases inner <;> rfl
  cases piece with
  | startTag name attributes =>
    rw [Tree.add, openBehind, Piece.start?, hparent]
    by_cases hvoid : voidElements.contains name = true
    · rw [if_pos hvoid, if_pos hvoid]
      exact h.attachEmpty number hnamed attributes
    · rw [if_neg hvoid, if_neg hvoid]
      obtain ⟨hholds, hstarts⟩ := h.push number hnamed attributes
      exact ⟨_, roots, hholds, rfl, hstarts⟩
  | emptyTag name attributes =>
    rw [Tree.add, Piece.start?, hparent]
    exact h.attachEmpty number hnamed attributes
  | endTag name =>
    obtain ⟨inner', roots', hholds, hlabels, hstarts⟩ := h.endTag number name
    exact ⟨inner', roots', hholds, hlabels, hstarts.trans (List.append_nil _).symm⟩
  | text content =>
    obtain ⟨inner', hholds, hlabels, hstarts⟩ := h.addText content
    exact ⟨inner', roots, hholds, hlabels, hstarts.trans (List.append_nil _).symm⟩

/-- A run of pieces keeps what is started, with what the pieces start in order. -/
theorem Holds.foldl_add (h : t.Holds inner roots) {pieces : List Piece}
    (hnamed : ∀ piece ∈ pieces, piece.isNamed = true) (number : Nat) :
    ∃ inner' roots', (pieces.foldl Tree.add t).Holds inner' roots' ∧
      stackStarts roots' inner' =
        stackStarts roots inner ++ startsOf number (labels inner) pieces := by
  induction pieces generalizing t inner roots number with
  | nil => exact ⟨inner, roots, h, (List.append_nil _).symm⟩
  | cons piece rest ih =>
    obtain ⟨hpiece, hrest⟩ := List.forall_mem_cons.1 hnamed
    obtain ⟨next, nextRoots, hnext, hlabels, hstarts⟩ := h.add hpiece number
    obtain ⟨inner', roots', hholds, hall⟩ := ih hnext hrest (number + 1)
    refine ⟨inner', roots', hholds, ?_⟩
    rw [hall, hstarts, hlabels, startsOf, List.append_assoc]

end Tree

/-! ### The number of elements -/

namespace Element

mutual

/-- The value of an element counts it and all elements inside it. -/
theorem valueCount_value : ∀ (e : Element) (parent : Option Nat),
    (∀ start ∈ e.starts parent, Xml.isElementName start.name = true) →
      Xml.valueCount e.value = (e.starts parent).length
  | ⟨number, name, attributes, text, children⟩, parent, hnamed => by
    rw [starts] at hnamed ⊢
    have hinside : ∀ start ∈ startsAll (some number) children,
        Xml.isElementName start.name = true := fun start hstart ↦
      hnamed start (List.mem_cons_of_mem _ hstart)
    rw [value, Xml.valueCount_elementValue (Tree.fieldsOf_keys attributes) (values_keys hinside),
      sum_valueCount children (some number) hinside, List.length_cons, Nat.add_comm]

/-- The values of elements count these and all elements inside them. -/
theorem sum_valueCount : ∀ (elements : List Element) (parent : Option Nat),
    (∀ start ∈ startsAll parent elements, Xml.isElementName start.name = true) →
      ((values elements).map fun child ↦ Xml.valueCount child.2).sum =
        (startsAll parent elements).length
  | [], parent, _ => by
    rw [values, startsAll]
    rfl
  | e :: rest, parent, hnamed => by
    rw [startsAll] at hnamed ⊢
    obtain ⟨hfirst, hrest⟩ := List.forall_mem_append.1 hnamed
    rw [values, List.map_cons, List.sum_cons, valueCount_value e parent hfirst,
      sum_valueCount rest parent hrest, List.length_append]

end

end Element

/-! ### The stack -/

/-- The stack of a tree: the open elements, the innermost first, over the document. -/
def Tree.stack (t : Tree) : List OpenElement :=
  t.elements ++ [⟨"#document", t.root, []⟩]

/-- Takes the top off a stack and pushes its value into the fields of what is below. The bottom of a
stack is not taken off. -/
def pop? : List OpenElement → Option (List OpenElement)
  | top :: below :: rest =>
    some ({ below with fields := Xml.pushField below.fields top.name (Tree.valueOf top) } :: rest)
  | _ => none

/-- Whether a stack comes from another one by taking elements off its top. -/
def Pops : List OpenElement → List OpenElement → Prop :=
  Relation.ReflTransGen fun stack rest ↦ pop? stack = some rest

namespace Tree

variable {t : Tree}

theorem pop?_stack (h : t.elements ≠ []) : pop? t.stack = some t.close.stack := by
  obtain ⟨elements, root⟩ := t
  match elements, h with
  | [top], _ => rfl
  | top :: below :: rest, _ => rfl

theorem length_close (t : Tree) : t.close.elements.length = t.elements.length - 1 := by
  obtain ⟨elements, root⟩ := t
  match elements with
  | [] => rfl
  | [top] => rfl
  | top :: below :: rest => rfl

/-- Closing as many elements as are open, or fewer, takes them off the stack. -/
theorem pops_closeMany {count : Nat} (h : count ≤ t.elements.length) :
    Pops t.stack (t.closeMany count).stack ∧
      (t.closeMany count).elements.length = t.elements.length - count := by
  induction count generalizing t with
  | zero => exact ⟨.refl, rfl⟩
  | succ count ih =>
    have hne : t.elements ≠ [] := List.ne_nil_of_length_pos (Nat.lt_of_lt_of_le (Nat.succ_pos _) h)
    have hlength := length_close t
    obtain ⟨hpops, hleft⟩ := ih (t := t.close) (by omega)
    refine ⟨.head (pop?_stack hne) hpops, ?_⟩
    show (t.close.closeMany count).elements.length = _
    omega

/-- An end tag takes open elements off the stack, and nothing else. -/
theorem pops_endTag (t : Tree) (name : String) : Pops t.stack (t.add (.endTag name)).stack := by
  rw [add]
  split
  · rename_i inside hfound
    obtain ⟨hinside, -⟩ := List.findIdx?_eq_some_iff_getElem.1 hfound
    exact (pops_closeMany (Nat.succ_le_of_lt hinside)).1
  · exact .refl

end Tree

/-! ### What is built -/

section Building

variable {pieces : List Piece}

/-- Pieces build a forest of the elements that they start. -/
theorem exists_forest (hnamed : ∀ piece ∈ pieces, piece.isNamed = true) :
    ∃ forest : List Element, build pieces = Xml.pushAll [] (Element.values forest) ∧
      Element.startsAll none forest = startsOf 0 [] pieces ∧
      ∀ start ∈ Element.startsAll none forest, Xml.isElementName start.name = true := by
  obtain ⟨inner, roots, hrun, hstarts⟩ := Tree.holds_empty.foldl_add hnamed 0
  have hlength : (pieces.foldl Tree.add ⟨[], []⟩).elements.length = inner.length := by
    rw [hrun.elements, List.length_map]
  obtain ⟨left, forest, hclosed, hlabels, hsame⟩ := hrun.closeMany (Nat.le_refl inner.length)
  have hleft : left = [] := by
    refine List.map_eq_nil_iff.1 (hlabels.trans (List.drop_eq_nil_of_le ?_))
    rw [labels, List.length_map]
  subst hleft
  have hnone : stackStarts [] [] = [] := by rw [stackStarts, Element.startsAll]
  refine ⟨forest, ?_, ?_, hclosed.named⟩
  · rw [← hclosed.root, build, hlength]
  · rw [← List.nil_append (startsOf 0 [] pieces), ← hnone]
    exact hsame.trans hstarts

/-- What pieces build counts all elements that they start. -/
theorem elementCount_build (hnamed : ∀ piece ∈ pieces, piece.isNamed = true) :
    Xml.elementCount (build pieces) = (pieces.filter Piece.isStart).length := by
  obtain ⟨forest, hbuild, hstarts, hall⟩ := exists_forest hnamed
  rw [hbuild, Xml.elementCount_pushAll fun child hchild ↦ (Element.values_keys hall child hchild).1,
    Element.sum_valueCount forest none hall, hstarts, length_startsOf, Xml.elementCount,
    Nat.zero_add]

/-- At the end all open elements are taken off the stack, down to the document. -/
theorem pops_build (pieces : List Piece) :
    Pops (pieces.foldl Tree.add ⟨[], []⟩).stack [⟨"#document", build pieces, []⟩] := by
  let t := pieces.foldl Tree.add ⟨[], []⟩
  obtain ⟨hpops, hlength⟩ := Tree.pops_closeMany (Nat.le_refl t.elements.length)
  have hnone : (t.closeMany t.elements.length).elements = [] := by
    rwa [Nat.sub_self, List.length_eq_zero_iff] at hlength
  have hstack : (t.closeMany t.elements.length).stack = [⟨"#document", build pieces, []⟩] := by
    rw [Tree.stack, hnone]
    rfl
  rwa [hstack] at hpops

/-- Whatever order pieces come in, what they build is a forest of the elements that they start, each
under the element that was innermost open, and counts all of them. Each end tag takes elements off the
stack above the document only, and so does the end of the pieces. -/
theorem build_keeps_elements (hnamed : ∀ piece ∈ pieces, piece.isNamed = true) :
    (∃ forest : List Element, build pieces = Xml.gathered (Element.values forest) ∧
      Element.startsAll none forest = startsOf 0 [] pieces) ∧
    (startsOf 0 [] pieces).Pairwise (fun first second ↦ first.number < second.number) ∧
    Xml.elementCount (build pieces) = (pieces.filter Piece.isStart).length ∧
    (∀ (before : List Piece) (name : String),
      Pops (before.foldl Tree.add ⟨[], []⟩).stack
        ((before ++ [Piece.endTag name]).foldl Tree.add ⟨[], []⟩).stack) ∧
    Pops (pieces.foldl Tree.add ⟨[], []⟩).stack [⟨"#document", build pieces, []⟩] := by
  obtain ⟨forest, hbuild, hstarts, hall⟩ := exists_forest hnamed
  have hgathered : Xml.pushAll [] (Element.values forest) = Xml.gathered (Element.values forest) := by
    rw [Xml.pushAll_eq (fun entry hentry ↦ absurd hentry List.not_mem_nil) fun child hchild ↦
      (Element.values_keys hall child hchild).2, List.nil_append]
  refine ⟨⟨forest, hbuild.trans hgathered, hstarts⟩, pairwise_startsOf 0 [] pieces,
    elementCount_build hnamed, fun before name ↦ ?_, pops_build pieces⟩
  rw [List.foldl_concat]
  exact Tree.pops_endTag _ name

/-- A list with an element that is closed from outside, an end tag of an element that has no content,
an end tag that nothing is open for, and elements that stay open. -/
def tangledList : List Piece :=
  [.startTag "ul" [("hidden", none)], .startTag "li" [], .startTag "br" [], .endTag "br",
    .startTag "b" [], .text "one".toList, .endTag "li", .emptyTag "li" [("id", some "two")], .endTag "p",
    .startTag "li" [], .text " three ".toList]

theorem build_keeps_elements_tangledList :
    (∀ piece ∈ tangledList, piece.isNamed = true) ∧
    build tangledList = [(.text "ul", .map [(.text "@hidden", .text ""),
      (.text "li", .list [.map [(.text "br", .null), (.text "b", .text "one")],
        .map [(.text "@id", .text "two")], .text "three"])])] ∧
    Xml.elementCount (build tangledList) = 6 := by
  have hnamed : ∀ piece ∈ tangledList, piece.isNamed = true := by decide
  obtain ⟨-, -, hcount, -⟩ := build_keeps_elements hnamed
  exact ⟨hnamed, rfl, hcount⟩

end Building

end ResourceScript.Html
