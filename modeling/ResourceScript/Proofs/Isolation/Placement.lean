import Mathlib.Data.Finset.Card
import Mathlib.Order.Hom.Basic
import ResourceScript.Access
/-!
# A store within a world

The containers, resources and scopes that belong together, those of one session for instance, make
up a store of their own. In a world with others they stand at other positions. A placement tells
where: it carries positions of the own store to positions of the world, and so values of one to
values of the other. A store holds an own store by a placement when it has the images of its entries
at the images of their positions, what the world around has everywhere else, and puts new entries
where the placement expects them (`Placement.Holds`).

The relation is kept when the stores are changed alike: by new entries, and by the replacement of an
entry at corresponding positions.
-/

set_option autoImplicit false

namespace ResourceScript

/-! ### Tables -/

/-- Whether a table holds the images of the entries of an own table at the images of their
positions, and elsewhere what a table around holds. New entries of both tables are at corresponding
positions. -/
structure IsTable {α : Type} (place : Nat ↪ Nat) (move : α → α) (around own whole : Array α) :
    Prop where
  entry : ∀ n, whole[place n]? = own[n]?.map move
  fresh : ∀ i, place (own.size + i) = whole.size + i
  elsewhere : ∀ n, (∀ m, place m ≠ n) → whole[n]? = around[n]?

namespace IsTable

variable {α : Type} {place : Nat ↪ Nat} {move : α → α} {around own whole : Array α}

theorem place_size (h : IsTable place move around own whole) : place own.size = whole.size :=
  h.fresh 0

theorem lt_size_iff (h : IsTable place move around own whole) (n : Nat) :
    place n < whole.size ↔ n < own.size := by
  have hsome : (whole[place n]?).isSome ↔ (own[n]?).isSome := by
    rw [h.entry, Option.isSome_map]
  simpa using hsome

/-- The own table is not larger. -/
theorem size_le (h : IsTable place move around own whole) : own.size ≤ whole.size := by
  have hmaps : Set.MapsTo place (Finset.range own.size) (Finset.range whole.size) := fun n hn ↦ by
    simpa [h.lt_size_iff] using hn
  simpa using Finset.card_le_card_of_injOn place hmaps (place.injective.injOn)

theorem getD (h : IsTable place move around own whole) {default : α}
    (hdefault : move default = default) (n : Nat) :
    whole.getD (place n) default = move (own.getD n default) := by
  rw [Array.getD_eq_getD_getElem?, Array.getD_eq_getD_getElem?, h.entry]
  conv => lhs; rw [← hdefault]
  exact Option.getD_map move default own[n]?

theorem push (h : IsTable place move around own whole) (a : α) :
    IsTable place move around (own.push a) (whole.push (move a)) where
  entry n := by
    simp only [Array.getElem?_push, ← h.place_size, place.apply_eq_iff_eq]
    split_ifs with hn
    · rfl
    · exact h.entry n
  fresh i := by
    rw [Array.size_push, Array.size_push, Nat.add_assoc, Nat.add_assoc]
    exact h.fresh (1 + i)
  elsewhere n hn := by
    have hsize : n ≠ whole.size := fun heq ↦ hn own.size (h.place_size.trans heq.symm)
    rw [Array.getElem?_push, if_neg hsize]
    exact h.elsewhere n hn

theorem set (h : IsTable place move around own whole) (n : Nat) (a : α) :
    IsTable place move around (own.setIfInBounds n a)
      (whole.setIfInBounds (place n) (move a)) where
  entry m := by
    simp only [Array.getElem?_setIfInBounds, place.apply_eq_iff_eq, h.lt_size_iff]
    split_ifs
    · rfl
    · rfl
    · exact h.entry m
  fresh i := by
    rw [Array.size_setIfInBounds, Array.size_setIfInBounds]
    exact h.fresh i
  elsewhere m hm := by
    rw [Array.getElem?_setIfInBounds, if_neg (hm n)]
    exact h.elsewhere m hm

end IsTable

/-! ### Placements -/

/-- Where the entries of an own store are in a world: its containers, the resources made by running,
its scopes, and the numbers of its resources of source text. A scope that is younger than another
stays younger. -/
structure Placement where
  /-- What the world holds besides. -/
  around : World
  /-- The positions of containers. -/
  cell : Nat ↪ Nat
  /-- The positions of resources made by running. -/
  made : Nat ↪ Nat
  /-- The positions of scopes. -/
  scope : Nat ↪o Nat
  /-- The numbers of resources of source text. -/
  written : Nat ↪ Nat

namespace Placement

variable (P : Placement)

/-- The image of a resource. -/
def resource : ResourceRef → ResourceRef
  | .made n => .made (P.made n)
  | .written n text uri => .written (P.written n) text uri

mutual

/-- The image of a value. -/
def value : Value → Value
  | .atom a => .atom a
  | .tuple items => .tuple (values items)
  | .frozen items => .frozen (values items)
  | .call f params => .call f (values params)
  | .cell n => .cell (P.cell n)
  | .resource r => .resource (P.resource r)
  | .scope n => .scope (P.scope n)

/-- The images of values. -/
def values : List Value → List Value
  | [] => []
  | v :: rest => value v :: values rest

end

/-- The image of an entry. -/
def entry (e : Value × Value) : Value × Value :=
  (P.value e.1, P.value e.2)

/-- The image of a field. -/
def field (f : String × Value) : String × Value :=
  (f.1, P.value f.2)

/-- The image of the content of a container. -/
def content : Cell → Cell
  | .list items => .list (items.map P.value)
  | .map entries => .map (entries.map P.entry)
  | .page entries source => .page (entries.map P.entry) source
  | .set items => .set (items.map P.value)
  | .side which owner => .side which (P.cell owner)
  | .buffer bytes => .buffer bytes
  | .object info fields => .object info (fields.map P.field)

/-- The image of what a resource was made from. -/
def record (r : ResourceRecord) : ResourceRecord :=
  { r with source := P.value r.source }

/-- The image of a scope. -/
def frame (s : Scope) : Scope :=
  ⟨s.parent.map P.scope, s.constants.map P.entry, s.changeable.map P.entry,
    s.arguments.map P.value⟩

/-- The image of a reference. -/
def reference : Ref → Ref
  | .cell n => .cell (P.cell n)
  | .resource r => .resource (P.resource r)
  | .scope n => .scope (P.scope n)

section

@[simp] theorem values_eq_map (items : List Value) : P.values items = items.map P.value := by
  induction items with
  | nil => rfl
  | cons v rest ih => exact congrArg (P.value v :: ·) ih

@[simp] theorem value_atom (a : Atom) : P.value (.atom a) = .atom a := rfl

@[simp] theorem value_tuple (items : List Value) :
    P.value (.tuple items) = .tuple (items.map P.value) :=
  congrArg Value.tuple (P.values_eq_map items)

@[simp] theorem value_frozen (items : List Value) :
    P.value (.frozen items) = .frozen (items.map P.value) :=
  congrArg Value.frozen (P.values_eq_map items)

@[simp] theorem value_call (f : Option Function) (params : List Value) :
    P.value (.call f params) = .call f (params.map P.value) :=
  congrArg (Value.call f) (P.values_eq_map params)

@[simp] theorem value_cell (n : Nat) : P.value (.cell n) = .cell (P.cell n) := rfl

@[simp] theorem value_resource (r : ResourceRef) :
    P.value (.resource r) = .resource (P.resource r) := rfl

@[simp] theorem value_scope (n : Nat) : P.value (.scope n) = .scope (P.scope n) := rfl

@[simp] theorem isNull_value (v : Value) : (P.value v).isNull = v.isNull := by
  cases v <;> simp [Value.isNull]

@[simp] theorem value_ofNumber (n : Number) : P.value (.ofNumber n) = .ofNumber n := by
  cases n <;> exact P.value_atom _

@[simp] theorem entry_fst (e : Value × Value) : (P.entry e).1 = P.value e.1 := rfl

@[simp] theorem entry_snd (e : Value × Value) : (P.entry e).2 = P.value e.2 := rfl

@[simp] theorem map_fst_map_entry (entries : List (Value × Value)) :
    (entries.map P.entry).map Prod.fst = (entries.map Prod.fst).map P.value := by
  simp [Function.comp_def]

@[simp] theorem entries?_content (c : Cell) :
    (P.content c).entries? = c.entries?.map (List.map P.entry) := by
  cases c <;> rfl

@[simp] theorem record_uri (r : ResourceRecord) : (P.record r).uri = r.uri := rfl

@[simp] theorem record_mimetype (r : ResourceRecord) : (P.record r).mimetype = r.mimetype := rfl

theorem resource_injective : Function.Injective P.resource := by
  rintro (n | ⟨n, text, uri⟩) (m | ⟨m, text', uri'⟩) h
  · exact congrArg _ (P.made.injective (ResourceRef.made.inj h))
  · cases h
  · cases h
  · obtain ⟨hnm, rfl, rfl⟩ := ResourceRef.written.inj h
    rw [P.written.injective hnm]

@[simp] theorem reference_cell (n : Nat) : P.reference (.cell n) = .cell (P.cell n) := rfl

@[simp] theorem reference_resource (r : ResourceRef) :
    P.reference (.resource r) = .resource (P.resource r) := rfl

@[simp] theorem reference_scope (n : Nat) : P.reference (.scope n) = .scope (P.scope n) := rfl

theorem reference_injective : Function.Injective P.reference := by
  rintro (n | r | n) (m | q | m) h <;> try cases h
  · exact congrArg _ (P.cell.injective (Ref.cell.inj h))
  · exact congrArg _ (P.resource_injective (Ref.resource.inj h))
  · exact congrArg _ (P.scope.injective (Ref.scope.inj h))

end

/-! ### Stores -/

/-- Whether a table of changed resources of source text holds the images of the changes of an own
one, and elsewhere what the world around has. A resource of source text is made from a text. -/
structure HoldsRewritten (own whole : List (Nat × ResourceRecord)) : Prop where
  entry : ∀ n, whole.lookup (P.written n) = (own.lookup n).map P.record
  text : ∀ n record, own.lookup n = some record → ∃ text, record.source = .text text
  elsewhere : ∀ n, (∀ m, P.written m ≠ n) → whole.lookup n = P.around.store.rewritten.lookup n

/-- Whether a store holds an own store by a placement, and elsewhere what the world around has. -/
structure Holds (own whole : Store) : Prop where
  cells : IsTable P.cell P.content P.around.store.cells own.cells whole.cells
  resources : IsTable P.made P.record P.around.store.resources own.resources whole.resources
  scopes : IsTable P.scope.toEmbedding P.frame P.around.store.scopes own.scopes whole.scopes
  rewritten : P.HoldsRewritten own.rewritten whole.rewritten

namespace Holds

variable {P} {own whole : Store}

theorem cell (h : P.Holds own whole) (n : Nat) :
    whole.cell (P.cell n) = P.content (own.cell n) :=
  h.cells.getD rfl n

theorem sideOf (h : P.Holds own whole) (which : MapSide) (n : Nat) :
    whole.sideOf which (P.cell n) = (own.sideOf which n).map P.value := by
  have hof (e : Value × Value) : which.of (P.entry e) = P.value (which.of e) := by
    cases which <;> simp [MapSide.of, entry]
  unfold Store.sideOf
  rw [h.cell, entries?_content]
  cases (own.cell n).entries? with
  | none => rfl
  | some entries => simp [Function.comp_def, hof]

theorem scope (h : P.Holds own whole) (n : Nat) :
    whole.scope (P.scope n) = P.frame (own.scope n) :=
  h.scopes.getD rfl n

theorem resource (h : P.Holds own whole) (r : ResourceRef) :
    whole.resource (P.resource r) = P.record (own.resource r) := by
  cases r with
  | made n => exact h.resources.getD (by simp [record]) n
  | written n text uri =>
    show (whole.rewritten.lookup (P.written n)).getD _ =
      P.record ((own.rewritten.lookup n).getD _)
    rw [h.rewritten.entry]
    cases own.rewritten.lookup n with
    | none => simp [record]
    | some r => rfl

/-! ### Changes -/

theorem addCell (h : P.Holds own whole) (c : Cell) :
    P.Holds (own.addCell c).1 (whole.addCell (P.content c)).1 :=
  { h with cells := h.cells.push c }

theorem setCell (h : P.Holds own whole) (n : Nat) (c : Cell) :
    P.Holds (own.setCell n c) (whole.setCell (P.cell n) (P.content c)) :=
  { h with cells := h.cells.set n c }

theorem addResource (h : P.Holds own whole) (r : ResourceRecord) :
    P.Holds (own.addResource r).1 (whole.addResource (P.record r)).1 :=
  { h with resources := h.resources.push r }

theorem setScope (h : P.Holds own whole) (n : Nat) (s : Scope) :
    P.Holds (own.setScope n s) (whole.setScope (P.scope n) (P.frame s)) :=
  { h with scopes := h.scopes.set n s }

/-- A resource of source text stays made from a text. -/
theorem setResource (h : P.Holds own whole) (r : ResourceRef) (record : ResourceRecord)
    (hsource : record.source = (own.resource r).source) :
    P.Holds (own.setResource r record) (whole.setResource (P.resource r) (P.record record)) := by
  cases r with
  | made n => exact { h with resources := h.resources.set n record }
  | written n text uri =>
    have hwritten : P.HoldsRewritten ((n, record) :: own.rewritten)
        ((P.written n, P.record record) :: whole.rewritten) :=
      { entry := fun m ↦ by
          by_cases hm : m = n
          · subst hm
            simp
          · have himage : P.written m ≠ P.written n := fun heq ↦ hm (P.written.injective heq)
            simp only [List.lookup_cons, beq_false_of_ne hm, beq_false_of_ne himage]
            exact h.rewritten.entry m
        text := fun m other hother ↦ by
          by_cases hm : m = n
          · subst hm
            obtain rfl : record = other := by simpa [List.lookup_cons] using hother
            rw [hsource]
            show ∃ t, ((own.rewritten.lookup m).getD _).source = _
            cases hlookup : own.rewritten.lookup m with
            | none => exact ⟨text, rfl⟩
            | some before => exact h.rewritten.text m before hlookup
          · simp only [List.lookup_cons, beq_false_of_ne hm] at hother
            exact h.rewritten.text m other hother
        elsewhere := fun m hm ↦ by
          simp only [List.lookup_cons, beq_false_of_ne (hm n).symm]
          exact h.rewritten.elsewhere m hm }
    exact { h with rewritten := hwritten }

end Holds

end Placement

end ResourceScript
