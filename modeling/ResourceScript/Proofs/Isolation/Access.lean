import ResourceScript.Proofs.Isolation.Follows
/-!
# Access to a placed store

Scopes, containers and plain data at images of positions are read and changed as those of the own
store are. What an access answers is the image of what the own access answers, and a store that held
the own one before holds it afterwards (`Placement.Holds.putValue` and its companions), so the tasks
that access the store follow one another.
-/

set_option autoImplicit false

namespace ResourceScript

namespace Placement

variable {P : Placement} {own whole : Store}

/-! ### Kinds and parts -/

@[simp] theorem map_value_byteValues (bytes : List UInt8) :
    (Store.byteValues bytes).map P.value = Store.byteValues bytes := by
  simp [Store.byteValues]

@[simp] theorem map_value_map_text (texts : List String) :
    (texts.map Value.text).map P.value = texts.map Value.text := by
  simp

@[simp] theorem byte?_value (v : Value) : Store.byte? (P.value v) = Store.byte? v := by
  cases v <;> simp [Store.byte?]

namespace Holds

section

variable (h : P.Holds own whole)

include h

theorem kindOf (v : Value) : whole.kindOf (P.value v) = own.kindOf v := by
  cases v with
  | cell n =>
    simp only [value_cell, Store.kindOf, h.cell]
    cases own.cell n <;> rfl
  | _ => simp [Store.kindOf]

theorem entries? (v : Value) :
    whole.entries? (P.value v) = (own.entries? v).map (List.map P.entry) := by
  cases v with
  | cell n => simp only [value_cell, Store.entries?, h.cell, entries?_content]
  | scope n => simp only [value_scope, Store.entries?, h.visible, Option.map_some]
  | _ => simp [Store.entries?]

theorem elements? (v : Value) :
    whole.elements? (P.value v) = (own.elements? v).map (List.map P.value) := by
  cases v with
  | cell n =>
    simp only [value_cell, Store.elements?, h.cell]
    cases own.cell n with
    | side which owner => simp [content, h.sideOf]
    | _ => simp [content]
  | atom a => cases a <;> simp [Store.elements?, Function.comp_def]
  | _ => simp [Store.elements?]

/-! ### Reading by key -/

theorem getEntry (entries : List (Value × Value)) (key : String) :
    whole.getEntry (entries.map P.entry) key = (own.getEntry entries key).map P.value := by
  have hfind (k : Atom) : findEntry whole.same (.atom k) (entries.map P.entry) =
      (findEntry own.same (.atom k) entries).map P.value := by
    simpa using h.findEntry_entries (.atom k) entries
  unfold Store.getEntry
  rw [hfind]
  cases findEntry own.same (.text key) entries with
  | some v => rfl
  | none =>
    cases integerKey? key with
    | error cause => rfl
    | ok number =>
      cases number with
      | none => exact congrArg Except.ok (P.value_atom .null).symm
      | some n =>
        simp only [Option.map_none, hfind]
        cases hn : findEntry own.same (.int n) entries <;>
          simp [hn, bind, Except.bind, pure, Except.pure, Except.map]

end

theorem getElement (elements : List Value) (key : String) :
    Store.getElement (elements.map P.value) key = (Store.getElement elements key).map P.value := by
  unfold Store.getElement
  rw [List.length_map]
  split
  · simp [pure, Except.pure, Except.map]
  · cases position? elements.length key with
    | error cause => rfl
    | ok position =>
      cases position with
      | none => exact congrArg Except.ok (P.value_atom .null).symm
      | some i =>
        simp only [bind, Except.bind, pure, Except.pure, Except.map, List.getElem?_map]
        cases elements[i]? <;> simp

theorem lookup_fields (fields : List (String × Value)) (name : String) :
    (fields.map P.field).lookup name = (fields.lookup name).map P.value := by
  induction fields with
  | nil => rfl
  | cons f rest ih =>
    obtain ⟨other, v⟩ := f
    simp only [List.map_cons, field, List.lookup_cons, ih]
    cases name == other <;> rfl

section

variable (h : P.Holds own whole)

include h

/-- Reading a key of an image answers the image of what it answers of the value. -/
theorem getValue (v : Value) (key : String) :
    whole.getValue (P.value v) key = (own.getValue v key).map P.value := by
  unfold Store.getValue
  rw [isNull_value, h.kindOf, h.entries?, h.elements?]
  split
  · exact congrArg Except.ok (P.value_atom _).symm
  · cases own.entries? v with
    | some entries => exact h.getEntry entries key
    | none =>
      cases own.elements? v with
      | some elements => exact getElement elements key
      | none =>
        cases v with
        | atom a => 
          cases a with
          | kind k =>
            cases k with
            | host info =>
              simp only [Option.map_none, value_atom]
              split <;> simp [Except.map]
            | _ => simp [Except.map]
          | _ => simp [Except.map]
        | cell n =>
          simp only [Option.map_none, value_cell, h.cell]
          cases own.cell n with
          | object info fields =>
            simp only [content, lookup_fields, Except.map]
            split
            · cases fields.lookup key <;> simp
            · simp
          | _ => simp [content, Except.map]
        | _ => simp [Except.map]

/-! ### Changing by key -/

theorem addItem (items : List Value) (item : Value) :
    whole.addItem (items.map P.value) (P.value item) = (own.addItem items item).map P.value := by
  have hany : (items.map P.value).any (whole.same (P.value item)) = items.any (own.same item) := by
    simp [Function.comp_def, h.same]
  unfold Store.addItem
  rw [hany]
  split
  · rfl
  · simp

theorem foldl_addItem (items found : List Value) :
    (items.map P.value).foldl whole.addItem (found.map P.value) =
      (items.foldl own.addItem found).map P.value := by
  induction items generalizing found with
  | nil => rfl
  | cons item rest ih => rw [List.map_cons, List.foldl_cons, List.foldl_cons, h.addItem, ih]

theorem bindVariable (n : Nat) (key v : Value) :
    P.Holds (own.bind n key v).1 (whole.bind (P.scope n) (P.value key) (P.value v)).1 ∧
      (whole.bind (P.scope n) (P.value key) (P.value v)).2 = P.value (own.bind n key v).2 := by
  unfold Store.bind
  simp only [h.scope, frame, h.findEntry_entries, h.putEntry_entries]
  cases findEntry own.same key (own.scope n).constants with
  | some constant => exact ⟨h, rfl⟩
  | none =>
    refine ⟨h.setScope n _, ?_⟩
    cases findEntry own.same key (own.scope n).changeable <;> simp

theorem unbindVariable? (n : Nat) (key : Value) :
    (own.unbind? n key = none ∧ whole.unbind? (P.scope n) (P.value key) = none) ∨
      ∃ after after' v, own.unbind? n key = some (after, v) ∧
        whole.unbind? (P.scope n) (P.value key) = some (after', P.value v) ∧
        P.Holds after after' := by
  unfold Store.unbind?
  simp only [h.scope, frame, h.findEntry_entries, h.dropEntry_entries]
  cases findEntry own.same key (own.scope n).changeable with
  | none => exact .inl ⟨rfl, rfl⟩
  | some v => exact .inr ⟨_, _, v, rfl, rfl, h.setScope n _⟩

theorem putContent (key : String) (v : Value) (c : Cell) :
    whole.putContent key (P.value v) (P.content c) =
      (own.putContent key v c).map (Option.map P.content) := by
  have hput (entries : List (Value × Value)) :
      putEntry whole.same (.text key) (P.value v) (entries.map P.entry) =
        (putEntry own.same (.text key) v entries).map P.entry := by
    simpa using h.putEntry_entries (.text key) v entries
  cases c with
  | map entries => simp [content, Store.putContent, hput, Except.map]
  | page entries source => simp [content, Store.putContent, hput, Except.map]
  | list items =>
    simp only [content, Store.putContent, List.length_map]
    cases position? items.length key with
    | error cause => rfl
    | ok position =>
      cases position <;>
        simp [Store.putItem, bind, Except.bind, pure, Except.pure, Except.map, content]
  | buffer bytes =>
    simp only [content, Store.putContent, byte?_value]
    cases position? bytes.length key with
    | error cause => rfl
    | ok position =>
      cases position with
      | none => rfl
      | some i =>
        simp only [bind, Except.bind]
        split
        · rfl
        · cases Store.byte? v <;> rfl
  | object info fields =>
    have hset : Store.setField key (P.value v) (fields.map P.field) =
        (Store.setField key v fields).map P.field := by
      simp only [Store.setField, List.map_map]
      refine List.map_congr_left fun f _ ↦ ?_
      obtain ⟨name, old⟩ := f
      by_cases hname : name = key <;> simp [field, hname]
    simp only [content, Store.putContent, lookup_fields, Option.isSome_map, hset, Except.map]
    split <;> rfl
  | set items => rfl
  | side which owner => rfl

theorem deleteEntry (key : String) (entries : List (Value × Value)) :
    whole.deleteEntry key (entries.map P.entry) =
      (own.deleteEntry key entries).map (List.map P.entry) := by
  have hfind := h.findEntry_entries (.text key) entries
  have hdrop := h.dropEntry_entries (.text key) entries
  rw [value_atom] at hfind hdrop
  unfold Store.deleteEntry
  rw [hfind, hdrop]
  cases findEntry own.same (.text key) entries <;> rfl

theorem deleteContent (key : String) (c : Cell) :
    whole.deleteContent key (P.content c) =
      (own.deleteContent key c).map (Option.map P.content) := by
  cases c with
  | map entries =>
    simp only [content, Store.deleteContent, h.deleteEntry, Except.map]
    cases own.deleteEntry key entries <;> rfl
  | page entries source =>
    simp only [content, Store.deleteContent, h.deleteEntry, Except.map]
    cases own.deleteEntry key entries <;> rfl
  | list items =>
    simp only [content, Store.deleteContent, List.length_map]
    cases position? items.length key with
    | error cause => rfl
    | ok position =>
      cases position with
      | none => rfl
      | some i =>
        simp only [bind, Except.bind, pure, Except.pure, Except.map]
        split <;> simp [content, List.eraseIdx_map]
  | buffer bytes =>
    simp only [content, Store.deleteContent]
    cases position? bytes.length key with
    | error cause => rfl
    | ok position =>
      cases position with
      | none => rfl
      | some i =>
        simp only [bind, Except.bind, pure, Except.pure, Except.map]
        split <;> rfl
  | _ => rfl

end

end Holds

/-- Whether two changes of stores fail alike, or end with stores of which one holds the other and
with the same answer. -/
inductive Changes (P : Placement) :
    Except Fault (Store × Bool) → Except Fault (Store × Bool) → Prop
  /-- Both fail. -/
  | fails (cause : Fault) : Changes P (.error cause) (.error cause)
  /-- Both end. -/
  | ends {own whole : Store} (h : P.Holds own whole) (done : Bool) :
    Changes P (.ok (own, done)) (.ok (whole, done))

namespace Holds

section

variable (h : P.Holds own whole)

include h

/-- The content of a container is replaced when there is a new one. -/
theorem changes_setCell {c c' : Except Fault (Option Cell)}
    (hc : c' = c.map (Option.map P.content)) (n : Nat) :
    P.Changes
      (do match ← c with
        | some content => return (own.setCell n content, true)
        | none => return (own, false))
      (do match ← c' with
        | some content => return (whole.setCell (P.cell n) content, true)
        | none => return (whole, false)) := by
  subst hc
  cases c with
  | error cause => exact .fails cause
  | ok content? =>
    cases content? with
    | none => exact .ends h false
    | some content => exact .ends (h.setCell n content) true

theorem putValue (parent : Value) (key : String) (v : Value) :
    P.Changes (own.putValue parent key v) (whole.putValue (P.value parent) key (P.value v)) := by
  cases parent with
  | scope n =>
    have hbind := (h.bindVariable n (.text key) v).1
    rw [value_atom] at hbind
    simp only [value_scope, Store.putValue]
    exact .ends hbind true
  | cell n =>
    simp only [value_cell, Store.putValue, h.cell]
    exact h.changes_setCell (h.putContent key v _) n
  | _ =>
    simp only [value_atom, value_tuple, value_frozen, value_call, value_resource, Store.putValue]
    exact .ends h false

theorem postValue (parent v : Value) :
    P.Changes (own.postValue parent v) (whole.postValue (P.value parent) (P.value v)) := by
  cases parent with
  | cell n =>
    simp only [value_cell, Store.postValue, h.cell]
    cases own.cell n with
    | list items =>
      have hset := h.setCell n (.list (items ++ [v]))
      simp only [content, List.map_append, List.map_cons, List.map_nil] at hset ⊢
      exact .ends hset true
    | buffer bytes =>
      simp only [content, byte?_value]
      cases Store.byte? v with
      | error cause => exact .fails cause
      | ok b => exact .ends (h.setCell n (.buffer (bytes ++ [b]))) true
    | set items =>
      simp only [content, h.view, h.addItem]
      split
      · exact .fails _
      · exact .ends (h.setCell n (.set _)) true
    | _ => exact .ends h false
  | _ =>
    simp only [value_atom, value_tuple, value_frozen, value_call, value_resource, value_scope,
      Store.postValue]
    exact .ends h false

theorem deleteValue (parent : Value) (key : String) :
    P.Changes (own.deleteValue parent key) (whole.deleteValue (P.value parent) key) := by
  cases parent with
  | scope n =>
    simp only [value_scope, Store.deleteValue]
    rcases h.unbindVariable? n (.text key) with
      ⟨hown, hwhole⟩ | ⟨after, after', v, hown, hwhole, hafter⟩
    · rw [value_atom] at hwhole
      rw [hown, hwhole]
      exact .ends h false
    · rw [value_atom] at hwhole
      rw [hown, hwhole]
      exact .ends hafter true
  | cell n =>
    simp only [value_cell, Store.deleteValue, h.cell]
    exact h.changes_setCell (h.deleteContent key _) n
  | _ =>
    simp only [value_atom, value_tuple, value_frozen, value_call, value_resource,
      Store.deleteValue]
    exact .ends h false

end

end Holds

/-! ### Tasks on the store -/

section

open Script

theorem follows_view (v : Value) : P.Follows (fun d ↦ d) (view v) (view (P.value v)) :=
  follows_store fun _ _ h ↦ follows_pure (h.view v).symm

theorem follows_newCell (c : Cell) :
    P.Follows P.value (newCell c) (newCell (P.content c)) :=
  follows_store fun own whole h ↦ (follows_setStore (h.addCell c)).bind fun _ ↦
    follows_pure (by
      show P.value (.cell own.cells.size) = .cell whole.cells.size
      rw [value_cell, h.cells.place_size])

theorem follows_newList (items : List Value) :
    P.Follows P.value (newList items) (newList (items.map P.value)) :=
  follows_newCell (.list items)

theorem follows_newMap (entries : List (Value × Value)) :
    P.Follows P.value (newMap entries) (newMap (entries.map P.entry)) :=
  follows_newCell (.map entries)

theorem follows_cell (n : Nat) : P.Follows P.content (Script.cell n) (Script.cell (P.cell n)) :=
  follows_store fun _ _ h ↦ follows_pure (h.cell n).symm

theorem follows_setCell (n : Nat) (c : Cell) :
    P.Follows (fun u ↦ u) (setCell n c) (setCell (P.cell n) (P.content c)) :=
  follows_store fun _ _ h ↦ follows_setStore (h.setCell n c)

theorem follows_addResource (r : ResourceRecord) :
    P.Follows P.made (addResource r) (addResource (P.record r)) :=
  follows_store fun _ _ h ↦ (follows_setStore (h.addResource r)).bind fun _ ↦
    follows_pure h.resources.place_size

theorem follows_textOf (v : Value) : P.Follows (fun t ↦ t) (textOf v) (textOf (P.value v)) :=
  (follows_view v).bind fun d ↦ follows_ofExcept_same d.toText

@[simp] theorem value_ofScalar (s : Scalar) : P.value (ofScalar s) = ofScalar s := by
  cases s <;> exact value_atom P _

mutual

theorem follows_ofPlain : ∀ d : Plain, P.Follows P.value (ofPlain d) (ofPlain d)
  | .scalar s => follows_pure (value_ofScalar s)
  | .list items => by
    rw [ofPlain]
    exact (follows_ofPlainItems items).bind follows_newList
  | .map entries => by
    rw [ofPlain]
    exact (follows_ofPlainEntries entries).bind follows_newMap

theorem follows_ofPlainItems : ∀ items : List Plain,
    P.Follows (List.map P.value) (ofPlainItems items) (ofPlainItems items)
  | [] => follows_pure rfl
  | item :: rest => by
    rw [ofPlainItems]
    exact (follows_ofPlain item).bind fun v ↦ (follows_ofPlainItems rest).bind fun vs ↦
      follows_pure rfl

theorem follows_ofPlainEntries : ∀ entries : List (Scalar × Plain),
    P.Follows (List.map P.entry) (ofPlainEntries entries) (ofPlainEntries entries)
  | [] => follows_pure rfl
  | (key, d) :: rest => by
    rw [ofPlainEntries]
    exact (follows_ofPlain d).bind fun v ↦ (follows_ofPlainEntries rest).bind fun vs ↦
      follows_pure (by simp [entry])

end

mutual

/-- New data is the same everywhere, but for the positions of its containers. -/
theorem follows_ofData : ∀ d : Data, P.Follows P.value (ofData d) (ofData d)
  | .atom a => follows_pure (P.value_atom a)
  | .tuple items => by
    rw [ofData]
    exact (follows_ofDataItems items).bind fun vs ↦ follows_pure (P.value_tuple vs)
  | .frozen items => by
    rw [ofData]
    exact (follows_ofDataItems items).bind fun vs ↦ follows_pure (P.value_frozen vs)
  | .call f params => by
    rw [ofData]
    exact (follows_ofDataItems params).bind fun vs ↦ follows_pure (P.value_call f vs)
  | .list items => by
    rw [ofData]
    exact (follows_ofDataItems items).bind follows_newList
  | .map entries => by
    rw [ofData]
    exact (follows_ofDataEntries entries).bind follows_newMap
  | .page entries source => by
    rw [ofData]
    exact (follows_ofDataEntries entries).bind fun es ↦ follows_newCell (.page es source)
  | .set items => by
    rw [ofData]
    exact (follows_ofDataItems items).bind fun vs ↦ follows_newCell (.set vs)
  | .buffer bytes => follows_newCell (.buffer bytes)
  | .object info fields => by
    rw [ofData]
    exact (follows_ofDataFields fields).bind fun fs ↦ follows_newCell (.object info fs)
  | .side .. | .resource .. | .scope _ | .cycle => by
    rw [ofData]
    exact follows_fail _

theorem follows_ofDataItems : ∀ items : List Data,
    P.Follows (List.map P.value) (ofDataItems items) (ofDataItems items)
  | [] => follows_pure rfl
  | item :: rest => by
    rw [ofDataItems]
    exact (follows_ofData item).bind fun v ↦ (follows_ofDataItems rest).bind fun vs ↦
      follows_pure rfl

theorem follows_ofDataEntries : ∀ entries : List (Data × Data),
    P.Follows (List.map P.entry) (ofDataEntries entries) (ofDataEntries entries)
  | [] => follows_pure rfl
  | (key, d) :: rest => by
    rw [ofDataEntries]
    exact (follows_ofData key).bind fun k ↦ (follows_ofData d).bind fun v ↦
      (follows_ofDataEntries rest).bind fun es ↦ follows_pure rfl

theorem follows_ofDataFields : ∀ fields : List (String × Data),
    P.Follows (List.map P.field) (ofDataFields fields) (ofDataFields fields)
  | [] => follows_pure rfl
  | (name, d) :: rest => by
    rw [ofDataFields]
    exact (follows_ofData d).bind fun v ↦ (follows_ofDataFields rest).bind fun fs ↦
      follows_pure rfl

end

theorem follows_requireKey (key : Value) :
    P.Follows (fun u ↦ u) (requireKey key) (requireKey (P.value key)) :=
  (follows_view key).bind fun d ↦ by
    split
    · exact follows_fail _
    · exact follows_pure rfl

theorem follows_bind (n : Nat) (key v : Value) :
    P.Follows P.value (Script.bind n key v)
      (Script.bind (P.scope n) (P.value key) (P.value v)) :=
  (follows_requireKey key).bind fun _ ↦ follows_store fun _ _ h ↦
    (follows_setStore (h.bindVariable n key v).1).bind fun _ ↦
      follows_pure (h.bindVariable n key v).2.symm

theorem follows_keyText (key : Value) :
    P.Follows (fun t ↦ t) (keyText key) (keyText (P.value key)) := by
  cases key with
  | atom a =>
    have htext := follows_textOf (P := P) (.atom a)
    rw [value_atom] at htext ⊢
    cases a with
    | text s => exact follows_pure rfl
    | _ => exact htext
  | _ => exact follows_textOf _

theorem follows_getValue (parent key : Value) :
    P.Follows P.value (Script.getValue parent key)
      (Script.getValue (P.value parent) (P.value key)) :=
  (follows_keyText key).bind fun k ↦ follows_store fun _ _ h ↦
    follows_ofExcept (h.getValue parent k)

theorem follows_change {r r' : Except Fault (Store × Bool)} (hr : P.Changes r r') :
    P.Follows (fun b ↦ b) (change r) (change r') := by
  cases hr with
  | fails cause => exact follows_fail cause
  | ends h done => exact (follows_setStore h).bind fun _ ↦ follows_pure rfl

theorem follows_putValue (parent key v : Value) :
    P.Follows (fun b ↦ b) (Script.putValue parent key v)
      (Script.putValue (P.value parent) (P.value key) (P.value v)) :=
  (follows_keyText key).bind fun k ↦ follows_store fun _ _ h ↦
    follows_change (h.putValue parent k v)

theorem follows_postValue (parent v : Value) :
    P.Follows (fun b ↦ b) (Script.postValue parent v)
      (Script.postValue (P.value parent) (P.value v)) :=
  follows_store fun _ _ h ↦ follows_change (h.postValue parent v)

theorem follows_deleteValue (parent key : Value) :
    P.Follows (fun b ↦ b) (Script.deleteValue parent key)
      (Script.deleteValue (P.value parent) (P.value key)) :=
  (follows_keyText key).bind fun k ↦ follows_store fun _ _ h ↦
    follows_change (h.deleteValue parent k)

/-! The same under a key that is a text. -/

theorem follows_getText (parent : Value) (key : String) :
    P.Follows P.value (Script.getValue parent (.text key))
      (Script.getValue (P.value parent) (.text key)) := by
  have hget := follows_getValue (P := P) parent (.text key)
  rwa [value_atom] at hget

theorem follows_putText (parent : Value) (key : String) (v : Value) :
    P.Follows (fun b ↦ b) (Script.putValue parent (.text key) v)
      (Script.putValue (P.value parent) (.text key) (P.value v)) := by
  have hput := follows_putValue (P := P) parent (.text key) v
  rwa [value_atom] at hput

theorem follows_deleteText (parent : Value) (key : String) :
    P.Follows (fun b ↦ b) (Script.deleteValue parent (.text key))
      (Script.deleteValue (P.value parent) (.text key)) := by
  have hdelete := follows_deleteValue (P := P) parent (.text key)
  rwa [value_atom] at hdelete

/-! ### Collections -/

theorem follows_itemsOf (v : Value) :
    P.Follows (List.map P.value) (itemsOf v) (itemsOf (P.value v)) := by
  have hitems : P.Follows (List.map P.value)
      (do return ((← store).elements? v).getD [v])
      (do return ((← store).elements? (P.value v)).getD [P.value v]) :=
    follows_store fun own _ h ↦ follows_pure (by
      rw [h.elements?]
      cases own.elements? v <;> rfl)
  cases v with
  | atom a =>
    rw [value_atom] at hitems ⊢
    cases a with
    | null => exact follows_pure rfl
    | text s => exact follows_pure (map_value_map_text _)
    | _ => exact hitems
  | _ => exact hitems

theorem follows_toList (v : Value) : P.Follows P.value (toList v) (toList (P.value v)) :=
  follows_store fun own _ h ↦ by
    rw [h.kindOf]
    split
    · exact follows_pure rfl
    · exact (follows_itemsOf v).bind follows_newList

theorem follows_distinct (items : List Value) :
    P.Follows (List.map P.value) (distinct items) (distinct (items.map P.value)) :=
  follows_store fun _ _ h ↦ follows_pure (h.foldl_addItem items []).symm

theorem follows_setOf (source : Kind) (items : List Value) :
    P.Follows P.value (setOf source items) (setOf source (items.map P.value)) := by
  have hfind : P.Follows (fun k ↦ k)
      (items.findSomeM? fun item ↦ do return (← view item).unhashable?)
      ((items.map P.value).findSomeM? fun item ↦ do return (← view item).unhashable?) := by
    induction items with
    | nil => exact follows_pure rfl
    | cons item rest ih =>
      rw [List.map_cons, List.findSomeM?_cons, List.findSomeM?_cons]
      have hitem : P.Follows (fun k ↦ k) (do return (← view item).unhashable?)
          (do return (← view (P.value item)).unhashable?) :=
        (follows_view item).bind fun d ↦ follows_pure rfl
      refine hitem.bind fun k ↦ ?_
      cases k with
      | none => exact ih
      | some found => exact follows_pure rfl
  refine hfind.bind fun k ↦ ?_
  cases k with
  | some element => exact follows_fail _
  | none => exact (follows_distinct items).bind fun found ↦ follows_newCell (.set found)

theorem follows_toSet (v : Value) : P.Follows P.value (toSet v) (toSet (P.value v)) :=
  follows_store fun own _ h ↦ by
    rw [h.kindOf]
    split
    · exact follows_pure rfl
    · exact (follows_itemsOf v).bind (follows_setOf _)

theorem follows_toCollection (v : Value) :
    P.Follows P.value (toCollection v) (toCollection (P.value v)) :=
  follows_store fun own _ h ↦ by
    rw [h.kindOf]
    split
    iterate 6 exact follows_pure rfl
    exact follows_toList v

theorem map_entry_positionEntries (items : List Value) :
    (positionEntries items).map P.entry = positionEntries (items.map P.value) := by
  simp [positionEntries, List.mapIdx_eq_zipIdx_map, List.zipIdx_map, entry, Function.comp_def]

theorem follows_entriesOf (v : Value) :
    P.Follows (List.map P.entry) (entriesOf v) (entriesOf (P.value v)) :=
  follows_store fun own _ h ↦ by
    have halone : [(Value.text "value", v)].map P.entry = [(.text "value", P.value v)] := by
      simp [entry]
    rw [h.entries?]
    cases own.entries? v with
    | some entries => exact follows_pure rfl
    | none =>
      cases v with
      | cell n =>
        simp only [Option.map_none, value_cell, h.cell] at halone ⊢
        cases own.cell n with
        | object info fields =>
          simp only [content]
          split
          · exact follows_pure (by simp [field, entry, Function.comp_def])
          · exact follows_pure halone
        | list items | set items => exact follows_pure (map_entry_positionEntries items)
        | _ => exact follows_pure halone
      | tuple items | frozen items =>
        simp only [Option.map_none, value_tuple, value_frozen]
        exact follows_pure (map_entry_positionEntries items)
      | atom a =>
        rw [value_atom] at halone ⊢
        cases a with
        | null => exact follows_pure rfl
        | url u =>
          exact follows_pure (by rw [map_entry_positionEntries, map_value_map_text])
        | _ => exact follows_pure halone
      | _ => exact follows_pure halone

theorem follows_toMap (v : Value) : P.Follows P.value (toMap v) (toMap (P.value v)) :=
  follows_store fun own _ h ↦ by
    rw [h.kindOf]
    split
    iterate 3 exact follows_pure rfl
    exact (follows_entriesOf v).bind follows_newMap

end

end Placement

end ResourceScript
