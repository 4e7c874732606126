import ResourceScript.Proofs.Isolation.Placement
import ResourceScript.Proofs.Scope.OrderedMap
/-!
# What is seen of a placed store

Everything that is read from a store is read alike from a store that holds it: equality of values
does not change (`Placement.Holds.same`), a scope shows the images of its bindings
(`Placement.Holds.visible`), and what a value shows is the same (`Placement.Holds.view`). The last
takes an argument about cycles, because the number of references that a view follows is bounded by
the size of the store: along a path on which no reference comes twice, a store of its own has no
more references than its tables have entries.
-/

set_option autoImplicit false

namespace ResourceScript

namespace Placement

variable {P : Placement} {own whole : Store}

/-! ### Equality -/

section

variable {refers refers' : Ref → Value → Bool}

mutual

theorem sameBy_value (hrefers : ∀ r v, refers' (P.reference r) (P.value v) = refers r v) :
    ∀ a b : Value,
    Value.sameBy refers' (P.value a) (P.value b) = Value.sameBy refers a b
  | .atom a, b => by
    cases b with
    | cell n => simpa [Value.sameBy] using hrefers (.cell n) (.atom a)
    | _ => simp [Value.sameBy]
  | .tuple items, b => by
    cases b with
    | cell n => simpa [Value.sameBy] using hrefers (.cell n) (.tuple items)
    | tuple others => simpa [Value.sameBy] using sameAll_map_value hrefers items others
    | _ => simp [Value.sameBy]
  | .frozen items, b => by
    cases b with
    | cell n => simpa [Value.sameBy] using hrefers (.cell n) (.frozen items)
    | frozen others => simp [Value.sameBy, containsAll_map_value hrefers items others]
    | _ => simp [Value.sameBy]
  | .call f params, b => by
    cases b with
    | cell n => simpa [Value.sameBy] using hrefers (.cell n) (.call f params)
    | call g others => simp [Value.sameBy, sameAll_map_value hrefers params others]
    | _ => simp [Value.sameBy]
  | .cell n, b => by simpa [Value.sameBy] using hrefers (.cell n) b
  | .resource r, b => by simpa [Value.sameBy] using hrefers (.resource r) b
  | .scope n, b => by simpa [Value.sameBy] using hrefers (.scope n) b

theorem sameAll_map_value
    (hrefers : ∀ r v, refers' (P.reference r) (P.value v) = refers r v) :
    ∀ items others : List Value,
    Value.sameAll refers' (items.map P.value) (others.map P.value) =
      Value.sameAll refers items others
  | [], [] => rfl
  | [], _ :: _ => rfl
  | _ :: _, [] => rfl
  | v :: rest, other :: others => by
    simp [Value.sameAll, sameBy_value hrefers v other, sameAll_map_value hrefers rest others]

theorem containsAll_map_value
    (hrefers : ∀ r v, refers' (P.reference r) (P.value v) = refers r v) :
    ∀ items others : List Value,
    Value.containsAll refers' (items.map P.value) (others.map P.value) =
      Value.containsAll refers items others
  | [], _ => rfl
  | v :: rest, others => by
    simp [Value.containsAll, containsAll_map_value hrefers rest others, Function.comp_def,
      sameBy_value hrefers v]

end

end

section

variable {same same' : Value → Value → Bool}
  (hsame : ∀ a b, same' (P.value a) (P.value b) = same a b)

include hsame

theorem sameSets_map_value (items others : List Value) :
    Cell.sameSets same' (items.map P.value) (others.map P.value) =
      Cell.sameSets same items others := by
  simp [Cell.sameSets, Function.comp_def, hsame]

theorem sameItems_map_value : ∀ items others : List Value,
    Cell.sameBy.sameItems same' (items.map P.value) (others.map P.value) =
      Cell.sameBy.sameItems same items others
  | [], [] => rfl
  | [], _ :: _ => rfl
  | _ :: _, [] => rfl
  | v :: rest, other :: others => by
    simp [Cell.sameBy.sameItems, hsame, sameItems_map_value rest others]

theorem sameEntries_map_entry (entries others : List (Value × Value)) :
    Cell.sameBy.sameEntries same' (entries.map P.entry) (others.map P.entry) =
      Cell.sameBy.sameEntries same entries others := by
  simp [Cell.sameBy.sameEntries, Function.comp_def, hsame]

theorem sameBy_content (c d : Cell) :
    (P.content c).sameBy same' (P.content d) = c.sameBy same d := by
  have hfields (fields : List (String × Value)) :
      (fields.map P.field).map Prod.snd = (fields.map Prod.snd).map P.value := by
    simp [Function.comp_def, field]
  cases c <;> cases d <;>
    simp only [content, Cell.sameBy, sameSets_map_value hsame, sameItems_map_value hsame,
      sameEntries_map_entry hsame, hfields]

end

namespace Holds

variable (h : P.Holds own whole)

include h

theorem members? (n : Nat) :
    whole.members? (P.cell n) = (own.members? n).map (List.map P.value) := by
  unfold Store.members?
  rw [h.cell]
  cases own.cell n with
  | side which owner =>
    cases which with
    | values => rfl
    | _ => exact congrArg some (h.sideOf _ owner)
  | _ => rfl

theorem sameRef {same same' : Value → Value → Bool}
    (hsame : ∀ a b, same' (P.value a) (P.value b) = same a b) (r : Ref) (v : Value) :
    whole.sameRef same' (P.reference r) (P.value v) = own.sameRef same r v := by
  cases r with
  | cell n =>
    cases v with
    | cell m =>
      simp only [reference, value_cell, Store.sameRef, h.members?, h.cell, sameBy_content hsame,
        BEq.beq, P.cell.apply_eq_iff_eq]
      cases own.members? n <;> cases own.members? m <;>
        simp [sameSets_map_value hsame]
    | frozen others =>
      simp only [reference, value_frozen, Store.sameRef, h.members?]
      cases own.members? n <;> simp [sameSets_map_value hsame]
    | atom a =>
      simp only [reference, value_atom]
      cases a with
      | bytes data =>
        simp only [Store.sameRef, h.cell]
        cases own.cell n <;> rfl
      | _ => rfl
    | _ => simp [Store.sameRef]
  | resource r =>
    cases v with
    | resource q =>
      have hbeq : (P.resource r == P.resource q) = (r == q) := by
        rw [Bool.eq_iff_iff, beq_iff_eq, beq_iff_eq, P.resource_injective.eq_iff]
      simp [Store.sameRef, h.resource, hbeq]
    | _ => simp [Store.sameRef]
  | scope n => cases v <;> simp [Store.sameRef]

theorem sameWithin (depth : Nat) (a b : Value) :
    whole.sameWithin depth (P.value a) (P.value b) = own.sameWithin depth a b := by
  induction depth generalizing a b with
  | zero => exact sameBy_value (fun _ _ ↦ rfl) a b
  | succ depth ih => exact sameBy_value (h.sameRef ih) a b

/-- Values are equal when their images are. -/
theorem same (a b : Value) : whole.same (P.value a) (P.value b) = own.same a b :=
  h.sameWithin _ a b

theorem findEntry_entries (key : Value) (entries : List (Value × Value)) :
    findEntry whole.same (P.value key) (entries.map P.entry) =
      (findEntry own.same key entries).map P.value :=
  findEntry_map h.same key entries

theorem putEntry_entries (key v : Value) (entries : List (Value × Value)) :
    putEntry whole.same (P.value key) (P.value v) (entries.map P.entry) =
      (putEntry own.same key v entries).map P.entry :=
  putEntry_map h.same key v entries

theorem dropEntry_entries (key : Value) (entries : List (Value × Value)) :
    dropEntry whole.same (P.value key) (entries.map P.entry) =
      (dropEntry own.same key entries).map P.entry :=
  dropEntry_map h.same key entries

theorem putEntries (added entries : List (Value × Value)) :
    (added.map P.entry).foldl (fun map e ↦ putEntry whole.same e.1 e.2 map)
        (entries.map P.entry) =
      (added.foldl (fun map e ↦ putEntry own.same e.1 e.2 map) entries).map
        P.entry :=
  foldl_putEntry_map h.same added entries

/-! ### Scopes -/

theorem chain (n : Nat) : whole.chain (P.scope n) = (own.chain n).map P.scope := by
  induction n using Nat.strongRecOn with
  | ind n ih =>
    have hparent : (whole.scope (P.scope n)).parent = (own.scope n).parent.map P.scope := by
      rw [h.scope]
      rfl
    rw [Store.chain, Store.chain, hparent]
    cases (own.scope n).parent with
    | none => rfl
    | some parent =>
      simp only [Option.map_some, OrderEmbedding.lt_iff_lt]
      split
      · rename_i hlt
        rw [ih parent hlt, List.map_cons]
      · rfl

theorem bindings (n : Nat) :
    whole.bindings (P.scope n) = (own.bindings n).map P.entry := by
  simp only [Store.bindings, h.chain, List.flatMap_map, List.map_flatMap, h.scope, frame,
    List.map_append]

theorem firstOfEach (seen : List Value) (entries : List (Value × Value)) :
    Store.visible.firstOfEach whole (seen.map P.value) (entries.map P.entry) =
      (Store.visible.firstOfEach own seen entries).map P.entry := by
  induction entries generalizing seen with
  | nil => rfl
  | cons e rest ih =>
    have hseen : (seen.map P.value).any (whole.same (P.value e.1)) = seen.any (own.same e.1) := by
      simp [Function.comp_def, h.same]
    simp only [List.map_cons, Store.visible.firstOfEach, entry_fst, entry_snd, hseen, ih]
    split
    · rfl
    · rw [← List.map_cons, ih]
      rfl

/-- A scope shows the images of what is visible in it. -/
theorem visible (n : Nat) : whole.visible (P.scope n) = (own.visible n).map P.entry := by
  unfold Store.visible
  rw [h.bindings]
  exact h.firstOfEach [] _

theorem root (n : Nat) : whole.root (P.scope n) = P.scope (own.root n) := by
  unfold Store.root
  rw [h.chain, List.getLast?_map]
  cases (own.chain n).getLast? <;> rfl

end Holds

/-! ### Views -/

section

variable {refer refer' : Ref → Data}

mutual

theorem shows_value (hrefer : ∀ r, refer' (P.reference r) = refer r) :
    ∀ v : Value, (P.value v).shows refer' = v.shows refer
  | .atom _ => by simp [Value.shows]
  | .tuple items => by simpa [Value.shows] using showsAll_map_value hrefer items
  | .frozen items => by simpa [Value.shows] using showsAll_map_value hrefer items
  | .call _ params => by simpa [Value.shows] using showsAll_map_value hrefer params
  | .cell n => by simpa [Value.shows] using hrefer (.cell n)
  | .resource r => by simpa [Value.shows] using hrefer (.resource r)
  | .scope n => by simpa [Value.shows] using hrefer (.scope n)

theorem showsAll_map_value (hrefer : ∀ r, refer' (P.reference r) = refer r) :
    ∀ items : List Value,
    Value.showsAll refer' (items.map P.value) = Value.showsAll refer items
  | [] => rfl
  | v :: rest => by
    rw [List.map_cons, Value.showsAll, Value.showsAll, shows_value hrefer v,
      showsAll_map_value hrefer rest]

end

end

namespace Holds

variable (h : P.Holds own whole)

include h

theorem showsRef {see see' : Value → Data} (hsee : ∀ v, see' (P.value v) = see v) (r : Ref) :
    whole.showsRef see' (P.reference r) = own.showsRef see r := by
  cases r with
  | cell n =>
    simp only [reference, Store.showsRef, h.cell]
    cases own.cell n with
    | side which owner =>
      simp only [content, Cell.shows, h.sideOf, List.map_map, Function.comp_def, hsee]
    | object info fields =>
      simp only [content, Cell.shows, field, List.map_map, Function.comp_def, hsee]
    | buffer bytes => rfl
    | _ => simp only [content, Cell.shows, entry, List.map_map, Function.comp_def, hsee]
  | resource r =>
    have hlabel : (P.record (own.resource r)).label see' = (own.resource r).label see := by
      unfold ResourceRecord.label
      rw [record_uri]
      cases (own.resource r).uri with
      | some uri => rfl
      | none =>
        have hsource : (P.record (own.resource r)).source = P.value (own.resource r).source := rfl
        rw [hsource]
        cases hv : (own.resource r).source with
        | atom a =>
          have hatom := hsee (.atom a)
          rw [value_atom] at hatom ⊢
          cases a <;> simp only [hatom]
        | _ =>
          simp only [← hsee, value_tuple, value_frozen, value_call, value_cell, value_resource,
            value_scope]
    simp only [reference, Store.showsRef, h.resource, hlabel, record_uri]
  | scope n =>
    simp only [reference, Store.showsRef, h.visible, entry, List.map_map, Function.comp_def, hsee]

theorem viewWithin (depth : Nat) (path : List Ref) (v : Value) :
    whole.viewWithin depth (path.map P.reference) (P.value v) = own.viewWithin depth path v := by
  induction depth generalizing path v with
  | zero => exact shows_value (fun _ ↦ rfl) v
  | succ depth ih =>
    refine shows_value (fun r ↦ ?_) v
    have hpath : (path.map P.reference).contains (P.reference r) = path.contains r := by
      rw [Bool.eq_iff_iff, List.contains_iff_mem, List.contains_iff_mem,
        List.mem_map_of_injective P.reference_injective]
    rw [hpath]
    split
    · rfl
    · exact h.showsRef (ih (r :: path)) r

end Holds

end Placement

namespace Store

variable (s : Store)

/-- The references to the entries of a store. -/
def refs : List Ref :=
  (List.range s.cells.size).map .cell ++
    (List.range s.resources.size).map (fun n ↦ .resource (.made n)) ++
    (List.range s.scopes.size).map .scope

@[simp] theorem length_refs : s.refs.length = s.cells.size + s.resources.size + s.scopes.size := by
  simp [refs, Nat.add_assoc]

variable {s} (htext : ∀ n record, s.rewritten.lookup n = some record →
  ∃ text, record.source = .text text)

include htext

/-- What is no entry of a store, and a resource of source text, shows no other references. -/
theorem showsRef_of_not_mem {r : Ref} (hr : r ∉ s.refs) {see see' : Value → Data}
    (hatom : ∀ a, see' (.atom a) = see (.atom a)) : s.showsRef see' r = s.showsRef see r := by
  cases r with
  | cell n =>
    have hn : s.cells.size ≤ n := by simpa [refs] using hr
    have hcell : s.cell n = .list [] := by simp [cell, hn]
    simp [showsRef, hcell, Cell.shows]
  | scope n =>
    have hn : s.scopes.size ≤ n := by simpa [refs] using hr
    have hscope : s.scope n = ⟨none, [], [], []⟩ := by simp [scope, hn]
    have hchain : s.chain n = [n] := chain_of_root (by rw [hscope])
    simp [showsRef, visible, bindings, hchain, hscope, visible.firstOfEach]
  | resource r =>
    have hsource : ∃ a, (s.resource r).source = .atom a := by
      cases r with
      | made n =>
        have hn : s.resources.size ≤ n := by simpa [refs] using hr
        exact ⟨.null, by simp [resource, hn]⟩
      | written n text uri =>
        cases hlookup : s.rewritten.lookup n with
        | none => exact ⟨.text text, by simp [resource, hlookup]⟩
        | some record =>
          obtain ⟨t, ht⟩ := htext n record hlookup
          exact ⟨.text t, by simp [resource, hlookup, ht]⟩
    obtain ⟨a, ha⟩ := hsource
    simp only [showsRef, ResourceRecord.label, ha]
    cases a <;> simp only [hatom]

/-- A view through more references than a store has follows all that there are. -/
theorem viewWithin_succ {depth : Nat} {path : List Ref} (hpath : path.Nodup)
    (hrefs : ∀ r ∈ path, r ∈ s.refs) (hdepth : s.refs.length < depth + path.length) (v : Value) :
    s.viewWithin (depth + 1) path v = s.viewWithin depth path v := by
  induction depth generalizing path v with
  | zero =>
    have hlength := (hpath.subperm hrefs).length_le
    omega
  | succ depth ih =>
    refine congrArg (fun refer ↦ Value.shows refer v) (funext fun r ↦ ?_)
    by_cases hr : r ∈ path
    · simp [hr]
    · simp only [List.contains_iff_mem, hr, if_false]
      by_cases hmem : r ∈ s.refs
      · have hsee : s.viewWithin (depth + 1) (r :: path) = s.viewWithin depth (r :: path) :=
          funext fun u ↦ ih (hpath.cons hr) (List.forall_mem_cons.2 ⟨hmem, hrefs⟩)
            (by rw [List.length_cons]; omega) u
        rw [hsee]
      · exact showsRef_of_not_mem htext hmem fun a ↦ by
          cases depth <;> simp [viewWithin, Value.shows]

theorem viewWithin_of_le {depth : Nat} (hdepth : s.refs.length + 1 ≤ depth) (v : Value) :
    s.viewWithin depth [] v = s.view v := by
  unfold view
  rw [← length_refs]
  induction depth, hdepth using Nat.le_induction with
  | base => rfl
  | succ depth hle ih =>
    rw [viewWithin_succ htext List.nodup_nil nofun (Nat.lt_of_succ_le hle), ih]

end Store

/-- A value shows what its image shows. -/
theorem Placement.Holds.view {P : Placement} {own whole : Store} (h : P.Holds own whole)
    (v : Value) : whole.view (P.value v) = own.view v := by
  have hdepth : own.refs.length + 1 ≤
      whole.cells.size + whole.resources.size + whole.scopes.size + 1 := by
    have hcells := h.cells.size_le
    have hresources := h.resources.size_le
    have hscopes := h.scopes.size_le
    rw [Store.length_refs]
    omega
  exact (h.viewWithin _ [] v).trans (Store.viewWithin_of_le h.rewritten.text hdepth v)

end ResourceScript
