import ResourceScript.Media.Read
import ResourceScript.Proofs.Isolation.Access
import ResourceScript.Proofs.Language.SourceValues
import ResourceScript.Proofs.Media.Values
/-!
# Data that is read into a placed store

Compiled source text and the data of a message refer to nothing that was there before: what is read
is the same text, and its containers and resources are new ones. So reading follows reading. A
document of YAML is built in steps that remember the containers they have made; the memory has an
image too.
-/

set_option autoImplicit false

namespace ResourceScript

namespace Placement

open Script

variable {P : Placement} {α β : Type}

/-! ### Source text -/

/-- Compiling gives the same everywhere. -/
theorem follows_compiling {c : Compiler α} {image : β → β} {next next' : α → Task β}
    (hnext : ∀ s a, c.Yields s a → P.Follows image (next a) (next' a)) :
    P.Follows image (compiling c >>= next) (compiling c >>= next') := by
  have hopen (traces : Traces) : (Query.note traces).IsOpen := trivial
  refine .ask (q := .surroundings) trivial fun s ↦ .ask (hopen (c s).2) fun _ ↦ ?_
  cases hc : (c s).1 with
  | ok a => exact hnext s a hc
  | error cause => exact follows_fail cause

theorem follows_makeWritten (text uri : String) :
    P.Follows P.resource (makeWritten text uri) (makeWritten text uri) := by
  have hadd := follows_addResource (P := P) ⟨.text text, some uri, none⟩
  rw [show P.record ⟨.text text, some uri, none⟩ = ⟨.text text, some uri, none⟩ by simp [record]]
    at hadd
  exact hadd.bind fun n ↦ follows_pure rfl

/-- Loading compiled source text makes new resources for those in it. -/
theorem follows_load {v : Value} (hv : v.IsSource) :
    P.Follows P.value (v.load makeWritten) (v.load makeWritten) := by
  induction hv with
  | atom a => exact follows_pure (P.value_atom a)
  | written n text uri =>
    rw [Value.load]
    exact (follows_makeWritten text uri).bind fun r ↦ follows_pure (P.value_resource r)
  | call f hparams ih =>
    rename_i params
    have hall : P.Follows (List.map P.value) (Value.loadAll makeWritten params)
        (Value.loadAll makeWritten params) := by
      clear hparams
      induction params with
      | nil => exact follows_pure rfl
      | cons p rest ihrest =>
        obtain ⟨hp, hrest⟩ := List.forall_mem_cons.1 ih
        rw [Value.loadAll]
        exact hp.bind fun v ↦ (ihrest hrest).bind fun vs ↦ follows_pure rfl
    rw [Value.load]
    exact hall.bind fun vs ↦ follows_pure (P.value_call f vs)

theorem follows_compile (source : String) :
    P.Follows P.value (compile source) (compile source) :=
  follows_compiling fun _ _ h ↦ follows_load h.isSource_compile

/-! ### Documents of YAML -/

section

open ResourceScript.Yaml

theorem map_value_of_givesAtom {r : Except Fault Value} (hr : GivesAtom r) :
    r = r.map P.value := by
  cases r with
  | ok v =>
    obtain ⟨a, rfl⟩ := hr
    exact congrArg Except.ok (P.value_atom a).symm
  | error cause => rfl

/-- The image of what is remembered of a document that is being built. -/
def building (P : Placement) (b : Building) : Building :=
  ⟨b.made.map (Option.map P.value), b.waiting.map fun w ↦ (w.1, P.cell w.2)⟩

/-- Whether a step of building follows another, whatever is remembered. -/
def FollowsBuild (P : Placement) (move : α → α) (x x' : Build α) : Prop :=
  ∀ b, P.Follows (Prod.map move P.building) (x b) (x' (P.building b))

variable {move : α → α} {image : β → β}

theorem build_pure {a a' : α} (ha : move a = a') :
    P.FollowsBuild move (pure a) (pure a') :=
  fun _ ↦ follows_pure (Prod.ext ha rfl)

theorem FollowsBuild.bind {x x' : Build α} {next next' : α → Build β}
    (hx : P.FollowsBuild move x x')
    (hnext : ∀ a, P.FollowsBuild image (next a) (next' (move a))) :
    P.FollowsBuild image (x >>= next) (x' >>= next') :=
  fun b ↦ (hx b).bind fun after ↦ hnext after.1 after.2

theorem Follows.build {x x' : Task α} (hx : P.Follows move x x') :
    P.FollowsBuild move (liftM x) (liftM x') :=
  fun _ ↦ hx.bind fun _ ↦ follows_pure rfl

theorem build_mapM {γ : Type} {f f' : γ → Build β}
    (hf : ∀ a, P.FollowsBuild image (f a) (f' a)) (items : List γ) :
    P.FollowsBuild (List.map image) (items.mapM f) (items.mapM f') := by
  induction items with
  | nil => exact build_pure rfl
  | cons a rest ih =>
    rw [List.mapM_cons, List.mapM_cons]
    exact (hf a).bind fun b ↦ ih.bind fun bs ↦ build_pure rfl

theorem build_foldlM {γ : Type} {f f' : β → γ → Build β}
    (hf : ∀ b a, P.FollowsBuild image (f b a) (f' (image b) a)) (start : β) (items : List γ) :
    P.FollowsBuild image (items.foldlM f start) (items.foldlM f' (image start)) := by
  induction items generalizing start with
  | nil => exact build_pure rfl
  | cons a rest ih =>
    rw [List.foldlM_cons, List.foldlM_cons]
    exact (hf start a).bind ih

theorem build_get {next next' : Building → Build β}
    (hnext : ∀ b, P.FollowsBuild image (next b) (next' (P.building b))) :
    P.FollowsBuild image (get >>= next) (get >>= next') :=
  fun b ↦ hnext b b

theorem build_modify {f f' : Building → Building} (hf : ∀ b, P.building (f b) = f' (P.building b)) :
    P.FollowsBuild (fun u ↦ u) (modify f) (modify f') :=
  fun b ↦ follows_pure (Prod.ext rfl (hf b))

theorem build_store {next next' : Store → Build β}
    (hnext : ∀ own whole, P.Holds own whole → P.FollowsBuild image (next own) (next' whole)) :
    P.FollowsBuild image (liftM Script.store >>= next) (liftM Script.store >>= next') :=
  fun b ↦ follows_store fun own whole h ↦ hnext own whole h b

theorem build_remember (n : Nat) (v : Value) :
    P.FollowsBuild (fun u ↦ u) (Build.remember n v) (Build.remember n (P.value v)) :=
  build_modify fun b ↦ by simp [building, Array.map_setIfInBounds]

theorem content_container? {tag : Tag} {c : Cell} (h : Build.container? tag = some c) :
    P.content c = c := by
  cases tag <;> cases h <;> rfl

theorem build_value (g : Graph) (n : Nat) :
    P.FollowsBuild P.value (Build.value g n) (Build.value g n) := by
  unfold Build.value
  refine build_get fun b ↦ ?_
  have hmade : (P.building b).made.getD n none = (b.made.getD n none).map P.value := by
    simp only [building, Array.getD_eq_getD_getElem?, Array.getElem?_map]
    cases b.made[n]? <;> rfl
  rw [hmade]
  cases b.made.getD n none with
  | some made => exact build_pure rfl
  | none =>
    dsimp only [Option.map_none]
    cases hc : Build.container? (g.node n).tag with
    | some content =>
      have hcell := follows_newCell (P := P) content
      rw [content_container? hc] at hcell
      refine build_store fun own whole h ↦ hcell.build.bind fun made ↦
        (build_remember n made).bind fun _ ↦ (build_modify fun b ↦ ?_).bind fun _ ↦ build_pure rfl
      simp [building, h.cells.place_size]
    | none =>
      exact (follows_ofExcept_same _).build.bind fun text ↦
        (follows_ofExcept (map_value_of_givesAtom (givesAtom_scalarValue _ text))).build.bind fun made ↦
          (build_remember n made).bind fun _ ↦ build_pure rfl

theorem build_key (g : Graph) (n : Nat) :
    P.FollowsBuild P.value (Build.key g n) (Build.key g n) := by
  unfold Build.key
  dsimp only
  split
  · exact fun _ ↦ .done (.error (.fault .yaml))
  · split
    · exact build_pure (P.value_atom _)
    · exact build_value g n

theorem build_entries (g : Graph) (numbers : List (Nat × Nat)) :
    P.FollowsBuild (List.map P.entry) (Build.entries g numbers) (Build.entries g numbers) := by
  refine build_foldlM (fun made e ↦ ?_) [] numbers
  exact (build_key g e.1).bind fun name ↦ (build_value g e.2).bind fun item ↦
    build_store fun own whole h ↦ build_pure (h.putEntry_entries name item made).symm

theorem build_fill (g : Graph) (n place : Nat) :
    P.FollowsBuild (fun u ↦ u) (Build.fill g n place) (Build.fill g n (P.cell place)) := by
  unfold Build.fill
  cases (g.node n).tag with
  | sequence =>
    exact (follows_ofExcept_same _).build.bind fun numbers ↦
      (build_mapM (build_value g) numbers).bind fun items ↦
        (follows_setCell place (.list items)).build
  | mapping =>
    exact (follows_ofExcept_same _).build.bind fun numbers ↦
      (build_entries g numbers).bind fun made ↦ (follows_setCell place (.map made)).build
  | set =>
    refine (follows_ofExcept_same _).build.bind fun numbers ↦
      (build_entries g numbers).bind fun made ↦ ?_
    rw [map_fst_map_entry]
    exact (follows_setCell place (.set (made.map Prod.fst))).build
  | _ =>
    refine (follows_ofExcept_same _).build.bind fun numbers ↦
      (build_mapM (fun item ↦ ?_) numbers).bind fun pairs ↦
        (follows_setCell place (.list pairs)).build
    exact (follows_ofExcept_same _).build.bind fun e ↦ (build_value g e.1).bind fun name ↦
      (build_value g e.2).bind fun item ↦ build_pure (P.value_tuple [name, item])

theorem build_fillAll (g : Graph) (count : Nat) :
    P.FollowsBuild (fun u ↦ u) (Build.fillAll g count) (Build.fillAll g count) := by
  induction count with
  | zero => exact build_pure rfl
  | succ count ih =>
    unfold Build.fillAll
    refine build_get fun b ↦ ?_
    have hwaiting : (P.building b).waiting = b.waiting.map fun w ↦ (w.1, P.cell w.2) := rfl
    rw [hwaiting]
    cases b.waiting with
    | nil => exact build_pure rfl
    | cons next rest =>
      obtain ⟨n, place⟩ := next
      have hrest : P.FollowsBuild (fun u ↦ u) (modify fun b ↦ { b with waiting := rest })
          (modify fun b ↦ { b with waiting := rest.map fun w ↦ (w.1, P.cell w.2) }) :=
        build_modify fun _ ↦ rfl
      exact hrest.bind fun _ ↦ (build_fill g n place).bind fun _ ↦ ih

theorem build_document (g : Graph) :
    P.FollowsBuild P.value (Build.document g) (Build.document g) :=
  (build_value g g.root).bind fun _ ↦ (build_fillAll g _).bind fun _ ↦ build_pure rfl

theorem follows_read (text : List Char) : P.Follows P.value (Yaml.read text) (Yaml.read text) := by
  refine (follows_ofExcept_same _).bind fun graph? ↦ ?_
  cases graph? with
  | none => exact follows_pure (P.value_atom .null)
  | some g =>
    have hstart : P.building ⟨Array.replicate g.nodes.size none, []⟩ =
        ⟨Array.replicate g.nodes.size none, []⟩ := by
      simp [building]
    have hdocument := build_document (P := P) g ⟨Array.replicate g.nodes.size none, []⟩
    rw [hstart] at hdocument
    exact hdocument.bind fun made ↦ follows_pure rfl

end

/-! ### Media -/

/-- Entries of texts are the same everywhere. -/
theorem map_entry_mapOfEntries {entries : List (Value × Value)}
    (hentries : ∀ e ∈ entries, P.entry e = e) :
    (mapOfEntries (fun a b ↦ Value.sameBy (fun _ _ ↦ false) a b) entries).map P.entry =
      mapOfEntries (fun a b ↦ Value.sameBy (fun _ _ ↦ false) a b) entries := by
  have hsame (a b : Value) : Value.sameBy (fun _ _ ↦ false) (P.value a) (P.value b) =
      Value.sameBy (fun _ _ ↦ false) a b := sameBy_value (fun _ _ ↦ rfl) a b
  have hmap : entries.map P.entry = entries := by
    rw [List.map_congr_left hentries, List.map_id']
  have hfold := foldl_putEntry_map (g := P.value) hsame entries []
  exact hfold.symm.trans (congrArg (mapOfEntries _) hmap)

theorem entry_text (key text : String) :
    P.entry (.text key, .text text) = (.text key, .text text) := by
  simp [entry]

theorem follows_newTextMap {entries : List (Value × Value)}
    (hentries : ∀ e ∈ entries, P.entry e = e) :
    P.Follows P.value
      (newMap (mapOfEntries (fun a b ↦ Value.sameBy (fun _ _ ↦ false) a b) entries))
      (newMap (mapOfEntries (fun a b ↦ Value.sameBy (fun _ _ ↦ false) a b) entries)) := by
  have hmap := follows_newMap (P := P)
    (mapOfEntries (fun a b ↦ Value.sameBy (fun _ _ ↦ false) a b) entries)
  rwa [map_entry_mapOfEntries hentries] at hmap

theorem follows_newRecords (rows : List (List (List Char))) :
    P.Follows P.value (newRecords rows) (newRecords rows) := by
  cases rows with
  | nil => exact follows_newList []
  | cons header rows =>
    refine (follows_mapM_same (fun row ↦ follows_newTextMap ?_) _).bind follows_newList
    refine List.forall_mem_map.2 fun field _ ↦ entry_text _ _

theorem follows_newPage (text : List Char) : P.Follows P.value (newPage text) (newPage text) := by
  have hpage (fields : List (Scalar × Plain)) : P.Follows P.value
      (do newCell (.page (← ofPlainEntries fields) (some (String.ofList text))))
      (do newCell (.page (← ofPlainEntries fields) (some (String.ofList text)))) :=
    (follows_ofPlainEntries fields).bind fun entries ↦ follows_newCell (.page entries _)
  unfold newPage
  split
  · exact hpage _
  · exact (follows_ofExcept_same _).bind hpage
  · exact follows_fail_bind _ _ _

theorem follows_readMedia (m : Media) (text : List Char) :
    P.Follows P.value (readMedia m text) (readMedia m text) := by
  cases m with
  | json => exact (follows_ofExcept_same _).bind follows_ofPlain
  | yaml => exact follows_read text
  | csv => exact (follows_ofExcept_same _).bind follows_newRecords
  | text => exact follows_pure (P.value_atom _)
  | script => exact follows_compile _
  | html => exact follows_newPage text
  | xml => exact (follows_ofExcept_same _).bind fun d ↦ follows_pure (P.value_atom _)
  | properties =>
    exact (follows_ofExcept_same _).bind fun entries ↦ follows_newTextMap
      (List.forall_mem_map.2 fun e _ ↦ entry_text _ _)
  | form =>
    exact (follows_ofExcept_same _).bind fun entries ↦
      (follows_ofPlainEntries _).bind follows_newMap

theorem follows_decode (contentType : Option String) (body : Body) :
    P.Follows P.value (decode contentType body) (decode contentType body) := by
  unfold decode
  split
  · exact follows_readMedia _ _
  · exact follows_pure (by cases body <;> exact P.value_atom _)

end Placement

end ResourceScript
