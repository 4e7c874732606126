import Mathlib.Data.List.Forall2
import ResourceScript.Script
import ResourceScript.Store.View
import ResourceScript.Format.Xml.Tree
/-!
# Data that is added to the store

A reader adds what it reads to the store: containers after those that are there, the inner ones
first. The value that it ends with shows exactly the data that was read, whatever the store held
before (`Script.Makes`). Lists and maps of such data are such data again (`Script.makes_newList`,
`Script.makes_newMap`), so plain data is added as it is (`Script.makes_ofPlain`).

References only lead to older containers, which is why no path through them meets a container twice
and why the depth of the view suffices (`Store.Shows`).
-/

set_option autoImplicit false

namespace ResourceScript

namespace Store

/-- Whether a value shows data in every store that has the containers before a position in common
with a store, at every depth from the position on and behind containers from the position on. -/
def Shows (s : Store) (bound : Nat) (value : Value) (data : Data) : Prop :=
  ∀ t : Store, (∀ n < bound, t.cell n = s.cell n) → ∀ depth ≥ bound, ∀ path : List Ref,
    (∀ ref ∈ path, ∃ n ≥ bound, ref = .cell n) → t.viewWithin depth path value = data

/-- Whether a value of a store shows data by the containers that are there. -/
def Shown (s : Store) (value : Value) (data : Data) : Prop :=
  s.Shows s.cells.size value data

/-- Whether an entry of a store shows an entry of data. -/
def ShownEntry (s : Store) (entry : Value × Value) (data : Data × Data) : Prop :=
  s.Shown entry.1 data.1 ∧ s.Shown entry.2 data.2

variable {s t : Store} {bound : Nat} {value : Value} {data : Data}

theorem Shows.mono (hvalue : s.Shows bound value data) {larger : Nat} (hbound : bound ≤ larger)
    (hcells : ∀ n < bound, t.cell n = s.cell n) : t.Shows larger value data := by
  intro u hu depth hdepth path hpath
  refine hvalue u (fun n hn ↦ (hu n (by omega)).trans (hcells n hn)) depth (by omega) path ?_
  intro ref href
  obtain ⟨n, hn, rfl⟩ := hpath ref href
  exact ⟨n, by omega, rfl⟩

theorem shows_atom (s : Store) (bound : Nat) (a : Atom) : s.Shows bound (.atom a) (.atom a) := by
  intro t _ depth _ path _
  cases depth <;> rfl

/-- A container that no path has met yet shows its content one level further down. -/
theorem viewWithin_cell {n depth : Nat} {path : List Ref}
    (hpath : ∀ ref ∈ path, ∃ m > n, ref = .cell m) :
    t.viewWithin (depth + 1) path (.cell n) =
      (t.cell n).shows (t.viewWithin depth (.cell n :: path)) t.sideOf := by
  have hmem : Ref.cell n ∉ path := by
    intro hmem
    obtain ⟨m, hm, heq⟩ := hpath _ hmem
    cases heq
    omega
  have hnew : path.contains (.cell n) = false := by
    rw [List.contains_eq_mem, decide_eq_false hmem]
  show (if path.contains (.cell n) then Data.cycle else _) = _
  rw [hnew]
  rfl

/-- The values inside a container are seen as they show among the containers before it. -/
theorem Shows.inside {n depth : Nat} {path : List Ref} (hvalue : s.Shows n value data)
    (hcells : ∀ m < n + 1, t.cell m = s.cell m) (hdepth : n ≤ depth)
    (hpath : ∀ ref ∈ path, ∃ m ≥ n + 1, ref = .cell m) :
    t.viewWithin depth (.cell n :: path) value = data := by
  refine hvalue t (fun m hm ↦ hcells m (by omega)) depth hdepth _ ?_
  intro ref href
  rcases List.mem_cons.mp href with rfl | href
  · exact ⟨n, Nat.le_refl n, rfl⟩
  · obtain ⟨m, hm, rfl⟩ := hpath ref href
    exact ⟨m, by omega, rfl⟩

theorem shows_list {n : Nat} {items : List Value} {shown : List Data}
    (hcell : s.cell n = .list items) (hitems : List.Forall₂ (s.Shows n) items shown) :
    s.Shows (n + 1) (.cell n) (.list shown) := by
  intro t hcells depth hdepth path hpath
  obtain ⟨depth, rfl⟩ : ∃ k, depth = k + 1 := ⟨depth - 1, by omega⟩
  rw [viewWithin_cell hpath, hcells n (by omega), hcell, Cell.shows]
  congr 1
  clear hcell
  induction hitems with
  | nil => rfl
  | cons hitem _ ih =>
    rw [List.map_cons, hitem.inside hcells (by omega) hpath, ih]

theorem shows_map {n : Nat} {entries : List (Value × Value)} {shown : List (Data × Data)}
    (hcell : s.cell n = .map entries)
    (hentries : List.Forall₂ (fun entry data ↦ s.Shows n entry.1 data.1 ∧ s.Shows n entry.2 data.2)
      entries shown) :
    s.Shows (n + 1) (.cell n) (.map shown) := by
  intro t hcells depth hdepth path hpath
  obtain ⟨depth, rfl⟩ : ∃ k, depth = k + 1 := ⟨depth - 1, by omega⟩
  rw [viewWithin_cell hpath, hcells n (by omega), hcell, Cell.shows]
  congr 1
  clear hcell
  induction hentries with
  | nil => rfl
  | cons hentry _ ih =>
    rw [List.map_cons, ih]
    simp only [hentry.1.inside hcells (Nat.le_of_succ_le_succ hdepth) hpath,
      hentry.2.inside hcells (Nat.le_of_succ_le_succ hdepth) hpath]

theorem Shown.view (hvalue : s.Shown value data) : s.view value = data :=
  hvalue s (fun _ _ ↦ rfl) _ (by omega) [] fun _ href ↦ absurd href List.not_mem_nil

end Store

/-! ### Worlds with more containers -/

namespace World

/-- Whether a world is another with containers added. -/
def Grows (w v : World) : Prop :=
  ∃ cells : Array Cell, v = { w with store := { w.store with cells := w.store.cells ++ cells } }

variable {u v w : World}

theorem Grows.refl (w : World) : w.Grows w :=
  ⟨#[], by rw [Array.append_empty]⟩

theorem Grows.trans (hvw : u.Grows v) (hwu : v.Grows w) : u.Grows w := by
  obtain ⟨first, rfl⟩ := hvw
  obtain ⟨second, rfl⟩ := hwu
  exact ⟨first ++ second, by simp only [Array.append_assoc]⟩

theorem Grows.size_le (h : w.Grows v) : w.store.cells.size ≤ v.store.cells.size := by
  obtain ⟨cells, rfl⟩ := h
  simp

theorem Grows.cell (h : w.Grows v) {n : Nat} (hn : n < w.store.cells.size) :
    v.store.cell n = w.store.cell n := by
  obtain ⟨cells, rfl⟩ := h
  simp [Store.cell, Array.getD_eq_getD_getElem?, Array.getElem?_append_left hn]

/-- What a value shows stays when containers are added. -/
theorem Grows.shown (h : w.Grows v) {value : Value} {data : Data}
    (hvalue : w.store.Shown value data) : v.store.Shown value data :=
  hvalue.mono h.size_le fun _ hn ↦ h.cell hn

theorem Grows.shownEntry (h : w.Grows v) {entry : Value × Value} {data : Data × Data}
    (hentry : w.store.ShownEntry entry data) : v.store.ShownEntry entry data :=
  ⟨h.shown hentry.1, h.shown hentry.2⟩

end World

/-! ### Tasks that add data -/

namespace Script

/-- Whether a task run in a world, whatever its jobs do, adds containers to the world and ends with
a result of a given sort. -/
def Adds {α : Type} (w : World) (x : Task α) (P : Store → α → Prop) : Prop :=
  ∀ jobs : Job → Script Value, ∃ a v, x.run jobs w = (.ok a, v) ∧ w.Grows v ∧ P v.store a

/-- Whether a task, in every world and whatever its jobs do, adds containers to the world and ends
with a value that shows the given data. -/
def Makes (x : Task Value) (data : Data) : Prop :=
  ∀ (jobs : Job → Script Value) (w : World), ∃ value v,
    x.run jobs w = (.ok value, v) ∧ w.Grows v ∧ v.store.view value = data

variable {α β γ δ : Type} {w : World}

theorem makes_of_adds {x : Task Value} {data : Data}
    (hx : ∀ w, Adds w x fun s value ↦ s.Shown value data) : Makes x data := by
  intro jobs w
  obtain ⟨value, v, hrun, hgrows, hvalue⟩ := hx w jobs
  exact ⟨value, v, hrun, hgrows, hvalue.view⟩

/-- A task makes one thing only. -/
theorem Makes.unique {x : Task Value} {data other : Data} (hdata : Makes x data)
    (hother : Makes x other) : data = other := by
  obtain ⟨value, v, hrun, -, rfl⟩ := hdata (fun _ ↦ throw .exhausted) builtinWorld
  obtain ⟨value', v', hrun', -, rfl⟩ := hother (fun _ ↦ throw .exhausted) builtinWorld
  rw [hrun] at hrun'
  cases hrun'
  rfl

theorem not_makes_fail (cause : Fault) (data : Data) : ¬ Makes (fail cause) data := by
  intro hmakes
  obtain ⟨value, v, hrun, -⟩ := hmakes (fun _ ↦ throw .exhausted) builtinWorld
  cases hrun

theorem adds_pure {P : Store → α → Prop} {a : α} (ha : P w.store a) : Adds w (pure a) P :=
  fun _ ↦ ⟨a, w, rfl, .refl w, ha⟩

theorem Adds.bind {x : Task α} {next : α → Task β} {P : Store → α → Prop} {Q : Store → β → Prop}
    (hx : Adds w x P) (hnext : ∀ a v, w.Grows v → P v.store a → Adds v (next a) Q) :
    Adds w (x >>= next) Q := by
  intro jobs
  obtain ⟨a, v, hrun, hwv, ha⟩ := hx jobs
  obtain ⟨b, u, hafter, hvu, hb⟩ := hnext a v hwv ha jobs
  exact ⟨b, u, by rw [Task.run_bind, bind_of_ok hrun, hafter], hwv.trans hvu, hb⟩

/-- One task and then others give the list of their results; what a result shows stays while the
others add theirs. -/
theorem Adds.cons {x : Task α} {xs : Task (List β)} {f : α → β} {R : Store → β → δ → Prop} {d : δ}
    {ds : List δ} (hkept : ∀ {v u : World} {b : β}, v.Grows u → R v.store b d → R u.store b d)
    (hx : ∀ w, Adds w x fun s a ↦ R s (f a) d)
    (hxs : ∀ w, Adds w xs fun s bs ↦ List.Forall₂ (R s) bs ds) (w : World) :
    Adds w (do return f (← x) :: (← xs)) fun s bs ↦ List.Forall₂ (R s) bs (d :: ds) :=
  (hx w).bind fun _ v _ ha ↦ (hxs v).bind fun _ _ hvu hbs ↦
    adds_pure (.cons (hkept hvu ha) hbs)

/-- A new container shows what its content shows once the container is there. -/
theorem adds_newCell {content : Cell} {data : Data}
    (hshows : ∀ s : Store, (∀ n < w.store.cells.size, s.cell n = w.store.cell n) →
      s.cell w.store.cells.size = content →
      s.Shows (w.store.cells.size + 1) (.cell w.store.cells.size) data) :
    Adds w (newCell content) fun s value ↦ s.Shown value data := by
  intro jobs
  have hgrows : w.Grows { w with store := { w.store with cells := w.store.cells.push content } } :=
    ⟨#[content], rfl⟩
  refine ⟨.cell w.store.cells.size, _, rfl, hgrows, ?_⟩
  have hsize : (w.store.cells.push content).size = w.store.cells.size + 1 := Array.size_push ..
  show Store.Shows _ (w.store.cells.push content).size _ _
  rw [hsize]
  refine hshows _ (fun n hn ↦ hgrows.cell hn) ?_
  show (w.store.cells.push content).getD w.store.cells.size _ = content
  simp [Array.getD_eq_getD_getElem?]

theorem adds_newList {items : List Value} {shown : List Data}
    (hitems : List.Forall₂ w.store.Shown items shown) :
    Adds w (newList items) fun s value ↦ s.Shown value (.list shown) :=
  adds_newCell fun _ hcells hcell ↦ Store.shows_list hcell
    (hitems.imp fun _ _ hitem ↦ hitem.mono (Nat.le_refl _) hcells)

theorem adds_newMap {entries : List (Value × Value)} {shown : List (Data × Data)}
    (hentries : List.Forall₂ w.store.ShownEntry entries shown) :
    Adds w (newMap entries) fun s value ↦ s.Shown value (.map shown) :=
  adds_newCell fun _ hcells hcell ↦ Store.shows_map hcell
    (hentries.imp fun _ _ hentry ↦ ⟨hentry.1.mono (Nat.le_refl _) hcells,
      hentry.2.mono (Nat.le_refl _) hcells⟩)

/-- Tasks for the items of a list, each of which adds its own data. -/
theorem adds_mapM {f : γ → Task Value} {g : γ → Data} {items : List γ}
    (hf : ∀ c ∈ items, ∀ w, Adds w (f c) fun s value ↦ s.Shown value (g c)) (w : World) :
    Adds w (items.mapM f) fun s values ↦ List.Forall₂ s.Shown values (items.map g) := by
  induction items generalizing w with
  | nil => exact adds_pure .nil
  | cons c rest ih =>
    rw [List.mapM_cons, List.map_cons]
    exact Adds.cons (f := id) (fun hgrows hb ↦ hgrows.shown hb) (hf c List.mem_cons_self)
      (ih fun d hd ↦ hf d (List.mem_cons_of_mem c hd)) w

/-! ### Plain data -/

theorem shown_ofScalar (s : Store) (scalar : Scalar) :
    s.Shown (ofScalar scalar) (Xml.shown (.scalar scalar)) := by
  cases scalar <;> rw [Xml.shown] <;> exact Store.shows_atom s _ _

mutual

theorem adds_ofPlain (plain : Plain) (w : World) :
    Adds w (ofPlain plain) fun s value ↦ s.Shown value (Xml.shown plain) := by
  match plain with
  | .scalar scalar => exact adds_pure (shown_ofScalar w.store scalar)
  | .list items =>
    rw [Xml.shown]
    exact (adds_ofPlainItems items w).bind fun _ _ _ hvalues ↦ adds_newList hvalues
  | .map entries =>
    rw [Xml.shown]
    exact (adds_ofPlainEntries entries w).bind fun _ _ _ hvalues ↦ adds_newMap hvalues

theorem adds_ofPlainItems (items : List Plain) (w : World) :
    Adds w (ofPlainItems items) fun s values ↦
      List.Forall₂ s.Shown values (Xml.shownItems items) := by
  match items with
  | [] =>
    rw [Xml.shownItems]
    exact adds_pure .nil
  | item :: rest =>
    rw [Xml.shownItems]
    exact Adds.cons (f := id) (fun hgrows hb ↦ hgrows.shown hb) (adds_ofPlain item)
      (adds_ofPlainItems rest) w

theorem adds_ofPlainEntries (entries : List (Scalar × Plain)) (w : World) :
    Adds w (ofPlainEntries entries) fun s values ↦
      List.Forall₂ s.ShownEntry values (Xml.shownEntries entries) := by
  match entries with
  | [] =>
    rw [Xml.shownEntries]
    exact adds_pure .nil
  | (key, value) :: rest =>
    rw [Xml.shownEntries]
    refine Adds.cons (f := fun made ↦ (ofScalar key, made)) (fun hgrows hb ↦ hgrows.shownEntry hb)
      (fun w ↦ ?_) (adds_ofPlainEntries rest) w
    intro jobs
    obtain ⟨made, v, hrun, hgrows, hmade⟩ := adds_ofPlain value w jobs
    exact ⟨made, v, hrun, hgrows, shown_ofScalar v.store key, hmade⟩

end

/-- Plain data is added as it is. -/
theorem makes_ofPlain (plain : Plain) : Makes (ofPlain plain) (Xml.shown plain) :=
  makes_of_adds (adds_ofPlain plain)

end Script

end ResourceScript
