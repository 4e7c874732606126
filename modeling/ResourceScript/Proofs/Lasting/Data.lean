import ResourceScript.Answer
import ResourceScript.Media.Read
import ResourceScript.Proofs.Lasting.Task
import ResourceScript.Scope.Entries
/-!
# Changing and reading data keeps resources

Changes of containers and scopes leave the table of resources as it is, and so do the readers of the
media types, which only add containers. Compiling source text adds resources.
-/

set_option autoImplicit false

namespace ResourceScript

/-! ### Changes of the store -/

namespace Store

variable {s t : Store}

theorem resources_bind (s : Store) (n : Nat) (key value : Value) :
    (s.bind n key value).1.resources = s.resources := by
  unfold bind
  dsimp only
  split <;> rfl

theorem resources_of_unbind? {n : Nat} {key value : Value}
    (h : s.unbind? n key = some (t, value)) : t.resources = s.resources := by
  obtain ⟨_, -, heq⟩ := Option.map_eq_some_iff.mp h
  cases heq
  rfl

theorem resources_of_putValue {parent value : Value} {key : String} {done : Bool}
    (h : s.putValue parent key value = .ok (t, done)) : t.resources = s.resources := by
  unfold putValue at h
  split at h
  · rename_i n
    cases h
    exact resources_bind s n _ value
  · rename_i n
    cases hput : s.putContent key value (s.cell n) with
    | error cause =>
      rw [hput] at h
      cases h
    | ok content =>
      rw [hput] at h
      cases content <;> cases h <;> rfl
  · cases h
    rfl

theorem resources_of_postValue {parent value : Value} {done : Bool}
    (h : s.postValue parent value = .ok (t, done)) : t.resources = s.resources := by
  unfold postValue at h
  split at h
  · split at h
    · cases h
      rfl
    · cases hbyte : byte? value with
      | error cause =>
        rw [hbyte] at h
        cases h
      | ok b =>
        rw [hbyte] at h
        cases h
        rfl
    · split at h <;> cases h
      rfl
    · cases h
      rfl
  · cases h
    rfl

theorem resources_of_deleteValue {parent : Value} {key : String} {done : Bool}
    (h : s.deleteValue parent key = .ok (t, done)) : t.resources = s.resources := by
  unfold deleteValue at h
  split at h
  · split at h
    · rename_i hunbind
      cases h
      exact resources_of_unbind? hunbind
    · cases h
      rfl
  · rename_i n
    cases hdelete : s.deleteContent key (s.cell n) with
    | error cause =>
      rw [hdelete] at h
      cases h
    | ok content =>
      rw [hdelete] at h
      cases content <;> cases h <;> rfl
  · cases h
    rfl

end Store

namespace Script

/-! ### Scopes -/

instance (key : Value) : Keeping (requireKey key) := by
  unfold requireKey
  infer_instance

instance (scope : Scope) : Keeping (newScope scope) :=
  keeping_update fun _ ↦ keepsFrom_setStore_bind (.of_resources_eq rfl)

instance (n : Nat) (key value : Value) : Keeping (bind n key value) := by
  unfold bind
  refine keeping_bind fun _ ↦ keeping_update fun s ↦ ?_
  exact keepsFrom_setStore_bind (.of_resources_eq (s.resources_bind n key value))

instance (n : Nat) (key : Value) : Keeping (reach n key) := by
  unfold reach
  infer_instance

instance (n : Nat) (key : Value) : Keeping (binding? n key) := by
  unfold binding?
  infer_instance

instance (n : Nat) (key : Value) : Keeping (binding n key) := by
  unfold binding
  refine keeping_bind fun found ↦ ?_
  split <;> infer_instance

instance (n : Nat) (key : Value) : Keeping (unbind? n key) := by
  unfold unbind?
  refine keeping_bind fun _ ↦ keeping_update fun s ↦ ?_
  split
  · rename_i hunbind
    exact keepsFrom_setStore_bind (.of_resources_eq (Store.resources_of_unbind? hunbind))
  · exact .of_keeping

/-! ### Structured access -/

instance (key : Value) : Keeping (keyText key) := by
  unfold keyText
  split <;> infer_instance

instance (parent key : Value) : Keeping (getValue parent key) := by
  unfold getValue
  infer_instance

theorem keepsFrom_change {s : Store} {result : Except Fault (Store × Bool)}
    (h : ∀ t done, result = .ok (t, done) → t.resources = s.resources) :
    KeepsFrom s (change result) fun _ ↦ True := by
  cases result with
  | error cause => exact KeepsFrom.of_keeping (x := (fail cause : Task Bool))
  | ok changed => exact keepsFrom_setStore_bind (.of_resources_eq (h changed.1 changed.2 rfl))

instance (parent key value : Value) : Keeping (putValue parent key value) := by
  unfold putValue
  refine keeping_bind fun _ ↦ keeping_update fun _ ↦ keepsFrom_change fun _ _ h ↦ ?_
  exact Store.resources_of_putValue h

instance (parent value : Value) : Keeping (postValue parent value) :=
  keeping_update fun _ ↦ keepsFrom_change fun _ _ h ↦ Store.resources_of_postValue h

instance (parent key : Value) : Keeping (deleteValue parent key) := by
  unfold deleteValue
  refine keeping_bind fun _ ↦ keeping_update fun _ ↦ keepsFrom_change fun _ _ h ↦ ?_
  exact Store.resources_of_deleteValue h

/-! ### Collections -/

instance (value : Value) : Keeping (itemsOf value) := by
  unfold itemsOf
  split <;> infer_instance

instance (value : Value) : Keeping (toList value) := by
  unfold toList
  refine keeping_bind fun s ↦ ?_
  split <;> infer_instance

instance (items : List Value) : Keeping (distinct items) := by
  unfold distinct
  infer_instance

instance (source : Kind) (items : List Value) : Keeping (setOf source items) := by
  unfold setOf
  refine keeping_bind fun found ↦ ?_
  split <;> infer_instance

instance (value : Value) : Keeping (toSet value) := by
  unfold toSet
  refine keeping_bind fun s ↦ ?_
  split <;> infer_instance

instance (value : Value) : Keeping (toCollection value) := by
  unfold toCollection
  refine keeping_bind fun s ↦ ?_
  split <;> infer_instance

instance (value : Value) : Keeping (entriesOf value) := by
  unfold entriesOf
  refine keeping_bind fun s ↦ ?_
  split
  · infer_instance
  · split
    · infer_instance
    · split
      · split <;> infer_instance
      · infer_instance
      · infer_instance
      · infer_instance
    · infer_instance
    · infer_instance
    · infer_instance
    · infer_instance

instance (value : Value) : Keeping (toMap value) := by
  unfold toMap
  refine keeping_bind fun s ↦ ?_
  split <;> infer_instance

/-! ### Host methods -/

instance (name : String) : Keeping (classNamed? name) := by
  unfold classNamed?
  infer_instance

instance (info : ClassInfo) : Keeping (classOf? info) := by
  unfold classOf?
  infer_instance

instance (a b : Value) : Keeping (plus a b) := by
  unfold plus
  split
  · infer_instance
  · split
    · infer_instance
    · refine keeping_bind fun first ↦ keeping_bind fun second ↦ ?_
      split <;> infer_instance
    · infer_instance

instance (a b : Value) : Keeping (times a b) := by
  unfold times
  split <;> infer_instance

instance (a : Value) : Keeping (double a) := by
  unfold double
  split
  · infer_instance
  · split <;> infer_instance
  · infer_instance

instance (self : Value) (name : String) : Keeping (fieldOf self name) := by
  unfold fieldOf
  split
  · refine keeping_bind fun content ↦ ?_
    split
    · split <;> infer_instance
    · infer_instance
  · infer_instance

mutual

instance keeping_answer (self : Value) (arguments : List Value) (term : HostTerm) :
    Keeping (answer self arguments term) := by
  match term with
  | .constant _ | .field _ | .argument .. | .count | .arguments =>
    rw [answer]
    infer_instance
  | .plus a b | .times a b =>
    rw [answer]
    have ha := keeping_answer self arguments a
    have hb := keeping_answer self arguments b
    infer_instance
  | .double a | .display a =>
    rw [answer]
    have ha := keeping_answer self arguments a
    infer_instance
  | .textOnly a =>
    rw [answer]
    have ha := keeping_answer self arguments a
    refine keeping_bind fun value ↦ ?_
    split <;> infer_instance
  | .new name fields =>
    rw [answer]
    have hfields := keeping_answers self arguments fields
    refine keeping_bind fun c ↦ ?_
    split <;> infer_instance

instance keeping_answers (self : Value) (arguments : List Value)
    (fields : List (String × HostTerm)) : Keeping (answers self arguments fields) := by
  match fields with
  | [] =>
    rw [answers]
    infer_instance
  | (name, term) :: rest =>
    rw [answers]
    have hterm := keeping_answer self arguments term
    have hrest := keeping_answers self arguments rest
    infer_instance

end

/-! ### Compiling -/

section

variable {identify : (word uri : String) → Task ResourceRef}
  [hidentify : ∀ word uri, Keeping (identify word uri)]

mutual

instance keeping_load (value : Value) : Keeping (value.load identify) := by
  match value with
  | .call f params =>
    rw [Value.load]
    have hparams := keeping_loadAll params
    infer_instance
  | .resource (.written _ word uri) =>
    rw [Value.load]
    infer_instance
  | .resource (.made _) | .atom _ | .tuple _ | .frozen _ | .cell _ | .scope _ =>
    exact inferInstanceAs (Keeping (pure _ : Task Value))

instance keeping_loadAll (values : List Value) : Keeping (Value.loadAll identify values) := by
  match values with
  | [] =>
    rw [Value.loadAll]
    infer_instance
  | value :: rest =>
    rw [Value.loadAll]
    have hvalue := keeping_load value
    have hrest := keeping_loadAll rest
    infer_instance

end

end

instance (text uri : String) : Keeping (makeWritten text uri) := by
  unfold makeWritten
  infer_instance

instance (source : String) : Keeping (compile source) := by
  unfold compile
  infer_instance

end Script

/-! ### YAML documents -/

namespace Yaml.Build

open Script (Keeping keeping_bind)

/-- A step of building values that keeps resources from every state on. -/
class Keeps {α : Type} (x : Build α) : Prop where
  /-- Running the step keeps resources. -/
  keeping : ∀ b, Keeping (x.run b)

section

variable {α β : Type} {x : Build α}

instance [hx : Keeps x] (b : Building) : Keeping (x.run b) :=
  hx.keeping b

instance (a : α) : Keeps (pure a : Build α) :=
  ⟨fun b ↦ inferInstanceAs (Keeping (pure (a, b)))⟩

instance bind_keeps {next : α → Build β} [hx : Keeps x] [hnext : ∀ a, Keeps (next a)] :
    Keeps (x >>= next) := by
  refine ⟨fun b ↦ ?_⟩
  rw [StateT.run_bind]
  infer_instance

theorem keeps_bind [Keeps x] {next : α → Build β} (hnext : ∀ a, Keeps (next a)) :
    Keeps (x >>= next) :=
  inferInstance

instance (y : Task α) [hy : Keeping y] : Keeps (liftM y : Build α) :=
  ⟨fun b ↦ inferInstanceAs (Keeping (y >>= fun a ↦ pure (a, b)))⟩

instance : Keeps (get : Build Building) :=
  ⟨fun b ↦ inferInstanceAs (Keeping (pure (b, b)))⟩

instance (f : Building → Building) : Keeps (modify f : Build PUnit) :=
  ⟨fun b ↦ inferInstanceAs (Keeping (pure (PUnit.unit, f b)))⟩

instance {f : α → Build β} [hf : ∀ a, Keeps (f a)] (items : List α) : Keeps (items.mapM f) := by
  induction items with
  | nil =>
    rw [List.mapM_nil]
    infer_instance
  | cons a rest ih =>
    rw [List.mapM_cons]
    infer_instance

instance {f : β → α → Build β} [hf : ∀ b a, Keeps (f b a)] (start : β) (items : List α) :
    Keeps (items.foldlM f start) := by
  induction items generalizing start with
  | nil =>
    rw [List.foldlM_nil]
    infer_instance
  | cons a rest ih =>
    rw [List.foldlM_cons]
    infer_instance

end

instance (n : Nat) (value : Value) : Keeps (remember n value) := by
  unfold remember
  infer_instance

instance (g : Graph) (n : Nat) : Keeps (value g n) := by
  unfold value
  refine keeps_bind fun b ↦ ?_
  split
  · infer_instance
  · dsimp only
    split <;> infer_instance

instance (g : Graph) (n : Nat) : Keeps (key g n) := by
  unfold key
  dsimp only
  split
  · refine keeps_bind fun _ ↦ ?_
    split <;> infer_instance
  · split <;> infer_instance

instance (g : Graph) (numbers : List (Nat × Nat)) : Keeps (entries g numbers) := by
  unfold entries
  infer_instance

instance (g : Graph) (n place : Nat) : Keeps (fill g n place) := by
  unfold fill
  split <;> infer_instance

instance (g : Graph) (count : Nat) : Keeps (fillAll g count) := by
  induction count with
  | zero => exact inferInstanceAs (Keeps (pure ()))
  | succ count ih =>
    unfold fillAll
    refine keeps_bind fun b ↦ ?_
    split <;> infer_instance

instance (g : Graph) : Keeps (document g) := by
  unfold document
  infer_instance

end Yaml.Build

namespace Script

instance (text : List Char) : Keeping (Yaml.read text) := by
  unfold Yaml.read
  refine keeping_bind fun g ↦ ?_
  split <;> infer_instance

/-! ### Media types -/

instance (rows : List (List (List Char))) : Keeping (newRecords rows) := by
  unfold newRecords
  split <;> infer_instance

instance (text : List Char) : Keeping (newPage text) := by
  unfold newPage
  split <;> infer_instance

instance (m : Media) (text : List Char) : Keeping (readMedia m text) := by
  unfold readMedia
  split <;> infer_instance

instance (contentType : Option String) (body : Body) : Keeping (decode contentType body) := by
  unfold decode
  split <;> infer_instance

end Script

end ResourceScript
