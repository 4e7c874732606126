import ResourceScript.Media.Read
import ResourceScript.Proofs.Session.Steps
/-!
# Values that are read are no resources

Whatever the bytes of a message are, reading them as a media type gives a value without parts, a new
container, or a compiled call. Resources may be written in the lines of a script, but the script is
a call, so what is read is never a resource itself (`Script.returns_decode`).

What a task answers is stated for all runs of it (`Task.Returns`). The scalars of YAML are values
without parts (`Yaml.givesAtom_scalarValue`).
-/

set_option autoImplicit false

namespace ResourceScript

/-- Whether all that a task answers has a property, whatever its jobs do. -/
def Task.Returns {α : Type} (P : α → Prop) (x : Task α) : Prop :=
  ∀ jobs, Script.Answers P (x.run jobs)

/-- Whether a value is not a resource. -/
def Value.IsNoResource (value : Value) : Prop :=
  ∀ r, value ≠ .resource r

namespace Value

theorem isNoResource_atom (a : Atom) : IsNoResource (.atom a) :=
  nofun

theorem isNoResource_cell (n : Nat) : IsNoResource (.cell n) :=
  nofun

theorem isNoResource_of_isLine {value : Value} (h : Library.isLine value = true) :
    value.IsNoResource := by
  rintro r rfl
  exact Bool.false_ne_true h

end Value

/-! ### Scalars of YAML -/

namespace Yaml

variable {α : Type}

/-- Whether a computation gives nothing but a value without parts. -/
def GivesAtom : Except Fault Value → Prop
  | .ok v => ∃ a, v = .atom a
  | .error _ => True

theorem GivesAtom.bind {x : Except Fault α} {next : α → Except Fault Value}
    (hnext : ∀ a, GivesAtom (next a)) : GivesAtom (x >>= next) := by
  cases x with
  | ok a => exact hnext a
  | error cause => trivial

theorem givesAtom_intValue (text : List Char) : GivesAtom (intValue text) := by
  unfold intValue
  dsimp only
  split
  · trivial
  · refine .bind fun n ↦ ?_
    exact ⟨_, rfl⟩

theorem givesAtom_floatValue (text : List Char) : GivesAtom (floatValue text) := by
  unfold floatValue
  dsimp only
  split
  · trivial
  · have hreal (x : Double) : GivesAtom (pure (.real x)) := ⟨_, rfl⟩
    split
    · exact hreal _
    split
    · exact hreal _
    split
    · exact .bind fun parts ↦ hreal _
    · exact .bind fun x ↦ hreal _

theorem givesAtom_momentValue (text : List Char) : GivesAtom (momentValue text) := by
  unfold momentValue
  dsimp only
  split
  · trivial
  · split
    · exact ⟨_, rfl⟩
    · trivial
  · split
    · exact ⟨_, rfl⟩
    · trivial

/-- A scalar is a value without parts. -/
theorem givesAtom_scalarValue (tag : Tag) (text : List Char) :
    GivesAtom (scalarValue tag text) := by
  cases tag with
  | null | text => exact ⟨_, rfl⟩
  | bool =>
    unfold scalarValue boolValue
    dsimp only
    split
    · exact ⟨_, rfl⟩
    · trivial
  | int => exact givesAtom_intValue text
  | float => exact givesAtom_floatValue text
  | timestamp => exact givesAtom_momentValue text
  | binary =>
    unfold scalarValue binaryValue
    dsimp only
    split
    · split
      · exact ⟨_, rfl⟩
      · trivial
    · trivial
  | _ => trivial

end Yaml

/-! ### What tasks answer -/

theorem Task.Returns.bind {α β : Type} {P : α → Prop} {Q : β → Prop} {x : Task α}
    {next : α → Task β} (hx : x.Returns P) (hnext : ∀ a, P a → (next a).Returns Q) :
    (x >>= next).Returns Q := by
  intro jobs w b v hrun
  rw [Task.run_bind] at hrun
  obtain ⟨a, u, hfirst, hsecond⟩ := Script.bind_eq_ok_iff.1 hrun
  exact hnext a (hx jobs w a u hfirst) jobs u b v hsecond

namespace Script

variable {α β : Type} {P : α → Prop} {Q : β → Prop}

theorem returns_pure {a : α} (ha : P a) : (pure a : Task α).Returns P :=
  fun _ ↦ Answers.pure ha

/-- What a task answers is what its last part answers. -/
theorem returns_bind {x : Task α} {next : α → Task β} (hnext : ∀ a, (next a).Returns Q) :
    (x >>= next).Returns Q := by
  intro jobs
  rw [Task.run_bind]
  exact Answers.bind _ fun a ↦ hnext a jobs

theorem returns_fail (cause : Fault) : (fail cause : Task α).Returns P := by
  intro jobs w a v hrun
  cases hrun

theorem returns_ofExcept {result : Except Fault α} (h : ∀ a, result = .ok a → P a) :
    (ofExcept result).Returns P := by
  cases result with
  | error cause => exact returns_fail cause
  | ok a => exact returns_pure (h a rfl)

theorem returns_compiling {c : Compiler α} (h : ∀ s a, c.Yields s a → P a) :
    (compiling c).Returns P := by
  unfold compiling
  exact returns_bind fun s ↦ returns_bind fun _ ↦ returns_ofExcept fun a ha ↦ h s a ha

theorem returns_newCell (content : Cell) : (newCell content).Returns Value.IsNoResource := by
  unfold newCell
  exact returns_bind fun s ↦ returns_bind fun _ ↦ returns_pure (Value.isNoResource_cell _)

theorem returns_ofPlain (plain : Plain) : (ofPlain plain).Returns Value.IsNoResource := by
  cases plain with
  | scalar s =>
    rw [ofPlain]
    apply returns_pure
    cases s <;> exact Value.isNoResource_atom _
  | list items =>
    rw [ofPlain]
    exact returns_bind fun values ↦ returns_newCell _
  | map entries =>
    rw [ofPlain]
    exact returns_bind fun values ↦ returns_newCell _

/-! ### Source text -/

theorem returns_load {value : Value} (hvalue : Library.isLine value = true)
    (identify : (word uri : String) → Task ResourceRef) :
    (value.load identify).Returns Value.IsNoResource := by
  cases value with
  | call f params =>
    rw [Value.load]
    exact returns_bind fun values ↦ returns_pure (Value.isNoResource_of_isLine rfl)
  | _ => cases hvalue

theorem isLine_of_yields_compile {source : String} {s : Surroundings} {program : Value}
    (h : (Compiler.compile source).Yields s program) : Library.isLine program = true := by
  have hline {line : String} (h : (Compiler.compileLine line).Yields s program) :
      Library.isLine program = true := by
    obtain ⟨tokens, -, htokens⟩ := (Compiler.yields_bind ..).1 h
    rw [← (Compiler.yields_pure ..).1 htokens]
    exact Call.isLine_ofTokens tokens
  unfold Compiler.compile at h
  split at h
  · exact hline h
  · exact hline h
  · obtain ⟨o, -, ho⟩ := (Compiler.yields_bind ..).1 h
    rw [← (Compiler.yields_pure ..).1 ho, Outline.program_eq]
    rfl

theorem returns_compile (source : String) : (compile source).Returns Value.IsNoResource := by
  unfold compile
  refine Task.Returns.bind (returns_compiling fun s a h ↦ isLine_of_yields_compile h) fun a ha ↦ ?_
  exact returns_load ha makeWritten

end Script

/-! ### YAML documents -/

namespace Yaml.Build

open Script (returns_pure returns_bind returns_ofExcept returns_newCell)

/-- Whether all that a step of building answers has a property. -/
def Returns {α : Type} (P : α → Prop) (x : Build α) : Prop :=
  ∀ b, (x.run b).Returns fun result ↦ P result.1

section

variable {α β : Type} {P : α → Prop} {Q : β → Prop} {x : Build α} {next : α → Build β}

theorem Returns.bind (hx : x.Returns P) (hnext : ∀ a, P a → (next a).Returns Q) :
    (x >>= next).Returns Q := by
  intro b
  rw [StateT.run_bind]
  exact (hx b).bind fun result h ↦ hnext result.1 h result.2

theorem returns_step (hnext : ∀ a, (next a).Returns Q) : (x >>= next).Returns Q := by
  intro b
  rw [StateT.run_bind]
  exact returns_bind fun result ↦ hnext result.1 result.2

theorem returns_of_value {a : α} (ha : P a) : (pure a : Build α).Returns P :=
  fun _ ↦ returns_pure ha

theorem returns_of_task {y : Task α} (hy : y.Returns P) : (liftM y : Build α).Returns P :=
  fun _ ↦ hy.bind fun _ ha ↦ returns_pure ha

end

/-- The value of a node that is not made yet. -/
theorem returns_value (g : Graph) {n : Nat} {b : Building} (hmade : b.made.getD n none = none) :
    ((value g n).run b).Returns fun result ↦ result.1.IsNoResource := by
  unfold value
  rw [StateT.run_bind]
  have hget : (get : Build Building).run b = pure (b, b) := rfl
  rw [hget, pure_bind, hmade]
  dsimp only
  split
  · rename_i content _
    refine returns_step (fun place ↦ ?_) b
    refine Returns.bind (returns_of_task (returns_newCell content)) fun made h ↦ ?_
    exact returns_step fun _ ↦ returns_step fun _ ↦ returns_of_value h
  · refine returns_step (fun text ↦ ?_) b
    refine Returns.bind (P := Value.IsNoResource) (returns_of_task (returns_ofExcept ?_))
      fun made h ↦ returns_step fun _ ↦ returns_of_value h
    intro made hmade
    have hatom := givesAtom_scalarValue (g.node n).tag text
    rw [hmade] at hatom
    obtain ⟨a, rfl⟩ := hatom
    exact Value.isNoResource_atom a

theorem returns_document (g : Graph) (count : Nat) :
    ((document g).run ⟨Array.replicate count none, []⟩).Returns
      fun result ↦ result.1.IsNoResource := by
  have hmade : (Array.replicate count (none : Option Value)).getD g.root none = none := by
    rw [Array.getD_eq_getD_getElem?, Array.getElem?_replicate]
    split <;> rfl
  unfold document
  rw [StateT.run_bind]
  refine (returns_value g hmade).bind fun root hroot ↦ ?_
  exact returns_step (fun _ ↦ returns_of_value hroot) root.2

end Yaml.Build

namespace Script

theorem returns_readYaml (text : List Char) : (Yaml.read text).Returns Value.IsNoResource := by
  unfold Yaml.read
  refine returns_bind fun g ↦ ?_
  cases g with
  | none => exact returns_pure (Value.isNoResource_atom _)
  | some g =>
    exact (Yaml.Build.returns_document g _).bind fun result h ↦ returns_pure h

/-! ### Media types -/

theorem returns_newPage (text : List Char) : (newPage text).Returns Value.IsNoResource := by
  unfold newPage
  split
  all_goals exact returns_bind fun _ ↦ returns_bind fun _ ↦ returns_newCell _

theorem returns_newRecords (rows : List (List (List Char))) :
    (newRecords rows).Returns Value.IsNoResource := by
  cases rows with
  | nil => exact returns_newCell _
  | cons header rows => exact returns_bind fun _ ↦ returns_newCell _

theorem returns_readMedia (m : Media) (text : List Char) :
    (readMedia m text).Returns Value.IsNoResource := by
  cases m with
  | json => exact returns_bind fun plain ↦ returns_ofPlain plain
  | yaml => exact returns_readYaml text
  | csv => exact returns_bind fun rows ↦ returns_newRecords rows
  | text => exact returns_pure (Value.isNoResource_atom _)
  | script => exact returns_compile _
  | html => exact returns_newPage text
  | xml => exact returns_bind fun document ↦ returns_pure (Value.isNoResource_atom _)
  | properties => exact returns_bind fun entries ↦ returns_newCell _
  | form => exact returns_bind fun entries ↦ returns_bind fun _ ↦ returns_newCell _

/-- Whatever a message is, what is read from it is not a resource. -/
theorem returns_decode (contentType : Option String) (body : Body) :
    (decode contentType body).Returns Value.IsNoResource := by
  unfold decode
  split
  · exact returns_readMedia _ _
  · apply returns_pure
    cases body <;> exact Value.isNoResource_atom _

end Script

end ResourceScript
