import ResourceScript.Library
import ResourceScript.Proofs.Lasting.Task
/-!
# Steps of the operations on resources

What an operation on a resource does is what its body does for the location of the resource, and
when the data fails, a warning and a failure value (`Script.run_operate`). A resource that is made
from a text goes to the end of the table (`Script.run_newResource`).
-/

set_option autoImplicit false

namespace ResourceScript

namespace Task

variable {α : Type} {jobs : Job → Script Value}

/-- A task with another in its place goes on with that when it stops, if that does nothing about
jobs that nest too deeply. -/
theorem run_tryCatch (x : Task α) {handle : Stop → Task α}
    (hhandle : ∀ v, (handle .exhausted).run jobs v = (.error .exhausted, v)) (w : World) :
    (tryCatch x handle : Task α).run jobs w =
      match x.run jobs w with
      | (.ok a, v) => (.ok a, v)
      | (.error stop, v) => (handle stop).run jobs v := by
  rcases run_tryCatch_cases x handle jobs w with ⟨stop, v, hrun, hcatch⟩ | ⟨hstop, hcatch⟩
  · rw [hcatch, hrun]
  · rw [hcatch]
    rcases hrun : x.run jobs w with ⟨stop | a, v⟩
    · rw [hstop stop v hrun]
      exact (hhandle v).symm
    · rfl

end Task

namespace Script

variable {jobs : Job → Script Value} {w : World} {r : ResourceRef} {uri : String}

theorem run_resource (r : ResourceRef) (w : World) :
    (resource r).run jobs w = (.ok (w.store.resource r), w) :=
  rfl

theorem run_newResource (text : String) (w : World) :
    (newResource (.text text)).run jobs w =
      match Location.ofText? w.surroundings.directories text.toList with
      | .ok uri => (.ok w.store.resources.size,
        { w with store := (w.store.addResource ⟨.text text, uri, none⟩).1 })
      | .error cause => (.error (.fault cause), w) := by
  have hrun : (newResource (.text text)).run jobs w =
      ((ofExcept (Location.ofText? w.surroundings.directories text.toList) : Task _) >>= fun uri ↦
        addResource ⟨.text text, uri, none⟩).run jobs w := rfl
  rw [hrun]
  cases Location.ofText? w.surroundings.directories text.toList <;> rfl

/-- The world in which a resource has been made at a location. -/
def withResource (w : World) (location : String) : World :=
  { w with store := (w.store.addResource ⟨.text location, some location, none⟩).1 }

theorem uri_withResource (w : World) (location : String) :
    ((withResource w location).store.resource w.store.resources.size).uri = some location := by
  rw [withResource, Store.resource_addResource]

theorem run_newResource_of_location {location : String}
    (hlocation : Location.ofText? w.surroundings.directories location.toList = .ok (some location)) :
    (newResource (.text location)).run jobs w =
      (.ok w.store.resources.size, withResource w location) := by
  rw [run_newResource, hlocation]
  rfl

variable {α : Type} {warning : Warning} {failed : α} {body : String → Task α}

theorem run_operate (huri : (w.store.resource r).uri = some uri) :
    (operate r warning failed body).run jobs w =
      match (body uri).run jobs w with
      | (.ok a, v) => (.ok a, v)
      | (.error (.fault cause), v) =>
        if cause.isDataFault then (.ok failed, { v with warnings := warning :: v.warnings })
        else (.error (.fault cause), v)
      | (.error stop, v) => (.error stop, v) := by
  have hresource : (resource r).run jobs w = (.ok (w.store.resource r), w) := rfl
  rw [operate, Task.run_bind, bind_of_ok hresource, huri]
  refine (Task.run_tryCatch _ (fun _ ↦ rfl) w).trans ?_
  rcases (body uri).run jobs w with ⟨(cause | status | _) | a, v⟩
  · dsimp only
    by_cases hcause : cause.isDataFault
    · rw [if_pos hcause, if_pos hcause]
      rfl
    · rw [if_neg hcause, if_neg hcause]
      rfl
  all_goals rfl

theorem run_operate_of_ok {a : α} {v : World} (huri : (w.store.resource r).uri = some uri)
    (hbody : (body uri).run jobs w = (.ok a, v)) :
    (operate r warning failed body).run jobs w = (.ok a, v) := by
  rw [run_operate huri, hbody]

/-- An answer that is not the failure value is that of the body. -/
theorem run_body_of_operate {a : α} {v : World} (huri : (w.store.resource r).uri = some uri)
    (hrun : (operate r warning failed body).run jobs w = (.ok a, v)) (ha : a ≠ failed) :
    (body uri).run jobs w = (.ok a, v) := by
  rw [run_operate huri] at hrun
  rcases hbody : (body uri).run jobs w with ⟨(cause | status | _) | b, u⟩
  · rw [hbody] at hrun
    dsimp only at hrun
    split at hrun
    · cases hrun
      exact absurd rfl ha
    · cases hrun
  all_goals
    rw [hbody] at hrun
    cases hrun
  rfl

/-- When the body stops, the failure value is answered or the operation stops, too. -/
theorem run_operate_of_error {stop : Stop} {v : World}
    (huri : (w.store.resource r).uri = some uri)
    (hbody : (body uri).run jobs w = (.error stop, v)) :
    (((operate r warning failed body).run jobs w).1 = .ok failed ∨
      ((operate r warning failed body).run jobs w).1 = .error stop) ∧
      ((operate r warning failed body).run jobs w).2.store = v.store := by
  rw [run_operate huri, hbody]
  cases stop with
  | fault cause =>
    dsimp only
    split
    · exact ⟨Or.inl rfl, rfl⟩
    · exact ⟨Or.inr rfl, rfl⟩
  | exit status => exact ⟨Or.inr rfl, rfl⟩
  | exhausted => exact ⟨Or.inr rfl, rfl⟩

/-- A failure that is none of data is passed on. -/
theorem run_operate_of_fault {cause : Fault} {v : World}
    (huri : (w.store.resource r).uri = some uri)
    (hbody : (body uri).run jobs w = (.error (.fault cause), v))
    (hcause : cause.isDataFault = false) :
    (operate r warning failed body).run jobs w = (.error (.fault cause), v) := by
  rw [run_operate huri, hbody]
  simp only [hcause, Bool.false_eq_true, if_false]

end Script

end ResourceScript
