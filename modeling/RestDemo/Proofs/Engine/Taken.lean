import RestDemo.Proofs.Engine.Faultless
import RestDemo.Proofs.Log.Logger

/-!
# Events and requests that go through

Where the log takes what can be written (`Surroundings.Takes`), an event with writable fields is
told (`log_taken`). A request is under way whatever comes of it (`send_world`).
-/

namespace RestDemo

/-- The log takes every event that can be written. -/
def Surroundings.Takes (s : Surroundings) : Prop :=
  ∀ e : Event, e.unwritable = none → s.refuses e = none

namespace Engine

variable {s : Surroundings} {w : World} {bound fields : Table Value}

/-- An event is told if its fields and those bound to the log can be written. -/
theorem log_taken (hlog : s.Takes) (hbound : ∀ p ∈ bound, Json.Writable p.2)
    (hfields : ∀ p ∈ fields, Json.Writable p.2) (level : Level) (name : String) :
    log bound level name fields s w = (.ok (), w.telling [entry bound level name fields]) := by
  have hwritable : (entry bound level name fields).unwritable = none := by
    rw [Event.unwritable_eq_none_iff, Json.writable_object]
    intro p hp
    rcases Table.mem_of_mem_overlay hp with hp | hp
    · exact hbound p hp
    · exact hfields p hp
  have hnone := hlog _ hwritable
  unfold entry at hnone
  rw [log, tell, hnone]
  rfl

/-- A request is under way whatever comes of it. -/
theorem send_world (r : Request) (s : Surroundings) (w : World) :
    (send r s w).2 = w.request s r := by
  unfold send
  cases s.service.reply w.sent.length <;> rfl

/-- What comes of two computations in a row comes of the second one, after the first. -/
theorem exists_of_bind_ok {α β : Type} {x : Engine α} {f : α → Engine β} {b : β}
    (h : ((x >>= f) s w).1 = .ok b) : ∃ a u, x s w = (.ok a, u) ∧ (f a s u).1 = .ok b := by
  rw [bind_run] at h
  match hx : x s w with
  | (.ok a, u) =>
    rw [hx] at h
    exact ⟨a, u, rfl, h⟩
  | (.error e, u) =>
    rw [hx] at h
    cases h

end Engine

end RestDemo
