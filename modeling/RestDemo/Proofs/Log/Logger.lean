import RestDemo.Log.Line
import RestDemo.Log.Logger
import RestDemo.Proofs.Json.Writable
import RestDemo.Proofs.Log.Store

/-!
# What loggers do with events

A sound event is one that every sink with room takes as it is: no field comes twice, and all can be
written (`Event.Sound`). A logger of the console alone never changes a log (`logs_emitAll_console`).
-/

namespace RestDemo

namespace Event

variable {e : Event}

theorem writable_typedFields :
    Json.Writable (.object e.typedFields) ↔ Json.Writable (.object e.fields) := by
  unfold typedFields
  by_cases h : e.fields.has "type"
  · rw [if_pos h]
  · rw [if_neg h, Json.writable_object, Json.writable_object, List.forall_mem_append,
      List.forall_mem_singleton]
    exact and_iff_left (Json.writable_text e.name)

theorem unwritable_eq_none_iff : e.unwritable = none ↔ Json.Writable (.object e.fields) := by
  rw [← writable_typedFields, unwritable, line, Json.text, Json.Writable]
  cases Json.write Json.spaced (.object e.typedFields) with
  | ok cs => exact iff_of_true rfl ⟨cs, rfl⟩
  | error f =>
    refine iff_of_false (Option.some_ne_none f) ?_
    rintro ⟨cs, h⟩
    cases h

/-- No field comes twice, and all can be written. -/
structure Sound (e : Event) : Prop where
  nodup : e.fields.names.Nodup
  writable : e.unwritable = none

theorem Sound.under_nil (h : e.Sound) : { e with fields := Table.overlay [] e.fields } = e := by
  rw [show Table.overlay [] e.fields = e.fields from Table.ofList_of_nodup h.nodup]

end Event

theorem Console.tell_of_writable {e : Event} (h : e.unwritable = none) (c : Console) :
    ∃ c', c.tell e = .ok c' := by
  unfold Event.unwritable at h
  unfold Console.tell
  cases hline : e.line with
  | ok line => exact ⟨_, rfl⟩
  | error f =>
    rw [hline] at h
    cases h

theorem Console.tell_of_unwritable {e : Event} {f : Fault} (h : e.unwritable = some f)
    (c : Console) : c.tell e = .error f := by
  unfold Event.unwritable at h
  unfold Console.tell
  cases hline : e.line with
  | ok line =>
    rw [hline] at h
    cases h
  | error g =>
    rw [hline] at h
    cases h
    rfl

namespace Logger

theorem logs_emit_console (bound : Table Value) (e : Event) (o : Outputs) :
    ((single .console bound).emit e o).2.logs = o.logs := by
  have hleaves : (single .console bound).leaves = [(.console, bound)] := rfl
  rw [emit, hleaves, serve, Sink.take]
  cases o.console.tell { e with fields := bound.overlay e.fields } <;> rfl

/-- What goes to the console changes no log. -/
theorem logs_emitAll_console (bound : Table Value) (es : List Event) (o : Outputs) :
    ((single .console bound).emitAll es o).2.logs = o.logs := by
  induction es generalizing o with
  | nil => rfl
  | cons e es ih =>
    have hemit := logs_emit_console bound e o
    rw [emitAll]
    match hrun : (single .console bound).emit e o with
    | (.ok _, o') =>
      rw [hrun] at hemit
      exact (ih o').trans hemit
    | (.error f, o') =>
      rw [hrun] at hemit
      exact hemit

end Logger

end RestDemo
