import RestDemo.Proofs.Log.Logger
import RestDemo.Proofs.Run.Composition

/-!
# What a run tells

Whatever becomes of a run, among surroundings whose log refuses what cannot be written it tells only
sound events (`Run.adds_runSteps`): what was told was not refused, and the fields of an event are put
over bound ones, so that none comes twice.
-/

namespace RestDemo

namespace World

/-- The second world is a later one in which only events with a property were told since. -/
def Adds (P : Event → Prop) (w u : World) : Prop :=
  ∃ es, u.events = w.events ++ es ∧ ∀ e ∈ es, P e

variable {P : Event → Prop} {w u v : World}

theorem Adds.of_events_eq (h : u.events = w.events) : Adds P w u :=
  ⟨[], by rw [h, List.append_nil], fun _ he => nomatch he⟩

theorem Adds.trans (h : Adds P w u) (h' : Adds P u v) : Adds P w v := by
  obtain ⟨es, hes, hP⟩ := h
  obtain ⟨fs, hfs, hP'⟩ := h'
  refine ⟨es ++ fs, by rw [hfs, hes, List.append_assoc], ?_⟩
  exact List.forall_mem_append.2 ⟨hP, hP'⟩

end World

namespace Engine

variable {s : Surroundings} {bound : Table Value}

theorem binds_nodup (h : bound.names.Nodup) : Binds (fun e => e.fields.names.Nodup) bound :=
  fun _ _ fields _ => Table.nodup_overlay h fields

/-- Where all that is told and not refused has a property, a run adds only such events. -/
theorem adds_running {tells P : Event → Prop} (h : ∀ e, s.refuses e = none → tells e → P e) :
    Closed.Running (fun _ => True) tells (Leads s (World.Adds P)) := by
  have hclosed : Closed (fun _ => True) tells (Leads s (World.Adds P)) := by
    refine Leads.closed (fun _ => .of_events_eq rfl) (fun _ _ _ => .trans)
      (fun _ _ => .of_events_eq rfl) fun w e hrefuses htells => ?_
    exact ⟨[e], rfl, List.forall_mem_singleton.2 (h e hrefuses htells)⟩
  have hsending := Leads.sending hclosed fun _ _ => .of_events_eq rfl
  have hpausing := Leads.pausing hsending (fun _ _ => .of_events_eq rfl) fun _ _ => .of_events_eq rfl
  exact Leads.running hpausing fun _ _ => .of_events_eq rfl

theorem sound_running (hs : s.refuses = Event.unwritable) :
    Closed.Running (fun _ => True) (fun e => e.fields.names.Nodup)
      (Leads s (World.Adds Event.Sound)) := by
  refine adds_running fun e hwritable hnodup => ⟨hnodup, ?_⟩
  rwa [hs] at hwritable

end Engine

open Engine

variable {s : Surroundings} {bodyMethods : List String} {settings : Settings}
  {bound : Table Value}

theorem Step.nodup_boundTo (h : bound.names.Nodup) (step : Step) :
    (Step.boundTo bound step).names.Nodup := by
  unfold boundTo
  by_cases hid : step.id = ""
  · rwa [if_pos hid]
  · rw [if_neg hid]
    exact Table.nodup_set h _ _

theorem Run.adds_runSteps (hs : s.refuses = Event.unwritable) (hbound : bound.names.Nodup)
    (place : Nat) (steps : List Step) :
    Leads s (World.Adds Event.Sound) RunOutcome
      (runSteps bodyMethods settings bound place steps) :=
  closed_runSteps (sound_running hs) (binds_nodup hbound) place fun step _ =>
    Step.admits_of_binds (binds_nodup (Step.nodup_boundTo hbound step))

end RestDemo
