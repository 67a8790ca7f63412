import RestDemo.Proofs.Binding
import RestDemo.Proofs.Json.Read
import RestDemo.Proofs.Run.Sound
import RestDemo.Proofs.Step.Trace

/-!
# What a step stores can be written

A log that refuses what cannot be written has been told the status of every answer of which a step
saves parts (`AnswerTold.tells`), and documents can be written as they were read. So the variables
can be written after a step that succeeded, if they could be before it (`stored_of_execute`).
-/

namespace RestDemo

open Engine

variable {s : Surroundings} {w u : World} {bound : Table Value}

/-- All variables have values that can be written. -/
def Store.Writable (store : Store) : Prop := ∀ p ∈ store, Json.Writable p.2

namespace Json

theorem inherited_writable : Value.Inherited Writable where
  items := writable_list.1
  entries := writable_object.1

theorem writable_bodyValue (body : String) : Writable (bodyValue body) := by
  unfold bodyValue
  cases hread : read body.toList with
  | ok v => exact writable_of_read hread
  | error e => exact writable_null

/-- An event can only be written with all of its fields. -/
theorem writable_of_entry {level : Level} {name : String} (field : String) {fields : Table Value}
    {v : Value} (h : (entry bound level name fields).unwritable = none)
    (hfield : Table.get? field fields.reverse = some v) : Writable v := by
  have hget : Table.get? field (bound.overlay fields) = some v := by
    rw [Table.get?_overlay, hfield, Option.some_or]
  exact writable_object.1 (Event.unwritable_eq_none_iff.1 h) _ (Table.mem_of_get? hget)

end Json

/-- What is saved of an answer can be written, if its status can. -/
theorem Store.Writable.save {store : Store} (h : store.Writable) {mapping : Value} {a : Answer}
    {saved : Binding.Saved} {fault? : Option Fault} (hstatus : Json.Writable (.int a.status))
    (hsave : Binding.save mapping a.status (Json.bodyValue a.text) store = (saved, fault?)) :
    Store.Writable saved.store :=
  Binding.forall_save Json.inherited_writable hstatus (Json.writable_bodyValue a.text) hsave h

/-! ## The statuses that are told -/

theorem Poll.AttemptTold.tells {plan : Poll.Plan} {number : Nat} {reply : Reply}
    {result : PollResult} {es : List Event}
    (h : Poll.AttemptTold plan number reply (.ok (.succeeded result)) es) :
    ∃ a took, reply = .answer a ∧ Poll.attemptEntry plan number a.status took ∈ es := by
  cases h with
  | succeeded => exact ⟨_, _, rfl, List.mem_cons_self⟩

/-- A poll that comes to a result has told the status of the last answer. -/
theorem Poll.LoopTold.tells {plan : Poll.Plan} {reply : Nat → Reply} {made n : Nat}
    {result : PollResult} {es : List Event} (h : Poll.LoopTold plan reply made n (.ok result) es) :
    ∃ k a number took, n = k + 1 ∧ reply k = .answer a ∧
      Poll.attemptEntry plan number a.status took ∈ es := by
  generalize hr : (Except.ok result : Except StepError PollResult) = r at h
  induction h with
  | timedOut => cases hr
  | settled told =>
    subst hr
    obtain ⟨a, took, hreply, hmem⟩ := AttemptTold.tells told
    exact ⟨0, a, _, took, rfl, hreply, hmem⟩
  | again told rest ih =>
    obtain ⟨k, a, number, took, rfl, hreply, hmem⟩ := ih hr
    exact ⟨k + 1, a, number, took, rfl, hreply, List.mem_append_right _ hmem⟩

namespace Step

variable {step : Step} {bodyMethods : List String} {settings : Settings} {prepared : Prepared}

/-- A step that succeeds has told the status of the answer to its request, and of the last answer to
its poll. -/
theorem AnswerTold.tells {reply : Nat → Reply} {result : StepResult} {polls : List Request}
    {es : List Event} (h : AnswerTold step settings bound prepared reply (.ok result) polls es) :
    (∃ a took, reply 0 = .answer a ∧ responseEntry bound a took ∈ es) ∧
      (polls ≠ [] → ∃ a plan number took, reply polls.length = .answer a ∧
        Poll.attemptEntry plan number a.status took ∈ es) := by
  generalize hr : (Except.ok result : Except StepError StepResult) = r at h
  cases h with
  | unreachable => cases hr
  | unpolled first => exact ⟨⟨_, _, first, List.mem_cons_self⟩, fun h => absurd rfl h⟩
  | @polled a took saved es names spec endpoint plan n r first binds polls settles told =>
    refine ⟨⟨a, took, first, List.mem_cons_self⟩, fun _ => ?_⟩
    cases r with
    | error e => cases hr
    | ok p =>
      obtain ⟨k, b, number, took', rfl, hreply, hmem⟩ := told.tells
      refine ⟨b, plan, number, took', ?_, ?_⟩
      · rw [List.length_replicate]
        exact hreply
      · exact List.mem_cons_of_mem _ (List.mem_append_right _ (List.mem_cons_of_mem _ hmem))

/-- Among what a step that succeeds stores there is nothing that cannot be written, if the statuses
of its answers can be. -/
theorem Exit.stored {reply : Nat → Reply} {before store : Store} {result : StepResult}
    {polls : List Request} (h : Exit step prepared reply before (.ok result) store polls)
    (hbefore : before.Writable) (hfirst : ∀ a, reply 0 = .answer a → Json.Writable (.int a.status))
    (hlast : polls ≠ [] → ∀ a, reply polls.length = .answer a → Json.Writable (.int a.status)) :
    store.Writable := by
  generalize hr : (Except.ok result : Except Failure StepResult) = r at h
  cases h with
  | unreachable => cases hr
  | unpolled first saves => exact hbefore.save (hfirst _ first) saves
  | polled first saves polls fills last saves' =>
    have hsaved := hbefore.save (hfirst _ first) saves
    refine hsaved.save (hlast (by simp) _ ?_) saves'
    rw [List.length_replicate]
    exact last
  | pollFailed => cases hr

theorem adds_writable (hs : s.refuses = Event.unwritable) (bodyMethods : List String)
    (settings : Settings) (bound : Table Value) (step : Step) (w : World) :
    World.Adds (fun e => e.unwritable = none) w (execute step bodyMethods settings bound s w).2 := by
  have hrunning : Closed.Running (fun _ => True) (fun _ => True)
      (Leads s (World.Adds fun e => e.unwritable = none)) :=
    adds_running fun e hrefuses _ => by rwa [hs] at hrefuses
  exact closed_execute hrunning.toPausing (step.admits_all ..) w

/-- The variables can be written after a step that succeeded, if they could be before it. -/
theorem stored_of_execute {result : StepResult} (hs : s.refuses = Event.unwritable)
    (hnone : s.cancellation = none)
    (h : execute step bodyMethods settings bound s w = (.ok result, u))
    (hstore : w.context.store.Writable) : u.context.store.Writable := by
  have hfaultless : Faultless (execute step bodyMethods settings bound s w) := by
    rw [h]
    exact faultless_ok
  obtain ⟨prepared, -, r, store, polls, v, hrun, hexit, hsent, hcontext⟩ := execute_exit hfaultless
  obtain ⟨prepared', warned, -, r', polls', es, v', -, -, hrun', htold, hsent', hevents⟩ :=
    execute_told hnone hfaultless
  obtain ⟨fs, hadded, hwritable⟩ := adds_writable hs bodyMethods settings bound step w
  rw [h] at hadded
  cases h.symm.trans hrun
  cases r' with
  | error e => cases h.symm.trans hrun'
  | ok result' =>
    cases h.symm.trans hrun'
    -- Both accounts of the step are about what was sent and told after the same world.
    obtain ⟨-, rfl⟩ := List.cons.inj (List.append_cancel_left (hsent'.symm.trans hsent))
    obtain rfl := List.append_cancel_left (hadded.symm.trans hevents)
    have htells : ∀ e ∈ es, e.unwritable = none :=
      (List.forall_mem_cons.1 (List.forall_mem_append.1 hwritable).2).2
    obtain ⟨⟨a, took, hfirst, ha⟩, hpolls⟩ := htold.tells
    rw [hcontext]
    refine hexit.stored hstore ?_ fun hne => ?_
    · intro b hb
      cases hfirst.symm.trans hb
      exact Json.writable_of_entry "status" (htells _ ha) rfl
    · obtain ⟨b, plan, number, took', hlast, hb⟩ := hpolls hne
      intro c hc
      cases hlast.symm.trans hc
      exact Json.writable_of_entry "status" (htells _ hb) rfl

end Step

end RestDemo
