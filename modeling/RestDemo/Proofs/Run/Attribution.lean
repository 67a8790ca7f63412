import RestDemo.Proofs.Run.Trace

/-!
# To whom events belong

The events of a step name their run and their step (`Attributed`): both are bound to the log that
the step tells them to, and no event has fields of its own under these names but with the same
values.
-/

namespace RestDemo

open Engine

/-- The fields name the run and the step that they belong to. -/
structure Attributed (run step : String) (fields : Table Value) : Prop where
  run : Value.field "run_id" fields = .text run
  step : Value.field "step_id" fields = .text step

variable {run name : String} {bound fields : Table Value}

theorem field_overlay_of_not_mem {field : String} (h : field ∉ fields.names) :
    Value.field field (bound.overlay fields) = Value.field field bound := by
  have hfields : Table.get? field fields.reverse = none := by
    rw [Table.get?_eq_none_iff]
    intro hmem
    rw [Table.names, List.map_reverse, List.mem_reverse] at hmem
    exact h hmem
  rw [Value.field, Value.field, Table.get?_overlay, hfields, Option.none_or]

theorem Attributed.overlay (h : Attributed run name bound) (hrun : "run_id" ∉ fields.names)
    (hstep : "step_id" ∉ fields.names) : Attributed run name (bound.overlay fields) where
  run := (field_overlay_of_not_mem hrun).trans h.run
  step := (field_overlay_of_not_mem hstep).trans h.step

/-- An event that names the step itself needs only the run bound to its log. -/
theorem attributed_own (h : Value.field "run_id" bound = .text run) (hrun : "run_id" ∉ fields.names)
    (hstep : "step_id" ∉ fields.names) :
    Attributed run name (bound.overlay (("step_id", .text name) :: fields)) := by
  rw [Table.overlay_cons]
  refine Attributed.overlay ⟨?_, ?_⟩ hrun hstep
  · rw [Value.field, Table.get?_set, if_neg (by decide)]
    exact h
  · rw [Value.field, Table.get?_set, if_pos rfl]
    rfl

theorem attributed_boundTo {step : Step} (h : Value.field "run_id" bound = .text run)
    (hid : step.id ≠ "") : Attributed run step.id (Step.boundTo bound step) := by
  rw [Step.boundTo, if_neg hid]
  change Attributed run step.id (bound.overlay [("step_id", .text step.id)])
  exact attributed_own h List.not_mem_nil List.not_mem_nil

theorem forall_attributed_of_sublist {es : List Event} {e : Event} (h : es.Sublist [e])
    (he : Attributed run name e.fields) : ∀ e ∈ es, Attributed run name e.fields :=
  fun _ hmem => List.mem_singleton.1 (h.subset hmem) ▸ he

namespace Poll

variable {plan : Plan}

theorem AttemptTold.attributed {number : Nat} {reply : Reply} {r : Except Failure Progress}
    {es : List Event} (h : AttemptTold plan number reply r es)
    (hplan : Attributed run name plan.bound) : ∀ e ∈ es, Attributed run name e.fields := by
  have hattempt (status : Int) (took : UInt64) :
      Attributed run name (attemptEntry plan number status took).fields :=
    hplan.overlay (by simp) (by simp)
  have hunparsable (condition : Value) :
      Attributed run name (unparsableEntry plan.bound condition).fields :=
    hplan.overlay (by simp) (by simp)
  cases h with
  | unreachable => exact fun _ he => nomatch he
  | succeeded binds =>
    have hsucceeded : Attributed run name (succeededEntry plan number).fields :=
      hplan.overlay (by simp) (by simp)
    have hsaved := forall_attributed_of_sublist binds (hplan.overlay (by simp) (by simp))
    exact List.forall_mem_cons.2 ⟨hattempt _ _, List.forall_mem_cons.2 ⟨hsucceeded, hsaved⟩⟩
  | failed warned =>
    have hfailed : Attributed run name (failedEntry plan number).fields :=
      hplan.overlay (by simp) (by simp)
    have hwarned := forall_attributed_of_sublist warned (hunparsable _)
    refine List.forall_mem_cons.2 ⟨hattempt _ _, List.forall_mem_append.2 ⟨hwarned, ?_⟩⟩
    exact List.forall_mem_singleton.2 hfailed
  | pending warned =>
    have hboth : ∀ e ∈ [unparsableEntry plan.bound plan.successWhen,
        unparsableEntry plan.bound plan.failureWhen], Attributed run name e.fields :=
      List.forall_mem_cons.2 ⟨hunparsable _, List.forall_mem_singleton.2 (hunparsable _)⟩
    exact List.forall_mem_cons.2 ⟨hattempt _ _, fun e he => hboth e (warned.subset he)⟩

theorem LoopTold.attributed {reply : Nat → Reply} {made n : Nat} {r : Except StepError PollResult}
    {es : List Event} (h : LoopTold plan reply made n r es)
    (hplan : Attributed run name plan.bound) : ∀ e ∈ es, Attributed run name e.fields := by
  induction h with
  | timedOut => exact List.forall_mem_singleton.2 (hplan.overlay (by simp) (by simp))
  | settled told => exact told.attributed hplan
  | again told rest ih => exact List.forall_mem_append.2 ⟨told.attributed hplan, ih⟩

end Poll

theorem Step.AnswerTold.attributed {step : Step} {settings : Settings} {prepared : Step.Prepared}
    {reply : Nat → Reply} {r : Except StepError StepResult} {polls : List Request} {es : List Event}
    (h : AnswerTold step settings bound prepared reply r polls es)
    (hbound : Attributed run name bound) : ∀ e ∈ es, Attributed run name e.fields := by
  have hresponse (a : Answer) (took : UInt64) :
      Attributed run name (responseEntry bound a took).fields :=
    hbound.overlay (by simp) (by simp)
  have hsaved {saved : List Event} {names : List String}
      (binds : saved.Sublist [Poll.savedEntry bound "rest.variables_saved" names]) :
      ∀ e ∈ saved, Attributed run name e.fields :=
    forall_attributed_of_sublist binds (hbound.overlay (by simp) (by simp))
  cases h with
  | unreachable => exact fun _ he => nomatch he
  | unpolled first binds => exact List.forall_mem_cons.2 ⟨hresponse _ _, hsaved binds⟩
  | @polled a took saved es names spec endpoint plan n r first binds polls settles told =>
    subst settles
    have hstart : Attributed run name (Poll.startEntry spec (Poll.planFor spec
        (resolveUrl endpoint prepared.baseUrl) prepared.request.headers settings.polling
        bound)).fields :=
      hbound.overlay (by simp) (by simp)
    refine List.forall_mem_cons.2 ⟨hresponse _ _, List.forall_mem_append.2 ⟨hsaved binds, ?_⟩⟩
    exact List.forall_mem_cons.2 ⟨hstart, told.attributed hbound⟩

namespace Run

variable {bodyMethods : List String} {settings : Settings} {place : Nat} {step : Step}

theorem StepTold.attributed {reply : Nat → Reply} {r : Except StepError StepResult}
    {sent : List Request} {es : List Event}
    (h : StepTold bodyMethods settings bound place step reply r sent es)
    (hrun : Value.field "run_id" bound = .text run) (hid : step.id ≠ "") :
    ∀ e ∈ es, Attributed run step.id e.fields := by
  have hbound := attributed_boundTo hrun hid
  have hname : stepName step place = step.id := if_neg hid
  cases h with
  | @block _ prepared warned es unresolved took r _ _ warns answered =>
    have hstart : Attributed run step.id (startEntry bound place step).fields := by
      rw [startEntry, hname]
      exact attributed_own hrun (by simp) (by simp)
    have hrequest : Attributed run step.id
        (Step.requestEntry (Step.boundTo bound step) prepared.request).fields :=
      hbound.overlay (by simp) (by simp)
    have hclosing :
        Attributed run step.id (closingEntry bound (stepName step place) took r).fields := by
      rw [hname]
      cases r <;> exact attributed_own hrun (by simp) (by simp)
    have hwarned := forall_attributed_of_sublist warns (hbound.overlay (by simp) (by simp))
    refine List.forall_mem_cons.2 ⟨hstart, List.forall_mem_append.2 ⟨hwarned, ?_⟩⟩
    refine List.forall_mem_cons.2 ⟨hrequest, List.forall_mem_append.2 ⟨?_, ?_⟩⟩
    · exact answered.attributed hbound
    · exact List.forall_mem_singleton.2 hclosing

/-- Each block of a row belongs to the step of its name, and these are the first steps of the row. -/
theorem RowTold.attributed {steps : List Step} {reply : Nat → Reply} {outcome : RunOutcome}
    {sent : List Request} {blocks : Table (List Event)}
    (h : RowTold bodyMethods settings bound place steps reply outcome sent blocks)
    (hrun : Value.field "run_id" bound = .text run) (hids : ∀ step ∈ steps, step.id ≠ "") :
    blocks.names <+: steps.map Step.id ∧
      ∀ block ∈ blocks, ∀ e ∈ block.2, Attributed run block.1 e.fields := by
  induction h with
  | done => exact ⟨List.prefix_refl _, fun _ hmem => nomatch hmem⟩
  | @failed place step steps reply e sent es told =>
    have hid : step.id ≠ "" := hids step List.mem_cons_self
    have hname : stepName step place = step.id := if_neg hid
    rw [hname, Table.names_cons, Table.names_nil, List.map_cons, List.prefix_cons_inj]
    exact ⟨List.nil_prefix, List.forall_mem_singleton.2 (told.attributed hrun hid)⟩
  | @step place step steps reply result outcome sent sent' es blocks told rest ih =>
    have hid : step.id ≠ "" := hids step List.mem_cons_self
    have hname : stepName step place = step.id := if_neg hid
    obtain ⟨hnames, hblocks⟩ := ih fun step hmem => hids step (List.mem_cons_of_mem _ hmem)
    rw [hname, Table.names_cons, List.map_cons, List.prefix_cons_inj]
    exact ⟨hnames, List.forall_mem_cons.2 ⟨told.attributed hrun hid, hblocks⟩⟩

end Run

end RestDemo
