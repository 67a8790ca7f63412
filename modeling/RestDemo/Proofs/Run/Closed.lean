import RestDemo.Engine.Run
import RestDemo.Proofs.Poll.Closed

/-!
# Closed properties of steps and runs

A property that passes on from parts to the whole holds of a step (`Step.closed_execute`), and with
what holds a run together also of runs (`Run.closed_runSteps`), if it admits the faults that the
steps may lead to and if what is told with their fields is of its kind (`Step.Admits`). The name that
a run is given is left to `Run.closed_run`'s hypothesis.
-/

namespace RestDemo

open Engine

variable {admits : Fault → Prop} {tells : Event → Prop} {C : (α : Type) → Engine α → Prop}
  {bodyMethods : List String} {settings : Settings} {bound : Table Value}

namespace Step

variable {step : Step}

/-- The faults that a step may lead to are admitted: those of its templates, of its mapping and of
its poll. -/
structure Admits (admits : Fault → Prop) (tells : Event → Prop) (bodyMethods : List String)
    (settings : Settings) (bound : Table Value) (step : Step) : Prop where
  binds : Binds tells bound
  prepare : ∀ store f, prepare step bodyMethods settings store = .error f → admits f
  save : ∀ status document store f,
    (Binding.save step.save status document store).2 = some f → admits f
  address : ∀ spec, step.poll = some spec → ∀ baseUrl store f,
    Poll.address spec.endpoint baseUrl store = .error f → admits f
  plan : ∀ spec, step.poll = some spec → ∀ url headers,
    (Poll.planFor spec url headers settings.polling bound).Admits admits tells

theorem admits_of_binds (hbound : Binds tells bound) :
    step.Admits (fun _ => True) tells bodyMethods settings bound where
  binds := hbound
  prepare _ _ _ := trivial
  save _ _ _ _ _ := trivial
  address _ _ _ _ _ _ := trivial
  plan _ _ _ _ := Poll.Plan.admits_of_binds hbound

theorem admits_all (step : Step) (bodyMethods : List String) (settings : Settings)
    (bound : Table Value) : step.Admits (fun _ => True) (fun _ => True) bodyMethods settings bound :=
  admits_of_binds fun _ _ _ _ => trivial

theorem closed_warnUnresolved (h : Closed admits tells C) (hbound : Binds tells bound)
    (step : Step) : C Unit (warnUnresolved step bound) := by
  refine h.bind h.store fun store => ?_
  exact Closed.ite (fun _ => h.pure ()) fun _ => h.log hbound _ _ (by simp)

theorem closed_receive (h : Closed admits tells C)
    (hstep : step.Admits admits tells bodyMethods settings bound) (prepared : Prepared)
    (a : Answer) : C Exchange (receive step bound prepared a) := by
  refine h.bind h.requestTime fun took => ?_
  refine h.bind (h.log hstep.binds _ _ (by simp)) fun _ => ?_
  exact h.bind (Poll.closed_saveAnswer h (hstep.save _ _) hstep.binds _) fun _ => h.pure _

theorem closed_exchange (h : Closed.Sending admits tells C)
    (hstep : step.Admits admits tells bodyMethods settings bound) :
    C Exchange (exchange step bodyMethods settings bound) := by
  refine h.bind (closed_warnUnresolved h.toClosed hstep.binds step) fun _ => ?_
  refine h.bind h.store fun store => ?_
  refine h.bind (h.orFault (hstep.prepare store)) fun prepared => ?_
  refine h.bind (h.log hstep.binds _ _ (by simp)) fun _ => ?_
  exact h.bind (h.send _) fun a => closed_receive h.toClosed hstep prepared a

theorem closed_execute (h : Closed.Pausing admits tells C)
    (hstep : step.Admits admits tells bodyMethods settings (boundTo bound step)) :
    C StepResult (execute step bodyMethods settings bound) := by
  refine h.bind (closed_exchange h.toSending hstep) fun first => ?_
  cases hpoll : step.poll with
  | none => exact h.pure _
  | some spec =>
    refine h.bind ?_ fun result => h.pure _
    exact Poll.closed_run h.polling (hstep.address spec hpoll _)
      (fun url => hstep.plan spec hpoll url _) fun _ => trivial

end Step

namespace Run

theorem closed_runStep (h : Closed.Running admits tells C) (hbound : Binds tells bound)
    (place : Nat) {step : Step}
    (hstep : step.Admits admits tells bodyMethods settings (Step.boundTo bound step)) :
    C (Except StepError StepResult) (runStep bodyMethods settings bound place step) := by
  refine h.bind (h.log hbound _ _ (by simp)) fun _ => ?_
  refine h.bind (h.attempt (Step.closed_execute h.toPausing hstep)) fun outcome => ?_
  cases outcome with
  | error e =>
    refine h.bind (h.stepTime false) fun took => ?_
    exact h.bind (h.log hbound _ _ (by simp)) fun _ => h.pure _
  | ok result =>
    refine h.bind (h.addResult result) fun _ => h.bind (h.stepTime true) fun took => ?_
    exact h.bind (h.log hbound _ _ (by simp)) fun _ => h.pure _

theorem closed_runSteps (h : Closed.Running admits tells C) (hbound : Binds tells bound)
    (place : Nat) {steps : List Step} (hsteps : ∀ step ∈ steps,
      step.Admits admits tells bodyMethods settings (Step.boundTo bound step)) :
    C RunOutcome (runSteps bodyMethods settings bound place steps) := by
  induction steps generalizing place with
  | nil => exact h.pure _
  | cons step steps ih =>
    have hrest := ih (place + 1) fun step hmem => hsteps step (List.mem_cons_of_mem _ hmem)
    refine h.bind (closed_runStep h hbound place (hsteps step List.mem_cons_self)) fun outcome => ?_
    cases outcome with
    | error e => exact h.pure _
    | ok result => exact h.bind hrest fun _ => h.pure _

/-- A row of steps, for a property that admits every fault and lets anything be told. -/
theorem closed_runSteps_of_all (h : Closed.Running (fun _ => True) (fun _ => True) C) (place : Nat)
    (steps : List Step) : C RunOutcome (runSteps bodyMethods settings bound place steps) :=
  closed_runSteps h (fun _ _ _ _ => trivial) place fun step _ => step.admits_all ..

theorem closed_run (h : Closed.Running (fun _ => True) (fun _ => True) C)
    (hid : C String ensureId) (demo : Demo) : C RunOutcome (run bodyMethods demo bound) :=
  h.bind hid fun _ => closed_runSteps_of_all h 1 demo.steps

end Run

end RestDemo
