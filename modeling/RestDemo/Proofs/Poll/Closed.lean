import RestDemo.Proofs.Engine.Closed
import RestDemo.Proofs.Limits
import RestDemo.Proofs.Poll.Attempt

/-!
# Closed properties of polls

A property that passes on from parts to the whole holds of polls, if the faults that it admits
include the limits on numbers and whatever is wrong with the conditions and the mapping of the poll,
and if what is told with the fields of the poll is of its kind (`Plan.Admits`).
-/

namespace RestDemo.Poll

open Engine

variable {admits : Fault → Prop} {tells : Event → Prop} {sends : Request → Prop}
  {C : (α : Type) → Engine α → Prop}
  {bound : Table Value}

/-- The faults that a plan may lead to are admitted: limits on numbers, and those of conditions that
are no texts and of a mapping that is none. -/
structure Plan.Admits (admits : Fault → Prop) (tells : Event → Prop) (plan : Plan) : Prop where
  binds : Binds tells plan.bound
  limits : ∀ f, f.isLimit → admits f
  successWhen : ∀ f, Condition.textOf plan.successWhen = .error f → admits f
  failureWhen : ∀ f, Condition.textOf plan.failureWhen = .error f → admits f
  save : ∀ status document store f,
    (Binding.save plan.save status document store).2 = some f → admits f

theorem Plan.admits_of_binds {plan : Plan} (hbound : Binds tells plan.bound) :
    plan.Admits (fun _ => True) tells :=
  ⟨hbound, fun _ _ => trivial, fun _ _ => trivial, fun _ _ => trivial, fun _ _ _ _ _ => trivial⟩

/-- Every plan leads to some fault or other. -/
theorem Plan.admits_all (plan : Plan) : plan.Admits (fun _ => True) (fun _ => True) :=
  admits_of_binds fun _ _ _ _ => trivial

theorem onlyLimits_seconds (milliseconds : Int) : OnlyLimits (seconds milliseconds) := by
  unfold seconds
  cases Number.nearestInt? milliseconds with
  | some x => exact .ok _
  | none => exact .error rfl

theorem closed_saveAnswer (h : Closed admits tells C) {mapping : Value} {status : Int} {document : Value}
    (hsave : ∀ store f, (Binding.save mapping status document store).2 = some f → admits f)
    (hbound : Binds tells bound) (eventName : String) :
    C Unit (saveAnswer bound eventName mapping status document) := by
  refine h.bind h.store fun store => ?_
  match hsaved : Binding.save mapping status document store with
  | (saved, some f) =>
    have hf : admits f := hsave store f (congrArg Prod.snd hsaved)
    exact h.bind (h.setStore _) fun _ => h.failFault hf
  | (saved, none) =>
    refine h.bind (h.setStore _) fun _ => ?_
    exact Closed.ite (fun _ => h.pure ()) fun _ => h.log hbound _ _ (by simp)

section

variable {plan : Plan}

theorem closed_holds (h : Closed admits tells C) (hlimits : ∀ f, f.isLimit → admits f) {condition : Value}
    (hcondition : ∀ f, Condition.textOf condition = .error f → admits f)
    (hbound : Binds tells bound) (document : Value) : C Bool (holds bound condition document) := by
  refine h.bind (h.orFault hcondition) fun text => ?_
  refine h.bind (h.orFault fun f hf => ?_) fun verdict => ?_
  · exact hlimits f (Condition.onlyLimits_evaluate text (some document) f hf)
  · cases verdict with
    | matched => exact h.pure true
    | notMatched => exact h.pure false
    | unparsable => exact h.bind (h.log hbound _ _ (by simp)) fun _ => h.pure false

theorem closed_succeed (h : Closed admits tells C) (hplan : plan.Admits admits tells) (number : Nat)
    (a : Answer) : C Progress (succeed plan number a) := by
  refine h.bind (h.log hplan.binds _ _ (by simp)) fun _ => ?_
  exact h.bind (closed_saveAnswer h (hplan.save _ _) hplan.binds _) fun _ => h.pure _

theorem closed_checkFailure (h : Closed admits tells C) (hplan : plan.Admits admits tells) (number : Nat)
    (document : Value) : C Progress (checkFailure plan number document) := by
  refine Closed.ite (fun _ => h.pure _) fun _ => ?_
  refine h.bind (closed_holds h hplan.limits hplan.failureWhen hplan.binds _) fun b => ?_
  refine Closed.ite (fun _ => ?_) fun _ => h.pure _
  refine h.bind (h.log hplan.binds _ _ (by simp)) fun _ => ?_
  exact h.bind (h.orFault hplan.failureWhen) fun _ => h.failStep _

/-- What an attempt does with an answer. -/
theorem closed_judge (h : Closed admits tells C) (hplan : plan.Admits admits tells) (number : Nat)
    (a : Answer) : C Progress (judge plan number a) := by
  refine h.bind h.requestTime fun took => ?_
  refine h.bind (h.log hplan.binds _ _ (by simp)) fun _ => ?_
  refine h.bind (closed_holds h hplan.limits hplan.successWhen hplan.binds _) fun b => ?_
  exact Closed.ite (fun _ => closed_succeed h hplan number a) fun _ =>
    closed_checkFailure h hplan number _

theorem closed_attempt (h : Closed admits tells C) (hsend : C Answer (send plan.request))
    (hplan : plan.Admits admits tells) (number : Nat) : C Progress (attempt plan number) :=
  h.bind hsend fun a => closed_judge h hplan number a

theorem closed_cancel (h : Closed admits tells C) (hplan : plan.Admits admits tells) (made : Nat)
    (last : Value) : C PollResult (cancel plan made last) :=
  h.bind (h.log hplan.binds _ _ (by simp)) fun _ => h.failStep _

theorem closed_timeOut (h : Closed admits tells C) (hplan : plan.Admits admits tells)
    (last : Value) : C PollResult (timeOut plan last) := by
  refine h.bind (h.log hplan.binds _ _ (by simp)) fun _ => ?_
  refine h.bind (h.orFault fun f hf => ?_) fun _ => h.failStep _
  exact hplan.limits f (Number.onlyLimits_intText plan.maxAttempts f hf)

theorem closed_pauseBefore (h : Closed.Polling admits tells sends C)
    (hlimits : ∀ f, f.isLimit → admits f) (left : Nat) : C Bool (pauseBefore plan left) := by
  refine Closed.ite (fun _ => h.pure false) fun _ => ?_
  refine h.bind (h.orFault fun f hf => ?_) fun x => h.pause x
  exact hlimits f (onlyLimits_seconds plan.interval f hf)

theorem closed_goOn (h : Closed admits tells C) (hplan : plan.Admits admits tells) {left made : Nat}
    (pause : C Bool (pauseBefore plan left))
    (rest : ∀ document, C PollResult (attempts plan left made document)) (progress : Progress) :
    C PollResult (goOn plan left made progress) := by
  cases progress with
  | succeeded result => exact h.pure result
  | pending document =>
    rw [goOn_pending]
    refine h.bind pause fun b => ?_
    exact Closed.ite (fun _ => closed_cancel h hplan made document) fun _ => rest document

theorem closed_attempts (h : Closed.Polling admits tells sends C) (hplan : plan.Admits admits tells)
    (hsends : sends plan.request) (left made : Nat) (last : Value) :
    C PollResult (attempts plan left made last) := by
  induction left generalizing made last with
  | zero => exact closed_timeOut h.toClosed hplan last
  | succ left ih =>
    rw [attempts_succ]
    refine h.bind h.isCancelled fun b => ?_
    refine Closed.ite (fun _ => closed_cancel h.toClosed hplan made last) fun _ => ?_
    refine h.bind (closed_attempt h.toClosed (h.send hsends) hplan (made + 1)) fun progress => ?_
    have hpause : C Bool (pauseBefore plan left) := closed_pauseBefore h hplan.limits left
    exact closed_goOn h.toClosed hplan hpause (ih (made + 1)) progress

end

/-- The address that is polled, as it comes from a store. -/
def address (endpoint : Value) (baseUrl : String) (store : Store) : Except Fault String := do
  match ← Template.fillGiven store endpoint with
  | .text endpoint => .ok (resolveUrl endpoint baseUrl)
  | _ => .error .noMember

theorem url_eq (endpoint : Value) (baseUrl : String) :
    url endpoint baseUrl =
      Engine.store >>= fun store => orFault (address endpoint baseUrl store) := by
  funext s w
  rw [url, store_bind_run, store_bind_run, address]
  cases Template.fillGiven w.context.store endpoint with
  | error f => rfl
  | ok v => cases v <;> rfl

theorem closed_url (h : Closed admits tells C) {endpoint : Value} {baseUrl : String}
    (haddress : ∀ store f, address endpoint baseUrl store = .error f → admits f) :
    C String (url endpoint baseUrl) := by
  rw [url_eq]
  exact h.bind h.store fun store => h.orFault (haddress store)

theorem closed_run (h : Closed.Polling admits tells sends C) {spec : PollSpec} {baseUrl : String}
    {headers : Table String} {defaults : PollingDefaults}
    (haddress : ∀ store f, address spec.endpoint baseUrl store = .error f → admits f)
    (hplan : ∀ url, (planFor spec url headers defaults bound).Admits admits tells)
    (hsends : ∀ url, sends ⟨"GET", url, headers, none⟩) :
    C PollResult (run spec baseUrl headers defaults bound) := by
  refine h.bind (closed_url h.toClosed haddress) fun url => ?_
  exact h.bind (h.log (hplan url).binds _ _ (by simp)) fun _ =>
    closed_attempts h (hplan url) (hsends url) ..

end RestDemo.Poll
