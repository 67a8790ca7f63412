import RestDemo.Proofs.Engine.Coupled
import RestDemo.Proofs.Poll.Closed

/-!
# Polls beside each other

Polls that differ in their requests and in what is bound to their logs are coupled, if the requests
go out beside each other and the address comes from both stores alike (`coupled_run`).
-/

namespace RestDemo

open Engine

theorem Binding.saveEntries_alike {alike : Store → Store → Prop}
    (hset : ∀ {st st'} name v, alike st st' → alike (Table.set name v st) (Table.set name v st'))
    (status : Int) (document : Value) :
    ∀ (members : List (String × Value)) {st st' : Store} (bound : Table Value), alike st st' →
      let out := saveEntries status document members ⟨st, bound⟩
      let out' := saveEntries status document members ⟨st', bound⟩
      alike out.1.store out'.1.store ∧ out'.1.bound = out.1.bound ∧ out'.2 = out.2
  | [], _, _, _, h => ⟨h, rfl, rfl⟩
  | (name, path) :: rest, st, st', bound, h => by
    unfold saveEntries
    cases found status document path with
    | error f => exact ⟨h, rfl, rfl⟩
    | ok v? =>
      cases v? with
      | none => exact saveEntries_alike hset status document rest bound h
      | some v => exact saveEntries_alike hset status document rest _ (hset name v h)

/-- What is saved is the same, and the stores stay alike. -/
theorem Binding.save_alike {alike : Store → Store → Prop}
    (hset : ∀ {st st'} name v, alike st st' → alike (Table.set name v st) (Table.set name v st'))
    {st st' : Store} (h : alike st st') (mapping : Value) (status : Int) (document : Value) :
    let out := save mapping status document st
    let out' := save mapping status document st'
    alike out.1.store out'.1.store ∧ out'.1.bound = out.1.bound ∧ out'.2 = out.2 := by
  unfold save
  cases mapping with
  | object members => exact saveEntries_alike hset status document members [] h
  | _ => exact ⟨h, rfl, rfl⟩

namespace Poll

/-- The plan with another request, told to another log. -/
def Plan.onto (request : Request) (bound : Table Value) (plan : Plan) : Plan :=
  { plan with request, bound }

variable {tolerant : Prop} {s s' : Surroundings} {related : World → World → Prop}
  {alike : Store → Store → Prop} {sends : Request → Request → Prop} {bound bound' : Table Value}
  {plan : Plan} {request : Request}

theorem coupled_saveAnswer (h : Coupling tolerant s s' related alike sends bound bound')
    (eventName : String) (mapping : Value) (status : Int) (document : Value) :
    Coupled tolerant s s' related Eq (saveAnswer bound eventName mapping status document)
      (saveAnswer bound' eventName mapping status document) := by
  refine h.coupled_store.bind fun st st' hst => ?_
  obtain ⟨hstores, hbound, hfault⟩ := Binding.save_alike h.set hst mapping status document
  rcases hsave : Binding.save mapping status document st with ⟨saved, fault⟩
  rcases hsave' : Binding.save mapping status document st' with ⟨saved', fault'⟩
  rw [hsave, hsave'] at hstores hbound hfault
  dsimp only at hstores hbound hfault ⊢
  subst hfault
  rw [hbound]
  refine (h.coupled_setStore hstores).bind_same fun _ => ?_
  cases fault' with
  | some f => exact .failFault f _
  | none => exact .ite (fun _ => .pure rfl) fun _ => h.log _ _ _

theorem coupled_holds (h : Coupling tolerant s s' related alike sends bound bound')
    (condition document : Value) :
    Coupled tolerant s s' related Eq (holds bound condition document)
      (holds bound' condition document) := by
  refine (Coupled.orFault_same _).bind_same fun text => ?_
  refine (Coupled.orFault_same _).bind_same fun verdict => ?_
  cases verdict with
  | matched => exact .pure rfl
  | notMatched => exact .pure rfl
  | unparsable => exact (h.log _ _ _).bind_same fun _ => .pure rfl

section

variable (h : Coupling tolerant s s' related alike sends plan.bound bound')

include h

theorem coupled_succeed (number : Nat) (a : Answer) :
    Coupled tolerant s s' related Eq (succeed plan number a)
      (succeed (plan.onto request bound') number a) := by
  refine (h.log _ _ _).bind_same fun _ => ?_
  exact (coupled_saveAnswer h _ _ _ _).bind_same fun _ => .pure rfl

theorem coupled_checkFailure (number : Nat) (document : Value) :
    Coupled tolerant s s' related Eq (checkFailure plan number document)
      (checkFailure (plan.onto request bound') number document) := by
  refine .ite (fun _ => .pure rfl) fun _ => ?_
  refine (coupled_holds h plan.failureWhen document).bind_same fun b => ?_
  refine .ite (fun _ => ?_) fun _ => .pure rfl
  refine (h.log _ _ _).bind_same fun _ => ?_
  exact (Coupled.orFault_same _).bind_same fun _ => .failStep _

theorem coupled_attempt (hsends : sends plan.request request) (number : Nat) :
    Coupled tolerant s s' related Eq (attempt plan number)
      (attempt (plan.onto request bound') number) := by
  refine (h.send hsends).bind_same fun a => ?_
  refine h.requestTime.bind_same fun took => ?_
  refine (h.log _ _ _).bind_same fun _ => ?_
  refine (coupled_holds h plan.successWhen _).bind_same fun b => ?_
  exact .ite (fun _ => coupled_succeed h number a) fun _ => coupled_checkFailure h number _

theorem coupled_cancel (made : Nat) (last : Value) :
    Coupled tolerant s s' related Eq (cancel plan made last)
      (cancel (plan.onto request bound') made last) :=
  (h.log _ _ _).bind_same fun _ => .failStep _

theorem coupled_timeOut (last : Value) :
    Coupled tolerant s s' related Eq (timeOut plan last)
      (timeOut (plan.onto request bound') last) := by
  refine (h.log _ _ _).bind_same fun _ => ?_
  exact (Coupled.orFault_same _).bind_same fun _ => .failStep _

theorem coupled_pauseBefore (left : Nat) :
    Coupled tolerant s s' related Eq (pauseBefore plan left)
      (pauseBefore (plan.onto request bound') left) := by
  refine .ite (fun _ => .pure rfl) fun _ => ?_
  exact (Coupled.orFault_same _).bind_same fun x => h.pause x

theorem coupled_attempts (hsends : sends plan.request request) (left made : Nat) (last : Value) :
    Coupled tolerant s s' related Eq (attempts plan left made last)
      (attempts (plan.onto request bound') left made last) := by
  induction left generalizing made last with
  | zero => exact coupled_timeOut h last
  | succ left ih =>
    refine h.isCancelled.bind_same fun b => ?_
    refine .ite (fun _ => coupled_cancel h made last) fun _ => ?_
    refine (coupled_attempt h hsends (made + 1)).bind_same fun progress => ?_
    cases progress with
    | succeeded result => exact .pure rfl
    | pending document =>
      refine (coupled_pauseBefore h left).bind_same fun b => ?_
      exact .ite (fun _ => coupled_cancel h _ document) fun _ => ih _ document

end

theorem coupled_run (h : Coupling tolerant s s' related alike sends bound bound')
    {spec : PollSpec} {baseUrl : String} {headers headers' : Table String}
    (haddress : ∀ {st st'}, alike st st' →
      address spec.endpoint baseUrl st' = address spec.endpoint baseUrl st)
    (hsends : ∀ url, sends ⟨"GET", url, headers, none⟩ ⟨"GET", url, headers', none⟩)
    (defaults : PollingDefaults) :
    Coupled tolerant s s' related Eq (run spec baseUrl headers defaults bound)
      (run spec baseUrl headers' defaults bound') := by
  have hurl : Coupled tolerant s s' related Eq (url spec.endpoint baseUrl)
      (url spec.endpoint baseUrl) := by
    rw [url_eq]
    refine h.coupled_store.bind fun st st' hst => ?_
    rw [haddress hst]
    exact .orFault_same _
  refine hurl.bind_same fun url => (h.log _ _ _).bind_same fun _ => ?_
  exact coupled_attempts h (hsends url) _ _ _

end Poll

end RestDemo
