import RestDemo.Engine.Step
import RestDemo.Proofs.Poll.Coupled

/-!
# Steps beside each other

A step that is run from two stores that are alike is coupled with itself, if its requests go out
beside each other and what is shown of them is the same (`coupled_execute`). The fields bound to the
logs may differ.
-/

namespace RestDemo.Step

open Engine

structure ShownAlike (q q' : ResolvedRequest) : Prop where
  method : q'.method = q.method
  url : q'.url = q.url
  headers : Masking.maskTable (q'.headers.mapEntries fun _ s => .text s) =
    Masking.maskTable (q.headers.mapEntries fun _ s => .text s)
  body : Masking.maskAll q'.body = Masking.maskAll q.body

/-- The results differ at most in their requests, and these are paired. -/
structure ResultsPaired (pairs : ResolvedRequest → ResolvedRequest → Prop) (r r' : StepResult) :
    Prop where
  request : pairs r.request r'.request
  status : r'.status = r.status
  body : r'.body = r.body
  polling : r'.polling = r.polling

/-- What is known of a step whose requests are resolved from stores that are alike: they are paired,
and so they are shown alike and go out beside each other, as do the requests of the poll. -/
structure Pairing (tolerant : Prop) (alike : Store → Store → Prop) (sends : Request → Request → Prop)
    (pairs : ResolvedRequest → ResolvedRequest → Prop) (step : Step) (bodyMethods : List String)
    (settings : Settings) : Prop where
  unresolved {st st' : Store} (stores : alike st st') : unresolved step st' = unresolved step st
  prepare {st st' : Store} {p : Prepared} (stores : alike st st')
    (prepared : prepare step bodyMethods settings st = .ok p) :
    (∃ p', Step.prepare step bodyMethods settings st' = .ok p' ∧ p'.baseUrl = p.baseUrl ∧
      pairs p.request p'.request ∧ sends p.sent p'.sent) ∨
    tolerant ∧ ∃ f, Step.prepare step bodyMethods settings st' = .error f
  shown {q q' : ResolvedRequest} (paired : pairs q q') : ShownAlike q q'
  polls {q q' : ResolvedRequest} (paired : pairs q q') (url : String) :
    sends ⟨"GET", url, q.headers, none⟩ ⟨"GET", url, q'.headers, none⟩
  address {st st' : Store} {spec : PollSpec} (polled : step.poll = some spec) (baseUrl : String)
    (stores : alike st st') :
    Poll.address spec.endpoint baseUrl st' = Poll.address spec.endpoint baseUrl st

variable {tolerant : Prop} {s s' : Surroundings} {related : World → World → Prop}
  {alike : Store → Store → Prop} {sends : Request → Request → Prop}
  {pairs : ResolvedRequest → ResolvedRequest → Prop} {bound bound' : Table Value} {step : Step}
  {bodyMethods : List String} {settings : Settings}

theorem coupled_exchange (h : Coupling tolerant s s' related alike sends bound bound')
    (hstep : Pairing tolerant alike sends pairs step bodyMethods settings) :
    Coupled tolerant s s' related
      (fun e e' => e'.baseUrl = e.baseUrl ∧ pairs e.request e'.request ∧ e'.status = e.status ∧
        e'.body = e.body)
      (exchange step bodyMethods settings bound) (exchange step bodyMethods settings bound') := by
  have hwarn : Coupled tolerant s s' related Eq (warnUnresolved step bound)
      (warnUnresolved step bound') := by
    refine h.coupled_store.bind fun st st' hst => ?_
    rw [hstep.unresolved hst]
    exact .ite (fun _ => .pure rfl) fun _ => h.log _ _ _
  refine hwarn.bind_same fun _ => ?_
  refine h.coupled_store.bind fun st st' hst => ?_
  refine (Coupled.orFault fun p hp => hstep.prepare hst hp).bind ?_
  rintro p p' ⟨hbase, hpairs, hsends⟩
  have hshown := hstep.shown hpairs
  -- The requests differ, but the event that tells of them does not.
  dsimp only
  rw [hshown.method, hshown.url, hshown.headers, hshown.body]
  refine (h.log _ _ _).bind_same fun _ => ?_
  refine (h.send hsends).bind_same fun a => ?_
  refine h.requestTime.bind_same fun took => ?_
  refine (h.log _ _ _).bind_same fun _ => ?_
  refine (Poll.coupled_saveAnswer h _ _ _ _).bind_same fun _ => ?_
  exact .pure ⟨hbase, hpairs, rfl, rfl⟩

theorem coupled_execute
    (h : Coupling tolerant s s' related alike sends (boundTo bound step) (boundTo bound' step))
    (hstep : Pairing tolerant alike sends pairs step bodyMethods settings) :
    Coupled tolerant s s' related (ResultsPaired pairs)
      (execute step bodyMethods settings bound) (execute step bodyMethods settings bound') := by
  refine (coupled_exchange h hstep).bind ?_
  rintro ⟨baseUrl, q, status, body⟩ ⟨_, q', _, _⟩ ⟨rfl, hpairs, rfl, rfl⟩
  cases hpoll : step.poll with
  | none => exact .pure ⟨hpairs, rfl, rfl, rfl⟩
  | some spec =>
    refine (Poll.coupled_run h (hstep.address hpoll _) (hstep.polls hpairs) settings.polling).bind_same
      fun result => ?_
    exact .pure ⟨hpairs, rfl, rfl, rfl⟩

end RestDemo.Step
