import RestDemo.Proofs.Poll.Outcome

/-!
# What a poll tells

A poll that nothing cancels tells of its start and then of its attempts, each as the reply to it has
it, until one settles the poll or there are none left (`LoopTold`). This is all that a poll without a
fault tells (`run_told`).
-/

namespace RestDemo.Poll

open Engine

variable {s : Surroundings} {w : World} {plan : Plan} {left made : Nat} {last : Value}

/-- What is told of the attempts after those made, by the replies to them: how many there are, what
comes of the poll, and the events. -/
inductive LoopTold (plan : Plan) :
    (Nat → Reply) → Nat → Nat → Except StepError PollResult → List Event → Prop
  | timedOut {reply : Nat → Reply} {made : Nat} {last : Value} :
    LoopTold plan reply made 0 (.error (.pollTimedOut plan.maxAttempts last)) [timeoutEntry plan]
  | settled {reply : Nat → Reply} {made : Nat} {r : Except StepError PollResult} {es : List Event}
      (told : AttemptTold plan (made + 1) (reply 0) ((r.mapError .step).map .succeeded) es) :
    LoopTold plan reply made 1 r es
  | again {reply : Nat → Reply} {made n : Nat} {document : Value}
      {r : Except StepError PollResult} {es es' : List Event}
      (told : AttemptTold plan (made + 1) (reply 0) (.ok (.pending document)) es)
      (rest : LoopTold plan (fun i => reply (i + 1)) (made + 1) n r es') :
    LoopTold plan reply made (n + 1) r (es ++ es')

theorem LoopTold.again_service {u : World} {n : Nat} {document : Value}
    {r : Except StepError PollResult} {es es' : List Event} {request : Request}
    (hsent : u.sent = w.sent ++ [request])
    (told : AttemptTold plan (made + 1) (s.service.reply w.sent.length) (.ok (.pending document)) es)
    (rest : LoopTold plan (fun i => s.service.reply (u.sent.length + i)) (made + 1) n r es') :
    LoopTold plan (fun i => s.service.reply (w.sent.length + i)) made (n + 1) r (es ++ es') := by
  simp only [World.length_add_of_sent hsent] at rest
  exact .again told rest

theorem attempts_told (hnone : s.cancellation = none)
    (h : Faultless (attempts plan left made last s w)) :
    ∃ n r es u, attempts plan left made last s w = (Except.mapError .step r, u) ∧
      u.sent = w.sent ++ List.replicate n plan.request ∧ u.events = w.events ++ es ∧
      LoopTold plan (fun i => s.service.reply (w.sent.length + i)) made n r es := by
  induction left generalizing made last w with
  | zero =>
    rw [attempts_zero] at h ⊢
    exact ⟨0, .error _, _, _, timeOut_run h, (List.append_nil _).symm, rfl, .timedOut⟩
  | succ left ih =>
    have hopen : (s.cancellation.isSome && w.cancelled) = false := by
      rw [hnone]
      rfl
    rw [attempts_of_open hopen] at h ⊢
    obtain ⟨r, store, es, hx, hattempted, htold⟩ := attempt_told (faultless_of_bind h)
    cases hattempted with
    | @settled r _ settlement =>
      have hrun : (attempt plan (made + 1) >>= goOn plan left (made + 1)) s w =
          (r, ((w.request s plan.request).withStore store).telling es) := by
        rw [bind_run, hx]
        cases r <;> rfl
      rw [hrun] at h ⊢
      rcases r with (e | f) | p
      · exact ⟨1, .error e, es, _, rfl, rfl, rfl, .settled htold⟩
      · exact absurd h not_faultless
      · exact ⟨1, .ok p, es, _, rfl, rfl, rfl, .settled htold⟩
    | pending leaves =>
      rw [bind_run_of_ok hx] at h ⊢
      obtain ⟨v, hsent, -, hevents, -, hrest⟩ := goOn_pending_run h
      rw [hnone] at hrest
      rcases hrest with ⟨hsome, -⟩ | hrun
      · cases hsome
      · rw [hrun] at h ⊢
        obtain ⟨n, r, es', u, hloop, hsent', hevents', htold'⟩ := ih h
        have hrequest : v.sent = w.sent ++ [plan.request] := hsent
        refine ⟨n + 1, r, es ++ es', u, hloop, ?_, ?_, htold'.again_service hrequest htold⟩
        · rw [hsent', hrequest, List.append_assoc, List.replicate_succ]
          rfl
        · rw [hevents', hevents, ← List.append_assoc]
          rfl

def startEntry (spec : PollSpec) (plan : Plan) : Event :=
  entry plan.bound .info "poll.start"
    [("url", .text plan.request.url), ("interval_ms", .int plan.interval),
      ("max_attempts", .int plan.maxAttempts), ("success_when", spec.successWhen),
      ("failure_when", spec.failureWhen)]

/-- A poll without a fault that nothing cancels tells of its start and of its attempts. -/
theorem run_told {spec : PollSpec} {baseUrl : String} {headers : Table String}
    {defaults : PollingDefaults} {bound : Table Value} (hnone : s.cancellation = none)
    (h : Faultless (run spec baseUrl headers defaults bound s w)) :
    ∃ endpoint, ∀ plan, plan = planFor spec (resolveUrl endpoint baseUrl) headers defaults bound →
      ∃ n r es u, run spec baseUrl headers defaults bound s w = (Except.mapError .step r, u) ∧
        u.sent = w.sent ++ List.replicate n plan.request ∧
        u.events = w.events ++ startEntry spec plan :: es ∧
        LoopTold plan (fun i => s.service.reply (w.sent.length + i)) 0 n r es := by
  unfold run at h ⊢
  obtain ⟨endpoint, -, hx⟩ := url_run (faultless_of_bind h)
  rw [bind_run_of_ok (hx s)] at h ⊢
  refine ⟨endpoint, ?_⟩
  rintro _ rfl
  have htold := log_bind_run h
  rw [htold] at h ⊢
  obtain ⟨n, r, es, u, hloop, hsent, hevents, hes⟩ := attempts_told hnone h
  refine ⟨n, r, es, u, hloop, hsent, ?_, hes⟩
  rw [hevents, World.telling, List.append_assoc]
  rfl

end RestDemo.Poll
