import RestDemo.Proofs.Poll.Trace
import RestDemo.Proofs.Step.Effect

/-!
# What a step tells

A step tells of its request, of the answer to it and of its poll (`AnswerTold`), as the replies have
it. This is all that a step without a fault tells, where nothing cancels it (`execute_told`).
-/

namespace RestDemo.Step

open Engine

variable {s : Surroundings} {w : World} {step : Step} {bodyMethods : List String}
  {settings : Settings} {bound : Table Value}

/-- What is told after the request of a step, by the replies from the one to it on: what comes of
the step, the requests of its poll, and the events. -/
inductive AnswerTold (step : Step) (settings : Settings) (bound : Table Value) (prepared : Prepared)
    (reply : Nat → Reply) : Except StepError StepResult → List Request → List Event → Prop
  | unreachable {reason : String} (first : reply 0 = .unreachable reason) :
    AnswerTold step settings bound prepared reply
      (.error (.unreachable prepared.request.method prepared.request.url reason)) [] []
  | unpolled {a : Answer} {took : UInt64} {saved : List Event} {names : List String}
      (first : reply 0 = .answer a)
      (binds : saved.Sublist [Poll.savedEntry bound "rest.variables_saved" names])
      (unpolled : step.poll = none) :
    AnswerTold step settings bound prepared reply
      (.ok ⟨prepared.request, a.status, Json.bodyValue a.text, none⟩) []
      (responseEntry bound a took :: saved)
  | polled {a : Answer} {took : UInt64} {saved es : List Event} {names : List String}
      {spec : PollSpec}
      {endpoint : String} {plan : Poll.Plan} {n : Nat} {r : Except StepError PollResult}
      (first : reply 0 = .answer a)
      (binds : saved.Sublist [Poll.savedEntry bound "rest.variables_saved" names])
      (polls : step.poll = some spec)
      (settles : plan = Poll.planFor spec (resolveUrl endpoint prepared.baseUrl)
        prepared.request.headers settings.polling bound)
      (told : Poll.LoopTold plan (fun i => reply (i + 1)) 0 n r es) :
    AnswerTold step settings bound prepared reply
      (r.map fun p => ⟨prepared.request, a.status, p.document, some p⟩)
      (List.replicate n (prepared.polled endpoint))
      (responseEntry bound a took :: (saved ++ Poll.startEntry spec plan :: es))

/-- A step without a fault that nothing cancels tells of variables that have no value, of its request
and of what comes of it. -/
theorem execute_told (hnone : s.cancellation = none)
    (h : Faultless (execute step bodyMethods settings bound s w)) :
    ∃ prepared warned unresolved r polls es u,
      Resolves step bodyMethods settings w.context.store prepared ∧
      warned.Sublist [unresolvedEntry (boundTo bound step) unresolved] ∧
      execute step bodyMethods settings bound s w = (Except.mapError .step r, u) ∧
      AnswerTold step settings (boundTo bound step) prepared
        (fun i => s.service.reply (w.sent.length + i)) r polls es ∧
      u.sent = w.sent ++ prepared.sent :: polls ∧
      u.events =
        w.events ++ (warned ++ requestEntry (boundTo bound step) prepared.request :: es) := by
  unfold execute at h ⊢
  obtain ⟨prepared, warned, unresolved, hprepared, hwarned, hexchange⟩ :=
    exchange_told (faultless_of_bind h)
  rcases hexchange with ⟨reason, hreply, hx⟩ | ⟨a, saved, took, binds, names, hreply, -, hx, hbinds⟩
  · rw [bind_run, hx]
    exact ⟨prepared, warned, unresolved, .error _, [], [], _, hprepared, hwarned, rfl,
      .unreachable hreply, rfl, rfl⟩
  · rw [bind_run_of_ok hx] at h ⊢
    cases hpoll : step.poll with
    | none =>
      exact ⟨prepared, warned, unresolved, .ok _, [], _, _, hprepared, hwarned, rfl,
        .unpolled hreply hbinds hpoll, rfl, rfl⟩
    | some spec =>
      rw [hpoll] at h
      dsimp only at h ⊢
      obtain ⟨endpoint, hplan⟩ := Poll.run_told hnone (faultless_of_bind h)
      obtain ⟨n, r, es, u, hrun, hsent, hevents, htold⟩ := hplan _ rfl
      have hfirst : (((w.request s prepared.sent).withStore saved.store).telling
          (warned ++ requestEntry (boundTo bound step) prepared.request ::
            responseEntry (boundTo bound step) a took :: binds)).sent = w.sent ++ [prepared.sent] := rfl
      simp only [World.length_add_of_sent hfirst] at htold
      refine ⟨prepared, warned, unresolved, _, _, responseEntry (boundTo bound step) a took :: _, u,
        hprepared, hwarned, ?_, .polled hreply hbinds hpoll rfl htold, ?_, ?_⟩
      · rw [bind_pure_run, hrun]
        cases r <;> rfl
      · rw [hsent, hfirst, List.append_assoc]
        rfl
      · rw [hevents]
        simp [World.telling, World.withStore, World.request, World.cancelIf]

end RestDemo.Step
