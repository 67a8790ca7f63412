import RestDemo.Engine.Poll
import RestDemo.Proofs.Engine.Faultless

/-!
# One attempt of a poll

What the reply to one request says of a poll: it settles the poll (`Settles`) or leaves it open, and
if it does, `Settlement` is the result and the store that come of it. An attempt without a fault
sends the request once, comes to what its reply says and tells of it (`attempt_told`). What the loop
does after an attempt has a name of its own, `goOn`.
-/

namespace RestDemo

/-- The document that came back: none where no answer did. -/
def Reply.document : Reply → Value
  | .answer a => Json.bodyValue a.text
  | _ => .null

namespace Poll

open Engine

variable {s : Surroundings} {w : World}

/-- The condition holds of the document. -/
def Matches (condition document : Value) : Prop :=
  ∃ text, Condition.textOf condition = .ok text ∧
    Condition.evaluate text (some document) = .ok .matched

/-- The reply leaves nothing to poll for. -/
def Settles (plan : Plan) : Reply → Prop
  | .answer answer => Matches plan.successWhen (Json.bodyValue answer.text) ∨
      plan.failureWhen.isTruthy ∧ Matches plan.failureWhen (Json.bodyValue answer.text)
  | _ => True

/-- What comes of a poll with the reply to its request of a number, and the store after it. Success
is looked for first; only success changes the store. -/
inductive Settlement (plan : Plan) (number : Nat) (store : Store) :
    Reply → Except Failure PollResult → Store → Prop
  | unreachable (reason : String) :
    Settlement plan number store (.unreachable reason)
      (.error (.step (.unreachable plan.request.method plan.request.url reason))) store
  | succeeded {answer : Answer} {saved : Binding.Saved}
      (matched : Matches plan.successWhen (Json.bodyValue answer.text))
      (saves : Binding.save plan.save answer.status (Json.bodyValue answer.text) store =
        (saved, none)) :
    Settlement plan number store (.answer answer)
      (.ok ⟨number, Json.bodyValue answer.text, answer.status⟩) saved.store
  | failed {answer : Answer} {condition : String}
      (unmatched : ¬ Matches plan.successWhen (Json.bodyValue answer.text))
      (given : plan.failureWhen.isTruthy)
      (matched : Matches plan.failureWhen (Json.bodyValue answer.text))
      (spelled : Condition.textOf plan.failureWhen = .ok condition) :
    Settlement plan number store (.answer answer)
      (.error (.step (.pollFailed condition number (Json.bodyValue answer.text)))) store

theorem Settlement.settles {plan : Plan} {number : Nat} {store store' : Store} {reply : Reply}
    {r : Except Failure PollResult} (h : Settlement plan number store reply r store') :
    Settles plan reply := by
  cases h with
  | unreachable => trivial
  | succeeded matched => exact .inl matched
  | failed _ given matched => exact .inr ⟨given, matched⟩

theorem matches_iff {condition document : Value} {text : String} {verdict : Verdict}
    (htext : Condition.textOf condition = .ok text)
    (hverdict : Condition.evaluate text (some document) = .ok verdict) :
    Matches condition document ↔ verdict = .matched := by
  constructor
  · rintro ⟨text', htext', hmatched⟩
    obtain rfl : text = text' := Except.ok.inj (htext.symm.trans htext')
    exact Except.ok.inj (hverdict.symm.trans hmatched)
  · rintro rfl
    exact ⟨text, htext, hverdict⟩

instance (condition document : Value) : Decidable (Matches condition document) :=
  match htext : Condition.textOf condition with
  | .error _ => .isFalse fun ⟨_, h, _⟩ => nomatch htext.symm.trans h
  | .ok text =>
    match hverdict : Condition.evaluate text (some document) with
    | .ok verdict => decidable_of_iff (verdict = .matched) (matches_iff htext hverdict).symm
    | .error _ => .isFalse fun ⟨text', h, h'⟩ => by
      obtain rfl : text = text' := Except.ok.inj (htext.symm.trans h)
      exact nomatch hverdict.symm.trans h'

instance (plan : Plan) : (reply : Reply) → Decidable (Settles plan reply)
  | .answer answer => inferInstanceAs (Decidable
      (Matches plan.successWhen (Json.bodyValue answer.text) ∨
        plan.failureWhen.isTruthy ∧ Matches plan.failureWhen (Json.bodyValue answer.text)))
  | .unreachable _ => .isTrue trivial
  | .crash _ => .isTrue trivial

/-! ## What is told -/

/-- Tells of a text that is no condition. -/
def unparsableEntry (bound : Table Value) (condition : Value) : Event :=
  entry bound .warning "condition.unparsable" [("expr", condition)]

/-- Tells which names were bound. -/
def savedEntry (bound : Table Value) (eventName : String) (names : List String) : Event :=
  entry bound .info eventName [("names", Value.texts names)]

def attemptEntry (plan : Plan) (number : Nat) (status : Int) (took : UInt64) : Event :=
  entry plan.bound .debug "poll.attempt"
    [("attempt", .int number), ("status", .int status), ("elapsed_ms", .int took.toNat)]

def succeededEntry (plan : Plan) (number : Nat) : Event :=
  entry plan.bound .info "poll.succeeded" [("attempts", .int number)]

def failedEntry (plan : Plan) (number : Nat) : Event :=
  entry plan.bound .error "poll.failed"
    [("attempts", .int number), ("condition", plan.failureWhen)]

/-- What is told of an attempt, by the reply to it and by what it comes to: the attempt if it was
answered, with any condition that is none, and then how it settles the poll. -/
inductive AttemptTold (plan : Plan) (number : Nat) :
    Reply → Except Failure Progress → List Event → Prop
  | unreachable {reason : String} {e : StepError} :
    AttemptTold plan number (.unreachable reason) (.error (.step e)) []
  | succeeded {a : Answer} {took : UInt64} {result : PollResult} {saved : List Event}
      {names : List String}
      (binds : saved.Sublist [savedEntry plan.bound "poll.variables_saved" names]) :
    AttemptTold plan number (.answer a) (.ok (.succeeded result))
      (attemptEntry plan number a.status took :: succeededEntry plan number :: saved)
  | failed {a : Answer} {took : UInt64} {condition : String} {last : Value} {warnings : List Event}
      (warned : warnings.Sublist [unparsableEntry plan.bound plan.successWhen]) :
    AttemptTold plan number (.answer a) (.error (.step (.pollFailed condition number last)))
      (attemptEntry plan number a.status took :: (warnings ++ [failedEntry plan number]))
  | pending {a : Answer} {took : UInt64} {document : Value} {warnings : List Event}
      (warned : warnings.Sublist
        [unparsableEntry plan.bound plan.successWhen, unparsableEntry plan.bound plan.failureWhen]) :
    AttemptTold plan number (.answer a) (.ok (.pending document))
      (attemptEntry plan number a.status took :: warnings)

/-! ## The parts of an attempt -/

theorem holds_run {bound : Table Value} {condition document : Value}
    (h : Faultless (holds bound condition document s w)) :
    ∃ b es, holds bound condition document s w = (.ok b, w.telling es) ∧
      es.Sublist [unparsableEntry bound condition] ∧ (b = true → es = []) ∧
      (b = true ↔ Matches condition document) := by
  unfold holds at h ⊢
  obtain ⟨text, htext, hrun⟩ := orFault_bind_of_faultless h
  rw [hrun] at h ⊢
  obtain ⟨verdict, hverdict, hrun⟩ := orFault_bind_of_faultless h
  rw [hrun] at h ⊢
  have hiff := matches_iff htext hverdict
  cases verdict with
  | matched => exact ⟨true, [], by simp, List.nil_sublist _, fun _ => rfl, by simp [hiff]⟩
  | notMatched => exact ⟨false, [], by simp, List.nil_sublist _, fun _ => rfl, by simp [hiff]⟩
  | unparsable =>
    refine ⟨false, _, log_bind_run h, List.Sublist.refl _, ?_, by simp [hiff]⟩
    exact fun hb => absurd hb Bool.false_ne_true

/-- Saving an answer changes the store as its mapping says, and nothing else but what is told. -/
theorem saveAnswer_run {bound : Table Value} {eventName : String} {mapping document : Value}
    {status : Int} (h : Faultless (saveAnswer bound eventName mapping status document s w)) :
    ∃ saved es names, Binding.save mapping status document w.context.store = (saved, none) ∧
      saveAnswer bound eventName mapping status document s w =
        (.ok (), (w.withStore saved.store).telling es) ∧
      es.Sublist [savedEntry bound eventName names] := by
  unfold saveAnswer at h ⊢
  simp only [bind_run, store_run, setStore_run] at h ⊢
  match hs : Binding.save mapping status document w.context.store with
  | (saved, some fault) =>
    simp only [hs] at h
    exact absurd h not_faultless
  | (saved, none) =>
    simp only [hs] at h ⊢
    by_cases hb : saved.bound.isEmpty
    · simp only [hb, ↓reduceIte]
      exact ⟨saved, [], [], rfl, by simp, List.nil_sublist _⟩
    · simp only [hb, Bool.false_eq_true, ↓reduceIte] at h ⊢
      exact ⟨saved, _, _, rfl, log_run h, List.Sublist.refl _⟩

/-! ## The attempt -/

/-- What an attempt comes to: a settlement, or a document that leaves the poll open. -/
inductive Attempted (plan : Plan) (number : Nat) (store : Store) (reply : Reply) :
    Except Failure Progress → Store → Prop
  | settled {r : Except Failure PollResult} {store' : Store}
      (settlement : Settlement plan number store reply r store') :
    Attempted plan number store reply (r.map .succeeded) store'
  | pending (leaves : ¬ Settles plan reply) :
    Attempted plan number store reply (.ok (.pending reply.document)) store

theorem succeed_run {plan : Plan} {number : Nat} {a : Answer}
    (h : Faultless (succeed plan number a s w)) :
    ∃ saved es names,
      Binding.save plan.save a.status (Json.bodyValue a.text) w.context.store = (saved, none) ∧
      succeed plan number a s w =
        (.ok (.succeeded ⟨number, Json.bodyValue a.text, a.status⟩),
          (w.withStore saved.store).telling (succeededEntry plan number :: es)) ∧
      es.Sublist [savedEntry plan.bound "poll.variables_saved" names] := by
  unfold succeed at h ⊢
  have htold := log_bind_run h
  rw [htold] at h ⊢
  obtain ⟨saved, es, names, hsaves, hx, hes⟩ := saveAnswer_run (faultless_of_bind h)
  refine ⟨saved, es, names, hsaves, ?_, hes⟩
  rw [bind_run_of_ok hx]
  simp [succeededEntry]

/-- The condition of failure ends the poll if it holds, and leaves it open if not. -/
theorem checkFailure_run {plan : Plan} {number : Nat} {document : Value}
    (h : Faultless (checkFailure plan number document s w)) :
    (∃ condition, plan.failureWhen.isTruthy ∧ Matches plan.failureWhen document ∧
        Condition.textOf plan.failureWhen = .ok condition ∧
        checkFailure plan number document s w =
          (.error (.step (.pollFailed condition number document)),
            w.telling [failedEntry plan number])) ∨
      ∃ es, ¬ (plan.failureWhen.isTruthy ∧ Matches plan.failureWhen document) ∧
        checkFailure plan number document s w = (.ok (.pending document), w.telling es) ∧
        es.Sublist [unparsableEntry plan.bound plan.failureWhen] := by
  unfold checkFailure at h ⊢
  by_cases hgiven : plan.failureWhen.isTruthy
  · simp only [hgiven, Bool.not_true, Bool.false_eq_true, ↓reduceIte] at h ⊢
    obtain ⟨b, es, hx, hes, hnone, hb⟩ := holds_run (faultless_of_bind h)
    rw [bind_run_of_ok hx] at h ⊢
    cases b with
    | true =>
      obtain rfl := hnone rfl
      simp only [↓reduceIte, World.telling_nil] at h ⊢
      have htold := log_bind_run h
      rw [htold] at h ⊢
      obtain ⟨condition, hspelled, hrun⟩ := orFault_bind_of_faultless h
      exact .inl ⟨condition, trivial, hb.1 rfl, hspelled, hrun⟩
    | false => exact .inr ⟨es, fun hm => Bool.false_ne_true (hb.2 hm.2), rfl, hes⟩
  · simp only [hgiven, Bool.not_false, ↓reduceIte]
    exact .inr ⟨[], fun hm => Bool.false_ne_true hm.1, by simp, List.nil_sublist _⟩

theorem judge_run {plan : Plan} {number : Nat} {a : Answer}
    (h : Faultless (judge plan number a s w)) :
    ∃ r store es, judge plan number a s w = (r, (w.withStore store).telling es) ∧
      Attempted plan number w.context.store (.answer a) r store ∧
      AttemptTold plan number (.answer a) r es := by
  unfold judge at h ⊢
  rw [requestTime_bind_run] at h ⊢
  generalize s.service.clock.request w.sent.length = took at h ⊢
  have htold := log_bind_run h
  rw [htold] at h ⊢
  obtain ⟨b, warnings, hx, hwarned, hnone, hb⟩ := holds_run (faultless_of_bind h)
  rw [bind_run_of_ok hx] at h ⊢
  cases b with
  | true =>
    obtain rfl := hnone rfl
    simp only [↓reduceIte, World.telling_nil] at h ⊢
    obtain ⟨saved, es, names, hsaves, hrun, hes⟩ := succeed_run h
    refine ⟨_, saved.store, attemptEntry plan number a.status took :: succeededEntry plan number :: es,
      ?_, .settled (.succeeded (hb.1 rfl) hsaves), .succeeded hes⟩
    rw [hrun]
    simp [attemptEntry, Except.map]
  | false =>
    have hunmatched : ¬ Matches plan.successWhen (Json.bodyValue a.text) :=
      fun hm => Bool.false_ne_true (hb.2 hm)
    simp only [Bool.false_eq_true, ↓reduceIte] at h ⊢
    rcases checkFailure_run h with
      ⟨condition, hgiven, hmatched, hspelled, hrun⟩ | ⟨es, hopen, hrun, hes⟩
    · refine ⟨_, w.context.store,
        attemptEntry plan number a.status took :: (warnings ++ [failedEntry plan number]), ?_,
        .settled (.failed hunmatched hgiven hmatched hspelled), .failed hwarned⟩
      rw [hrun]
      simp [attemptEntry, Except.map]
    · refine ⟨_, w.context.store, attemptEntry plan number a.status took :: (warnings ++ es), ?_,
        .pending fun hs => hs.elim hunmatched hopen, .pending (hwarned.append hes)⟩
      rw [hrun]
      simp [attemptEntry, Reply.document]

/-- An attempt without a fault sends the request, and comes to what the reply says and tells of it. -/
theorem attempt_told {plan : Plan} {number : Nat} (h : Faultless (attempt plan number s w)) :
    ∃ r store es, attempt plan number s w =
        (r, ((w.request s plan.request).withStore store).telling es) ∧
      Attempted plan number w.context.store (s.service.reply w.sent.length) r store ∧
      AttemptTold plan number (s.service.reply w.sent.length) r es := by
  unfold attempt at h ⊢
  rcases send_bind_of_faultless h with ⟨reason, hreply, hrun⟩ | ⟨a, hreply, hrun⟩
  · rw [hrun, hreply]
    refine ⟨_, w.context.store, [], ?_, .settled (.unreachable reason), .unreachable⟩
    simp [World.withStore, World.request, World.cancelIf, Except.map]
  · rw [hrun] at h ⊢
    rw [hreply]
    exact judge_run h

/-- An attempt without a fault sends the request and comes to what the reply says. -/
theorem attempt_run {plan : Plan} {number : Nat} (h : Faultless (attempt plan number s w)) :
    ∃ r store u, attempt plan number s w = (r, u) ∧
      Attempted plan number w.context.store (s.service.reply w.sent.length) r store ∧
      ((w.request s plan.request).withStore store).Told u := by
  obtain ⟨r, store, es, hrun, hattempted, -⟩ := attempt_told h
  exact ⟨r, store, _, hrun, hattempted, .of_telling _ es⟩

/-! ## After an attempt -/

/-- What follows an attempt of a loop with some attempts left: nothing after a success, and otherwise
a pause and the rest of the loop. -/
def goOn (plan : Plan) (left made : Nat) : Progress → Engine PollResult
  | .succeeded result => return result
  | .pending document => do
    if ← pauseBefore plan left then cancel plan made document
    else attempts plan left made document

theorem goOn_pending (plan : Plan) (left made : Nat) (document : Value) :
    goOn plan left made (.pending document) =
      pauseBefore plan left >>= fun b =>
        if b then cancel plan made document else attempts plan left made document :=
  rfl

theorem attempts_zero (plan : Plan) (made : Nat) (last : Value) :
    attempts plan 0 made last = timeOut plan last :=
  rfl

theorem attempts_succ (plan : Plan) (left made : Nat) (last : Value) :
    attempts plan (left + 1) made last =
      Engine.isCancelled >>= fun b =>
        if b then cancel plan made last
        else attempt plan (made + 1) >>= goOn plan left (made + 1) :=
  rfl

theorem attempts_of_cancelled {plan : Plan} {left made : Nat} {last : Value}
    (h : (s.cancellation.isSome && w.cancelled) = true) :
    attempts plan (left + 1) made last s w = cancel plan made last s w := by
  rw [attempts_succ, bind_run, isCancelled_run, h]
  rfl

theorem attempts_of_open {plan : Plan} {left made : Nat} {last : Value}
    (h : (s.cancellation.isSome && w.cancelled) = false) :
    attempts plan (left + 1) made last s w =
      (attempt plan (made + 1) >>= goOn plan left (made + 1)) s w := by
  rw [attempts_succ, bind_run, isCancelled_run, h]
  rfl

end Poll

end RestDemo
