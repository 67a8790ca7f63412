import RestDemo.Proofs.Engine.Before
import RestDemo.Proofs.Poll.Outcome

/-!
# Cancelling a poll

A cancellation may come before a poll, during one of its requests, or in a pause after one. The loop
is compared with the loop that nothing cancels: both go alike up to the attempt at which the
cancellation comes (`attempts_sameUpTo`), and there the first one ends if it has not come out before.
No request is sent in between (`attempts_timely`).
-/

namespace RestDemo

/-- Whether a poll that pauses after so many requests is cancelled at the end of the pause, if it
was not before the last of them. -/
def Cancellation.stopsAfter (sent : Nat) (c : Cancellation) : Bool :=
  c = .during sent || c.comesAfter sent

/-- The attempt of a poll, begun after so many requests, during or after which a cancellation
comes. -/
def Cancellation.attempt? (sent : Nat) : Cancellation → Option Nat
  | during request => if sent < request then some (request - sent) else none
  | pausing request => some (max 1 (request - sent))
  | _ => none

namespace Cancellation

variable {c : Cancellation} {sent : Nat}

theorem stopsAfter_of_attempt {j : Nat} (h : c.attempt? sent = some j) :
    1 ≤ j ∧ c.stopsAfter (sent + j) ∧ ∀ i, 1 ≤ i → i < j → c.stopsAfter (sent + i) = false := by
  cases c with
  | never => cases h
  | before => cases h
  | during n =>
    by_cases hlt : sent < n
    · rw [attempt?, if_pos hlt] at h
      obtain rfl := Option.some.inj h
      refine ⟨by omega, ?_, fun i _ hi => ?_⟩
      · simp [stopsAfter, comesAfter]
        omega
      · simp [stopsAfter, comesAfter]
        omega
    · rw [attempt?, if_neg hlt] at h
      cases h
  | pausing n =>
    obtain rfl := Option.some.inj h
    refine ⟨by omega, ?_, fun i _ hi => ?_⟩
    · simp [stopsAfter, comesAfter]
      omega
    · simp [stopsAfter, comesAfter]
      omega

theorem not_stopsAfter_of_attempt (h : c.attempt? sent = none) {i : Nat} (hi : 1 ≤ i) :
    c.stopsAfter (sent + i) = false := by
  cases c with
  | never => rfl
  | before => rfl
  | during n =>
    by_cases hlt : sent < n
    · rw [attempt?, if_pos hlt] at h
      cases h
    · simp [stopsAfter, comesAfter]
      omega
  | pausing n => cases h

end Cancellation

/-- The same surroundings with nothing to cancel. -/
def Surroundings.uncancellable (s : Surroundings) : Surroundings := { s with cancellation := none }

/-- The worlds differ in nothing but their pauses and the cancellation. -/
structure World.Agrees (w w' : World) : Prop where
  context : w'.context = w.context
  sent : w'.sent = w.sent
  events : w'.events = w.events
  issued : w'.issued = w.issued

theorem World.Agrees.refl (w : World) : w.Agrees w := ⟨rfl, rfl, rfl, rfl⟩

namespace Poll

open Engine

variable {s : Surroundings} {w w' u : World} {c : Cancellation} {plan : Plan}
  {left made : Nat} {last : Value}

theorem alike_uncancellable (s : Surroundings) :
    Closed.Sending (fun _ => True) (fun _ => True) (Alike s s.uncancellable World.Agrees) := by
  refine Alike.sending (Alike.closed rfl ?_ ?_ ?_ ?_) ?_ ?_
  · intro w w' h
    rw [h.sent]
    rfl
  · exact fun h => congrArg RunContext.store h.context
  · intro w w' store h
    exact ⟨by simp [h.context], h.sent, h.events, h.issued⟩
  · intro w w' e h
    exact ⟨h.context, h.sent, by simp [World.telling, h.events], h.issued⟩
  · intro w w' h
    rw [h.sent]
    rfl
  · intro w w' r h
    exact ⟨h.context, by simp [h.sent], h.events, h.issued⟩

/-! ## The parts of the loop -/

theorem attempt_quiet (plan : Plan) (number : Nat) (s : Surroundings) (w : World) :
    World.Quiet (w.request s plan.request) (attempt plan number s w).2 := by
  rw [attempt, bind_run, send]
  cases s.service.reply w.sent.length with
  | answer a => exact closed_judge (quiet_closed s) plan.admits_all number a _
  | unreachable reason => exact .refl _
  | crash text => exact .refl _

theorem attempt_pending {number : Nat} {document : Value}
    (h : attempt plan number s w = (.ok (.pending document), u)) :
    document = (s.service.reply w.sent.length).document ∧ u.context = w.context := by
  have hfaultless : Faultless (attempt plan number s w) := by
    rw [h]
    exact faultless_ok
  obtain ⟨r, store, v, hrun, hattempted, htold⟩ := attempt_run hfaultless
  obtain ⟨rfl, rfl⟩ := Prod.mk.inj (hrun.symm.trans h)
  generalize hr : (Except.ok (Progress.pending document) : Except Failure Progress) = r at hattempted
  cases hattempted with
  | @settled r =>
    cases r <;> cases hr
  | pending =>
    cases hr
    exact ⟨rfl, htold.context_eq⟩

/-- The pause after an attempt where a cancellation may come. -/
theorem goOn_cancellable (hc : s.cancellation = some c) (document : Value) :
    goOn plan (left + 1) made (.pending document) s w =
      match seconds plan.interval with
      | .ok _ =>
        (if (w.cancelIf (c.comesAfter w.sent.length)).cancelled then cancel plan made document
          else attempts plan (left + 1) made document) s (w.cancelIf (c.comesAfter w.sent.length))
      | .error f => (.error (.fault f), w) := by
  rw [goOn_pending, pauseBefore, if_neg (Nat.succ_ne_zero left), bind_run, bind_run]
  cases seconds plan.interval with
  | ok x =>
    dsimp only [orFault_ok_run]
    rw [pause, hc]
  | error f => rfl

/-- The pause after an attempt where nothing may cancel it. -/
theorem goOn_uncancellable (s : Surroundings) (w : World) (document : Value) :
    goOn plan (left + 1) made (.pending document) s.uncancellable w =
      match seconds plan.interval with
      | .ok x =>
        attempts plan (left + 1) made document s.uncancellable { w with pauses := w.pauses ++ [x] }
      | .error f => (.error (.fault f), w) := by
  rw [goOn_pending, pauseBefore, if_neg (Nat.succ_ne_zero left), bind_run, bind_run]
  cases seconds plan.interval <;> rfl

/-- A loop with attempts left that is not cancelled sends at least one request. -/
theorem lt_sent_of_attempts (plan : Plan) (left made : Nat) (last : Value)
    (h : (s.cancellation.isSome && w.cancelled) = false) :
    w.sent.length < (attempts plan (left + 1) made last s w).2.sent.length := by
  have hbefore := before_running s
  have hpause : Leads s World.Before Bool (pauseBefore plan left) :=
    closed_pauseBefore hbefore.toPausing.polling (fun _ _ => trivial) left
  have hrest := closed_attempts hbefore.toPausing.polling plan.admits_all trivial left (made + 1)
  have hnext := Leads.bind_next World.Before.refl (x := attempt plan (made + 1))
    (closed_goOn hbefore.toClosed plan.admits_all hpause hrest) w
  have hle := hnext.sent.length_le
  rw [(attempt_quiet plan (made + 1) s w).sent, World.request_sent, List.length_append,
    List.length_singleton] at hle
  rw [attempts_of_open h]
  exact hle

end Poll

/-! ## No request after the cancellation -/

/-- If the cancellation has come, it came after all requests, or all but so many at first. -/
def World.Timely (first : Nat) (w : World) : Prop :=
  ∀ n, w.cancelledAfter = some n → w.sent.length ≤ max first n

namespace World.Timely

variable {first : Nat} {s : Surroundings} {w u : World}

theorem of_length (w : World) : w.Timely w.sent.length :=
  fun n _ => Nat.le_max_left _ n

theorem quiet (h : w.Timely first) (hquiet : Quiet w u) : u.Timely first := by
  intro n hn
  rw [hquiet.cancelledAfter] at hn
  rw [hquiet.sent]
  exact h n hn

theorem cancelIf (h : w.Timely first) (comes : Bool) : (w.cancelIf comes).Timely first := by
  intro n hn
  cases comes with
  | false => exact h n hn
  | true =>
    rw [World.cancelIf, if_pos rfl] at hn
    cases hw : w.cancelledAfter with
    | none =>
      rw [hw] at hn
      obtain rfl := Option.some.inj hn
      exact Nat.le_max_right _ _
    | some m =>
      rw [hw] at hn
      exact h n (hw.trans hn)

theorem request (h : w.cancelled = false) (s : Surroundings) (r : Request) :
    (w.request s r).Timely first := by
  refine cancelIf (fun n hn => ?_) _
  rw [cancelled, Option.isSome_eq_false_iff, Option.isNone_iff_eq_none] at h
  exact absurd (h.symm.trans hn) (Option.some_ne_none n).symm

end World.Timely

namespace Poll

open Engine

variable {s : Surroundings} {w w' u : World} {c : Cancellation} {plan : Plan}
  {left made : Nat} {last : Value}

theorem timely_closed (s : Surroundings) (first : Nat) :
    Closed (fun _ => True) (fun _ => True) (Leads s fun w u => w.Timely first → u.Timely first) := by
  refine Leads.closed (fun _ h => h) (fun _ _ _ h h' hw => h' (h hw)) ?_ ?_
  · exact fun w store h => h.quiet ⟨rfl, rfl⟩
  · exact fun w e _ _ h => h.quiet ⟨rfl, rfl⟩

theorem pauseBefore_timely (hc : s.cancellation = some c) (plan : Plan) (left first : Nat) :
    Leads s (fun w u => w.Timely first → u.Timely first) Bool (pauseBefore plan left) := by
  have hclosed := timely_closed s first
  refine Closed.ite (fun _ => hclosed.pure false) fun _ => ?_
  refine hclosed.bind (hclosed.orFault fun _ _ => trivial) fun x w hw => ?_
  rw [pause, hc]
  exact hw.cancelIf _

/-- A loop that may be cancelled sends no request after the cancellation. -/
theorem attempts_timely (hc : s.cancellation = some c) (plan : Plan) (left made first : Nat)
    (last : Value) :
    Leads s (fun w u => w.Timely first → u.Timely first) PollResult
      (attempts plan left made last) := by
  have hclosed := timely_closed s first
  induction left generalizing made last with
  | zero => exact closed_timeOut hclosed plan.admits_all last
  | succ left ih =>
    intro w hw
    cases hcancelled : s.cancellation.isSome && w.cancelled with
    | true =>
      rw [attempts_of_cancelled hcancelled]
      exact closed_cancel hclosed plan.admits_all made last w hw
    | false =>
      -- The request of the attempt is sent before any cancellation, whatever came before it.
      have hopen : w.cancelled = false := by
        rwa [hc, Option.isSome_some, Bool.true_and] at hcancelled
      have hattempt : (attempt plan (made + 1) s w).2.Timely first :=
        (World.Timely.request hopen s plan.request).quiet (attempt_quiet plan (made + 1) s w)
      have hnext := closed_goOn hclosed plan.admits_all (pauseBefore_timely hc plan left first)
        (ih (made + 1))
      rw [attempts_of_open hcancelled]
      exact Leads.bind_next (fun _ h => h) hnext w hattempt

/-- Neither does a poll, whatever came before it. -/
theorem run_timely (hc : s.cancellation = some c) (spec : PollSpec) (baseUrl : String)
    (headers : Table String) (defaults : PollingDefaults) (bound : Table Value) (first : Nat) :
    Leads s (fun w u => w.Timely first → u.Timely first) PollResult
      (run spec baseUrl headers defaults bound) := by
  have hclosed := timely_closed s first
  refine hclosed.bind (closed_url hclosed fun _ _ _ => trivial) fun url => ?_
  exact hclosed.bind (hclosed.tell trivial) fun _ => attempts_timely hc _ _ _ first _

/-! ## The loop that nothing cancels -/

theorem cancelled_request (hc : s.cancellation = some c) (hw : w.cancelledAfter = none)
    (r : Request) :
    (w.request s r).cancelledAfter =
      if c = .during (w.sent.length + 1) then some (w.sent.length + 1) else none := by
  rw [World.request, World.cancelIf, hc]
  by_cases hd : c = .during (w.sent.length + 1)
  · simp [hd, hw]
  · simp [hd, hw]

/-- The pause after a request of a poll that was not cancelled before it. -/
theorem cancelIf_cancelled (hc : s.cancellation = some c) (hw : w.cancelledAfter = none)
    (hsent : u.sent.length = w.sent.length + 1) {r : Request}
    (hu : u.cancelledAfter = (w.request s r).cancelledAfter) :
    (u.cancelIf (c.comesAfter u.sent.length)).cancelled = c.stopsAfter (w.sent.length + 1) := by
  rw [World.cancelled, World.cancelIf, hu, cancelled_request hc hw, hsent]
  unfold Cancellation.stopsAfter
  by_cases hd : c = .during (w.sent.length + 1)
  · cases hcomes : c.comesAfter (w.sent.length + 1) <;> simp [hd]
  · cases hcomes : c.comesAfter (w.sent.length + 1) <;> simp [hd]

/-- A loop that may be cancelled beside the one that nothing cancels, both seen up to a number of
further requests, which is one more than the number given. -/
structure SameUpTo (plan : Plan) (s : Surroundings) (c : Cancellation) (w : World) (made n : Nat)
    (out free : Except Failure PollResult × World) : Prop where
  /-- If the second one sends no more than these, the first one comes out alike. -/
  same : free.2.sent.length ≤ w.sent.length + (n + 1) → out.1 = free.1 ∧ out.2.Agrees free.2
  /-- If it does, the first one is cancelled after these if the cancellation comes by then. -/
  stopped : w.sent.length + (n + 1) < free.2.sent.length → c.stopsAfter (w.sent.length + (n + 1)) →
    ∃ v, out = cancel plan (made + (n + 1)) (s.service.reply (w.sent.length + n)).document s v ∧
      v.sent = w.sent ++ List.replicate (n + 1) plan.request ∧ v.context = w.context

namespace SameUpTo

variable {n : Nat} {out free : Except Failure PollResult × World}

theorem of_le (hle : free.2.sent.length ≤ w.sent.length + (n + 1)) (hresult : out.1 = free.1)
    (hworld : out.2.Agrees free.2) : SameUpTo plan s c w made n out free :=
  ⟨fun _ => ⟨hresult, hworld⟩, fun hlt => absurd hle (Nat.not_le_of_lt hlt)⟩

/-- One more request in front. -/
theorem cons (hsent : u.sent = w.sent ++ [plan.request]) (hcontext : u.context = w.context)
    (h : SameUpTo plan s c u (made + 1) n out free) : SameUpTo plan s c w made (n + 1) out free := by
  have hlength := World.length_add_of_sent hsent
  refine ⟨fun hle => ?_, fun hlt hstops => ?_⟩
  · rw [← hlength] at hle
    exact h.same hle
  · rw [← hlength] at hlt hstops
    obtain ⟨v, hrun, hsent', hcontext'⟩ := h.stopped hlt hstops
    refine ⟨v, ?_, ?_, hcontext'.trans hcontext⟩
    · rw [hrun, hlength, Nat.add_right_comm made 1 (n + 1)]
      rfl
    · rw [hsent', hsent, List.append_assoc]
      rfl

end SameUpTo

theorem timeOut_sameUpTo (last : Value) {n : Nat} (h : u.Agrees w')
    (hle : w'.sent.length ≤ w.sent.length + (n + 1)) :
    SameUpTo plan s c w made n (timeOut plan last s u) (timeOut plan last s.uncancellable w') := by
  have halike : Alike s s.uncancellable World.Agrees PollResult (timeOut plan last) :=
    closed_timeOut (alike_uncancellable s).toClosed plan.admits_all last
  have hquiet : World.Quiet w' (timeOut plan last s.uncancellable w').2 :=
    closed_timeOut (quiet_closed s.uncancellable) plan.admits_all last w'
  obtain ⟨hresult, hworld⟩ := halike u w' h
  rw [← hquiet.sent] at hle
  exact .of_le hle hresult.symm hworld

/-- After the pause that follows an attempt, the loop stops if the cancellation has come by then, and
goes on like the one that nothing cancels if not. -/
theorem afterPause_sameUpTo {n : Nat} {document : Value}
    (hdocument : document = (s.service.reply w.sent.length).document)
    (hopen : ∀ i < n, c.stopsAfter (w.sent.length + (i + 1)) = false)
    (hsent : u.sent = w.sent ++ [plan.request]) (hcontext : u.context = w.context)
    (hstops : u.cancelled = c.stopsAfter (w.sent.length + 1)) (hagrees : u.Agrees w')
    (rest : ∀ m, (∀ i < m, c.stopsAfter (u.sent.length + (i + 1)) = false) →
      u.cancelledAfter = none →
      SameUpTo plan s c u (made + 1) m (attempts plan (left + 1) (made + 1) document s u)
        (attempts plan (left + 1) (made + 1) document s.uncancellable w')) :
    SameUpTo plan s c w made n
      ((if u.cancelled then cancel plan (made + 1) document
        else attempts plan (left + 1) (made + 1) document) s u)
      (attempts plan (left + 1) (made + 1) document s.uncancellable w') := by
  have hlength := World.length_add_of_sent hsent
  have hlonger := lt_sent_of_attempts plan left (made + 1) document (s := s.uncancellable)
    (w := w') rfl
  rw [hagrees.sent, ← Nat.add_zero u.sent.length, hlength] at hlonger
  rw [hstops]
  cases hstop : c.stopsAfter (w.sent.length + 1) with
  | true =>
    -- The cancellation has come by the end of this pause, so it was not due before.
    obtain rfl : n = 0 := by
      rcases Nat.eq_zero_or_pos n with hn | hn
      · exact hn
      · exact nomatch (hopen 0 hn).symm.trans hstop
    subst hdocument
    exact ⟨fun hle => absurd hle (Nat.not_le_of_lt hlonger),
      fun _ _ => ⟨u, rfl, hsent, hcontext⟩⟩
  | false =>
    rw [hstop, World.cancelled, Option.isSome_eq_false_iff, Option.isNone_iff_eq_none] at hstops
    cases n with
    | zero =>
      exact ⟨fun hle => absurd hle (Nat.not_le_of_lt hlonger),
        fun _ hstops => nomatch hstops.symm.trans hstop⟩
    | succ n =>
      refine SameUpTo.cons hsent hcontext (rest n (fun i hi => ?_) hstops)
      rw [hlength]
      exact hopen (i + 1) (Nat.succ_lt_succ hi)

/-- A loop that may be cancelled goes like the one that nothing cancels, up to the first attempt
after which it stops. -/
theorem attempts_sameUpTo (hc : s.cancellation = some c) {n : Nat}
    (hopen : ∀ i < n, c.stopsAfter (w.sent.length + (i + 1)) = false)
    (hw : w.cancelledAfter = none) (hagrees : w.Agrees w') :
    SameUpTo plan s c w made n (attempts plan left made last s w)
      (attempts plan left made last s.uncancellable w') := by
  induction left generalizing made last w w' n with
  | zero =>
    refine timeOut_sameUpTo last hagrees ?_
    rw [hagrees.sent]
    exact Nat.le_add_right _ _
  | succ left ih =>
    have hcancelled : (s.cancellation.isSome && w.cancelled) = false := by
      rw [World.cancelled, hw]
      exact Bool.and_false _
    rw [attempts_of_open hcancelled, attempts_of_open (s := s.uncancellable) rfl, bind_run,
      bind_run]
    have hquiet := attempt_quiet plan (made + 1) s w
    have hcopy := alike_uncancellable s
    have halike := closed_attempt hcopy.toClosed (hcopy.send plan.request) plan.admits_all (made + 1)
    obtain ⟨hresult, hworld⟩ := halike w w' hagrees
    rcases hx : attempt plan (made + 1) s w with ⟨r, u⟩
    rcases hx' : attempt plan (made + 1) s.uncancellable w' with ⟨r', u'⟩
    rw [hx, hx'] at hresult hworld
    rw [hx] at hquiet
    dsimp only at hworld hquiet
    obtain rfl : r' = r := hresult
    have hsent : u.sent.length = w.sent.length + 1 := by
      rw [hquiet.sent, World.request_sent, List.length_append, List.length_singleton]
    have hle : u'.sent.length ≤ w.sent.length + (n + 1) := by
      rw [hworld.sent, hsent]
      omega
    rcases r' with e | result | document
    · exact .of_le hle rfl hworld
    · exact .of_le hle rfl hworld
    · obtain ⟨hdocument, hcontext⟩ := attempt_pending hx
      dsimp only
      cases left with
      | zero => exact timeOut_sameUpTo document hworld hle
      | succ left =>
        rw [goOn_cancellable hc, goOn_uncancellable]
        cases seconds plan.interval with
        | error f => exact .of_le hle rfl hworld
        | ok x =>
          have hagrees' : (u.cancelIf (c.comesAfter u.sent.length)).Agrees
              { u' with pauses := u'.pauses ++ [x] } :=
            ⟨hworld.context, hworld.sent, hworld.events, hworld.issued⟩
          have hstops := cancelIf_cancelled hc hw hsent hquiet.cancelledAfter
          exact afterPause_sameUpTo hdocument hopen hquiet.sent hcontext hstops hagrees'
            fun m hopen hu => ih hopen hu hagrees'

/-! ## The whole poll -/

/-- How a poll comes out that may be cancelled, beside the poll with nothing to cancel it. Both begin
in the same world. -/
structure CancelledSafely (c : Cancellation) (request : Request) (reply : Nat → Reply) (w : World)
    (out free : Except Failure PollResult × World) : Prop where
  /-- No request starts after the cancellation. -/
  noneAfter : ∀ n i, out.2.cancelledAfter = some n → w.sent.length ≤ i → i < out.2.sent.length → i < n
  /-- A poll that was cancelled before does nothing. -/
  before : w.cancelled → out.1 = .error (.step (.pollCancelled 0 .null)) ∧
    out.2.sent = w.sent ∧ out.2.context = w.context
  /-- A cancellation that comes with an attempt by which the poll has come out changes nothing. -/
  settled : ∀ j, w.cancelled = false → c.attempt? w.sent.length = some j →
    free.2.sent.length ≤ w.sent.length + j → out.1 = free.1 ∧ out.2.Agrees free.2
  /-- Any other one ends the poll after that attempt, with the document that came back. -/
  cut : ∀ j, w.cancelled = false → c.attempt? w.sent.length = some j →
    w.sent.length + j < free.2.sent.length →
    out.1 = .error (.step (.pollCancelled j (reply (w.sent.length + (j - 1))).document)) ∧
      out.2.sent = w.sent ++ List.replicate j request ∧ out.2.context = w.context
  /-- Where no cancellation comes, nothing changes. -/
  uncancelled : w.cancelled = false → c.attempt? w.sent.length = none →
    out.1 = free.1 ∧ out.2.Agrees free.2
  /-- A cancelled poll changes no variable. -/
  unsaved : ∀ n last, out.1 = .error (.step (.pollCancelled n last)) → out.2.context = w.context

theorem CancelledSafely.of_told {request : Request} {reply : Nat → Reply}
    {out free : Except Failure PollResult × World} (htold : w.Told u)
    (h : CancelledSafely c request reply u out free) :
    CancelledSafely c request reply w out free := by
  obtain ⟨es, rfl⟩ := htold
  exact ⟨h.noneAfter, h.before, h.settled, h.cut, h.uncancelled, h.unsaved⟩

theorem attempts_cancelledSafely (hc : s.cancellation = some c)
    (h : Faultless (attempts plan (left + 1) 0 .null s w)) :
    CancelledSafely c plan.request s.service.reply w (attempts plan (left + 1) 0 .null s w)
      (attempts plan (left + 1) 0 .null s.uncancellable w) := by
  have hsame : ∀ n, w.cancelled = false →
      (∀ i < n, c.stopsAfter (w.sent.length + (i + 1)) = false) →
      SameUpTo plan s c w 0 n (attempts plan (left + 1) 0 .null s w)
        (attempts plan (left + 1) 0 .null s.uncancellable w) := by
    intro n hw hopen
    rw [World.cancelled, Option.isSome_eq_false_iff, Option.isNone_iff_eq_none] at hw
    exact attempts_sameUpTo hc hopen hw (.refl w)
  constructor
  case noneAfter =>
    intro n i hn hi hlt
    have htimely : (attempts plan (left + 1) 0 .null s w).2.Timely w.sent.length :=
      attempts_timely hc plan (left + 1) 0 w.sent.length .null w (.of_length w)
    have hle := htimely n hn
    omega
  case before =>
    intro hw
    have hcancelled : (s.cancellation.isSome && w.cancelled) = true := by rw [hc, hw]; rfl
    rw [attempts_of_cancelled hcancelled] at h ⊢
    obtain ⟨u, hrun, htold⟩ := cancel_run h
    rw [hrun]
    exact ⟨rfl, htold.sent_eq, htold.context_eq⟩
  case settled =>
    intro j hw hj hle
    obtain ⟨hpos, -, hopen⟩ := Cancellation.stopsAfter_of_attempt hj
    obtain ⟨n, rfl⟩ := Nat.exists_eq_add_of_le' hpos
    exact (hsame n hw fun i hi => hopen (i + 1) (by omega) (by omega)).same hle
  case cut =>
    intro j hw hj hlt
    obtain ⟨hpos, hstops, hopen⟩ := Cancellation.stopsAfter_of_attempt hj
    obtain ⟨n, rfl⟩ := Nat.exists_eq_add_of_le' hpos
    obtain ⟨v, hrun, hsent, hcontext⟩ :=
      (hsame n hw fun i hi => hopen (i + 1) (by omega) (by omega)).stopped hlt hstops
    rw [hrun] at h ⊢
    obtain ⟨u, hrun, htold⟩ := cancel_run h
    rw [hrun, htold.sent_eq, htold.context_eq, Nat.zero_add]
    exact ⟨rfl, hsent, hcontext⟩
  case uncancelled =>
    intro hw hj
    -- No attempt is due for the cancellation, so the limit may be as high as is needed.
    have hle := Nat.le_add_left
      (attempts plan (left + 1) 0 .null s.uncancellable w).2.sent.length w.sent.length
    refine (hsame _ hw fun i _ => ?_).same (Nat.le_succ_of_le hle)
    exact Cancellation.not_stopsAfter_of_attempt hj (Nat.succ_pos i)
  case unsaved =>
    intro n last hresult
    obtain ⟨m, store, hcourse, hleaves⟩ := attempts_course h
    rw [hresult] at hcourse
    obtain ⟨rfl, -⟩ := hcourse.of_error
    exact hleaves.context

/-- A poll that makes an attempt at all is cancelled safely. -/
theorem run_cancelledSafely {spec : PollSpec} {baseUrl : String} {headers : Table String}
    {defaults : PollingDefaults} {bound : Table Value} (hc : s.cancellation = some c)
    (hattempts : 1 ≤ (spec.maxAttempts.or defaults.maxAttempts).getD 30)
    (h : Faultless (run spec baseUrl headers defaults bound s w)) :
    ∃ endpoint, Template.fillGiven w.context.store spec.endpoint = .ok (.text endpoint) ∧
      CancelledSafely c ⟨"GET", resolveUrl endpoint baseUrl, headers, none⟩ s.service.reply w
        (run spec baseUrl headers defaults bound s w)
        (run spec baseUrl headers defaults bound s.uncancellable w) := by
  obtain ⟨endpoint, u, hfilled, htold, hrun⟩ := run_attempts h
  have hfree := hrun _ s.uncancellable rfl rfl
  have hrun := hrun _ s rfl rfl
  have hleft : ∃ left, (planFor spec (resolveUrl endpoint baseUrl) headers defaults
      bound).maxAttempts.toNat = left + 1 :=
    Nat.exists_eq_add_one.2 (Int.lt_toNat.2 hattempts)
  obtain ⟨left, hleft⟩ := hleft
  rw [hleft] at hfree hrun
  rw [hrun] at h
  rw [hfree, hrun]
  exact ⟨endpoint, hfilled, .of_told htold (attempts_cancelledSafely hc h)⟩

end Poll

end RestDemo
