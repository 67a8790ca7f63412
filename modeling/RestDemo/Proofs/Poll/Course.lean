import RestDemo.Proofs.Poll.Attempt

/-!
# The course of a poll

A poll makes attempts until a reply settles it, until none is left, or until it is cancelled.
`Course` is how it comes out, told by the replies alone: which of them the poll got to, its result
and the store after it. `attempts_course` says that every poll without a fault takes such a course,
and `Leaves` what a poll of so many requests leaves of the world around it. Without a cancellation
the least reply that settles a poll decides it (`Course.of_settles`, `Course.of_open`).
-/

namespace RestDemo.Poll

open Engine

variable {s : Surroundings} {w : World}

/-- The document of the last of so many replies, or else the one before them. -/
def lastDocument (reply : Nat → Reply) (before : Value) : Nat → Value
  | 0 => before
  | n + 1 => (reply n).document

/-- How a poll comes out that has some attempts left after those it made: the number of attempts
that it makes, its result, and the store after it. -/
inductive Course (plan : Plan) (cancellable : Bool) (reply : Nat → Reply) (left made : Nat)
    (last : Value) (store : Store) : Nat → Except Failure PollResult → Store → Prop
  | settled {k : Nat} {r : Except Failure PollResult} {store' : Store} (lt : k < left)
      (before : ∀ i < k, ¬ Settles plan (reply i))
      (settlement : Settlement plan (made + k + 1) store (reply k) r store') :
    Course plan cancellable reply left made last store (k + 1) r store'
  | timedOut (before : ∀ i < left, ¬ Settles plan (reply i)) :
    Course plan cancellable reply left made last store left
      (.error (.step (.pollTimedOut plan.maxAttempts (lastDocument reply last left)))) store
  | cancelled {n : Nat} (may : cancellable) (lt : n < left)
      (before : ∀ i < n, ¬ Settles plan (reply i)) :
    Course plan cancellable reply left made last store n
      (.error (.step (.pollCancelled ((made + n : Nat) : Int) (lastDocument reply last n)))) store

namespace Course

variable {plan : Plan} {cancellable : Bool} {reply : Nat → Reply} {left made n : Nat}
  {last : Value} {store store' : Store} {r : Except Failure PollResult}

theorem settled_first
    (settlement : Settlement plan (made + 1) store (reply 0) r store') :
    Course plan cancellable reply (left + 1) made last store 1 r store' :=
  .settled (k := 0) (Nat.succ_pos left) (fun i hi => absurd hi (Nat.not_lt_zero i)) settlement

theorem cancelled_first (may : cancellable) (hleft : 0 < left) :
    Course plan cancellable reply left made last store 0
      (.error (.step (.pollCancelled made last))) store :=
  .cancelled may hleft fun i hi => absurd hi (Nat.not_lt_zero i)

theorem timedOut_first :
    Course plan cancellable reply 0 made last store 0
      (.error (.step (.pollTimedOut plan.maxAttempts last))) store :=
  .timedOut fun i hi => absurd hi (Nat.not_lt_zero i)

theorem lastDocument_succ (last : Value) (n : Nat) :
    lastDocument (fun i => reply (i + 1)) (reply 0).document n = lastDocument reply last (n + 1) := by
  cases n <;> rfl

theorem before_succ {n : Nat} (hopen : ¬ Settles plan (reply 0))
    (before : ∀ i < n, ¬ Settles plan (reply (i + 1))) : ∀ i < n + 1, ¬ Settles plan (reply i) := by
  intro i hi
  cases i with
  | zero => exact hopen
  | succ i => exact before i (by omega)

/-- A reply that leaves the poll open adds one attempt to the course after it. -/
theorem step (hopen : ¬ Settles plan (reply 0))
    (h : Course plan cancellable (fun i => reply (i + 1)) left (made + 1) (reply 0).document store
      n r store') :
    Course plan cancellable reply (left + 1) made last store (n + 1) r store' := by
  cases h with
  | @settled k _ _ lt before settlement =>
    have hnumber : made + 1 + k + 1 = made + (k + 1) + 1 := by omega
    rw [hnumber] at settlement
    exact .settled (by omega) (before_succ hopen before) settlement
  | timedOut before =>
    rw [lastDocument_succ last]
    exact .timedOut (before_succ hopen before)
  | cancelled may lt before =>
    have hmade : made + 1 + n = made + (n + 1) := by omega
    rw [lastDocument_succ last, hmade]
    exact .cancelled may (by omega) (before_succ hopen before)

/-- `step` for the replies that a service gives to a world's further requests. -/
theorem step_service {u : World} {request : Request} (hsent : u.sent = w.sent ++ [request])
    (hopen : ¬ Settles plan (s.service.reply w.sent.length))
    (h : Course plan cancellable (fun i => s.service.reply (u.sent.length + i)) left (made + 1)
      (s.service.reply w.sent.length).document store n r store') :
    Course plan cancellable (fun i => s.service.reply (w.sent.length + i)) (left + 1) made last store
      (n + 1) r store' := by
  simp only [World.length_add_of_sent hsent] at h
  exact step hopen h

/-- With nothing to cancel it, a poll makes an attempt if there is one to make. -/
theorem eq_zero_iff (h : Course plan false reply left made last store n r store') :
    n = 0 ↔ left = 0 := by
  cases h with
  | settled lt => omega
  | timedOut => rfl
  | cancelled may => cases may

/-- A poll comes to a result with the answer to its last request, of which it saves parts. -/
theorem of_ok {p : PollResult}
    (h : Course plan cancellable reply left made last store n (.ok p) store') :
    ∃ k a saved, n = k + 1 ∧ reply k = .answer a ∧
      p = ⟨made + n, Json.bodyValue a.text, a.status⟩ ∧
      Binding.save plan.save a.status (Json.bodyValue a.text) store = (saved, none) ∧
      store' = saved.store := by
  generalize hr : (Except.ok p : Except Failure PollResult) = r at h
  cases h with
  | @settled k _ _ _ _ settlement =>
    subst hr
    generalize hreply : reply k = answer at settlement
    cases settlement with
    | succeeded _ saves => exact ⟨k, _, _, rfl, hreply, rfl, saves, rfl⟩
  | timedOut => cases hr
  | cancelled => cases hr

/-- A poll that does not come to a result leaves the store as it is. -/
theorem of_error {e : Failure}
    (h : Course plan cancellable reply left made last store n (.error e) store') :
    store' = store ∧ ∃ e', e = .step e' := by
  generalize hr : (Except.error e : Except Failure PollResult) = r at h
  cases h with
  | @settled k _ _ _ _ settlement =>
    subst hr
    generalize reply k = answer at settlement
    cases settlement with
    | unreachable => exact ⟨rfl, _, rfl⟩
    | failed => exact ⟨rfl, _, rfl⟩
  | timedOut => exact ⟨rfl, _, Except.error.inj hr⟩
  | cancelled => exact ⟨rfl, _, Except.error.inj hr⟩

end Course

/-- So many pauses were made, each for the thousandth part of the floating-point number nearest to the
interval. -/
def Paused (interval : Int) (n : Nat) (w u : World) : Prop :=
  ∃ x, (0 < n → Number.nearestInt? interval = some x) ∧
    u.pauses = w.pauses ++ List.replicate n (x / 1000)

namespace Paused

variable {interval : Int} {m n : Nat} {u v : World}

theorem of_pauses_eq (h : u.pauses = w.pauses) : Paused interval 0 w u :=
  ⟨0, fun hpos => absurd hpos (Nat.lt_irrefl 0), by rw [h]; exact (List.append_nil _).symm⟩

theorem one {t : Float} (ht : seconds interval = .ok t) (h : u.pauses = w.pauses ++ [t]) :
    Paused interval 1 w u := by
  obtain ⟨x, hx, rfl⟩ := seconds_ok_iff.1 ht
  exact ⟨x, fun _ => hx, h⟩

theorem trans (h : Paused interval m w u) (h' : Paused interval n u v) :
    Paused interval (m + n) w v := by
  obtain ⟨x, hx, hm⟩ := h
  obtain ⟨y, hy, hn⟩ := h'
  rcases Nat.eq_zero_or_pos m with rfl | hpos
  · exact ⟨y, by rwa [Nat.zero_add], by rw [hn, hm]; simp⟩
  rcases Nat.eq_zero_or_pos n with rfl | hpos'
  · exact ⟨x, hx, by rw [hn, hm]; simp⟩
  obtain rfl : x = y := Option.some.inj ((hx hpos).symm.trans (hy hpos'))
  exact ⟨x, fun _ => hx hpos, by rw [hn, hm, List.append_assoc, List.replicate_append_replicate]⟩

end Paused

/-- What a poll of so many requests leaves of a world: the requests, all alike, and the store. With
nothing to cancel it there is a pause between any two requests. -/
structure Leaves (request : Request) (interval : Int) (s : Surroundings) (w : World) (n : Nat)
    (store : Store) (u : World) : Prop where
  sent : u.sent = w.sent ++ List.replicate n request
  context : u.context = { w.context with store }
  pauses : s.cancellation = none → Paused interval (n - 1) w u

namespace Leaves

variable {request : Request} {interval : Int} {n : Nat} {store : Store} {u v : World}

theorem of_told (h : w.Told u) : Leaves request interval s w 0 w.context.store u where
  sent := by rw [h.sent_eq]; exact (List.append_nil _).symm
  context := by rw [h.context_eq]
  pauses _ := .of_pauses_eq h.pauses_eq

theorem of_attempt (h : ((w.request s request).withStore store).Told u) :
    Leaves request interval s w 1 store u where
  sent := h.sent_eq
  context := h.context_eq
  pauses _ := .of_pauses_eq h.pauses_eq

/-- One more request in front, with a pause before those that follow. -/
theorem cons (left : Nat) (hleft : s.cancellation = none → (n = 0 ↔ left = 0))
    (hsent : u.sent = w.sent ++ [request]) (hcontext : u.context = w.context)
    (hpauses : s.cancellation = none → Paused interval (min left 1) w u)
    (h : Leaves request interval s u n store v) :
    Leaves request interval s w (n + 1) store v where
  sent := by
    rw [h.sent, hsent, List.append_assoc, List.replicate_succ]
    rfl
  context := by rw [h.context, hcontext]
  pauses hnone := by
    have hn := hleft hnone
    have hcount : min left 1 + (n - 1) = n + 1 - 1 := by omega
    rw [← hcount]
    exact (hpauses hnone).trans (h.pauses hnone)

end Leaves

/-- What a loop with some attempts left comes to from a world: it takes a course along the replies to
the further requests, and leaves what a poll of so many requests leaves. -/
def TakesCourse (plan : Plan) (left made : Nat) (last : Value) (s : Surroundings) (w : World)
    (out : Except Failure PollResult × World) : Prop :=
  ∃ n store,
    Course plan s.cancellation.isSome (fun i => s.service.reply (w.sent.length + i)) left made last
      w.context.store n out.1 store ∧
    Leaves plan.request plan.interval s w n store out.2

namespace TakesCourse

variable {plan : Plan} {left made : Nat} {last : Value} {u : World}
  {out : Except Failure PollResult × World}

theorem of_told (htold : w.Told u) (h : TakesCourse plan left made last s u out) :
    TakesCourse plan left made last s w out := by
  obtain ⟨es, rfl⟩ := htold
  obtain ⟨n, store, hcourse, hleaves⟩ := h
  exact ⟨n, store, hcourse, hleaves.sent, hleaves.context, hleaves.pauses⟩

/-- One more attempt in front, which leaves the poll open, with a pause after it if others follow. -/
theorem cons (hopen : ¬ Settles plan (s.service.reply w.sent.length))
    (hsent : u.sent = w.sent ++ [plan.request]) (hcontext : u.context = w.context)
    (hpauses : s.cancellation = none → Paused plan.interval (min left 1) w u)
    (h : TakesCourse plan left (made + 1) (s.service.reply w.sent.length).document s u out) :
    TakesCourse plan (left + 1) made last s w out := by
  obtain ⟨n, store, hcourse, hleaves⟩ := h
  rw [hcontext] at hcourse
  have hleft : s.cancellation = none → (n = 0 ↔ left = 0) := by
    intro hnone
    rw [hnone] at hcourse
    exact hcourse.eq_zero_iff
  exact ⟨n + 1, store, hcourse.step_service hsent hopen,
    hleaves.cons left hleft hsent hcontext hpauses⟩

end TakesCourse

/-! ## The loop -/

theorem cancel_run {plan : Plan} {made : Nat} {last : Value}
    (h : Faultless (cancel plan made last s w)) :
    ∃ u, cancel plan made last s w = (.error (.step (.pollCancelled made last)), u) ∧
      w.Told u := by
  unfold cancel at h ⊢
  obtain ⟨u, hrun, htold⟩ := log_bind_of_faultless h
  exact ⟨u, hrun, htold⟩

def timeoutEntry (plan : Plan) : Event :=
  entry plan.bound .error "poll.timeout" [("max_attempts", .int plan.maxAttempts)]

theorem timeOut_run {plan : Plan} {last : Value} (h : Faultless (timeOut plan last s w)) :
    timeOut plan last s w =
      (.error (.step (.pollTimedOut plan.maxAttempts last)), w.telling [timeoutEntry plan]) := by
  unfold timeOut at h ⊢
  have htold := log_bind_run h
  rw [htold] at h ⊢
  obtain ⟨_, -, hrun⟩ := orFault_bind_of_faultless h
  exact hrun

/-- A pause leaves requests and context as they are. Only where something may cancel it does it say
so, and only where nothing may is it counted. -/
theorem pauseBefore_run {plan : Plan} {left : Nat} (h : Faultless (pauseBefore plan left s w)) :
    ∃ b u, pauseBefore plan left s w = (.ok b, u) ∧ u.sent = w.sent ∧ u.context = w.context ∧
      u.events = w.events ∧ (b = true → s.cancellation.isSome ∧ 0 < left) ∧
      (s.cancellation = none → Paused plan.interval (min left 1) w u) := by
  unfold pauseBefore at h ⊢
  rcases Nat.eq_zero_or_pos left with rfl | hleft
  · exact ⟨false, w, rfl, rfl, rfl, rfl, fun hb => absurd hb Bool.false_ne_true,
      fun _ => .of_pauses_eq rfl⟩
  · simp only [Nat.ne_of_gt hleft, ↓reduceIte] at h ⊢
    obtain ⟨x, hseconds, hrun⟩ := orFault_bind_of_faultless h
    rw [hrun, Nat.min_eq_right hleft]
    unfold pause
    cases s.cancellation with
    | none =>
      exact ⟨_, _, rfl, rfl, rfl, rfl, fun hb => absurd hb Bool.false_ne_true,
        fun _ => .one hseconds rfl⟩
    | some c => exact ⟨_, _, rfl, rfl, rfl, rfl, fun _ => ⟨rfl, hleft⟩, fun hnone => nomatch hnone⟩

/-- After a document that leaves the poll open there is a pause, and the loop is cancelled in it or
goes on. -/
theorem goOn_pending_run {plan : Plan} {left made : Nat} {document : Value}
    (h : Faultless (goOn plan left made (.pending document) s w)) :
    ∃ u, u.sent = w.sent ∧ u.context = w.context ∧ u.events = w.events ∧
      (s.cancellation = none → Paused plan.interval (min left 1) w u) ∧
      (s.cancellation.isSome ∧ 0 < left ∧
          goOn plan left made (.pending document) s w = cancel plan made document s u ∨
        goOn plan left made (.pending document) s w = attempts plan left made document s u) := by
  rw [goOn_pending] at h ⊢
  obtain ⟨b, u, hx, hsent, hcontext, hevents, hmay, hpauses⟩ :=
    pauseBefore_run (faultless_of_bind h)
  refine ⟨u, hsent, hcontext, hevents, hpauses, ?_⟩
  rw [bind_run_of_ok hx]
  cases b with
  | true =>
    obtain ⟨hsome, hleft⟩ := hmay rfl
    exact .inl ⟨hsome, hleft, rfl⟩
  | false => exact .inr rfl

/-- Every poll without a fault takes a course that the replies to it decide. -/
theorem attempts_course {plan : Plan} {left made : Nat} {last : Value}
    (h : Faultless (attempts plan left made last s w)) :
    TakesCourse plan left made last s w (attempts plan left made last s w) := by
  induction left generalizing made last w with
  | zero =>
    rw [attempts_zero] at h ⊢
    rw [timeOut_run h]
    exact ⟨0, _, .timedOut_first, .of_told (.of_telling w _)⟩
  | succ left ih =>
    cases hc : s.cancellation.isSome && w.cancelled with
    | true =>
      rw [attempts_of_cancelled hc] at h ⊢
      obtain ⟨u, hrun, htold⟩ := cancel_run h
      rw [hrun]
      have hsome : s.cancellation.isSome := (Bool.and_eq_true_iff.1 hc).1
      exact ⟨0, _, .cancelled_first hsome (Nat.succ_pos left), .of_told htold⟩
    | false =>
      rw [attempts_of_open hc] at h ⊢
      obtain ⟨r, store, u, hx, hattempted, htold⟩ := attempt_run (faultless_of_bind h)
      cases hattempted with
      | @settled r _ settlement =>
        have hrun : (attempt plan (made + 1) >>= goOn plan left (made + 1)) s w = (r, u) := by
          rw [bind_run, hx]
          cases r <;> rfl
        rw [hrun]
        exact ⟨1, store, .settled_first settlement, .of_attempt htold⟩
      | pending hopen =>
        rw [bind_run_of_ok hx] at h ⊢
        obtain ⟨v, hsent, hcontext, -, hpauses, hrest⟩ := goOn_pending_run h
        have hpaused : s.cancellation = none → Paused plan.interval (min left 1) w v := by
          intro hnone
          obtain ⟨x, hx, hv⟩ := hpauses hnone
          exact ⟨x, hx, by rw [hv, htold.pauses_eq]; rfl⟩
        refine .cons hopen (hsent.trans htold.sent_eq) (hcontext.trans htold.context_eq) hpaused ?_
        rcases hrest with ⟨hsome, hleft, hrun⟩ | hrun
        · rw [hrun] at h ⊢
          obtain ⟨v', hcancel, htold'⟩ := cancel_run h
          rw [hcancel]
          exact ⟨0, _, .cancelled_first hsome hleft, .of_told htold'⟩
        · rw [hrun] at h ⊢
          exact ih h

end RestDemo.Poll
