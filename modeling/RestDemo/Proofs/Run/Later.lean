import RestDemo.Proofs.Run.Closed

/-!
# Going on later

What is done in a world that has a past is what would be done in one without, among the surroundings
as they are from then on: the service has the replies left that were not used up, its clock goes on,
and a cancellation comes after as many fewer requests. `World.followedBy` joins a past to what comes after it, and
`alike_after` says that nothing of the past but the context makes a difference.
-/

namespace RestDemo

/-- The cancellation for one who comes when so many requests have been sent. -/
def Cancellation.later (sent : Nat) : Cancellation → Cancellation
  | never => never
  | before => before
  | during request => if sent < request then during (request - sent) else never
  | pausing request => pausing (request - sent)

/-- The surroundings for one who comes when so many requests have been sent. -/
def Surroundings.later (sent : Nat) (s : Surroundings) : Surroundings where
  service := s.service.after sent
  cancellation := s.cancellation.map (Cancellation.later sent)
  refuses := s.refuses
  names := s.names

namespace World

/-- The world without its past: nothing was sent or told, and a cancellation that has come had come
before. -/
def afresh (w : World) : World :=
  { w with sent := [], pauses := [], events := [], cancelledAfter := w.cancelledAfter.map fun _ => 0 }

/-- A world after the past of another one. -/
def followedBy (past w : World) : World :=
  { w with
    sent := past.sent ++ w.sent
    pauses := past.pauses ++ w.pauses
    events := past.events ++ w.events
    cancelledAfter := past.cancelledAfter.or (w.cancelledAfter.map (past.sent.length + ·)) }

theorem followedBy_afresh (w : World) : w.followedBy w.afresh = w := by
  obtain ⟨context, sent, pauses, events, cancelledAfter, issued⟩ := w
  cases cancelledAfter <;> simp [followedBy, afresh]

/-- The second world is the first one after a past, which it knows to be cancelled if it is. -/
def After (past w w' : World) : Prop :=
  w' = past.followedBy w ∧ (past.cancelled → w.cancelled)

namespace After

variable {past w w' : World} {s : Surroundings}

theorem cancelled_eq (h : After past w w') : w'.cancelled = w.cancelled := by
  obtain ⟨rfl, hpast⟩ := h
  unfold cancelled followedBy at *
  cases hp : past.cancelledAfter with
  | none => cases w.cancelledAfter <;> rfl
  | some n =>
    rw [hp] at hpast
    rw [hpast rfl]
    rfl

theorem length_sent (h : After past w w') : w'.sent.length = past.sent.length + w.sent.length := by
  obtain ⟨rfl, -⟩ := h
  exact List.length_append

theorem cancelIf (h : After past w w') (comes : Bool) :
    After past (w.cancelIf comes) (w'.cancelIf comes) := by
  have hlength := h.length_sent
  obtain ⟨rfl, hpast⟩ := h
  refine ⟨?_, ?_⟩
  · cases comes with
    | false => rfl
    | true =>
      unfold World.cancelIf followedBy at *
      cases past.cancelledAfter <;> cases w.cancelledAfter <;> simp
  · intro hcancelled
    have hw := hpast hcancelled
    unfold cancelled World.cancelIf at *
    cases comes <;> cases hwc : w.cancelledAfter <;> simp_all

theorem comes_during (h : After past w w') :
    decide (s.cancellation = some (.during (w'.sent.length + 1))) =
      decide ((s.later past.sent.length).cancellation = some (.during (w.sent.length + 1))) := by
  rw [h.length_sent]
  unfold Surroundings.later
  rcases s.cancellation with _ | _ | _ | n | n
  · rfl
  · rfl
  · rfl
  · simp only [Option.map_some, Cancellation.later, Option.some.injEq, Cancellation.during.injEq,
      decide_eq_decide]
    split
    · rw [Cancellation.during.injEq]
      omega
    · constructor
      · omega
      · exact fun h => nomatch h
  · rfl

theorem request (h : After past w w') (r : Request) :
    After past (w.request (s.later past.sent.length) r) (w'.request s r) := by
  unfold World.request
  rw [h.comes_during]
  refine cancelIf ?_ _
  obtain ⟨rfl, hpast⟩ := h
  exact ⟨by simp [followedBy], hpast⟩

theorem comesAfter (h : After past w w') (c : Cancellation) :
    c.comesAfter w'.sent.length = (c.later past.sent.length).comesAfter w.sent.length := by
  rw [h.length_sent]
  cases c with
  | never => rfl
  | before => rfl
  | during n =>
    simp only [Cancellation.later]
    split <;> rfl
  | pausing n =>
    unfold Cancellation.later Cancellation.comesAfter
    rw [decide_eq_decide]
    omega

end After

end World

namespace Engine

/-- A computation goes alike with a past and without it. -/
theorem alike_after (s : Surroundings) (past : World) :
    Closed.Running (fun _ => True) (fun _ => True)
      (Alike (s.later past.sent.length) s (World.After past)) := by
  have hclosed : Closed (fun _ => True) (fun _ => True)
      (Alike (s.later past.sent.length) s (World.After past)) := by
    refine Alike.closed rfl ?_ ?_ ?_ ?_
    · intro w w' h
      rw [h.length_sent]
      rfl
    · rintro w _ ⟨rfl, -⟩
      rfl
    · rintro w _ store ⟨rfl, hpast⟩
      exact ⟨rfl, hpast⟩
    · rintro w _ e ⟨rfl, hpast⟩
      exact ⟨by simp [World.followedBy, World.telling], hpast⟩
  refine Alike.running ⟨Alike.sending hclosed ?_ ?_, ?_, ?_⟩ ?_ ?_
  · intro w w' h
    rw [h.length_sent]
    rfl
  · exact fun r h => h.request r
  · intro x w w' h
    have hlater : (s.later past.sent.length).cancellation =
        s.cancellation.map (Cancellation.later past.sent.length) := rfl
    unfold pause
    rw [hlater]
    cases s.cancellation with
    | none =>
      obtain ⟨rfl, hpast⟩ := h
      exact ⟨rfl, by simp [World.followedBy], hpast⟩
    | some c =>
      dsimp only [Option.map_some]
      rw [h.comesAfter c]
      exact ⟨congrArg Except.ok (h.cancelIf _).cancelled_eq, h.cancelIf _⟩
  · intro w w' h
    rw [isCancelled_run, isCancelled_run, h.cancelled_eq]
    unfold Surroundings.later
    rw [Option.isSome_map]
    exact ⟨rfl, h⟩
  · intro w w' succeeded h
    rw [h.length_sent]
    rfl
  · rintro w _ result ⟨rfl, hpast⟩
    exact ⟨rfl, hpast⟩

end Engine

end RestDemo
