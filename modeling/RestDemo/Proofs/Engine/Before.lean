import RestDemo.Proofs.Engine.Closed

/-!
# Before and after

A computation only adds to what was sent, and a cancellation that has come stays where it came
(`World.Before`, `before_running`). What sends nothing and does not pause leaves both as they are
(`World.Quiet`, `quiet_closed`).
-/

namespace RestDemo

namespace World

/-- The second world may come of the first one: nothing sent is taken back, and a cancellation comes
once, after what was sent before it. -/
structure Before (w u : World) : Prop where
  sent : w.sent <+: u.sent
  kept : ∀ n, w.cancelledAfter = some n → u.cancelledAfter = some n
  later : ∀ n, w.cancelledAfter = none → u.cancelledAfter = some n → w.sent.length ≤ n

/-- The second world has the requests and the cancellation of the first one. -/
structure Quiet (w u : World) : Prop where
  sent : u.sent = w.sent
  cancelledAfter : u.cancelledAfter = w.cancelledAfter

variable {w u v : World}

namespace Quiet

theorem refl (w : World) : Quiet w w := ⟨rfl, rfl⟩

theorem trans (h : Quiet w u) (h' : Quiet u v) : Quiet w v :=
  ⟨h'.sent.trans h.sent, h'.cancelledAfter.trans h.cancelledAfter⟩

theorem before (h : Quiet w u) : Before w u where
  sent := h.sent ▸ List.prefix_refl _
  kept n hn := h.cancelledAfter.trans hn
  later n hnone hn := by
    rw [h.cancelledAfter, hnone] at hn
    cases hn

end Quiet

namespace Before

theorem refl (w : World) : Before w w := (Quiet.refl w).before

theorem trans (h : Before w u) (h' : Before u v) : Before w v where
  sent := h.sent.trans h'.sent
  kept n hn := h'.kept n (h.kept n hn)
  later n hnone hn := by
    cases hu : u.cancelledAfter with
    | none => exact Nat.le_trans h.sent.length_le (h'.later n hu hn)
    | some m =>
      have hm : m = n := Option.some.inj ((h'.kept m hu).symm.trans hn)
      exact hm ▸ h.later m hnone hu

/-- A cancellation that comes later than the second world comes after all that was sent in it. -/
theorem cancelledAfter_of_lt (h : Before w u) {n : Nat} (hn : u.cancelledAfter = some n)
    (hlt : n < w.sent.length) : w.cancelledAfter = some n := by
  cases hw : w.cancelledAfter with
  | none => exact absurd (h.later n hw hn) (Nat.not_le_of_lt hlt)
  | some m => exact (h.kept m hw).symm.trans hn

theorem cancelIf (w : World) (comes : Bool) : Before w (w.cancelIf comes) := by
  cases comes with
  | false => exact refl w
  | true =>
    refine ⟨List.prefix_refl _, fun n hn => ?_, fun n hnone hn => ?_⟩
    · rw [World.cancelIf, if_pos rfl, hn]
      rfl
    · rw [World.cancelIf, if_pos rfl, hnone] at hn
      exact Nat.le_of_eq (Option.some.inj hn)

theorem request (w : World) (s : Surroundings) (r : Request) : Before w (w.request s r) := by
  have hsent : Before w { w with sent := w.sent ++ [r] } := by
    refine ⟨List.prefix_append _ _, fun _ hn => hn, fun n hnone hn => ?_⟩
    rw [hnone] at hn
    cases hn
  exact hsent.trans (cancelIf _ _)

end Before

end World

namespace Engine

theorem quiet_closed (s : Surroundings) :
    Closed (fun _ => True) (fun _ => True) (Leads s World.Quiet) :=
  Leads.closed World.Quiet.refl (fun _ _ _ => World.Quiet.trans) (fun _ _ => ⟨rfl, rfl⟩)
    fun _ _ _ _ => ⟨rfl, rfl⟩

theorem before_running (s : Surroundings) :
    Closed.Running (fun _ => True) (fun _ => True) (Leads s World.Before) := by
  have hclosed : Closed (fun _ => True) (fun _ => True) (Leads s World.Before) := by
    refine Leads.closed World.Before.refl (fun _ _ _ => World.Before.trans) ?_ ?_
    · exact fun w store => World.Quiet.before ⟨rfl, rfl⟩
    · exact fun w e _ _ => World.Quiet.before ⟨rfl, rfl⟩
  have hsending := Leads.sending hclosed fun w r => World.Before.request w s r
  refine Leads.running (Leads.pausing hsending ?_ World.Before.cancelIf) ?_
  · exact fun w seconds => World.Quiet.before ⟨rfl, rfl⟩
  · exact fun w result => World.Quiet.before ⟨rfl, rfl⟩

end Engine

end RestDemo
