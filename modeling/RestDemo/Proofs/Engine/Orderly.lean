import RestDemo.Log.Line
import RestDemo.Proofs.Engine.Closed
import RestDemo.Proofs.Engine.Faultless
import RestDemo.Proofs.Limits

/-!
# Orderly surroundings

Surroundings are orderly if the client of the service does nothing but answer or fail to reach it,
and if the log refuses an event only for a limit on numbers. Then a computation adds no fault to
those of its parts (`endsInLimits_closed`). The logs of the server and of the command line are such
logs (`isLimit_of_unwritable`).
-/

namespace RestDemo

/-- The client answers or cannot reach the service, and the log refuses events only for limits on
numbers. -/
structure Surroundings.Orderly (s : Surroundings) : Prop where
  noCrash : ∀ n text, s.service.reply n ≠ .crash text
  refuses : ∀ e f, s.refuses e = some f → f.isLimit

/-- A service that gives the replies of a list gives no others, but where there are none it knows
nothing. -/
theorem Service.ofList_mem_or (replies : List Reply) (n : Nat) :
    (ofList replies).reply n ∈ replies ∨ (ofList replies).reply n = notFound := by
  unfold ofList ofReplies
  dsimp only
  cases hn : replies[n]? with
  | some reply => exact .inl (List.mem_of_getElem? hn)
  | none =>
    cases hlast : replies.getLast? with
    | some reply => exact .inl (List.mem_of_getLast? hlast)
    | none => exact .inr rfl

theorem Event.isLimit_of_unwritable {e : Event} {f : Fault} (h : e.unwritable = some f) :
    f.isLimit := by
  have hline : OnlyLimits e.line :=
    OnlyLimits.bind (Json.onlyLimits_write Json.spaced _).map fun _ => .ok _
  unfold unwritable at h
  cases he : e.line with
  | ok line =>
    rw [he] at h
    cases h
  | error g =>
    rw [he] at h
    obtain rfl := Option.some.inj h
    exact hline g he

/-- A service without a crash among its replies, and a log that writes lines. -/
theorem Surroundings.orderly_ofList {replies : List Reply} (h : ∀ text, .crash text ∉ replies)
    (cancellation : Option Cancellation) :
    Orderly { Surroundings.plain (.ofList replies) with cancellation } where
  noCrash n text hn := by
    rcases Service.ofList_mem_or replies n with hmem | hnotFound
    · exact h text (hn ▸ hmem)
    · exact nomatch hnotFound.symm.trans hn
  refuses _ _ hf := Event.isLimit_of_unwritable hf

namespace Engine

variable {s : Surroundings}

/-- The computation ends with no fault but a limit on numbers. -/
def EndsInLimits (s : Surroundings) (α : Type) (x : Engine α) : Prop :=
  ∀ w f, (x s w).1 = .error (.fault f) → f.isLimit

theorem endsInLimits_closed (hs : s.Orderly) :
    Closed.Running (fun f => f.isLimit) (fun _ => True) (EndsInLimits s) where
  pure _ _ _ h := nomatch h
  bind {_ _ x f} first next w g h := by
    rw [bind_run] at h
    match hx : x s w with
    | (.ok a, u) =>
      rw [hx] at h
      exact next a u g h
    | (.error e, u) =>
      rw [hx] at h
      obtain rfl := Except.error.inj h
      exact first w g (congrArg Prod.fst hx)
  failStep _ _ _ h := nomatch h
  failFault hf _ _ h := by
    cases h
    exact hf
  store _ _ h := nomatch h
  setStore _ _ _ h := nomatch h
  requestTime _ _ h := nomatch h
  tell {e} _ w f h := by
    unfold Engine.tell at h
    cases hr : s.refuses e with
    | none =>
      rw [hr] at h
      cases h
    | some g =>
      rw [hr] at h
      cases h
      exact hs.refuses e f hr
  send r w f h := by
    unfold Engine.send at h
    cases hreply : s.service.reply w.sent.length with
    | answer a =>
      rw [hreply] at h
      cases h
    | unreachable reason =>
      rw [hreply] at h
      cases h
    | crash text => exact absurd hreply (hs.noCrash _ text)
  pause x w f h := by
    unfold Engine.pause at h
    cases hc : s.cancellation <;> rw [hc] at h <;> cases h
  isCancelled _ _ h := nomatch h
  attempt {_ x} inside w f h := by
    unfold Engine.attempt at h
    match hx : x s w with
    | (.ok a, u) | (.error (.step e), u) =>
      rw [hx] at h
      cases h
    | (.error (.fault g), u) =>
      rw [hx] at h
      cases h
      exact inside w f (congrArg Prod.fst hx)
  stepTime _ _ _ h := nomatch h
  addResult _ _ _ h := nomatch h

/-- A computation that can only end in limits on numbers, and does not, has no fault. -/
theorem EndsInLimits.faultless {α : Type} {x : Engine α} {w : World} (h : EndsInLimits s α x)
    (hlimits : ∀ f, f.isLimit → (x s w).1 ≠ .error (.fault f)) : Faultless (x s w) :=
  fun f hf => hlimits f (h w f hf) hf

end Engine

end RestDemo
