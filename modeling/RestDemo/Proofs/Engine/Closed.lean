import RestDemo.Engine.Basic

/-!
# Properties of whole computations

Much of what is true of polls, steps and runs is true of the parts that they are put together from,
and passes on from the parts to the whole. `Closed` is a property that passes on where nothing is
sent; `Closed.Sending`, `Closed.Pausing` and `Closed.Running` add requests, pauses and the steps of a
run, and `Closed.Polling` pauses and requests of a kind. What the parts may end with and what they
may tell are parameters; `Binds` says that the fields bound to a log make events of a kind of all that
is told with them. No part tells an event with a field of its own that names a run. What has been
shown once of every closed property then holds of the properties here: that a computation takes a
world no further than to others above it (`Leads`), that it leaves a part of the world as it is
(`Keeps`), and that it goes alike from two worlds (`Alike`).
-/

namespace RestDemo.Engine

variable {s s' : Surroundings} {α β : Type}

/-- A property of computations that passes on to what is put together from parts which send nothing,
which end with no faults but those admitted, and which tell only events of a kind. -/
structure Closed (admits : Fault → Prop) (tells : Event → Prop)
    (C : (α : Type) → Engine α → Prop) : Prop where
  pure {α : Type} (a : α) : C α (pure a)
  bind {α β : Type} {x : Engine α} {f : α → Engine β} (first : C α x) (next : ∀ a, C β (f a)) :
    C β (x >>= f)
  failStep {α : Type} (e : StepError) : C α (fail (.step e))
  failFault {α : Type} {f : Fault} (admitted : admits f) : C α (fail (.fault f))
  store : C Store store
  setStore (store : Store) : C Unit (setStore store)
  requestTime : C UInt64 requestTime
  tell {event : Event} (told : tells event) : C Unit (tell event)

/-- The property also passes on to what sends requests. -/
structure Closed.Sending (admits : Fault → Prop) (tells : Event → Prop)
    (C : (α : Type) → Engine α → Prop) : Prop
    extends Closed admits tells C where
  send (request : Request) : C Answer (send request)

/-- The property also passes on to what pauses and may be cancelled. -/
structure Closed.Pausing (admits : Fault → Prop) (tells : Event → Prop)
    (C : (α : Type) → Engine α → Prop) : Prop
    extends Closed.Sending admits tells C where
  pause (seconds : Float) : C Bool (pause seconds)
  isCancelled : C Bool isCancelled

/-- The property also passes on to what pauses and may be cancelled, and sends requests of a kind. -/
structure Closed.Polling (admits : Fault → Prop) (tells : Event → Prop) (sends : Request → Prop)
    (C : (α : Type) → Engine α → Prop) : Prop
    extends Closed admits tells C where
  send {request : Request} (sent : sends request) : C Answer (send request)
  pause (seconds : Float) : C Bool (pause seconds)
  isCancelled : C Bool isCancelled

/-- The property also passes on to what survives the failure of a step and collects results. -/
structure Closed.Running (admits : Fault → Prop) (tells : Event → Prop)
    (C : (α : Type) → Engine α → Prop) : Prop
    extends Closed.Pausing admits tells C where
  attempt {α : Type} {x : Engine α} (inside : C α x) : C (Except StepError α) (attempt x)
  stepTime (succeeded : Bool) : C UInt64 (stepTime succeeded)
  addResult (result : StepResult) :
    C Unit (changeContext fun c => { c with results := c.results ++ [result] })

/-- Whatever is told with the bound fields, and names no run itself, is of the kind. -/
def Binds (tells : Event → Prop) (bound : Table Value) : Prop :=
  ∀ level name fields, "run_id" ∉ Table.names fields → tells ⟨level, name, bound.overlay fields⟩

namespace Closed

variable {admits : Fault → Prop} {tells : Event → Prop} {C : (α : Type) → Engine α → Prop}
  {bound : Table Value}

theorem orFault (h : Closed admits tells C) {r : Except Fault α}
    (hr : ∀ f, r = .error f → admits f) : C α (orFault r) := by
  cases r with
  | ok a => exact h.pure a
  | error f => exact h.failFault (hr f rfl)

theorem log (h : Closed admits tells C) (hbound : Binds tells bound) (level : Level) (name : String)
    {fields : Table Value} (hfields : "run_id" ∉ fields.names) : C Unit (log bound level name fields) :=
  h.tell (hbound level name fields hfields)

theorem Pausing.polling (h : Closed.Pausing admits tells C) :
    Closed.Polling admits tells (fun _ => True) C where
  toClosed := h.toClosed
  send _ := h.send _
  pause := h.pause
  isCancelled := h.isCancelled

theorem ite (h : c → C α x) (h' : ¬ c → C α y) [Decidable c] : C α (if c then x else y) := by
  by_cases hc : c
  · rw [if_pos hc]; exact h hc
  · rw [if_neg hc]; exact h' hc

end Closed

/-! ## Where a computation leads -/

/-- The computation takes every world to one that stands above it. -/
def Leads (s : Surroundings) (above : World → World → Prop) (α : Type) (x : Engine α) : Prop :=
  ∀ w, above w (x s w).2

namespace Leads

variable {above : World → World → Prop} {tells : Event → Prop}

theorem closed (refl : ∀ w, above w w) (trans : ∀ w u v, above w u → above u v → above w v)
    (withStore : ∀ w store, above w (w.withStore store))
    (telling : ∀ w e, s.refuses e = none → tells e → above w (w.telling [e])) :
    Closed (fun _ => True) tells (Leads s above) where
  pure _ w := refl w
  bind {_ _ x f} first next w := by
    have hx := first w
    rw [bind_run]
    match hrun : x s w with
    | (.ok a, u) =>
      rw [hrun] at hx
      exact trans w u _ hx (next a u)
    | (.error e, u) =>
      rw [hrun] at hx
      exact hx
  failStep _ w := refl w
  failFault _ w := refl w
  store w := refl w
  setStore store w := withStore w store
  requestTime w := refl w
  tell {e} he w := by
    unfold Engine.tell
    cases hr : s.refuses e with
    | some f => exact refl w
    | none => exact telling w e hr he

/-- A computation followed by others leads from where it ends to where they do. -/
theorem bind_next (refl : ∀ w, above w w) {x : Engine α} {f : α → Engine β}
    (next : ∀ a, Leads s above β (f a)) (w : World) : above (x s w).2 ((x >>= f) s w).2 := by
  rw [bind_run]
  match x s w with
  | (.ok a, u) => exact next a u
  | (.error e, u) => exact refl u

theorem send {r : Request} (request : ∀ w, above w (w.request s r)) :
    Leads s above Answer (send r) := by
  intro w
  unfold Engine.send
  cases s.service.reply w.sent.length <;> exact request w

theorem pause (pausing : ∀ w seconds, above w { w with pauses := w.pauses ++ [seconds] })
    (cancelIf : ∀ w comes, above w (w.cancelIf comes)) (seconds : Float) :
    Leads s above Bool (pause seconds) := by
  intro w
  unfold Engine.pause
  cases s.cancellation with
  | none => exact pausing w seconds
  | some c => exact cancelIf w _

theorem sending (h : Closed (fun _ => True) tells (Leads s above))
    (request : ∀ w r, above w (w.request s r)) :
    Closed.Sending (fun _ => True) tells (Leads s above) where
  toClosed := h
  send r := Leads.send fun w => request w r

theorem pausing (h : Closed.Sending (fun _ => True) tells (Leads s above))
    (pausing : ∀ w seconds, above w { w with pauses := w.pauses ++ [seconds] })
    (cancelIf : ∀ w comes, above w (w.cancelIf comes)) :
    Closed.Pausing (fun _ => True) tells (Leads s above) where
  toSending := h
  pause := Leads.pause pausing cancelIf
  isCancelled w := (h.pure ()) w

theorem polling {sends : Request → Prop} (h : Closed (fun _ => True) tells (Leads s above))
    (request : ∀ w r, sends r → above w (w.request s r))
    (pausing : ∀ w seconds, above w { w with pauses := w.pauses ++ [seconds] })
    (cancelIf : ∀ w comes, above w (w.cancelIf comes)) :
    Closed.Polling (fun _ => True) tells sends (Leads s above) where
  toClosed := h
  send {r} hr := Leads.send fun w => request w r hr
  pause := Leads.pause pausing cancelIf
  isCancelled w := (h.pure ()) w

theorem running (h : Closed.Pausing (fun _ => True) tells (Leads s above))
    (addResult : ∀ w result, above w
      { w with context := { w.context with results := w.context.results ++ [result] } }) :
    Closed.Running (fun _ => True) tells (Leads s above) where
  toPausing := h
  attempt {_ x} inside w := by
    have hx := inside w
    unfold Engine.attempt
    match hrun : x s w with
    | (.ok a, u) | (.error (.step e), u) | (.error (.fault f), u) =>
      rw [hrun] at hx
      exact hx
  stepTime _ w := (h.pure ()) w
  addResult result w := addResult w result

end Leads

/-- The computation leaves a part of every world as it is. -/
def Keeps (s : Surroundings) {γ : Type} (part : World → γ) : (α : Type) → Engine α → Prop :=
  Leads s fun w u => part u = part w

namespace Keeps

variable {γ : Type} {part : World → γ}

theorem closed (withStore : ∀ w store, part (w.withStore store) = part w)
    (telling : ∀ w e, part (w.telling [e]) = part w) :
    Closed (fun _ => True) (fun _ => True) (Keeps s part) :=
  Leads.closed (fun _ => rfl) (fun _ _ _ h h' => h'.trans h) withStore fun w e _ _ => telling w e

theorem pausing (h : Closed (fun _ => True) (fun _ => True) (Keeps s part))
    (request : ∀ w r, part (w.request s r) = part w)
    (pausing : ∀ w seconds, part { w with pauses := w.pauses ++ [seconds] } = part w)
    (cancelIf : ∀ w comes, part (w.cancelIf comes) = part w) :
    Closed.Pausing (fun _ => True) (fun _ => True) (Keeps s part) :=
  Leads.pausing (Leads.sending h request) pausing cancelIf

theorem running (h : Closed.Pausing (fun _ => True) (fun _ => True) (Keeps s part))
    (addResult : ∀ w result, part
      { w with context := { w.context with results := w.context.results ++ [result] } } = part w) :
    Closed.Running (fun _ => True) (fun _ => True) (Keeps s part) :=
  Leads.running h addResult

/-- What is left as it is after a computation is as the computation left it. -/
theorem bind_next {x : Engine α} {f : α → Engine β} (next : ∀ a, Keeps s part β (f a)) (w : World) :
    part ((x >>= f) s w).2 = part (x s w).2 := by
  rw [bind_run]
  match x s w with
  | (.ok a, u) => exact next a u
  | (.error e, u) => rfl

end Keeps

/-! ## Two worlds -/

/-- Among two surroundings, the computation has the same result from worlds that are related, and
leaves worlds that are related. -/
def Alike (s s' : Surroundings) (related : World → World → Prop) (α : Type) (x : Engine α) : Prop :=
  ∀ w w', related w w' → (x s' w').1 = (x s w).1 ∧ related (x s w).2 (x s' w').2

namespace Alike

variable {related : World → World → Prop} {tells : Event → Prop}

theorem closed (hrefuses : s'.refuses = s.refuses)
    (requestTime : ∀ {w w'}, related w w' →
      s'.service.clock.request w'.sent.length = s.service.clock.request w.sent.length)
    (store : ∀ {w w'}, related w w' → w'.context.store = w.context.store)
    (withStore : ∀ {w w'} store, related w w' → related (w.withStore store) (w'.withStore store))
    (telling : ∀ {w w'} e, related w w' → related (w.telling [e]) (w'.telling [e])) :
    Closed (fun _ => True) tells (Alike s s' related) where
  pure _ _ _ h := ⟨rfl, h⟩
  bind {_ _ x f} first next w w' h := by
    obtain ⟨hresult, hrelated⟩ := first w w' h
    rw [bind_run, bind_run]
    match hx : x s w, hx' : x s' w' with
    | (r, u), (r', u') =>
      rw [hx, hx'] at hresult hrelated
      obtain rfl : r' = r := hresult
      cases r' with
      | ok a => exact next a u u' hrelated
      | error e => exact ⟨rfl, hrelated⟩
  failStep _ _ _ h := ⟨rfl, h⟩
  failFault _ _ _ h := ⟨rfl, h⟩
  store w w' h := ⟨congrArg Except.ok (store h), h⟩
  setStore s _ _ h := ⟨rfl, withStore s h⟩
  requestTime _ _ h := ⟨congrArg Except.ok (requestTime h), h⟩
  tell {e} _ w w' h := by
    unfold Engine.tell
    rw [hrefuses]
    cases s.refuses e with
    | some f => exact ⟨rfl, h⟩
    | none => exact ⟨rfl, telling e h⟩

theorem sending (h : Closed (fun _ => True) tells (Alike s s' related))
    (service : ∀ {w w'}, related w w' → s'.service.reply w'.sent.length = s.service.reply w.sent.length)
    (request : ∀ {w w'} r, related w w' → related (w.request s r) (w'.request s' r)) :
    Closed.Sending (fun _ => True) tells (Alike s s' related) where
  toClosed := h
  send r w w' hw := by
    unfold send
    rw [service hw]
    cases s.service.reply w.sent.length <;> exact ⟨rfl, request r hw⟩

theorem running (h : Closed.Pausing (fun _ => True) tells (Alike s s' related))
    (stepTime : ∀ {w w'} succeeded, related w w' →
      s'.service.clock.step succeeded w'.sent.length = s.service.clock.step succeeded w.sent.length)
    (addResult : ∀ {w w'} result, related w w' →
      related { w with context := { w.context with results := w.context.results ++ [result] } }
        { w' with context := { w'.context with results := w'.context.results ++ [result] } }) :
    Closed.Running (fun _ => True) tells (Alike s s' related) where
  toPausing := h
  attempt {_ x} inside w w' hw := by
    obtain ⟨hresult, hrelated⟩ := inside w w' hw
    unfold Engine.attempt
    match hx : x s w, hx' : x s' w' with
    | (r, u), (r', u') =>
      rw [hx, hx'] at hresult hrelated
      obtain rfl : r' = r := hresult
      rcases r' with (e | f) | a <;> exact ⟨rfl, hrelated⟩
  stepTime succeeded _ _ hw := ⟨congrArg Except.ok (stepTime succeeded hw), hw⟩
  addResult result _ _ hw := ⟨rfl, addResult result hw⟩

end Alike

end RestDemo.Engine
