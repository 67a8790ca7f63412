import RestDemo.Proofs.Engine.Faultless

/-!
# Two computations beside each other

Two computations that start from related worlds are coupled if they come out alike: with related
results, or with the same failure of a step, and again in related worlds (`Coupled`). Nothing is said
where the first one ends with a fault. Whether the second one may end with a fault of its own is a
parameter. `Coupling` collects what has to be known of the parts for the computations that are put
together from them.
-/

namespace RestDemo.Engine

variable {α β γ δ : Type} {tolerant : Prop} {s s' : Surroundings} {related : World → World → Prop}

/-- How two computations came out that were run beside each other. -/
inductive Beside (tolerant : Prop) (related : World → World → Prop) (Q : α → β → Prop) :
    Except Failure α × World → Except Failure β × World → Prop
  | ok {a : α} {b : β} {w w' : World} (results : Q a b) (worlds : related w w') :
    Beside tolerant related Q (.ok a, w) (.ok b, w')
  | step (e : StepError) {w w' : World} (worlds : related w w') :
    Beside tolerant related Q (.error (.step e), w) (.error (.step e), w')
  | first (f : Fault) (w : World) (other : Except Failure β × World) :
    Beside tolerant related Q (.error (.fault f), w) other
  | second (allowed : tolerant) (other : Except Failure α × World) (f : Fault) (w : World) :
    Beside tolerant related Q other (.error (.fault f), w)

/-- From related worlds, the computations come out alike. -/
def Coupled (tolerant : Prop) (s s' : Surroundings) (related : World → World → Prop)
    (Q : α → β → Prop) (x : Engine α) (y : Engine β) : Prop :=
  ∀ w w', related w w' → Beside tolerant related Q (x s w) (y s' w')

theorem Beside.mono {Q Q' : α → β → Prop} (hQ : ∀ a b, Q a b → Q' a b)
    {out : Except Failure α × World} {out' : Except Failure β × World}
    (h : Beside tolerant related Q out out') : Beside tolerant related Q' out out' := by
  cases h with
  | ok results worlds => exact .ok (hQ _ _ results) worlds
  | step e worlds => exact .step e worlds
  | first f => exact .first f _ _
  | second allowed _ f => exact .second allowed _ f _

/-- Both came to results that are related, or the same step failed in both. -/
inductive Paired (Q : α → β → Prop) : Except StepError α → Except StepError β → Prop
  | ok {a : α} {b : β} (results : Q a b) : Paired Q (.ok a) (.ok b)
  | error (e : StepError) : Paired Q (.error e) (.error e)

theorem Beside.exists_of_faultless {Q : α → β → Prop} {out : Except Failure α × World}
    {out' : Except Failure β × World} (h : Beside tolerant related Q out out') (hout : Faultless out)
    (hout' : tolerant → Faultless out') :
    ∃ r r' u u', out = (Except.mapError .step r, u) ∧ out' = (Except.mapError .step r', u') ∧
      Paired Q r r' ∧ related u u' := by
  cases h with
  | @ok a b u u' results worlds => exact ⟨.ok a, .ok b, u, u', rfl, rfl, .ok results, worlds⟩
  | @step e u u' worlds => exact ⟨.error e, .error e, u, u', rfl, rfl, .error e, worlds⟩
  | first => exact absurd hout not_faultless
  | second allowed => exact absurd (hout' allowed) not_faultless

namespace Coupled

variable {Q : α → β → Prop} {R : γ → δ → Prop} {x : Engine α} {y : Engine β}

theorem pure {a : α} {b : β} (h : Q a b) :
    Coupled tolerant s s' related Q (pure a) (pure b) :=
  fun _ _ hw => .ok h hw

theorem mono {Q' : α → β → Prop} (hQ : ∀ a b, Q a b → Q' a b)
    (h : Coupled tolerant s s' related Q x y) : Coupled tolerant s s' related Q' x y :=
  fun w w' hw => (h w w' hw).mono hQ

theorem bind {f : α → Engine γ} {g : β → Engine δ} (first : Coupled tolerant s s' related Q x y)
    (next : ∀ a b, Q a b → Coupled tolerant s s' related R (f a) (g b)) :
    Coupled tolerant s s' related R (x >>= f) (y >>= g) := by
  intro w w' hw
  have hx := first w w' hw
  rw [bind_run, bind_run]
  rcases hout : x s w with ⟨r, u⟩
  rcases hout' : y s' w' with ⟨r', u'⟩
  rw [hout, hout'] at hx
  cases hx with
  | ok results worlds => exact next _ _ results _ _ worlds
  | step e worlds => exact .step e worlds
  | first f => exact .first f _ _
  | second allowed _ f => exact .second allowed _ f _

theorem bind_same {x y : Engine α} {f : α → Engine γ} {g : α → Engine δ}
    (first : Coupled tolerant s s' related Eq x y)
    (next : ∀ a, Coupled tolerant s s' related R (f a) (g a)) :
    Coupled tolerant s s' related R (x >>= f) (y >>= g) := by
  refine first.bind ?_
  rintro a _ rfl
  exact next a

theorem failStep (e : StepError) :
    Coupled tolerant s s' related Q (fail (.step e)) (fail (.step e)) :=
  fun _ _ hw => .step e hw

theorem failFault (f : Fault) (y : Engine β) :
    Coupled tolerant s s' related Q (fail (.fault f)) y :=
  fun _ _ _ => .first f _ _

theorem orFault {r : Except Fault α} {r' : Except Fault β}
    (h : ∀ a, r = .ok a → (∃ b, r' = .ok b ∧ Q a b) ∨ tolerant ∧ ∃ f, r' = .error f) :
    Coupled tolerant s s' related Q (orFault r) (orFault r') := by
  intro w w' hw
  cases r with
  | error f => exact .first f _ _
  | ok a =>
    rcases h a rfl with ⟨b, rfl, hab⟩ | ⟨allowed, f, rfl⟩
    · exact .ok hab hw
    · exact .second allowed _ f _

theorem orFault_same (r : Except Fault α) :
    Coupled tolerant s s' related Eq (Engine.orFault r) (Engine.orFault r) :=
  orFault fun a ha => .inl ⟨a, ha, rfl⟩

theorem ite {c : Prop} [Decidable c] {x' : Engine α} {y' : Engine β}
    (h : c → Coupled tolerant s s' related Q x y)
    (h' : ¬ c → Coupled tolerant s s' related Q x' y') :
    Coupled tolerant s s' related Q (if c then x else x') (if c then y else y') := by
  by_cases hc : c
  · rw [if_pos hc, if_pos hc]; exact h hc
  · rw [if_neg hc, if_neg hc]; exact h' hc

end Coupled

/-- What is known of the parts of two computations: which stores are alike, which requests go out
beside each other, and that events told with the fields bound to the logs are told alike. -/
structure Coupling (tolerant : Prop) (s s' : Surroundings) (related : World → World → Prop)
    (alike : Store → Store → Prop) (sends : Request → Request → Prop)
    (bound bound' : Table Value) : Prop where
  store {w w' : World} (worlds : related w w') : alike w.context.store w'.context.store
  set {st st' : Store} (name : String) (v : Value) (stores : alike st st') :
    alike (Table.set name v st) (Table.set name v st')
  withStore {w w' : World} {st st' : Store} (worlds : related w w') (stores : alike st st') :
    related (w.withStore st) (w'.withStore st')
  log (level : Level) (name : String) (fields : Table Value) :
    Coupled tolerant s s' related Eq (log bound level name fields) (log bound' level name fields)
  send {r r' : Request} (requests : sends r r') :
    Coupled tolerant s s' related Eq (send r) (send r')
  requestTime : Coupled tolerant s s' related Eq requestTime requestTime
  pause (seconds : Float) : Coupled tolerant s s' related Eq (pause seconds) (pause seconds)
  isCancelled : Coupled tolerant s s' related Eq isCancelled isCancelled

namespace Coupling

variable {alike : Store → Store → Prop} {sends : Request → Request → Prop}
  {bound bound' : Table Value}

theorem coupled_store (h : Coupling tolerant s s' related alike sends bound bound') :
    Coupled tolerant s s' related alike Engine.store Engine.store :=
  fun _ _ hw => .ok (h.store hw) hw

theorem coupled_setStore (h : Coupling tolerant s s' related alike sends bound bound')
    {st st' : Store} (hst : alike st st') :
    Coupled tolerant s s' related Eq (setStore st) (setStore st') :=
  fun _ _ hw => .ok rfl (h.withStore hw hst)

end Coupling

end RestDemo.Engine
