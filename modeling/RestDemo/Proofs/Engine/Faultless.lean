import RestDemo.Engine.Basic

/-!
# Computations without a fault

A computation ends with a result, with the failure of a step, or with a fault. `Faultless` leaves
the last one out. Where the whole of a computation has no fault, neither has its first part, and
`bind_of_faultless`, `orFault_bind_of_faultless` and `log_bind_of_faultless` take such a computation
apart: they say how its first part ended and what is left to run. What was told on the way is left
open by `World.Told`, and everything else of a world is not.
-/

namespace RestDemo

/-! ## Worlds that differ in what was told -/

namespace World

/-- The second world is the first one after further events. -/
def Told (w u : World) : Prop := ∃ es, u = w.telling es

namespace Told

variable {w u v : World}

theorem refl (w : World) : Told w w := ⟨[], (telling_nil w).symm⟩

theorem of_telling (w : World) (es : List Event) : Told w (w.telling es) := ⟨es, rfl⟩

theorem trans (h : Told w u) (h' : Told u v) : Told w v := by
  obtain ⟨es, rfl⟩ := h
  obtain ⟨fs, rfl⟩ := h'
  exact ⟨es ++ fs, by simp [World.telling]⟩

theorem withStore (h : Told w u) (store : Store) :
    Told (w.withStore store) (u.withStore store) := by
  obtain ⟨es, rfl⟩ := h
  exact ⟨es, rfl⟩

theorem request (h : Told w u) (s : Surroundings) (r : Request) :
    Told (w.request s r) (u.request s r) := by
  obtain ⟨es, rfl⟩ := h
  exact ⟨es, rfl⟩

theorem context_eq (h : Told w u) : u.context = w.context := by
  obtain ⟨es, rfl⟩ := h
  rfl

theorem sent_eq (h : Told w u) : u.sent = w.sent := by
  obtain ⟨es, rfl⟩ := h
  rfl

theorem pauses_eq (h : Told w u) : u.pauses = w.pauses := by
  obtain ⟨es, rfl⟩ := h
  rfl

end Told

end World

/-! ## Taking a computation apart -/

namespace Engine

variable {α β : Type} {s : Surroundings} {w : World}

/-- The computation did not end with a fault. -/
def Faultless (r : Except Failure α × World) : Prop :=
  ∀ f, r.1 ≠ .error (.fault f)

theorem not_faultless {f : Fault} {w : World} :
    ¬ Faultless ((.error (.fault f), w) : Except Failure α × World) :=
  fun h => h f rfl

theorem faultless_ok {a : α} : Faultless ((.ok a, w) : Except Failure α × World) :=
  fun _ h => nomatch h

theorem faultless_step {e : StepError} :
    Faultless ((.error (.step e), w) : Except Failure α × World) :=
  fun _ h => nomatch h

instance (r : Except Failure α × World) : Decidable (Faultless r) :=
  match r with
  | (.ok _, _) => .isTrue faultless_ok
  | (.error (.step _), _) => .isTrue faultless_step
  | (.error (.fault _), _) => .isFalse not_faultless

/-- A computation without a fault came to a result and went on, or a step failed in it. -/
theorem bind_of_faultless {x : Engine α} {f : α → Engine β} (h : Faultless ((x >>= f) s w)) :
    (∃ a u, x s w = (.ok a, u) ∧ (x >>= f) s w = f a s u) ∨
      ∃ e u, x s w = (.error (.step e), u) ∧ (x >>= f) s w = (.error (.step e), u) := by
  rw [bind_run] at h ⊢
  match hx : x s w with
  | (.ok a, u) => exact .inl ⟨a, u, rfl, rfl⟩
  | (.error (.step e), u) => exact .inr ⟨e, u, rfl, rfl⟩
  | (.error (.fault f), u) =>
    rw [hx] at h
    exact absurd h not_faultless

theorem faultless_of_bind {x : Engine α} {f : α → Engine β} (h : Faultless ((x >>= f) s w)) :
    Faultless (x s w) := by
  rcases bind_of_faultless h with ⟨a, u, hx, -⟩ | ⟨e, u, hx, -⟩
  · rw [hx]; exact faultless_ok
  · rw [hx]; exact faultless_step

theorem orFault_bind_of_faultless {r : Except Fault α} {f : α → Engine β}
    (h : Faultless ((orFault r >>= f) s w)) :
    ∃ a, r = .ok a ∧ (orFault r >>= f) s w = f a s w := by
  cases r with
  | ok a => exact ⟨a, rfl, rfl⟩
  | error f => exact absurd h not_faultless

/-- An event as a log with bound fields tells it. -/
def entry (bound : Table Value) (level : Level) (name : String) (fields : Table Value) : Event :=
  ⟨level, name, bound.overlay fields⟩

/-- An event is refused, which ends everything, or it is told. -/
theorem tell_refused_or_run (e : Event) (s : Surroundings) (w : World) :
    (∃ f, tell e s w = (.error (.fault f), w)) ∨ tell e s w = (.ok (), w.telling [e]) := by
  unfold tell
  cases s.refuses e with
  | none => exact .inr rfl
  | some f => exact .inl ⟨f, rfl⟩

theorem log_refused_or_run (bound : Table Value) (level : Level) (name : String)
    (fields : Table Value) (s : Surroundings) (w : World) :
    (∃ f, log bound level name fields s w = (.error (.fault f), w)) ∨
      log bound level name fields s w = (.ok (), w.telling [entry bound level name fields]) :=
  tell_refused_or_run (entry bound level name fields) s w

theorem log_refused_or_told (bound : Table Value) (level : Level) (name : String)
    (fields : Table Value) (s : Surroundings) (w : World) :
    (∃ f, log bound level name fields s w = (.error (.fault f), w)) ∨
      ∃ u, log bound level name fields s w = (.ok (), u) ∧ w.Told u := by
  rcases log_refused_or_run bound level name fields s w with hlog | hlog
  · exact .inl hlog
  · exact .inr ⟨_, hlog, .of_telling w _⟩

theorem told_log (bound : Table Value) (level : Level) (name : String) (fields : Table Value)
    (s : Surroundings) (w : World) : w.Told (log bound level name fields s w).2 := by
  rcases log_refused_or_run bound level name fields s w with ⟨f, hlog⟩ | hlog
  · rw [hlog]
    exact .refl w
  · rw [hlog]
    exact .of_telling w _

theorem log_run {bound fields : Table Value} {level : Level} {name : String}
    (h : Faultless (log bound level name fields s w)) :
    log bound level name fields s w = (.ok (), w.telling [entry bound level name fields]) := by
  rcases log_refused_or_run bound level name fields s w with ⟨f, hlog⟩ | hlog
  · rw [hlog] at h
    exact absurd h not_faultless
  · exact hlog

theorem log_bind_run {bound fields : Table Value} {level : Level} {name : String}
    {f : Unit → Engine β} (h : Faultless ((log bound level name fields >>= f) s w)) :
    (log bound level name fields >>= f) s w =
      f () s (w.telling [entry bound level name fields]) :=
  bind_run_of_ok (log_run (faultless_of_bind h))

theorem log_of_faultless {bound fields : Table Value} {level : Level} {name : String}
    (h : Faultless (log bound level name fields s w)) :
    ∃ u, log bound level name fields s w = (.ok (), u) ∧ w.Told u :=
  ⟨_, log_run h, .of_telling w _⟩

theorem log_bind_of_faultless {bound fields : Table Value} {level : Level} {name : String}
    {f : Unit → Engine β} (h : Faultless ((log bound level name fields >>= f) s w)) :
    ∃ u, (log bound level name fields >>= f) s w = f () s u ∧ w.Told u :=
  ⟨_, log_bind_run h, .of_telling w _⟩

/-- Where nothing crashes, a request is answered or its service cannot be reached. -/
theorem send_bind_of_faultless {request : Request} {f : Answer → Engine β}
    (h : Faultless ((send request >>= f) s w)) :
    (∃ reason, s.service.reply w.sent.length = .unreachable reason ∧
      (send request >>= f) s w =
        (.error (.step (.unreachable request.method request.url reason)), w.request s request)) ∨
      ∃ a, s.service.reply w.sent.length = .answer a ∧
        (send request >>= f) s w = f a s (w.request s request) := by
  rw [bind_run, send] at h ⊢
  cases hreply : s.service.reply w.sent.length with
  | crash text =>
    rw [hreply] at h
    exact absurd h not_faultless
  | unreachable reason => exact .inl ⟨reason, rfl, rfl⟩
  | answer a => exact .inr ⟨a, rfl, rfl⟩

theorem faultless_of_attempt {x : Engine α} (h : Faultless (attempt x s w)) :
    Faultless (x s w) := by
  intro f hf
  refine h f ?_
  rw [attempt]
  rcases hx : x s w with ⟨r, u⟩
  rw [hx] at hf
  rw [show r = .error (.fault f) from hf]

/-- Where no fault comes up, the failure of a step is a result like any other. -/
theorem attempt_run {x : Engine α} {r : Except StepError α} {u : World}
    (hx : x s w = (r.mapError .step, u)) : attempt x s w = (.ok r, u) := by
  rw [attempt, hx]
  cases r <;> rfl

end Engine

end RestDemo
