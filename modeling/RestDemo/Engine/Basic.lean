import RestDemo.Failure
import RestDemo.Http
import RestDemo.Log.Line
import RestDemo.Text.Quoted

/-!
# Going on

An `Engine` computation runs among surroundings that do not change: a service with its clock, a way
in which it may be cancelled, what a log refuses, and the names that are given out. It changes a
`World`: the context of the run, the requests sent, the pauses made, the events told. A failure keeps
the world as it is at that moment; what was saved and sent before stays. The equations of this file
say what the parts do to a world.
-/

namespace RestDemo

/-- A request of a step with its values filled in. -/
structure ResolvedRequest where
  method : String
  url : String
  headers : Table String
  body : Value

/-- What came of polling: how many attempts it took, and the last answer. -/
structure PollResult where
  attempts : Nat
  document : Value
  status : Int

/-- What came of a step: its request, the status of the answer, and the document in the end. -/
structure StepResult where
  request : ResolvedRequest
  status : Int
  body : Value
  polling : Option PollResult

/-- What a run owns: its name, its variables, and the results so far. -/
structure RunContext where
  runId : String
  store : Store
  results : List StepResult

def RunContext.empty : RunContext := ⟨"", [], []⟩

/-- When a cancellation comes, for whoever may be cancelled. -/
inductive Cancellation where
  | never
  | before
  /-- While the request of this number is under way. -/
  | during (request : Nat)
  /-- In the first pause after the request of this number. -/
  | pausing (request : Nat)
  deriving DecidableEq, Repr

/-- Whether a cancellation comes in a pause after so many requests. -/
def Cancellation.comesAfter (sent : Nat) : Cancellation → Bool
  | pausing request => request ≤ sent
  | _ => false

/-- The name that is given out in its turn, counted from one: the count in 32 hexadecimal digits. -/
def issuedId (n : Nat) : String :=
  String.ofList (Text.hexDigits 32 n)

theorem issuedId_ne_empty (n : Nat) : issuedId n ≠ "" := by
  intro h
  have hlength : (issuedId n).toList.length = 32 := by
    rw [issuedId, String.toList_ofList]
    exact Text.length_hexDigits 32 n
  rw [h] at hlength
  exact absurd hlength (by decide)

/-- The names that are given out, the one of each turn. None of them is empty. -/
structure Names where
  name : Nat → String
  ne_empty : ∀ n, name n ≠ ""

/-- The names that count. -/
def Names.counted : Names := ⟨issuedId, issuedId_ne_empty⟩

structure Surroundings where
  service : Service
  /-- When it is cancelled, if it can be. -/
  cancellation : Option Cancellation
  /-- The fault of an event that a log cannot write. -/
  refuses : Event → Option Fault
  names : Names

/-- The surroundings in which nothing is cancelled, and what can be written is told. -/
def Surroundings.plain (service : Service) : Surroundings :=
  ⟨service, none, Event.unwritable, .counted⟩

structure World where
  context : RunContext
  /-- The requests sent, the first one first. -/
  sent : List Request
  /-- The pauses made, in seconds. -/
  pauses : List Float
  /-- The events told, the first one first. -/
  events : List Event
  /-- How many requests had been sent when the cancellation came, if it has come. -/
  cancelledAfter : Option Nat
  /-- How many names have been given out. -/
  issued : Nat

namespace World

def start (cancellation : Option Cancellation) (context : RunContext) (issued : Nat) : World :=
  { context, sent := [], pauses := [], events := []
    cancelledAfter := if cancellation = some .before then some 0 else none, issued }

def cancelled (w : World) : Bool := w.cancelledAfter.isSome

/-- The world in which the cancellation comes now, if it does and has not come before. -/
def cancelIf (comes : Bool) (w : World) : World :=
  { w with
    cancelledAfter :=
      if comes then w.cancelledAfter.or (some w.sent.length) else w.cancelledAfter }

/-- The world in which one more request is under way. -/
def request (s : Surroundings) (request : Request) (w : World) : World :=
  { w with sent := w.sent ++ [request] }.cancelIf
    (s.cancellation = some (Cancellation.during (w.sent.length + 1)))

/-- The world in which further events have been told. -/
def telling (events : List Event) (w : World) : World :=
  { w with events := w.events ++ events }

def withStore (store : Store) (w : World) : World :=
  { w with context := { w.context with store } }

variable (w : World)

@[simp] theorem telling_nil : w.telling [] = w := by
  simp [telling]

@[simp] theorem telling_telling (es fs : List Event) :
    (w.telling es).telling fs = w.telling (es ++ fs) := by
  simp [telling]

@[simp] theorem withStore_self : w.withStore w.context.store = w := rfl

@[simp] theorem withStore_telling (store : Store) (es : List Event) :
    (w.telling es).withStore store = (w.withStore store).telling es := rfl

@[simp] theorem request_telling (s : Surroundings) (r : Request) (es : List Event) :
    (w.telling es).request s r = (w.request s r).telling es := rfl

@[simp] theorem withStore_context (store : Store) :
    (w.withStore store).context = { w.context with store } := rfl

@[simp] theorem request_sent (s : Surroundings) (r : Request) :
    (w.request s r).sent = w.sent ++ [r] := rfl

@[simp] theorem request_context (s : Surroundings) (r : Request) :
    (w.request s r).context = w.context := rfl

variable {w} in
/-- One more request moves the numbers of those after it by one. -/
theorem length_add_of_sent {u : World} {r : Request} (h : u.sent = w.sent ++ [r]) (i : Nat) :
    u.sent.length + i = w.sent.length + (i + 1) := by
  rw [h, List.length_append, List.length_singleton]
  omega

end World

def Engine (α : Type) : Type := Surroundings → World → Except Failure α × World

namespace Engine

variable {α β : Type}

/-- Goes on with the result of a computation, unless it failed. -/
def andThen (x : Engine α) (f : α → Engine β) : Engine β := fun s w =>
  match x s w with
  | (.ok a, w) => f a s w
  | (.error e, w) => (.error e, w)

instance : Monad Engine where
  pure a := fun _ w => (.ok a, w)
  bind := andThen

def fail (e : Failure) : Engine α := fun _ w => (.error e, w)

def orFault : Except Fault α → Engine α
  | .ok a => pure a
  | .error f => fail (.fault f)

def surroundings : Engine Surroundings := fun s w => (.ok s, w)

def world : Engine World := fun _ w => (.ok w, w)

def changeContext (f : RunContext → RunContext) : Engine Unit := fun _ w =>
  (.ok (), { w with context := f w.context })

def store : Engine Store := fun _ w => (.ok w.context.store, w)

def setStore (store : Store) : Engine Unit := fun _ w => (.ok (), w.withStore store)

/-- The result of a computation, or the failure of a step in it. A fault is no result. -/
def attempt (x : Engine α) : Engine (Except StepError α) := fun s w =>
  match x s w with
  | (.ok a, w) => (.ok (.ok a), w)
  | (.error (.step e), w) => (.ok (.error e), w)
  | (.error (.fault f), w) => (.error (.fault f), w)

def send (request : Request) : Engine Answer := fun s w =>
  match s.service.reply w.sent.length with
  | .answer a => (.ok a, w.request s request)
  | .unreachable reason =>
    (.error (.step (.unreachable request.method request.url reason)), w.request s request)
  | .crash text => (.error (.fault (.crash text)), w.request s request)

/-- How long the last request took, in milliseconds. -/
def requestTime : Engine UInt64 := fun s w => (.ok (s.service.clock.request w.sent.length), w)

/-- How long a step took that ends now, in milliseconds. -/
def stepTime (succeeded : Bool) : Engine UInt64 := fun s w =>
  (.ok (s.service.clock.step succeeded w.sent.length), w)

/-- Pauses, and says whether it was cancelled. Only a pause that cannot be cancelled is counted. -/
def pause (seconds : Float) : Engine Bool := fun s w =>
  match s.cancellation with
  | none => (.ok false, { w with pauses := w.pauses ++ [seconds] })
  | some c =>
    let w := w.cancelIf (c.comesAfter w.sent.length)
    (.ok w.cancelled, w)

def isCancelled : Engine Bool := fun s w => (.ok (s.cancellation.isSome && w.cancelled), w)

/-- Tells an event, unless the log refuses it. -/
def tell (event : Event) : Engine Unit := fun s w =>
  match s.refuses event with
  | some f => (.error (.fault f), w)
  | none => (.ok (), w.telling [event])

/-- Tells an event with fields of its own over those bound to the log. -/
def log (bound : Table Value) (level : Level) (name : String) (fields : Table Value) :
    Engine Unit :=
  tell ⟨level, name, bound.overlay fields⟩

/-- Gives out the next name. -/
def freshId : Engine String := fun s w =>
  (.ok (s.names.name (w.issued + 1)), { w with issued := w.issued + 1 })

/-! ## What the parts do to a world -/

variable (s : Surroundings) (w : World)

@[simp] theorem pure_run (a : α) : (pure a : Engine α) s w = (.ok a, w) := rfl

@[simp] theorem bind_run (x : Engine α) (f : α → Engine β) :
    (x >>= f) s w =
      match x s w with
      | (.ok a, w) => f a s w
      | (.error e, w) => (.error e, w) := rfl

variable {s w} in
theorem bind_run_of_ok {x : Engine α} {f : α → Engine β} {a : α} {u : World}
    (hx : x s w = (.ok a, u)) : (x >>= f) s w = f a s u := by
  rw [bind_run, hx]

theorem bind_pure_run (x : Engine α) (f : α → β) :
    (x >>= fun a => pure (f a)) s w = ((x s w).1.map f, (x s w).2) := by
  rw [bind_run]
  rcases x s w with ⟨e | a, u⟩ <;> rfl

@[simp] theorem fail_run (e : Failure) : (fail e : Engine α) s w = (.error e, w) := rfl

@[simp] theorem orFault_ok_run (a : α) : (orFault (.ok a) : Engine α) s w = (.ok a, w) := rfl

@[simp] theorem orFault_error_run (f : Fault) :
    (orFault (.error f) : Engine α) s w = (.error (.fault f), w) := rfl

@[simp] theorem store_run : store s w = (.ok w.context.store, w) := rfl

@[simp] theorem requestTime_run :
    requestTime s w = (.ok (s.service.clock.request w.sent.length), w) := rfl

@[simp] theorem stepTime_run (succeeded : Bool) :
    stepTime succeeded s w = (.ok (s.service.clock.step succeeded w.sent.length), w) := rfl

theorem requestTime_bind_run (f : UInt64 → Engine β) :
    (requestTime >>= f) s w = f (s.service.clock.request w.sent.length) s w := rfl

theorem stepTime_bind_run (succeeded : Bool) (f : UInt64 → Engine β) :
    (stepTime succeeded >>= f) s w = f (s.service.clock.step succeeded w.sent.length) s w := rfl

theorem store_bind_run (f : Store → Engine β) : (store >>= f) s w = f w.context.store s w := rfl

@[simp] theorem setStore_run (store : Store) : setStore store s w = (.ok (), w.withStore store) :=
  rfl

@[simp] theorem isCancelled_run :
    isCancelled s w = (.ok (s.cancellation.isSome && w.cancelled), w) := rfl

end Engine

end RestDemo
