import RestDemo.Table
import RestDemo.Fault
import RestDemo.Text.Casing

/-!
# Requests and answers

What a client of a service sends and gets. `Service` says what comes of each request, by the number
of requests before it, and what a clock says meanwhile. `Client` is how requests go over a session
with headers of its own.
-/

namespace RestDemo

structure Request where
  method : String
  url : String
  headers : Table String
  body : Option String
  deriving DecidableEq, Repr

/-- The part of an answer that is looked at. -/
structure Answer where
  status : Int
  text : String
  deriving DecidableEq, Repr

/-- What comes of a request: an answer, a failure to reach the service, or a crash of the client. -/
inductive Reply where
  | answer (answer : Answer)
  | unreachable (reason : String)
  | crash (text : String)
  deriving DecidableEq, Repr

/-- How long things took, in milliseconds, by how many requests had been sent when they ended. -/
structure Clock where
  /-- The last one of the requests, until it was answered. -/
  request : Nat → UInt64
  /-- The step that came to its end then, and whether it succeeded. -/
  step : Bool → Nat → UInt64

namespace Clock

/-- The clock that stands still. -/
def still : Clock := ⟨fun _ => 0, fun _ _ => 0⟩

/-- The clock for one who comes when so many requests have been sent. -/
def after (sent : Nat) (clock : Clock) : Clock where
  request n := clock.request (sent + n)
  step succeeded n := clock.step succeeded (sent + n)

end Clock

/-- A service as its client finds it. -/
structure Service where
  /-- What comes of the first request, the second, and so on. -/
  reply : Nat → Reply
  clock : Clock

namespace Service

def notFound : Reply := .answer ⟨404, "Not Found"⟩

/-- The service that gives such replies in no time. -/
def ofReplies (reply : Nat → Reply) : Service := ⟨reply, .still⟩

/-- The service that gives the replies of a list in order, and its last one again and again. -/
def ofList (replies : List Reply) : Service :=
  ofReplies fun n => (replies[n]?).getD (replies.getLast?.getD notFound)

/-- The service for one who comes when so many requests have been sent. -/
def after (sent : Nat) (service : Service) : Service where
  reply n := service.reply (sent + n)
  clock := service.clock.after sent

@[simp] theorem after_zero (service : Service) : service.after 0 = service := by
  simp [after, Clock.after]

theorem after_after (m n : Nat) (service : Service) :
    (service.after m).after n = service.after (m + n) := by
  simp only [after, Clock.after, Nat.add_assoc]

end Service

/-- How requests go over a session. -/
structure Client where
  /-- Headers that every request has unless it gives its own. -/
  headers : Table String
  /-- The time in seconds that an answer may take. -/
  timeout : Int

/-- A request as it leaves a session. -/
structure Outgoing where
  method : String
  url : String
  headers : Table String
  /-- The bytes of the body. -/
  body : Option (List UInt8)
  timeout : Int

def Client.outgoing (client : Client) (request : Request) : Outgoing :=
  { method := Text.upper request.method
    url := request.url
    headers := client.headers.overlay request.headers
    body := request.body.map fun s => s.toUTF8.toList
    timeout := client.timeout }

def isAbsoluteUrl (url : String) : Bool :=
  "http://".toList.isPrefixOf url.toList || "https://".toList.isPrefixOf url.toList

/-- The address of an endpoint: a complete one itself, any other one after the base address. -/
def resolveUrl (endpoint baseUrl : String) : String :=
  if isAbsoluteUrl endpoint then endpoint else baseUrl ++ endpoint

end RestDemo
