import RestDemo.Json.Reader
import RestDemo.RestLine
import RestDemo.Server.Basic
import RestDemo.Server.Call

/-!
# Passing requests on

A request is passed on to the address that it names. An address that starts with a slash belongs to
the server itself and is put after the server's own address, which leaves out the usual port of its
scheme.
-/

namespace RestDemo.Server

/-- What came of a request that was to be passed on. -/
inductive ProxyAnswer where
  /-- It was not answered: a status with what is wrong. -/
  | refused (status : Nat) (error : String)
  | answered (status : Int) (document : Value)

def usualPorts : Table Int :=
  [("http", 80), ("https", 443), ("ws", 80), ("wss", 443)]

/-- The host as it stands in an address: one with colons is put in brackets. -/
def bracketed (host : String) : String :=
  if host.toList.contains ':' && host.toList.head? ≠ some '[' then "[" ++ host ++ "]" else host

/-- The address of the server, without slashes at its end. -/
def Origin.url (o : Origin) : Except Fault String :=
  match usualPorts.get? o.scheme with
  | none => .error .noEntry
  | some usual =>
    let port := if o.port = usual then "" else ":" ++ Int.repr o.port
    let url := o.scheme ++ "://" ++ bracketed o.host ++ port
    .ok (String.ofList (url.toList.reverse.dropWhile (· == '/')).reverse)

def Origin.resolve (o : Origin) (url : String) : Except Fault String :=
  if "/".toList.isPrefixOf url.toList then do
    let own ← o.url
    return own ++ url
  else .ok url

def ProxyCall.request (call : ProxyCall) (origin : Origin) (method url : String) :
    Except Fault Request := do
  let address ← origin.resolve url
  let headers := Table.overlay [("Content-Type", "application/json")] call.headers
  let body ←
    match call.body with
    | .null => .ok none
    | body =>
      if RestLine.supportsBody RestLine.bodyMethods method then
        (Json.text Json.spaced body).map some
      else .ok none
  return ⟨Text.upper method, address, headers, body⟩

/-- Passes a request on; `method` is the method as the call gave it. -/
def passOn (request : Request) (method : String) : Engine ProxyAnswer := do
  match ← Engine.attempt (Engine.send request) with
  | .ok answer => return .answered answer.status (Json.bodyValue answer.text)
  | .error e => do
    Engine.log [] .error "proxy.request_failed"
      [("method", .text method), ("url", .text request.url), ("error", .text e.message)]
    return .refused 500 e.message

def proxy (origin : Origin) (call : ProxyCall) (service : Service) (s : State) :
    Handled ProxyAnswer :=
  let method := call.method.getD ""
  let url := call.url.getD ""
  if method = "" || url = "" then .unchanged (.ok (.refused 400 "Missing method or url")) s
  else
    match call.request origin method url with
    | .error f => .unchanged (.error (.fault f)) s
    | .ok request =>
      match s.run (passOn request method) (.single .console []) service RunContext.empty with
      | (r, w, s) => ⟨r.mapError Problem.ofFailure, s, w.sent⟩

end RestDemo.Server
