import Taproom.Fault

/-!
Asking servers. How a request travels is left to a transport, so that everything built on it is a
function of what the servers answer.
-/

namespace Taproom.Http

structure Request where
  method : String
  url : Url
  body : ByteArray := .empty
  contentType : String := ""

structure Response where
  status : Nat
  contentType : String := ""
  body : ByteArray := .empty

abbrev Transport := Request → Except Fault Response

def portOf? (host : String) : Option (List Char) :=
  match Text.cutLast? [':'] host.toList with
  | some (_, port) => if port.contains ']' then none else some port
  | none => none

/-- The transport of a machine without a network. A port that no machine has is told of first. -/
def unreachable : Transport := fun r =>
  match portOf? r.url.host with
  | some port =>
    if 65535 < Text.digitsValue port then
      .error (.told s!"dial tcp: address {String.ofList port}: invalid port")
    else .error (.told s!"dial tcp {r.url.host}: connect: network is unreachable")
  | none =>
    let port := if r.url.scheme = "https" then ":443" else ":80"
    .error (.told s!"dial tcp {r.url.host ++ port}: connect: network is unreachable")

def reason : Nat → String
  | 100 => "Continue"
  | 200 => "OK"
  | 201 => "Created"
  | 202 => "Accepted"
  | 204 => "No Content"
  | 301 => "Moved Permanently"
  | 302 => "Found"
  | 304 => "Not Modified"
  | 307 => "Temporary Redirect"
  | 308 => "Permanent Redirect"
  | 400 => "Bad Request"
  | 401 => "Unauthorized"
  | 403 => "Forbidden"
  | 404 => "Not Found"
  | 405 => "Method Not Allowed"
  | 409 => "Conflict"
  | 410 => "Gone"
  | 418 => "I'm a teapot"
  | 429 => "Too Many Requests"
  | 500 => "Internal Server Error"
  | 501 => "Not Implemented"
  | 502 => "Bad Gateway"
  | 503 => "Service Unavailable"
  | 504 => "Gateway Timeout"
  | _ => ""

def statusLine (status : Nat) : String := s!"{status} {reason status}"

def verb (method : String) : String :=
  match method.toList with
  | [] => "Get"
  | c :: rest => String.ofList (c :: rest.map Url.toLower)

def send (net : Transport) (method url : String) (body : ByteArray) (contentType : String) :
    Except Fault Response := do
  let u := (← (Url.parse url).mapError .url).withoutEmptyPort
  during s!"{verb method} {quoted u.text}" <|
    if u.scheme ≠ "http" ∧ u.scheme ≠ "https" then
      .error (.told s!"unsupported protocol scheme {quoted u.scheme}")
    else if u.host = "" then .error (.told "http: no Host in request URL")
    else net ⟨method, u, body, contentType⟩

def get (net : Transport) (url : String) : Except Fault Response := send net "GET" url .empty ""

end Taproom.Http
