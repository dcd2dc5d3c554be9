import CqlGateway.Network.Address
import CqlGateway.Statement.Reader

/-!
# A permission authority on the web

The authority is a service that is asked for the operations of a subject and is told which
keyspaces a subject has. The resources have the subject in their path. A credential is sent along
as a bearer token; without one, a name and a password in the address of the service are sent.

A request is a value, and so is the reply to it: what the gateway makes of a reply is a function
of the two.
-/

namespace CqlGateway.Permission

open Network (Address)

inductive HttpMethod where
  | get
  | post
  | delete
  deriving DecidableEq, Repr

def HttpMethod.name : HttpMethod → String
  | .get => "GET"
  | .post => "POST"
  | .delete => "DELETE"

def HttpMethod.verb : HttpMethod → String
  | .get => "Get"
  | .post => "Post"
  | .delete => "Delete"

structure HttpRequest where
  method : HttpMethod
  /-- The address as it is told in messages. -/
  target : String
  address : Address
  authorization : String
  body? : Option String
  deriving DecidableEq, Repr

namespace HttpRequest

/-- What the reply should be. -/
def accept : String := "application/json"

/-- What the body is, empty without one. -/
def contentType (q : HttpRequest) : String :=
  if q.body?.isSome then "application/json" else ""

def url (q : HttpRequest) : String :=
  q.address.text

end HttpRequest

inductive HttpReply where
  | response (status : Int) (body : String)
  | failed (cause : Failure)

/-- The service at some address. -/
structure Remote where
  base : Address
  deriving DecidableEq, Repr

namespace Remote

/-- An address without a slash at its end. -/
def withoutFinalSlash (url : String) : String :=
  if url.toList.getLast? = some '/' then String.ofList url.toList.dropLast else url

def ofUrl (url : String) : Except Failure Remote :=
  match Address.read? (withoutFinalSlash url) with
  | none => .error (.wrapped ("invalid authority url " ++ Text.quote url) (.foreign "<url error>"))
  | some a =>
    if a.scheme = "http" || a.scheme = "https" then .ok ⟨a⟩
    else .error (.plain ("authority url " ++ Text.quote url ++ " must be http or https"))

/-- How a caller is identified to the service. -/
def authorizationOf (a : Address) (credential : String) : String :=
  if credential ≠ "" then "Bearer " ++ credential
  else
    match a.user? with
    | none => ""
    | some u =>
      "Basic " ++ String.ofList
        (Text.base64 (u.name ++ Network.byteOf ':' :: u.password?.getD []))

def request (r : Remote) (method : HttpMethod) (credential : String) (body? : Option String)
    (segments : List String) : Except Failure HttpRequest :=
  let target := r.base.text ++ "/" ++ String.intercalate "/" (segments.map Network.escapeSegment)
  match Address.read? target with
  | none => .error (.wrapped "failed to build authority request" (.foreign "<url error>"))
  | some a =>
    let address := a.withoutEmptyPort
    .ok ⟨method, target, address, authorizationOf address credential, body?⟩

def operationsRequest (r : Remote) (subject credential : String) : Except Failure HttpRequest :=
  r.request .get credential none ["subjects", subject, "operations"]

def addRequest (r : Remote) (subject credential keyspace : String) : Except Failure HttpRequest :=
  r.request .post credential (some (Json.object [("keyspace", .text keyspace)]).write)
    ["subjects", subject, "keyspaces"]

def removeRequest (r : Remote) (subject credential keyspace : String) :
    Except Failure HttpRequest :=
  r.request .delete credential none ["subjects", subject, "keyspaces", keyspace]

end Remote

/-! ### Replies -/

/-- How much of a reply is read, in bytes. -/
def bodyLimit : Nat := 1048576

/-- The body of a reply, unless the reply is a refusal. -/
def HttpReply.body (reply : HttpReply) (q : HttpRequest) : Except Failure String :=
  match reply with
  | .failed cause =>
    .error (.wrapped (q.method.name ++ " " ++ q.target)
      (.wrapped (q.method.verb ++ " " ++ Text.quote q.address.textWithoutPassword) cause))
  | .response status body =>
    let shown := String.ofList (Text.takeBytes bodyLimit body.toList)
    if 200 ≤ status && status ≤ 299 then .ok shown
    else
      .error (.plain (q.method.name ++ " " ++ q.target ++ ": unexpected status "
        ++ toString status ++ ": " ++ Text.trim shown))

def fillOperations (operations : List String) (slot : String) (n : Node) :
    Reading (List String) :=
  if slot = "operations" then Reading.texts n else pure operations

def readOperations (body : String) : Except Failure (List String) :=
  let context := "failed to decode operations"
  match Json.read (Text.trim body) with
  | .error fault => .error (Statement.documentFailure context fault)
  | .ok json =>
    let reading :=
      match json with
      | .array _ => Reading.texts (.ofJson json)
      | _ => Reading.record fillOperations [] (Node.ofJson json).settledRecord
    match reading.result with
    | .ok operations => .ok operations
    | .error fault => .error (Statement.readingFailure context fault)

def HttpReply.operations (reply : HttpReply) (q : HttpRequest) : Except Failure (List String) := do
  readOperations (← reply.body q)

/-- Whether a notification was taken. -/
def HttpReply.accepted (reply : HttpReply) (q : HttpRequest) : Except Failure Unit := do
  let _ ← reply.body q

end CqlGateway.Permission
