import ChatHub.Net.Sha1
import ChatHub.Net.WebSocket
import ChatHub.Text.Base64
/-!
What the WebSocket listener answers to a request: only a proper upgrade at the one path is
accepted. Nothing of a request but its first line and its headers is looked at.
-/

set_option autoImplicit false

namespace ChatHub

inductive HandshakeStatus where
  | switchingProtocols
  | badRequest
  | notFound
  | methodNotAllowed
  | upgradeRequired
  deriving DecidableEq, Repr

def HandshakeStatus.text : HandshakeStatus → String
  | .switchingProtocols => "101 Switching Protocols"
  | .badRequest => "400 Bad Request"
  | .notFound => "404 Not Found"
  | .methodNotAllowed => "405 Method Not Allowed"
  | .upgradeRequired => "426 Upgrade Required"

/-- A request. Names of headers are in lower case. -/
structure UpgradeRequest where
  method : List Char
  target : List Char
  version : List Char
  headers : List (List Char × List Char)
  deriving DecidableEq, Repr

/-- An answer. `key` is the one of an accepted request. -/
structure HandshakeAnswer where
  version : List Char
  status : HandshakeStatus
  key : List Char := []
  deriving DecidableEq, Repr

namespace Handshake

/-- Whether a character may stand around a header's value without being part of it. -/
def isBlank (character : Char) : Bool :=
  character = ' ' || character = '\t'

def trimmed (text : List Char) : List Char :=
  ((text.dropWhile isBlank).reverse.dropWhile isBlank).reverse

/-- A header as its name and its value, absent if there is no colon. -/
def header? (line : List Char) : Option (List Char × List Char) :=
  let name := line.takeWhile (· != ':')
  match line.drop name.length with
  | [] => none
  | _ :: value => some ((trimmed name).map Char.toLower, trimmed value)

def versions : List (List Char) :=
  ["HTTP/1.0".toList, "HTTP/1.1".toList]

def upgradable : List Char :=
  "HTTP/1.1".toList

def request? (lines : List (List Char)) : Option UpgradeRequest := do
  let headers ← (lines.drop 1).mapM header?
  match (lines.headD []).splitOn ' ' with
  | [method, target, version] =>
    if version ∈ versions then some { method, target, version, headers } else none
  | _ => none

def valueOf (request : UpgradeRequest) (name : String) : List Char :=
  ((request.headers.lookup name.toList).getD []).map Char.toLower

def hasPart (part : List Char) : List Char → Bool
  | [] => part.isEmpty
  | first :: rest => part.isPrefixOf (first :: rest) || hasPart part rest

def asksUpgrade (request : UpgradeRequest) : Bool :=
  hasPart "upgrade".toList (valueOf request "connection")
    && valueOf request "upgrade" == "websocket".toList
    && valueOf request "sec-websocket-version" == "13".toList
    && (request.headers.lookup "sec-websocket-key".toList).isSome

/-- What a request deserves. The path is looked at first, without a query. -/
def status (request : UpgradeRequest) : HandshakeStatus :=
  if request.target.takeWhile (· != '?') ≠ chatPath.toList then .notFound
  else if request.method ≠ "GET".toList then .methodNotAllowed
  else if !asksUpgrade request then .badRequest
  else if request.version ≠ upgradable then .upgradeRequired
  else .switchingProtocols

def linesOf (text : List Char) : List (List Char) :=
  ((text.filter (· != '\r')).splitOn '\n').reverse.dropWhile List.isEmpty |>.reverse

def answer (text : List Char) : HandshakeAnswer :=
  match request? (linesOf text) with
  | none => { version := upgradable, status := .badRequest }
  | some request =>
    { version := request.version
      status := status request
      key := (request.headers.lookup "sec-websocket-key".toList).getD [] }

/-- What is put behind a key before its digest is taken. -/
def keyEnding : String :=
  "258EAFA5-E914-47DA-95CA-C5AB0DC85B11"

/-- The text that proves that a key was read. -/
def proof (key : List Char) : List Char :=
  Base64.encode (Sha1.digest ((key ++ keyEnding.toList).map fun character =>
    UInt8.ofNat character.toNat))

end Handshake

namespace HandshakeAnswer

def statusLine (answer : HandshakeAnswer) : String :=
  String.ofList answer.version ++ " " ++ answer.status.text

def headers (answer : HandshakeAnswer) : List String :=
  match answer.status with
  | .switchingProtocols =>
    ["connection: upgrade", "upgrade: websocket",
      "sec-websocket-accept: " ++ String.ofList (Handshake.proof answer.key)]
  | _ => ["connection: close", "content-length: 0"]

def text (answer : HandshakeAnswer) : String :=
  String.join ((answer.statusLine :: answer.headers).map (· ++ "\r\n")) ++ "\r\n"

def isAccepted (answer : HandshakeAnswer) : Bool :=
  answer.status = .switchingProtocols

end HandshakeAnswer

end ChatHub
