import ChatHub.Net.Network
import ChatHub.Net.Service
import ChatHub.Net.TcpLink
/-!
Clients of every kind and by name on one hub, used step by step. After each step everything that
is under way arrives before the next one.
-/

set_option autoImplicit false

namespace ChatHub

/-- A client: the number of its socket, or its connection if it has none. -/
inductive Client where
  | tcp (socket : Nat)
  | webSocket (socket : Nat)
  /-- A peer in the hub's own process. -/
  | inProcess (connection : ConnectionId)
  | link (socket : Nat) (link : TcpLink)

inductive Delivery where
  | line (bytes : List UInt8)
  | text (text : String)
  | message (message : Stamped)
  deriving DecidableEq, Repr

/-- What a client shows of a parcel. It answers no pings and shows none. -/
def Delivery.ofParcel? : Parcel → Option Delivery
  | .line bytes => some (.line bytes)
  | .text body => some (.text body)
  | .reply _ | .answer _ => none

/-- The hub, whether anybody listens, the clients, and the number of the next socket. -/
structure NetSession where
  network : Network := .reachable
  listening : Bool := true
  service : Service := {}
  clients : Roster String Client := {}
  nextSocket : Nat := 0

namespace NetSession

inductive ClientKind where
  | tcp
  | webSocket
  | inProcess
  | link
  deriving DecidableEq, Repr

inductive Action where
  | send (message : Inbound)
  | bytes (bytes : List UInt8)
  | eof
  | event (event : SocketEvent)
  | raw (bytes : List UInt8)
  | reset
  | close
  | other
  deriving DecidableEq, Repr

inductive Step where
  | connect (kind : ClientKind) (name : String)
  | act (name : String) (action : Action)
  | request (text : String)
  | shutdown
  deriving DecidableEq, Repr

inductive Answer where
  | done
  | refused
  | missing
  | unknownStep
  | report (report : DeliveryReport)
  | sent (value : Bool)
  | status (line : String)
  | stopped
  deriving DecidableEq, Repr

/-- What can be seen behind a step: what each client received in it, and the connections that the
hub has closed. -/
structure Shown where
  answer : Answer
  peers : Nat
  failures : Nat
  received : List (String × List Delivery)
  closed : List String
  deriving DecidableEq, Repr

def upgradeRequest : String :=
  "GET /ws/chat HTTP/1.1\r\nHost: localhost\r\nConnection: Upgrade\r\nUpgrade: websocket\r\n"
    ++ "Sec-WebSocket-Version: 13\r\nSec-WebSocket-Key: dGhlIHNhbXBsZSBub25jZQ==\r\n\r\n"

def touch (service : Service) (timestamp : String) (socket : Nat) (arrival : Arrival) : Service :=
  (service.take timestamp socket arrival).2

def dropClient (service : Service) (timestamp : String) : Client → Service
  | .tcp socket | .webSocket socket | .link socket _ => touch service timestamp socket .broken
  | .inProcess connection =>
    { service with hub := (service.hub.detach connection).dropMailbox connection }

def drop (session : NetSession) (timestamp name : String) : NetSession :=
  match session.clients.get? name with
  | none => session
  | some client =>
    { session with
      service := dropClient session.service timestamp client
      clients := session.clients.erase name }

def admits (session : NetSession) : Bool :=
  (session.network.connectFault? .loopback session.listening).isNone

def makeClient (service : Service) (timestamp : String) (socket : Nat) :
    ClientKind → Client × Service
  | .tcp => (.tcp socket, touch service timestamp socket (.accepted .tcp))
  | .link => (.link socket {}, touch service timestamp socket (.accepted .tcp))
  | .webSocket =>
    let accepted := touch service timestamp socket (.accepted .webSocket)
    (.webSocket socket,
      touch accepted timestamp socket (.bytes (Utf8.encode upgradeRequest.toList)))
  | .inProcess =>
    let (connection, hub) := service.hub.attach
    (.inProcess connection, { service with hub })

/-- Makes a client under a name, in place of the one that had it. -/
def connect (session : NetSession) (timestamp : String) (kind : ClientKind) (name : String) :
    Answer × NetSession :=
  if kind = .inProcess || session.admits then
    let (client, service) := makeClient session.service timestamp session.nextSocket kind
    let dropped :=
      { session with service, nextSocket := session.nextSocket + 1 }.drop timestamp name
    (.done, { dropped with clients := dropped.clients.put name client })
  else (.refused, session.drop timestamp name)

/-- The bytes of a frame with a key that leaves the payload as it is, if an event has a frame. -/
def eventBytes (event : SocketEvent) : List UInt8 :=
  ((SocketFrame.ofEvent? event).map (SocketFrame.encodeMasked [0, 0, 0, 0])).getD []

def actClient? (timestamp : String) (service : Service) :
    Client → Action → Option (Answer × Service)
  | .tcp socket, .send message =>
    some (.done, touch service timestamp socket (.bytes (TcpLink.encode message)))
  | .tcp socket, .bytes bytes => some (.done, touch service timestamp socket (.bytes bytes))
  | .tcp socket, .eof => some (.done, touch service timestamp socket .ended)
  | .webSocket socket, .event event =>
    some (.done, touch service timestamp socket (.bytes (eventBytes event)))
  | .webSocket socket, .raw bytes => some (.done, touch service timestamp socket (.bytes bytes))
  | .inProcess connection, .send message =>
    let (report, hub) := service.hub.publish connection message timestamp
    some (.report report, { service with hub })
  | .link socket link, .send message =>
    if link.line.accepts then
      some (.sent true, touch service timestamp socket (.bytes (TcpLink.encode message)))
    else some (.sent false, service)
  | _, _ => none

def endsClient : Client → Action → Bool
  | _, .close => true
  | .tcp _, .reset | .webSocket _, .reset => true
  | _, _ => false

def act (session : NetSession) (timestamp name : String) (action : Action) :
    Answer × NetSession :=
  match session.clients.get? name with
  | none => (.missing, session)
  | some client =>
    if endsClient client action then (.done, session.drop timestamp name)
    else
      match actClient? timestamp session.service client action with
      | none => (.unknownStep, session)
      | some (answer, service) => (answer, { session with service })

def statusLine : List Parcel → String
  | .answer answer :: _ => answer.statusLine
  | _ => ""

/-- Sends a request to the WebSocket listener and leaves again once it is answered. -/
def request (session : NetSession) (timestamp text : String) : Answer × NetSession :=
  if session.admits then
    let socket := session.nextSocket
    let accepted := touch session.service timestamp socket (.accepted .webSocket)
    let (parcels, service) := accepted.take timestamp socket (.bytes (Utf8.encode text.toList))
    (.status (statusLine parcels),
      { session with
        service := touch service timestamp socket .broken
        nextSocket := socket + 1 })
  else (.refused, session)

def parcelsFor (dispatches : List Dispatch) (socket : Nat) : List Parcel :=
  (dispatches.filter fun dispatch => dispatch.socket = socket).flatMap Dispatch.parcels

def arrivals (dispatches : List Dispatch) (service : Service) :
    Client → List Delivery × Client × Service
  | .tcp socket =>
    ((parcelsFor dispatches socket).filterMap Delivery.ofParcel?, .tcp socket, service)
  | .webSocket socket =>
    ((parcelsFor dispatches socket).filterMap Delivery.ofParcel?, .webSocket socket, service)
  | .inProcess connection =>
    let (messages, hub) := service.hub.drain connection
    (messages.map .message, .inProcess connection, { service with hub })
  | .link socket link =>
    let link := link.receive ((parcelsFor dispatches socket).flatMap Parcel.bytes)
    let link := if service.serves socket then link else link.finish
    let (messages, link) := link.drain
    (messages.map .message, .link socket link, service)

/-- Lets everything arrive, client by client. -/
def settleFrom (dispatches : List Dispatch) (service : Service) :
    List (String × Client) → List (String × List Delivery) × List (String × Client) × Service
  | [] => ([], [], service)
  | (name, client) :: rest =>
    let (deliveries, client, service) := arrivals dispatches service client
    let (received, clients, service) := settleFrom dispatches service rest
    ((name, deliveries) :: received, (name, client) :: clients, service)

def isClosed (service : Service) : Client → Bool
  | .tcp socket | .webSocket socket => !service.serves socket
  | _ => false

/-- Does what a step asks for, before anything arrives. -/
def perform (session : NetSession) (timestamp : String) : Step → Answer × NetSession
  | .connect kind name => session.connect timestamp kind name
  | .act name action => session.act timestamp name action
  | .request text => session.request timestamp text
  | .shutdown => (.stopped, { session with listening := false })

def step (session : NetSession) (timestamp : String) (step : Step) : Shown × NetSession :=
  let (answer, begun) := session.perform timestamp step
  let (dispatches, service) := begun.service.flush
  let (received, clients, service) := settleFrom dispatches service begun.clients.entries
  ({ answer
     peers := service.hub.peerCount
     failures := service.hub.failures
     received := received.filter fun entry => !entry.2.isEmpty
     closed := (clients.filter fun entry => isClosed service entry.2).map Prod.fst },
    { begun with service, clients := ⟨clients⟩ })

def run (session : NetSession) (timestamp : String) : List Step → List Shown
  | [] => []
  | first :: rest =>
    let (shown, next) := session.step timestamp first
    shown :: next.run timestamp rest

end NetSession

end ChatHub
