import ChatHub.Host.Basic
import ChatHub.Net.Service
import Std.Async.Signal
import Std.Async.TCP
import Std.Async.Timer
import Std.Sync.Mutex
/-!
A hub that listens. All sockets share one service behind a lock; what the service sends is put
into the sockets while the lock is held, so that every socket sees it in order.
-/

set_option autoImplicit false

namespace ChatHub.Host

open Std.Async

structure Bound where
  server : TCP.Socket.Server
  address : SocketAddress

def bind (address : SocketAddress) : IO (Except BindFault Bound) := do
  try
    let server ← TCP.Socket.Server.mk
    server.bind (nativeAddress address)
    server.listen 1024
    return .ok { server, address := address.withPort (nativePort (← server.getSockName)) }
  catch error => return .error (bindFault error)

/-- The service, the sockets that it serves, and the number of the next one. -/
structure Desk where
  service : Service := {}
  sockets : Roster Nat TCP.Socket.Client := {}
  next : Nat := 0

namespace Desk

/-- Writes bytes without waiting until they are gone. What cannot be written is lost. -/
def write (client : TCP.Socket.Client) (bytes : List UInt8) : IO Unit := do
  unless bytes.isEmpty do
    discard (client.send ⟨bytes.toArray⟩).toIO

/-- Sends what is to be sent, and gives up sockets that are closed. -/
def send (desk : Desk) (dispatches : List Dispatch) : IO Desk :=
  dispatches.foldlM (fun desk dispatch => do
    match desk.sockets.get? dispatch.socket with
    | none => return desk
    | some client =>
      write client (dispatch.parcels.flatMap Parcel.bytes)
      if dispatch.isLast then
        discard client.shutdown.toIO
        return { desk with sockets := desk.sockets.erase dispatch.socket }
      else return desk) desk

/-- Takes what happens at a socket, and says whether the socket is still served. -/
def happen (desk : Std.Mutex Desk) (socket : Nat) (arrival : Arrival) : IO Bool := do
  let time ← now
  desk.atomically do
    let state ← get
    let (dispatches, service) := state.service.step time.text socket arrival
    set (← send { state with service } dispatches)
    return service.serves socket

/-- Takes a new socket, and gives its number. -/
def enter (desk : Std.Mutex Desk) (client : TCP.Socket.Client) : IO Nat :=
  desk.atomically do
    let state ← get
    set { state with sockets := state.sockets.put state.next client, next := state.next + 1 }
    return state.next

/-- Reads from a socket until it ends or is no longer served. -/
partial def readSocket (desk : Std.Mutex Desk) (client : TCP.Socket.Client) (socket : Nat) :
    Async Unit := do
  let arrival : Arrival ←
    try
      match ← client.recv? 65536 with
      | some bytes => pure (.bytes bytes.toList)
      | none => pure .ended
    catch _ => pure .broken
  let served ← happen desk socket arrival
  if served then readSocket desk client socket

/-- Accepts sockets of one listener. After a failure it tries again a little later. -/
partial def acceptSockets (desk : Std.Mutex Desk) (listener : Listener)
    (server : TCP.Socket.Server) : Async Unit := do
  let client? ← try some <$> server.accept catch _ => pure none
  match client? with
  | some client =>
    let socket ← enter desk client
    discard (happen desk socket (.accepted listener))
    background (readSocket desk client socket)
  | none => sleep 10
  acceptSockets desk listener server

end Desk

def serve (arguments : CommandLine.HubArguments) (filter : LogFilter) : IO UInt32 := do
  let webSocket ← bind arguments.webSocketListen
  let tcp ← bind arguments.listen
  let outcome := Program.runHub arguments filter false fun listener _ =>
    match listener with
    | .webSocket => webSocket.map Bound.address
    | .tcp => tcp.map Bound.address
  report outcome
  match webSocket, tcp with
  | .ok webSocket, .ok tcp =>
    let desk ← Std.Mutex.new ({} : Desk)
    discard (Desk.acceptSockets desk .webSocket webSocket.server).toIO
    discard (Desk.acceptSockets desk .tcp tcp.server).toIO
    let interruption ← Signal.Waiter.mk .sigint false
    discard (← interruption.wait).block
    let connections ← desk.atomically do return (← get).sockets.entries.length
    log (← IO.getStdout) (Program.logged filter (Program.closingLines connections))
    return 0
  | _, _ => return 1

end ChatHub.Host
