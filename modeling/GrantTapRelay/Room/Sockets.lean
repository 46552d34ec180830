import GrantTapRelay.Relay.Frames
import GrantTapRelay.Relay.RoomQueue
import GrantTapRelay.RetainedState.Worker
import GrantTapRelay.TaskDispatch.Offers

/-!
# The sockets of a Worker room

What the Durable Object of a room keeps of its sockets, and how it sends and closes:
`src/relay/roomSockets.js`, `src/roomPresence/worker.js` and the socket side of `src/relay/room.js`.
A `RoomRelay` is one object with its storage and a trace of what it did; `routeRoom` passes it the
requests of its own room only, so the room is a part of `RoomConfig`.

The attachment of a socket outlives the memory of the object: `socketPolicy` and `taskOffers` do
not (`RoomSocket.forget`).
-/

namespace GrantTap

open Js

/-! ## State -/

/-- The attachment of a socket, and what `socketPolicy` and `taskOffers` hold for it. -/
structure RoomSocket where
  role : Option Role
  recipientKeyId : Option Str
  relayControl : Bool
  ingressFlow : Bool
  ingressReceived : ℕ
  presenceEnabled : Bool
  taskDispatch : Bool
  window : FrameWindow
  identity : Option Str
  offered : Offered
  /-- A member of `getWebSockets()`. -/
  listed : Bool

/-- The socket once the memory of the object is gone. -/
def RoomSocket.forget (s : RoomSocket) : RoomSocket :=
  { s with window := ⟨none, 0⟩, identity := none, offered := .empty }

/-- What the object does, in the order it does it; `mail` are the mailboxes at that moment. -/
inductive RoomEvent
  /-- A frame is passed to `send` of the socket. -/
  | sent (id : ℕ) (socket : RoomSocket) (frame : SocketFrame) (mail : RoomQueues)
  /-- An envelope passed every check. -/
  | accepted (id : ℕ) (socket : RoomSocket) (raw : Str) (envelope : Json)
  /-- An envelope was offered to a mailbox. -/
  | queued (id : ℕ) (raw : Str) (envelope : Json) (result : QueueResult)
  | acknowledged (id : ℕ) (deliveryId : Str)
  | struck (id : ℕ) (key : Str)
  | closed (id : ℕ) (close : SocketClose)
  | woken (envelope : Json)

/-- The storage that the handlers of sockets use. -/
structure RoomDisk where
  mail : RoomQueues
  retained : WorkerStates
  presence : Option (List PresenceRow)
  tasks : { s : WorkerTasks // s.Named }

structure RoomRelay where
  disk : RoomDisk
  coolDowns : CoolDownRegistry
  sockets : Table ℕ RoomSocket
  trace : List RoomEvent

/-- What the object is started with. -/
structure RoomConfig where
  room : Str
  parse : Str → Option Json
  sha256 : Str → Str
  limits : CoolDownLimits

/-- The parts of a handler that await storage. -/
inductive RoomStage
  | acknowledge
  | presence
  | states
  | mailbox
  | offers
  | alarm
  | retain
  | queue

/-- What a handler finds outside the object: whether `send` throws, which the length of the trace
names, where a storage failure stops it, and what the clock shows at each part. -/
structure RoomChoice where
  throws : ℕ → Bool
  stops : RoomStage → Bool
  clock : RoomStage → ℤ

namespace RoomRelay

def empty : RoomRelay where
  disk := ⟨.empty, .empty, none, ⟨.empty, WorkerTasks.named_empty⟩⟩
  coolDowns := .empty
  sockets := .empty
  trace := []

/-! ## Sending -/

def record (w : RoomRelay) (e : RoomEvent) : RoomRelay := { w with trace := w.trace ++ [e] }

def setSocket (w : RoomRelay) (id : ℕ) (s : RoomSocket) : RoomRelay :=
  { w with sockets := w.sockets.put id s }

/-- `ws.send(text)` -/
def emit (w : RoomRelay) (id : ℕ) (frame : SocketFrame) : RoomRelay :=
  match w.sockets.get? id with
  | none => w
  | some s => w.record (.sent id s frame w.disk.mail)

/-- The frames of a loop that the first throw leaves: whether every send returned. -/
def emitAll (choice : RoomChoice) (id : ℕ) : RoomRelay → List SocketFrame → Bool × RoomRelay
  | w, [] => (true, w)
  | w, frame :: frames =>
    if choice.throws w.trace.length then (false, w.emit id frame)
    else emitAll choice id (w.emit id frame) frames

/-- `getWebSockets()` -/
def members (w : RoomRelay) : List (ℕ × RoomSocket) := w.sockets.rows.filter fun r => r.2.listed

/-! ## Presence -/

/-- The turn of one socket in `noteWorkerPresence`. -/
def presentTo (message : ControlFrame) (w : RoomRelay) (peer : ℕ × RoomSocket) : RoomRelay :=
  if peer.2.presenceEnabled && peer.2.role = some .phone then w.emit peer.1 (.control message)
  else w

def noteWorkerPresence (w : RoomRelay) (cfg : RoomConfig) (id : ℕ) (closed : Bool) (now : ℤ) :
    RoomRelay :=
  match w.sockets.get? id with
  | none => w
  | some s =>
    let rows := updatePresence (w.disk.presence.getD []) s.role s.recipientKeyId now
    let w := { w with disk := { w.disk with presence := some rows } }
    let peers := w.members.filter fun peer => peer.1 ≠ id || !closed
    let message := presenceMessage cfg.room rows
      (peers.map fun peer => (peer.2.role, peer.2.recipientKeyId)) now
    peers.foldl (presentTo message) w

/-! ## Policy -/

/-- `frameIdentity` -/
def frameIdentity (cfg : RoomConfig) (known : RoomSocket) (envelope : Value) : Option Str :=
  socketIdentity cfg.room known.recipientKeyId
    (match known.role with
      | some role => some role
      | none => roleOf? (envelope.get (lit "from")))
    (envelope.get (lit "senderId")).str?

/-- `socketState(room, ws).identity ?? frameIdentity(known, envelope)` -/
def closeIdentity (cfg : RoomConfig) (known : RoomSocket) (envelope : Value) : Option Str :=
  match known.identity with
  | some key => some key
  | none => frameIdentity cfg known envelope

/-- `closeRoomSocket`; a socket that was closed before is struck and closed again. -/
def closeRoomSocket (w : RoomRelay) (cfg : RoomConfig) (id : ℕ) (known : RoomSocket)
    (token : CloseToken) (envelope : Value) (now : ℤ) : RoomRelay :=
  let identity := closeIdentity cfg known envelope
  let r := applyPolicyClose token identity w.coolDowns cfg.limits now
  let w := match struckKey token identity with
    | some key => w.record (.struck id key)
    | none => w
  ({ w with coolDowns := r.2 }).record (.closed id r.1)

/-- A close records its strike and itself, and touches the cool-downs only. -/
theorem closeRoomSocket_eq (w : RoomRelay) (cfg : RoomConfig) (id : ℕ) (known : RoomSocket)
    (token : CloseToken) (envelope : Value) (now : ℤ) :
    ∃ close, w.closeRoomSocket cfg id known token envelope now =
      { w with
        coolDowns := (applyPolicyClose token (closeIdentity cfg known envelope) w.coolDowns
          cfg.limits now).2
        trace := w.trace ++ ((struckKey token (closeIdentity cfg known envelope)).toList.map
          (RoomEvent.struck id) ++ [.closed id close]) } := by
  refine ⟨(applyPolicyClose token (closeIdentity cfg known envelope) w.coolDowns cfg.limits now).1,
    ?_⟩
  unfold closeRoomSocket
  dsimp only
  cases struckKey token (closeIdentity cfg known envelope) with
  | none => rfl
  | some key => simp only [record, Option.toList_some, List.map_cons, List.map_nil,
      List.append_assoc, List.cons_append, List.nil_append]

/-- `refuseCoolingRoomSocket`: whether the frame is refused, and the object after it. -/
def refuseCoolingRoomSocket (w : RoomRelay) (cfg : RoomConfig) (id : ℕ) (known : RoomSocket)
    (envelope : Json) (now : ℤ) : Bool × RoomRelay :=
  let r := w.coolDowns.remaining cfg.limits (frameIdentity cfg known (some envelope)) false now
  let w := { w with coolDowns := r.2 }
  if r.1 ≤ 0 then (false, w) else (true, w.record (.closed id (refuseCoolingFrame r.1)))

/-- Expired reliable frames are neither stored nor forwarded; the sender's socket stays open. -/
def dropRoomMessage (w : RoomRelay) (id : ℕ) (known : RoomSocket) (envelope : Json)
    (reason : DropReason) : RoomRelay :=
  match deliveryId? envelope with
  | some deliveryId =>
    if known.relayControl then w.emit id (.control (.dropped deliveryId reason)) else w
  | none => w

end RoomRelay

end GrantTap
