import GrantTapRelay.Room.Sockets

/-!
# The Worker room

`webSocketMessage` of `src/relay/room.js` and the other events of a room, as a transition system.
Up to the wake, a message awaits storage only, and the input gate of the object delivers no other
event meanwhile, so a message is one step. The environment chooses the events, their times, which
sends throw, and where a storage failure ends a handler (`RoomChoice`).

An object that is not used is evicted, or hibernates: `restart` keeps its storage and the
attachments of its sockets.
-/

namespace GrantTap

open Js

/-- A request to upgrade that is authorized and names a valid room. -/
structure RoomUpgrade where
  recipientKeyId : Option Str
  relayControl : Bool
  ingressFlow : Bool
  presenceEnabled : Bool
  taskDispatch : Bool

namespace RoomRelay

/-! ## The first envelope of a socket -/

/-- `ws.serializeAttachment({ ...known, role })` and `registerRoomSocketIdentity` -/
def registered (cfg : RoomConfig) (known : RoomSocket) (role : Role) (envelope : Json) :
    RoomSocket :=
  { known with role := some role, identity := frameIdentity cfg known (some envelope) }

/-- The retained state of a phone that comes back. -/
def replayStates (w : RoomRelay) (choice : RoomChoice) (id : ℕ) (known : RoomSocket)
    (role : Role) : Bool × RoomRelay :=
  if role ≠ .phone then (true, w)
  else if choice.stops .states then (false, w)
  else emitAll choice id w ((w.disk.retained.list known.recipientKeyId (choice.clock .states)).map
    fun item => .retained item.raw)

/-- `flushTo`; its sends come before its write. -/
def flushMailbox (w : RoomRelay) (cfg : RoomConfig) (choice : RoomChoice) (id : ℕ)
    (known : RoomSocket) (role : Role) : Bool × RoomRelay :=
  if choice.stops .mailbox then (false, w)
  else
    let accepts := fun i => !choice.throws (w.trace.length + i)
    let r := w.disk.mail.flushTo cfg.parse role ⟨known.recipientKeyId, accepts⟩
      (choice.clock .mailbox)
    let w := r.2.foldl (fun w raw => w.emit id (.mailbox raw)) w
    (true, { w with disk := { w.disk with mail := r.1 } })

/-- The turn of one socket in `offerRoomTaskJobs`; `due` are the jobs that are passed to `send`,
which remembers none of them when it throws. -/
def offerTo (cfg : RoomConfig) (choice : RoomChoice) (w : RoomRelay) (peer : ℕ × RoomSocket) :
    RoomRelay :=
  match w.sockets.get? peer.1 with
  | none => w
  | some s =>
    if s.role = some .machine && s.taskDispatch then
      let offer := fun send => offerTaskJobs (WorkerTasks.store cfg.sha256)
        ⟨cfg.room, s.recipientKeyId⟩ send w.disk.tasks s.offered (choice.clock .offers)
      let due := (offer fun _ => true).sent
      let r := offer fun _ => !choice.throws w.trace.length
      let w := ({ w with disk := { w.disk with tasks := r.state } }).setSocket peer.1
        { s with offered := r.offered }
      due.foldl (fun w job => w.emit peer.1 (.task job)) w
    else w

def offerRoomTaskJobs (w : RoomRelay) (cfg : RoomConfig) (choice : RoomChoice) : RoomRelay :=
  w.members.foldl (offerTo cfg choice) w

/-- What a socket is sent when it registers its role; `false` when the handler ends. -/
def greet (w : RoomRelay) (cfg : RoomConfig) (choice : RoomChoice) (id : ℕ) (known : RoomSocket)
    (role : Role) : Bool × RoomRelay :=
  if choice.stops .presence then (false, w)
  else
    match (w.noteWorkerPresence cfg id false (choice.clock .presence)).replayStates choice id known
        role with
    | (false, w) => (false, w)
    | (true, w) =>
      match w.flushMailbox cfg choice id known role with
      | (false, w) => (false, w)
      | (true, w) =>
        if role = .machine && known.taskDispatch then
          if choice.stops .offers then (false, w)
          else (!choice.stops .alarm, w.offerRoomTaskJobs cfg choice)
        else (true, w)

/-! ## An accepted envelope -/

/-- `targetsFor` -/
def targetsFor (w : RoomRelay) (id : ℕ) (envelope : Json) : List (ℕ × RoomSocket) :=
  (w.members.filter fun peer => peer.1 ≠ id).filter fun peer =>
    addresses envelope peer.2.role && matchesRecipient envelope peer.2.recipientKeyId

/-- The last part of `webSocketMessage`: live forwarding and the wake. -/
def forward (w : RoomRelay) (targets : List (ℕ × RoomSocket)) (raw : Str) (envelope : Json) :
    RoomRelay :=
  let w := targets.foldl (fun w target => w.emit target.1 (.live raw)) w
  if (envelope.get (lit "to")).is (lit "phone") ∧
      (envelope.get (lit "wake")).same (some (.bool true)) then w.record (.woken envelope)
  else w

/-- The receipt of an explicit submission: whether its send returned. -/
def sendReceipt (w : RoomRelay) (choice : RoomChoice) (id : ℕ) (known : RoomSocket)
    (envelope : Json) (deliveryId : Str) : Bool × RoomRelay :=
  if known.relayControl && (envelope.get (lit "from")).is (lit "phone") &&
      (envelope.get (lit "to")).is (lit "machine") && isDurableSubmission (some deliveryId) then
    emitAll choice id w [.control (.stored deliveryId)]
  else (true, w)

/-- The part of `webSocketMessage` after the answer of the mailbox. -/
def settleEnvelope (w : RoomRelay) (cfg : RoomConfig) (choice : RoomChoice) (id : ℕ)
    (known : RoomSocket) (raw : Str) (envelope : Json) (targets : List (ℕ × RoomSocket))
    (deliveryId : Str) (result : QueueResult) : RoomRelay :=
  match queueOutcome result (some deliveryId) with
  | .close token => w.closeRoomSocket cfg id known token (some envelope) (choice.clock .queue)
  | .drop reason => w.dropRoomMessage id known envelope reason
  | .forward =>
    match w.sendReceipt choice id known envelope deliveryId with
    | (false, w) => w
    | (true, w) => w.forward targets raw envelope

/-- The part of `webSocketMessage` that offers an envelope to a mailbox. -/
def queueEnvelope (w : RoomRelay) (cfg : RoomConfig) (choice : RoomChoice) (id : ℕ)
    (known : RoomSocket) (raw : Str) (envelope : Json) : RoomRelay :=
  let targets := w.targetsFor id envelope
  match roleOf? (envelope.get (lit "to")), deliveryId? envelope with
  | some role, some deliveryId =>
    if choice.stops .queue then w.dropRoomMessage id known envelope .storageUnavailable
    else
      let r := w.disk.mail.queue role raw (some deliveryId) (envelope.get (lit "expiresAt")).int?
        (choice.clock .queue)
      (({ w with disk := { w.disk with mail := r.1 } }).record
        (.queued id raw envelope r.2)).settleEnvelope cfg choice id known raw envelope targets
          deliveryId r.2
  | _, _ => w.forward targets raw envelope

/-- The part of `webSocketMessage` that retains the envelope; `known` has its role. -/
def retainEnvelope (w : RoomRelay) (cfg : RoomConfig) (choice : RoomChoice) (id : ℕ)
    (known : RoomSocket) (raw : Str) (envelope : Json) : RoomRelay :=
  let w := w.record (.accepted id known raw envelope)
  if (envelope.get (lit "stateKey")).truthy then
    if choice.stops .retain then w
    else
      match w.disk.retained.put envelope raw (choice.clock .retain)
          (w.disk.presence.getD []) with
      | .error _ => w
      | .ok retained => ({ w with disk := { w.disk with retained := retained } }).queueEnvelope cfg
          choice id known raw envelope
  else w.queueEnvelope cfg choice id known raw envelope

/-- The part of `webSocketMessage` for an envelope without a problem: it registers the role of the
socket, or checks it. -/
def routeEnvelope (w : RoomRelay) (cfg : RoomConfig) (choice : RoomChoice) (id : ℕ)
    (known : RoomSocket) (raw : Str) (envelope : Json) (now : ℤ) : RoomRelay :=
  match roleOf? (envelope.get (lit "from")), known.role with
  | none, _ => w
  | some role, none =>
    match w.refuseCoolingRoomSocket cfg id known envelope now with
    | (true, w) => w
    | (false, w) =>
      let s := registered cfg known role envelope
      match (w.setSocket id s).greet cfg choice id s role with
      | (false, w) => w
      | (true, w) => w.retainEnvelope cfg choice id s raw envelope
  | some role, some current =>
    if current = role then w.retainEnvelope cfg choice id known raw envelope else w

/-! ## Messages -/

/-- `noteIngressFrame`: the state of the socket, and the object after its receipt. -/
def noteIngressFrame (w : RoomRelay) (id : ℕ) (known : RoomSocket) : RoomSocket × RoomRelay :=
  if known.ingressFlow then
    let known := { known with ingressReceived := known.ingressReceived + 1 }
    let w := w.setSocket id known
    (known, if known.ingressReceived % RECEIPT_EVERY = 0 then
      w.emit id (.control (.ingress known.ingressReceived)) else w)
  else (known, w)

/-- `relay.ack` -/
def acknowledgeFrame (w : RoomRelay) (choice : RoomChoice) (id : ℕ) (known : RoomSocket)
    (deliveryId : Str) : RoomRelay :=
  match known.role with
  | none => w
  | some role =>
    if choice.stops .acknowledge then w
    else ({ w with disk := { w.disk with mail := w.disk.mail.acknowledge role deliveryId } }).record
      (.acknowledged id deliveryId)

/-- The part of `webSocketMessage` for a parsed frame. -/
def handleFrame (w : RoomRelay) (cfg : RoomConfig) (choice : RoomChoice) (id : ℕ)
    (known : RoomSocket) (raw : Str) (envelope : Json) (now : ℤ) : RoomRelay :=
  let (known, w) := if (envelope.get (lit "type")).is (lit "relay.admission") then (known, w)
    else w.noteIngressFrame id known
  match relayAck? envelope with
  | some deliveryId => w.acknowledgeFrame choice id known deliveryId
  | none =>
    match envelopeProblem (some envelope) (some (.str cfg.room)) now none with
    | .error _ => w
    | .ok (some .expired) => w.dropRoomMessage id known envelope .expired
    | .ok (some .invalid) => w
    | .ok none => w.routeEnvelope cfg choice id known raw envelope now

def MAX_WEBSOCKET_MESSAGE_BYTES : ℕ := 32 * 1024 * 1024

def webSocketMessage (w : RoomRelay) (cfg : RoomConfig) (choice : RoomChoice) (id : ℕ) (raw : Str)
    (now : ℤ) : RoomRelay :=
  match w.sockets.get? id with
  | none => w
  | some known =>
    if MAX_WEBSOCKET_MESSAGE_BYTES < utf8Length raw then
      w.closeRoomSocket cfg id known .oversize none now
    else
      let (accepted, window) := acceptSocketFrame known.window now
      let known := { known with window := window }
      let w := w.setSocket id known
      if !accepted then w.closeRoomSocket cfg id known .rateLimit none now
      else
        match cfg.parse raw with
        | none => w
        | some envelope => w.handleFrame cfg choice id known raw envelope now

/-! ## The other events -/

/-- The socket of an upgrade. -/
def newSocket (q : RoomUpgrade) : RoomSocket where
  role := none
  recipientKeyId := q.recipientKeyId
  relayControl := q.relayControl
  ingressFlow := q.relayControl && q.ingressFlow
  ingressReceived := 0
  presenceEnabled := q.presenceEnabled
  taskDispatch := q.taskDispatch
  window := ⟨none, 0⟩
  identity := none
  offered := .empty
  listed := true

/-- `acceptWebSocket` after the room credential is checked; an id that is taken is no new
socket. -/
def acceptWebSocket (w : RoomRelay) (cfg : RoomConfig) (id : ℕ) (q : RoomUpgrade) (now : ℤ) :
    RoomRelay :=
  if q.recipientKeyId.any fun key => !isDigest key then w
  else
    let r := w.coolDowns.remaining cfg.limits (upgradeIdentity cfg.room q.recipientKeyId) false now
    let w := { w with coolDowns := r.2 }
    if 0 < r.1 ∨ (w.sockets.get? id).isSome then w
    else
      let s := newSocket q
      let w := w.setSocket id s
      if s.relayControl then w.emit id (.control (.capabilities s.ingressFlow)) else w

/-- The socket is no member of `getWebSockets()` any more. -/
def leave (w : RoomRelay) (id : ℕ) : RoomRelay :=
  match w.sockets.get? id with
  | none => w
  | some s => w.setSocket id { s with listed := false }

/-- The memory of the object is gone; its storage and the attachments are not. -/
def restart (w : RoomRelay) : RoomRelay :=
  { w with coolDowns := .empty, sockets := w.sockets.map fun _ s => s.forget }

end RoomRelay

/-- The events of a room. -/
inductive RoomLabel
  | connect (id : ℕ) (request : RoomUpgrade)
  | message (id : ℕ) (raw : Str)
  /-- `webSocketClose` and `webSocketError` -/
  | closed (id : ℕ)
  | leave (id : ℕ)
  /-- The part of `alarm`, and of a stored job, that offers jobs. -/
  | offers
  | tasks (call : TaskCall)
  | restart

/-- An event with its time and what it finds. -/
structure RoomInput where
  now : ℤ
  choice : RoomChoice
  label : RoomLabel

namespace RoomRelay

/-- One event. -/
def next (w : RoomRelay) (cfg : RoomConfig) (i : RoomInput) : RoomRelay :=
  match i.label with
  | .connect id request => w.acceptWebSocket cfg id request i.now
  | .message id raw => w.webSocketMessage cfg i.choice id raw i.now
  | .closed id => w.noteWorkerPresence cfg id true i.now
  | .leave id => w.leave id
  | .offers => w.offerRoomTaskJobs cfg i.choice
  | .tasks call => { w with disk := { w.disk with
      tasks := ((WorkerTasks.store cfg.sha256).call w.disk.tasks i.now call).2 } }
  | .restart => w.restart

/-- Events lead from one state to the next; their times are in the inputs. -/
def Step (cfg : RoomConfig) (w : RoomRelay) (i : RoomInput) (w' : RoomRelay) : Prop :=
  w' = w.next cfg i

end RoomRelay

/-! ## A calm environment -/

section Sample

/-- Nothing fails, and every await ends at once. -/
def calmRoom (now : ℤ) : RoomChoice where
  throws _ := false
  stops _ := false
  clock _ := now

/-- An upgrade of a client that knows receipts. -/
def sampleRequest (recipientKeyId : Option Str) : RoomUpgrade where
  recipientKeyId := recipientKeyId
  relayControl := true
  ingressFlow := false
  presenceEnabled := false
  taskDispatch := false

end Sample

end GrantTap
