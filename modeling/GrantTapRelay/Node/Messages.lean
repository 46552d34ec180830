import GrantTapRelay.Node.Sockets

/-!
# The Node relay

`src/node/socket-messages.js`, `src/node/managed-connection.js` and the events of
`src/node/server.js`, as a transition system. `handleSocketMessage` is one step: it runs without an
interruption. The environment chooses the events, their times, what the library finds at each send,
and whether a table refuses a write (`NodeChoice`).

An exception that no handler catches ends the process; a new one starts with the same tables
(`restart`). The events on tables that sockets never read are left out.
-/

namespace GrantTap

open Js

/-- What a step finds outside the relay. -/
structure NodeChoice extends SendChoice where
  /-- `retainedState.put` throws for a storage failure. -/
  retainFails : Bool
  /-- `store.enqueue` throws; `true`: after it has dropped the expired rows. -/
  enqueueFails : Option Bool

/-- A request to upgrade, checked at `checkedAt`; `digest` is that of its room credential. -/
structure NodeUpgrade where
  room : Str
  authorized : Bool
  digest : Str
  ticketHeader : Option Str
  recipientKeyId : Option Str
  relayControl : Bool
  ingressFlow : Bool
  presenceEnabled : Bool
  taskDispatch : Bool
  checkedAt : ℤ
  room_valid : authorized = true → validRoom room = true

namespace NodeRelay

/-! ## Rate and renewal -/

def MAX_ACK_BYTES : ℕ := 1536

/-- `responses.consume`: whether the frame uses an allowance, and the allowances after it. -/
def consume (parse : Str → Option Json) (allowances : Table Str ℤ) (raw : Str) (now : ℤ) :
    Bool × Table Str ℤ :=
  if MAX_ACK_BYTES < utf8Length raw then (false, allowances)
  else
    match (parse raw).bind fun frame =>
        (relayAck? frame).filter fun _ => frame.keys.length = 2 with
    | none => (false, allowances)
    | some deliveryId =>
      match allowances.get? deliveryId with
      | none => (false, allowances)
      | some expiresAt => (decide (now < expiresAt), allowances.erase deliveryId)

/-- Whether a frame is within the rate of its socket, and the socket after it. -/
def countFrame (parse : Str → Option Json) (s : NodeSocket) (raw : Str) (now : ℤ) :
    Bool × NodeSocket :=
  let (excused, allowances) := consume parse s.allowances raw now
  let s := { s with allowances := allowances }
  if excused then (true, s)
  else
    let (accepted, window) := acceptSocketFrame s.window now
    (accepted, { s with window := window })

/-- What a renewal may replace. -/
def renewable (s : NodeSocket) (current next : ManagedTicket) : Bool :=
  next.kind = current.kind && s.role.all (fun role => role = current.kind.role) &&
    Value.same (some next.accountId) (some current.accountId) &&
    Value.same (some next.computerId) (some current.computerId) &&
    next.publicKey = current.publicKey && current.expiresAt < next.expiresAt

/-- `renewManagedConnection` for a `relay.admission` frame. -/
def renewManagedConnection (w : NodeRelay) (cfg : NodeConfig) (id : ℕ) (s : NodeSocket)
    (value : Json) (now : ℤ) : NodeRelay :=
  if !s.commercial then w
  else
    let next := cfg.admission.bind fun authority =>
      readManagedTicket authority (value.get (lit "ticket")) s.room now
    match next, s.ticket with
    | some next, some current =>
      if renewable s current next then
        let w := w.update id fun s => { s with ticket := some next }
        (w.record (.renewed id current next)).emit id (.admissionAccepted next.expiresAt)
      else w.closeForPolicy cfg.limits id .admissionRenewalRejected none now
    | _, _ => w.closeForPolicy cfg.limits id .admissionRenewalRejected none now

/-- `noteIngressFrame` -/
def noteIngressFrame (w : NodeRelay) (id : ℕ) (s : NodeSocket) : NodeRelay :=
  if s.ingressFlow then
    let received := s.ingressReceived + 1
    let w := w.update id fun s => { s with ingressReceived := received }
    if received % RECEIPT_EVERY = 0 then w.emit id (.ingress received) else w
  else w

/-! ## Routing -/

/-- Expired or room-less reliable frames are neither stored nor forwarded; the socket stays open. -/
def dropMessage (w : NodeRelay) (id : ℕ) (envelope : Json) (reason : DropReason) : NodeRelay :=
  match w.sockets.get? id with
  | none => w
  | some s =>
    match deliveryId? envelope with
    | some deliveryId =>
      if s.relayControl && s.isOpen then w.emit id (.dropped deliveryId reason) else w
    | none => w

/-- The rows that a replay sends to a socket that registers a role. -/
def replayRows (w : NodeRelay) (parse : Str → Option Json) (s : NodeSocket) (role : Role)
    (now : ℤ) : List ReplayRow :=
  let saved := if role = .phone then w.disk.retained.list s.room s.recipientKeyId now else []
  let queued := (w.disk.store.queue s.room role now).2
  let rows := saved.map (fun raw => ReplayRow.mk true raw none) ++
    queued.map fun item => ReplayRow.mk false item.raw item.deliveryId
  rows.filter fun row => matchesQueuedRecipient parse row.raw s.recipientKeyId

/-- The role and the identity that a first envelope gives to its socket. -/
def registered (s : NodeSocket) (role : Role) (envelope : Json) : NodeSocket :=
  { s with
    role := some role
    identity := identityOf { s with role := some role } (some envelope) }

/-- `registerRole`; reading the mailbox drops its expired rows. -/
def registerRole (w : NodeRelay) (cfg : NodeConfig) (choice : SendChoice) (id : ℕ)
    (s : NodeSocket) (role : Role) (envelope : Json) (now : ℤ) : NodeRelay :=
  let w := w.update id fun s => registered s role envelope
  let rows := w.replayRows cfg.parse s role now
  let w := { w with disk := { w.disk with store := (w.disk.store.queue s.room role now).1 } }
  w.replay cfg.parse choice id rows now

/-- The turn of one socket in the forwarding of an envelope. -/
def forwardTo (choice : SendChoice) (id : ℕ) (raw : Str) (envelope : Json) (now : ℤ)
    (w : NodeRelay) (target : ℕ × NodeSocket) : NodeRelay :=
  if target.1 ≠ id ∧ (w.sockets.get? target.1).any (·.isOpen) = true ∧
      addresses envelope target.2.role = true ∧
      matchesRecipient envelope target.2.recipientKeyId = true then
    (w.deliver choice target.1 (.live raw) none (deliveryId? envelope) now).2
  else w

/-- The last part of `handleSocketMessage`: live forwarding and the wake. -/
def forward (w : NodeRelay) (choice : SendChoice) (id : ℕ) (room : Str) (raw : Str)
    (envelope : Json) (now : ℤ) : NodeRelay :=
  let w := (w.members room).foldl (forwardTo choice id raw envelope now) w
  if (envelope.get (lit "to")).is (lit "phone") ∧
      (envelope.get (lit "wake")).same (some (.bool true)) then
    w.record (.woken room envelope w.disk.store)
  else w

/-- The receipt of an explicit submission. -/
def sendReceipt (w : NodeRelay) (choice : SendChoice) (id : ℕ) (s : NodeSocket) (envelope : Json)
    (deliveryId : Str) (now : ℤ) : NodeRelay :=
  if s.relayControl && (envelope.get (lit "from")).is (lit "phone") &&
      (envelope.get (lit "to")).is (lit "machine") && isDurableSubmission (some deliveryId) &&
      (w.sockets.get? id).any (·.isOpen) then
    (w.deliver choice id (.control (.stored deliveryId)) none none now).2
  else w

/-- The part of `handleSocketMessage` after the answer of the mailbox. -/
def settleEnvelope (w : NodeRelay) (cfg : NodeConfig) (choice : SendChoice) (id : ℕ)
    (s : NodeSocket) (raw : Str) (envelope : Json) (deliveryId : Str) (result : QueueResult)
    (now : ℤ) : NodeRelay :=
  match queueOutcome result (some deliveryId) with
  | .close token => w.closeForPolicy cfg.limits id token none now
  | .drop reason => w.dropMessage id envelope reason
  | .forward =>
    (w.sendReceipt choice id s envelope deliveryId now).forward choice id s.room raw envelope now

/-- The part of `handleSocketMessage` that offers an envelope to a mailbox. -/
def enqueueEnvelope (w : NodeRelay) (cfg : NodeConfig) (choice : NodeChoice) (id : ℕ)
    (s : NodeSocket) (raw : Str) (envelope : Json) (now : ℤ) : NodeRelay :=
  match roleOf? (envelope.get (lit "to")), deliveryId? envelope with
  | some role, some deliveryId =>
    match choice.enqueueFails with
    | some cleaned =>
      let store := if cleaned then (w.disk.store.queue s.room role now).1 else w.disk.store
      ({ w with disk := { w.disk with store := store } }).dropMessage id envelope
        .storageUnavailable
    | none =>
      let r := w.disk.store.enqueue s.room role raw (some deliveryId)
        (envelope.get (lit "expiresAt")).int? now
      (({ w with disk := { w.disk with store := r.1 } }).record
        (.queued id raw envelope r.2)).settleEnvelope cfg choice.toSendChoice id s raw envelope
          deliveryId r.2 now
  | _, _ => w.forward choice.toSendChoice id s.room raw envelope now

/-- The device of a socket is noted at most twice a minute. -/
def noteDevice (w : NodeRelay) (id : ℕ) (s : NodeSocket) (now : ℤ) : NodeRelay :=
  if s.presenceAt.all fun seen => seen = 0 || 30000 ≤ now - seen then
    (w.notePresence s.room s.role s.recipientKeyId now).update id fun s =>
      { s with presenceAt := some now }
  else w

/-- The part of `handleSocketMessage` that notes the device and retains the envelope; `s` has its
role. -/
def retainEnvelope (w : NodeRelay) (cfg : NodeConfig) (choice : NodeChoice) (id : ℕ)
    (s : NodeSocket) (raw : Str) (envelope : Json) (now : ℤ) : NodeRelay :=
  let w := (w.record (.accepted id s raw envelope now)).noteDevice id s now
  if (envelope.get (lit "stateKey")).truthy then
    if choice.retainFails then w.dropMessage id envelope .storageUnavailable
    else
      match w.disk.retained.put s.room envelope raw now
          ((w.disk.presence.get? s.room).getD []) with
      | .error _ => w.dropMessage id envelope .storageUnavailable
      | .ok retained => ({ w with disk := { w.disk with retained := retained } }).enqueueEnvelope
          cfg choice id s raw envelope now
  else w.enqueueEnvelope cfg choice id s raw envelope now

/-- The part of `handleSocketMessage` that registers the role of the socket, or checks it. -/
def acceptEnvelope (w : NodeRelay) (cfg : NodeConfig) (choice : NodeChoice) (id : ℕ)
    (s : NodeSocket) (role : Role) (raw : Str) (envelope : Json) (now : ℤ) : NodeRelay :=
  match s.role with
  | none =>
    let w := w.registerRole cfg choice.toSendChoice id s role envelope now
    let w := w.notePresence s.room (some role) s.recipientKeyId now
    let w := w.publishNodePresence choice.toSendChoice s.room now
    w.retainEnvelope cfg choice id (registered s role envelope) raw envelope now
  | some current =>
    if current = role then w.retainEnvelope cfg choice id s raw envelope now else w

/-- The admission checks of `handleSocketMessage` on an envelope. -/
def admitEnvelope (w : NodeRelay) (cfg : NodeConfig) (choice : NodeChoice) (id : ℕ)
    (s : NodeSocket) (role : Role) (raw : Str) (envelope : Json) (now : ℤ) : NodeRelay :=
  if s.commercial && s.ticket.any fun t => t.kind.role ≠ role then
    w.closeForPolicy cfg.limits id .admissionRequired (some envelope) now
  else if s.commercial && role = .machine && !admittedSocket s.ticket now then
    w.closeForPolicy cfg.limits id (admissionCloseToken envelope) (some envelope) now
  else w.acceptEnvelope cfg choice id s role raw envelope now

/-- The part of `handleSocketMessage` for an envelope without a problem. -/
def routeEnvelope (w : NodeRelay) (cfg : NodeConfig) (choice : NodeChoice) (id : ℕ)
    (s : NodeSocket) (raw : Str) (envelope : Json) (now : ℤ) : NodeRelay :=
  match roleOf? (envelope.get (lit "from")) with
  | none => w
  | some role =>
    if s.role.isNone then
      let (refused, w) := w.refuseCooling cfg.limits id s envelope now
      if refused then w else w.admitEnvelope cfg choice id s role raw envelope now
    else w.admitEnvelope cfg choice id s role raw envelope now

/-! ## Messages -/

/-- The process ends and a new one starts with the same tables. -/
def restart (w : NodeRelay) : NodeRelay :=
  { w with
    coolDowns := .empty
    sockets := w.sockets.map fun _ s => { s with isOpen := false, joined := false }
    flights := .empty }

/-- `relay.ack` -/
def acknowledgeFrame (w : NodeRelay) (id : ℕ) (s : NodeSocket) (deliveryId : Str) (now : ℤ) :
    NodeRelay :=
  match s.role with
  | none => w
  | some role =>
    let store := w.disk.store.acknowledge s.room role deliveryId now
    ({ w with disk := { w.disk with store := store } }).record (.acknowledged id deliveryId)

/-- The part of `handleSocketMessage` for a parsed frame. -/
def handleFrame (w : NodeRelay) (cfg : NodeConfig) (choice : NodeChoice) (id : ℕ) (s : NodeSocket)
    (raw : Str) (envelope : Json) (now : ℤ) : NodeRelay :=
  if (envelope.get (lit "type")).is (lit "relay.admission") then
    w.renewManagedConnection cfg id s envelope now
  else
    let w := w.noteIngressFrame id s
    match relayAck? envelope with
    | some deliveryId => w.acknowledgeFrame id s deliveryId now
    | none =>
      match envelopeProblem (some envelope) (some (.str s.room)) now none with
      | .error _ => w.restart
      | .ok (some .expired) => w.dropMessage id envelope .expired
      | .ok (some .invalid) => w
      | .ok none => w.routeEnvelope cfg choice id s raw envelope now

def MAX_WEBSOCKET_MESSAGE_BYTES : ℕ := 32 * 1024 * 1024

def handleSocketMessage (w : NodeRelay) (cfg : NodeConfig) (choice : NodeChoice) (id : ℕ)
    (raw : Str) (now : ℤ) : NodeRelay :=
  match w.sockets.get? id with
  | none => w
  | some s =>
    if !s.isOpen then w
    else if MAX_WEBSOCKET_MESSAGE_BYTES < utf8Length raw then
      w.closeForPolicy cfg.limits id .oversize none now
    else
      let (accepted, s) := countFrame cfg.parse s raw now
      let w := w.setSocket id s
      if !accepted then w.closeForPolicy cfg.limits id .rateLimit none now
      else
        match cfg.parse raw with
        | none => w
        | some envelope => w.handleFrame cfg choice id s raw envelope now

/-! ## The other events -/

def MAX_ROOM_SOCKETS : ℕ := 32

/-- `pinAuth` -/
def pinAuth (store : RelayStore) (room digest : Str) (now : ℤ) : RelayStore :=
  match store.get? room with
  | none => store.put room ⟨some digest, [], [], [], now⟩
  | some row => store.put room { row with
      authSha256 := some (row.authSha256.getD digest), updatedAt := now }

/-- The socket of an upgrade. -/
def newSocket (cfg : NodeConfig) (q : NodeUpgrade) (ticket : Option ManagedTicket) (now : ℤ) :
    NodeSocket where
  room := q.room
  role := none
  identity := managedCooldownIdentity cfg.sha256 ticket
  commercial := cfg.admission.isSome
  ticket := ticket
  relayControl := q.relayControl
  ingressFlow := q.relayControl && q.ingressFlow
  ingressReceived := 0
  window := ⟨some now, 0⟩
  recipientKeyId := q.recipientKeyId
  presenceEnabled := q.presenceEnabled
  presenceAt := none
  taskDispatch := q.taskDispatch
  isOpen := true
  joined := true
  allowances := .empty
  offered := .empty

/-- The handler of `upgrade`; an id that is taken is no new socket. -/
def connect (w : NodeRelay) (cfg : NodeConfig) (id : ℕ) (q : NodeUpgrade) (now : ℤ) : NodeRelay :=
  let ticket := cfg.admission.bind fun authority =>
    readManagedTicket authority (q.ticketHeader.map Json.str) q.room q.checkedAt
  let (refusal, coolDowns) := upgradeRefusal cfg.sha256 cfg.limits
    { authorized := q.authorized, admissionRequired := cfg.admission.isSome
      ticketHeader := q.ticketHeader.any (· ≠ []), ticket := ticket
      recipientKeyId := q.recipientKeyId, room := q.room, roomSize := (w.members q.room).length
      maxRoomSockets := MAX_ROOM_SOCKETS, room_valid := q.room_valid } w.coolDowns q.checkedAt
  let w := { w with coolDowns := coolDowns }
  if refusal.isSome ∨ (w.sockets.get? id).isSome then w
  else
    let s := newSocket cfg q ticket now
    let store := pinAuth w.disk.store q.room q.digest now
    let w := ({ w with disk := { w.disk with store := store } }).setSocket id s
    if s.relayControl then w.emit id (.capabilities s.ingressFlow) else w

/-- `closeNodeSocket`, and the end of every send to the socket. -/
def closeNodeSocket (w : NodeRelay) (choice : SendChoice) (id : ℕ) (now : ℤ) : NodeRelay :=
  match w.sockets.get? id with
  | none => w
  | some s =>
    let w := { w with flights := w.flights.filter fun _ flight => flight.socket ≠ id }
    let w := w.update id fun s => { s with isOpen := false, joined := false }
    if s.joined then
      (w.notePresence s.room s.role s.recipientKeyId now).publishNodePresence choice s.room now
    else w

/-- The turn of one socket in `nodeTaskDispatchPump`. -/
def offerTo (w : NodeRelay) (cfg : NodeConfig) (id : ℕ) (now : ℤ) : NodeRelay :=
  match w.sockets.get? id with
  | none => w
  | some s =>
    if s.isOpen && s.role = some .machine && s.taskDispatch then
      let r := offerTaskJobs (NodeTasks.store cfg.sha256) ⟨s.room, s.recipientKeyId⟩
        (fun _ => true) w.disk.tasks s.offered now
      let w := ({ w with disk := { w.disk with tasks := r.state } }).setSocket id
        { s with offered := r.offered }
      let mail := w.disk.store
      r.sent.foldl (fun w job => w.record (.sent id s (.task job) mail)) w
    else w

/-- The part of `purgeExpiredPairings` that concerns the tables of the model. -/
def cleanUp (w : NodeRelay) (cfg : NodeConfig) (now : ℤ) : NodeRelay :=
  match w.disk.tasks.call cfg.sha256 now (.clean none) with
  | (.error _, _) => w.restart
  | (.ok _, tasks) =>
    { w with disk := { w.disk with tasks := tasks, retained := w.disk.retained.purge now } }

end NodeRelay

/-- The events of the Node relay. -/
inductive NodeLabel
  | connect (id : ℕ) (request : NodeUpgrade)
  | message (id : ℕ) (raw : Str)
  /-- The library reports the end of a send. -/
  | complete (number : ℕ) (failed : Bool)
  | admissionTimer (id : ℕ)
  /-- A socket leaves the open state: its peer, the heartbeat or an error closes it. -/
  | closing (id : ℕ)
  | closed (id : ℕ)
  | offer (id : ℕ)
  | tasks (call : TaskCall)
  | pinAuth (room digest : Str)
  | cleanUp
  | restart

/-- An event with its time and what it finds. -/
structure NodeInput where
  now : ℤ
  choice : NodeChoice
  label : NodeLabel

namespace NodeRelay

/-- One event. The timer of a ticket is armed while the socket has one. -/
def next (w : NodeRelay) (cfg : NodeConfig) (i : NodeInput) : NodeRelay :=
  match i.label with
  | .connect id request => w.connect cfg id request i.now
  | .message id raw => w.handleSocketMessage cfg i.choice id raw i.now
  | .complete number failed =>
    w.complete cfg.parse i.choice.toSendChoice number failed i.now
  | .admissionTimer id =>
    if ((w.sockets.get? id).bind (·.ticket)).isSome then
      w.closeForPolicy cfg.limits id .admissionExpired none i.now
    else w
  | .closing id => w.update id fun s => { s with isOpen := false }
  | .closed id => w.closeNodeSocket i.choice.toSendChoice id i.now
  | .offer id => w.offerTo cfg id i.now
  | .tasks call =>
    { w with disk := { w.disk with tasks := (w.disk.tasks.call cfg.sha256 i.now call).2 } }
  | .pinAuth room digest =>
    { w with disk := { w.disk with store := NodeRelay.pinAuth w.disk.store room digest i.now } }
  | .cleanUp => w.cleanUp cfg i.now
  | .restart => w.restart

/-- Events lead from one state to the next; their times are in the inputs. -/
def Step (cfg : NodeConfig) (w : NodeRelay) (i : NodeInput) (w' : NodeRelay) : Prop :=
  w' = w.next cfg i

end NodeRelay

/-! ## A calm environment -/

section Sample

/-- Nothing is buffered, and nothing fails. -/
def calm : NodeChoice where
  buffered _ := 0
  throws _ := false
  retainFails := false
  enqueueFails := none

/-- An upgrade without a ticket. -/
def sampleUpgrade (recipientKeyId : Option Str) : NodeUpgrade where
  room := sampleRoom
  authorized := true
  digest := []
  ticketHeader := none
  recipientKeyId := recipientKeyId
  relayControl := true
  ingressFlow := false
  presenceEnabled := false
  taskDispatch := false
  checkedAt := 1000
  room_valid _ := by decide

/-- An envelope whose ciphertext is one unit over and over. -/
def sampleEnvelope (sender dest deliveryId : String) (unit : UInt16) : Json := .obj
  [(lit "v", .int 1), (lit "room", .str sampleRoom), (lit "from", .text sender),
    (lit "to", .text dest), (lit "senderId", .text sender),
    (lit "deliveryId", .text deliveryId), (lit "nonce", .str (List.replicate 32 unit)),
    (lit "box", .str (List.replicate 24 unit))]

end Sample

end GrantTap
