import GrantTapRelay.Node.Messages

/-!
# Upgrades in progress

The handler of `upgrade` of `src/node/server.js`, which asks the quota service for an allowance and
goes on when it has the answer, with `src/node/hostwatch-client.mjs` and `trackClientConnection` of
`src/node/client-access.js`. An `UpgradeRelay` is what these handlers share: the rooms, the
cool-downs, the sockets of each room, and the upgrades that were made, each with the call of the
quota service that it waits for.

`NodeRelay.connect` is the same handler without a quota service, as one step of the whole relay.
What other handlers do to the rooms is a `RoomWrite`.

The allowances of `boundedFallback`, and the ids of its leases, are choices of the environment.
-/

namespace GrantTap

open Js

/-! ## Credentials -/

/-- The units that `trim` removes. -/
def isSpace (u : UInt16) : Bool :=
  9 ≤ u && u ≤ 13 || 0x2000 ≤ u && u ≤ 0x200A ||
    [0x20, 0xA0, 0x1680, 0x2028, 0x2029, 0x202F, 0x205F, 0x3000, 0xFEFF].contains u

def trim (s : Str) : Str := ((s.dropWhile isSpace).reverse.dropWhile isSpace).reverse

def bearer (authorization : Option Str) : Str :=
  let value := authorization.getD []
  if (lit "Bearer ").isPrefixOf value then trim (value.drop 7) else []

/-- The value of a hexadecimal digit. -/
def hexValue (u : UInt16) : ℕ :=
  if isDigit u then u.toNat - '0'.toNat else (lowerUnit u).toNat - 'a'.toNat + 10

/-- `Buffer.from(text, 'hex')`, which ends before the first pair that is not hexadecimal. -/
def hexBytes : Str → List ℕ
  | u :: v :: rest =>
    if isHex u && isHex v then (16 * hexValue u + hexValue v) :: hexBytes rest else []
  | _ => []

def equalDigest (supplied expected : Str) : Bool := hexBytes supplied = hexBytes expected

namespace RelayStore

def authDigest (s : RelayStore) (room : Str) : Option Str := (s.get? room).bind (·.authSha256)

def ensureRoom (s : RelayStore) (room : Str) (now : ℤ) : RelayStore :=
  match s.get? room with
  | none => s.put room ⟨none, [], [], [], now⟩
  | some row => s.put room { row with updatedAt := now }

/-- An `UPDATE` of the tokens: a room without a row stays without one. -/
def writeTokens (s : RelayStore) (room : Str) (tokens : List PushToken) (now : ℤ) : RelayStore :=
  match s.get? room with
  | none => s
  | some row => s.put room { row with pushTokens := tokens, updatedAt := now }

end RelayStore

/-- Where a storage failure ends `authorize`: at its first read, after `ensureRoom`, or after the
digest is written. -/
inductive AuthFault
  | read
  | ensured
  | pinned
  deriving DecidableEq

/-- What the relay is started with; `quota` says whether it has a quota service. -/
structure UpgradeConfig extends NodeConfig where
  quota : Bool

/-- `authorize`: the answer, unless it throws, and the rooms. -/
def authorize (sha256 : Str → Str) (store : RelayStore) (room credential : Str) (pin : Bool)
    (fault : Option AuthFault) (now : ℤ) : Option Bool × RelayStore :=
  if !validRoomCredential credential then (some false, store)
  else if fault = some .read then (none, store)
  else
    let digest := sha256 credential
    match store.authDigest room with
    | some current =>
      if current = [] ∧ pin = false then (some false, store)
      else (some (equalDigest digest current), store)
    | none =>
      if pin = false then (some false, store)
      else if fault = some .ensured then (none, store.ensureRoom room now)
      else
        let store := NodeRelay.pinAuth store room digest now
        if fault = some .pinned then (none, store)
        else (some (equalDigest digest ((store.authDigest room).getD [])), store)

/-- `authorizeUpgrade` -/
def authorizeUpgrade (sha256 : Str → Str) (store : RelayStore) (room credential : Str) : Bool :=
  validRoomCredential credential &&
    match store.authDigest room with
    | none => true
    | some current => current = [] || equalDigest (sha256 credential) current

/-! ## State -/

/-- What a request to upgrade supplies; `pathname` is that of `requestUrl`. -/
structure UpgradeHandshake where
  pathname : Option Str
  room : Option Str
  authorization : Option Str
  ticketHeader : Option Str
  recipientKeyId : Option Str

/-- What the handler remembers of an upgrade that passed its first checks. -/
structure Admitting where
  room : Str
  credential : Str
  ticket : Option ManagedTicket

inductive AccessOperation
  | connect
  | renew
  | release
  deriving DecidableEq

/-- A call of `remote` without an answer. A renewal of a lease that the service did not know is
`reconnecting`. -/
structure AccessCall where
  operation : AccessOperation
  lease : Option Str
  reconnecting : Bool
  expiresAt : ℤ

/-- A socket, with the variables of `trackClientConnection`: `renewal` is the renewal that runs. One
without a lease is not tracked. -/
structure TrackedSocket extends Admitting where
  lease : Option Str
  renewal : Option AccessCall
  /-- `readyState === OPEN` -/
  isOpen : Bool

inductive Attempt
  | waiting (p : Admitting) (call : AccessCall)
  | refused
  /-- The socket is gone, and the relay did not answer. -/
  | abandoned
  | live (s : TrackedSocket)
  | closed (s : TrackedSocket)

/-- What the upgrades do, in the order they do it. -/
inductive UpgradeEvent
  /-- `refuseUpgrade` -/
  | refused (id : ℕ) (status : ℕ) (reason : Str)
  /-- The library answers a handshake with an error, and destroys the socket. -/
  | answered (id : ℕ)
  | destroyed (id : ℕ)
  | opened (id : ℕ) (room credential : Str)
  /-- `authorize` lets an HTTP request through. -/
  | authorized (room credential : Str)
  /-- The quota service answers an upgrade, or the renewal of its lease, with a new lease. -/
  | granted (id : ℕ) (lease : Str)
  /-- The answer to its renewal puts another lease in the place of a lease. -/
  | replaced (id : ℕ) (lease : Str)
  | released (id : ℕ) (lease : Str)
  deriving DecidableEq

structure UpgradeRelay where
  store : RelayStore
  coolDowns : CoolDownRegistry
  /-- The `sockets` map. -/
  sockets : Table Str (List ℕ)
  attempts : Table ℕ Attempt
  /-- `localLeases`: when each of them ends. -/
  localLeases : Table Str ℤ
  /-- The releases without an answer, by their upgrades. -/
  releases : Table ℕ AccessCall
  trace : List UpgradeEvent

/-- How the library ends a handshake: with a callback, with an answer, or without one. -/
inductive HandshakeEnd
  | opened
  | answered
  | destroyed
  deriving DecidableEq

/-- What a handler finds outside the relay: whether the client is gone, where the store fails, how
the handshake ends, why the local allowances deny a request, and the id of a local lease. -/
structure UpgradeChoice where
  gone : Bool
  fault : Option AuthFault
  handshake : HandshakeEnd
  denied : Option Str
  lease : Str

/-- What becomes of a call of the quota service. -/
inductive RemoteAnswer
  | decided (allowed : Bool) (leaseId : Option Str) (reason : Str)
  /-- Another status than 200. -/
  | rejected (leaseMissing : Bool)
  /-- A transport error or a timeout. -/
  | failed

namespace UpgradeRelay

def empty : UpgradeRelay where
  store := .empty
  coolDowns := .empty
  sockets := .empty
  attempts := .empty
  localLeases := .empty
  releases := .empty
  trace := []

def record (w : UpgradeRelay) (e : UpgradeEvent) : UpgradeRelay :=
  { w with trace := w.trace ++ [e] }

def setAttempt (w : UpgradeRelay) (id : ℕ) (a : Attempt) : UpgradeRelay :=
  { w with attempts := w.attempts.put id a }

/-- `sockets.get(room)?.size ?? 0` -/
def roomSize (w : UpgradeRelay) (room : Str) : ℕ := ((w.sockets.get? room).getD []).length

end UpgradeRelay

/-! ## The client of the quota service -/

/-- An answer of `admit`. -/
structure AccessDecision where
  allowed : Bool
  leaseId : Option Str
  reason : Str

/-- `d.allowed && d.leaseId` -/
def AccessDecision.lease (d : AccessDecision) : Option Str :=
  if d.allowed then d.leaseId.filter (· ≠ []) else none

/-- The lease that an answer of the service grants. -/
def RemoteAnswer.lease : RemoteAnswer → Option Str
  | .decided allowed leaseId reason => AccessDecision.lease ⟨allowed, leaseId, reason⟩
  | _ => none

/-- The check of `admit` on the identity of a ticket; an identity without one needs no proof. -/
def provable (ticket : Option ManagedTicket) (operation : AccessOperation) (now : ℤ) : Bool :=
  match ticket with
  | none => true
  | some t => (Value.str? (some t.accountId)).any (· ≠ []) &&
      (operation = .release || now < t.expiresAt && t.expiresAt ≤ now + 360000)

def invalidProof : AccessDecision := ⟨false, none, lit "invalid-proof"⟩

def proofRejected : AccessDecision := ⟨false, none, lit "adapter-proof-rejected"⟩

/-- `boundedFallback` -/
def boundedFallback (leases : Table Str ℤ) (call : AccessCall) (choice : UpgradeChoice) (now : ℤ) :
    AccessDecision × Table Str ℤ :=
  let leases := leases.filter fun _ expiresAt => now < expiresAt
  let fallback := fun lease => (⟨true, lease, lit "local-fallback"⟩ : AccessDecision)
  match call.operation, call.lease with
  | .release, some lease => (fallback none, leases.erase lease)
  | .release, none => (fallback none, leases)
  | operation, lease =>
    if operation = .renew ∧ lease.any (fun lease => (leases.get? lease).isSome) then
      (fallback lease, match lease with
        | some lease => leases.put lease call.expiresAt
        | none => leases)
    else
      match choice.denied with
      | some reason => (⟨false, none, reason⟩, leases)
      | none =>
        let lease := (lease.filter (· ≠ [])).getD choice.lease
        (fallback (some lease), leases.put lease call.expiresAt)

/-- The end of `admit`, when its last call has its answer. -/
def settleCall (leases : Table Str ℤ) (call : AccessCall) (answer : RemoteAnswer)
    (choice : UpgradeChoice) (now : ℤ) : AccessDecision × Table Str ℤ :=
  match answer with
  | .decided allowed leaseId reason =>
    let d : AccessDecision := ⟨allowed, leaseId, reason⟩
    let leases := match d.lease with
      | some lease => leases.put lease call.expiresAt
      | none => leases
    let leases := match call.lease with
      | some lease =>
        if call.operation = .renew ∧ d.lease.any (· ≠ lease) ∨ call.operation = .release then
          leases.erase lease
        else leases
      | none => leases
    (d, leases)
  | .rejected _ => (proofRejected, leases)
  | .failed => boundedFallback leases call choice now

/-- `operation === 'renew' && e.leaseMissing`, for the first call of `admit`. -/
def reconnects (call : AccessCall) : RemoteAnswer → Bool
  | .rejected leaseMissing => call.operation = .renew && !call.reconnecting && leaseMissing
  | _ => false

/-- The call that `admit` makes of `remote`, for an identity that passes its check. -/
def accessCall (ticket : Option ManagedTicket) (operation : AccessOperation) (lease : Option Str)
    (now : ℤ) : AccessCall :=
  ⟨operation, lease, false, (ticket.map (·.expiresAt)).getD (now + 30000)⟩

namespace UpgradeRelay

/-- `void access.admit(identity, 'release', leaseId)`, if there is a lease. -/
def release (w : UpgradeRelay) (id : ℕ) (ticket : Option ManagedTicket) (lease : Option Str)
    (now : ℤ) : UpgradeRelay :=
  match lease with
  | none => w
  | some lease =>
    if provable ticket .release now then
      { w with releases := w.releases.put id (accessCall ticket .release (some lease) now) }.record
        (.released id lease)
    else w

end UpgradeRelay

/-! ## The handler of an upgrade -/

def MAX_UPGRADE_SOCKETS : ℕ := NodeRelay.MAX_ROOM_SOCKETS

/-- How the part of the handler after the admission ends. -/
inductive UpgradeFate
  | refused (status : ℕ) (reason : Str)
  | destroyed
  | answered
  | opened
  deriving DecidableEq

/-- What is kept of an upgrade that ends so. -/
def UpgradeFate.attempt (p : Admitting) (lease : Option Str) : UpgradeFate → Attempt
  | refused _ _ => .refused
  | destroyed | answered => .abandoned
  | opened => .live ⟨p, lease, none, true⟩

def UpgradeFate.event (id : ℕ) (p : Admitting) : UpgradeFate → UpgradeEvent
  | refused status reason => .refused id status reason
  | destroyed => .destroyed id
  | answered => .answered id
  | opened => .opened id p.room p.credential

/-- The end of the handler, the rooms it leaves, and whether it releases its lease. -/
structure UpgradeEnd where
  fate : UpgradeFate
  store : RelayStore
  releases : Bool

def HandshakeEnd.fate : HandshakeEnd → UpgradeFate
  | .opened => .opened
  | .answered => .answered
  | .destroyed => .destroyed

namespace UpgradeRelay

/-- The checks after the admission. -/
def recheck (w : UpgradeRelay) (cfg : UpgradeConfig) (p : Admitting) (d : Option AccessDecision)
    (choice : UpgradeChoice) (now : ℤ) : UpgradeEnd :=
  if d.any (!·.allowed) then
    ⟨.refused 429 ((d.map (·.reason)).getD []), w.store, false⟩
  else if choice.gone then ⟨.destroyed, w.store, true⟩
  -- another connection may have filled the room
  else if MAX_UPGRADE_SOCKETS ≤ w.roomSize p.room then
    ⟨.refused 429 (lit "room-full"), w.store, true⟩
  else
    match authorize cfg.sha256 w.store p.room p.credential true choice.fault now with
    | (none, store) => ⟨.destroyed, store, false⟩
    | (some false, store) => ⟨.refused 401 (lit "unauthorized"), store, true⟩
    | (some true, store) => ⟨choice.handshake.fate, store, false⟩

/-- `roomSockets.add(ws)` -/
def join (w : UpgradeRelay) (id : ℕ) (room : Str) : UpgradeRelay :=
  { w with sockets := w.sockets.put room ((w.sockets.get? room).getD [] ++ [id]) }

/-- What the handler does at its end. -/
def conclude (w : UpgradeRelay) (id : ℕ) (p : Admitting) (lease : Option Str) (e : UpgradeEnd)
    (now : ℤ) : UpgradeRelay :=
  let w := { w with store := e.store }
  let w := if e.releases then w.release id p.ticket lease now else w
  let w := if e.fate = .opened then w.join id p.room else w
  (w.setAttempt id (e.fate.attempt p lease)).record (e.fate.event id p)

/-- The part of the handler after the admission. -/
def resume (w : UpgradeRelay) (cfg : UpgradeConfig) (id : ℕ) (p : Admitting)
    (d : Option AccessDecision) (choice : UpgradeChoice) (now : ℤ) : UpgradeRelay :=
  w.conclude id p (d.bind (·.lease)) (w.recheck cfg p d choice now) now

/-- `url && acceptsWebSocketPath(url.pathname) && validRoom(room) && authorizeUpgrade(…)` -/
def authorizedUpgrade (w : UpgradeRelay) (cfg : UpgradeConfig) (q : UpgradeHandshake) : Bool :=
  q.pathname.any (fun path => path = lit "/" || path = lit "/ws") && q.room.any validRoom &&
    authorizeUpgrade cfg.sha256 w.store (q.room.getD []) (bearer q.authorization)

/-- The ticket of a request. -/
def ticketOfRequest (cfg : UpgradeConfig) (q : UpgradeHandshake) (now : ℤ) :
    Option ManagedTicket := do
  let authority ← cfg.admission
  let room ← q.room
  readManagedTicket authority (q.ticketHeader.map Json.str) room now

/-- The arguments of `upgradeRefusal`. -/
def gateRequest (w : UpgradeRelay) (cfg : UpgradeConfig) (q : UpgradeHandshake) (now : ℤ) :
    UpgradeRequest where
  authorized := w.authorizedUpgrade cfg q
  admissionRequired := cfg.admission.isSome
  ticketHeader := q.ticketHeader.any (· ≠ [])
  ticket := ticketOfRequest cfg q now
  recipientKeyId := q.recipientKeyId
  room := q.room.getD []
  roomSize := w.roomSize (q.room.getD [])
  maxRoomSockets := MAX_UPGRADE_SOCKETS
  room_valid h := by
    simp only [authorizedUpgrade, Bool.and_eq_true] at h
    obtain ⟨room, hroom, hvalid⟩ := (Option.any_eq_true ..).1 h.1.2
    rw [hroom]
    exact hvalid

/-- The handler of `upgrade`; an id that is taken is no new request. -/
def upgrade (w : UpgradeRelay) (cfg : UpgradeConfig) (id : ℕ) (q : UpgradeHandshake)
    (choice : UpgradeChoice) (now : ℤ) : UpgradeRelay :=
  if (w.attempts.get? id).isSome then w
  else
    let r := upgradeRefusal cfg.sha256 cfg.limits (w.gateRequest cfg q now) w.coolDowns now
    let w := { w with coolDowns := r.2 }
    match r.1 with
    | some refusal =>
      (w.setAttempt id .refused).record (.refused id refusal.status refusal.reason)
    | none =>
      let p : Admitting := ⟨q.room.getD [], bearer q.authorization, ticketOfRequest cfg q now⟩
      if cfg.quota then
        if provable p.ticket .connect now then
          w.setAttempt id (.waiting p (accessCall p.ticket .connect none now))
        else w.resume cfg id p (some invalidProof) choice now
      else w.resume cfg id p none choice now

/-! ## Leases of sockets -/

/-- The answer to a renewal replaces the lease of its socket. -/
def replaceEvents (id : ℕ) (s : TrackedSocket) (d : AccessDecision) : List UpgradeEvent :=
  match s.lease with
  | some lease => if d.lease.any (· ≠ lease) then [.replaced id lease] else []
  | none => []

def afterRenewal (s : TrackedSocket) (d : AccessDecision) : TrackedSocket :=
  { s with
    lease := if d.lease.isSome then d.lease else s.lease
    renewal := none
    isOpen := s.isOpen && (d.allowed || d.reason = lit "adapter-proof-rejected") }

/-- An answer grants a lease that is not the one the call was about. -/
def grantEvents (id : ℕ) (call : AccessCall) (remote : RemoteAnswer) : List UpgradeEvent :=
  match remote.lease with
  | none => []
  | some lease =>
    if !call.reconnecting ∧ call.lease = some lease then [] else [.granted id lease]

/-- The quota service answers an upgrade. -/
def admitted (w : UpgradeRelay) (cfg : UpgradeConfig) (id : ℕ) (remote : RemoteAnswer)
    (choice : UpgradeChoice) (now : ℤ) : UpgradeRelay :=
  match w.attempts.get? id with
  | some (.waiting p call) =>
    let r := settleCall w.localLeases call remote choice now
    let w := { w with localLeases := r.2, trace := w.trace ++ grantEvents id call remote }
    w.resume cfg id p (some r.1) choice now
  | _ => w

/-- The quota service answers a renewal; the variables of a closed socket are read by nobody. -/
def renewed (w : UpgradeRelay) (id : ℕ) (remote : RemoteAnswer) (choice : UpgradeChoice) (now : ℤ) :
    UpgradeRelay :=
  match w.attempts.get? id with
  | some (.live s) =>
    match s.renewal with
    | none => w
    | some call =>
      if reconnects call remote then
        w.setAttempt id (.live { s with renewal := some { call with reconnecting := true } })
      else
        let r := settleCall w.localLeases call remote choice now
        ({ w with
          localLeases := r.2
          trace := w.trace ++ (grantEvents id call remote ++ replaceEvents id s r.1) }).setAttempt id
            (.live (afterRenewal s r.1))
  | some (.closed s) =>
    match s.renewal with
    | none => w
    | some call =>
      if reconnects call remote then
        w.setAttempt id (.closed { s with renewal := some { call with reconnecting := true } })
      else
        let r := settleCall w.localLeases call remote choice now
        ({ w with localLeases := r.2, trace := w.trace ++ grantEvents id call remote }).setAttempt id
          (.closed (afterRenewal s r.1))
  | _ => w

/-- The quota service answers a release. -/
def releaseEnded (w : UpgradeRelay) (id : ℕ) (remote : RemoteAnswer) (choice : UpgradeChoice)
    (now : ℤ) : UpgradeRelay :=
  match w.releases.get? id with
  | none => w
  | some call =>
    { w with
      localLeases := (settleCall w.localLeases call remote choice now).2
      releases := w.releases.erase id }

/-- The turn of the timer of `trackClientConnection`. -/
def renewTimer (w : UpgradeRelay) (id : ℕ) (now : ℤ) : UpgradeRelay :=
  match w.attempts.get? id with
  | some (.live s) =>
    if s.lease.isSome && s.renewal.isNone && s.isOpen then
      if provable s.ticket .renew now then
        w.setAttempt id (.live { s with renewal := some (accessCall s.ticket .renew s.lease now) })
      else w.setAttempt id (.live { s with isOpen := false })
    else w
  | _ => w

/-- `closeNodeSocket`, on the `sockets` map. -/
def leave (w : UpgradeRelay) (id : ℕ) : UpgradeRelay :=
  match w.attempts.get? id with
  | some (.live s) | some (.closed s) =>
    match w.sockets.get? s.room with
    | none => w
    | some peers =>
      let rest := peers.filter (· ≠ id)
      { w with sockets := if rest = [] then w.sockets.erase s.room else w.sockets.put s.room rest }
  | _ => w

/-- The `close` of a socket. -/
def close (w : UpgradeRelay) (id : ℕ) (now : ℤ) : UpgradeRelay :=
  match w.attempts.get? id with
  | some (.live s) =>
    ((w.release id s.ticket s.lease now).leave id).setAttempt id (.closed { s with isOpen := false })
  | _ => w

/-- A change of what is kept of a live socket. -/
def updateLive (w : UpgradeRelay) (id : ℕ) (f : TrackedSocket → TrackedSocket) : UpgradeRelay :=
  match w.attempts.get? id with
  | some (.live s) => w.setAttempt id (.live (f s))
  | _ => w

/-- An HTTP request reaches `authorize`. -/
def http (w : UpgradeRelay) (cfg : UpgradeConfig) (room credential : Str) (pin : Bool)
    (choice : UpgradeChoice) (now : ℤ) : UpgradeRelay :=
  match authorize cfg.sha256 w.store room credential pin choice.fault now with
  | (some true, store) => ({ w with store := store }).record (.authorized room credential)
  | (_, store) => { w with store := store }

end UpgradeRelay

/-! ## Events -/

/-- What `renewManagedConnection` compares of two tickets, for verified tickets. -/
def sameHolder (next current : ManagedTicket) : Bool :=
  next.kind = current.kind && Value.same (some next.accountId) (some current.accountId) &&
    Value.same (some next.computerId) (some current.computerId) &&
    next.publicKey = current.publicKey

/-- The other operations of the store on its rooms. -/
inductive RoomWrite
  | queue (room : Str) (role : Role)
  | enqueue (room : Str) (role : Role) (raw : Str) (deliveryId : Option Str) (expiresAt : Option ℤ)
  | acknowledge (room : Str) (role : Role) (deliveryId : Str)
  | pushTokens (room : Str) (tokens : List PushToken)

def RoomWrite.apply (s : RelayStore) (now : ℤ) : RoomWrite → RelayStore
  | queue room role => (s.queue room role now).1
  | enqueue room role raw deliveryId expiresAt =>
    (s.enqueue room role raw deliveryId expiresAt now).1
  | acknowledge room role deliveryId => s.acknowledge room role deliveryId now
  | pushTokens room tokens => s.writeTokens room tokens now

inductive UpgradeLabel
  | upgrade (id : ℕ) (request : UpgradeHandshake)
  | admitted (id : ℕ) (remote : RemoteAnswer)
  | renewTimer (id : ℕ)
  | renewed (id : ℕ) (remote : RemoteAnswer)
  | releaseEnded (id : ℕ) (remote : RemoteAnswer)
  /-- The relay or its peer begins to close a socket. -/
  | closing (id : ℕ)
  /-- `error` of a socket -/
  | failed (id : ℕ)
  | closed (id : ℕ)
  /-- `renewManagedConnection` accepts a ticket of the same holder. -/
  | ticket (id : ℕ) (next : ManagedTicket)
  | http (room credential : Str) (pin : Bool)
  | write (write : RoomWrite)
  /-- A cool-down is struck or read by a socket. -/
  | coolDown (event : GateEvent)

/-- An event with its time and what it finds. -/
structure UpgradeInput where
  now : ℤ
  choice : UpgradeChoice
  label : UpgradeLabel

namespace UpgradeRelay

/-- One event. -/
def next (w : UpgradeRelay) (cfg : UpgradeConfig) (i : UpgradeInput) : UpgradeRelay :=
  match i.label with
  | .upgrade id request => w.upgrade cfg id request i.choice i.now
  | .admitted id remote => w.admitted cfg id remote i.choice i.now
  | .renewTimer id => w.renewTimer id i.now
  | .renewed id remote => w.renewed id remote i.choice i.now
  | .releaseEnded id remote => w.releaseEnded id remote i.choice i.now
  | .closing id => w.updateLive id fun s => { s with isOpen := false }
  | .failed id => w.leave id
  | .closed id => w.close id i.now
  | .ticket id next => w.updateLive id fun s =>
      if s.ticket.any (sameHolder next) then { s with ticket := some next } else s
  | .http room credential pin => w.http cfg room credential pin i.choice i.now
  | .write write => { w with store := write.apply w.store i.now }
  | .coolDown event =>
    { w with coolDowns := (event.step cfg.sha256 cfg.limits w.coolDowns i.now).2 }

/-- Events lead from one state to the next. -/
def Step (cfg : UpgradeConfig) (w : UpgradeRelay) (i : UpgradeInput) (w' : UpgradeRelay) : Prop :=
  w' = w.next cfg i

/-! ## What the parts of the handlers change -/

variable {w : UpgradeRelay} {cfg : UpgradeConfig} {id : ℕ} {p : Admitting} {lease : Option Str}
  {ticket : Option ManagedTicket} {now : ℤ}

/-- The event of a release. -/
def releaseEvents (id : ℕ) (ticket : Option ManagedTicket) (lease : Option Str) (now : ℤ) :
    List UpgradeEvent :=
  match lease with
  | some lease => if provable ticket .release now then [.released id lease] else []
  | none => []

@[simp] theorem release_store : (w.release id ticket lease now).store = w.store := by
  unfold release
  cases lease with
  | none => rfl
  | some lease =>
    dsimp only
    split_ifs <;> rfl

@[simp] theorem release_sockets : (w.release id ticket lease now).sockets = w.sockets := by
  unfold release
  cases lease with
  | none => rfl
  | some lease =>
    dsimp only
    split_ifs <;> rfl

@[simp] theorem release_attempts : (w.release id ticket lease now).attempts = w.attempts := by
  unfold release
  cases lease with
  | none => rfl
  | some lease =>
    dsimp only
    split_ifs <;> rfl

@[simp] theorem release_trace : (w.release id ticket lease now).trace =
    w.trace ++ releaseEvents id ticket lease now := by
  unfold release releaseEvents
  cases lease with
  | none => simp
  | some lease =>
    dsimp only
    split_ifs
    · rfl
    · simp

@[simp] theorem conclude_store (e : UpgradeEnd) : (w.conclude id p lease e now).store = e.store := by
  unfold conclude
  dsimp only [record, setAttempt]
  split_ifs <;> simp [join]

@[simp] theorem conclude_sockets (e : UpgradeEnd) : (w.conclude id p lease e now).sockets =
    if e.fate = .opened then w.sockets.put p.room ((w.sockets.get? p.room).getD [] ++ [id])
    else w.sockets := by
  unfold conclude
  dsimp only [record, setAttempt]
  split_ifs <;> simp [join]

@[simp] theorem conclude_attempts (e : UpgradeEnd) : (w.conclude id p lease e now).attempts =
    w.attempts.put id (e.fate.attempt p lease) := by
  unfold conclude
  dsimp only [record, setAttempt]
  split_ifs <;> simp [join]

/-- The handler records its release, if it makes one, and its end. -/
@[simp] theorem conclude_trace (e : UpgradeEnd) : (w.conclude id p lease e now).trace =
    w.trace ++ ((if e.releases then releaseEvents id p.ticket lease now else []) ++
      [e.fate.event id p]) := by
  unfold conclude
  dsimp only [record, setAttempt]
  split_ifs <;> simp [join]

end UpgradeRelay

end GrantTap
