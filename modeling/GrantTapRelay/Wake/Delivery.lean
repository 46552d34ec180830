import GrantTapRelay.Library.Runs
import GrantTapRelay.Relay.Validation

/-!
# Wake delivery

`src/relay/wakeDelivery.js`: `WakeDelivery` sends a push for a room when envelopes ask for one, over
one persisted record for each room. The pure parts are functions on `WakeRecord`. `Wakes` is the
delivery of one room between two awaits: the record, the clock, the serial queue of actions and the
point that the running action has reached. A label is one thing that happens next: the clock moves,
an action is submitted, the action goes on, a write or a send ends, the process restarts, or the
store of `src/node/store.js` purges the record.

The log, newest first, records what became durable and what was sent.
-/

namespace GrantTap

open Js

def WAKE_INTERVAL_MS : ℤ := 60000

def WAKE_HISTORY_LIMIT : ℕ := 256

def WAKE_TTL_MS : ℤ := 15 * 60000

def MAX_ATTEMPTS : ℕ := 3

/-! ## Records -/

/-- An entry of `recent`. -/
structure WakeReceipt where
  key : Str
  expiresAt : ℤ
  deriving DecidableEq

structure WakePending where
  expiresAt : ℤ
  attempts : ℕ

/-- The persisted state of a room; `{}` is the empty one. -/
structure WakeRecord where
  recent : List WakeReceipt
  pending : Option WakePending
  nextAt : Option ℤ
  lastSentAt : Option ℤ

/-- The fields that identify an envelope. -/
def wakeIdentity (envelope : Json) : List Value :=
  [envelope.get (lit "senderId"), (envelope.get (lit "recipientKeyId")).orEmpty] ++
    if (envelope.get (lit "deliveryId")).truthy then [envelope.get (lit "deliveryId")]
    else [envelope.get (lit "nonce"), envelope.get (lit "box")]

/-- The hexadecimal digest of `JSON.stringify(identity)`. -/
def wakeKey (sha256 : Str → Str) (identity : List Value) : Str :=
  sha256 (Json.stringify (.arr (identity.map (·.getD .null))))

/-- `envelope.expiresAt ?? now + DEFAULT_TTL_MS` -/
def wakeExpiry (envelope : Json) (now : ℤ) : ℤ :=
  (envelope.get (lit "expiresAt")).int?.getD (now + WAKE_TTL_MS)

namespace WakeRecord

def empty : WakeRecord := ⟨[], none, none, none⟩

/-- `recent.slice(-WAKE_HISTORY_LIMIT)` -/
def lastReceipts (recent : List WakeReceipt) : List WakeReceipt :=
  recent.drop (recent.length - WAKE_HISTORY_LIMIT)

/-- The receipts that have not expired. -/
def liveReceipts (r : WakeRecord) (now : ℤ) : List WakeReceipt :=
  r.recent.filter fun item => now < item.expiresAt

/-- The record after a new envelope; `none` for a duplicate. -/
def accept (r : WakeRecord) (now : ℤ) (receipt : WakeReceipt) : Option WakeRecord :=
  if (r.liveReceipts now).any fun item => item.key = receipt.key then none
  else some
    { r with
      recent := lastReceipts (r.liveReceipts now ++ [receipt])
      pending := some ⟨max receipt.expiresAt (r.pending.elim 0 (·.expiresAt)), 0⟩
      nextAt := some (max now (r.lastSentAt.elim now (· + WAKE_INTERVAL_MS))) }

/-- `{ ...state, pending: null, nextAt: null }` -/
def close (r : WakeRecord) : WakeRecord := { r with pending := none, nextAt := none }

/-- The record of an attempt at `now`. -/
def claim (r : WakeRecord) (pending : WakePending) (now : ℤ) : WakeRecord :=
  { r with
    lastSentAt := some now
    nextAt := some (now + WAKE_INTERVAL_MS)
    pending := some { pending with attempts := pending.attempts + 1 } }

/-- When the room must wake: `nextAt(room)`. -/
def wakeAt (r : WakeRecord) : Option ℤ := r.pending.map fun p => min (r.nextAt.getD 0) p.expiresAt

/-- `purgeExpiredPairings` deletes a record without pending work and without live receipts. -/
def purges (r : WakeRecord) (now : ℤ) : Bool :=
  r.pending.isNone && r.recent.all fun item => item.expiresAt ≤ now

end WakeRecord

/-- What `sendDue` does with the state it read. -/
inductive WakeDecision
  | rest
  | close (record : WakeRecord)
  | claim (record : WakeRecord) (pending : WakePending)

def wakeDecision (state : Option WakeRecord) (now : ℤ) : WakeDecision :=
  match state with
  | none => .rest
  | some r =>
    match r.pending with
    | none => .rest
    | some p =>
      if p.expiresAt ≤ now ∨ MAX_ATTEMPTS ≤ p.attempts then .close r
      else if now < r.nextAt.getD 0 then .rest
      else .claim r p

/-! ## Actions -/

/-- An action of the serial queue. -/
inductive WakeAction
  | request (envelope : Json)
  | drain

/-- A request that is being handled: its clock reading and its receipt. -/
structure WakeRequest where
  now : ℤ
  identity : List Value
  receipt : WakeReceipt

/-- Where the running action waits. -/
inductive WakePhase
  | idle
  /-- The digest of a request. -/
  | hashing (request : WakeRequest)
  /-- A request has read the record. -/
  | checking (request : WakeRequest) (previous : Option WakeRecord)
  /-- A request writes the record. -/
  | accepting (request : WakeRequest) (state : WakeRecord)
  /-- `sendDue` begins. -/
  | due
  /-- `sendDue` has read the record. -/
  | deciding (state : Option WakeRecord)
  /-- `sendDue` gives the pending work up. -/
  | closing (state : WakeRecord)
  /-- `sendDue` writes the claim of an attempt that starts at `stamp`. -/
  | claiming (stamp : ℤ) (claimed : WakeRecord)
  /-- The claim is durable. -/
  | calling (stamp : ℤ) (claimed : WakeRecord)
  /-- The push is under way. -/
  | sending (stamp : ℤ) (claimed : WakeRecord)
  /-- `sendDue` writes that the work is done. -/
  | settling (stamp : ℤ) (claimed : WakeRecord)

/-- What happened. An attempt starts at the clock reading that its claim persists. -/
inductive WakeEvent
  | accepted (request : WakeRequest) (deadline : ℤ)
  | claimed (stamp : ℤ) (attempt : ℕ)
  | started (stamp : ℤ)
  | succeeded (stamp : ℤ)

/-- The delivery of one room. -/
structure Wakes where
  record : Option WakeRecord
  clock : ℤ
  queue : List WakeAction
  phase : WakePhase
  log : List WakeEvent

/-- One thing that happens. -/
inductive WakeLabel
  | tick (time : ℤ)
  | submit (action : WakeAction)
  | go
  | write (ok : Bool)
  | outcome (ok : Bool)
  | restart
  | purge

/-- The store purges the record. -/
def WakeLabel.isPurge : WakeLabel → Bool
  | purge => true
  | _ => false

namespace Wakes

variable (sha256 : Str → Str)

def start (clock : ℤ) : Wakes := ⟨none, clock, [], .idle, []⟩

/-- The next action of the queue begins. -/
def begin (w : Wakes) : Wakes :=
  match w.queue with
  | [] => w
  | .drain :: rest => { w with queue := rest, phase := .due }
  | .request envelope :: rest =>
    let expiresAt := wakeExpiry envelope w.clock
    let identity := wakeIdentity envelope
    if expiresAt ≤ w.clock then { w with queue := rest }
    else { w with queue := rest, phase :=
            .hashing ⟨w.clock, identity, ⟨wakeKey sha256 identity, expiresAt⟩⟩ }

/-- The phase after `sendDue` read the clock. -/
def decide (w : Wakes) (state : Option WakeRecord) : WakePhase :=
  match wakeDecision state w.clock with
  | .rest => .idle
  | .close r => .closing r.close
  | .claim r p => .claiming w.clock (r.claim p w.clock)

/-- The running action goes on, or the next one begins. -/
def go (w : Wakes) : Wakes :=
  match w.phase with
  | .idle => w.begin sha256
  | .hashing request => { w with phase := .checking request w.record }
  | .checking request previous =>
    match (previous.getD .empty).accept request.now request.receipt with
    | none => { w with phase := .due }
    | some state => { w with phase := .accepting request state }
  | .due => { w with phase := .deciding w.record }
  | .deciding state => { w with phase := w.decide state }
  | .calling stamp claimed =>
    { w with phase := .sending stamp claimed, log := .started stamp :: w.log }
  | _ => w

/-- A write ends; when it throws, the action ends too. -/
def write (w : Wakes) (ok : Bool) : Wakes :=
  match w.phase with
  | .accepting request state =>
    if ok then
      { w with
        record := some state
        phase := .due
        log := .accepted request (state.pending.elim 0 (·.expiresAt)) :: w.log }
    else { w with phase := .idle }
  | .closing state => { w with record := if ok then some state else w.record, phase := .idle }
  | .claiming stamp claimed =>
    if ok then
      { w with
        record := some claimed
        phase := .calling stamp claimed
        log := .claimed stamp (claimed.pending.elim 0 (·.attempts)) :: w.log }
    else { w with phase := .idle }
  | .settling _ claimed =>
    { w with record := if ok then some claimed.close else w.record, phase := .idle }
  | _ => w

/-- The push ends, with success or not. -/
def outcome (w : Wakes) (ok : Bool) : Wakes :=
  match w.phase with
  | .sending stamp claimed =>
    { w with
      phase := if ok ∨ MAX_ATTEMPTS ≤ claimed.pending.elim 0 (·.attempts) then
          .settling stamp claimed else .idle
      log := if ok then .succeeded stamp :: w.log else w.log }
  | _ => w

def next (w : Wakes) : WakeLabel → Wakes
  | .tick time => { w with clock := max w.clock time }
  | .submit action => { w with queue := w.queue ++ [action] }
  | .go => w.go sha256
  | .write ok => w.write ok
  | .outcome ok => w.outcome ok
  | .restart => { w with queue := [], phase := .idle }
  | .purge => { w with record := w.record.filter fun r => !r.purges w.clock }

end Wakes

end GrantTap
