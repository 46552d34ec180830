import GrantTapRelay.Library.Cell
import GrantTapRelay.Library.Table
import GrantTapRelay.Relay.Validation

/-!
# Pairing mailboxes

`handlePairing` of `src/node/server.js` over `RelayStore.putPairing`, `peekPairing` and
`takePairing`, and `GrantTapCodes` of `src/relay/pairingMailbox.js`. On Node all mailboxes are rows
of one table, and a purge deletes the expired rows; on the Worker each mailbox is a Durable Object
with one value, whose alarm deletes everything. Each handler is one step.
-/

namespace GrantTap

open Js

def PAIR_TTL_MS : ℤ := 15 * 60 * 1000

/-! ## Requests and replies -/

/-- A sealed pairing code. -/
structure PairBlob where
  nonce : Str
  box : Str
  deriving DecidableEq

/-- `body.nonce` and `body.box`, when both are valid. -/
def pairBlob? (body : Value) : Option PairBlob :=
  if validBase64 (body.get (lit "nonce")) 32 32 && validBase64 (body.get (lit "box")) 24 32768 then
    some ⟨(body.get (lit "nonce")).str?.getD [], (body.get (lit "box")).str?.getD []⟩
  else none

inductive PairMethod
  | put
  | post
  | head
  | get
  | other

/-- A request: its method, and its body, unless reading it failed. -/
structure PairRequest where
  method : PairMethod
  body : Option Value

inductive PairReply
  | stored
  | occupied
  | present
  | absent
  | taken (blob : PairBlob)
  | unknown
  | unread
  | notCanonical
  | notAllowed

namespace PairReply

def status : PairReply → ℕ
  | stored | present | taken _ => 200
  | occupied => 409
  | absent | unknown => 404
  | unread | notCanonical => 400
  | notAllowed => 405

def error (message : String) : Value := some (.obj [(lit "error", .text message)])

def body : PairReply → Value
  | stored => some (.obj [(lit "ok", .bool true), (lit "expiresInSec", .int (PAIR_TTL_MS / 1000))])
  | occupied => error "mailbox already occupied"
  | present | absent => none
  | taken blob => some (.obj [(lit "nonce", .str blob.nonce), (lit "box", .str blob.box)])
  | unknown => error "unknown or expired mailbox"
  | unread => error "bounded JSON body required"
  | notCanonical => error "canonical bounded base64 nonce and box required"
  | notAllowed => error "method not allowed"

end PairReply

/-- A stored blob. -/
structure PairRow where
  blob : PairBlob
  expiresAt : ℤ
  deriving DecidableEq

/-! ## Node -/

/-- The `pairings` table. -/
abbrev NodePairings := Table Str PairRow

namespace NodePairings

/-- The pairings of `purgeExpiredPairings`. -/
def purgeExpiredPairings (s : NodePairings) (now : ℤ) : NodePairings :=
  s.filter fun _ row => now < row.expiresAt

def putPairing (s : NodePairings) (mailbox : Str) (blob : PairBlob) (expiresAt now : ℤ) :
    Bool × NodePairings :=
  let s := s.purgeExpiredPairings now
  match s.get? mailbox with
  | some _ => (false, s)
  | none => (true, s.put mailbox ⟨blob, expiresAt⟩)

def peekPairing (s : NodePairings) (mailbox : Str) (now : ℤ) : Bool × NodePairings :=
  let s := s.purgeExpiredPairings now
  ((s.get? mailbox).any fun item => now < item.expiresAt, s)

def takePairing (s : NodePairings) (mailbox : Str) (now : ℤ) : Option PairBlob × NodePairings :=
  (((s.get? mailbox).filter fun item => now < item.expiresAt).map (·.blob), s.erase mailbox)

/-- `handlePairing`; a body that cannot be read reads as `null`. -/
def handlePairing (s : NodePairings) (mailbox : Str) (q : PairRequest) (now : ℤ) :
    PairReply × NodePairings :=
  match q.method with
  | .head =>
    let r := s.peekPairing mailbox now
    (if r.1 then .present else .absent, r.2)
  | .get =>
    let r := s.takePairing mailbox now
    (r.1.elim .unknown .taken, r.2)
  | .other => (.notAllowed, s)
  | .put | .post =>
    match pairBlob? (q.body.getD none) with
    | none => (.notCanonical, s)
    | some blob =>
      let r := s.putPairing mailbox blob (now + PAIR_TTL_MS) now
      (if r.1 then .stored else .occupied, r.2)

end NodePairings

/-! ## Worker -/

/-- The storage of a mailbox: the value under `pairing`, and the time last given to `setAlarm`. -/
structure GrantTapCodes where
  pairing : Option PairRow
  alarm : Option ℤ

namespace GrantTapCodes

def empty : GrantTapCodes := ⟨none, none⟩

def deleteAll (s : GrantTapCodes) : GrantTapCodes := { s with pairing := none }

def put (s : GrantTapCodes) (body : Option Value) (now : ℤ) : PairReply × GrantTapCodes :=
  match body with
  | none => (.unread, s)
  | some body =>
    match pairBlob? body with
    | none => (.notCanonical, s)
    | some blob =>
      if s.pairing.any fun item => now < item.expiresAt then (.occupied, s)
      else
        let expiresAt := now + PAIR_TTL_MS
        (.stored, { pairing := some ⟨blob, expiresAt⟩, alarm := some expiresAt })

def head (s : GrantTapCodes) (now : ℤ) : PairReply :=
  match s.pairing with
  | none => .absent
  | some item => if item.expiresAt ≤ now then .absent else .present

def get (s : GrantTapCodes) (now : ℤ) : PairReply × GrantTapCodes :=
  match s.pairing with
  | none => (.unknown, s)
  | some item =>
    if item.expiresAt ≤ now then (.unknown, s.deleteAll) else (.taken item.blob, s.deleteAll)

def fetch (s : GrantTapCodes) (q : PairRequest) (now : ℤ) : PairReply × GrantTapCodes :=
  match q.method with
  | .put | .post => s.put q.body now
  | .head => (s.head now, s)
  | .get => s.get now
  | .other => (.notAllowed, s)

end GrantTapCodes

end GrantTap
