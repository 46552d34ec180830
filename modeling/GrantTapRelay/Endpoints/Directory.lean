import GrantTapRelay.Node.Retention
import GrantTapRelay.TaskActivities.Registry
import GrantTapRelay.TaskDispatch.Router

/-!
# The endpoint directory

`src/relay/endpointDirectory.js` over the two stores that it has: the rows under `endpoint:` in the
storage of a room's Durable Object (`src/relay/endpointRetention.js`), and the table
`endpoint_directory` of `src/node/store.js`, which holds the rows of all rooms. A row lies at its
room, or at its room and recipient, and a room has at most `ENDPOINT_RECIPIENT_LIMIT` of them.

The Worker keeps the alarm of the object at the first expiry of a row. The Node store counts the
rows of a room with `LIKE`.
-/

namespace GrantTap

open Js

def ENDPOINT_TTL_MS : ℤ := 15 * 60 * 1000

def ENDPOINT_RECIPIENT_LIMIT : ℕ := 32

/-! ## Records -/

def colon : UInt16 := 58

/-- `validEndpointRecord` on a body, and the record that it accepts. -/
def endpointRecord? (body : Value) (now : ℤ) : Option SealedRow := do
  guard (fields body ["nonce", "box", "expiresAt"])
  guard (validBase64 (body.get (lit "nonce")) 32 32)
  let nonce ← (body.get (lit "nonce")).str?
  guard (validBase64 (body.get (lit "box")) 24 10924)
  let box ← (body.get (lit "box")).str?
  let expiresAt ← (body.get (lit "expiresAt")).int?.filter fun t =>
    now < t && t ≤ now + ENDPOINT_TTL_MS
  return ⟨nonce, box, expiresAt⟩

/-- `validEndpointRecord` on a stored record, whose other members were valid when it was stored. -/
def SealedRow.admitted (now : ℤ) (row : SealedRow) : Bool :=
  now < row.expiresAt && row.expiresAt ≤ now + ENDPOINT_TTL_MS

/-- The key of a row, unless the room or the recipient is not valid. -/
def endpointStorageKey (room recipient : Option Str) : Option Str :=
  match room.filter validRoom, recipient with
  | none, _ => none
  | some room, none => some room
  | some room, some recipient =>
    if isDigest recipient then some (room ++ colon :: recipient) else none

/-! ## Requests -/

/-- A request, and what the handler finds around it: what `authorize` resolves to, the body (`none`
when it cannot be read), and the clock readings. A `PUT` checks its record before it acts, a `GET`
afterwards. -/
structure EndpointRequest where
  method : Method
  room : Option Str
  recipient : Option Str
  authorized : Bool
  body : Value
  checkedAt : ℤ
  actedAt : ℤ

inductive EndpointBody
  | ok
  | endpoint (row : SealedRow)
  | error (text : String)

structure EndpointReply where
  status : ℕ
  body : EndpointBody

def EndpointReply.error (status : ℕ) (text : String) : EndpointReply := ⟨status, .error text⟩

/-- The operations of a store on the rows of the directory. -/
structure EndpointStore (σ : Type) where
  put : σ → Str → SealedRow → ℤ → Except Throw (Bool × σ)
  get : σ → Str → ℤ → Option SealedRow × σ
  delete : σ → Str → σ

section Response

variable {σ : Type} (S : EndpointStore σ)

/-- `endpointResponse` for the row at `key`. -/
def endpointResponse (s : σ) (key : Str) (q : EndpointRequest) : Except Throw EndpointReply × σ :=
  match q.method with
  | .PUT =>
    match endpointRecord? q.body q.checkedAt with
    | none => (.ok (.error 400 "bounded sealed endpoint required"), s)
    | some record =>
      if !q.authorized then (.ok (.error 401 "invalid room credential"), s)
      else
        match S.put s key record q.actedAt with
        | .error t => (.error t, s)
        | .ok (true, s) => (.ok ⟨200, .ok⟩, s)
        | .ok (false, s) => (.ok (.error 409 "endpoint capacity"), s)
  | .DELETE =>
    if !q.authorized then (.ok (.error 401 "invalid room credential"), s)
    else (.ok ⟨200, .ok⟩, S.delete s key)
  | .GET =>
    if !q.authorized then (.ok (.error 401 "invalid room credential"), s)
    else
      match S.get s key q.actedAt with
      | (none, s) => (.ok (.error 404 "endpoint unavailable"), s)
      | (some row, s) =>
        if row.admitted q.checkedAt then (.ok ⟨200, .endpoint row⟩, s)
        else (.ok (.error 404 "endpoint unavailable"), S.delete s key)
  | _ => (.ok (.error 405 "method not allowed"), s)

/-- `/endpoint` of either server. -/
def handleEndpoint (s : σ) (q : EndpointRequest) : Except Throw EndpointReply × σ :=
  match endpointStorageKey q.room q.recipient with
  | none => (.ok (.error 400 "invalid endpoint recipient"), s)
  | some key => endpointResponse S s key q

end Response

/-! ## Worker -/

/-- The rows of a room, and the alarm of its object. -/
structure EndpointStorage where
  rows : Table Str SealedRow
  alarm : Option ℤ

namespace EndpointStorage

/-- The first expiry of rows. -/
def firstExpiry (rows : List (Str × SealedRow)) : Option ℤ :=
  rows.foldl (fun next r => some (min (next.getD r.2.expiresAt) r.2.expiresAt)) none

/-- `purgeEndpointDirectory`, which returns the alarm. -/
def purgeEndpointDirectory (s : EndpointStorage) (now : ℤ) : EndpointStorage :=
  let rows := s.rows.filter fun _ row => now < row.expiresAt
  ⟨rows, firstExpiry rows.rows⟩

/-- `putDirectoryEndpoint` -/
def putDirectoryEndpoint (s : EndpointStorage) (key : Str) (record : SealedRow) (now : ℤ) :
    Bool × EndpointStorage :=
  let s := s.purgeEndpointDirectory now
  if (s.rows.get? key).isNone && ENDPOINT_RECIPIENT_LIMIT ≤ s.rows.size then (false, s)
  else (true, ⟨s.rows.put key record,
    some ((firstExpiry s.rows.rows).elim record.expiresAt (min record.expiresAt))⟩)

/-- The rows in the storage of an object. -/
def store : EndpointStore EndpointStorage where
  put s key record now := .ok (s.putDirectoryEndpoint key record now)
  get s key _ := (s.rows.get? key, s)
  delete s key := { s with rows := s.rows.erase key }

end EndpointStorage

/-! ## Node -/

namespace NodeDatabase

/-- A character of a `LIKE` pattern: `_` is any character, and the case of letters does not
count. -/
def likeUnit (p u : UInt16) : Bool := p = '_'.toNat.toUInt16 || lowerUnit p = lowerUnit u

/-- `text LIKE '<owner>:%'`, where the owner has no `%`. -/
def likeOwned : Str → Str → Bool
  | [], u :: _ => likeUnit colon u
  | p :: owner, u :: text => likeUnit p u && likeOwned owner text
  | _, [] => false

/-- `SELECT COUNT(*) FROM endpoint_directory WHERE room = ? OR room LIKE ?` -/
def countEndpoints (db : NodeDatabase) (owner : Str) : ℕ :=
  (db.endpoints.rows.filter fun r => r.1 = owner || likeOwned owner r.1).length

def deleteEndpoint (db : NodeDatabase) (key : Str) : NodeDatabase :=
  { db with endpoints := db.endpoints.erase key }

def endpoint (db : NodeDatabase) (key : Str) (now : ℤ) : Option SealedRow × NodeDatabase :=
  match db.endpoints.get? key with
  | none => (none, db.deleteEndpoint key)
  | some row => if row.expiresAt ≤ now then (none, db.deleteEndpoint key) else (some row, db)

def putEndpoint (db : NodeDatabase) (key : Str) (record : SealedRow) (now : ℤ) :
    Except Throw (Bool × NodeDatabase) := do
  let db ← db.purgeExpiredPairings now
  let count := db.countEndpoints (key.takeWhile (· ≠ colon))
  let (current, db) := db.endpoint key now
  if current.isNone && ENDPOINT_RECIPIENT_LIMIT ≤ count then return (false, db)
  else return (true, { db with endpoints := db.endpoints.put key record })

/-- The table of all rooms. -/
def endpointStore : EndpointStore NodeDatabase where
  put := putEndpoint
  get := endpoint
  delete := deleteEndpoint

end NodeDatabase

end GrantTap
