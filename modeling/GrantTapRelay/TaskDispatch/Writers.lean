import GrantTapRelay.TaskDispatch.Records

/-!
# Writer grants

`src/taskDispatch/writers/`: a grant lets its holder address one recipient and its own jobs. The
checks of `TaskWriterGrants` are shared; the two adapters commit a new grant in slightly different
ways.
-/

namespace GrantTap

open Js

/-- `lifetime` -/
def WRITER_LIFETIME_MS : ℤ := 30 * 86400000

/-- The last moment, exclusive, at which a grant admits anything. -/
def writerRetainedUntil (row : WriterGrant) : ℤ :=
  (match row.revokedAt with
    | some revoked => min row.expiresAt revoked
    | none => row.expiresAt) + 7 * 86400000

def publicWriter (row : WriterGrant) : PublicWriter where
  id := row.id
  sourceKeyId := row.sourceKeyId
  recipientKeyId := row.recipientKeyId
  scopeHash := row.scopeHash
  expiresAt := row.expiresAt
  revokedAt := row.revokedAt

def GRANT_FIELDS : List Str :=
  ["sourceKeyId", "recipientKeyId", "scopeHash", "tokenHash", "expiresAt"].map lit

/-- A member that must be a digest. -/
def digestField (body : Json) (name : String) : Option Str :=
  (body.get (lit name)).str?.filter isDigest

/-- The row that `put` commits. -/
def writerRow (id : Str) (body : Value) (now : ℤ) : Option WriterGrant := do
  let body ← if validJobId id then body else none
  guard (body.truthy && body.keys.all fun key => GRANT_FIELDS.contains key)
  let sourceKeyId ← digestField body "sourceKeyId"
  let recipientKeyId ← digestField body "recipientKeyId"
  let scopeHash ← digestField body "scopeHash"
  let tokenHash ← digestField body "tokenHash"
  let expiresAt ← (body.get (lit "expiresAt")).int?
  guard (now < expiresAt ∧ expiresAt ≤ now + WRITER_LIFETIME_MS)
  return { id := id, sourceKeyId := sourceKeyId, recipientKeyId := recipientKeyId,
           scopeHash := scopeHash, tokenHash := tokenHash, expiresAt := expiresAt,
           revokedAt := none }

/-- `JSON.stringify(row) === JSON.stringify(previous)`, where rows have their members in one
order. -/
def existingWriter (previous row : WriterGrant) : Reply :=
  if row = previous then ⟨200, .writer (publicWriter previous)⟩
  else .error 409 "writer identity already exists"

/-- The writer id and the token of `writer:<id>:<token>`. -/
def parseCredential (credential : Option Str) : Option (Str × Str) := do
  let text ← credential
  guard ((lit "writer:").isPrefixOf text)
  let rest := text.drop (lit "writer:").length
  let id := rest.takeWhile (· ≠ ':'.toNat.toUInt16)
  let token := rest.drop (id.length + 1)
  guard (validJobId id && isDigest token)
  return (id, token)

namespace Registry

variable (sha256 : Str → Str)

/-- `adapter.list(room)` -/
def listWriters (s : Registry) (room : Str) : List (RoomKey × WriterGrant) :=
  (roomRows s.writers room).take 129

/-- `adapter.delete` and `adapter.deleteResources` -/
def deleteWriter (s : Registry) (k : RoomKey) : Registry where
  writers := s.writers.erase k
  resources := s.resources.erase k
  configurations := s.configurations
  named := fun k' row h => by
    rw [Table.get?_erase] at h
    split_ifs at h
    exact s.named k' row h

/-- `adapter.put(room, row)` -/
def putGrant (s : Registry) (room : Str) (row : WriterGrant) : Registry where
  writers := s.writers.put (room, row.id) row
  resources := s.resources
  configurations := s.configurations
  named := fun k' row' h => by
    rw [Table.get?_put] at h
    split_ifs at h with e
    · cases h
      rw [e]
    · exact s.named k' row' h

/-- Delete the listed grants whose retention is over, with their reports. -/
def dropRetired (s : Registry) (room : Str) (rows : List (RoomKey × WriterGrant)) (now : ℤ) :
    Registry :=
  rows.foldl (fun s old =>
    if writerRetainedUntil old.2 ≤ now then s.deleteWriter (room, old.2.id) else s) s

/-- A new grant. -/
def insertWriter (s : Registry) (room : Str) (row : WriterGrant) : Reply × Registry :=
  (⟨201, .writer (publicWriter row)⟩, s.putGrant room row)

/-- `commit` of the Node adapter, which counts the grants that are left. -/
def commitWriterNode (s : Registry) (room : Str) (row : WriterGrant) (now : ℤ) :
    Reply × Registry :=
  match s.writers.get? (room, row.id) with
  | some previous => (existingWriter previous row, s)
  | none =>
    let s := s.dropRetired room (s.listWriters room) now
    if 128 ≤ (s.listWriters room).length then
      (.error 429 "writer grant capacity reached", s)
    else s.insertWriter room row

/-- `commitWriterGrant` of the Worker adapter, which counts the listed grants in retention. -/
def commitWriterGrant (s : Registry) (room : Str) (row : WriterGrant) (now : ℤ) :
    Reply × Registry :=
  match s.writers.get? (room, row.id) with
  | some previous => (existingWriter previous row, s)
  | none =>
    let rows := s.listWriters room
    let s := s.dropRetired room rows now
    if 128 ≤ (rows.filter fun item => now < writerRetainedUntil item.2).length then
      (.error 429 "writer grant capacity reached", s)
    else s.insertWriter room row

/-- `TaskWriterGrants.put` over an adapter's `commit`. -/
def putWriter (commit : Registry → Str → WriterGrant → ℤ → Reply × Registry) (s : Registry)
    (room id : Str) (body : Value) (now : ℤ) : Reply × Registry :=
  match writerRow id body now with
  | some row => commit s room row now
  | none => (.error 400 "invalid writer grant", s)

/-- `adapter.deleteResources` -/
def deleteResources (s : Registry) (k : RoomKey) : Registry :=
  { s with resources := s.resources.erase k }

/-- `TaskWriterGrants.revoke`: the first revocation counts; the report goes with it. -/
def revoke (s : Registry) (room id : Str) (now : ℤ) : Reply × Registry :=
  let revoked := match s.writers.get? (room, id) with
    | some row =>
      if row.revokedAt.isNone then s.putGrant room { row with revokedAt := some now } else s
    | none => s
  (⟨200, .revoked⟩, revoked.deleteResources (room, id))

/-- `TaskWriterGrants.authorize`: only a retained read may use a revoked or expired grant. -/
def authorize (s : Registry) (room : Str) (credential : Option Str) (now : ℤ)
    (retainedRead : Bool) : Option WriterGrant := do
  let (id, token) ← parseCredential credential
  let row ← s.writers.get? (room, id)
  guard (if retainedRead then now < writerRetainedUntil row
    else row.revokedAt.isNone && now < row.expiresAt)
  guard (constantTimeEqual (some (.str (sha256 token))) (some (.str row.tokenHash)))
  return row

def REPORT_LIFETIME_MS : ℤ := 90000

/-- The checks of `resources` on a report. -/
def validReport (grant : WriterGrant) (room : Str) (body : Json) (now : ℤ) :
    Except Throw (Option Json) := Early.run do
  Early.require (body.truthy && body.keys.length = 1) none
  let envelope ← Early.demand (body.get (lit "envelope")) none
  Early.require (envelope.truthy && (envelope.get (lit "from")).is (lit "machine") &&
    (envelope.get (lit "to")).is (lit "machine") &&
    (envelope.get (lit "recipientKeyId")).is grant.sourceKeyId) none
  let expiresAt ← Early.demand (envelope.get (lit "expiresAt")).int? none
  Early.require (expiresAt ≤ now + REPORT_LIFETIME_MS) none
  Early.require (← Early.attempt (validEnvelope (some envelope) (some (.str room)) now
    (some REPORT_LIFETIME_MS))) none
  Early.require (encodedBytes body ≤ 32000) none
  return some envelope

/-- `TaskWriterGrants.resources`: with a body, a report is stored; without one, it is read. -/
def resourcesOf (s : Registry) (room id : Str) (body : Option Json) (now : ℤ) :
    Except Throw (Reply × Registry) :=
  match s.writers.get? (room, id) with
  | none => .ok (.error 404 "unknown writer", s)
  | some grant =>
    if grant.revokedAt.isSome ∨ grant.expiresAt ≤ now then .ok (.error 404 "unknown writer", s)
    else match body with
      | some body =>
        match validReport grant room body now with
        | .error t => .error t
        | .ok none => .ok (.error 400 "invalid encrypted resource report", s)
        | .ok (some envelope) =>
          .ok (⟨200, .ok⟩, { s with resources := s.resources.put (room, id) ⟨envelope, now⟩ })
      | none =>
        match s.resources.get? (room, id) with
        | some report =>
          if (report.envelope.get (lit "expiresAt")).exceeds now then
            .ok (⟨200, .resources report⟩, s)
          else .ok (.error 404 "no fresh resource report", s)
        | none => .ok (.error 404 "no fresh resource report", s)

end Registry

end GrantTap
