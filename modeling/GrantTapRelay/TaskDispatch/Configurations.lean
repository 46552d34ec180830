import GrantTapRelay.TaskDispatch.Records

/-!
# Project configurations

`src/taskDispatch/configurations/`: the checks of `TaskConfigurations` and the adapters of the two
runtimes, which commit alike and clean up differently.
-/

namespace GrantTap

open Js

def CONFIGURATION_BYTES : ℕ := 96000

/-- `ttl` -/
def CONFIGURATION_TTL_MS : ℤ := 30 * 86400000

/-- `typeof id === 'string' && /^[a-f0-9]{64}$/.test(id)` -/
def validDigest (value : Value) : Bool := value.str?.any isDigest

def visible (row : Configuration) : VisibleConfiguration where
  id := row.id
  issuerKeyId := row.issuerKeyId
  expiresAt := row.expiresAt
  envelope := row.envelope
  updatedAt := row.updatedAt

def CONFIGURATION_FIELDS : List Str := ["issuerKeyId", "expiresAt", "envelope"].map lit

/-- The row that `TaskConfigurations.put` commits. -/
def configurationRow (room id : Str) (body : Value) (now : ℤ) : Early Reply Configuration := do
  let invalid := Reply.error 400 "invalid encrypted Project configuration"
  Early.require (isDigest id) invalid
  let body ← Early.demand body invalid
  Early.require (body.truthy && body.keys.all fun key => CONFIGURATION_FIELDS.contains key) invalid
  let issuerKeyId ← Early.demand ((body.get (lit "issuerKeyId")).str?.filter isDigest) invalid
  let expiresAt ← Early.demand (body.get (lit "expiresAt")).int? invalid
  Early.require (now < expiresAt && expiresAt ≤ now + CONFIGURATION_TTL_MS) invalid
  let envelope ← Early.demand (body.get (lit "envelope")) invalid
  Early.require ((envelope.get (lit "expiresAt")).same (body.get (lit "expiresAt")) &&
    (envelope.get (lit "deliveryId")).is id && (envelope.get (lit "to")).is (lit "machine") &&
    validDigest (envelope.get (lit "recipientKeyId"))) invalid
  Early.require (← Early.attempt (validEnvelope (some envelope) (some (.str room)) now
    (some CONFIGURATION_TTL_MS))) invalid
  Early.require (encodedBytes body ≤ CONFIGURATION_BYTES)
    (.error 400 "configuration exceeds its bound")
  return { id := id, issuerKeyId := issuerKeyId, expiresAt := expiresAt, envelope := envelope,
           bytes := encodedBytes body, updatedAt := now }

/-- `null` when `next` fits, with the status of its reply. -/
def configurationCapacity (rows : List Configuration) (next : Configuration) (now : ℤ) : ℕ :=
  let active := rows.filter fun row => now < row.expiresAt
  let previous := active.find? fun row => row.id = next.id
  if (previous.isNone ∧ 128 ≤ active.length) ∨ 8000000 < (active.map (·.bytes)).sum -
      (previous.elim 0 (·.bytes)) + next.bytes then 429
  else if previous.isSome then 200 else 201

namespace Registry

/-- `adapter.list(room)` -/
def listConfigurations (s : Registry) (room : Str) : List (RoomKey × Configuration) :=
  (roomRows s.configurations room).take 129

/-- `adapter.commit`: drop the expired rows of the room, then store `row` if it fits. -/
def commitConfiguration (s : Registry) (room : Str) (row : Configuration) (now : ℤ) :
    Reply × Registry :=
  let rows := s.listConfigurations room
  let kept := rows.foldl (fun t old => if old.2.expiresAt ≤ now then t.erase (room, old.2.id) else t)
    s.configurations
  let status := configurationCapacity (rows.map Prod.snd) row now
  if status < 300 then
    (⟨status, .configuration (some (visible row))⟩,
      { s with configurations := kept.put (room, row.id) row })
  else (.error status "configuration capacity reached", { s with configurations := kept })

/-- `TaskConfigurations.put` -/
def putConfiguration (s : Registry) (room id : Str) (body : Value) (now : ℤ) :
    Except Throw (Reply × Registry) :=
  match configurationRow room id body now with
  | .error (.thrown t) => .error t
  | .error (.returned reply) => .ok (reply, s)
  | .ok row => .ok (s.commitConfiguration room row now)

/-- `TaskConfigurations.get`: an expired row is deleted when it is read. -/
def getConfiguration (s : Registry) (room id : Str) (now : ℤ) :
    Option VisibleConfiguration × Registry :=
  if isDigest id then
    match s.configurations.get? (room, id) with
    | none => (none, s)
    | some row =>
      if row.expiresAt ≤ now then
        (none, { s with configurations := s.configurations.erase (room, id) })
      else (some (visible row), s)
  else (none, s)

/-- The Node adapter deletes every expired row. -/
def maintainNode (s : Registry) (now : ℤ) : Registry :=
  { s with configurations := s.configurations.filter fun _ row => now < row.expiresAt }

/-- The Worker adapter reads at most 129 rows; it returns the earliest expiry among those kept. -/
def maintainWorker (s : Registry) (now : ℤ) : Option ℤ × Registry :=
  let rows := s.configurations.rows.insertionSort (fun a b =>
    unitsLe (a.1.1 ++ lit ":" ++ a.1.2) (b.1.1 ++ lit ":" ++ b.1.2)) |>.take 129
  rows.foldl (fun acc r =>
    if r.2.expiresAt ≤ now then
      (acc.1, { acc.2 with configurations := acc.2.configurations.erase r.1 })
    else (some (acc.1.elim r.2.expiresAt (min r.2.expiresAt)), acc.2)) (none, s)

end Registry

end GrantTap
