import GrantTapRelay.Relay.Validation
import Mathlib.Data.List.Sort

/-!
# The policy of task jobs

`src/taskDispatch/policy.js`: what a submitted job must look like, and how a stored job changes.
Both stores apply these functions inside their transactions. SHA-256 is the parameter `sha256`.

A job row keeps its ciphertext (`box`, `nonce`) only while it is queued, accepted or failed.
-/

namespace GrantTap

open Js

def JOB_TTL_MS : ℤ := 30 * 86400000

def JOB_BYTES : ℕ := 22000000

def ROOM_JOB_BYTES : ℕ := 48000000

def ROOM_JOB_LIMIT : ℕ := 100

def ROOM_RECEIPT_LIMIT : ℕ := 10000

/-! ## Jobs -/

inductive JobState
  | queued
  | accepted
  | completed
  | failed
  | cancelled
  | expired
  deriving DecidableEq

/-- Where the Worker keeps the ciphertext of a stored row. -/
structure Cipher where
  count : ℕ
  digest : Str
  bytes : ℕ
  deriving DecidableEq

/-- A stored job. `room` and `cipher` are members of the Worker's rows only. -/
structure Job where
  id : Str
  room : Option Str
  state : JobState
  notBefore : ℤ
  expiresAt : ℤ
  createdAt : ℤ
  updatedAt : ℤ
  acceptanceHash : Json
  envelope : Json
  writerId : Option Str
  writerSourceKeyId : Option Json
  fingerprint : Str
  bytes : ℕ
  claimId : Option Str
  resultCode : Option Str
  resultEnvelope : Option Json
  cipher : Option Cipher

/-- What the relay shows of a job. -/
structure PublicJob where
  id : Str
  state : JobState
  notBefore : ℤ
  expiresAt : ℤ
  createdAt : ℤ
  updatedAt : ℤ
  envelope : Json
  resultCode : Option Str
  writerId : Option Str
  resultEnvelope : Option Json

/-- When a job may start and when it ends: two safe integers. -/
structure JobWindow where
  notBefore : ℤ
  expiresAt : ℤ
  notBefore_nonneg : 0 ≤ notBefore
  notBefore_lt : notBefore < expiresAt
  expiresAt_le : expiresAt ≤ Number.maxSafe

/-- A submitted job that passed every check. -/
structure NormalizedJob extends JobWindow where
  acceptanceHash : Json
  envelope : Json
  writerId : Option Str
  writerSourceKeyId : Option Json

/-- The reply of a transition, with the row to store when it has one. -/
structure JobResult where
  status : ℕ
  row : Option Job
  error : String

/-- The states whose rows occupy the room's pending capacity. -/
def JobState.retainsPayload : JobState → Bool
  | .queued => true
  | .accepted => true
  | .failed => true
  | _ => false

def retainsTaskPayload (row : Job) : Bool := row.state.retainsPayload

/-- `/^[a-zA-Z0-9][a-zA-Z0-9_-]{7,119}$/` -/
def validJobId (id : Str) : Bool :=
  match id with
  | first :: rest => (isLetter first || isDigit first) && ofClass isWord 7 119 rest
  | [] => false

/-- `validJobId` of a parsed value. -/
def isJobId (value : Value) : Bool := value.str?.any validJobId

/-! ## Submissions -/

def JOB_FIELDS : List Str :=
  ["notBefore", "expiresAt", "acceptanceHash", "envelope", "writerId", "writerSourceKeyId"].map lit

/-- `a.localeCompare(b) <= 0` on the ASCII names of envelope members: their alphabetical order,
case ignored. -/
def localeLe (a b : Str) : Bool := unitsLe (a.map lowerUnit) (b.map lowerUnit)

/-- An object with its members in locale order. -/
def orderMembers : Json → Json
  | .obj members => .obj (members.insertionSort fun a b => localeLe a.1 b.1)
  | j => j

/-- The checks of `normalizeJob` on the two times. -/
def jobWindow? (notBefore expiresAt : Value) (now : ℤ) : Option JobWindow :=
  match notBefore.int?, h : expiresAt.int? with
  | some t, some e =>
    if ht : 0 ≤ t ∧ t < e then
      if now < e ∧ e - t ≤ JOB_TTL_MS ∧ e ≤ now + JOB_TTL_MS then
        some ⟨t, e, ht.1, ht.2, (Value.int?_bounds h).2⟩
      else none
    else none
  | _, _ => none

namespace NormalizedJob

/-- The members that follow the two times. -/
def tail (job : NormalizedJob) : List (Str × Json) :=
  [(lit "acceptanceHash", job.acceptanceHash), (lit "envelope", job.envelope)] ++
    match job.writerId with
    | some writer => (lit "writerId", .str writer) ::
        (job.writerSourceKeyId.map fun key => (lit "writerSourceKeyId", key)).toList
    | none => []

/-- The object that `normalizeJob` serializes. -/
def toJson (job : NormalizedJob) : Json :=
  .obj ((lit "notBefore", .int job.notBefore) :: (lit "expiresAt", .int job.expiresAt) :: job.tail)

/-- Its JSON text, whose digest is the fingerprint of the job. -/
def canonical (job : NormalizedJob) : Str := job.toJson.stringify

def bytes (job : NormalizedJob) : ℕ := utf8Length job.canonical

end NormalizedJob

/-- `null` for anything but a complete, bounded job for `room` under `id`. -/
def normalizeJob (room id : Str) (body : Value) (now : ℤ) : Except Throw (Option NormalizedJob) :=
  Early.run do
    Early.require (validRoom room && validJobId id) none
    let body ← Early.demand body none
    Early.require (body.isObject && body.keys.all fun key => JOB_FIELDS.contains key) none
    let writerId := body.get (lit "writerId")
    let writerSourceKeyId := body.get (lit "writerSourceKeyId")
    Early.require (writerId.isNone || isJobId writerId) none
    Early.require (← Early.attempt (if writerId.isSome then testDigest writerSourceKeyId.orEmpty
      else .ok true)) none
    Early.require (writerId.isSome || writerSourceKeyId.isNone) none
    let window ← Early.demand
      (jobWindow? (body.get (lit "notBefore")) (body.get (lit "expiresAt")) now) none
    let acceptanceHash := body.get (lit "acceptanceHash")
    Early.require (← Early.attempt (testDigest acceptanceHash.orEmpty)) none
    let envelope ← Early.demand (body.get (lit "envelope")) none
    Early.require (envelope.truthy && (envelope.get (lit "deliveryId")).is id &&
      (envelope.get (lit "to")).is (lit "machine")) none
    Early.require (← Early.attempt (testDigest (envelope.get (lit "recipientKeyId")).orEmpty)) none
    Early.require ((envelope.get (lit "expiresAt")).same (body.get (lit "expiresAt"))) none
    Early.require (← Early.attempt (validEnvelope (some envelope) (some (.str room)) now
      (some JOB_TTL_MS))) none
    let normalized : NormalizedJob :=
      { window with
        acceptanceHash := acceptanceHash.getD .null, envelope := orderMembers envelope,
        writerId := writerId.str?, writerSourceKeyId := writerSourceKeyId }
    Early.require (normalized.bytes ≤ JOB_BYTES) none
    return some normalized

/-- The row that `put` stores. -/
def queuedJob (job : NormalizedJob) (fingerprint id : Str) (room : Option Str) (now : ℤ) : Job where
  id := id
  room := room
  state := .queued
  notBefore := job.notBefore
  expiresAt := job.expiresAt
  createdAt := now
  updatedAt := now
  acceptanceHash := job.acceptanceHash
  envelope := job.envelope
  writerId := job.writerId
  writerSourceKeyId := job.writerSourceKeyId
  fingerprint := fingerprint
  bytes := job.bytes
  claimId := none
  resultCode := none
  resultEnvelope := none
  cipher := none

/-! ## Transitions -/

def publicJob (row : Job) : PublicJob where
  id := row.id
  state := row.state
  notBefore := row.notBefore
  expiresAt := row.expiresAt
  createdAt := row.createdAt
  updatedAt := row.updatedAt
  envelope := row.envelope
  resultCode := row.resultCode
  writerId := row.writerId
  resultEnvelope := row.resultEnvelope

/-- The members of an envelope that carry ciphertext. -/
def ciphertextFields : List Str := [lit "box", lit "nonce"]

def retireJob (row : Job) (state : JobState) (updatedAt : ℤ) : Job :=
  { row with
    envelope := row.envelope.without ciphertextFields, state := state, updatedAt := updatedAt,
    bytes := 0 }

/-- A queued job past its expiry, which `expireJob` replaces by a new row. -/
def expires (row : Job) (now : ℤ) : Bool := row.state = .queued && row.expiresAt ≤ now

def expireJob (row : Job) (now : ℤ) : Job :=
  if expires row now then retireJob row .expired row.expiresAt else row

/-- Equality of two strings without an early exit; any other values differ. -/
def constantTimeEqual (left right : Value) : Bool :=
  match left.str?, right.str? with
  | some a, some b =>
    a.length = b.length && (List.zipWith (· ^^^ ·) a b).foldl (· ||| ·) 0 = 0
  | _, _ => false

/-- The receiver names the job's recipient and knows its acceptance token. -/
def validProof (row : Job) (proof : Value) (proofHash : Str) : Except Throw Bool := Early.run do
  Early.require ((proof.get (lit "recipientKeyId")).same
    (row.envelope.get (lit "recipientKeyId"))) false
  Early.require (← Early.attempt (testDigest (proof.get (lit "token")).orEmpty)) false
  return constantTimeEqual (some (.str proofHash)) (some row.acceptanceHash)

/-- A refusal. -/
def refuse (status : ℕ) (error : String) : JobResult := ⟨status, none, error⟩

/-- The reply that stores `row`. -/
def accept (row : Job) : JobResult := ⟨200, some row, ""⟩

def claimJob (row : Job) (proof : Value) (now : ℤ) (proofHash : Str) :
    Except Throw JobResult := Early.run do
  Early.require (← Early.attempt (validProof row proof proofHash))
    (refuse 403 "invalid acceptance proof")
  let current := expireJob row now
  let claimId ← Early.demand ((proof.get (lit "claimId")).str?.filter validJobId)
    (refuse 400 "invalid receiver attempt")
  Early.require (current.state != .accepted)
    (if current.claimId = some claimId then accept current
      else refuse 409 "another receiver accepted this job")
  Early.require (current.state = .queued && current.notBefore ≤ now)
    (refuse 409 "job is not ready")
  return accept { current with state := .accepted, claimId := some claimId, updatedAt := now }

def cancelJob (row : Job) (now : ℤ) : JobResult :=
  let current := expireJob row now
  if current.state = .cancelled then accept current
  else if current.state ≠ .queued ∧ current.state ≠ .failed then
    refuse 409 "job has already left the relay queue"
  else accept (retireJob current .cancelled now)

/-- `proof.state` as a final state. -/
def finalState (proof : Value) : Option JobState :=
  if (proof.get (lit "state")).is (lit "completed") then some .completed
  else if (proof.get (lit "state")).is (lit "failed") then some .failed else none

def RESULT_CODES : List Str :=
  ["provider_unavailable", "policy_denied", "delivery_failed", "cancelled",
    "confirmation_required"].map lit

/-- `new TextEncoder().encode(JSON.stringify(value)).length` -/
def encodedBytes (value : Json) : ℕ := utf8Length value.stringify

/-- The checks of `finishJob` on an encrypted result. -/
def validResult (row : Job) (result : Json) (now : ℤ) : Except Throw Bool := Early.run do
  Early.require (row.writerId.isSome && result.truthy) false
  Early.require ((result.get (lit "from")).is (lit "machine") &&
    (result.get (lit "to")).is (lit "machine")) false
  Early.require ((result.get (lit "recipientKeyId")).same row.writerSourceKeyId) false
  Early.require (← Early.attempt (validEnvelope (some result) (row.envelope.get (lit "room")) now
    (some JOB_TTL_MS))) false
  return encodedBytes result ≤ 32000

def finishJob (row : Job) (proof : Value) (now : ℤ) (proofHash : Str) :
    Except Throw JobResult := Early.run do
  Early.require (← Early.attempt (validProof row proof proofHash))
    (refuse 403 "invalid acceptance proof")
  let claimId ← Early.demand row.claimId (refuse 409 "job has not been accepted")
  Early.require (isJobId (proof.get (lit "claimId")) && (proof.get (lit "claimId")).is claimId)
    (refuse 403 "invalid receiver attempt")
  let state ← Early.demand (finalState proof) (refuse 400 "invalid final state")
  let resultCode := proof.get (lit "resultCode")
  Early.require (resultCode.isNone || resultCode.str?.any fun code => RESULT_CODES.contains code)
    (refuse 400 "invalid result code")
  Early.require (row.state != state) (accept row)
  Early.require (row.state = .accepted) (refuse 409 "job has not been accepted")
  let resultEnvelope := proof.get (lit "resultEnvelope")
  Early.require (← Early.attempt (match resultEnvelope with
    | none => .ok true
    | some result => validResult row result now)) (refuse 400 "invalid encrypted task result")
  let result := if state = .completed then retireJob row state now
    else { row with state := state, updatedAt := now }
  return accept
    { result with
      resultCode := resultCode.str? <|> result.resultCode,
      resultEnvelope := resultEnvelope <|> result.resultEnvelope }

/-- Status lists never echo complete ciphertext. -/
def taskJobMetadata (job : PublicJob) : PublicJob :=
  { job with envelope := job.envelope.without ciphertextFields }

end GrantTap
