import GrantTapRelay.RetainedState.Validity

/-!
# Envelope validation

`src/relay/relayValidation.js`: the wire grammar of an envelope. `envelopeProblem` runs its checks
in the order of the source, because a check whose regular expression coerces its argument may
throw. `Admitted` collects what the rest of the relay relies on for an envelope without a problem.
-/

namespace GrantTap

open Js

def MAX_ENVELOPE_TTL_MS : ℤ := 25 * 60 * 60 * 1000

def MAX_SUBMISSION_TTL_MS : ℤ := 31 * 24 * 60 * 60 * 1000

def validRoom (room : Str) : Bool := ofClass isLowerHex 16 64 room

def validRoomCredential (value : Str) : Bool := isDigest value

def validIdentifier (value : Value) (max : ℕ) : Bool :=
  value.str?.any fun s => 1 ≤ s.length && s.length ≤ max

/-- The six bits of a base64 digit. -/
def sextet (u : UInt16) : ℕ :=
  if unitIn 'A' 'Z' u then u.toNat - 'A'.toNat
  else if unitIn 'a' 'z' u then u.toNat - 'a'.toNat + 26
  else if isDigit u then u.toNat - '0'.toNat + 52
  else if u = '+'.toNat.toUInt16 then 62 else 63

/-- `btoa(atob(value)) === value` for a text of whole quanta: the bits that the padding leaves over
are zero. -/
def canonicalBase64 (s : Str) : Bool :=
  let pad := s.reverse.takeWhile (· == '='.toNat.toUInt16)
  ((s.take (s.length - pad.length)).getLast?.all fun u => sextet u % 4 ^ pad.length = 0)

/-- `validBase64` -/
def validBase64 (value : Value) (minLength maxLength : ℕ) : Bool :=
  value.str?.any fun s => minLength ≤ s.length && s.length ≤ maxLength && s.length % 4 = 0 &&
    isPaddedBase64 s && canonicalBase64 s

def ENVELOPE_FIELDS : List Str :=
  ["v", "room", "from", "to", "senderId", "deliveryId", "wake", "expiresAt", "nonce", "box",
    "recipientKeyId", "stateKey", "stateRevision", "statePriority", "stateGroup"].map lit

/-- What is wrong with an envelope. -/
inductive EnvelopeProblem
  | invalid
  | expired
  deriving DecidableEq

/-- `['user-message-', 'attachment-'].some(prefix => …)` -/
def extendedDelivery (deliveryId : Value) : Bool :=
  deliveryId.str?.any fun id => [lit "user-message-", lit "attachment-"].any fun pre =>
    pre.isPrefixOf id && pre.length < id.length

/-- The checks of `envelopeProblem`, and whether an envelope that passes them has expired. -/
def envelopeChecks (envelope : Json) (room : Value) (now : ℤ) (maximumTtlMs : Option ℤ) :
    Early (Option EnvelopeProblem) (Option EnvelopeProblem) := do
  let field := fun name => envelope.get (lit name)
  let invalid := some EnvelopeProblem.invalid
  Early.require (envelope.isObject && (field "v").same (some (.int 1)) &&
    (field "room").same room) invalid
  Early.require (envelope.keys.all fun key => ENVELOPE_FIELDS.contains key) invalid
  Early.require ((field "from").is (lit "machine") || (field "from").is (lit "phone")) invalid
  Early.require ((field "to").is (lit "machine") || (field "to").is (lit "phone") ||
    (field "to").is (lit "all")) invalid
  Early.require (validIdentifier (field "senderId") 180) invalid
  Early.require ((field "deliveryId").nullish || validIdentifier (field "deliveryId") 180) invalid
  Early.require ((field "recipientKeyId").nullish ||
    (← Early.attempt (testDigest (field "recipientKeyId").orEmpty))) invalid
  Early.require ((field "wake").nullish || (field "wake") matches some (.bool _)) invalid
  let extended := (field "from").is (lit "phone") && (field "to").is (lit "machine") &&
    extendedDelivery (field "deliveryId")
  Early.require (← Early.attempt (validRetainedState envelope now)) invalid
  let ttlLimit := maximumTtlMs.getD (if (field "stateKey").truthy then STATE_TTL_MS
    else if extended then MAX_SUBMISSION_TTL_MS else MAX_ENVELOPE_TTL_MS)
  Early.require ((field "expiresAt").nullish ||
    (field "expiresAt").int?.any fun t => t ≤ now + ttlLimit) invalid
  Early.require ((field "nonce").str?.any (ofClass isBase64 32 32)) invalid
  Early.require ((field "box").str?.any fun s => 24 ≤ s.length && isPaddedBase64 s) invalid
  return if (field "expiresAt").int?.any (· ≤ now) then some .expired else none

/-- `null` for a deliverable envelope. -/
def envelopeProblem (envelope : Value) (room : Value) (now : ℤ) (maximumTtlMs : Option ℤ) :
    Except Throw (Option EnvelopeProblem) :=
  match envelope with
  | none => .ok (some .invalid)
  | some e => (envelopeChecks e room now maximumTtlMs).run

def validEnvelope (envelope : Value) (room : Value) (now : ℤ) (maximumTtlMs : Option ℤ) :
    Except Throw Bool := (envelopeProblem envelope room now maximumTtlMs).map (· == none)

end GrantTap
