import GrantTapRelay.Relay.CoolDown
import GrantTapRelay.Relay.Validation

/-!
# The connection policy

`src/relay/connectionPolicy.js`: why a socket is closed, what becomes of a frame that was offered to
a mailbox, and how many frames a socket may send. Both runtimes share it.
-/

namespace GrantTap

open Js

/-! ## Closing a socket -/

/-- The tokens of `CLOSE_POLICIES`. -/
inductive CloseToken
  | admissionExpired
  | admissionRequired
  | hubAdmissionRequired
  | admissionRenewalRejected
  | coolDown
  | rateLimit
  | oversize
  deriving DecidableEq

structure ClosePolicy where
  code : ℕ
  coolDown : Bool
  admission : Bool

namespace CloseToken

def text : CloseToken → Str
  | admissionExpired => lit "admission-expired"
  | admissionRequired => lit "admission-required"
  | hubAdmissionRequired => lit "hub-admission-required"
  | admissionRenewalRejected => lit "admission-renewal-rejected"
  | coolDown => lit "cool-down"
  | rateLimit => lit "rate-limit"
  | oversize => lit "oversize"

/-- `CLOSE_POLICIES[token]` -/
def policy : CloseToken → ClosePolicy
  | admissionExpired => ⟨4401, true, true⟩
  | admissionRequired => ⟨4403, true, true⟩
  | hubAdmissionRequired => ⟨4406, true, true⟩
  | admissionRenewalRejected => ⟨4409, true, true⟩
  | coolDown => ⟨4425, false, false⟩
  | rateLimit => ⟨4429, true, false⟩
  | oversize => ⟨1009, true, false⟩

end CloseToken

/-- `Math.ceil(ms / 1000)` -/
def ceilSeconds (ms : ℤ) : ℕ := ((ms + 999) / 1000).toNat

def closeReason (token : CloseToken) (retryAfterSeconds : ℕ) : Str :=
  if 0 < retryAfterSeconds then
    token.text ++ lit "; retry-after=" ++ Number.digits retryAfterSeconds
  else token.text

/-- The code and the reason of a close. -/
structure SocketClose where
  code : ℕ
  reason : Str
  deriving DecidableEq

/-- The key that a close with a token strikes. -/
def struckKey (token : CloseToken) (identity : Option Str) : Option Str :=
  if token.policy.coolDown then identity.filter (· ≠ []) else none

/-- `applyPolicyClose`: the close, and the cool-downs. -/
def applyPolicyClose (token : CloseToken) (identity : Option Str) (coolDowns : CoolDownRegistry)
    (limits : CoolDownLimits) (now : ℤ) : SocketClose × CoolDownRegistry :=
  match struckKey token identity with
  | none => (⟨token.policy.code, closeReason token 0⟩, coolDowns)
  | some key =>
    let (backoffMs, coolDowns) := coolDowns.strike limits key token.policy.admission now
    (⟨token.policy.code, closeReason token (ceilSeconds backoffMs)⟩, coolDowns)

/-- `refuseCoolingFrame` -/
def refuseCoolingFrame (remainingMs : ℤ) : SocketClose :=
  ⟨CloseToken.coolDown.policy.code, closeReason .coolDown (max 1 (ceilSeconds remainingMs))⟩

/-- A phone hub's `hub-` sender prefix selects a clearer reason; it never grants admission. -/
def admissionCloseToken (envelope : Json) : CloseToken :=
  if (envelope.get (lit "senderId")).str?.any (lit "hub-").isPrefixOf then .hubAdmissionRequired
  else .admissionRequired

/-! ## Offering a frame to a mailbox -/

inductive DropReason
  | oversize
  | full
  | noRoom
  | expired
  | storageUnavailable
  deriving DecidableEq

def DropReason.text : DropReason → Str
  | oversize => lit "oversize"
  | full => lit "full"
  | noRoom => lit "no-room"
  | expired => lit "expired"
  | storageUnavailable => lit "storage-unavailable"

inductive QueueOutcome
  | forward
  | close (token : CloseToken)
  | drop (reason : DropReason)
  deriving DecidableEq

/-- A submission rejected by storage keeps its control socket; protocol oversize still closes. -/
def queueOutcome (result : QueueResult) (deliveryId : Option Str) : QueueOutcome :=
  match result with
  | .stored => .forward
  | .duplicate => .forward
  | .oversize => if isDurableSubmission deliveryId then .drop .oversize else .close .oversize
  | .full => .drop .full
  | .noRoom => .drop .noRoom
  | .expired => .drop .expired

theorem queueOutcome_forward {result : QueueResult} {deliveryId : Option Str} :
    queueOutcome result deliveryId = .forward ↔ result = .stored ∨ result = .duplicate := by
  cases result <;> simp only [queueOutcome, reduceCtorEq, or_self, or_true, iff_false,
    or_false]
  split_ifs <;> simp

/-! ## Counting frames -/

def MAX_SOCKET_MESSAGES_PER_SECOND : ℕ := 300

/-- The frames of a socket since `windowStartedAt`; `none` is `-Infinity`. -/
structure FrameWindow where
  windowStartedAt : Option ℤ
  windowMessages : ℕ
  deriving DecidableEq

/-- A fixed one-second window; whether one more frame is accepted, and the window after it. -/
def acceptSocketFrame (window : FrameWindow) (now : ℤ) : Bool × FrameWindow :=
  let window := if window.windowStartedAt.any fun start => now - start < 1000 then window
    else ⟨some now, 0⟩
  let window := { window with windowMessages := window.windowMessages + 1 }
  (window.windowMessages ≤ MAX_SOCKET_MESSAGES_PER_SECOND, window)

end GrantTap
