import GrantTapRelay.Library.Early
import GrantTapRelay.Relay.RecipientRouting

/-!
# The retained-state header of an envelope

`validRetainedState` of `src/retainedState/policy.js`: an envelope either has none of the four
state members, or is a machine-to-phone envelope with a complete, bounded header.
-/

namespace GrantTap

open Js

def STATE_TTL_MS : ℤ := 7 * 86400000

/-- `/^[a-f0-9]{64}$/.test(value)`, with the string coercion of `test`. -/
def testDigest (value : Value) : Except Throw Bool := value.test isDigest

def validRetainedState (envelope : Json) (now : ℤ) : Except Throw Bool :=
  let stateKey := envelope.get (lit "stateKey")
  let stateRevision := envelope.get (lit "stateRevision")
  let statePriority := envelope.get (lit "statePriority")
  let stateGroup := envelope.get (lit "stateGroup")
  if stateKey.nullish && stateRevision.nullish && statePriority.nullish && stateGroup.nullish then
    .ok true
  else Early.run do
    Early.require ((envelope.get (lit "from")).is (lit "machine") &&
      (envelope.get (lit "to")).is (lit "phone")) false
    Early.require (← Early.attempt (testDigest (envelope.get (lit "recipientKeyId")).orEmpty)) false
    Early.require (← Early.attempt (testDigest stateKey.orEmpty)) false
    Early.require (stateGroup.nullish || (← Early.attempt (testDigest stateGroup))) false
    return stateRevision.int?.any (fun n => 0 ≤ n && n ≤ now + 300000) &&
      statePriority.int?.any (fun n => 0 ≤ n && n ≤ 3) &&
      (envelope.get (lit "expiresAt")).int?.any fun n => n ≤ now + STATE_TTL_MS

end GrantTap
