import GrantTapRelay.Relay.RecipientRouting
import GrantTapRelay.Relay.SubmissionReceipts

/-!
# Room presence

`updatePresence` of `src/roomPresence/index.js`: when each device of a room was last seen. Retained
state of the devices seen last is evicted last.
-/

namespace GrantTap

open Js

def PRESENCE_RETENTION_MS : ℤ := 7 * 86400000

/-- A device of a room. -/
structure PresenceRow where
  id : Str
  role : Role
  lastSeenAt : ℤ
  deriving DecidableEq

def PRESENCE_LIMIT : ℕ := 32

/-- The rows after a device is seen; a socket without a role or a key digest is not noted. -/
def updatePresence (rows : List PresenceRow) (role : Option Role) (id : Option Str) (now : ℤ) :
    List PresenceRow :=
  let live := rows.filter fun row => now - PRESENCE_RETENTION_MS < row.lastSeenAt
  match role, id with
  | some role, some id =>
    if isDigest id then
      let noted := live.filter (fun row => row.id ≠ id || row.role ≠ role) ++ [⟨id, role, now⟩]
      noted.drop (noted.length - PRESENCE_LIMIT)
    else live
  | _, _ => live

end GrantTap
