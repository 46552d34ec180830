import GrantTapRelay.Relay.RecipientRouting
import GrantTapRelay.Relay.SubmissionReceipts

/-!
# The Worker mailboxes

`queue`, `acknowledge` and `flushTo` of `src/relay/room.js`, on the values that one Durable Object
stores under `q:machine` and `q:phone`. A handler's consecutive storage operations are one step:
the input gate of the object delivers no other event between them.
-/

namespace GrantTap

open Js Retention

def MAX_QUEUE_BYTES : ℕ := 1800000

/-- The values under `q:machine` and `q:phone`; `none` is an absent key. -/
structure RoomQueues where
  machine : Option (List QueueRow)
  phone : Option (List QueueRow)
  deriving DecidableEq

/-- A socket during a flush: its key digest, and whether `send` returns at the row of each
position (`false`: it throws). -/
structure FlushSocket where
  recipientKeyId : Option Str
  accepts : ℕ → Bool

namespace RoomQueues

/-- No mailbox is stored. -/
def empty : RoomQueues := ⟨none, none⟩

/-- `storage.get("q:role")` -/
def get (q : RoomQueues) : Role → Option (List QueueRow)
  | .machine => q.machine
  | .phone => q.phone

/-- The rows stored for a role. -/
def rows (q : RoomQueues) (role : Role) : List QueueRow := (q.get role).getD []

/-- Store or delete the value of a role. -/
def set (q : RoomQueues) (role : Role) (value : Option (List QueueRow)) : RoomQueues :=
  match role with
  | .machine => { q with machine := value }
  | .phone => { q with phone := value }

/-- `remaining.length ? storage.put(key, remaining) : storage.delete(key)` -/
def putOrDelete (q : RoomQueues) (role : Role) (remaining : List QueueRow) : RoomQueues :=
  q.set role (if remaining = [] then none else some remaining)

theorem rows_set (q : RoomQueues) (role role' : Role) (value : Option (List QueueRow)) :
    (q.set role value).rows role' = if role' = role then value.getD [] else q.rows role' := by
  cases role <;> cases role' <;> rfl

theorem rows_putOrDelete (q : RoomQueues) (role role' : Role) (remaining : List QueueRow) :
    (q.putOrDelete role remaining).rows role' =
      if role' = role then remaining else q.rows role' := by
  rw [putOrDelete, rows_set]
  by_cases h : remaining = [] <;> simp [h]

/-! ## Storing and acknowledging -/

/-- `(item.expiresAt ?? now + DEFAULT_QUEUE_TTL_MS) > now` -/
def unexpired (now : ℤ) (item : QueueRow) : Bool :=
  now < item.expiresAt.getD (now + DEFAULT_QUEUE_TTL_MS)

/-- The row of an incoming frame. -/
def newFrame (raw : Str) (deliveryId : Option Str) (expiresAt : Option ℤ) (now : ℤ) : Frame where
  raw := raw
  rawBytes := some (utf8Length raw)
  deliveryId := deliveryId
  queuedAt := none
  expiresAt := some (expiresAt.getD (now + DEFAULT_QUEUE_TTL_MS))

/-- A present, nonempty delivery id. -/
def identified (deliveryId : Option Str) : Bool := deliveryId.any (· ≠ [])

def queue (q : RoomQueues) (role : Role) (raw : Str) (deliveryId : Option Str)
    (expiresAt : Option ℤ) (now : ℤ) : RoomQueues × QueueResult :=
  if MAX_QUEUE_BYTES < utf8Length raw then (q, .oversize)
  else if expiresAt.any (· ≤ now) then (q, .expired)
  else
    let queue := (q.rows role).filter (unexpired now)
    if identified deliveryId && queue.any fun item => item.deliveryId = deliveryId then
      (q, .duplicate)
    else
      match retainSubmission queue (.frame (newFrame raw deliveryId expiresAt now)) HOLD_LIMIT
          MAX_QUEUE_BYTES with
      | (.full, _) => (q, .full)
      | (result, rows) => (q.set role (some rows), result)

def acknowledge (q : RoomQueues) (role : Role) (deliveryId : Str) : RoomQueues :=
  q.putOrDelete role ((q.rows role).filter fun item => item.deliveryId ≠ some deliveryId)

/-! ## Flushing -/

/-- `(typeof item === "string" ? now + DEFAULT_QUEUE_TTL_MS : item.expiresAt) > now` -/
def pendingAt (now : ℤ) : QueueRow → Bool
  | .legacy _ => true
  | .frame row => row.expiresAt.any (now < ·)

/-- `typeof item !== "string" && item.deliveryId` -/
def reliable : QueueRow → Bool
  | .legacy _ => false
  | .frame row => identified row.deliveryId

variable (parse : Str → Option Json)

/-- The frames passed to `send` when every row is reliable; the first throw ends the flush. -/
def flushReliable (ws : FlushSocket) : ℕ → List QueueRow → List Str
  | _, [] => []
  | i, item :: rest =>
    if matchesQueuedRecipient parse item.raw ws.recipientKeyId then
      if ws.accepts i then item.raw :: flushReliable ws (i + 1) rest else [item.raw]
    else flushReliable ws (i + 1) rest

/-- The frames passed to `send`, and the rows to store again, when some row is not reliable. -/
def flushMixed (ws : FlushSocket) : ℕ → List QueueRow → List Str × List QueueRow
  | _, [] => ([], [])
  | i, item :: rest =>
    if item.raw = [] then flushMixed ws (i + 1) rest
    else if matchesQueuedRecipient parse item.raw ws.recipientKeyId then
      if ws.accepts i then
        let (sent, remaining) := flushMixed ws (i + 1) rest
        (item.raw :: sent, if reliable item then item :: remaining else remaining)
      else ([item.raw], item :: rest)
    else
      let (sent, remaining) := flushMixed ws (i + 1) rest
      (sent, item :: remaining)

/-- The new mailboxes and the frames passed to `send`. -/
def flushTo (q : RoomQueues) (role : Role) (ws : FlushSocket) (now : ℤ) : RoomQueues × List Str :=
  if q.rows role = [] then (q, [])
  else
    let pending := (q.rows role).filter (pendingAt now)
    if pending = [] then (q.set role none, [])
    -- rewriting reliable rows would race their acknowledgement
    else if pending.all reliable then (q, flushReliable parse ws 0 pending)
    else
      let (sent, remaining) := flushMixed parse ws 0 pending
      (q.putOrDelete role remaining, sent)

/-! ## What each operation does to the rows -/

theorem queue_cases (q : RoomQueues) (role : Role) (raw : Str) (deliveryId : Option Str)
    (expiresAt : Option ℤ) (now : ℤ) :
    (q.queue role raw deliveryId expiresAt now).1 = q ∧
        (q.queue role raw deliveryId expiresAt now).2 ≠ .stored ∨
      ∃ rows, retainSubmission ((q.rows role).filter (unexpired now))
          (.frame (newFrame raw deliveryId expiresAt now)) HOLD_LIMIT MAX_QUEUE_BYTES =
            (.stored, rows) ∧
        q.queue role raw deliveryId expiresAt now = (q.set role (some rows), .stored) := by
  unfold queue
  dsimp only
  split_ifs
  · exact .inl ⟨rfl, by simp⟩
  · exact .inl ⟨rfl, by simp⟩
  · exact .inl ⟨rfl, by simp⟩
  · rcases retainSubmission_cases ((q.rows role).filter (unexpired now))
        (.frame (newFrame raw deliveryId expiresAt now)) HOLD_LIMIT MAX_QUEUE_BYTES
      with h | ⟨rows, h⟩
    · rw [h]
      exact .inl ⟨rfl, by simp⟩
    · rw [h]
      exact .inr ⟨rows, rfl, rfl⟩

/-- **A stored frame** is the last row of its mailbox. -/
theorem queue_stored {q : RoomQueues} {role : Role} {raw : Str} {deliveryId : Option Str}
    {expiresAt : Option ℤ} {now : ℤ}
    (h : (q.queue role raw deliveryId expiresAt now).2 = .stored) :
    expiresAt.any (· ≤ now) = false ∧ ∃ front,
      (q.queue role raw deliveryId expiresAt now).1.rows role =
        front ++ [.frame (newFrame raw deliveryId expiresAt now)] := by
  rcases q.queue_cases role raw deliveryId expiresAt now with ⟨-, hne⟩ | ⟨rows, hretain, hqueue⟩
  · exact absurd h hne
  · refine ⟨?_, ?_⟩
    · unfold queue at h
      dsimp only at h
      split_ifs at h with hsize hexpired
      exact Bool.eq_false_iff.2 hexpired
    · obtain ⟨front, rfl, -⟩ := retainSubmission_stored hretain
      refine ⟨front, ?_⟩
      rw [hqueue, rows_set, if_pos rfl, Option.getD_some]

theorem rows_acknowledge (q : RoomQueues) (role : Role) (deliveryId : Str) (role' : Role) :
    (q.acknowledge role deliveryId).rows role' =
      if role' = role then (q.rows role).filter fun item => item.deliveryId ≠ some deliveryId
      else q.rows role' := rows_putOrDelete ..

/-- A row that a flush of a mixed mailbox may not lose. -/
def guarded (item : QueueRow) : Bool := reliable item && item.raw ≠ []

/-- A flush stores the rows it does not deliver for good in their order, every guarded row among
them. -/
theorem flushMixed_keeps (ws : FlushSocket) :
    ∀ (i : ℕ) (rows : List QueueRow),
      (flushMixed parse ws i rows).2.Sublist rows ∧
        (flushMixed parse ws i rows).2.filter guarded = rows.filter guarded
  | _, [] => ⟨.refl _, rfl⟩
  | i, item :: rest => by
    obtain ⟨hsub, hkeep⟩ := flushMixed_keeps ws (i + 1) rest
    unfold flushMixed
    split_ifs with hraw hmatch hsend hrel
    · refine ⟨hsub.cons _, ?_⟩
      rw [hkeep, List.filter_cons_of_neg (by simp [guarded, hraw])]
    · exact ⟨hsub.cons_cons _, by simp only [List.filter_cons, hkeep]⟩
    · refine ⟨hsub.cons _, ?_⟩
      rw [hkeep, List.filter_cons_of_neg (by simp [guarded, hrel])]
    · exact ⟨.refl _, rfl⟩
    · exact ⟨hsub.cons_cons _, by simp only [List.filter_cons, hkeep]⟩

/-- **A flush**: the mailbox of another role is untouched, and the flushed mailbox loses no
guarded row that has not expired. -/
theorem rows_flushTo (q : RoomQueues) (role : Role) (ws : FlushSocket) (now : ℤ) (role' : Role) :
    Keeps (fun item => guarded item && pendingAt now item) (q.rows role')
      ((q.flushTo parse role ws now).1.rows role') := by
  have hpending : Keeps (fun item => guarded item && pendingAt now item) (q.rows role)
      ((q.rows role).filter (pendingAt now)) :=
    Keeps.filter fun item _ h => (Bool.and_eq_true _ _ ▸ h).2
  unfold flushTo
  dsimp only
  split_ifs with hempty hnone hrel
  · exact .refl _
  · rw [rows_set]
    split_ifs with hrole
    · rw [hrole, Option.getD_none, ← hnone]
      exact hpending
    · exact .refl _
  · exact .refl _
  · rw [rows_putOrDelete]
    split_ifs with hrole
    · rw [hrole]
      obtain ⟨hsub, hkeep⟩ := flushMixed_keeps parse ws 0 ((q.rows role).filter (pendingAt now))
      exact hpending.trans ((Keeps.of_sublist hsub hkeep).mono fun item h =>
        (Bool.and_eq_true _ _ ▸ h).1)
    · exact .refl _

/-- A flush stores nothing new. -/
theorem flushTo_sublist (q : RoomQueues) (role : Role) (ws : FlushSocket) (now : ℤ)
    (role' : Role) : ((q.flushTo parse role ws now).1.rows role').Sublist (q.rows role') := by
  unfold flushTo
  dsimp only
  split_ifs
  · exact .refl _
  · rw [rows_set]
    split_ifs
    · exact List.nil_sublist _
    · exact .refl _
  · exact .refl _
  · rw [rows_putOrDelete]
    split_ifs with hrole
    · rw [hrole]
      exact (flushMixed_keeps parse ws 0 _).1.trans List.filter_sublist
    · exact .refl _

/-- A flush of reliable rows drops expired rows only. -/
theorem flushTo_reliable {q : RoomQueues} {role role' : Role} {ws : FlushSocket} {now : ℤ}
    {row : QueueRow} (hreliable : ∀ row ∈ q.rows role, reliable row = true)
    (hrow : row ∈ q.rows role') (hgone : row ∉ (q.flushTo parse role ws now).1.rows role') :
    pendingAt now row = false := by
  have hall : ((q.rows role).filter (pendingAt now)).all reliable = true :=
    List.all_eq_true.2 fun item hitem => hreliable item (List.mem_of_mem_filter hitem)
  unfold flushTo at hgone
  dsimp only at hgone
  rw [if_pos hall] at hgone
  split_ifs at hgone with hempty hnone
  · exact absurd hrow hgone
  · rw [rows_set] at hgone
    split_ifs at hgone with hrole
    · by_contra hpending
      rw [hrole] at hrow
      have hin := List.mem_filter.2 ⟨hrow, Bool.not_eq_false _ ▸ hpending⟩
      rw [hnone] at hin
      cases hin
    · exact absurd hrow hgone
  · exact absurd hrow hgone

/-! ## What a flush sends -/

theorem mem_flushReliable (ws : FlushSocket) {raw : Str} :
    ∀ {i : ℕ} {rows : List QueueRow}, raw ∈ flushReliable parse ws i rows →
      ∃ row ∈ rows, row.raw = raw ∧ matchesQueuedRecipient parse raw ws.recipientKeyId = true
  | _, [], h => absurd h List.not_mem_nil
  | i, item :: rest, h => by
    unfold flushReliable at h
    split_ifs at h with hmatch hsend
    · rcases List.mem_cons.1 h with rfl | h
      · exact ⟨item, List.mem_cons_self, rfl, hmatch⟩
      · obtain ⟨row, hrow, he⟩ := mem_flushReliable ws h
        exact ⟨row, List.mem_cons_of_mem _ hrow, he⟩
    · obtain rfl := List.mem_singleton.1 h
      exact ⟨item, List.mem_cons_self, rfl, hmatch⟩
    · obtain ⟨row, hrow, he⟩ := mem_flushReliable ws h
      exact ⟨row, List.mem_cons_of_mem _ hrow, he⟩

theorem mem_flushMixed (ws : FlushSocket) {raw : Str} :
    ∀ {i : ℕ} {rows : List QueueRow}, raw ∈ (flushMixed parse ws i rows).1 →
      ∃ row ∈ rows, row.raw = raw ∧ matchesQueuedRecipient parse raw ws.recipientKeyId = true
  | _, [], h => absurd h List.not_mem_nil
  | i, item :: rest, h => by
    have hrest (h : raw ∈ (flushMixed parse ws (i + 1) rest).1) : ∃ row ∈ item :: rest,
        row.raw = raw ∧ matchesQueuedRecipient parse raw ws.recipientKeyId = true := by
      obtain ⟨row, hrow, he⟩ := mem_flushMixed ws h
      exact ⟨row, List.mem_cons_of_mem _ hrow, he⟩
    unfold flushMixed at h
    split_ifs at h with hraw hmatch hsend hrel
    · exact hrest h
    · rcases List.mem_cons.1 h with rfl | h
      · exact ⟨item, List.mem_cons_self, rfl, hmatch⟩
      · exact hrest h
    · rcases List.mem_cons.1 h with rfl | h
      · exact ⟨item, List.mem_cons_self, rfl, hmatch⟩
      · exact hrest h
    · obtain rfl := List.mem_singleton.1 h
      exact ⟨item, List.mem_cons_self, rfl, hmatch⟩
    · exact hrest h

/-- **A flush sends** rows of its mailbox that the socket matches. -/
theorem mem_flushTo {q : RoomQueues} {role : Role} {ws : FlushSocket} {now : ℤ} {raw : Str}
    (h : raw ∈ (q.flushTo parse role ws now).2) :
    ∃ row ∈ q.rows role, row.raw = raw ∧
      matchesQueuedRecipient parse raw ws.recipientKeyId = true := by
  have hpending (h : ∃ row ∈ (q.rows role).filter (pendingAt now), row.raw = raw ∧
      matchesQueuedRecipient parse raw ws.recipientKeyId = true) : ∃ row ∈ q.rows role,
        row.raw = raw ∧ matchesQueuedRecipient parse raw ws.recipientKeyId = true := by
    obtain ⟨row, hrow, he⟩ := h
    exact ⟨row, List.mem_of_mem_filter hrow, he⟩
  unfold flushTo at h
  dsimp only at h
  split_ifs at h
  · cases h
  · cases h
  · exact hpending (mem_flushReliable parse ws h)
  · exact hpending (mem_flushMixed parse ws h)

end RoomQueues

end GrantTap
