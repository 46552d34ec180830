import GrantTapRelay.Library.Table
import GrantTapRelay.Relay.SubmissionReceipts

/-!
# The Node store: rooms and mailboxes

`src/node/store.js`: the `rooms` table of `RelayStore` and the two mailboxes each row carries. A
mailbox is a column with the JSON text of its rows; the model keeps the rows. `Date.now()` is the
argument `now` of an operation.
-/

namespace GrantTap

open Js Retention

/-- A registered device. -/
structure PushToken where
  token : Str
  environment : Str
  bundleId : Str
  updatedAt : ℤ
  deriving DecidableEq

/-- A row of the `rooms` table. -/
structure RoomRow where
  authSha256 : Option Str
  pushTokens : List PushToken
  machineQueue : List QueueRow
  phoneQueue : List QueueRow
  updatedAt : ℤ

namespace RoomRow

/-- The queue column of a role. -/
def queue (row : RoomRow) : Role → List QueueRow
  | .machine => row.machineQueue
  | .phone => row.phoneQueue

/-- Overwrite the queue column of a role. -/
def setQueue (row : RoomRow) (role : Role) (rows : List QueueRow) (now : ℤ) : RoomRow :=
  match role with
  | .machine => { row with machineQueue := rows, updatedAt := now }
  | .phone => { row with phoneQueue := rows, updatedAt := now }

theorem queue_setQueue (row : RoomRow) (role role' : Role) (rows : List QueueRow) (now : ℤ) :
    (row.setQueue role rows now).queue role' = if role' = role then rows else row.queue role' := by
  cases role <;> cases role' <;> rfl

end RoomRow

/-- The rooms of the database. -/
abbrev RelayStore := Table Str RoomRow

namespace RelayStore

/-- The rows stored for a role of a room. -/
def rows (s : RelayStore) (room : Str) (role : Role) : List QueueRow :=
  match s.get? room with
  | none => []
  | some row => row.queue role

/-- An `UPDATE` of the queue column: a room without a row stays without one. -/
def writeQueue (s : RelayStore) (room : Str) (role : Role) (queue : List QueueRow) (now : ℤ) :
    RelayStore :=
  match s.get? room with
  | none => s
  | some row => s.put room (row.setQueue role queue now)

/-- `item.expiresAt > Date.now()` -/
def live (now : ℤ) (item : QueueRow) : Bool :=
  match item.expiresAt with
  | some t => now < t
  | none => false

/-- Read a mailbox, dropping its expired rows. -/
def queue (s : RelayStore) (room : Str) (role : Role) (now : ℤ) : RelayStore × List QueueRow :=
  match s.get? room with
  | none => (s, [])
  | some row =>
    let stored := row.queue role
    let alive := stored.filter (live now)
    (if alive.length ≠ stored.length then s.writeQueue room role alive now else s, alive)

/-- The row of an incoming frame. -/
def newFrame (raw : Str) (deliveryId : Option Str) (expiresAt : Option ℤ) (now : ℤ) : Frame where
  raw := raw
  rawBytes := some (utf8Length raw)
  deliveryId := deliveryId
  queuedAt := some now
  expiresAt := some (expiresAt.getD (now + DEFAULT_QUEUE_TTL_MS))

/-- Retain a frame; only `oversize` means that it can never be retained. -/
def enqueue (s : RelayStore) (room : Str) (role : Role) (raw : Str) (deliveryId : Option Str)
    (expiresAt : Option ℤ) (now : ℤ) : RelayStore × QueueResult :=
  let rawBytes := utf8Length raw
  let limits := submissionRetentionLimits role deliveryId
  if limits.frameBytes < rawBytes then (s, .oversize)
  else if expiresAt.any (· ≤ now) then (s, .expired)
  else if (s.get? room).isNone then (s, .noRoom)
  else
    let (s, queue) := s.queue room role now
    if queue.any fun item => item.deliveryId = deliveryId then (s, .duplicate)
    else
      match retainSubmission queue (.frame (newFrame raw deliveryId expiresAt now)) HOLD_LIMIT
          limits.queueBytes with
      | (.full, _) => (s, .full)
      | (result, rows) => (s.writeQueue room role rows now, result)

def acknowledge (s : RelayStore) (room : Str) (role : Role) (deliveryId : Str) (now : ℤ) :
    RelayStore :=
  let (s, queue) := s.queue room role now
  let remaining := queue.filter fun item => item.deliveryId ≠ some deliveryId
  if remaining.length ≠ queue.length then s.writeQueue room role remaining now else s

/-! ## What each operation does to the rows -/

/-- Writing a mailbox changes that mailbox of an existing room, and nothing else. -/
theorem rows_writeQueue (s : RelayStore) {room : Str} (role : Role) (queue : List QueueRow)
    (now : ℤ) (h : (s.get? room).isSome) (room' : Str) (role' : Role) :
    (s.writeQueue room role queue now).rows room' role' =
      if room' = room ∧ role' = role then queue else s.rows room' role' := by
  obtain ⟨row, hrow⟩ := Option.isSome_iff_exists.1 h
  simp only [writeQueue, hrow, rows, Table.get?_put]
  by_cases hroom : room' = room
  · subst hroom
    simp only [if_true, RoomRow.queue_setQueue, true_and, hrow]
  · simp [hroom]

theorem isSome_writeQueue (s : RelayStore) (room : Str) (role : Role) (queue : List QueueRow)
    (now : ℤ) (room' : Str) :
    ((s.writeQueue room role queue now).get? room').isSome = (s.get? room').isSome := by
  unfold writeQueue
  split
  · rfl
  · rename_i row hrow
    rw [Table.get?_put]
    split_ifs with h
    · rw [h, hrow]; rfl
    · rfl

/-- Writing a mailbox only when it shrank sets it either way. -/
theorem rows_rewrite (s : RelayStore) {room : Str} {role : Role} {queue remaining : List QueueRow}
    (hq : s.rows room role = queue) (hsub : remaining.Sublist queue) (now : ℤ) (room' : Str)
    (role' : Role) :
    (if remaining.length ≠ queue.length then s.writeQueue room role remaining now else s).rows
        room' role' =
      if room' = room ∧ role' = role then remaining else s.rows room' role' := by
  by_cases hlen : remaining.length ≠ queue.length
  · rw [if_pos hlen]
    cases hrow : s.get? room with
    | none =>
      have : queue = [] := by rw [← hq, rows, hrow]
      subst this
      exact absurd (congrArg List.length (List.sublist_nil.1 hsub)) hlen
    | some row => exact rows_writeQueue s role remaining now (by simp [hrow]) room' role'
  · rw [if_neg hlen, hsub.eq_of_length (not_not.1 hlen)]
    split_ifs with h
    · rw [h.1, h.2, hq]
    · rfl

theorem queue_eq (s : RelayStore) (room : Str) (role : Role) (now : ℤ) :
    s.queue room role now =
      (if ((s.rows room role).filter (live now)).length ≠ (s.rows room role).length then
        s.writeQueue room role ((s.rows room role).filter (live now)) now else s,
        (s.rows room role).filter (live now)) := by
  unfold queue rows
  cases s.get? room with
  | none => simp
  | some row => rfl

/-- A read returns the live rows of its mailbox. -/
theorem snd_queue (s : RelayStore) (room : Str) (role : Role) (now : ℤ) :
    (s.queue room role now).2 = (s.rows room role).filter (live now) := by rw [queue_eq]

/-- A read keeps the live rows of its mailbox, and the other mailboxes as they were. -/
theorem rows_queue (s : RelayStore) (room : Str) (role : Role) (now : ℤ) (room' : Str)
    (role' : Role) :
    (s.queue room role now).1.rows room' role' =
      if room' = room ∧ role' = role then (s.rows room role).filter (live now)
      else s.rows room' role' := by
  rw [queue_eq]
  exact rows_rewrite s rfl List.filter_sublist now room' role'

theorem isSome_queue (s : RelayStore) (room : Str) (role : Role) (now : ℤ) (room' : Str) :
    ((s.queue room role now).1.get? room').isSome = (s.get? room').isSome := by
  rw [queue_eq]
  dsimp only
  split_ifs
  · exact isSome_writeQueue ..
  · rfl

theorem rows_acknowledge (s : RelayStore) (room : Str) (role : Role) (deliveryId : Str) (now : ℤ)
    (room' : Str) (role' : Role) :
    (s.acknowledge room role deliveryId now).rows room' role' =
      if room' = room ∧ role' = role then ((s.rows room role).filter (live now)).filter
        fun item => item.deliveryId ≠ some deliveryId
      else s.rows room' role' := by
  have hq : (s.queue room role now).1.rows room role = (s.queue room role now).2 := by
    rw [rows_queue, snd_queue, if_pos ⟨rfl, rfl⟩]
  simp only [acknowledge]
  rw [rows_rewrite _ hq List.filter_sublist now room' role', rows_queue, snd_queue]
  split_ifs <;> rfl

/-- What an `enqueue` returns and what it leaves: a refused frame leaves every mailbox as a read
leaves it, a stored one is the last row of a retained queue. -/
theorem enqueue_cases (s : RelayStore) (room : Str) (role : Role) (raw : Str)
    (deliveryId : Option Str) (expiresAt : Option ℤ) (now : ℤ) :
    (s.enqueue room role raw deliveryId expiresAt now).1 = s ∧
        (s.enqueue room role raw deliveryId expiresAt now).2 ≠ .stored ∨
      (s.enqueue room role raw deliveryId expiresAt now).1 = (s.queue room role now).1 ∧
        (s.enqueue room role raw deliveryId expiresAt now).2 ≠ .stored ∨
      ∃ rows, retainSubmission ((s.rows room role).filter (live now))
          (.frame (newFrame raw deliveryId expiresAt now))
          HOLD_LIMIT (submissionRetentionLimits role deliveryId).queueBytes = (.stored, rows) ∧
        (s.enqueue room role raw deliveryId expiresAt now).2 = .stored ∧
        ∀ room' role', (s.enqueue room role raw deliveryId expiresAt now).1.rows room' role' =
          if room' = room ∧ role' = role then rows else s.rows room' role' := by
  unfold enqueue
  dsimp only
  split_ifs with hsize hexp hroom hdup
  · exact .inl ⟨rfl, by simp⟩
  · exact .inl ⟨rfl, by simp⟩
  · exact .inl ⟨rfl, by simp⟩
  · exact .inr (.inl ⟨rfl, by simp⟩)
  · rw [snd_queue]
    rcases retainSubmission_cases ((s.rows room role).filter (live now))
        (.frame (newFrame raw deliveryId expiresAt now))
        HOLD_LIMIT (submissionRetentionLimits role deliveryId).queueBytes with h | ⟨rows, h⟩
    · rw [h]
      exact .inr (.inl ⟨rfl, by simp⟩)
    · rw [h]
      refine .inr (.inr ⟨rows, rfl, rfl, fun room' role' => ?_⟩)
      have hsome : ((s.queue room role now).1.get? room).isSome := by
        rw [isSome_queue]
        simpa [Option.isSome_iff_ne_none] using hroom
      dsimp only
      rw [rows_writeQueue _ _ _ _ hsome, rows_queue]
      split_ifs <;> rfl

/-- The row of a frame that has not expired is live. -/
theorem live_newFrame {raw : Str} {deliveryId : Option Str} {expiresAt : Option ℤ} {now : ℤ}
    (h : expiresAt.any (· ≤ now) = false) :
    live now (.frame (newFrame raw deliveryId expiresAt now)) = true := by
  cases expiresAt with
  | none => simp [live, newFrame, QueueRow.expiresAt, DEFAULT_QUEUE_TTL_MS]
  | some t => simpa [live, newFrame, QueueRow.expiresAt] using h

/-- **A stored frame** is the last row of its mailbox, behind live rows that were there before. -/
theorem enqueue_stored {s : RelayStore} {room : Str} {role : Role} {raw : Str}
    {deliveryId : Option Str} {expiresAt : Option ℤ} {now : ℤ}
    (h : (s.enqueue room role raw deliveryId expiresAt now).2 = .stored) :
    expiresAt.any (· ≤ now) = false ∧ ∃ front,
      (s.enqueue room role raw deliveryId expiresAt now).1.rows room role =
        front ++ [.frame (newFrame raw deliveryId expiresAt now)] ∧
      front.Sublist ((s.rows room role).filter (live now)) := by
  rcases s.enqueue_cases room role raw deliveryId expiresAt now with
    ⟨-, hne⟩ | ⟨-, hne⟩ | ⟨rows, hretain, -, hrows⟩
  · exact absurd h hne
  · exact absurd h hne
  · refine ⟨?_, ?_⟩
    · unfold enqueue at h
      dsimp only at h
      split_ifs at h with hsize hexpired
      exact Bool.eq_false_iff.2 hexpired
    · obtain ⟨front, rfl, -⟩ := retainSubmission_stored hretain
      refine ⟨front, ?_, retainSubmission_front hretain⟩
      rw [hrows, if_pos ⟨rfl, rfl⟩]

/-- **A duplicate** names a live row that the mailbox keeps. -/
theorem enqueue_duplicate {s : RelayStore} {room : Str} {role : Role} {raw : Str}
    {deliveryId : Option Str} {expiresAt : Option ℤ} {now : ℤ}
    (h : (s.enqueue room role raw deliveryId expiresAt now).2 = .duplicate) :
    (s.enqueue room role raw deliveryId expiresAt now).1 = (s.queue room role now).1 ∧
      ∃ row ∈ (s.rows room role).filter (live now), row.deliveryId = deliveryId := by
  unfold enqueue at h ⊢
  dsimp only at h ⊢
  split_ifs at h ⊢ with hsize hexpired hroom hdup
  · obtain ⟨row, hrow, hid⟩ := List.any_eq_true.1 hdup
    exact ⟨rfl, row, snd_queue s room role now ▸ hrow, of_decide_eq_true hid⟩
  · rcases retainSubmission_cases (s.queue room role now).2
        (.frame (newFrame raw deliveryId expiresAt now)) HOLD_LIMIT
        (submissionRetentionLimits role deliveryId).queueBytes with hr | ⟨rows, hr⟩
    · rw [hr] at h
      cases h
    · rw [hr] at h
      cases h

/-- After an accepted enqueue a live row of the mailbox has its delivery id. -/
theorem exists_queued {s : RelayStore} {room : Str} {role : Role} {raw : Str}
    {deliveryId : Option Str} {expiresAt : Option ℤ} {now : ℤ}
    (h : (s.enqueue room role raw deliveryId expiresAt now).2 = .stored ∨
      (s.enqueue room role raw deliveryId expiresAt now).2 = .duplicate) :
    ∃ row ∈ ((s.enqueue room role raw deliveryId expiresAt now).1.queue room role now).2,
      row.deliveryId = deliveryId := by
  rcases h with h | h
  · obtain ⟨hexpired, front, hrows, -⟩ := enqueue_stored h
    refine ⟨.frame (newFrame raw deliveryId expiresAt now), ?_, rfl⟩
    rw [snd_queue, hrows, List.mem_filter]
    exact ⟨List.mem_append_right _ List.mem_cons_self, live_newFrame hexpired⟩
  · obtain ⟨hstore, row, hrow, hid⟩ := enqueue_duplicate h
    refine ⟨row, ?_, hid⟩
    rw [hstore, snd_queue, rows_queue, if_pos ⟨rfl, rfl⟩, List.filter_filter]
    simpa using hrow

end RelayStore

end GrantTap
