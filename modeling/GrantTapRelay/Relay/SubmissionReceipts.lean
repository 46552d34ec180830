import GrantTapRelay.Library.JsText
import GrantTapRelay.Library.Retention

/-!
# Submission receipts

`src/relay/submissionReceipts.js`: which delivery ids name explicit submissions, and the retention
policy of both mailboxes. `retainSubmission` appends the incoming row and evicts the oldest
transient rows until the limits hold; when only explicit submissions are left it refuses the
incoming row and leaves the queue as it was. `retainSubmission_keeps` is the fact both mailboxes
rest on: no explicit submission is ever evicted.
-/

namespace GrantTap

open Js Retention

/-! ## Mailbox rows -/

/-- The two mailboxes of a room. -/
inductive Role
  | machine
  | phone
  deriving DecidableEq

/-- `QUEUE_RESULT` -/
inductive QueueResult
  | stored
  | duplicate
  | oversize
  | expired
  | noRoom
  | full
  deriving DecidableEq

/-- A mailbox row written by a `queue` or `enqueue` call, or an object row of an older relay. An
absent `raw` reads as the empty text. -/
structure Frame where
  raw : Str
  rawBytes : Option ℕ
  deliveryId : Option Str
  queuedAt : Option ℤ
  expiresAt : Option ℤ
  deriving DecidableEq

/-- An element of a stored queue: older relays stored the raw text alone. -/
inductive QueueRow
  | legacy (raw : Str)
  | frame (row : Frame)
  deriving DecidableEq

namespace QueueRow

/-- The text a row delivers. -/
def raw : QueueRow → Str
  | legacy raw => raw
  | frame row => row.raw

/-- `row?.deliveryId` -/
def deliveryId : QueueRow → Option Str
  | legacy _ => none
  | frame row => row.deliveryId

/-- `row?.expiresAt` -/
def expiresAt : QueueRow → Option ℤ
  | legacy _ => none
  | frame row => row.expiresAt

end QueueRow

/-- The lifetime of a row whose envelope names none, in both runtimes. -/
def DEFAULT_QUEUE_TTL_MS : ℤ := 15 * 60 * 1000

/-- The row bound of every mailbox. -/
def HOLD_LIMIT : ℕ := 100

/-! ## The policy -/

/-- The namespaces of explicit submissions. -/
def durablePrefixes : List Str :=
  [lit "user-message-", lit "approval-decision-", lit "attachment-"]

/-- Explicit client submissions survive transient catalog traffic. -/
def isDurableSubmission (deliveryId : Option Str) : Bool :=
  match deliveryId with
  | some id => durablePrefixes.any fun pre => pre.isPrefixOf id && pre.length < id.length
  | none => false

/-- The size bounds of one frame and of a whole mailbox. -/
structure RetentionLimits where
  frameBytes : ℕ
  queueBytes : ℕ

/-- The Node mailbox of a machine has room for the app's attachments. -/
def submissionRetentionLimits (role : Role) (deliveryId : Option Str) : RetentionLimits :=
  if role = .machine ∧ isDurableSubmission deliveryId then
    { frameBytes := 22010000, queueBytes := 32000000 }
  else { frameBytes := 1800000, queueBytes := 1800000 }

def rowBytes : QueueRow → ℕ
  | .legacy raw => utf8Length raw
  | .frame row => row.rawBytes.getD (utf8Length row.raw)

/-- The loop of `retainSubmission` on `rows`, whose last element is the incoming row: `none` when
the loop refuses the incoming row. Every turn deletes a row, so `rows.length` turns are enough. -/
def retainLoop (maxCount maxBytes : ℕ) : ℕ → List QueueRow → ℕ → Option (List QueueRow)
  | 0, rows, _ => some rows
  | fuel + 1, rows, bytes =>
    if maxCount < rows.length ∨ maxBytes < bytes then
      match rows.findIdx? fun row => !isDurableSubmission row.deliveryId with
      | none => none
      | some removable =>
        -- `rows[removable] === incoming`: only the last element is that object
        if removable + 1 = rows.length then none
        else retainLoop maxCount maxBytes fuel (rows.eraseIdx removable)
          (bytes - (rows[removable]?.elim 0 rowBytes))
    else some rows

def retainSubmission (queue : List QueueRow) (incoming : QueueRow) (maxCount maxBytes : ℕ) :
    QueueResult × List QueueRow :=
  let rows := queue ++ [incoming]
  match retainLoop maxCount maxBytes rows.length rows (rows.map rowBytes).sum with
  | none => (.full, queue)
  | some kept => (.stored, kept)

/-! ## No explicit submission is evicted -/

/-- A row of an explicit submission. -/
def QueueRow.durable (row : QueueRow) : Bool := isDurableSubmission row.deliveryId

theorem retainLoop_keeps {maxCount maxBytes : ℕ} :
    ∀ {fuel : ℕ} {rows kept : List QueueRow} {bytes : ℕ} (front : List QueueRow) (x : QueueRow),
      rows = front ++ [x] → retainLoop maxCount maxBytes fuel rows bytes = some kept →
      ∃ front', kept = front' ++ [x] ∧ Keeps QueueRow.durable front front'
  | 0, rows, kept, bytes, front, x, hr, h => by
    cases h
    exact ⟨front, hr, .refl _⟩
  | fuel + 1, rows, kept, bytes, front, x, hr, h => by
    rw [retainLoop] at h
    split_ifs at h
    · split at h
      · cases h
      · rename_i i hi
        split_ifs at h with hlast
        obtain ⟨hlt, hdur, -⟩ := List.findIdx?_eq_some_iff_getElem.1 hi
        subst hr
        have hlt' : i < front.length := by
          rw [List.length_append, List.length_singleton] at hlt hlast
          omega
        -- the deleted row is transient, and is not the incoming one
        have hrow : QueueRow.durable front[i] = false := by
          rw [List.getElem_append_left hlt'] at hdur
          simpa [QueueRow.durable] using hdur
        rw [List.eraseIdx_append_of_lt_length hlt'] at h
        obtain ⟨front', hk, hkeep⟩ := retainLoop_keeps (front.eraseIdx i) x rfl h
        exact ⟨front', hk, (Keeps.eraseIdx hlt' hrow).trans hkeep⟩
    · cases h
      exact ⟨front, hr, .refl _⟩

/-- **The retention policy**: a stored row is the last one, and no explicit submission before it
is lost. -/
theorem retainSubmission_stored {queue rows : List QueueRow} {incoming : QueueRow}
    {maxCount maxBytes : ℕ}
    (h : retainSubmission queue incoming maxCount maxBytes = (.stored, rows)) :
    ∃ front, rows = front ++ [incoming] ∧ Keeps QueueRow.durable queue front := by
  simp only [retainSubmission] at h
  split at h
  · cases h
  · rename_i kept hk
    cases h
    exact retainLoop_keeps queue incoming rfl hk

theorem retainLoop_sublist {maxCount maxBytes : ℕ} :
    ∀ {fuel : ℕ} {rows kept : List QueueRow} {bytes : ℕ},
      retainLoop maxCount maxBytes fuel rows bytes = some kept → kept.Sublist rows
  | 0, rows, kept, bytes, h => by
    cases h
    exact .refl _
  | fuel + 1, rows, kept, bytes, h => by
    rw [retainLoop] at h
    split_ifs at h
    · split at h
      · cases h
      · split_ifs at h
        exact (retainLoop_sublist h).trans (List.eraseIdx_sublist _ _)
    · cases h
      exact .refl _

/-- The rows before a stored one were there before it. -/
theorem retainSubmission_front {queue front : List QueueRow} {incoming : QueueRow}
    {maxCount maxBytes : ℕ}
    (h : retainSubmission queue incoming maxCount maxBytes = (.stored, front ++ [incoming])) :
    front.Sublist queue := by
  simp only [retainSubmission] at h
  split at h
  · cases h
  · rename_i kept hk
    obtain rfl := (Prod.mk.inj h).2
    exact (List.append_sublist_append_right _).1 (retainLoop_sublist hk)

theorem retainSubmission_cases (queue : List QueueRow) (incoming : QueueRow)
    (maxCount maxBytes : ℕ) :
    retainSubmission queue incoming maxCount maxBytes = (.full, queue) ∨
      ∃ rows, retainSubmission queue incoming maxCount maxBytes = (.stored, rows) := by
  simp only [retainSubmission]
  split
  · exact .inl rfl
  · exact .inr ⟨_, rfl⟩

end GrantTap
