import GrantTapRelay.RetainedState.Node
import GrantTapRelay.TaskDispatch.Node
import GrantTapRelay.Wake.Delivery

/-!
# The clean-up of the Node database

`purgeExpiredPairings` of `src/node/store.js`: one chain of clean-ups over the task jobs and their
configurations, retained state, pairings, endpoints and wake records. The timer calls it, and so do
the handlers of pairings.

The first clean-up parses the task records whose columns are `NULL`. A record that does not parse
throws, and nothing after it is cleaned up (`purges_iff`).
-/

namespace GrantTap

open Js

/-- A row of `pairings`, or of `endpoint_directory`. -/
structure SealedRow where
  nonce : Str
  box : Str
  expiresAt : ℤ
  deriving DecidableEq

/-- The tables that `purgeExpiredPairings` cleans up. -/
structure NodeDatabase where
  tasks : NodeTasks
  retained : NodeStates
  pairings : Table Str SealedRow
  endpoints : Table Str SealedRow
  wakes : Table Str WakeRecord

namespace NodeDatabase

open NodeTasks

def empty : NodeDatabase := ⟨.empty, .empty, .empty, .empty, .empty⟩

/-- `DELETE FROM … WHERE expires_at <= ?` -/
def unexpired (rows : Table Str SealedRow) (now : ℤ) : Table Str SealedRow :=
  rows.filter fun _ row => now < row.expiresAt

def purgeExpiredPairings (db : NodeDatabase) (now : ℤ) : Except Throw NodeDatabase := do
  let (_, tasks) ← db.tasks.purgeInTransaction now
  return {
    tasks := tasks
    retained := db.retained.purge now
    pairings := unexpired db.pairings now
    endpoints := unexpired db.endpoints now
    wakes := db.wakes.filter fun _ record => !record.purges now }

def putPairing (db : NodeDatabase) (mailbox : Str) (row : SealedRow) (now : ℤ) :
    Except Throw (Bool × NodeDatabase) := do
  let db ← db.purgeExpiredPairings now
  match db.pairings.get? mailbox with
  | some _ => return (false, db)
  | none => return (true, { db with pairings := db.pairings.put mailbox row })

def peekPairing (db : NodeDatabase) (mailbox : Str) (now : ℤ) :
    Except Throw (Bool × NodeDatabase) := do
  let db ← db.purgeExpiredPairings now
  return ((db.pairings.get? mailbox).any fun row => now < row.expiresAt, db)

def takePairing (db : NodeDatabase) (mailbox : Str) (now : ℤ) : Option SealedRow × NodeDatabase :=
  ((db.pairings.get? mailbox).filter fun row => now < row.expiresAt,
    { db with pairings := db.pairings.erase mailbox })

/-! ## What a clean-up is for -/

/-- When a job changed last; a queued one does when it expires. -/
def changedAt (row : Job) : ℤ := if row.state = .queued then row.expiresAt else row.updatedAt

/-- The receipt of a job is no longer kept. -/
def PastRetention (row : Job) (now : ℤ) : Prop :=
  row.state ≠ .accepted ∧ max row.expiresAt (changedAt row) + RECEIPT_RETENTION_MS < now

/-- Everything expired is gone, and the rest is as it was, but for queued jobs that expire. -/
structure Purged (db db' : NodeDatabase) (now : ℤ) : Prop where
  pairings : ∀ k, db'.pairings.get? k =
    (db.pairings.get? k).filter fun row => now < row.expiresAt
  endpoints : ∀ k, db'.endpoints.get? k =
    (db.endpoints.get? k).filter fun row => now < row.expiresAt
  retained : ∀ k, db'.retained.rows.get? k =
    (db.retained.rows.get? k).filter fun row => now < row.expiresAt
  configurations : ∀ k, db'.tasks.registry.configurations.get? k =
    (db.tasks.registry.configurations.get? k).filter fun row => now < row.expiresAt
  writers : db'.tasks.registry.writers = db.tasks.registry.writers
  resources : db'.tasks.registry.resources = db.tasks.registry.resources
  corrupt : ∀ k record, db.tasks.jobs.get? k = some (.corrupt record) →
    db'.tasks.jobs.get? k = some (.corrupt record)
  retired : ∀ k row, db.tasks.jobs.get? k = some (.saved row) → PastRetention row.job now →
    db'.tasks.jobs.get? k = none
  jobs : ∀ k row, db.tasks.jobs.get? k = some (.saved row) → ¬PastRetention row.job now →
    db'.tasks.jobs.get? k = some (.saved row) ∨
      row.job.state = .queued ∧ row.job.expiresAt ≤ now ∧
        db'.tasks.jobs.get? k = some ((TaskRow.saved row).expire now)
  absent : ∀ k, db.tasks.jobs.get? k = none → db'.tasks.jobs.get? k = none

/-- No record of a task job fails to parse. -/
def Sane (db : NodeDatabase) : Prop :=
  ∀ k record, db.tasks.jobs.get? k ≠ some (.corrupt record)

variable {db db' : NodeDatabase} {now : ℤ}

theorem any_isCorrupt : db.tasks.jobs.values.any TaskRow.isCorrupt = true ↔ ¬db.Sane := by
  simp only [Sane, List.any_eq_true, Table.mem_values, not_forall, not_not]
  constructor
  · rintro ⟨row, ⟨k, hk⟩, hrow⟩
    cases row with
    | saved row => cases hrow
    | corrupt record => exact ⟨k, record, hk⟩
  · rintro ⟨k, record, hk⟩
    exact ⟨.corrupt record, ⟨k, hk⟩, rfl⟩

/-- With a corrupt record a clean-up throws. -/
theorem purge_throws (h : ¬db.Sane) (now : ℤ) :
    db.purgeExpiredPairings now = .error .syntaxError := by
  unfold purgeExpiredPairings NodeTasks.purgeInTransaction
  rw [if_pos (any_isCorrupt.2 h)]
  rfl

/-- The handlers of pairings then throw too. -/
theorem pairings_throw (h : ¬db.Sane) (mailbox : Str) (row : SealedRow) (now : ℤ) :
    db.putPairing mailbox row now = .error .syntaxError ∧
      db.peekPairing mailbox now = .error .syntaxError := by
  unfold putPairing peekPairing
  rw [purge_throws h]
  exact ⟨rfl, rfl⟩

/-- A saved row goes exactly when it is past its retention. -/
theorem purgeRow_cases (row : SavedJob) (now : ℤ) :
    PastRetention row.job now ∧ purgeRow now (.saved row) = none ∨
      ¬PastRetention row.job now ∧ (purgeRow now (.saved row) = some (.saved row) ∨
        row.job.state = .queued ∧ row.job.expiresAt ≤ now ∧
          purgeRow now (.saved row) = some ((TaskRow.saved row).expire now)) := by
  have hret : 0 ≤ RECEIPT_RETENTION_MS := by decide
  unfold purgeRow PastRetention changedAt
  by_cases hexp : row.job.state = .queued ∧ row.job.expiresAt ≤ now
  · have hsel : purgeSelects now row.job = true := by simp [purgeSelects, hexp.1, hexp.2]
    have hjob : expireJob row.job now = retireJob row.job .expired row.job.expiresAt := by
      simp [expireJob, expires, hexp.1, hexp.2]
    have hne : row.job.state ≠ .accepted := by rw [hexp.1]; decide
    dsimp only
    rw [if_pos hsel, hjob, if_pos hexp.1]
    simp only [retireJob, max_self]
    split_ifs with hdel
    · exact .inl ⟨⟨hne, hdel.2⟩, rfl⟩
    · exact .inr ⟨fun h => hdel ⟨by decide, h.2⟩, .inr ⟨hexp.1, hexp.2, rfl⟩⟩
  · have hjob : expireJob row.job now = row.job := by
      unfold expireJob expires
      rw [if_neg (by simpa using hexp)]
    have hsel : purgeSelects now row.job = true ↔ row.job.state ≠ .accepted ∧
        max row.job.expiresAt row.job.updatedAt + RECEIPT_RETENTION_MS < now := by
      have hbound : max row.job.expiresAt row.job.updatedAt + RECEIPT_RETENTION_MS < now ↔
          row.job.expiresAt < now - RECEIPT_RETENTION_MS ∧
            row.job.updatedAt < now - RECEIPT_RETENTION_MS := by omega
      rw [hbound]
      simpa [purgeSelects, and_assoc] using fun hqueued hle => absurd ⟨hqueued, hle⟩ hexp
    dsimp only
    rw [hjob]
    by_cases hpast : row.job.state ≠ .accepted ∧
        max row.job.expiresAt row.job.updatedAt + RECEIPT_RETENTION_MS < now
    · rw [if_pos (hsel.2 hpast), if_pos hpast]
      refine .inl ⟨⟨hpast.1, ?_⟩, rfl⟩
      split_ifs
      · have hle := le_max_left row.job.expiresAt row.job.updatedAt
        rw [max_self]
        exact lt_of_le_of_lt (by omega) hpast.2
      · exact hpast.2
    · rw [if_neg fun h => hpast (hsel.1 h)]
      refine .inr ⟨fun h => hpast ⟨h.1, ?_⟩, .inl rfl⟩
      have h2 := h.2
      split_ifs at h2 with hqueued
      · exact absurd ⟨hqueued, by omega⟩ hexp
      · exact h2

/-- Without corrupt records a clean-up does what it is for. -/
theorem purge_completes (h : db.Sane) (now : ℤ) :
    ∃ db', db.purgeExpiredPairings now = .ok db' ∧ Purged db db' now := by
  unfold purgeExpiredPairings purgeInTransaction
  rw [if_neg fun hany => any_isCorrupt.1 hany h]
  refine ⟨_, rfl, ?_⟩
  refine ⟨fun k => Table.get?_filter _ _ k, fun k => Table.get?_filter _ _ k,
    fun k => Table.get?_filter _ _ k, fun k => Table.get?_filter _ _ k, rfl, rfl,
    fun k record hk => absurd hk (h k record), fun k row hk hpast => ?_, fun k row hk hpast => ?_,
    fun k hk => ?_⟩
  · dsimp only
    rw [Table.get?_filterMap, hk, Option.bind_some]
    rcases purgeRow_cases row now with ⟨-, hrow⟩ | ⟨hnot, -⟩
    · exact hrow
    · exact absurd hpast hnot
  · dsimp only
    rw [Table.get?_filterMap, hk, Option.bind_some]
    rcases purgeRow_cases row now with ⟨hpast', -⟩ | ⟨-, hrow | ⟨hqueued, hle, hrow⟩⟩
    · exact absurd hpast' hpast
    · exact .inl hrow
    · exact .inr ⟨hqueued, hle, hrow⟩
  · dsimp only
    rw [Table.get?_filterMap, hk, Option.bind_none]

/-- **A clean-up of the database** completes, and does what it is for, exactly when every record
of a task job parses. -/
theorem purges_iff (db : NodeDatabase) (now : ℤ) :
    (∃ db', db.purgeExpiredPairings now = .ok db' ∧ Purged db db' now) ↔ db.Sane := by
  refine ⟨?_, fun h => purge_completes h now⟩
  rintro ⟨db', h, -⟩
  by_contra hcorrupt
  rw [purge_throws hcorrupt] at h
  cases h

/-- The database with one pairing, and one record that does not parse. -/
def sampleCorrupt : NodeDatabase where
  tasks :=
    { jobs := Table.empty.put (lit "0123456789abcdef", lit "corrupt-job")
        (.corrupt (lit "invalid json"))
      registry := .empty
      named := fun k row h => by
        rw [Table.get?_put] at h
        split_ifs at h <;> cases h }
  retained := .empty
  pairings := Table.empty.put (lit "mailbox") ⟨lit "nonce", lit "box", 1000⟩
  endpoints := .empty
  wakes := .empty

/-- One corrupt job keeps an expired pairing of any room. -/
theorem corrupt_job_stops_purge :
    (sampleCorrupt.pairings.get? (lit "mailbox")).any (fun row => row.expiresAt ≤ 2000) = true ∧
      ¬∃ db', sampleCorrupt.purgeExpiredPairings 2000 = .ok db' ∧ Purged sampleCorrupt db' 2000 := by
  have hcorrupt : sampleCorrupt.tasks.jobs.get? (lit "0123456789abcdef", lit "corrupt-job") =
      some (.corrupt (lit "invalid json")) := Table.get?_put _ _ _ _
  refine ⟨by decide, ?_⟩
  rintro ⟨db', h, -⟩
  rw [purge_throws fun hsane => hsane _ _ hcorrupt] at h
  cases h

end NodeDatabase

end GrantTap
