import GrantTapRelay.TaskDispatch.Configurations
import GrantTapRelay.TaskDispatch.Effects

/-!
# The Node job store

`src/taskDispatch/node.js` over the tables of `src/taskDispatch/node-schema.js`. The indexed columns
of a row are copies of members of its record, so a row is its record: a job that `save` wrote, or a
text that does not parse, whose columns the migration left `NULL`.

Every operation runs in one transaction, which an exception rolls back.
-/

namespace GrantTap

open Js

/-- The values that SQLite binds; it throws on any other. -/
def bindable : Value → Bool
  | some .null => true
  | some (.num _) => true
  | some (.str _) => true
  | _ => false

/-- A job that `save` wrote: its recipient was bound to a column. -/
structure SavedJob where
  job : Job
  bound : bindable (job.envelope.get (lit "recipientKeyId")) = true

/-- A row of `task_jobs`. -/
inductive TaskRow
  | saved (row : SavedJob)
  | corrupt (record : Str)

/-- The tables of the store; a saved job lies at its own id. -/
structure NodeTasks where
  jobs : Table RoomKey TaskRow
  registry : Registry
  named : ∀ k row, jobs.get? k = some (.saved row) → row.job.id = k.2

namespace TaskRow

/-- `JSON.parse(item.record)` -/
def parse : TaskRow → Except Throw Job
  | saved row => .ok row.job
  | corrupt _ => .error .syntaxError

/-- `state IN ('queued','accepted','failed') OR state IS NULL` -/
def active : TaskRow → Bool
  | saved row => retainsTaskPayload row.job
  | corrupt _ => true

/-- `payload_bytes`, where `SUM` skips `NULL`. -/
def payloadBytes : TaskRow → ℕ
  | saved row => row.job.bytes
  | corrupt _ => 0

def isCorrupt : TaskRow → Bool
  | saved _ => false
  | corrupt _ => true

/-- The row after `expireJob`. -/
def expire (now : ℤ) : TaskRow → TaskRow
  | saved row => saved
    { job := expireJob row.job now
      bound := by
        have hr := row.bound
        unfold expireJob retireJob
        split_ifs
        · rwa [Json.get_without (by decide)]
        · exact hr }
  | corrupt record => corrupt record

theorem expire_id (now : ℤ) (row : SavedJob) : (expireJob row.job now).id = row.job.id := by
  unfold expireJob retireJob
  split_ifs <;> rfl

end TaskRow

namespace NodeTasks

variable (sha256 : Str → Str)

def empty : NodeTasks := ⟨.empty, .empty, fun _ _ h => nomatch h⟩

/-! ## Transactions -/

/-- `transact(work)` -/
def transact {α : Type} (s : NodeTasks) (work : Except Throw (α × NodeTasks)) :
    Except Throw α × NodeTasks :=
  match work with
  | .ok (a, t) => (.ok a, t)
  | .error e => (.error e, s)

def get (s : NodeTasks) (room id : Str) : Except Throw (Option Job) :=
  match s.jobs.get? (room, id) with
  | some row => row.parse.map some
  | none => .ok none

def save (s : NodeTasks) (room : Str) (row : Job) : Except Throw NodeTasks :=
  if h : bindable (row.envelope.get (lit "recipientKeyId")) = true then
    .ok { s with
      jobs := s.jobs.put (room, row.id) (.saved ⟨row, h⟩)
      named := fun k saved hk => by
        rw [Table.get?_put] at hk
        split_ifs at hk with e
        · cases hk
          rw [e]
        · exact s.named k saved hk }
  else .error .typeError

/-- `expireQueued`: every queued row of the room past its expiry is saved as expired. -/
def expireQueued (s : NodeTasks) (room : Str) (now : ℤ) : NodeTasks where
  jobs := s.jobs.map fun k row => if k.1 = room then row.expire now else row
  registry := s.registry
  named := fun k saved hk => by
    rw [Table.get?_map, Option.map_eq_some_iff] at hk
    obtain ⟨row, hrow, hk⟩ := hk
    cases row with
    | corrupt record =>
      simp only [TaskRow.expire, ite_self] at hk
      cases hk
    | saved old =>
      have hid := s.named k old hrow
      split_ifs at hk <;> cases hk
      · exact (TaskRow.expire_id now old).trans hid
      · exact hid

/-! ## Reading -/

/-- The rows of a room. -/
def roomJobs (s : NodeTasks) (room : Str) : List TaskRow := (roomRows s.jobs room).map Prod.snd

/-- `rows(room)` and `list(room)`, which save what expired. -/
def list (s : NodeTasks) (room : Str) (now : ℤ) : Except Throw (List PublicJob × NodeTasks) := do
  let s := s.expireQueued room now
  let rows ← (s.roomJobs room).mapM TaskRow.parse
  return (rows.map publicJob, s)

/-- A row without its ciphertext, `json_remove(record, …)`. -/
def withoutCiphertext (row : Job) : Job :=
  { row with envelope := row.envelope.without ciphertextFields }

def listActive (s : NodeTasks) (room : Str) (now : ℤ) :
    Except Throw (List PublicJob × NodeTasks) := do
  let s := s.expireQueued room now
  let rows ← ((s.roomJobs room).filter TaskRow.active).mapM TaskRow.parse
  return (rows.map fun row => publicJob (withoutCiphertext row), s)

def getPublic (s : NodeTasks) (room id : Str) (now : ℤ) (metadataOnly : Bool) :
    Except Throw (Option PublicJob × NodeTasks) := do
  let s := s.expireQueued room now
  let saved ← s.get room id
  return (saved.map fun row => publicJob (if metadataOnly then withoutCiphertext row else row), s)

/-- `state='queued' AND recipient=? AND not_before<=? AND expires_at>?`, ids not in `excluded`. -/
def isDue (recipientKeyId : Str) (now : ℤ) (excluded : List Str) (row : SavedJob) : Bool :=
  row.job.state = .queued && (row.job.envelope.get (lit "recipientKeyId")).is recipientKeyId &&
    row.job.notBefore ≤ now && now < row.job.expiresAt && !excluded.contains row.job.id

/-- The first due job by `not_before`, then `updated_at`. -/
def due (s : NodeTasks) (room recipientKeyId : Str) (now : ℤ) (excluded : List Str) :
    Except Throw (List PublicJob × NodeTasks) :=
  let s := s.expireQueued room now
  let rows := (s.roomJobs room).filterMap fun row =>
    match row with
    | .saved row => if isDue recipientKeyId now excluded row then some row.job else none
    | .corrupt _ => none
  let sorted := rows.insertionSort fun a b =>
    a.notBefore < b.notBefore ∨ a.notBefore = b.notBefore ∧ a.updatedAt ≤ b.updatedAt
  .ok ((sorted.take 1).map publicJob, s)

/-! ## Writing -/

def putInTransaction (s : NodeTasks) (room id : Str) (body : Value) (now : ℤ) :
    Except Throw (Reply × NodeTasks) := do
  let existing ← s.get room id
  let parsed ← normalizeJob room id body (existing.elim now (·.createdAt))
  match parsed, existing with
  | none, _ => return (.error 400 "invalid encrypted task job", s)
  | some job, some existing =>
    if existing.fingerprint = sha256 job.canonical then
      return (⟨200, .job (publicJob (expireJob existing now))⟩, s)
    else return (.error 409 "job identity already exists", s)
  | some job, none =>
    let s := s.expireQueued room now
    let rows := s.roomJobs room
    let active := rows.filter TaskRow.active
    if ROOM_RECEIPT_LIMIT ≤ rows.length ∨ ROOM_JOB_LIMIT ≤ active.length ∨
        ROOM_JOB_BYTES < (active.map TaskRow.payloadBytes).sum + job.bytes then
      return (.error 429 "task queue capacity reached", s)
    else
      let row := queuedJob job (sha256 job.canonical) id none now
      let s ← s.save room row
      return (⟨201, .job (publicJob row)⟩, s)

/-- `digest(body?.token ?? "")` -/
def digestToken (body : Value) : Except Throw Str :=
  match (body.get (lit "token")).orEmpty with
  | some token => token.toText.map sha256
  | none => .ok (sha256 [])

/-- The digest that a transition needs: a cancellation needs none. -/
def actionHash (action : TaskAction) (body : Value) : Except Throw Str :=
  if action = .cancel then .ok [] else digestToken sha256 body

def transitionInTransaction (s : NodeTasks) (room id : Str) (action : TaskAction) (body : Value)
    (now : ℤ) : Except Throw (Reply × NodeTasks) := do
  match ← s.get room id with
  | none => return (.error 404 "unknown task job", s)
  | some row =>
    let proofHash ← actionHash sha256 action body
    let result ← transitionJob row action body now proofHash
    match result.row with
    | none => return (.error result.status result.error, s)
    | some row' =>
      let s ← s.save room row'
      return (⟨result.status, .job (publicJob row')⟩, s)

/-! ## Retention -/

def RECEIPT_RETENTION_MS : ℤ := 7 * 86400000

/-- The rows that `purgeInTransaction` selects. -/
def purgeSelects (now : ℤ) (row : Job) : Bool :=
  (row.state = .queued && row.expiresAt ≤ now) ||
    (row.state ≠ .accepted && row.expiresAt < now - RECEIPT_RETENTION_MS &&
      row.updatedAt < now - RECEIPT_RETENTION_MS)

/-- What becomes of a saved row: a selected one expires, and is deleted past its retention. -/
def purgeRow (now : ℤ) : TaskRow → Option TaskRow
  | .saved row =>
    if purgeSelects now row.job then
      let current := expireJob row.job now
      if current.state ≠ .accepted ∧
          max current.expiresAt current.updatedAt + RECEIPT_RETENTION_MS < now then none
      else some ((TaskRow.saved row).expire now)
    else some (.saved row)
  | .corrupt record => some (.corrupt record)

/-- `purgeInTransaction`: the rows whose `state` is `NULL` are selected, and parsed, too. -/
def purgeInTransaction (s : NodeTasks) (now : ℤ) : Except Throw (Option ℤ × NodeTasks) :=
  if s.jobs.values.any TaskRow.isCorrupt then .error .syntaxError
  else .ok (none,
    { jobs := s.jobs.filterMap fun _ => purgeRow now
      registry := s.registry.maintainNode now
      named := fun k saved hk => by
        rw [Table.get?_filterMap, Option.bind_eq_some_iff] at hk
        obtain ⟨row, hrow, hk⟩ := hk
        cases row with
        | corrupt record => cases hk
        | saved old =>
          have hid := s.named k old hrow
          simp only [purgeRow] at hk
          split_ifs at hk <;> cases hk
          · exact (TaskRow.expire_id now old).trans hid
          · exact hid })

/-! ## Calls -/

/-- An operation's result as an answer. -/
def answer {α : Type} (f : α → TaskAnswer) (r : Except Throw (α × NodeTasks)) :
    Except Throw (TaskAnswer × NodeTasks) := r.map fun p => (f p.1, p.2)

/-- What a call does in its transaction. -/
def work (s : NodeTasks) (now : ℤ) : TaskCall → Except Throw (TaskAnswer × NodeTasks)
  | .put room id body => answer .reply (s.putInTransaction sha256 room id body now)
  | .transition room id action body =>
    answer .reply (s.transitionInTransaction sha256 room id action body now)
  | .list room => answer .jobs (s.list room now)
  | .listActive room => answer .jobs (s.listActive room now)
  | .getPublic room id metadataOnly => answer .found (s.getPublic room id now metadataOnly)
  | .due room recipientKeyId excluded => answer .jobs (s.due room recipientKeyId now excluded)
  | .clean _ => answer .deadline (s.purgeInTransaction now)

/-- One call at time `now`. -/
def call (s : NodeTasks) (now : ℤ) (c : TaskCall) : Except Throw TaskAnswer × NodeTasks :=
  s.transact (s.work sha256 now c)

/-! ## The rows after an operation -/

/-- The job at a key. -/
def job (s : NodeTasks) (k : RoomKey) : Option Job :=
  match s.jobs.get? k with
  | some (.saved row) => some row.job
  | _ => none

variable {sha256} {s t : NodeTasks} {room id : Str} {now : ℤ}

theorem job_eq_of_get? {k : RoomKey} (h : t.jobs.get? k = s.jobs.get? k) : t.job k = s.job k := by
  rw [job, job, h]

theorem get_eq_ok {row : Option Job} (h : s.get room id = .ok row) : s.job (room, id) = row := by
  unfold get at h
  unfold job
  cases hk : s.jobs.get? (room, id) with
  | none =>
    rw [hk] at h
    cases h
    rfl
  | some saved =>
    rw [hk] at h
    cases saved with
    | saved row => cases h; rfl
    | corrupt record => cases h

theorem job_id {k : RoomKey} {row : Job} (h : s.job k = some row) : row.id = k.2 := by
  unfold job at h
  split at h
  · rename_i saved hk
    cases h
    exact s.named k saved hk
  · cases h

theorem save_ok {row : Job} (h : s.save room row = .ok t) :
    t.job (room, row.id) = some row ∧ (∀ k, k ≠ (room, row.id) → t.jobs.get? k = s.jobs.get? k) ∧
      t.registry = s.registry := by
  unfold save at h
  split_ifs at h with hb
  cases h
  refine ⟨?_, fun k hk => ?_, rfl⟩
  · simp only [job, Table.get?_put, if_true]
  · rw [Table.get?_put, if_neg hk]

theorem job_expireQueued (s : NodeTasks) (room : Str) (now : ℤ) (k : RoomKey) :
    (s.expireQueued room now).job k =
      (s.job k).map fun row => if k.1 = room then expireJob row now else row := by
  unfold job expireQueued
  rw [Table.get?_map]
  cases s.jobs.get? k with
  | none => rfl
  | some row =>
    cases row with
    | saved row => by_cases h : k.1 = room <;> simp [h, TaskRow.expire]
    | corrupt record => by_cases h : k.1 = room <;> simp [h, TaskRow.expire]

theorem aged_expireJob (row : Job) (now : ℤ) :
    Aged now (some row.receipt) (some (expireJob row now).receipt) := by
  by_cases h : row.receipt.expires now
  · rw [receipt_expireJob_of_expires h]
    exact .expire _ h
  · rw [expireJob_of_not_expires h]
    exact .keep _

theorem aged_expireQueued (s : NodeTasks) (room : Str) (now : ℤ) (k : RoomKey) :
    Aged now (receiptAt s.job k) (receiptAt (s.expireQueued room now).job k) := by
  rw [receiptAt, receiptAt, job_expireQueued]
  cases s.job k with
  | none => exact .keep _
  | some row =>
    by_cases h : k.1 = room
    · simpa only [Option.map_some, h, if_true] using aged_expireJob row now
    · simpa only [Option.map_some, h, if_false] using Aged.keep _

/-- What `putInTransaction` does. -/
theorem putInTransaction_ok {body : Value} {reply : Reply}
    (h : s.putInTransaction sha256 room id body now = .ok (reply, t)) :
    ((t = s ∨ t = s.expireQueued room now) ∧ reply.status ≠ 201) ∨
      ∃ job, reply.status = 201 ∧ s.get room id = .ok none ∧
        normalizeJob room id body now = .ok (some job) ∧
        (s.expireQueued room now).save room
          (queuedJob job (sha256 job.canonical) id none now) = .ok t := by
  unfold putInTransaction at h
  obtain ⟨existing, hexisting, h⟩ := except_bind_ok.1 h
  obtain ⟨parsed, hparsed, h⟩ := except_bind_ok.1 h
  cases parsed with
  | none =>
    cases h
    exact .inl ⟨.inl rfl, by decide⟩
  | some job =>
    cases existing with
    | some existing =>
      dsimp only at h
      split_ifs at h <;> cases h
      · exact .inl ⟨.inl rfl, fun e => absurd (show 200 = 201 from e) (by decide)⟩
      · exact .inl ⟨.inl rfl, by decide⟩
    | none =>
      dsimp only at h
      split_ifs at h
      · cases h
        exact .inl ⟨.inr rfl, by decide⟩
      · obtain ⟨t', hsave, h⟩ := except_bind_ok.1 h
        cases h
        exact .inr ⟨job, rfl, hexisting, hparsed, hsave⟩

/-- What `transitionInTransaction` does. -/
theorem transitionInTransaction_ok {action : TaskAction} {body : Value} {reply : Reply}
    (h : s.transitionInTransaction sha256 room id action body now = .ok (reply, t)) :
    (t = s ∧ reply.status ≠ 200) ∨
      ∃ row result row' proofHash, s.job (room, id) = some row ∧
        actionHash sha256 action body = .ok proofHash ∧
        transitionJob row action body now proofHash = .ok result ∧ result.row = some row' ∧
        s.save room row' = .ok t ∧ reply.status = result.status := by
  unfold transitionInTransaction at h
  obtain ⟨existing, hexisting, h⟩ := except_bind_ok.1 h
  cases existing with
  | none =>
    cases h
    exact .inl ⟨rfl, by decide⟩
  | some row =>
    dsimp only at h
    obtain ⟨proofHash, hhash, h⟩ := except_bind_ok.1 h
    obtain ⟨result, hresult, h⟩ := except_bind_ok.1 h
    cases hrow : result.row with
    | none =>
      rw [hrow] at h
      cases h
      exact .inl ⟨rfl, transitionJob_refused hresult hrow⟩
    | some row' =>
      rw [hrow] at h
      obtain ⟨t', hsave, h⟩ := except_bind_ok.1 h
      cases h
      exact .inr ⟨row, result, row', proofHash, get_eq_ok hexisting, hhash, hresult, hrow, hsave,
        rfl⟩

/-! ## The effect of a call -/

theorem purgeRow_saved (row : SavedJob) (now : ℤ) :
    (∃ row', purgeRow now (.saved row) = some (.saved row') ∧
        Aged now (some row.job.receipt) (some row'.job.receipt)) ∨
      row.job.receipt.disposable now ∧ purgeRow now (.saved row) = none := by
  have hage := aged_expireJob row.job now
  unfold purgeRow
  dsimp only
  split_ifs with hsel hdel
  · refine .inr ⟨⟨fun haccepted => hdel.1 ?_, ?_⟩, rfl⟩
    · rwa [expireJob_of_not_expires fun he => absurd (haccepted.symm.trans he.1) (by decide)]
    · have hexp : (expireJob row.job now).expiresAt = row.job.expiresAt := by
        unfold expireJob retireJob
        split_ifs <;> rfl
      have hlt := hdel.2
      rw [hexp] at hlt
      have hle := le_max_left row.job.expiresAt (expireJob row.job now).updatedAt
      change row.job.expiresAt < now
      unfold RECEIPT_RETENTION_MS at hlt
      omega
  · exact .inl ⟨_, rfl, hage⟩
  · exact .inl ⟨_, rfl, .keep _⟩

theorem purgeInTransaction_ok {next : Option ℤ} (h : s.purgeInTransaction now = .ok (next, t))
    (k : RoomKey) : Aged now (receiptAt s.job k) (receiptAt t.job k) ∨
      ∃ r, receiptAt s.job k = some r ∧ r.disposable now ∧ receiptAt t.job k = none := by
  unfold purgeInTransaction at h
  split_ifs at h
  cases h
  unfold receiptAt job
  dsimp only
  rw [Table.get?_filterMap]
  cases hk : s.jobs.get? k with
  | none => exact .inl (.keep _)
  | some row =>
    cases row with
    | corrupt record => exact .inl (.keep _)
    | saved row =>
      rw [Option.bind_some]
      rcases purgeRow_saved row now with ⟨row', hrow', hage⟩ | ⟨hd, hnone⟩
      · rw [hrow']
        exact .inl hage
      · rw [hnone]
        exact .inr ⟨_, rfl, hd, rfl⟩

theorem answer_ok {α : Type} {f : α → TaskAnswer} {r : Except Throw (α × NodeTasks)}
    {a : TaskAnswer} (h : answer f r = .ok (a, t)) : ∃ x, r = .ok (x, t) ∧ a = f x := by
  cases r with
  | error e => cases h
  | ok p =>
    cases h
    exact ⟨p.1, rfl, rfl⟩

theorem work_effect {c : TaskCall} {a : TaskAnswer} (h : s.work sha256 now c = .ok (a, t)) :
    TaskEffect (digestToken sha256) now s.job t.job c (.ok a) := by
  cases c with
  | put room id body =>
    obtain ⟨reply, hr, rfl⟩ := answer_ok h
    rcases putInTransaction_ok hr with ⟨rfl | rfl, hs⟩ | ⟨job, hs, hget, hjob, hsave⟩
    · exact .put_aged hs fun _ => .keep _
    · exact .put_aged hs (aged_expireQueued s room now)
    · obtain ⟨hrow, hother, -⟩ := save_ok hsave
      refine .created room id body job _ reply hs hjob (get_eq_ok hget) hrow rfl rfl rfl
        fun k hk => ?_
      have hage := aged_expireQueued s room now k
      rwa [← receiptAt_congr (job_eq_of_get? (hother k hk))] at hage
  | transition room id action body =>
    obtain ⟨reply, hr, rfl⟩ := answer_ok h
    rcases transitionInTransaction_ok hr with ⟨rfl, hs⟩ |
      ⟨row, result, row', proofHash, hf, hhash, hresult, hrow, hsave, hs⟩
    · exact .transition_refused hs
    · obtain ⟨hg, hother, -⟩ := save_ok hsave
      have hid : row'.id = id := (transitionJob_id hresult hrow).1.trans (job_id hf)
      rw [hid] at hg hother
      refine .of_transition hf (fun ha => ?_) hresult hrow (receiptAt_of_job hg)
        (fun k hk => ?_) hs
      · rwa [actionHash, if_neg ha] at hhash
      · exact receiptAt_congr (job_eq_of_get? (hother k hk))
  | list room =>
    obtain ⟨jobs, hr, rfl⟩ := answer_ok h
    obtain ⟨rows, -, hr⟩ := except_bind_ok.1 hr
    cases hr
    exact .aged _ _ (aged_expireQueued s room now) rfl rfl rfl
  | listActive room =>
    obtain ⟨jobs, hr, rfl⟩ := answer_ok h
    obtain ⟨rows, -, hr⟩ := except_bind_ok.1 hr
    cases hr
    exact .aged _ _ (aged_expireQueued s room now) rfl rfl rfl
  | getPublic room id metadataOnly =>
    obtain ⟨found, hr, rfl⟩ := answer_ok h
    obtain ⟨saved, -, hr⟩ := except_bind_ok.1 hr
    cases hr
    exact .aged _ _ (aged_expireQueued s room now) rfl rfl rfl
  | due room recipientKeyId excluded =>
    cases h
    exact .aged _ _ (aged_expireQueued s room now) rfl rfl rfl
  | clean connected =>
    obtain ⟨next, hr, rfl⟩ := answer_ok h
    exact .cleaned _ _ (purgeInTransaction_ok hr)

/-- **The effect of a call on the Node store**: a call that throws changes nothing. -/
theorem call_effect (sha256 : Str → Str) (s : NodeTasks) (now : ℤ) (c : TaskCall) :
    TaskEffect (digestToken sha256) now s.job (s.call sha256 now c).2.job c
      (s.call sha256 now c).1 := by
  unfold call
  cases h : s.work sha256 now c with
  | error e => exact .thrown c e
  | ok r => exact work_effect h

/-- The Node runtime. -/
def store (sha256 : Str → Str) : JobStore where
  State := NodeTasks
  empty := empty
  job := job
  call := call sha256
  hash := digestToken sha256
  job_empty := fun _ => rfl
  effect := call_effect sha256

end NodeTasks

end GrantTap
