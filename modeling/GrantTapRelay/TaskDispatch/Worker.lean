import GrantTapRelay.TaskDispatch.Configurations
import GrantTapRelay.TaskDispatch.Effects

/-!
# The Worker job store

`src/taskDispatch/worker.js`, `worker-ciphertext.js` and `worker-records.js` over the storage of a
Durable Object. A row lies at `task-job:room:id`, without its box, which is cut into chunks at
`task-box:room:id:index`. Rooms and ids hold no colon, so the keys are the pairs and triples.

`put` and `transition` run in a transaction; what the other operations wrote before an exception
stays.
-/

namespace GrantTap

open Js

def CHUNK_BYTES : ℕ := 64000

/-- The storage of the store. -/
structure WorkerTasks where
  jobs : Table RoomKey Job
  boxes : Table (Str × Str × ℕ) Str
  registry : Registry

namespace WorkerTasks

variable (sha256 : Str → Str)

def empty : WorkerTasks := ⟨.empty, .empty, .empty⟩

/-! ## Ciphertext -/

def boxKey (row : Job) (index : ℕ) : Str × Str × ℕ :=
  (row.room.getD (lit "undefined"), row.id, index)

/-- `box.slice(index * CHUNK_BYTES, (index + 1) * CHUNK_BYTES)` -/
def boxChunk (box : Str) (index : ℕ) : Str := (box.drop (index * CHUNK_BYTES)).take CHUNK_BYTES

def deleteCiphertext (boxes : Table (Str × Str × ℕ) Str) (row : Job) :
    Table (Str × Str × ℕ) Str :=
  match row.cipher with
  | none => boxes
  | some cipher => (List.range cipher.count).foldl (fun t i => t.erase (boxKey row i)) boxes

def writeTaskJob (s : WorkerTasks) (key : RoomKey) (input : Job) : WorkerTasks :=
  let row := { input with envelope := input.envelope.without [lit "box"] }
  if !retainsTaskPayload input then
    { s with
      jobs := s.jobs.put key { row with cipher := none }
      boxes := deleteCiphertext s.boxes input }
  else
    match input.cipher, (input.envelope.get (lit "box")).str? with
    | none, some box =>
      let cipher : Cipher :=
        { count := (box.length + CHUNK_BYTES - 1) / CHUNK_BYTES, digest := sha256 box,
          bytes := box.length }
      { s with
        jobs := s.jobs.put key { row with cipher := some cipher }
        boxes := (List.range cipher.count).foldl
          (fun t i => t.put (boxKey input i) (boxChunk box i)) s.boxes }
    | _, _ => { s with jobs := s.jobs.put key row }

/-- One chunk of a stored box. -/
def readChunk (boxes : Table (Str × Str × ℕ) Str) (row : Job) (index : ℕ) : Except Throw Str :=
  match boxes.get? (boxKey row index) with
  | some chunk =>
    if chunk.length ≤ CHUNK_BYTES then .ok chunk
    else .error (.error "Incomplete encrypted task storage")
  | none => .error (.error "Incomplete encrypted task storage")

/-- The chunks of a stored box, in order. -/
def readChunks (boxes : Table (Str × Str × ℕ) Str) (row : Job) (count : ℕ) :
    Except Throw (List Str) := (List.range count).mapM (readChunk boxes row)

def hydrateTaskJob (s : WorkerTasks) (input : Job) : Except Throw Job :=
  match input.cipher with
  | none => .ok input
  | some cipher => do
    if cipher.count < 1 ∨ 350 < cipher.count ∨ cipher.bytes < 24 ∨ 22000000 < cipher.bytes then
      throw (.error "Invalid encrypted task storage")
    let chunks ← readChunks s.boxes input cipher.count
    let box := chunks.flatten
    if box.length ≠ cipher.bytes ∨ sha256 box ≠ cipher.digest then
      throw (.error "Corrupt encrypted task storage")
    return { input with envelope := input.envelope.set (lit "box") (.str box) }

/-! ## Reading -/

/-- `listTaskJobRecords` refuses a history beyond the bounds of the store. -/
def boundedRecords (rows : List (RoomKey × Job)) : Except Throw (List (RoomKey × Job)) :=
  if ROOM_RECEIPT_LIMIT + ROOM_JOB_LIMIT < rows.length then
    .error (.error "task history exceeds storage bounds")
  else .ok rows

/-- One row of `rows`: an expired one is written back. -/
def expireSaved (now : ℤ) (s : WorkerTasks) (r : RoomKey × Job) : WorkerTasks :=
  if expires r.2 now then s.writeTaskJob sha256 (r.1.1, r.2.id) (expireJob r.2 now) else s

def rows (s : WorkerTasks) (room : Str) (now : ℤ) : Except Throw (List Job × WorkerTasks) := do
  let records ← boundedRecords (roomRows s.jobs room)
  return (records.map fun r => expireJob r.2 now, records.foldl (expireSaved sha256 now) s)

def list (s : WorkerTasks) (room : Str) (now : ℤ) :
    Except Throw (List PublicJob × WorkerTasks) := do
  let (rows, s) ← s.rows sha256 room now
  return (rows.map publicJob, s)

def listActive (s : WorkerTasks) (room : Str) (now : ℤ) :
    Except Throw (List PublicJob × WorkerTasks) := do
  let (jobs, s) ← s.list sha256 room now
  return (jobs.filter fun job => job.state.retainsPayload, s)

/-- An operation outside a transaction: what it wrote before it threw stays. -/
abbrev Partly (α : Type) := Except Throw α × WorkerTasks

def getPublic (s : WorkerTasks) (room id : Str) (now : ℤ) (metadataOnly : Bool) :
    Partly (Option PublicJob) :=
  match s.jobs.get? (room, id) with
  | none => (.ok none, s)
  | some saved =>
    let row := expireJob saved now
    let s := if expires saved now then s.writeTaskJob sha256 (room, id) row else s
    (((if metadataOnly then .ok row else s.hydrateTaskJob sha256 row).map
      fun row => some (publicJob row)), s)

def isDue (recipientKeyId : Str) (now : ℤ) (excluded : List Str) (row : Job) : Bool :=
  row.state = .queued && row.notBefore ≤ now &&
    (row.envelope.get (lit "recipientKeyId")).is recipientKeyId && !excluded.contains row.id

/-- The first due job by `notBefore`, then `createdAt`. -/
def due (s : WorkerTasks) (room recipientKeyId : Str) (now : ℤ) (excluded : List Str) :
    Partly (List PublicJob) :=
  match s.rows sha256 room now with
  | .error t => (.error t, s)
  | .ok (rows, s) =>
    let sorted := (rows.filter (isDue recipientKeyId now excluded)).insertionSort fun a b =>
      a.notBefore < b.notBefore ∨ a.notBefore = b.notBefore ∧ a.createdAt ≤ b.createdAt
    match sorted.head? with
    | none => (.ok [], s)
    | some next => ((s.hydrateTaskJob sha256 next).map fun row => [publicJob row], s)

/-! ## Writing -/

def put (s : WorkerTasks) (room id : Str) (body : Value) (now : ℤ) :
    Except Throw (Reply × WorkerTasks) := do
  let existing := s.jobs.get? (room, id)
  let parsed ← normalizeJob room id body (existing.elim now (·.createdAt))
  match parsed, existing with
  | none, _ => return (.error 400 "invalid encrypted task job", s)
  | some job, some existing =>
    if existing.fingerprint = sha256 job.canonical then
      return (⟨200, .job (publicJob (expireJob existing now))⟩, s)
    else return (.error 409 "job identity already exists", s)
  | some job, none =>
    let (rows, s) ← s.rows sha256 room now
    let active := rows.filter retainsTaskPayload
    if ROOM_RECEIPT_LIMIT ≤ rows.length ∨ ROOM_JOB_LIMIT ≤ active.length ∨
        ROOM_JOB_BYTES < (active.map (·.bytes)).sum + job.bytes then
      return (.error 429 "task queue capacity reached", s)
    else
      let row := queuedJob job (sha256 job.canonical) id (some room) now
      return (⟨201, .job (publicJob row)⟩, s.writeTaskJob sha256 (room, id) row)

/-- `sha256(typeof body?.token === 'string' ? body.token : '')` -/
def digestToken (body : Value) : Except Throw Str :=
  .ok (sha256 ((body.get (lit "token")).str?.getD []))

def transition (s : WorkerTasks) (room id : Str) (action : TaskAction) (body : Value) (now : ℤ) :
    Except Throw (Reply × WorkerTasks) := do
  let proofHash ← digestToken sha256 body
  match s.jobs.get? (room, id) with
  | none => return (.error 404 "unknown task job", s)
  | some row =>
    let result ← transitionJob row action body now proofHash
    match result.row with
    | none => return (.error result.status result.error, s)
    | some row' =>
      return (⟨result.status, .job (publicJob row')⟩, s.writeTaskJob sha256 (room, id) row')

/-! ## Maintenance -/

/-- `connectedRecipients.has(row.envelope.recipientKeyId)` -/
def hasRecipient (connected : List (Option Str)) : Value → Bool
  | none => connected.contains none
  | some (.str key) => connected.contains (some key)
  | some _ => false

/-- When the room must wake for a row. -/
def deadline (connected : Option (List (Option Str))) (now : ℤ) (row : Job) : Option ℤ :=
  if row.state = .queued then
    if connected.any fun keys => !hasRecipient keys (row.envelope.get (lit "recipientKeyId")) then
      some row.expiresAt
    else some (min row.expiresAt (if now < row.notBefore then row.notBefore else now + 15000))
  else if row.state = .accepted then none
  else some (max row.expiresAt row.updatedAt + 7 * 86400000)

/-- `Math.min(next ?? Infinity, deadline)` for a deadline that is not `undefined`. -/
def earlier (next deadline : Option ℤ) : Option ℤ :=
  match next, deadline with
  | some a, some b => some (min a b)
  | some a, none => some a
  | none, b => b

/-- One row of `maintain`. -/
def maintainRow (connected : Option (List (Option Str))) (now : ℤ)
    (acc : Option ℤ × WorkerTasks) (r : RoomKey × Job) : Option ℤ × WorkerTasks :=
  let row := expireJob r.2 now
  if row.state ≠ .accepted ∧ max row.expiresAt row.updatedAt + 7 * 86400000 < now then
    (acc.1, { acc.2 with
      jobs := acc.2.jobs.erase r.1
      boxes := deleteCiphertext acc.2.boxes row })
  else
    (earlier acc.1 (deadline connected now row),
      if expires r.2 now then acc.2.writeTaskJob sha256 r.1 row else acc.2)

def maintain (s : WorkerTasks) (connected : Option (List (Option Str))) (now : ℤ) :
    Except Throw (Option ℤ × WorkerTasks) := do
  let records ← boundedRecords s.jobs.rows
  let (next, registry) := s.registry.maintainWorker now
  return records.foldl (maintainRow sha256 connected now) (next, { s with registry := registry })

/-! ## Calls -/

/-- An operation that changes nothing when it throws. -/
def whole {α : Type} (s : WorkerTasks) (f : α → TaskAnswer)
    (r : Except Throw (α × WorkerTasks)) : Partly TaskAnswer :=
  match r with
  | .ok (a, t) => (.ok (f a), t)
  | .error e => (.error e, s)

/-- One call at time `now`. -/
def call (s : WorkerTasks) (now : ℤ) : TaskCall → Except Throw TaskAnswer × WorkerTasks
  | .put room id body => s.whole .reply (s.put sha256 room id body now)
  | .transition room id action body =>
    s.whole .reply (s.transition sha256 room id action body now)
  | .list room => s.whole .jobs (s.list sha256 room now)
  | .listActive room => s.whole .jobs (s.listActive sha256 room now)
  | .getPublic room id metadataOnly =>
    let r := s.getPublic sha256 room id now metadataOnly
    (r.1.map .found, r.2)
  | .due room recipientKeyId excluded =>
    let r := s.due sha256 room recipientKeyId now excluded
    (r.1.map .jobs, r.2)
  | .clean connected => s.whole .deadline (s.maintain sha256 connected now)

/-! ## The rows after an operation -/

/-- Every row lies at its own room and id. -/
def Named (s : WorkerTasks) : Prop :=
  ∀ k row, s.jobs.get? k = some row → row.id = k.2 ∧ row.room = some k.1

theorem named_empty : empty.Named := fun _ _ h => nomatch h

variable {sha256} {s t : WorkerTasks} {room id : Str} {now : ℤ}

/-- A written row differs from its input in its box and its cipher only. -/
theorem writeTaskJob_jobs (sha256 : Str → Str) (s : WorkerTasks) (key : RoomKey) (input : Job) :
    ∃ cipher, (s.writeTaskJob sha256 key input).jobs = s.jobs.put key
      { input with envelope := input.envelope.without [lit "box"], cipher := cipher } := by
  unfold writeTaskJob
  dsimp only
  split_ifs with h
  · exact ⟨none, rfl⟩
  · split
    · exact ⟨_, rfl⟩
    · exact ⟨input.cipher, rfl⟩

theorem receipt_without_box (input : Job) (cipher : Option Cipher) :
    ({ input with envelope := input.envelope.without [lit "box"], cipher := cipher } :
      Job).receipt = input.receipt := by
  have hr : (input.envelope.without [lit "box"]).get (lit "recipientKeyId") =
      input.envelope.get (lit "recipientKeyId") := Json.get_without (by decide) _
  simp only [Job.receipt, hr]

theorem get?_writeTaskJob (sha256 : Str → Str) (s : WorkerTasks) (key : RoomKey) (input : Job) :
    ∃ row, row.receipt = input.receipt ∧ row.id = input.id ∧ row.room = input.room ∧
      ∀ k, (s.writeTaskJob sha256 key input).jobs.get? k =
        if k = key then some row else s.jobs.get? k := by
  obtain ⟨cipher, h⟩ := writeTaskJob_jobs sha256 s key input
  refine ⟨_, receipt_without_box input cipher, rfl, rfl, fun k => ?_⟩
  rw [h, Table.get?_put]

theorem receiptAt_writeTaskJob (s : WorkerTasks) (key : RoomKey) (input : Job) (k : RoomKey) :
    receiptAt (s.writeTaskJob sha256 key input).jobs.get? k =
      if k = key then some input.receipt else receiptAt s.jobs.get? k := by
  obtain ⟨row, hrow, -, -, h⟩ := get?_writeTaskJob sha256 s key input
  unfold receiptAt
  rw [h]
  split_ifs
  · rw [Option.map_some, hrow]
  · rfl

theorem Named.write (hs : s.Named) {key : RoomKey} {input : Job} (hid : input.id = key.2)
    (hroom : input.room = some key.1) : (s.writeTaskJob sha256 key input).Named := by
  obtain ⟨row, -, hid', hroom', h⟩ := get?_writeTaskJob sha256 s key input
  intro k row' hk
  rw [h] at hk
  split_ifs at hk with e
  · cases hk
    subst e
    exact ⟨hid'.trans hid, hroom'.trans hroom⟩
  · exact hs k row' hk

/-! ## Expiry on reading -/

theorem expireJob_id (row : Job) (now : ℤ) :
    (expireJob row now).id = row.id ∧ (expireJob row now).room = row.room := by
  unfold expireJob retireJob
  split_ifs <;> exact ⟨rfl, rfl⟩

theorem aged_expireSaved (sha256 : Str → Str) (now : ℤ) {r : RoomKey × Job} (hr : s.jobs.get? r.1 = some r.2)
    (hid : r.2.id = r.1.2) (k : RoomKey) :
    Aged now (receiptAt s.jobs.get? k) (receiptAt (s.expireSaved sha256 now r).jobs.get? k) := by
  unfold expireSaved
  split_ifs with h
  · rw [receiptAt_writeTaskJob, hid]
    split_ifs with e
    · have he := expires_iff.1 h
      rw [e, receiptAt_of_job hr, receipt_expireJob_of_expires he]
      exact .expire _ he
    · exact .keep _
  · exact .keep _

theorem get?_expireSaved {r : RoomKey × Job} (hid : r.2.id = r.1.2) (s : WorkerTasks)
    {k : RoomKey} (hk : k ≠ r.1) :
    (s.expireSaved sha256 now r).jobs.get? k = s.jobs.get? k := by
  unfold expireSaved
  split_ifs with h
  · obtain ⟨row, -, -, -, hw⟩ :=
      get?_writeTaskJob sha256 s (r.1.1, r.2.id) (expireJob r.2 now)
    rw [hw, hid, if_neg hk]
  · rfl

theorem nodup_roomRows {ν : Type} (t : Table RoomKey ν) (room : Str) :
    ((roomRows t room).map Prod.fst).Nodup := by
  have hp := List.perm_insertionSort (fun a b : RoomKey × ν => unitsLe a.1.2 b.1.2)
    (t.rows.filter fun r => r.1.1 = room)
  exact (hp.map Prod.fst).nodup_iff.2 (t.nodup.sublist (List.filter_sublist.map Prod.fst))

theorem Named.expireSaved (hs : s.Named) (sha256 : Str → Str) (now : ℤ) {r : RoomKey × Job} (hroom : r.2.room = some r.1.1) :
    (s.expireSaved sha256 now r).Named := by
  unfold WorkerTasks.expireSaved
  split_ifs
  · exact hs.write (expireJob_id r.2 now).1 ((expireJob_id r.2 now).2.trans hroom)
  · exact hs

/-- A pass that writes expired rows back lets the receipts age. -/
theorem foldl_expireSaved (hs : s.Named) {l : List (RoomKey × Job)}
    (hl : ∀ r ∈ l, s.jobs.get? r.1 = some r.2) (hnodup : (l.map Prod.fst).Nodup) :
    (∀ k, Aged now (receiptAt s.jobs.get? k)
      (receiptAt (l.foldl (expireSaved sha256 now) s).jobs.get? k)) ∧
      (l.foldl (expireSaved sha256 now) s).Named := by
  have hstep : ∀ s : WorkerTasks, ∀ r ∈ l, ∀ k, k ≠ r.1 →
      (s.expireSaved sha256 now r).jobs.get? k = s.jobs.get? k :=
    fun s r hr k hk => get?_expireSaved (hs _ _ (hl r hr)).1 s hk
  constructor
  · intro k
    by_cases hk : k ∈ l.map Prod.fst
    · obtain ⟨r, hr, rfl⟩ := List.mem_map.1 hk
      obtain ⟨s', hs', hfold⟩ := Table.foldl_of_mem (fun (s : WorkerTasks) k => s.jobs.get? k) hnodup
        hstep s hr
      have hage := aged_expireSaved sha256 now (hs'.trans (hl r hr))
        (hs _ _ (hl r hr)).1 r.1
      rwa [receiptAt_congr hfold, ← receiptAt_congr (f := s'.jobs.get?) hs']
    · have hfold := Table.foldl_of_notMem (fun (s : WorkerTasks) k => s.jobs.get? k) hstep s hk
      rw [receiptAt_congr hfold]
      exact .keep _
  · refine List.foldlRecOn l _ hs fun s' hs' r hr => ?_
    exact hs'.expireSaved sha256 now (hs _ _ (hl r hr)).2

/-- What `rows` does to the receipts: they age. -/
theorem rows_ok (hs : s.Named) {jobs : List Job} (h : s.rows sha256 room now = .ok (jobs, t)) :
    (∀ k, Aged now (receiptAt s.jobs.get? k) (receiptAt t.jobs.get? k)) ∧ t.Named := by
  obtain ⟨records, hrecords, h⟩ := except_bind_ok.1 h
  unfold boundedRecords at hrecords
  split_ifs at hrecords
  cases hrecords
  cases h
  exact foldl_expireSaved hs (fun r hr => (mem_roomRows.1 hr).1) (nodup_roomRows s.jobs room)

/-! ## The effect of a call -/

theorem put_ok (hs : s.Named) {body : Value} {reply : Reply}
    (h : s.put sha256 room id body now = .ok (reply, t)) :
    TaskEffect (digestToken sha256) now s.jobs.get? t.jobs.get? (.put room id body)
      (.ok (.reply reply)) ∧ t.Named := by
  unfold put at h
  obtain ⟨parsed, hparsed, h⟩ := except_bind_ok.1 h
  cases parsed with
  | none =>
    cases h
    exact ⟨.put_aged (by decide) fun _ => .keep _, hs⟩
  | some job =>
    cases hexisting : s.jobs.get? (room, id) with
    | some existing =>
      rw [hexisting] at h
      dsimp only at h
      split_ifs at h <;> cases h
      · exact ⟨.put_aged (fun e => absurd (show 200 = 201 from e) (by decide)) fun _ => .keep _, hs⟩
      · exact ⟨.put_aged (by decide) fun _ => .keep _, hs⟩
    | none =>
      rw [hexisting] at h hparsed
      dsimp only at h
      obtain ⟨⟨rows, s'⟩, hrows, h⟩ := except_bind_ok.1 h
      obtain ⟨hage, hs'⟩ := rows_ok hs hrows
      dsimp only at h
      split_ifs at h <;> cases h
      · exact ⟨.put_aged (by decide) hage, hs'⟩
      · obtain ⟨row, hrow, -, -, hget⟩ := get?_writeTaskJob sha256 s' (room, id)
          (queuedJob job (sha256 job.canonical) id (some room) now)
        refine ⟨.created room id body job row _ rfl hparsed hexisting ?_
          (congrArg Receipt.state hrow) (congrArg Receipt.claimId hrow)
          (congrArg Receipt.expiresAt hrow) fun k hk => ?_, hs'.write rfl rfl⟩
        · rw [hget, if_pos rfl]
        · have hother := hget k
          rw [if_neg hk] at hother
          rw [receiptAt_congr hother]
          exact hage k

theorem transition_ok (hs : s.Named) {action : TaskAction} {body : Value} {reply : Reply}
    (h : s.transition sha256 room id action body now = .ok (reply, t)) :
    TaskEffect (digestToken sha256) now s.jobs.get? t.jobs.get? (.transition room id action body)
      (.ok (.reply reply)) ∧ t.Named := by
  obtain ⟨proofHash, hhash, h⟩ := except_bind_ok.1 h
  cases hrow : s.jobs.get? (room, id) with
  | none =>
    rw [hrow] at h
    cases h
    exact ⟨.transition_refused (by decide), hs⟩
  | some row =>
    rw [hrow] at h
    obtain ⟨result, hresult, h⟩ := except_bind_ok.1 h
    cases hrow' : result.row with
    | none =>
      rw [hrow'] at h
      cases h
      exact ⟨.transition_refused (transitionJob_refused hresult hrow'), hs⟩
    | some row' =>
      rw [hrow'] at h
      cases h
      obtain ⟨hid, hroom⟩ := transitionJob_id hresult hrow'
      obtain ⟨hid₀, hroom₀⟩ := hs _ _ hrow
      refine ⟨.of_transition hrow (fun _ => hhash) hresult hrow' ?_ (fun k hk => ?_) rfl,
        hs.write (hid.trans hid₀) (hroom.trans hroom₀)⟩
      · rw [receiptAt_writeTaskJob, if_pos rfl]
      · rw [receiptAt_writeTaskJob, if_neg hk]

theorem getPublic_ok (hs : s.Named) (sha256 : Str → Str) (room id : Str) (now : ℤ)
    (metadataOnly : Bool) :
    (∀ k, Aged now (receiptAt s.jobs.get? k)
      (receiptAt (s.getPublic sha256 room id now metadataOnly).2.jobs.get? k)) ∧
      (s.getPublic sha256 room id now metadataOnly).2.Named := by
  unfold getPublic
  cases hrow : s.jobs.get? (room, id) with
  | none => exact ⟨fun _ => .keep _, hs⟩
  | some row =>
    obtain ⟨hid, hroom⟩ := hs _ _ hrow
    have hage := aged_expireSaved sha256 now (r := ((room, id), row)) hrow hid
    have hnamed := hs.expireSaved sha256 now (r := ((room, id), row)) hroom
    unfold expireSaved at hage hnamed
    dsimp only at hage hnamed hid ⊢
    rw [hid] at hage hnamed
    exact ⟨hage, hnamed⟩

theorem due_ok (hs : s.Named) (sha256 : Str → Str) (room recipientKeyId : Str) (now : ℤ)
    (excluded : List Str) :
    (∀ k, Aged now (receiptAt s.jobs.get? k)
      (receiptAt (s.due sha256 room recipientKeyId now excluded).2.jobs.get? k)) ∧
      (s.due sha256 room recipientKeyId now excluded).2.Named := by
  unfold due
  cases h : s.rows sha256 room now with
  | error e => exact ⟨fun _ => .keep _, hs⟩
  | ok r =>
    obtain ⟨rows, t⟩ := r
    dsimp only
    split <;> exact rows_ok hs h

theorem get?_maintainRow (connected : Option (List (Option Str))) (acc : Option ℤ × WorkerTasks)
    {r : RoomKey × Job} {k : RoomKey} (hk : k ≠ r.1) :
    (maintainRow sha256 connected now acc r).2.jobs.get? k = acc.2.jobs.get? k := by
  unfold maintainRow
  dsimp only
  split_ifs
  · rw [Table.get?_erase, if_neg hk]
  · obtain ⟨row, -, -, -, hw⟩ :=
      get?_writeTaskJob sha256 acc.2 r.1 (expireJob r.2 now)
    exact (hw k).trans (if_neg hk)
  · rfl

/-- A visited row ages, or is disposable and deleted. -/
theorem receiptAt_maintainRow (connected : Option (List (Option Str)))
    (acc : Option ℤ × WorkerTasks) {r : RoomKey × Job} (hr : acc.2.jobs.get? r.1 = some r.2) :
    Aged now (some r.2.receipt)
        (receiptAt (maintainRow sha256 connected now acc r).2.jobs.get? r.1) ∨
      r.2.receipt.disposable now ∧
        receiptAt (maintainRow sha256 connected now acc r).2.jobs.get? r.1 = none := by
  unfold maintainRow
  dsimp only
  split_ifs with hdel hexp
  · refine .inr ⟨⟨fun haccepted => hdel.1 ?_, ?_⟩, ?_⟩
    · rwa [expireJob_of_not_expires fun he => absurd (haccepted.symm.trans he.1) (by decide)]
    · have hexp : (expireJob r.2 now).expiresAt = r.2.expiresAt := by
        unfold expireJob retireJob
        split_ifs <;> rfl
      have hlt := hdel.2
      rw [hexp] at hlt
      have hle := le_max_left r.2.expiresAt (expireJob r.2 now).updatedAt
      change r.2.expiresAt < now
      omega
    · rw [receiptAt, Table.get?_erase, if_pos rfl, Option.map_none]
  · have he := expires_iff.1 hexp
    rw [receiptAt_writeTaskJob, if_pos rfl, receipt_expireJob_of_expires he]
    exact .inl (.expire _ he)
  · rw [receiptAt_of_job hr]
    exact .inl (.keep _)

theorem Named.maintainRow (connected : Option (List (Option Str))) {acc : Option ℤ × WorkerTasks}
    (hs : acc.2.Named) {r : RoomKey × Job} (hid : r.2.id = r.1.2) (hroom : r.2.room = some r.1.1) :
    (maintainRow sha256 connected now acc r).2.Named := by
  unfold WorkerTasks.maintainRow
  dsimp only
  split_ifs
  · intro k row hk
    rw [Table.get?_erase] at hk
    split_ifs at hk
    exact hs k row hk
  · exact hs.write ((expireJob_id r.2 now).1.trans hid) ((expireJob_id r.2 now).2.trans hroom)
  · exact hs

theorem maintain_ok (hs : s.Named) {connected : Option (List (Option Str))} {next : Option ℤ}
    (h : s.maintain sha256 connected now = .ok (next, t)) :
    (∀ k, Aged now (receiptAt s.jobs.get? k) (receiptAt t.jobs.get? k) ∨
      ∃ r, receiptAt s.jobs.get? k = some r ∧ r.disposable now ∧
        receiptAt t.jobs.get? k = none) ∧ t.Named := by
  obtain ⟨records, hrecords, h⟩ := except_bind_ok.1 h
  unfold boundedRecords at hrecords
  split_ifs at hrecords
  cases hrecords
  have ht : t = (s.jobs.rows.foldl (maintainRow sha256 connected now)
      ((s.registry.maintainWorker now).1,
        { s with registry := (s.registry.maintainWorker now).2 })).2 :=
    congrArg Prod.snd (Except.ok.inj h).symm
  subst ht
  set acc : Option ℤ × WorkerTasks := ((s.registry.maintainWorker now).1,
    { s with registry := (s.registry.maintainWorker now).2 })
  have hstep : ∀ acc, ∀ r ∈ s.jobs.rows, ∀ k, k ≠ r.1 →
      (maintainRow sha256 connected now acc r).2.jobs.get? k = acc.2.jobs.get? k :=
    fun acc r _ k hk => get?_maintainRow connected acc hk
  have hmem : ∀ r ∈ s.jobs.rows, s.jobs.get? r.1 = some r.2 := fun r hr => Table.mem_rows.1 hr
  constructor
  · intro k
    by_cases hk : k ∈ s.jobs.rows.map Prod.fst
    · obtain ⟨r, hr, rfl⟩ := List.mem_map.1 hk
      obtain ⟨acc', hacc', hfold⟩ := Table.foldl_of_mem (fun (acc : _ × WorkerTasks) k =>
        acc.2.jobs.get? k) s.jobs.nodup hstep acc hr
      rw [receiptAt_of_job (hmem r hr), receiptAt_congr hfold]
      rcases receiptAt_maintainRow connected acc' (hacc'.trans (hmem r hr)) with hage | hd
      · exact .inl hage
      · exact .inr ⟨_, rfl, hd⟩
    · have hfold := Table.foldl_of_notMem (fun (acc : _ × WorkerTasks) k =>
        acc.2.jobs.get? k) hstep acc hk
      rw [receiptAt_congr hfold]
      exact .inl (.keep _)
  · refine List.foldlRecOn (motive := fun acc : Option ℤ × WorkerTasks => acc.2.Named)
      s.jobs.rows _ hs fun acc' hacc' r hr => ?_
    exact hacc'.maintainRow connected (hs _ _ (hmem r hr)).1 (hs _ _ (hmem r hr)).2

/-- An operation that changes nothing when it throws has the effect of its successes. -/
theorem whole_effect (hs : s.Named) {α : Type} {c : TaskCall} {f : α → TaskAnswer}
    {r : Except Throw (α × WorkerTasks)}
    (h : ∀ a t, r = .ok (a, t) →
      TaskEffect (digestToken sha256) now s.jobs.get? t.jobs.get? c (.ok (f a)) ∧ t.Named) :
    TaskEffect (digestToken sha256) now s.jobs.get? (s.whole f r).2.jobs.get? c (s.whole f r).1 ∧
      (s.whole f r).2.Named := by
  cases r with
  | error e => exact ⟨.thrown c e, hs⟩
  | ok p => exact h p.1 p.2 rfl

/-- **The effect of a call on the Worker store**, whose rows stay at their own keys. -/
theorem call_effect (hs : s.Named) (sha256 : Str → Str) (now : ℤ) (c : TaskCall) :
    TaskEffect (digestToken sha256) now s.jobs.get? (s.call sha256 now c).2.jobs.get? c
      (s.call sha256 now c).1 ∧ (s.call sha256 now c).2.Named := by
  cases c with
  | put room id body => exact whole_effect hs fun reply t h => put_ok hs h
  | transition room id action body => exact whole_effect hs fun reply t h => transition_ok hs h
  | list room =>
    refine whole_effect hs fun jobs t h => ?_
    obtain ⟨⟨rows, t'⟩, hrows, hr⟩ := except_bind_ok.1 h
    cases hr
    exact ⟨.aged _ _ (rows_ok hs hrows).1 rfl rfl rfl, (rows_ok hs hrows).2⟩
  | listActive room =>
    refine whole_effect hs fun jobs t h => ?_
    obtain ⟨⟨all, t'⟩, hlist, hr⟩ := except_bind_ok.1 h
    obtain ⟨⟨rows, t''⟩, hrows, hr'⟩ := except_bind_ok.1 hlist
    cases hr'
    cases hr
    exact ⟨.aged _ _ (rows_ok hs hrows).1 rfl rfl rfl, (rows_ok hs hrows).2⟩
  | getPublic room id metadataOnly =>
    obtain ⟨hage, hnamed⟩ := getPublic_ok hs sha256 room id now metadataOnly
    exact ⟨.aged _ _ hage rfl rfl rfl, hnamed⟩
  | due room recipientKeyId excluded =>
    obtain ⟨hage, hnamed⟩ := due_ok hs sha256 room recipientKeyId now excluded
    exact ⟨.aged _ _ hage rfl rfl rfl, hnamed⟩
  | clean connected =>
    refine whole_effect hs fun next t h => ?_
    exact ⟨.cleaned _ _ (maintain_ok hs h).1, (maintain_ok hs h).2⟩

/-- The Worker runtime, on the storages whose rows lie at their own keys. -/
def store (sha256 : Str → Str) : JobStore where
  State := { s : WorkerTasks // s.Named }
  empty := ⟨empty, named_empty⟩
  job := fun s => s.1.jobs.get?
  call := fun s now c =>
    ((s.1.call sha256 now c).1, ⟨(s.1.call sha256 now c).2, (call_effect s.2 sha256 now c).2⟩)
  hash := digestToken sha256
  job_empty := fun _ => rfl
  effect := fun s now c => (call_effect s.2 sha256 now c).1

end WorkerTasks

end GrantTap
