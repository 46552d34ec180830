import GrantTapRelay.TaskDispatch.Ciphertexts
import GrantTapRelay.TaskDispatch.LazyExpiry
import GrantTapRelay.TaskDispatch.Paging

/-!
# Reads of the Worker store, one storage operation at a time

`getPublic`, `list`, `due` and `maintain` of `src/taskDispatch/worker.js` run outside a transaction:
between two of their storage operations other handlers run, and transactions commit. A read in flight
(`JobRead`) lists pages or gets a row, writes back or deletes the rows that it found expired or
outdated, each after the chunks of its ciphertext, and reads the chunks of the row that it shows in
full. The writes of `rows` run side by side (`Promise.all`), those of `maintain` in order.

Every read uses the time at which it was started. `commits` counts, for each key, the transactions
that stored a row there; a read remembers the count that it saw.
-/

namespace GrantTap

open Js WorkerTasks

/-! ## Reads in flight -/

/-- What runs on the job store outside a transaction. -/
inductive ReadCall
  | list (room : Str)
  | listActive (room : Str)
  | getPublic (room id : Str) (metadataOnly : Bool)
  | due (room recipientKeyId : Str) (excluded : List Str)
  | maintain (connected : Option (List (Option Str)))

/-- A row as a read found it, and how many transactions had stored a row under its key. -/
structure Snapshot where
  key : RoomKey
  row : Job
  seen : ℕ

/-- A row that a read writes back, or deletes, after the chunks of its ciphertext. -/
structure WriteBack where
  key : RoomKey
  row : Job
  keeps : Bool
  seen : ℕ
  deleted : ℕ

/-- What follows the writes of a read. -/
inductive ReadRest
  | answer (answer : TaskAnswer)
  | hydrate (row : Job)

/-- Where a read is. -/
inductive ReadPhase
  | reading (records : List Snapshot)
  | writing (pending : List WriteBack) (rest : ReadRest)
  | hydrating (row : Job) (chunks : List Str)
  | done (answer : Except Throw TaskAnswer)

/-- A read in flight. -/
structure JobRead where
  call : ReadCall
  now : ℤ
  phase : ReadPhase

/-! ## Writing back -/

namespace WriteBack

/-- How many chunks `deleteCiphertext` deletes. -/
def count (p : WriteBack) : ℕ := p.row.cipher.elim 0 Cipher.count

/-- The next storage operation of `writeTaskJob` on an expired row, or of the deletion of a row. -/
def perform (s : WorkerTasks) (p : WriteBack) : Option WriteBack × WorkerTasks :=
  if p.deleted < p.count then
    (some { p with deleted := p.deleted + 1 },
      { s with boxes := s.boxes.erase (boxKey p.row p.deleted) })
  else if p.keeps then
    (none, { s with jobs := s.jobs.put p.key (Shelf.stored p.row none) })
  else (none, { s with jobs := s.jobs.erase p.key })

end WriteBack

namespace Snapshot

/-- `rows` and `getPublic` write an expired row back. -/
def expired (now : ℤ) (x : Snapshot) : List WriteBack :=
  if expires x.row now then [⟨(x.key.1, x.row.id), expireJob x.row now, true, x.seen, 0⟩] else []

/-- `maintain` deletes an outdated row, and writes an expired row back. -/
def maintained (now : ℤ) (x : Snapshot) : List WriteBack :=
  if Shelf.Outdated now x.row then [⟨x.key, expireJob x.row now, false, x.seen, 0⟩]
  else if expires x.row now then [⟨x.key, expireJob x.row now, true, x.seen, 0⟩] else []

end Snapshot

/-! ## The steps of a read -/

namespace ReadCall

/-- The keys that a read asks for. -/
def covers (call : ReadCall) (k : RoomKey) : Bool :=
  match call with
  | list room => k.1 = room
  | listActive room => k.1 = room
  | getPublic room id _ => k = (room, id)
  | due room _ _ => k.1 = room
  | maintain _ => true

/-- What a read writes for a row that it found. -/
def writes (call : ReadCall) (now : ℤ) (x : Snapshot) : List WriteBack :=
  match call with
  | maintain _ => x.maintained now
  | _ => x.expired now

/-- The deadline of a row that `maintain` keeps. -/
def nextDeadline (connected : Option (List (Option Str))) (now : ℤ) (next : Option ℤ)
    (x : Snapshot) : Option ℤ :=
  if Shelf.Outdated now x.row then next
  else earlier next (deadline connected now (expireJob x.row now))

/-- What a read does after its writes. -/
def rest (call : ReadCall) (now : ℤ) (records : List Snapshot) (configurations : Option ℤ) :
    ReadRest :=
  let rows := records.map fun x => expireJob x.row now
  match call with
  | list _ => .answer (.jobs (rows.map publicJob))
  | listActive _ =>
    .answer (.jobs ((rows.map publicJob).filter fun job => job.state.retainsPayload))
  | getPublic _ _ metadataOnly =>
    match rows with
    | [] => .answer (.found none)
    | row :: _ => if metadataOnly then .answer (.found (some (publicJob row))) else .hydrate row
  | due _ recipientKeyId excluded =>
    match ((rows.filter (isDue recipientKeyId now excluded)).insertionSort fun a b =>
        a.notBefore < b.notBefore ∨ a.notBefore = b.notBefore ∧ a.createdAt ≤ b.createdAt) with
    | [] => .answer (.jobs [])
    | next :: _ => .hydrate next
  | maintain connected =>
    .answer (.deadline (records.foldl (nextDeadline connected now) configurations))

/-- The answer that shows a row in full. -/
def shows (call : ReadCall) (row : Job) : TaskAnswer :=
  match call with
  | getPublic _ _ _ => .found (some (publicJob row))
  | _ => .jobs [publicJob row]

end ReadCall

section Steps

variable (sha256 : Str → Str)

/-- The next page of `listTaskJobRecords`, in the order of the storage keys; `getPublic` asks for
one key. -/
def nextPage (s : WorkerTasks) (call : ReadCall) (records : List Snapshot) : List (RoomKey × Job) :=
  let name := fun k : RoomKey => taskJobKey k.1 k.2
  ((s.jobs.rows.filter fun r => call.covers r.1 &&
      (records.getLast?.map Snapshot.key).all fun last => unitsLt (name last) (name r.1)).insertionSort
    fun a b => unitsLe (name a.1) (name b.1)).take LIST_LIMIT

/-- `hydrateTaskJob`, which has read some chunks. -/
def hydration (call : ReadCall) (row : Job) (chunks : List Str) : ReadPhase :=
  match row.cipher with
  | none => .done (.ok (call.shows row))
  | some cipher =>
    if cipher.count < 1 ∨ 350 < cipher.count ∨ cipher.bytes < 24 ∨ 22000000 < cipher.bytes then
      .done (.error (.error "Invalid encrypted task storage"))
    else if chunks.length < cipher.count then .hydrating row chunks
    else if chunks.flatten.length ≠ cipher.bytes ∨ sha256 chunks.flatten ≠ cipher.digest then
      .done (.error (.error "Corrupt encrypted task storage"))
    else .done (.ok (call.shows
      { row with envelope := row.envelope.set (lit "box") (.str chunks.flatten) }))

/-- The phase with these writes ahead. -/
def afterWrites (call : ReadCall) (pending : List WriteBack) (rest : ReadRest) : ReadPhase :=
  match pending, rest with
  | [], .answer answer => .done (.ok answer)
  | [], .hydrate row => hydration sha256 call row []
  | p :: pending, rest => .writing (p :: pending) rest

/-- The phase of a read that found all its records. -/
def allRead (call : ReadCall) (now : ℤ) (records : List Snapshot) (configurations : Option ℤ) :
    ReadPhase :=
  afterWrites sha256 call (records.flatMap (call.writes now)) (call.rest now records configurations)

/-- The records of a read with its next page. -/
def found (s : WorkerTasks) (commits : RoomKey → ℕ) (call : ReadCall) (records : List Snapshot) :
    List Snapshot :=
  records ++ (nextPage s call records).map fun r => ⟨r.1, r.2, commits r.1⟩

/-- A page is read; after the last one of `maintain` the configurations are cleaned up. -/
def readPage (s : WorkerTasks) (commits : RoomKey → ℕ) (call : ReadCall) (now : ℤ)
    (records : List Snapshot) : ReadPhase × WorkerTasks :=
  let records' := found s commits call records
  if ROOM_RECEIPT_LIMIT + ROOM_JOB_LIMIT < records'.length then
    (.done (.error (.error "task history exceeds storage bounds")), s)
  else if (nextPage s call records).length < LIST_LIMIT then
    match call with
    | .maintain _ =>
      let configurations := s.registry.maintainWorker now
      (allRead sha256 call now records' configurations.1, { s with registry := configurations.2 })
    | _ => (allRead sha256 call now records' none, s)
  else (.reading records', s)

/-- The write that a read goes on with: `maintain` writes in order. -/
def ReadCall.branch (call : ReadCall) (i : ℕ) : ℕ :=
  match call with
  | .maintain _ => 0
  | _ => i

/-- The next storage operation of a read, of its `i`-th write when several are under way. -/
def JobRead.step (s : WorkerTasks) (commits : RoomKey → ℕ) (i : ℕ) (r : JobRead) :
    JobRead × WorkerTasks :=
  match r.phase with
  | .reading records =>
    let p := readPage sha256 s commits r.call r.now records
    ({ r with phase := p.1 }, p.2)
  | .writing pending rest =>
    match pending[r.call.branch i]? with
    | none => (r, s)
    | some p =>
      let done := p.perform s
      let pending := match done.1 with
        | some p => pending.set (r.call.branch i) p
        | none => pending.eraseIdx (r.call.branch i)
      ({ r with phase := afterWrites sha256 r.call pending rest }, done.2)
  | .hydrating row chunks =>
    match readChunk s.boxes row chunks.length with
    | .error e => ({ r with phase := .done (.error e) }, s)
    | .ok chunk => ({ r with phase := hydration sha256 r.call row (chunks ++ [chunk]) }, s)
  | .done _ => (r, s)

/-! ## Reads and transactions -/

/-- The key under which a successful transaction stored a row. -/
def TaskCall.stored (c : TaskCall) (a : Except Throw TaskAnswer) : Option RoomKey :=
  match c, a with
  | .put room id _, .ok (.reply r) => if r.status = 201 then some (room, id) else none
  | .transition room id _ _, .ok (.reply r) => if r.status = 200 then some (room, id) else none
  | _, _ => none

/-- The storage, and the reads in flight. -/
structure JobTraffic where
  storage : WorkerTasks
  commits : RoomKey → ℕ
  reads : List JobRead

/-- A read starts, or goes on with its next storage operation, or a transaction commits. -/
inductive JobEvent
  | start (now : ℤ) (call : ReadCall)
  | proceed (read branch : ℕ)
  | commit (now : ℤ) (c : TaskCall)

namespace JobTraffic

/-- The empty storage. -/
def empty : JobTraffic := ⟨.empty, fun _ => 0, []⟩

/-- One event. -/
def next (w : JobTraffic) : JobEvent → JobTraffic
  | .start now call => { w with reads := w.reads ++ [⟨call, now, .reading []⟩] }
  | .proceed read branch =>
    match w.reads[read]? with
    | none => w
    | some r =>
      let done := r.step sha256 w.storage w.commits branch
      { w with storage := done.2, reads := w.reads.set read done.1 }
  | .commit now c =>
    if c.writes then
      let done := w.storage.call sha256 now c
      { w with
        storage := done.2
        commits := fun k => if c.stored done.1 = some k then w.commits k + 1 else w.commits k }
    else w

end JobTraffic

end Steps

end GrantTap
