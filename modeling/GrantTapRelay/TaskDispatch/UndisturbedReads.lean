import GrantTapRelay.TaskDispatch.JobReads

/-!
# Reads that nothing disturbs

A read of the Worker store writes expired rows back, and reads ciphertexts chunk by chunk, outside a
transaction. It is undisturbed when no transaction stores a row that the read has still to write or
delete, when nobody deletes a chunk that it has still to read, and when it does not start on a
ciphertext that is being deleted, by another read or by itself (`Undisturbed`). Then every row that
is written back was read after the last transaction that stored a row there, and no read fails.

* `Worn`: the shelf of a job whose chunks some reads are deleting.
* `WriteBack.Current`, `Held`: what a read relies on.
* `JobTraffic.Sound`: the invariant, which every undisturbed event keeps.
* `reads_respect_transactions`: **undisturbed reads** undo no transaction, and never fail.
-/

namespace GrantTap

open Js Runs WorkerTasks

/-! ## What a read has still to do -/

/-- How many chunks the ciphertext of a row has. -/
def Job.chunkCount (row : Job) : ℕ := row.cipher.elim 0 Cipher.count

namespace JobRead

/-- The rows that a read has still to write or delete. -/
def rewritten (r : JobRead) : List WriteBack :=
  match r.phase with
  | .reading records => records.flatMap (r.call.writes r.now)
  | .writing pending _ => pending
  | _ => []

/-- The row whose ciphertext a read has still to read, and the chunks of it that it has. -/
def awaited (r : JobRead) : List (Job × List Str) :=
  match r.phase with
  | .writing _ (.hydrate row) => [(row, [])]
  | .hydrating row chunks => [(row, chunks)]
  | _ => []

/-- The read has still to read a chunk. -/
def Awaits (r : JobRead) (chunk : Str × Str × ℕ) : Prop :=
  ∃ a ∈ r.awaited, ∃ i, a.2.length ≤ i ∧ i < a.1.chunkCount ∧ boxKey a.1 i = chunk

end JobRead

/-! ## Undisturbed events -/

/-- A transaction stores a row under a key. -/
inductive Stores (sha256 : Str → Str) (s : WorkerTasks) (now : ℤ) : TaskCall → RoomKey → Prop
  | put (room id : Str) (body : Value) (job : NormalizedJob)
      (hnone : s.jobs.get? (room, id) = none)
      (hjob : normalizeJob room id body now = .ok (some job))
      (hplace : ¬Full ((roomRows s.jobs room).map fun r => expireJob r.2 now) job.bytes) :
    Stores sha256 s now (.put room id body) (room, id)
  | transition (room id : Str) (action : TaskAction) (body : Value) (row row' : Job)
      (hash : Str) (result : JobResult) (hrow : s.jobs.get? (room, id) = some row)
      (hhash : digestToken sha256 body = .ok hash)
      (hresult : transitionJob row action body now hash = .ok result)
      (hrow' : result.row = some row') :
    Stores sha256 s now (.transition room id action body) (room, id)

/-- A transaction deletes the ciphertext under a key: a put expires the rows of its room, and a
transition may end a job. -/
inductive Retires (sha256 : Str → Str) (s : WorkerTasks) (now : ℤ) : TaskCall → RoomKey → Prop
  | put (room id id' : Str) (body : Value) (job : NormalizedJob) (row : Job)
      (hnone : s.jobs.get? (room, id) = none)
      (hjob : normalizeJob room id body now = .ok (some job))
      (hrow : s.jobs.get? (room, id') = some row) (hexpires : expires row now = true) :
    Retires sha256 s now (.put room id body) (room, id')
  | transition (room id : Str) (action : TaskAction) (body : Value) (row row' : Job)
      (hash : Str) (result : JobResult) (hrow : s.jobs.get? (room, id) = some row)
      (hhash : digestToken sha256 body = .ok hash)
      (hresult : transitionJob row action body now hash = .ok result)
      (hrow' : result.row = some row') (hretired : retainsTaskPayload row' = false) :
    Retires sha256 s now (.transition room id action body) (room, id)

/-- The ciphertext of a row is stored in full. -/
def Intact (s : WorkerTasks) (row : Job) : Prop :=
  ∃ k saved, s.jobs.get? k = some saved ∧ row.id = k.2 ∧ row.room = some k.1 ∧
    saved.cipher = row.cipher ∧ ∀ i < row.chunkCount, (s.boxes.get? (k.1, k.2, i)).isSome = true

/-- The next operation of a read does not delete a chunk that a read has still to read; and the row
that it goes on to show, once it has found all its rows, is stored in full. -/
def JobRead.Undisturbing (w : JobTraffic) (branch : ℕ) (r : JobRead) : Prop :=
  match r.phase with
  | .reading records => (nextPage w.storage r.call records).length < LIST_LIMIT →
      ∀ row, r.call.rest r.now (found w.storage w.commits r.call records) none = .hydrate row →
        row.cipher.isSome = true → Intact w.storage row
  | .writing pending _ => ∀ p, pending[r.call.branch branch]? = some p → p.deleted < p.count →
      ∀ r' ∈ w.reads, ¬r'.Awaits (boxKey p.row p.deleted)
  | _ => True

/-- An event that no read in flight minds. -/
def Undisturbed (sha256 : Str → Str) (w : JobTraffic) : JobEvent → Prop
  | .start _ _ => True
  | .proceed read branch => ∀ r, w.reads[read]? = some r → r.Undisturbing w branch
  | .commit now c =>
    (∀ k, Stores sha256 w.storage now c k → ∀ r ∈ w.reads, ∀ p ∈ r.rewritten, p.key ≠ k) ∧
      ∀ k, Retires sha256 w.storage now c k → ∀ r ∈ w.reads, ∀ i, ¬r.Awaits (k.1, k.2, i)

/-! ## What a transaction does to a shelf -/

/-- The shelf of a key after a transaction. -/
inductive Committed (sha256 : Str → Str) (s : WorkerTasks) (now : ℤ) (c : TaskCall) (k : RoomKey) :
    Shelf → Prop
  | same : Committed sha256 s now c k (s.shelf k)
  | aged (row : Job) (hrow : s.jobs.get? k = some row) (hexpires : expires row now = true)
      (hretires : Retires sha256 s now c k) :
    Committed sha256 s now c k ((s.shelf k).write sha256 (expireJob row now))
  | stored (row row' : Job) (hrow : s.jobs.get? k = some row) (hfollows : Follows row row')
      (hstores : Stores sha256 s now c k)
      (hretires : retainsTaskPayload row' = false → Retires sha256 s now c k) :
    Committed sha256 s now c k ((s.shelf k).write sha256 row')
  | created (room id fingerprint box : Str) (job : NormalizedJob) (hrow : s.jobs.get? k = none)
      (hbox : SubmittedBox job box) (hstores : Stores sha256 s now c k) :
    Committed sha256 s now c k
      ((s.shelf k).write sha256 (queuedJob job fingerprint id (some room) now))

section Commit

variable {sha256 : Str → Str} {s t : WorkerTasks} {now : ℤ} {room id : Str} {body : Value}

theorem rows_fst {jobs : List Job} (h : s.rows sha256 room now = .ok (jobs, t)) :
    jobs = (roomRows s.jobs room).map fun r => expireJob r.2 now := by
  obtain ⟨records, hrecords, h⟩ := except_bind_ok.1 h
  unfold boundedRecords at hrecords
  split_ifs at hrecords
  cases hrecords
  cases h
  rfl

/-- The rows of the room expire with a put. -/
theorem committed_rows (hs : s.Named) {jobs : List Job} (h : s.rows sha256 room now = .ok (jobs, t))
    {job : NormalizedJob} (hnone : s.jobs.get? (room, id) = none)
    (hjob : normalizeJob room id body now = .ok (some job)) (k : RoomKey) :
    Committed sha256 s now (.put room id body) k (t.shelf k) := by
  rw [shelf_rows hs h]
  split_ifs with hroom
  · unfold Shelf.age
    rw [shelf_row]
    cases hrow : s.jobs.get? k with
    | none => exact .same
    | some row =>
      dsimp only
      split_ifs with hexpires
      · refine .aged row hrow hexpires ?_
        obtain ⟨room', id'⟩ := k
        obtain rfl := hroom
        exact .put _ id id' body job row hnone hjob hrow hexpires
      · exact .same
  · exact .same

theorem committed_put (hs : s.Named) {reply : Reply}
    (h : s.put sha256 room id body now = .ok (reply, t)) (k : RoomKey) :
    Committed sha256 s now (.put room id body) k (t.shelf k) ∧
      (reply.status = 201 → Stores sha256 s now (.put room id body) (room, id)) := by
  unfold put at h
  obtain ⟨parsed, hparsed, h⟩ := except_bind_ok.1 h
  cases parsed with
  | none =>
    cases h
    exact ⟨.same, fun h => absurd h (by decide)⟩
  | some job =>
    cases hexisting : s.jobs.get? (room, id) with
    | some existing =>
      rw [hexisting] at h
      dsimp only at h
      split_ifs at h <;> cases h
      · exact ⟨.same, fun h => absurd (show 200 = 201 from h) (by decide)⟩
      · exact ⟨.same, fun h => absurd h (by decide)⟩
    | none =>
      rw [hexisting] at h hparsed
      dsimp only at h
      obtain ⟨⟨rows, s'⟩, hrows, h⟩ := except_bind_ok.1 h
      dsimp only at h
      have hcommitted := committed_rows hs hrows hexisting hparsed
      split_ifs at h with hfull <;> cases h
      · exact ⟨hcommitted k, fun h => absurd h (by decide)⟩
      · have hplace : ¬Full rows job.bytes := hfull
        rw [rows_fst hrows] at hplace
        have hstores : Stores sha256 s now (.put room id body) (room, id) :=
          .put room id body job hexisting hparsed hplace
        refine ⟨?_, fun _ => hstores⟩
        rw [shelf_writeTaskJob rfl rfl]
        split_ifs with hk
        · subst hk
          obtain ⟨box, -, hbox⟩ := (normalizeJob_ok hparsed).box
          have hsame : s'.shelf (room, id) = s.shelf (room, id) := by
            rw [shelf_rows hs hrows, if_pos rfl, Shelf.age, shelf_row, hexisting]
          rw [hsame]
          exact .created room id _ box job hexisting hbox hstores
        · exact hcommitted k

theorem committed_transition (hs : s.Named) {action : TaskAction} {reply : Reply}
    (h : s.transition sha256 room id action body now = .ok (reply, t)) (k : RoomKey) :
    Committed sha256 s now (.transition room id action body) k (t.shelf k) ∧
      (reply.status = 200 → Stores sha256 s now (.transition room id action body) (room, id)) := by
  obtain ⟨hash, hhash, h⟩ := except_bind_ok.1 h
  cases hrow : s.jobs.get? (room, id) with
  | none =>
    rw [hrow] at h
    cases h
    exact ⟨.same, fun h => absurd h (by decide)⟩
  | some row =>
    rw [hrow] at h
    obtain ⟨result, hresult, h⟩ := except_bind_ok.1 h
    cases hrow' : result.row with
    | none =>
      rw [hrow'] at h
      cases h
      exact ⟨.same, fun h => absurd h (transitionJob_refused hresult hrow')⟩
    | some row' =>
      rw [hrow'] at h
      cases h
      obtain ⟨hid, hroom⟩ := transitionJob_id hresult hrow'
      obtain ⟨hid₀, hroom₀⟩ := hs _ _ hrow
      have hstores := Stores.transition room id action body row row' hash result hrow hhash hresult
        hrow'
      refine ⟨?_, fun _ => hstores⟩
      rw [shelf_writeTaskJob (hid.trans hid₀) (hroom.trans hroom₀)]
      split_ifs with hk
      · subst hk
        exact .stored row row' hrow (transitionJob_follows hresult hrow') hstores
          (.transition room id action body row row' hash result hrow hhash hresult hrow')
      · exact .same

variable (sha256 now) in
/-- **A transaction** and the shelf of a key; what it answers for tells where it stored. -/
theorem committed_call (hs : s.Named) {c : TaskCall} (hwrites : c.writes = true) (k : RoomKey) :
    Committed sha256 s now c k ((s.call sha256 now c).2.shelf k) ∧
      (c.stored (s.call sha256 now c).1 = some k → Stores sha256 s now c k) := by
  cases c with
  | put room id body =>
    unfold call whole TaskCall.stored
    dsimp only
    cases h : s.put sha256 room id body now with
    | error e => exact ⟨.same, fun h => by cases h⟩
    | ok r =>
      obtain ⟨hcommitted, hstores⟩ := committed_put hs h k
      refine ⟨hcommitted, fun hk => ?_⟩
      dsimp only at hk
      split_ifs at hk with hstatus
      obtain rfl := Option.some_inj.1 hk
      exact hstores hstatus
  | transition room id action body =>
    unfold call whole TaskCall.stored
    dsimp only
    cases h : s.transition sha256 room id action body now with
    | error e => exact ⟨.same, fun h => by cases h⟩
    | ok r =>
      obtain ⟨hcommitted, hstores⟩ := committed_transition hs h k
      refine ⟨hcommitted, fun hk => ?_⟩
      dsimp only at hk
      split_ifs at hk with hstatus
      obtain rfl := Option.some_inj.1 hk
      exact hstores hstatus
  | _ => cases hwrites

end Commit

/-! ## Shelves whose chunks are being deleted -/

namespace Shelf

variable {sha256 : Str → Str} {gone gone' : ℕ → Prop} {now : ℤ} {shelf : Shelf}

/-- A shelf that mirrors a job, but for chunks that are gone. -/
inductive Worn (sha256 : Str → Str) (gone : ℕ → Prop) : Shelf → Prop
  | vacant : Worn sha256 gone ⟨none, fun _ => none⟩
  | retired (row : Job) (hretired : retainsTaskPayload row = false) (hnone : row.cipher = none) :
    Worn sha256 gone ⟨some row, fun _ => none⟩
  | kept (row : Job) (job : NormalizedJob) (box : Str) (chunks : ℕ → Option Str)
      (hretains : retainsTaskPayload row = true) (hcipher : row.cipher = some (cipherOf sha256 box))
      (hbox : SubmittedBox job box)
      (hchunks : ∀ i, chunks i = boxChunks box i ∨ chunks i = none ∧ gone i) :
    Worn sha256 gone ⟨some row, chunks⟩

theorem Worn.mono (h : Worn sha256 gone shelf) (hle : ∀ i, gone i → gone' i) :
    Worn sha256 gone' shelf := by
  cases h with
  | vacant => exact .vacant
  | retired row hretired hnone => exact .retired row hretired hnone
  | kept row job box chunks hretains hcipher hbox hchunks =>
    exact .kept row job box chunks hretains hcipher hbox fun i =>
      (hchunks i).imp id fun hnone => ⟨hnone.1, hle i hnone.2⟩

/-- A shelf that misses no chunk mirrors its job. -/
theorem Worn.mirrors (h : Worn sha256 gone shelf) (hnone : ∀ i, ¬gone i) :
    ∃ body, shelf.Mirrors sha256 body := by
  cases h with
  | vacant => exact ⟨none, .vacant none⟩
  | retired row hretired hcipher => exact ⟨none, .retired row none hretired hcipher⟩
  | kept row job box chunks hretains hcipher hbox hchunks =>
    have hall : chunks = boxChunks box :=
      funext fun i => (hchunks i).resolve_right fun hgone => hnone i hgone.2
    rw [hall]
    exact ⟨some job, .kept row job box hretains hcipher hbox⟩

theorem Mirrors.worn {body : Option NormalizedJob} (h : shelf.Mirrors sha256 body) :
    Worn sha256 gone shelf := by
  cases h with
  | vacant => exact .vacant
  | retired row _ hretired hnone => exact .retired row hretired hnone
  | kept row job box hretains hcipher hbox =>
    exact .kept row job box _ hretains hcipher hbox fun i => .inl rfl

/-- Deleting the rest of the chunks leaves none. -/
theorem Worn.clear {row : Job} (h : Worn sha256 gone shelf) (hrow : shelf.row = some row) :
    Shelf.clear row shelf.chunks = fun _ => none := by
  cases h with
  | vacant => cases hrow
  | retired row' hretired hnone =>
    cases hrow
    rw [Shelf.clear, hnone]
  | kept row' job box chunks hretains hcipher hbox hchunks =>
    cases hrow
    funext i
    rw [Shelf.clear, hcipher]
    change (if i < Chunks.count CHUNK_BYTES box.length then none else chunks i) = none
    split_ifs with hi
    · rfl
    · rcases hchunks i with hi' | hi'
      · rw [hi']
        exact if_neg hi
      · exact hi'.1

theorem cipher_expireJob (row : Job) (now : ℤ) : (expireJob row now).cipher = row.cipher := by
  unfold expireJob
  split_ifs <;> rfl

/-- A row that expires takes the rest of its chunks along. -/
theorem Worn.expire {row : Job} (h : Worn sha256 gone shelf) (hrow : shelf.row = some row)
    (hexpires : expires row now = true) :
    shelf.write sha256 (expireJob row now) =
      ⟨some (stored (expireJob row now) none), fun _ => none⟩ := by
  have hclear : Shelf.clear (expireJob row now) shelf.chunks = Shelf.clear row shelf.chunks := by
    unfold Shelf.clear
    rw [cipher_expireJob]
  unfold Shelf.write
  rw [if_pos (WorkerTasks.retains_expireJob hexpires), hclear, h.clear hrow]

/-- One more chunk is gone. -/
theorem Worn.delete (h : Worn sha256 gone shelf) (hle : ∀ i, gone i → gone' i) {i : ℕ}
    (hi : gone' i) :
    Worn sha256 gone' ⟨shelf.row, fun j => if j = i then none else shelf.chunks j⟩ := by
  cases h with
  | vacant => simpa using Worn.vacant
  | retired row hretired hnone => simpa using Worn.retired row hretired hnone
  | kept row job box chunks hretains hcipher hbox hchunks =>
    refine .kept row job box _ hretains hcipher hbox fun j => ?_
    by_cases hj : j = i
    · rw [hj, if_pos rfl]
      exact .inr ⟨rfl, hi⟩
    · rw [if_neg hj]
      exact (hchunks j).imp id fun hnone => ⟨hnone.1, hle j hnone.2⟩

end Shelf

/-! ## What a read relies on -/

/-- A row that is still to be written or deleted: no transaction stored a row there since it was
read, and its first chunks are gone. -/
structure WriteBack.Current (w : JobTraffic) (p : WriteBack) : Prop where
  seen : p.seen = w.commits p.key
  named : p.row.id = p.key.2 ∧ p.row.room = some p.key.1
  retired : p.keeps = true → retainsTaskPayload p.row = false
  cipher : ∀ row, w.storage.jobs.get? p.key = some row → retainsTaskPayload row = true →
    row.cipher = p.row.cipher
  gone : ∀ i < p.deleted, w.storage.boxes.get? (p.key.1, p.key.2, i) = none

/-- A row whose ciphertext is still to be read: the chunks read so far are its first ones, and the
others are stored. -/
structure HeldBox (sha256 : Str → Str) (s : WorkerTasks) (k : RoomKey) (box : Str) (row : Job)
    (chunks : List Str) : Prop where
  id : row.id = k.2
  room : row.room = some k.1
  cipher : row.cipher = some (Shelf.cipherOf sha256 box)
  long : 24 ≤ box.length
  short : box.length ≤ JOB_BYTES
  read : chunks = (List.range chunks.length).map (boxChunk box)
  length_le : chunks.length ≤ row.chunkCount
  ahead : ∀ i, chunks.length ≤ i → i < row.chunkCount →
    s.boxes.get? (k.1, k.2, i) = some (boxChunk box i)

def Held (sha256 : Str → Str) (s : WorkerTasks) (row : Job) (chunks : List Str) : Prop :=
  ∃ k box, HeldBox sha256 s k box row chunks

namespace JobRead

/-- A read that can go on. -/
structure Ok (sha256 : Str → Str) (w : JobTraffic) (r : JobRead) : Prop where
  current : ∀ p ∈ r.rewritten, p.Current w
  held : ∀ a ∈ r.awaited, a.1.cipher.isSome = true → Held sha256 w.storage a.1 a.2
  unfinished : ∀ row chunks, r.phase = .hydrating row chunks → chunks.length < row.chunkCount
  whole : ∀ e, r.phase = .done (.error e) → e = .error "task history exceeds storage bounds"

end JobRead

namespace JobTraffic

/-- Some read deleted the chunk of a row that it has still to write or delete. -/
def Gone (w : JobTraffic) (k : RoomKey) (i : ℕ) : Prop :=
  ∃ r ∈ w.reads, ∃ p ∈ r.rewritten, p.key = k ∧ i < p.deleted

/-- The invariant. -/
structure Sound (sha256 : Str → Str) (w : JobTraffic) : Prop where
  named : w.storage.Named
  worn : ∀ k, (w.storage.shelf k).Worn sha256 (w.Gone k)
  reads : ∀ r ∈ w.reads, r.Ok sha256 w

end JobTraffic

section Frames

variable {sha256 : Str → Str} {w w' : JobTraffic} {p : WriteBack}

/-- What a read relies on stays as long as no row that retains a payload appears, and no deleted
chunk comes back. -/
theorem WriteBack.Current.mono (h : p.Current w) (hcommits : w'.commits p.key = w.commits p.key)
    (hrow : ∀ row, w'.storage.jobs.get? p.key = some row → retainsTaskPayload row = true →
      w.storage.jobs.get? p.key = some row)
    (hgone : ∀ i, w.storage.boxes.get? (p.key.1, p.key.2, i) = none →
      w'.storage.boxes.get? (p.key.1, p.key.2, i) = none) : p.Current w' where
  seen := h.seen.trans hcommits.symm
  named := h.named
  retired := h.retired
  cipher row hget hretains := h.cipher row (hrow row hget hretains) hretains
  gone i hi := hgone i (h.gone i hi)

theorem Held.mono {s s' : WorkerTasks} {row : Job} {chunks : List Str} (h : Held sha256 s row chunks)
    (hchunks : ∀ i, chunks.length ≤ i → i < row.chunkCount →
      s'.boxes.get? (boxKey row i) = s.boxes.get? (boxKey row i)) : Held sha256 s' row chunks := by
  obtain ⟨k, box, hbox⟩ := h
  refine ⟨k, box, { hbox with ahead := fun i hlow hhigh => ?_ }⟩
  have hkey := boxKey_of_named hbox.id hbox.room i
  rw [← hkey, hchunks i hlow hhigh, hkey]
  exact hbox.ahead i hlow hhigh

/-- A row whose ciphertext is stored in full. -/
theorem Intact.held {s : WorkerTasks} {row : Job} {gone : RoomKey → ℕ → Prop} (h : Intact s row)
    (hworn : ∀ k, (s.shelf k).Worn sha256 (gone k)) (hsome : row.cipher.isSome = true) :
    Held sha256 s row [] := by
  obtain ⟨k, saved, hsaved, hid, hroom, hcipher, hstored⟩ := h
  have hworn := hworn k
  have hrow : (s.shelf k).row = some saved := hsaved
  have hchunks : ∀ i, s.boxes.get? (k.1, k.2, i) = (s.shelf k).chunks i := fun _ => rfl
  generalize s.shelf k = shelf at hworn hrow hchunks
  cases hworn with
  | vacant => cases hrow
  | retired row' hretired hnone =>
    cases hrow
    rw [← hcipher, hnone] at hsome
    cases hsome
  | kept row' job box chunks hretains hbox hsubmitted hstays =>
    cases hrow
    refine ⟨k, box, hid, hroom, hcipher ▸ hbox, hsubmitted.long, hsubmitted.short, rfl,
      Nat.zero_le _, fun i _ hi => ?_⟩
    have hthere := hstored i hi
    rw [hchunks] at hthere ⊢
    rcases hstays i with hstays | ⟨hnone, -⟩
    · refine hstays.trans (if_pos ?_)
      rw [Job.chunkCount, ← hcipher, hbox] at hi
      exact hi
    · have hthere : (chunks i).isSome = true := hthere
      rw [hnone] at hthere
      cases hthere

end Frames

/-! ## Commits -/

namespace JobTraffic

variable {sha256 : Str → Str} {w : JobTraffic} {now : ℤ} {c : TaskCall}

/-- The traffic after a commit. -/
def committed (sha256 : Str → Str) (w : JobTraffic) (now : ℤ) (c : TaskCall) : JobTraffic where
  storage := (w.storage.call sha256 now c).2
  commits k := if c.stored (w.storage.call sha256 now c).1 = some k then w.commits k + 1
    else w.commits k
  reads := w.reads

theorem next_commit (hwrites : c.writes = true) :
    w.next sha256 (.commit now c) = w.committed sha256 now c := if_pos hwrites

/-- A transaction that stores a row finds no deleted chunk there, and the others take the rest of
the chunks along. -/
theorem worn_commit (h : w.Sound sha256) (hc : Undisturbed sha256 w (.commit now c))
    (hwrites : c.writes = true) (k : RoomKey) :
    ((w.committed sha256 now c).storage.shelf k).Worn sha256 (w.Gone k) := by
  have hworn := h.worn k
  have hwhole (hstores : Stores sha256 w.storage now c k) : ∀ i, ¬w.Gone k i := by
    rintro i ⟨r, hr, p, hp, hk, -⟩
    exact hc.1 k hstores r hr p hp hk
  have hcommitted := (committed_call sha256 now h.named hwrites k).1
  change Shelf.Worn sha256 _ ((w.storage.call sha256 now c).2.shelf k)
  generalize (w.storage.call sha256 now c).2.shelf k = shelf at hcommitted
  cases hcommitted with
  | same => exact hworn
  | aged row hrow hexpires hretires =>
    rw [hworn.expire hrow hexpires]
    exact .retired _ (retains_expireJob hexpires) rfl
  | stored row row' hrow hfollows hstores hretires =>
    obtain ⟨body, hmirrors⟩ := hworn.mirrors (hwhole hstores)
    exact (hmirrors.write hrow hfollows).worn
  | created room id fingerprint box job hrow hbox hstores =>
    obtain ⟨body, hmirrors⟩ := hworn.mirrors (hwhole hstores)
    exact (hmirrors.create hrow hbox).worn

theorem current_commit (h : w.Sound sha256) (hc : Undisturbed sha256 w (.commit now c))
    (hwrites : c.writes = true) {r : JobRead} (hr : r ∈ w.reads) {p : WriteBack}
    (hp : p ∈ r.rewritten) : p.Current (w.committed sha256 now c) := by
  have hnot (hstores : Stores sha256 w.storage now c p.key) : False :=
    hc.1 p.key hstores r hr p hp rfl
  obtain ⟨hcommitted, hstored⟩ :=
    committed_call sha256 now h.named hwrites p.key
  have hworn := h.worn p.key
  refine ((h.reads r hr).current p hp).mono (if_neg (mt hstored hnot)) ?_ ?_
  · intro row
    change ((w.storage.call sha256 now c).2.shelf p.key).row = some row → _
    generalize (w.storage.call sha256 now c).2.shelf p.key = shelf at hcommitted
    cases hcommitted with
    | same => exact fun hrow _ => hrow
    | aged row' hrow hexpires hretires =>
      rw [hworn.expire hrow hexpires]
      rintro hrow' hretains
      obtain rfl := Option.some_inj.1 hrow'
      exact absurd ((retains_expireJob hexpires).symm.trans hretains) (by decide)
    | stored row' row'' hrow hfollows hstores hretires => exact (hnot hstores).elim
    | created room id fingerprint box job hrow hbox hstores => exact (hnot hstores).elim
  · intro i
    change (w.storage.shelf p.key).chunks i = none →
      ((w.storage.call sha256 now c).2.shelf p.key).chunks i = none
    generalize (w.storage.call sha256 now c).2.shelf p.key = shelf at hcommitted
    cases hcommitted with
    | same => exact id
    | aged row' hrow hexpires hretires =>
      rw [hworn.expire hrow hexpires]
      exact fun _ => rfl
    | stored row' row'' hrow hfollows hstores hretires => exact (hnot hstores).elim
    | created room id fingerprint box job hrow hbox hstores => exact (hnot hstores).elim

/-- The chunks that a read awaits stay. -/
theorem held_commit (h : w.Sound sha256) (hc : Undisturbed sha256 w (.commit now c))
    (hwrites : c.writes = true) {r : JobRead} (hr : r ∈ w.reads) {a : Job × List Str}
    (ha : a ∈ r.awaited) (hsome : a.1.cipher.isSome = true) :
    Held sha256 (w.committed sha256 now c).storage a.1 a.2 := by
  have hheld := (h.reads r hr).held a ha hsome
  refine hheld.mono fun i hlow hhigh => ?_
  obtain ⟨k, box, hbox⟩ := hheld
  have hkey := boxKey_of_named hbox.id hbox.room i
  have hawaits : r.Awaits (k.1, k.2, i) := ⟨a, ha, i, hlow, hhigh, hkey⟩
  have hnot (hretires : Retires sha256 w.storage now c k) : False :=
    hc.2 k hretires r hr i hawaits
  have hthere : (w.storage.shelf k).chunks i = some (boxChunk box i) := hbox.ahead i hlow hhigh
  have hcommitted := (committed_call sha256 now h.named hwrites k).1
  have hworn := h.worn k
  rw [hkey]
  change ((w.storage.call sha256 now c).2.shelf k).chunks i = (w.storage.shelf k).chunks i
  generalize (w.storage.call sha256 now c).2.shelf k = shelf at hcommitted
  cases hcommitted with
  | same => rfl
  | aged row hrow hexpires hretires => exact (hnot hretires).elim
  | stored row row' hrow hfollows hstores hretires =>
    cases hretains : retainsTaskPayload row' with
    | false => exact (hnot (hretires hretains)).elim
    | true =>
      -- the row keeps its ciphertext
      obtain ⟨hretained, -, -⟩ := hfollows.retained hretains
      have hrow₀ : (w.storage.shelf k).row = some row := hrow
      generalize w.storage.shelf k = shelf at hworn hthere hrow₀ ⊢
      cases hworn with
      | vacant => cases hthere
      | retired => cases hthere
      | kept row₀ job box' chunks _ hcipher _ _ =>
        cases hrow₀
        unfold Shelf.write
        rw [if_neg (by rw [hretains]; decide), hfollows.cipher, hcipher]
  | created room id fingerprint box' job hrow hbox' hstores =>
    have hrow₀ : (w.storage.shelf k).row = none := hrow
    generalize w.storage.shelf k = shelf at hworn hthere hrow₀ ⊢
    cases hworn with
    | vacant => cases hthere
    | retired => cases hthere
    | kept => cases hrow₀

/-- **A transaction** that disturbs no read. -/
theorem Sound.commit (h : w.Sound sha256) (hc : Undisturbed sha256 w (.commit now c))
    (hwrites : c.writes = true) : (w.committed sha256 now c).Sound sha256 where
  named := by
    change (w.storage.call sha256 now c).2.Named
    exact (call_effect h.named sha256 now c).2
  worn k := by
    change ((w.committed sha256 now c).storage.shelf k).Worn sha256 (w.Gone k)
    exact worn_commit h hc hwrites k
  reads r hr := by
    have hr : r ∈ w.reads := hr
    exact
      { current := fun p hp => current_commit h hc hwrites hr hp
        held := fun a ha hsome => held_commit h hc hwrites hr ha hsome
        unfinished := (h.reads r hr).unfinished
        whole := (h.reads r hr).whole }

end JobTraffic

/-! ## The phases of a read -/

section Phases

variable {sha256 : Str → Str} {w : JobTraffic} {call : ReadCall} {now : ℤ}

theorem ok_done (answer : TaskAnswer) : JobRead.Ok sha256 w ⟨call, now, .done (.ok answer)⟩ where
  current _ hp := absurd hp List.not_mem_nil
  held _ ha := absurd ha List.not_mem_nil
  unfinished _ _ hphase := by cases hphase
  whole _ hphase := by cases hphase

/-- **A ciphertext that is held** is read. -/
theorem ok_hydration {row : Job} {chunks : List Str}
    (hheld : row.cipher.isSome = true → Held sha256 w.storage row chunks) :
    JobRead.Ok sha256 w ⟨call, now, hydration sha256 call row chunks⟩ := by
  unfold hydration
  cases hcipher : row.cipher with
  | none => exact ok_done _
  | some cipher =>
    have hheld := hheld (by rw [hcipher]; rfl)
    obtain ⟨k, box, hbox⟩ := hheld
    obtain rfl := Option.some_inj.1 (hcipher.symm.trans hbox.cipher)
    have hcount : row.chunkCount = Chunks.count CHUNK_BYTES box.length := by
      rw [Job.chunkCount, hcipher]
      rfl
    have hbounds : ¬((Shelf.cipherOf sha256 box).count < 1 ∨ 350 < (Shelf.cipherOf sha256 box).count ∨
        (Shelf.cipherOf sha256 box).bytes < 24 ∨ 22000000 < (Shelf.cipherOf sha256 box).bytes) := by
      have hlong := hbox.long
      have hshort := hbox.short
      simp only [Shelf.cipherOf, CHUNK_BYTES, JOB_BYTES] at hshort ⊢
      omega
    dsimp only
    rw [if_neg hbounds]
    split_ifs with hlength hcorrupt
    · refine ⟨fun _ hp => absurd hp List.not_mem_nil, fun a ha _ => ?_,
        fun row' chunks' hphase => ?_, fun _ hphase => (by cases hphase)⟩
      · rw [List.mem_singleton.1 ha]
        exact ⟨k, box, hbox⟩
      · cases hphase
        rw [hcount]
        exact hlength
    · -- all chunks are read, and are those of the box
      have hall : chunks.length = Chunks.count CHUNK_BYTES box.length :=
        le_antisymm (hcount ▸ hbox.length_le) (not_lt.1 hlength)
      have hflatten : chunks.flatten = box := by
        rw [hbox.read, hall]
        exact Chunks.flatten_slices (by decide) box
      rw [hflatten] at hcorrupt
      rcases hcorrupt with hlength' | hdigest
      · exact absurd rfl hlength'
      · exact absurd rfl hdigest
    · exact ok_done _

theorem ok_afterWrites {pending : List WriteBack} {rest : ReadRest}
    (hcurrent : ∀ p ∈ pending, p.Current w)
    (hheld : ∀ row, rest = .hydrate row → row.cipher.isSome = true → Held sha256 w.storage row []) :
    JobRead.Ok sha256 w ⟨call, now, afterWrites sha256 call pending rest⟩ := by
  cases pending with
  | nil =>
    cases rest with
    | answer answer => exact ok_done answer
    | hydrate row => exact ok_hydration (hheld row rfl)
  | cons p pending =>
    refine ⟨hcurrent, fun a ha hsome => ?_, fun _ _ hphase => (by cases hphase),
      fun _ hphase => (by cases hphase)⟩
    cases rest with
    | answer answer => cases ha
    | hydrate row =>
      obtain rfl := List.mem_singleton.1 ha
      exact hheld row rfl hsome

/-- Only `getPublic` and `due` show a row in full, whatever the configurations. -/
theorem rest_hydrate {records : List Snapshot} {configurations : Option ℤ} {row : Job}
    (h : call.rest now records configurations = .hydrate row) :
    call.rest now records none = .hydrate row := by
  cases call with
  | maintain connected => cases h
  | list room => exact h
  | listActive room => exact h
  | getPublic room id metadataOnly => exact h
  | due room recipientKeyId excluded => exact h

theorem ok_allRead {records : List Snapshot} {configurations : Option ℤ}
    (hcurrent : ∀ p ∈ records.flatMap (call.writes now), p.Current w)
    (hheld : ∀ row, call.rest now records none = .hydrate row → row.cipher.isSome = true →
      Held sha256 w.storage row []) :
    JobRead.Ok sha256 w ⟨call, now, allRead sha256 call now records configurations⟩ :=
  ok_afterWrites hcurrent fun row hrest hsome => hheld row (rest_hydrate hrest) hsome

end Phases

end GrantTap
