import GrantTapRelay.TaskDispatch.Backends

/-!
# What the Worker store keeps at one key

A `Shelf` is everything that the Worker store keeps under a room and an id: the row, and every chunk
with this room and id in its key, whether the row knows of it or not. An operation does to each
shelf one of five things (`Shelf.Move`), and to the shelves of other rooms nothing, or the last two
of them.

* `shelf_writeTaskJob`: a write changes one shelf.
* `shelf_rows`, `shelf_maintain`: what a pass over the rows does to each shelf.
* `shelf_call`: **the moves of a call**.
-/

namespace GrantTap

open Js

/-- The row at a key, and the chunks by their indexes. -/
structure Shelf where
  row : Option Job
  chunks : ℕ → Option Str

namespace Shelf

/-- `deleteCiphertext` -/
def clear (row : Job) (chunks : ℕ → Option Str) : ℕ → Option Str :=
  match row.cipher with
  | none => chunks
  | some cipher => fun i => if i < cipher.count then none else chunks i

/-- A row as it is stored, without its box. -/
def stored (row : Job) (cipher : Option Cipher) : Job :=
  { row with envelope := row.envelope.without [lit "box"], cipher := cipher }

/-- The cipher of a box. -/
def cipherOf (sha256 : Str → Str) (box : Str) : Cipher where
  count := (box.length + CHUNK_BYTES - 1) / CHUNK_BYTES
  digest := sha256 box
  bytes := box.length

/-- `writeTaskJob` -/
def write (sha256 : Str → Str) (shelf : Shelf) (input : Job) : Shelf :=
  if retainsTaskPayload input = false then ⟨some (stored input none), clear input shelf.chunks⟩
  else
    match input.cipher, (input.envelope.get (lit "box")).str? with
    | none, some box =>
      ⟨some (stored input (some (cipherOf sha256 box))), fun i =>
        if i < (cipherOf sha256 box).count then some (WorkerTasks.boxChunk box i)
        else shelf.chunks i⟩
    | _, _ => ⟨some (stored input input.cipher), shelf.chunks⟩

/-- The row is written back when it expired. -/
def age (sha256 : Str → Str) (now : ℤ) (shelf : Shelf) : Shelf :=
  match shelf.row with
  | some row => if expires row now then shelf.write sha256 (expireJob row now) else shelf
  | none => shelf

/-- A row that `maintain` deletes. -/
def Outdated (now : ℤ) (row : Job) : Prop :=
  (expireJob row now).state ≠ .accepted ∧
    max (expireJob row now).expiresAt (expireJob row now).updatedAt + 7 * 86400000 < now

instance (now : ℤ) (row : Job) : Decidable (Outdated now row) := inferInstanceAs (Decidable (_ ∧ _))

/-- What `maintain` leaves of a shelf. -/
def maintain (sha256 : Str → Str) (now : ℤ) (shelf : Shelf) : Shelf :=
  match shelf.row with
  | some row =>
    if Outdated now row then ⟨none, clear (expireJob row now) shelf.chunks⟩
    else shelf.age sha256 now
  | none => shelf

/-- What an operation may do to a shelf, other than to create its row. -/
inductive Move (sha256 : Str → Str) (now : ℤ) (shelf : Shelf) : Shelf → Prop
  | keep : Move sha256 now shelf shelf
  | age : Move sha256 now shelf (shelf.age sha256 now)
  | drop (row : Job) (hrow : shelf.row = some row) (hold : Outdated now row) :
    Move sha256 now shelf ⟨none, clear (expireJob row now) shelf.chunks⟩
  | store (row row' : Job) (action : TaskAction) (body : Value) (proofHash : Str)
      (result : JobResult) (hrow : shelf.row = some row)
      (hresult : transitionJob row action body now proofHash = .ok result)
      (hrow' : result.row = some row') : Move sha256 now shelf (shelf.write sha256 row')

theorem move_maintain (sha256 : Str → Str) (now : ℤ) (shelf : Shelf) :
    Move sha256 now shelf (shelf.maintain sha256 now) := by
  unfold maintain
  split
  · rename_i row hrow
    split_ifs with hold
    · exact .drop row hrow hold
    · exact .age
  · exact .keep

end Shelf

namespace WorkerTasks

variable {sha256 : Str → Str} {s t : WorkerTasks} {room id : Str} {now : ℤ} {k : RoomKey}

def shelf (s : WorkerTasks) (k : RoomKey) : Shelf where
  row := s.jobs.get? k
  chunks i := s.boxes.get? (k.1, k.2, i)

@[simp] theorem shelf_row (s : WorkerTasks) (k : RoomKey) : (s.shelf k).row = s.jobs.get? k := rfl

@[simp] theorem shelf_chunks (s : WorkerTasks) (k : RoomKey) (i : ℕ) :
    (s.shelf k).chunks i = s.boxes.get? (k.1, k.2, i) := rfl

theorem shelf_eq {shelf : Shelf} (hrow : s.jobs.get? k = shelf.row)
    (hchunks : ∀ i, s.boxes.get? (k.1, k.2, i) = shelf.chunks i) : s.shelf k = shelf := by
  cases shelf
  simp only [shelf, Shelf.mk.injEq]
  exact ⟨hrow, funext hchunks⟩

/-! ## Writing -/

/-- Deleting the chunks of a row clears its shelf. -/
theorem get?_deleteCiphertext (boxes : Table (Str × Str × ℕ) Str) {row : Job} (hid : row.id = k.2)
    (hroom : row.room = some k.1) (i : ℕ) :
    (deleteCiphertext boxes row).get? (k.1, k.2, i) =
      Shelf.clear row (fun i => boxes.get? (k.1, k.2, i)) i := by
  have hkey (j : ℕ) : boxKey row j = (k.1, k.2, j) := boxKey_of_named hid hroom j
  unfold Shelf.clear
  cases hcipher : row.cipher with
  | none => rw [deleteCiphertext, hcipher]
  | some cipher =>
    dsimp only
    split_ifs with hi
    · rw [← hkey]
      exact get?_deleteCiphertext_of_lt boxes hcipher hi
    · have hfold (l : List ℕ) (hl : i ∉ l) (t : Table (Str × Str × ℕ) Str) :
          (l.foldl (fun t i => t.erase (boxKey row i)) t).get? (k.1, k.2, i) =
            t.get? (k.1, k.2, i) := by
        induction l generalizing t with
        | nil => rfl
        | cons j l ih =>
          simp only [List.mem_cons, not_or] at hl
          rw [List.foldl_cons, ih hl.2, Table.get?_erase, hkey, if_neg]
          simpa using hl.1
      rw [deleteCiphertext, hcipher]
      exact hfold _ (by simpa using hi) boxes

/-- Writing the chunks of a box. -/
theorem get?_putChunks (boxes : Table (Str × Str × ℕ) Str) {row : Job} (hid : row.id = k.2)
    (hroom : row.room = some k.1) (box : Str) (n i : ℕ) :
    ((List.range n).foldl (fun t i => t.put (boxKey row i) (boxChunk box i)) boxes).get?
        (k.1, k.2, i) = if i < n then some (boxChunk box i) else boxes.get? (k.1, k.2, i) := by
  have hkey (j : ℕ) : boxKey row j = (k.1, k.2, j) := boxKey_of_named hid hroom j
  induction n with
  | zero => simp
  | succ n ih =>
    rw [List.range_succ, List.foldl_append, List.foldl_cons, List.foldl_nil, Table.get?_put, hkey]
    by_cases hi : i = n
    · simp [hi]
    · have hlt : i < n + 1 ↔ i < n := by omega
      simp only [ih, hlt, Prod.mk.injEq, true_and, hi, if_false]

/-- **A write changes one shelf.** -/
theorem shelf_writeTaskJob {key : RoomKey} {input : Job} (hid : input.id = key.2)
    (hroom : input.room = some key.1) (k : RoomKey) :
    (s.writeTaskJob sha256 key input).shelf k =
      if k = key then (s.shelf key).write sha256 input else s.shelf k := by
  split_ifs with hk
  · subst hk
    unfold writeTaskJob Shelf.write
    cases hretains : retainsTaskPayload input with
    | false =>
      refine shelf_eq (by simp [Shelf.stored]) fun i => ?_
      exact get?_deleteCiphertext s.boxes hid hroom i
    | true =>
      simp only [Bool.not_true, Bool.false_eq_true, if_false, Bool.true_eq_false]
      cases hcipher : input.cipher with
      | some cipher => exact shelf_eq (by simp [Shelf.stored]) fun i => rfl
      | none =>
        cases hbox : (input.envelope.get (lit "box")).str? with
        | none => exact shelf_eq (by simp [Shelf.stored]) fun i => rfl
        | some box =>
          refine shelf_eq (by simp [Shelf.stored, Shelf.cipherOf]) fun i => ?_
          exact get?_putChunks s.boxes hid hroom box _ i
  · obtain ⟨cipher, hjobs⟩ := writeTaskJob_jobs sha256 s key input
    refine shelf_eq ?_ fun i => boxes_writeTaskJob key fun j e => hk ?_
    · rw [hjobs, Table.get?_put, if_neg hk]
      rfl
    · rw [boxKey_of_named hid hroom, Prod.mk.injEq, Prod.mk.injEq] at e
      exact Prod.ext e.1 e.2.1

/-! ## Passes over the rows -/

theorem shelf_expireSaved (hs : s.Named) {r : RoomKey × Job} (hr : s.jobs.get? r.1 = some r.2)
    (t : WorkerTasks) (ht : t.shelf r.1 = s.shelf r.1) (k : RoomKey) :
    (t.expireSaved sha256 now r).shelf k =
      if k = r.1 then (s.shelf r.1).age sha256 now else t.shelf k := by
  obtain ⟨hid, hroom⟩ := hs _ _ hr
  unfold expireSaved Shelf.age
  rw [shelf_row, hr]
  dsimp only
  split_ifs with hexpires hk hk
  · rw [hid, shelf_writeTaskJob ((expireJob_id r.2 now).1.trans hid)
      ((expireJob_id r.2 now).2.trans hroom), if_pos hk, ht]
  · rw [hid, shelf_writeTaskJob ((expireJob_id r.2 now).1.trans hid)
      ((expireJob_id r.2 now).2.trans hroom), if_neg hk]
  · rw [hk, ht]
  · rfl

/-- **Reading the rows of a room** ages its shelves. -/
theorem shelf_rows (hs : s.Named) {jobs : List Job} (h : s.rows sha256 room now = .ok (jobs, t))
    (k : RoomKey) :
    t.shelf k = if k.1 = room then (s.shelf k).age sha256 now else s.shelf k := by
  obtain ⟨records, hrecords, h⟩ := except_bind_ok.1 h
  unfold boundedRecords at hrecords
  split_ifs at hrecords
  cases hrecords
  cases h
  have hl : ∀ r ∈ roomRows s.jobs room, s.jobs.get? r.1 = some r.2 :=
    fun r hr => (mem_roomRows.1 hr).1
  have hstep : ∀ t : WorkerTasks, ∀ r ∈ roomRows s.jobs room, ∀ k, k ≠ r.1 →
      (t.expireSaved sha256 now r).shelf k = t.shelf k := by
    intro t r hr k hk
    obtain ⟨hid, hroom⟩ := hs _ _ (hl r hr)
    have hown : (expireJob r.2 now).id = ((r.1.1, r.2.id) : RoomKey).2 := (expireJob_id r.2 now).1
    unfold expireSaved
    split_ifs
    · rw [shelf_writeTaskJob hown ((expireJob_id r.2 now).2.trans hroom), hid, if_neg hk]
    · rfl
  by_cases hk : k ∈ (roomRows s.jobs room).map Prod.fst
  · obtain ⟨r, hr, rfl⟩ := List.mem_map.1 hk
    obtain ⟨s', hs', hfold⟩ := Table.foldl_of_mem shelf (nodup_roomRows s.jobs room) hstep s hr
    rw [hfold, shelf_expireSaved hs (hl r hr) s' hs', if_pos rfl,
      if_pos (mem_roomRows.1 hr).2]
  · rw [Table.foldl_of_notMem shelf hstep s hk]
    split_ifs with hroom
    · -- a key of the room that was not visited has no row
      have hnone : s.jobs.get? k = none := by
        cases hrow : s.jobs.get? k with
        | none => rfl
        | some row =>
          exact absurd (List.mem_map.2 ⟨(k, row), mem_roomRows.2 ⟨hrow, hroom⟩, rfl⟩) hk
      simp [Shelf.age, hnone]
    · rfl

/-- `maintain` visits a row. -/
theorem shelf_maintainRow_self (connected : Option (List (Option Str)))
    (acc : Option ℤ × WorkerTasks) {r : RoomKey × Job} (hr : acc.2.jobs.get? r.1 = some r.2)
    (hid : r.2.id = r.1.2) (hroom : r.2.room = some r.1.1) :
    (maintainRow sha256 connected now acc r).2.shelf r.1 =
      (acc.2.shelf r.1).maintain sha256 now := by
  have hid' : (expireJob r.2 now).id = r.1.2 := (expireJob_id r.2 now).1.trans hid
  have hroom' : (expireJob r.2 now).room = some r.1.1 := (expireJob_id r.2 now).2.trans hroom
  unfold maintainRow Shelf.maintain
  rw [shelf_row, hr]
  dsimp only
  by_cases hold : Shelf.Outdated now r.2
  · rw [if_pos hold]
    refine (congrArg (fun acc : Option ℤ × WorkerTasks => acc.2.shelf r.1) (if_pos hold)).trans ?_
    exact shelf_eq (by simp) fun i => get?_deleteCiphertext acc.2.boxes hid' hroom' i
  · rw [if_neg hold]
    refine (congrArg (fun acc : Option ℤ × WorkerTasks => acc.2.shelf r.1) (if_neg hold)).trans ?_
    unfold Shelf.age
    rw [shelf_row, hr]
    dsimp only
    split_ifs
    · rw [shelf_writeTaskJob hid' hroom', if_pos rfl]
    · rfl

theorem shelf_maintainRow (connected : Option (List (Option Str))) (acc : Option ℤ × WorkerTasks)
    {r : RoomKey × Job} (hid : r.2.id = r.1.2) (hroom : r.2.room = some r.1.1) (hk : k ≠ r.1) :
    (maintainRow sha256 connected now acc r).2.shelf k = acc.2.shelf k := by
  have hid' : (expireJob r.2 now).id = r.1.2 := (expireJob_id r.2 now).1.trans hid
  have hroom' : (expireJob r.2 now).room = some r.1.1 := (expireJob_id r.2 now).2.trans hroom
  unfold maintainRow
  dsimp only
  split_ifs
  · refine shelf_eq (by simp [hk]) fun i => get?_deleteCiphertext_of_ne acc.2.boxes fun j e => hk ?_
    rw [boxKey_of_named hid' hroom', Prod.mk.injEq, Prod.mk.injEq] at e
    exact Prod.ext e.1 e.2.1
  · rw [shelf_writeTaskJob hid' hroom', if_neg hk]
  · rfl

/-- **Maintenance** clears each outdated shelf, and ages the others. -/
theorem shelf_maintain (hs : s.Named) {connected : Option (List (Option Str))} {next : Option ℤ}
    (h : s.maintain sha256 connected now = .ok (next, t)) (k : RoomKey) :
    t.shelf k = (s.shelf k).maintain sha256 now := by
  obtain ⟨records, hrecords, h⟩ := except_bind_ok.1 h
  unfold boundedRecords at hrecords
  split_ifs at hrecords
  cases hrecords
  have ht : t = (s.jobs.rows.foldl (maintainRow sha256 connected now)
      ((s.registry.maintainWorker now).1,
        { s with registry := (s.registry.maintainWorker now).2 })).2 :=
    congrArg Prod.snd (Except.ok.inj h).symm
  rw [ht]
  generalize hacc : ((s.registry.maintainWorker now).1,
    { s with registry := (s.registry.maintainWorker now).2 }) = acc
  have hshelf : acc.2.shelf = s.shelf := by
    rw [← hacc]
    rfl
  have hmem : ∀ r ∈ s.jobs.rows, s.jobs.get? r.1 = some r.2 := fun r hr => Table.mem_rows.1 hr
  have hstep : ∀ acc : Option ℤ × WorkerTasks, ∀ r ∈ s.jobs.rows, ∀ k, k ≠ r.1 →
      (maintainRow sha256 connected now acc r).2.shelf k = acc.2.shelf k := by
    intro acc r hr k hk
    obtain ⟨hid, hroom⟩ := hs _ _ (hmem r hr)
    exact shelf_maintainRow connected acc hid hroom hk
  by_cases hk : k ∈ s.jobs.rows.map Prod.fst
  · obtain ⟨r, hr, rfl⟩ := List.mem_map.1 hk
    obtain ⟨hid, hroom⟩ := hs _ _ (hmem r hr)
    obtain ⟨acc', hacc', hfold⟩ := Table.foldl_of_mem
      (fun acc : Option ℤ × WorkerTasks => acc.2.shelf) s.jobs.nodup hstep acc hr
    have hsame : acc'.2.shelf r.1 = s.shelf r.1 := by rw [hacc', hshelf]
    rw [hfold, ← hsame]
    refine shelf_maintainRow_self connected acc' ?_ hid hroom
    rw [← shelf_row, hsame, shelf_row, hmem r hr]
  · have hnone : s.jobs.get? k = none := Table.get?_eq_none.2 hk
    rw [Table.foldl_of_notMem (fun acc : Option ℤ × WorkerTasks => acc.2.shelf) hstep acc hk, hshelf,
      Shelf.maintain, shelf_row, hnone]

/-! ## Calls -/

/-- The rows of a room leave no place for a job of so many bytes. -/
def Full (rows : List Job) (bytes : ℕ) : Prop :=
  ROOM_RECEIPT_LIMIT ≤ rows.length ∨ ROOM_JOB_LIMIT ≤ (rows.filter retainsTaskPayload).length ∨
    ROOM_JOB_BYTES < ((rows.filter retainsTaskPayload).map (·.bytes)).sum + bytes

/-- What a call does to the shelves: it moves each of them, or it creates a row in a room that has
place for it. -/
inductive ShelfEffect (sha256 : Str → Str) (now : ℤ) (s : WorkerTasks) :
    TaskCall → Except Throw TaskAnswer → WorkerTasks → Prop
  | moved (c : TaskCall) (a : Except Throw TaskAnswer) (t : WorkerTasks)
      (hmove : ∀ k, Shelf.Move sha256 now (s.shelf k) (t.shelf k)) (hnone : c.created now a = none) :
    ShelfEffect sha256 now s c a t
  | created (room id : Str) (body : Value) (job : NormalizedJob) (rows : List Job) (s' : WorkerTasks)
      (reply : Reply) (hstatus : reply.status = 201) (hnone : s.jobs.get? (room, id) = none)
      (hjob : normalizeJob room id body now = .ok (some job))
      (hrows : s.rows sha256 room now = .ok (rows, s')) (hplace : ¬Full rows job.bytes) :
    ShelfEffect sha256 now s (.put room id body) (.ok (.reply reply))
      (s'.writeTaskJob sha256 (room, id)
        (queuedJob job (sha256 job.canonical) id (some room) now))

theorem move_rows (hs : s.Named) {jobs : List Job} (h : s.rows sha256 room now = .ok (jobs, t))
    (k : RoomKey) : Shelf.Move sha256 now (s.shelf k) (t.shelf k) := by
  rw [shelf_rows hs h]
  split_ifs
  · exact .age
  · exact .keep

theorem shelf_put (hs : s.Named) {body : Value} {reply : Reply}
    (h : s.put sha256 room id body now = .ok (reply, t)) :
    ShelfEffect sha256 now s (.put room id body) (.ok (.reply reply)) t := by
  have refused {status : ℕ} {body' : ReplyBody} (h : status ≠ 201) :
      TaskCall.created (.put room id body) now (.ok (.reply ⟨status, body'⟩)) = none := if_neg h
  unfold put at h
  obtain ⟨parsed, hparsed, h⟩ := except_bind_ok.1 h
  cases parsed with
  | none =>
    cases h
    exact .moved _ _ _ (fun _ => .keep) (refused (by decide))
  | some job =>
    cases hexisting : s.jobs.get? (room, id) with
    | some existing =>
      rw [hexisting] at h
      dsimp only at h
      split_ifs at h <;> cases h
      · exact .moved _ _ _ (fun _ => .keep) (refused (by decide))
      · exact .moved _ _ _ (fun _ => .keep) (refused (by decide))
    | none =>
      rw [hexisting] at h hparsed
      dsimp only at h
      obtain ⟨⟨rows, s'⟩, hrows, h⟩ := except_bind_ok.1 h
      dsimp only at h
      split_ifs at h with hfull <;> cases h
      · exact .moved _ _ _ (move_rows hs hrows) (refused (by decide))
      · exact .created room id body job rows s' _ rfl hexisting hparsed hrows hfull

theorem move_transition (hs : s.Named) {action : TaskAction} {body : Value} {reply : Reply}
    (h : s.transition sha256 room id action body now = .ok (reply, t)) (k : RoomKey) :
    Shelf.Move sha256 now (s.shelf k) (t.shelf k) := by
  obtain ⟨proofHash, -, h⟩ := except_bind_ok.1 h
  cases hrow : s.jobs.get? (room, id) with
  | none =>
    rw [hrow] at h
    cases h
    exact .keep
  | some row =>
    rw [hrow] at h
    obtain ⟨result, hresult, h⟩ := except_bind_ok.1 h
    cases hrow' : result.row with
    | none =>
      rw [hrow'] at h
      cases h
      exact .keep
    | some row' =>
      rw [hrow'] at h
      cases h
      obtain ⟨hid, hroom⟩ := transitionJob_id hresult hrow'
      obtain ⟨hid₀, hroom₀⟩ := hs _ _ hrow
      rw [shelf_writeTaskJob (hid.trans hid₀) (hroom.trans hroom₀)]
      split_ifs with hk
      · rw [hk]
        exact .store row row' action body proofHash result hrow hresult hrow'
      · exact .keep

/-- Reading a job ages its shelf. -/
theorem shelf_getPublic (hs : s.Named) (sha256 : Str → Str) (room id : Str) (now : ℤ)
    (metadataOnly : Bool) (k : RoomKey) :
    (s.getPublic sha256 room id now metadataOnly).2.shelf k =
      if k = (room, id) then (s.shelf k).age sha256 now else s.shelf k := by
  cases hrow : s.jobs.get? (room, id) with
  | none =>
    have hkeep : (s.getPublic sha256 room id now metadataOnly).2 = s := by
      rw [getPublic, hrow]
    rw [hkeep]
    split_ifs with hk
    · rw [hk, Shelf.age, shelf_row, hrow]
    · rfl
  | some row =>
    have hr : s.jobs.get? ((room, id), row).1 = some ((room, id), row).2 := hrow
    rw [getPublic_snd hs hrow, shelf_expireSaved hs hr s rfl]
    split_ifs with hk
    · rw [hk]
    · rfl

/-- An operation that changes nothing when it throws. -/
theorem move_whole {α : Type} {f : α → TaskAnswer} {r : Except Throw (α × WorkerTasks)}
    (h : ∀ a t, r = .ok (a, t) → Shelf.Move sha256 now (s.shelf k) (t.shelf k)) :
    Shelf.Move sha256 now (s.shelf k) ((s.whole f r).2.shelf k) := by
  cases r with
  | error e => exact .keep
  | ok p => exact h p.1 p.2 rfl

/-- **What a call does to the shelves.** -/
theorem shelf_call (hs : s.Named) (sha256 : Str → Str) (now : ℤ) (c : TaskCall) :
    ShelfEffect sha256 now s c (s.call sha256 now c).1 (s.call sha256 now c).2 := by
  cases c with
  | put room id body =>
    unfold call whole
    dsimp only
    cases h : s.put sha256 room id body now with
    | error e => exact .moved _ _ _ (fun _ => .keep) rfl
    | ok r => exact shelf_put hs h
  | transition room id action body =>
    exact .moved _ _ _ (fun k => move_whole fun reply t h => move_transition hs h k) rfl
  | list room =>
    refine .moved _ _ _ (fun k => move_whole fun jobs t h => ?_) rfl
    obtain ⟨⟨rows, t'⟩, hrows, hr⟩ := except_bind_ok.1 h
    cases hr
    exact move_rows hs hrows k
  | listActive room =>
    refine .moved _ _ _ (fun k => move_whole fun jobs t h => ?_) rfl
    obtain ⟨⟨all, t'⟩, hlist, hr⟩ := except_bind_ok.1 h
    obtain ⟨⟨rows, t''⟩, hrows, hr'⟩ := except_bind_ok.1 hlist
    cases hr'
    cases hr
    exact move_rows hs hrows k
  | getPublic room id metadataOnly =>
    refine .moved _ _ _ (fun k => ?_) rfl
    have hshelf := shelf_getPublic hs sha256 room id now metadataOnly k
    change Shelf.Move sha256 now (s.shelf k) ((s.getPublic sha256 room id now metadataOnly).2.shelf k)
    rw [hshelf]
    split_ifs
    · exact .age
    · exact .keep
  | due room recipientKeyId excluded =>
    refine .moved _ _ _ (fun k => ?_) rfl
    unfold call due
    dsimp only
    cases h : s.rows sha256 room now with
    | error e => exact .keep
    | ok r =>
      dsimp only
      split <;> exact move_rows hs h k
  | clean connected =>
    refine .moved _ _ _ (fun k => move_whole fun next t h => ?_) rfl
    rw [shelf_maintain hs h]
    exact Shelf.move_maintain sha256 now (s.shelf k)

end WorkerTasks

end GrantTap
