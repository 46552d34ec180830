import GrantTapRelay.TaskDispatch.Confinement
import GrantTapRelay.TaskDispatch.OneReceiver

/-!
# The router over the two runtimes

`nodeBackend` and `workerBackend` are the stores of the two runtimes under the task dispatch router,
each confined: a call touches and reads its own row. `writer_confined` is what this means for a
scoped writer on either runtime.
-/

namespace GrantTap

open Js

/-! ## Expiry -/

theorem expireJob_writerId (row : Job) (now : ℤ) : (expireJob row now).writerId = row.writerId := by
  unfold expireJob retireJob
  split_ifs <;> rfl

/-- A job that time has expired stays as it is. -/
theorem expireJob_expireJob (row : Job) (t t' : ℤ) :
    expireJob (expireJob row t') t = expireJob row t' ∨
      expireJob (expireJob row t') t = expireJob row t := by
  by_cases h : expires row t' = true
  · have hexpired : (expireJob row t').state = .expired := by
      rw [expireJob, if_pos h]
      rfl
    left
    rw [expireJob, if_neg]
    simp [expires, hexpired]
  · right
    rw [expireJob.eq_1 row t', if_neg h]

/-! ## Node -/

namespace NodeTasks

variable {sha256 : Str → Str} {s t : NodeTasks} {room id : Str} {now : ℤ}

/-- The job of a row. -/
def contentJob : Option TaskRow → Option Job
  | some (.saved row) => some row.job
  | _ => none

theorem job_eq_contentJob (s : NodeTasks) (k : RoomKey) : s.job k = contentJob (s.jobs.get? k) := rfl

theorem get?_expireQueued (s : NodeTasks) (room : Str) (now : ℤ) (k : RoomKey) :
    (s.expireQueued room now).jobs.get? k = s.jobs.get? k ∨
      (s.expireQueued room now).jobs.get? k = (s.jobs.get? k).map (TaskRow.expire now) := by
  unfold expireQueued
  rw [Table.get?_map]
  by_cases h : k.1 = room
  · right
    simp [h]
  · left
    simp [h]

theorem get?_expireQueued_self (s : NodeTasks) (room id : Str) (now : ℤ) :
    (s.expireQueued room now).jobs.get? (room, id) =
      (s.jobs.get? (room, id)).map (TaskRow.expire now) := by
  unfold expireQueued
  rw [Table.get?_map]
  simp

/-- A call leaves the registry to the clean-up. -/
theorem work_registry {c : TaskCall} {a : TaskAnswer} (hc : ∀ connected, c ≠ .clean connected)
    (h : s.work sha256 now c = .ok (a, t)) : t.registry = s.registry := by
  cases c with
  | put room id body =>
    obtain ⟨reply, hr, -⟩ := answer_ok h
    rcases putInTransaction_ok hr with ⟨rfl | rfl, -⟩ | ⟨job, -, -, -, hsave⟩
    · rfl
    · rfl
    · exact (save_ok hsave).2.2
  | transition room id action body =>
    obtain ⟨reply, hr, -⟩ := answer_ok h
    rcases transitionInTransaction_ok hr with ⟨rfl, -⟩ | ⟨_, _, _, _, -, -, -, -, hsave, -⟩
    · rfl
    · exact (save_ok hsave).2.2
  | list room =>
    obtain ⟨jobs, hr, -⟩ := answer_ok h
    obtain ⟨rows, -, hr⟩ := except_bind_ok.1 hr
    cases hr
    rfl
  | listActive room =>
    obtain ⟨jobs, hr, -⟩ := answer_ok h
    obtain ⟨rows, -, hr⟩ := except_bind_ok.1 hr
    cases hr
    rfl
  | getPublic room id metadataOnly =>
    obtain ⟨found, hr, -⟩ := answer_ok h
    obtain ⟨saved, -, hr⟩ := except_bind_ok.1 hr
    cases hr
    rfl
  | due room recipientKeyId excluded =>
    cases h
    rfl
  | clean connected => exact absurd rfl (hc connected)

/-- A property of a call holds when it holds where the work throws, and where it succeeds. -/
theorem call_cases {c : TaskCall} {P : Except Throw TaskAnswer × NodeTasks → Prop}
    (herror : ∀ e, s.work sha256 now c = .error e → P (.error e, s))
    (hok : ∀ a t, s.work sha256 now c = .ok (a, t) → P (.ok a, t)) :
    P (s.call sha256 now c) := by
  unfold call
  cases h : s.work sha256 now c with
  | error e => exact herror e h
  | ok p => exact hok p.1 p.2 h

/-- What `getPublic` shows of a row. -/
def shown (now : ℤ) (metadataOnly : Bool) : Option TaskRow → Except Throw (Option PublicJob)
  | none => .ok none
  | some (.saved row) =>
    let current := expireJob row.job now
    .ok (some (publicJob (if metadataOnly then withoutCiphertext current else current)))
  | some (.corrupt _) => .error .syntaxError

theorem work_getPublic (s : NodeTasks) (room id : Str) (now : ℤ) (metadataOnly : Bool) :
    s.work sha256 now (.getPublic room id metadataOnly) =
      (shown now metadataOnly (s.jobs.get? (room, id))).map fun p =>
        (.found p, s.expireQueued room now) := by
  unfold work getPublic get
  dsimp only
  rw [get?_expireQueued_self]
  rcases s.jobs.get? (room, id) with _ | ⟨row⟩ | ⟨record⟩ <;> rfl

theorem shown_writerId {metadataOnly : Bool} {row : Option TaskRow} {p : Option PublicJob}
    (h : shown now metadataOnly row = .ok p) :
    p.map PublicJob.writerId = (contentJob row).map Job.writerId := by
  rcases row with _ | ⟨row⟩ | ⟨record⟩
  · cases h
    rfl
  · cases h
    cases metadataOnly <;> exact congrArg some (expireJob_writerId row.job now)
  · cases h

/-- The reply of a transition, from the row at its key. -/
theorem transitionInTransaction_congr (h : s.jobs.get? (room, id) = t.jobs.get? (room, id))
    (action : TaskAction) (body : Value) :
    (s.transitionInTransaction sha256 room id action body now).map Prod.fst =
      (t.transitionInTransaction sha256 room id action body now).map Prod.fst := by
  have hget : s.get room id = t.get room id := by rw [get, get, h]
  unfold transitionInTransaction
  rw [hget]
  rcases t.get room id with e | _ | row
  · rfl
  · rfl
  · dsimp only [bind, Except.bind]
    cases actionHash sha256 action body with
    | error e => rfl
    | ok proofHash =>
      dsimp only
      cases transitionJob row action body now proofHash with
      | error e => rfl
      | ok result =>
        dsimp only
        cases result.row with
        | none => rfl
        | some row' =>
          dsimp only [save]
          by_cases hb : bindable (row'.envelope.get (lit "recipientKeyId")) = true
          · simp only [dif_pos hb]
            rfl
          · simp only [dif_neg hb]

theorem call_getPublic (sha256 : Str → Str) (s : NodeTasks) (room id : Str) (now : ℤ)
    (metadataOnly : Bool) :
    (s.call sha256 now (.getPublic room id metadataOnly)).1 =
        (shown now metadataOnly (s.jobs.get? (room, id))).map .found ∧
      ((s.call sha256 now (.getPublic room id metadataOnly)).2 = s ∧
          (s.jobs.get? (room, id)).any TaskRow.isCorrupt = true ∨
        (s.call sha256 now (.getPublic room id metadataOnly)).2 = s.expireQueued room now ∧
          (s.jobs.get? (room, id)).any TaskRow.isCorrupt = false) := by
  unfold call
  rw [work_getPublic]
  rcases s.jobs.get? (room, id) with _ | ⟨row⟩ | ⟨record⟩
  · exact ⟨rfl, .inr ⟨rfl, rfl⟩⟩
  · exact ⟨rfl, .inr ⟨rfl, rfl⟩⟩
  · exact ⟨rfl, .inl ⟨rfl, rfl⟩⟩

theorem call_transition (sha256 : Str → Str) (s : NodeTasks) (room id : Str) (now : ℤ)
    (action : TaskAction) (body : Value) :
    (s.call sha256 now (.transition room id action body)).1 =
      ((s.transitionInTransaction sha256 room id action body now).map Prod.fst).map .reply := by
  unfold call work
  dsimp only
  rcases s.transitionInTransaction sha256 room id action body now with e | ⟨reply, t⟩ <;> rfl

theorem contentJob_expire (now : ℤ) (row : Option TaskRow) :
    (contentJob (row.map (TaskRow.expire now))).map Job.writerId =
      (contentJob row).map Job.writerId := by
  rcases row with _ | ⟨row⟩ | ⟨record⟩
  · rfl
  · exact congrArg some (expireJob_writerId row.job now)
  · rfl

theorem expire_expire (t t' : ℤ) (row : TaskRow) :
    (row.expire t').expire t = row.expire t' ∨ (row.expire t').expire t = row.expire t := by
  cases row with
  | saved row =>
    rcases expireJob_expireJob row.job t t' with h | h
    · left
      simp only [TaskRow.expire, h]
    · right
      simp only [TaskRow.expire, h]
  | corrupt record => exact .inl rfl

theorem get?_cancel (k : RoomKey) (hk : k ≠ (room, id)) {action : TaskAction} {body : Value} :
    (s.call sha256 now (.transition room id action body)).2.jobs.get? k = s.jobs.get? k := by
  refine call_cases (P := fun r => r.2.jobs.get? k = s.jobs.get? k) (fun _ _ => rfl) fun a t h => ?_
  obtain ⟨reply, hr, -⟩ := answer_ok h
  rcases transitionInTransaction_ok hr with ⟨rfl, -⟩ |
    ⟨row, result, row', proofHash, hf, -, hresult, hrow', hsave, -⟩
  · rfl
  · have hid : row'.id = id := (transitionJob_id hresult hrow').1.trans (job_id hf)
    exact (save_ok hsave).2.1 k (by rwa [hid])

theorem puts (body : Value) (k : RoomKey) :
    Puts contentJob (Option.map (TaskRow.expire now)) room id body now k (s.jobs.get? k)
      ((s.call sha256 now (.put room id body)).2.jobs.get? k) := by
  have haged := get?_expireQueued s room now k
  refine call_cases (P := fun r => Puts contentJob (Option.map (TaskRow.expire now)) room id body now
    k (s.jobs.get? k) (r.2.jobs.get? k)) (fun _ _ => .inl rfl) fun a t h => ?_
  obtain ⟨reply, hr, -⟩ := answer_ok h
  rcases putInTransaction_ok hr with ⟨rfl | rfl, -⟩ | ⟨job, -, hget, hnormalized, hsave⟩
  · exact .inl rfl
  · exact haged.imp_right .inl
  · obtain ⟨hrow, hother, -⟩ := save_ok hsave
    by_cases hk : k = (room, id)
    · subst hk
      exact .inr (.inr ⟨rfl, get_eq_ok hget, job, _, hnormalized, hrow, rfl, rfl, rfl⟩)
    · dsimp only
      rw [hother k hk]
      exact haged.imp_right .inl

end NodeTasks

/-- The Node store under the router. -/
def nodeBackend (sha256 : Str → Str) (toNumber : Str → Option Number) : ConfinedBackend where
  State := NodeTasks
  registry := NodeTasks.registry
  withRegistry := fun s registry => { s with registry := registry }
  call := NodeTasks.call sha256
  commitWriter := Registry.commitWriterNode
  sha256 := sha256
  toNumber := toNumber
  Content := Option TaskRow
  content := fun s k => s.jobs.get? k
  job := NodeTasks.contentJob
  corrupt := fun row => row.any TaskRow.isCorrupt
  age := fun now row => row.map (TaskRow.expire now)
  registry_withRegistry := fun _ _ => rfl
  content_withRegistry := fun _ _ _ => rfl
  registry_call := fun s now c hc =>
    NodeTasks.call_cases (P := fun r => r.2.registry = s.registry) (fun _ _ => rfl)
      fun _ _ h => NodeTasks.work_registry hc h
  age_job := NodeTasks.contentJob_expire
  age_age := fun t t' row => by
    cases row with
    | none => exact .inl rfl
    | some row => exact (NodeTasks.expire_expire t t' row).imp (congrArg some) (congrArg some)
  getPublic_content := fun s now room id metadataOnly k => by
    rcases (NodeTasks.call_getPublic sha256 s room id now metadataOnly).2 with ⟨h, -⟩ | ⟨h, -⟩ <;>
      rw [h]
    · exact .inl rfl
    · exact NodeTasks.get?_expireQueued s room now k
  getPublic_congr := fun s t now room id metadataOnly h => by
    obtain ⟨hs, hs'⟩ := NodeTasks.call_getPublic sha256 s room id now metadataOnly
    obtain ⟨ht, ht'⟩ := NodeTasks.call_getPublic sha256 t room id now metadataOnly
    refine ⟨by rw [hs, ht, h], ?_⟩
    rw [h] at hs'
    rcases hs' with ⟨es, hc⟩ | ⟨es, hc⟩ <;> rcases ht' with ⟨et, hc'⟩ | ⟨et, hc'⟩ <;>
      rw [hc] at hc' <;> try cases hc'
    · rw [es, et, h]
    · rw [es, et, NodeTasks.get?_expireQueued_self, NodeTasks.get?_expireQueued_self, h]
  getPublic_found := fun s now room id metadataOnly answer h => by
    rw [(NodeTasks.call_getPublic sha256 s room id now metadataOnly).1] at h
    obtain ⟨p, hp, rfl⟩ := except_map_ok.1 h
    exact ⟨p, rfl, NodeTasks.shown_writerId hp⟩
  getPublic_corrupt := fun s now room id metadataOnly h => by
    rw [(NodeTasks.call_getPublic sha256 s room id now metadataOnly).1]
    rcases hrow : s.jobs.get? (room, id) with _ | ⟨row⟩ | ⟨record⟩ <;> rw [hrow] at h
    · cases h
    · cases h
    · rfl
  getPublic_total := fun s now room id h => by
    rw [(NodeTasks.call_getPublic sha256 s room id now true).1]
    rcases hrow : s.jobs.get? (room, id) with _ | ⟨row⟩ | ⟨record⟩ <;> rw [hrow] at h
    · exact ⟨_, rfl⟩
    · exact ⟨_, rfl⟩
    · cases h
  cancel_other := fun s now room id k hk => NodeTasks.get?_cancel k hk
  cancel_congr := fun s t now room id h => by
    rw [NodeTasks.call_transition, NodeTasks.call_transition,
      NodeTasks.transitionInTransaction_congr h]
  put_content := fun s now room id body k => NodeTasks.puts body k

/-! ## Worker -/

namespace WorkerTasks

variable {sha256 : Str → Str} {s t : WorkerTasks} {room id : Str} {now : ℤ}

/-- The stored chunks of a row. -/
def chunksAt (boxes : Table (Str × Str × ℕ) Str) (k : RoomKey) (row : Job) : List (Option Str) :=
  (List.range (row.cipher.elim 0 (·.count))).map fun i => boxes.get? (k.1, k.2, i)

/-- A row with its chunks. -/
def contentAt (s : WorkerTasks) (k : RoomKey) : Option (Job × List (Option Str)) :=
  (s.jobs.get? k).map fun row => (row, chunksAt s.boxes k row)

/-- An expired row is stored without a box, a cipher and chunks. -/
def ageContent (now : ℤ) (c : Job × List (Option Str)) : Job × List (Option Str) :=
  if expires c.1 now then
    let row := expireJob c.1 now
    ({ row with envelope := row.envelope.without [lit "box"], cipher := none }, [])
  else c

theorem job_of_contentAt (s : WorkerTasks) (k : RoomKey) :
    (s.contentAt k).map Prod.fst = s.jobs.get? k := by
  unfold contentAt
  cases s.jobs.get? k <;> rfl

/-! ### Writing -/

theorem get?_deleteCiphertext_of_ne (boxes : Table (Str × Str × ℕ) Str) {row : Job}
    {b : Str × Str × ℕ} (hb : ∀ i, b ≠ boxKey row i) :
    (deleteCiphertext boxes row).get? b = boxes.get? b := by
  unfold deleteCiphertext
  cases row.cipher with
  | none => rfl
  | some cipher =>
    refine List.foldlRecOn (motive := fun t : Table (Str × Str × ℕ) Str =>
      t.get? b = boxes.get? b) _ _ rfl fun t ht i _ => ?_
    rw [Table.get?_erase, if_neg (hb i), ht]

theorem get?_deleteCiphertext_of_lt (boxes : Table (Str × Str × ℕ) Str) {row : Job}
    {cipher : Cipher} (hcipher : row.cipher = some cipher) {i : ℕ} (hi : i < cipher.count) :
    (deleteCiphertext boxes row).get? (boxKey row i) = none := by
  have hfold : ∀ (l : List ℕ) (boxes : Table (Str × Str × ℕ) Str),
      i ∈ l ∨ boxes.get? (boxKey row i) = none →
        (l.foldl (fun t i => t.erase (boxKey row i)) boxes).get? (boxKey row i) = none := fun l => by
    induction l with
    | nil => simp
    | cons j l ih =>
      intro boxes h
      refine ih _ ?_
      rw [Table.get?_erase]
      rcases h with h | h
      · rcases List.mem_cons.1 h with rfl | h
        · exact .inr (if_pos rfl)
        · exact .inl h
      · right
        rw [h, ite_self]
  unfold deleteCiphertext
  rw [hcipher]
  exact hfold _ _ (.inl (List.mem_range.2 hi))

/-- A write touches the chunks of its row only. -/
theorem boxes_writeTaskJob (key : RoomKey) {input : Job} {b : Str × Str × ℕ}
    (hb : ∀ i, b ≠ boxKey input i) :
    (s.writeTaskJob sha256 key input).boxes.get? b = s.boxes.get? b := by
  unfold writeTaskJob
  dsimp only
  split_ifs
  · dsimp only
    exact get?_deleteCiphertext_of_ne s.boxes hb
  · split
    · dsimp only
      refine List.foldlRecOn (motive := fun t : Table (Str × Str × ℕ) Str =>
        t.get? b = s.boxes.get? b) _ _ rfl fun t ht i _ => ?_
      rw [Table.get?_put, if_neg (hb i), ht]
    · rfl

theorem boxKey_of_named {key : RoomKey} {input : Job} (hid : input.id = key.2)
    (hroom : input.room = some key.1) (i : ℕ) : boxKey input i = (key.1, key.2, i) := by
  rw [boxKey, hid, hroom, Option.getD_some]

theorem contentAt_writeTaskJob {key : RoomKey} {input : Job} (hid : input.id = key.2)
    (hroom : input.room = some key.1) {k : RoomKey} (hk : k ≠ key) :
    (s.writeTaskJob sha256 key input).contentAt k = s.contentAt k := by
  obtain ⟨cipher, hjobs⟩ := writeTaskJob_jobs sha256 s key input
  unfold contentAt chunksAt
  rw [hjobs, Table.get?_put, if_neg hk]
  refine congrArg (fun f => Option.map f (s.jobs.get? k)) (funext fun row => ?_)
  refine congrArg (Prod.mk row) (List.map_congr_left fun i _ => ?_)
  refine boxes_writeTaskJob key fun j e => hk ?_
  rw [boxKey_of_named hid hroom, Prod.mk.injEq, Prod.mk.injEq] at e
  exact Prod.ext e.1 e.2.1

/-- The write of a row that retains no payload. -/
theorem writeTaskJob_retired {key : RoomKey} {input : Job} (h : retainsTaskPayload input = false) :
    s.writeTaskJob sha256 key input =
      { s with
        jobs := s.jobs.put key
          { input with envelope := input.envelope.without [lit "box"], cipher := none }
        boxes := deleteCiphertext s.boxes input } := by
  unfold writeTaskJob
  rw [h]
  rfl

theorem retains_expireJob {row : Job} (h : expires row now = true) :
    retainsTaskPayload (expireJob row now) = false := by
  rw [expireJob, if_pos h]
  rfl

theorem chunksAt_of_no_cipher (boxes : Table (Str × Str × ℕ) Str) (k : RoomKey) {row : Job}
    (h : row.cipher = none) : chunksAt boxes k row = [] := by
  rw [chunksAt, h]
  rfl

/-- Writing an expired row back ages its content. -/
theorem contentAt_expireSaved {r : RoomKey × Job} (hr : s.jobs.get? r.1 = some r.2)
    (hid : r.2.id = r.1.2) :
    (s.expireSaved sha256 now r).contentAt r.1 = (s.contentAt r.1).map (ageContent now) := by
  have hbefore : s.contentAt r.1 = some (r.2, chunksAt s.boxes r.1 r.2) := by
    rw [contentAt, hr, Option.map_some]
  rw [hbefore, Option.map_some]
  unfold expireSaved ageContent
  by_cases h : expires r.2 now = true
  · rw [if_pos h, if_pos h, writeTaskJob_retired (retains_expireJob h), hid]
    unfold contentAt
    dsimp only
    rw [Table.get?_put, if_pos rfl, Option.map_some, chunksAt_of_no_cipher _ _ rfl]
  · rw [if_neg h, if_neg h, hbefore]

theorem contentAt_expireSaved_other (hs : s.Named) {r : RoomKey × Job}
    (hr : s.jobs.get? r.1 = some r.2) (t : WorkerTasks) {k : RoomKey} (hk : k ≠ r.1) :
    (t.expireSaved sha256 now r).contentAt k = t.contentAt k := by
  obtain ⟨hid, hroom⟩ := hs _ _ hr
  unfold expireSaved
  split_ifs
  · have hkey : (r.1.1, r.2.id) = r.1 := by rw [hid]
    rw [hkey]
    exact contentAt_writeTaskJob ((expireJob_id r.2 now).1.trans hid)
      ((expireJob_id r.2 now).2.trans hroom) hk
  · rfl

/-- What `rows` does to the contents: those of the room age. -/
theorem contentAt_rows (hs : s.Named) {jobs : List Job}
    (h : s.rows sha256 room now = .ok (jobs, t)) (k : RoomKey) :
    t.contentAt k = s.contentAt k ∨ t.contentAt k = (s.contentAt k).map (ageContent now) := by
  obtain ⟨records, hrecords, h⟩ := except_bind_ok.1 h
  unfold boundedRecords at hrecords
  split_ifs at hrecords
  cases hrecords
  cases h
  have hl : ∀ r ∈ roomRows s.jobs room, s.jobs.get? r.1 = some r.2 :=
    fun r hr => (mem_roomRows.1 hr).1
  have hstep : ∀ t : WorkerTasks, ∀ r ∈ roomRows s.jobs room, ∀ k, k ≠ r.1 →
      (t.expireSaved sha256 now r).contentAt k = t.contentAt k :=
    fun t r hr k hk => contentAt_expireSaved_other hs (hl r hr) t hk
  by_cases hk : k ∈ (roomRows s.jobs room).map Prod.fst
  · obtain ⟨r, hr, rfl⟩ := List.mem_map.1 hk
    obtain ⟨s', hs', hfold⟩ := Table.foldl_of_mem contentAt (nodup_roomRows s.jobs room) hstep s hr
    have hr' : s'.jobs.get? r.1 = some r.2 := by
      rw [← job_of_contentAt, hs', job_of_contentAt, hl r hr]
    right
    rw [hfold, contentAt_expireSaved hr' (hs _ _ (hl r hr)).1, hs']
  · exact .inl (Table.foldl_of_notMem contentAt hstep s hk)

/-! ### The calls of a writer -/

/-- `getPublic` writes its row back when that expired. -/
theorem getPublic_snd (hs : s.Named) {saved : Job} (hrow : s.jobs.get? (room, id) = some saved)
    (metadataOnly : Bool) :
    (s.getPublic sha256 room id now metadataOnly).2 =
      s.expireSaved sha256 now ((room, id), saved) := by
  have hid : saved.id = id := (hs _ _ hrow).1
  unfold getPublic expireSaved
  rw [hrow]
  dsimp only
  rw [hid]

theorem readChunks_congr {boxes boxes' : Table (Str × Str × ℕ) Str} {row : Job} {count : ℕ}
    (h : ∀ i < count, boxes.get? (boxKey row i) = boxes'.get? (boxKey row i)) :
    readChunks boxes row count = readChunks boxes' row count := by
  have hlist : ∀ l : List ℕ, (∀ i ∈ l, i < count) →
      l.mapM (readChunk boxes row) = l.mapM (readChunk boxes' row) := fun l => by
    induction l with
    | nil => intro _; rfl
    | cons i l ih =>
      intro hl
      have hi : readChunk boxes row i = readChunk boxes' row i := by
        rw [readChunk, readChunk, h i (hl i List.mem_cons_self)]
      rw [List.mapM_cons, List.mapM_cons, hi, ih fun j hj => hl j (List.mem_cons_of_mem _ hj)]
  exact hlist _ fun i hi => List.mem_range.1 hi

theorem hydrateTaskJob_congr {row : Job}
    (h : ∀ cipher, row.cipher = some cipher → ∀ i < cipher.count,
      s.boxes.get? (boxKey row i) = t.boxes.get? (boxKey row i)) :
    s.hydrateTaskJob sha256 row = t.hydrateTaskJob sha256 row := by
  unfold hydrateTaskJob
  cases hcipher : row.cipher with
  | none => rfl
  | some cipher =>
    dsimp only
    rw [readChunks_congr (h cipher hcipher)]

theorem get?_of_contentAt (hs : s.Named) (h : s.contentAt (room, id) = t.contentAt (room, id))
    {row : Job} (hrow : s.jobs.get? (room, id) = some row) {cipher : Cipher}
    (hcipher : row.cipher = some cipher) {i : ℕ} (hi : i < cipher.count) :
    s.boxes.get? (boxKey row i) = t.boxes.get? (boxKey row i) := by
  have hrow' : t.jobs.get? (room, id) = some row := by
    rw [← job_of_contentAt, ← h, job_of_contentAt, hrow]
  unfold contentAt at h
  rw [hrow, hrow', Option.map_some, Option.map_some] at h
  have hchunks := (Prod.mk.inj (Option.some.inj h)).2
  unfold chunksAt at hchunks
  rw [hcipher] at hchunks
  obtain ⟨hid, hroom⟩ := hs _ _ hrow
  have hkey : boxKey row i = (room, id, i) := boxKey_of_named hid hroom i
  rw [hkey]
  exact List.map_inj_left.1 hchunks i (List.mem_range.2 hi)

/-- The reply of `getPublic` depends on the content of its row. -/
theorem getPublic_fst_congr (hs : s.Named) (h : s.contentAt (room, id) = t.contentAt (room, id))
    (metadataOnly : Bool) :
    (s.getPublic sha256 room id now metadataOnly).1 =
      (t.getPublic sha256 room id now metadataOnly).1 := by
  have hrow : s.jobs.get? (room, id) = t.jobs.get? (room, id) := by
    rw [← job_of_contentAt, h, job_of_contentAt]
  unfold getPublic
  rw [← hrow]
  cases hsaved : s.jobs.get? (room, id) with
  | none => rfl
  | some saved =>
    cases metadataOnly with
    | true => rfl
    | false =>
      dsimp only
      rw [hydrateTaskJob_congr fun cipher hcipher i hi => ?_]
      by_cases hexpires : expires saved now = true
      · rw [if_pos hexpires, if_pos hexpires, writeTaskJob_retired (retains_expireJob hexpires),
          writeTaskJob_retired (retains_expireJob hexpires)]
        dsimp only
        rw [get?_deleteCiphertext_of_lt _ hcipher hi, get?_deleteCiphertext_of_lt _ hcipher hi]
      · rw [if_neg hexpires, if_neg hexpires]
        rw [expireJob, if_neg hexpires] at hcipher ⊢
        exact get?_of_contentAt hs h hsaved hcipher hi

theorem hydrateTaskJob_writerId {row row' : Job} (h : s.hydrateTaskJob sha256 row = .ok row') :
    row'.writerId = row.writerId := by
  unfold hydrateTaskJob at h
  split at h
  · cases h
    rfl
  · dsimp only at h
    split_ifs at h
    · cases h
    · obtain ⟨chunks, -, h⟩ := except_bind_ok.1 h
      split_ifs at h <;> cases h
      rfl

theorem getPublic_writerId {metadataOnly : Bool} {p : Option PublicJob}
    (h : (s.getPublic sha256 room id now metadataOnly).1 = .ok p) :
    p.map PublicJob.writerId = (s.jobs.get? (room, id)).map Job.writerId := by
  unfold getPublic at h
  cases hrow : s.jobs.get? (room, id) with
  | none =>
    rw [hrow] at h
    cases h
    rfl
  | some saved =>
    rw [hrow] at h
    dsimp only at h
    obtain ⟨row, hrow, rfl⟩ := except_map_ok.1 h
    have hw : row.writerId = saved.writerId := by
      cases metadataOnly with
      | true =>
        cases hrow
        exact expireJob_writerId saved now
      | false => exact (hydrateTaskJob_writerId hrow).trans (expireJob_writerId saved now)
    exact congrArg some hw

theorem contentAt_getPublic (sha256 : Str → Str) (hs : s.Named) (room id : Str) (now : ℤ)
    (metadataOnly : Bool) (k : RoomKey) :
    (s.getPublic sha256 room id now metadataOnly).2.contentAt k =
      if k = (room, id) then (s.contentAt k).map (ageContent now) else s.contentAt k := by
  cases hrow : s.jobs.get? (room, id) with
  | none =>
    have hsame : (s.getPublic sha256 room id now metadataOnly).2 = s := by
      unfold getPublic
      rw [hrow]
    rw [hsame]
    split_ifs with hk
    · subst hk
      rw [contentAt, hrow]
      rfl
    · rfl
  | some saved =>
    rw [getPublic_snd hs hrow]
    split_ifs with hk
    · subst hk
      exact contentAt_expireSaved hrow (hs _ _ hrow).1
    · exact contentAt_expireSaved_other hs hrow s hk

theorem contentAt_getPublic_self (sha256 : Str → Str) (hs : s.Named) (room id : Str) (now : ℤ)
    (metadataOnly : Bool) :
    (s.getPublic sha256 room id now metadataOnly).2.contentAt (room, id) =
      (s.contentAt (room, id)).map (ageContent now) :=
  (contentAt_getPublic sha256 hs room id now metadataOnly _).trans (if_pos rfl)

theorem contentAt_cancel (hs : s.Named) {action : TaskAction} {body : Value} {k : RoomKey}
    (hk : k ≠ (room, id)) :
    (s.call sha256 now (.transition room id action body)).2.contentAt k = s.contentAt k := by
  unfold call whole
  dsimp only
  cases h : s.transition sha256 room id action body now with
  | error e => rfl
  | ok r =>
    obtain ⟨reply, t⟩ := r
    dsimp only
    obtain ⟨proofHash, -, h⟩ := except_bind_ok.1 h
    cases hrow : s.jobs.get? (room, id) with
    | none =>
      rw [hrow] at h
      cases h
      rfl
    | some row =>
      rw [hrow] at h
      obtain ⟨result, hresult, h⟩ := except_bind_ok.1 h
      cases hrow' : result.row with
      | none =>
        rw [hrow'] at h
        cases h
        rfl
      | some row' =>
        rw [hrow'] at h
        cases h
        obtain ⟨hid, hroom⟩ := transitionJob_id hresult hrow'
        obtain ⟨hid₀, hroom₀⟩ := hs _ _ hrow
        exact contentAt_writeTaskJob (hid.trans hid₀) (hroom.trans hroom₀) hk

theorem transition_congr (h : s.jobs.get? (room, id) = t.jobs.get? (room, id))
    (action : TaskAction) (body : Value) :
    (s.transition sha256 room id action body now).map Prod.fst =
      (t.transition sha256 room id action body now).map Prod.fst := by
  unfold transition digestToken
  rw [h]
  dsimp only [bind, Except.bind]
  cases t.jobs.get? (room, id) with
  | none => rfl
  | some row =>
    dsimp only
    cases transitionJob row action body now (sha256 ((body.get (lit "token")).str?.getD [])) with
    | error e => rfl
    | ok result =>
      dsimp only
      cases result.row <;> rfl

theorem whole_fst {α : Type} (s : WorkerTasks) (f : α → TaskAnswer)
    (r : Except Throw (α × WorkerTasks)) : (s.whole f r).1 = (r.map Prod.fst).map f := by
  rcases r with e | ⟨a, t⟩ <;> rfl

/-- The job of a content. -/
def contentJob (c : Option (Job × List (Option Str))) : Option Job := c.map Prod.fst

theorem puts (hs : s.Named) (body : Value) (k : RoomKey) :
    Puts contentJob (Option.map (ageContent now)) room id body now k (s.contentAt k)
      ((s.call sha256 now (.put room id body)).2.contentAt k) := by
  unfold call whole
  dsimp only
  cases h : s.put sha256 room id body now with
  | error e => exact .inl rfl
  | ok r =>
    obtain ⟨reply, t⟩ := r
    dsimp only
    unfold put at h
    obtain ⟨parsed, hparsed, h⟩ := except_bind_ok.1 h
    cases parsed with
    | none =>
      cases h
      exact .inl rfl
    | some job =>
      cases hexisting : s.jobs.get? (room, id) with
      | some existing =>
        rw [hexisting] at h
        dsimp only at h
        split_ifs at h <;> cases h <;> exact .inl rfl
      | none =>
        rw [hexisting] at h hparsed
        dsimp only at h
        obtain ⟨⟨rows, s'⟩, hrows, h⟩ := except_bind_ok.1 h
        have haged := contentAt_rows hs hrows k
        dsimp only at h
        split_ifs at h <;> cases h
        · exact haged.imp_right .inl
        · by_cases hk : k = (room, id)
          · subst hk
            obtain ⟨cipher, hjobs⟩ := writeTaskJob_jobs sha256 s' (room, id)
              (queuedJob job (sha256 job.canonical) id (some room) now)
            refine .inr (.inr ⟨rfl, ?_, job,
              { queuedJob job (sha256 job.canonical) id (some room) now with
                envelope := job.envelope.without [lit "box"], cipher := cipher },
              hparsed, ?_, rfl, rfl, ?_⟩)
            · exact (job_of_contentAt s (room, id)).trans hexisting
            · refine (job_of_contentAt _ _).trans ?_
              rw [hjobs, Table.get?_put, if_pos rfl]
              rfl
            · exact Json.get_without (by decide) _
          · rw [contentAt_writeTaskJob rfl rfl hk]
            exact haged.imp_right .inl

theorem contentJob_age (now : ℤ) (c : Option (Job × List (Option Str))) :
    (contentJob (c.map (ageContent now))).map Job.writerId = (contentJob c).map Job.writerId := by
  rcases c with _ | ⟨row, chunks⟩
  · rfl
  · unfold ageContent
    by_cases h : expires row now = true
    · simp only [Option.map_some, h, if_true, contentJob, expireJob_writerId]
    · simp only [Option.map_some, h, Bool.false_eq_true, if_false, contentJob]

theorem ageContent_age (t t' : ℤ) (c : Job × List (Option Str)) :
    ageContent t (ageContent t' c) = ageContent t' c ∨
      ageContent t (ageContent t' c) = ageContent t c := by
  by_cases h : expires c.1 t' = true
  · left
    have hexpired : (expireJob c.1 t').state = .expired := by
      rw [expireJob, if_pos h]
      rfl
    have hold : expires (ageContent t' c).1 t = false := by
      rw [ageContent, if_pos h]
      simp [expires, hexpired]
    rw [ageContent.eq_1 t, hold]
    rfl
  · right
    rw [ageContent.eq_1 t', if_neg h]

theorem registry_writeTaskJob (key : RoomKey) (input : Job) :
    (s.writeTaskJob sha256 key input).registry = s.registry := by
  unfold writeTaskJob
  dsimp only
  split_ifs
  · rfl
  · split <;> rfl

theorem registry_expireSaved (r : RoomKey × Job) :
    (s.expireSaved sha256 now r).registry = s.registry := by
  unfold expireSaved
  split_ifs
  · exact registry_writeTaskJob _ _
  · rfl

theorem registry_rows {jobs : List Job} (h : s.rows sha256 room now = .ok (jobs, t)) :
    t.registry = s.registry := by
  obtain ⟨records, -, h⟩ := except_bind_ok.1 h
  cases h
  refine List.foldlRecOn (motive := fun t : WorkerTasks => t.registry = s.registry) records _ rfl
    fun t ht r _ => ?_
  exact (registry_expireSaved r).trans ht

theorem registry_whole {α : Type} {f : α → TaskAnswer} {r : Except Throw (α × WorkerTasks)}
    (h : ∀ a t, r = .ok (a, t) → t.registry = s.registry) :
    (s.whole f r).2.registry = s.registry := by
  rcases r with e | ⟨a, t⟩
  · rfl
  · exact h a t rfl

/-- A call leaves the registry to the clean-up. -/
theorem registry_call (sha256 : Str → Str) (s : WorkerTasks) (now : ℤ) {c : TaskCall}
    (hc : ∀ connected, c ≠ .clean connected) :
    (s.call sha256 now c).2.registry = s.registry := by
  cases c with
  | put room id body =>
    refine registry_whole fun reply t h => ?_
    obtain ⟨parsed, -, h⟩ := except_bind_ok.1 h
    cases parsed with
    | none =>
      cases h
      rfl
    | some job =>
      cases hexisting : s.jobs.get? (room, id) with
      | some existing =>
        rw [hexisting] at h
        dsimp only at h
        split_ifs at h <;> cases h <;> rfl
      | none =>
        rw [hexisting] at h
        dsimp only at h
        obtain ⟨⟨rows, s'⟩, hrows, h⟩ := except_bind_ok.1 h
        dsimp only at h
        split_ifs at h <;> cases h
        · exact registry_rows hrows
        · exact (registry_writeTaskJob _ _).trans (registry_rows hrows)
  | transition room id action body =>
    refine registry_whole fun reply t h => ?_
    obtain ⟨proofHash, -, h⟩ := except_bind_ok.1 h
    split at h
    · cases h
      rfl
    · obtain ⟨result, -, h⟩ := except_bind_ok.1 h
      split at h <;> cases h
      · rfl
      · exact registry_writeTaskJob _ _
  | list room =>
    refine registry_whole fun jobs t h => ?_
    obtain ⟨⟨rows, t'⟩, hrows, hr⟩ := except_bind_ok.1 h
    cases hr
    exact registry_rows hrows
  | listActive room =>
    refine registry_whole fun jobs t h => ?_
    obtain ⟨⟨all, t'⟩, hlist, hr⟩ := except_bind_ok.1 h
    obtain ⟨⟨rows, t''⟩, hrows, hr'⟩ := except_bind_ok.1 hlist
    cases hr'
    cases hr
    exact registry_rows hrows
  | getPublic room id metadataOnly =>
    unfold call getPublic
    dsimp only
    split
    · rfl
    · dsimp only
      split_ifs
      · exact registry_writeTaskJob _ _
      · rfl
  | due room recipientKeyId excluded =>
    unfold call due
    dsimp only
    cases h : s.rows sha256 room now with
    | error e => rfl
    | ok r =>
      dsimp only
      split <;> exact registry_rows h
  | clean connected => exact absurd rfl (hc connected)

end WorkerTasks

/-- The Worker store under the router, on the storages whose rows lie at their own keys. -/
def workerBackend (sha256 : Str → Str) (toNumber : Str → Option Number) : ConfinedBackend where
  State := { s : WorkerTasks // s.Named }
  registry := fun s => s.1.registry
  withRegistry := fun s registry => ⟨{ s.1 with registry := registry }, s.2⟩
  call := (WorkerTasks.store sha256).call
  commitWriter := Registry.commitWriterGrant
  sha256 := sha256
  toNumber := toNumber
  Content := Option (Job × List (Option Str))
  content := fun s => s.1.contentAt
  job := WorkerTasks.contentJob
  corrupt := fun _ => false
  age := fun now c => c.map (WorkerTasks.ageContent now)
  registry_withRegistry := fun _ _ => rfl
  content_withRegistry := fun _ _ _ => rfl
  registry_call := fun s now c hc => WorkerTasks.registry_call sha256 s.1 now hc
  age_job := WorkerTasks.contentJob_age
  age_age := fun t t' c => by
    cases c with
    | none => exact .inl rfl
    | some c => exact (WorkerTasks.ageContent_age t t' c).imp (congrArg some) (congrArg some)
  getPublic_content := fun s now room id metadataOnly k => by
    have h := WorkerTasks.contentAt_getPublic sha256 s.2 room id now metadataOnly k
    by_cases hk : k = (room, id)
    · exact .inr (h.trans (if_pos hk))
    · exact .inl (h.trans (if_neg hk))
  getPublic_congr := fun s t now room id metadataOnly h => by
    refine ⟨congrArg (Except.map TaskAnswer.found)
      (WorkerTasks.getPublic_fst_congr s.2 h metadataOnly), ?_⟩
    have hs := WorkerTasks.contentAt_getPublic_self sha256 s.2 room id now metadataOnly
    have ht := WorkerTasks.contentAt_getPublic_self sha256 t.2 room id now metadataOnly
    exact hs.trans ((congrArg (Option.map (WorkerTasks.ageContent now)) h).trans ht.symm)
  getPublic_found := fun s now room id metadataOnly answer h => by
    obtain ⟨p, hp, rfl⟩ := except_map_ok.1 h
    refine ⟨p, rfl, ?_⟩
    rw [WorkerTasks.contentJob, WorkerTasks.job_of_contentAt]
    exact WorkerTasks.getPublic_writerId hp
  getPublic_corrupt := nofun
  getPublic_total := fun s now room id _ => by
    refine ⟨.found ((s.1.jobs.get? (room, id)).map fun row => publicJob (expireJob row now)), ?_⟩
    change (s.1.getPublic sha256 room id now true).1.map TaskAnswer.found = _
    unfold WorkerTasks.getPublic
    cases s.1.jobs.get? (room, id) <;> rfl
  cancel_other := fun s now room id k hk => WorkerTasks.contentAt_cancel s.2 hk
  cancel_congr := fun s t now room id h => by
    have hrow : s.1.jobs.get? (room, id) = t.1.jobs.get? (room, id) := by
      rw [← WorkerTasks.job_of_contentAt, h, WorkerTasks.job_of_contentAt]
    change (s.1.whole TaskAnswer.reply _).1 = (t.1.whole TaskAnswer.reply _).1
    rw [WorkerTasks.whole_fst, WorkerTasks.whole_fst, WorkerTasks.transition_congr hrow]
  put_content := fun s now room id body k => WorkerTasks.puts s.2 body k

/-! ## Both runtimes -/

def Runtime.backend (sha256 : Str → Str) (toNumber : Str → Option Number) :
    Runtime → ConfinedBackend
  | node => nodeBackend sha256 toNumber
  | worker => workerBackend sha256 toNumber

section Sample

/-- The digest of the token of sixty-four times `c`. -/
def sampleTokenHash : Str := lit "52b6419d27bd7f547cee3b92f8c17a908b8a49601ecbec161e5030de1dfe9e0a"

/-- A grant revoked at 5000. -/
def sampleGrant : WriterGrant where
  id := lit "writer-00000001"
  sourceKeyId := sampleDigest 'd'
  recipientKeyId := sampleDigest 'a'
  scopeHash := sampleDigest 'e'
  tokenHash := sampleTokenHash
  expiresAt := 90000
  revokedAt := some 5000

/-- The writer reads the metadata of a job at 6000. -/
def sampleRead : TaskRequest where
  method := .GET
  pathname := lit "/task-jobs/" ++ sampleJob
  room := some (.str sampleRoom)
  credential := some (lit "writer:writer-00000001:" ++ sampleDigest 'c')
  metadataOnly := true
  owner := false
  read := fun _ => .ok none
  authorizedAt := 6000
  existingAt := 6000
  actedAt := 6000

def sampleNode : ConfinedBackend := nodeBackend (fun _ => sampleTokenHash) fun _ => none

/-- A Node store with the grant alone. -/
def sampleTasks : NodeTasks :=
  { NodeTasks.empty with registry := Registry.empty.putGrant sampleRoom sampleGrant }

/-- The same store with a record that does not parse. -/
def sampleCorrupt : NodeTasks where
  jobs := Table.empty.put (sampleRoom, sampleJob) (.corrupt (lit "\x7b"))
  registry := sampleTasks.registry
  named := fun k row h => by
    rw [Table.get?_put] at h
    split_ifs at h <;> cases h

end Sample

end GrantTap
