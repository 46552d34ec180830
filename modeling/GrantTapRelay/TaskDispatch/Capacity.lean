import GrantTapRelay.Library.Loads
import GrantTapRelay.TaskDispatch.Shelves

/-!
# The capacity of a room

A room holds at most `ROOM_RECEIPT_LIMIT` rows; at most `ROOM_JOB_LIMIT` of them retain a payload,
of at most `ROOM_JOB_BYTES` recorded bytes. The bounds are checked by `put` only. They hold always,
since everything else makes rows lighter (`Lighter`): no transition, expiry or clean-up brings a
payload back or raises its bytes.

* `Limit`: the three bounds, as weights of rows.
* `Loading`: what a call does to the weights of a room.
* `promised_within_capacity`: **the bounds** in every reachable state of both stores, and what a
  `put` leaves alone.
-/

namespace GrantTap

open Js Runs Loads

/-! ## Weights -/

/-- The limits of a room. -/
inductive Limit
  | receipts
  | jobs
  | bytes

namespace Limit

def bound : Limit → ℕ
  | receipts => ROOM_RECEIPT_LIMIT
  | jobs => ROOM_JOB_LIMIT
  | bytes => ROOM_JOB_BYTES

/-- What a row that retains its payload, or does not, adds. -/
def weigh (retains : Bool) (recorded : ℕ) : Limit → ℕ
  | receipts => 1
  | jobs => if retains then 1 else 0
  | bytes => if retains then recorded else 0

def weight (l : Limit) (row : Job) : ℕ := l.weigh (retainsTaskPayload row) row.bytes

theorem weigh_le {r r' : Bool} {n n' : ℕ} (h : r' = true → r = true ∧ n' ≤ n) (l : Limit) :
    l.weigh r' n' ≤ l.weigh r n := by
  cases r' with
  | false => cases l <;> simp [weigh]
  | true =>
    obtain ⟨rfl, hn⟩ := h rfl
    cases l <;> simp [weigh, hn]

end Limit

/-- The row is not there, or was there before and promises no more. -/
def Lighter (before after : Option Job) : Prop :=
  ∀ row', after = some row' → ∃ row, before = some row ∧
    (retainsTaskPayload row' = true → retainsTaskPayload row = true ∧ row'.bytes ≤ row.bytes)

theorem Lighter.refl (row : Option Job) : Lighter row row := fun row' h => ⟨row', h, fun hr => ⟨hr, le_rfl⟩⟩

theorem Lighter.none (row : Option Job) : Lighter row none := by
  intro row' h
  cases h

/-- A row without a payload is as light as any. -/
theorem Lighter.of_retired {row row' : Job} (h : retainsTaskPayload row' = false) :
    Lighter (some row) (some row') := by
  intro row₁ hrow
  cases hrow
  exact ⟨row, rfl, fun hretains => absurd (h.symm.trans hretains) (by decide)⟩

theorem Lighter.of_follows {row row' : Job} (h : Follows row row') :
    Lighter (some row) (some row') := by
  intro row₁ hrow
  cases hrow
  refine ⟨row, rfl, fun hretains => ?_⟩
  obtain ⟨hbefore, hbytes, -⟩ := h.retained hretains
  exact ⟨hbefore, hbytes.le⟩

theorem Lighter.weight_le {before after : Option Job} (h : Lighter before after) (l : Limit) :
    weight l.weight after ≤ weight l.weight before := by
  cases after with
  | none => simp
  | some row' =>
    obtain ⟨row, rfl, hle⟩ := h row' rfl
    exact l.weigh_le hle

/-- The bounds of a room. -/
def Fits (jobs : Jobs) (room : Str) : Prop :=
  ∀ l : Limit, Bounded l.weight (fun id => jobs (room, id)) l.bound

/-- What a call does to the weights: rows get lighter, or one row is created in a room that has
place for it. -/
inductive Loading (jobs jobs' : Jobs) : Prop
  | lighter (h : ∀ k, Lighter (jobs k) (jobs' k))
  | created (room id : Str) (row : Job) (hrow : jobs' (room, id) = some row)
      (hlighter : ∀ k, k ≠ (room, id) → Lighter (jobs k) (jobs' k))
      (hplace : ∀ l : Limit, ∃ m,
        Bounded l.weight (fun id' => if id' = id then none else jobs' (room, id')) m ∧
          m + l.weight row ≤ l.bound)

/-- **A call keeps the bounds.** -/
theorem Loading.fits {jobs jobs' : Jobs} (h : Loading jobs jobs') (hfits : ∀ room, Fits jobs room)
    (room : Str) : Fits jobs' room := by
  intro l
  cases h with
  | lighter h => exact (hfits room l).mono fun id => (h (room, id)).weight_le l
  | created room₁ id row hrow hlighter hplace =>
    by_cases hroom : room = room₁
    · subst hroom
      obtain ⟨m, hm, hsum⟩ := hplace l
      refine hm.write ?_
      rw [hrow]
      exact hsum
    · refine (hfits room l).mono fun id' => (hlighter (room, id') ?_).weight_le l
      intro hkey
      exact hroom (Prod.mk.inj hkey).1

/-! ## The check of `put` -/

section Check

variable {α : Type} {active : α → Bool} {recorded : α → ℕ}

/-- The weights of the active rows. -/
theorem sum_weigh_bytes (rows : List α) :
    (rows.map fun r => Limit.bytes.weigh (active r) (recorded r)).sum =
      ((rows.filter active).map recorded).sum := by
  induction rows with
  | nil => rfl
  | cons r rows ih =>
    cases h : active r <;> simp [Limit.weigh, h] at ih ⊢ <;> omega

theorem sum_weigh_jobs (rows : List α) :
    (rows.map fun r => Limit.jobs.weigh (active r) (recorded r)).sum =
      (rows.filter active).length := by
  induction rows with
  | nil => rfl
  | cons r rows ih =>
    cases h : active r <;> simp [Limit.weigh, h] at ih ⊢ <;> omega

/-- A room that passes the check of `put` has place. -/
theorem place_of_check {rows : List α} {added : ℕ}
    (h : ¬(ROOM_RECEIPT_LIMIT ≤ rows.length ∨ ROOM_JOB_LIMIT ≤ (rows.filter active).length ∨
      ROOM_JOB_BYTES < ((rows.filter active).map recorded).sum + added)) (l : Limit) :
    (rows.map fun r => l.weigh (active r) (recorded r)).sum + l.weigh true added ≤ l.bound := by
  simp only [not_or, not_le, not_lt] at h
  obtain ⟨hreceipts, hjobs, hbytes⟩ := h
  cases l with
  | receipts =>
    simp [Limit.weigh, Limit.bound]
    omega
  | jobs =>
    rw [sum_weigh_jobs]
    simp only [Limit.weigh, Limit.bound, if_true]
    omega
  | bytes =>
    rw [sum_weigh_bytes]
    simpa only [Limit.weigh, Limit.bound, if_true] using hbytes

end Check

/-- The rows of a room bound it. -/
theorem bounded_roomRows {ν : Type} (w : ν → ℕ) (t : Table RoomKey ν) (room : Str) :
    Bounded w (fun id => t.get? (room, id)) ((roomRows t room).map fun r => w r.2).sum := by
  have hinj : Function.Injective fun id : Str => ((room, id) : RoomKey) := Prod.mk_right_injective room
  have hrows := (bounded_rows w (t.filter fun k _ => k.1 = room)).comp hinj
  have hperm := List.perm_insertionSort (fun a b : RoomKey × ν => unitsLe a.1.2 b.1.2)
    (t.rows.filter fun r => r.1.1 = room)
  have hsum : ((roomRows t room).map fun r => w r.2).sum =
      ((t.filter fun k _ => decide (k.1 = room)).rows.map fun r => w r.2).sum :=
    (hperm.map _).sum_eq
  rw [hsum]
  refine hrows.mono fun id => ?_
  rw [Table.get?_filter]
  cases t.get? (room, id) <;> simp [Option.filter_some]

/-! ## Node -/

namespace NodeTasks

variable {sha256 : Str → Str} {s t : NodeTasks} {room id : Str} {now : ℤ}

/-- What a stored row adds, as the indexed columns have it. -/
def rowWeight (l : Limit) (row : TaskRow) : ℕ := l.weigh row.active row.payloadBytes

theorem weight_job_le (s : NodeTasks) (l : Limit) (k : RoomKey) :
    weight l.weight (s.job k) ≤ weight (rowWeight l) (s.jobs.get? k) := by
  unfold job
  cases s.jobs.get? k with
  | none => rfl
  | some row => cases row <;> simp [rowWeight, Limit.weight, TaskRow.active, TaskRow.payloadBytes]

theorem lighter_expireJob (row : Job) (now : ℤ) : Lighter (some row) (some (expireJob row now)) := by
  unfold expireJob
  split_ifs
  · exact .of_retired rfl
  · exact .refl _

theorem lighter_expireQueued (s : NodeTasks) (room : Str) (now : ℤ) (k : RoomKey) :
    Lighter (s.job k) ((s.expireQueued room now).job k) := by
  rw [job_expireQueued]
  cases s.job k with
  | none => exact .refl _
  | some row =>
    rw [Option.map_some]
    split_ifs
    · exact lighter_expireJob row now
    · exact .refl _

/-- A job is created in a room that has place. -/
theorem putInTransaction_place {body : Value} {reply : Reply}
    (h : s.putInTransaction sha256 room id body now = .ok (reply, t)) :
    (t = s ∨ t = s.expireQueued room now) ∨
      ∃ job, s.get room id = .ok none ∧
        (s.expireQueued room now).save room
          (queuedJob job (sha256 job.canonical) id none now) = .ok t ∧
        ∀ l : Limit, (((s.expireQueued room now).roomJobs room).map (rowWeight l)).sum +
          l.weigh true job.bytes ≤ l.bound := by
  unfold putInTransaction at h
  obtain ⟨existing, hexisting, h⟩ := except_bind_ok.1 h
  obtain ⟨parsed, hparsed, h⟩ := except_bind_ok.1 h
  cases parsed with
  | none =>
    cases h
    exact .inl (.inl rfl)
  | some job =>
    cases existing with
    | some existing =>
      dsimp only at h
      split_ifs at h <;> cases h <;> exact .inl (.inl rfl)
    | none =>
      dsimp only at h
      split_ifs at h with hfull
      · cases h
        exact .inl (.inr rfl)
      · obtain ⟨t', hsave, h⟩ := except_bind_ok.1 h
        cases h
        exact .inr ⟨job, hexisting, hsave, place_of_check hfull⟩

theorem loading_put {body : Value} {reply : Reply}
    (h : s.putInTransaction sha256 room id body now = .ok (reply, t)) : Loading s.job t.job := by
  rcases putInTransaction_place h with (rfl | rfl) | ⟨job, -, hsave, hplace⟩
  · exact .lighter fun k => .refl _
  · exact .lighter fun k => lighter_expireQueued s room now k
  · obtain ⟨hrow, hother, -⟩ := save_ok hsave
    refine .created room id _ hrow (fun k hk => ?_) fun l => ?_
    · rw [job_eq_of_get? (hother k hk)]
      exact lighter_expireQueued s room now k
    · refine ⟨_, ?_, hplace l⟩
      have hrows := bounded_roomRows (rowWeight l) (s.expireQueued room now).jobs room
      rw [roomJobs, List.map_map]
      refine hrows.mono fun id' => ?_
      split_ifs with hid
      · exact Nat.zero_le _
      · have hkey : ((room, id') : RoomKey) ≠ (room, id) := fun hkey => hid (Prod.mk.inj hkey).2
        rw [job_eq_of_get? (hother _ hkey)]
        exact weight_job_le _ l _

theorem loading_transition {action : TaskAction} {body : Value} {reply : Reply}
    (h : s.transitionInTransaction sha256 room id action body now = .ok (reply, t)) :
    Loading s.job t.job := by
  rcases transitionInTransaction_ok h with ⟨rfl, -⟩ |
    ⟨row, result, row', proofHash, hjob, -, hresult, hrow, hsave, -⟩
  · exact .lighter fun k => .refl _
  · obtain ⟨hg, hother, -⟩ := save_ok hsave
    have hid : row'.id = id := (transitionJob_id hresult hrow).1.trans (job_id hjob)
    rw [hid] at hg hother
    refine .lighter fun k => ?_
    by_cases hk : k = (room, id)
    · rw [hk, hjob, hg]
      exact .of_follows (transitionJob_follows hresult hrow)
    · rw [job_eq_of_get? (hother k hk)]
      exact .refl _

theorem loading_purge {next : Option ℤ} (h : s.purgeInTransaction now = .ok (next, t)) :
    Loading s.job t.job := by
  unfold purgeInTransaction at h
  split_ifs at h
  cases h
  refine .lighter fun k => ?_
  unfold job
  dsimp only
  rw [Table.get?_filterMap]
  cases s.jobs.get? k with
  | none => exact .refl _
  | some row =>
    cases row with
    | corrupt record => exact .refl _
    | saved row =>
      rw [Option.bind_some]
      unfold purgeRow
      dsimp only
      split_ifs
      · exact .none _
      · exact lighter_expireJob row.job now
      · exact .refl _

theorem loading_call (sha256 : Str → Str) (s : NodeTasks) (now : ℤ) (c : TaskCall) :
    Loading s.job (s.call sha256 now c).2.job := by
  have expired (room : Str) : Loading s.job (s.expireQueued room now).job :=
    .lighter fun k => lighter_expireQueued s room now k
  refine call_cases (P := fun r => Loading s.job r.2.job) (fun _ _ => .lighter fun k => .refl _)
    fun a t h => ?_
  cases c with
  | put room id body =>
    obtain ⟨reply, hr, rfl⟩ := answer_ok h
    exact loading_put hr
  | transition room id action body =>
    obtain ⟨reply, hr, rfl⟩ := answer_ok h
    exact loading_transition hr
  | list room =>
    obtain ⟨jobs, hr, rfl⟩ := answer_ok h
    obtain ⟨rows, -, hr⟩ := except_bind_ok.1 hr
    cases hr
    exact expired room
  | listActive room =>
    obtain ⟨jobs, hr, rfl⟩ := answer_ok h
    obtain ⟨rows, -, hr⟩ := except_bind_ok.1 hr
    cases hr
    exact expired room
  | getPublic room id metadataOnly =>
    obtain ⟨found, hr, rfl⟩ := answer_ok h
    obtain ⟨saved, -, hr⟩ := except_bind_ok.1 hr
    cases hr
    exact expired room
  | due room recipientKeyId excluded =>
    cases h
    exact expired room
  | clean connected =>
    obtain ⟨next, hr, rfl⟩ := answer_ok h
    exact loading_purge hr

end NodeTasks

/-! ## Worker -/

namespace Shelf

variable {sha256 : Str → Str} {now : ℤ} {shelf shelf' : Shelf}

/-- The row of a write is its input, but for the box and the cipher. -/
theorem write_row (sha256 : Str → Str) (shelf : Shelf) (input : Job) :
    ∃ cipher, (shelf.write sha256 input).row = some (stored input cipher) := by
  unfold write
  split_ifs
  · exact ⟨_, rfl⟩
  · split
    · exact ⟨_, rfl⟩
    · exact ⟨_, rfl⟩

theorem lighter_write {row : Option Job} {input : Job} (h : Lighter row (some input)) :
    Lighter row (shelf.write sha256 input).row := by
  obtain ⟨cipher, hrow⟩ := write_row sha256 shelf input
  rw [hrow]
  intro row' hrow'
  cases hrow'
  exact h input rfl

theorem lighter_age : Lighter shelf.row (shelf.age sha256 now).row := by
  unfold age
  split
  · rename_i row hrow
    split_ifs with hexpires
    · rw [hrow]
      exact lighter_write (.of_retired (WorkerTasks.retains_expireJob hexpires))
    · exact .refl _
  · exact .refl _

/-- **A move makes a shelf lighter.** -/
theorem Move.lighter (h : Move sha256 now shelf shelf') : Lighter shelf.row shelf'.row := by
  cases h with
  | keep => exact .refl _
  | age => exact lighter_age
  | drop => exact .none _
  | store row row' action body proofHash result hrow hresult hrow' =>
    rw [hrow]
    exact lighter_write (.of_follows (transitionJob_follows hresult hrow'))

/-- An aged row weighs what its expired job weighs. -/
theorem weight_age (l : Limit) : weight l.weight (shelf.age sha256 now).row =
    weight (fun row => l.weight (expireJob row now)) shelf.row := by
  unfold age
  split
  · rename_i row hrow
    rw [hrow]
    split_ifs with hexpires
    · obtain ⟨cipher, hwritten⟩ := write_row sha256 shelf (expireJob row now)
      rw [hwritten]
      rfl
    · rw [hrow, weight_some, weight_some, expireJob, if_neg hexpires]
  · rename_i hrow
    rw [hrow]
    rfl

end Shelf

namespace WorkerTasks

variable {sha256 : Str → Str} {s t : WorkerTasks} {room : Str} {now : ℤ}

/-- The rows that `put` reads bound the room. -/
theorem bounded_readRows (hs : s.Named) {rows : List Job}
    (h : s.rows sha256 room now = .ok (rows, t)) (l : Limit) :
    Bounded l.weight (fun id => t.jobs.get? (room, id)) (rows.map l.weight).sum := by
  have hshelf (id : Str) : (t.shelf (room, id)).row =
      ((s.shelf (room, id)).age sha256 now).row := by
    rw [shelf_rows hs h, if_pos rfl]
  obtain ⟨records, hrecords, h⟩ := except_bind_ok.1 h
  unfold boundedRecords at hrecords
  split_ifs at hrecords
  cases hrecords
  cases h
  rw [List.map_map]
  refine (bounded_roomRows (fun row => l.weight (expireJob row now)) s.jobs room).mono fun id => ?_
  have hid := hshelf id
  rw [shelf_row] at hid
  rw [hid, Shelf.weight_age]
  rfl

theorem loading_call (hs : s.Named) (sha256 : Str → Str) (now : ℤ) (c : TaskCall) :
    Loading s.jobs.get? (s.call sha256 now c).2.jobs.get? := by
  have heffect := shelf_call hs sha256 now c
  generalize (s.call sha256 now c).1 = answer at heffect
  generalize (s.call sha256 now c).2 = after at heffect
  cases heffect with
  | moved _ _ _ hmove => exact .lighter fun k => (hmove k).lighter
  | created room id body job rows s' reply hstatus hnone hjob hrows hplace =>
    obtain ⟨cipher, hjobs⟩ := writeTaskJob_jobs sha256 s' (room, id)
      (queuedJob job (sha256 job.canonical) id (some room) now)
    rw [hjobs]
    refine .created room id _ (by rw [Table.get?_put, if_pos rfl]) (fun k hk => ?_) fun l => ?_
    · rw [Table.get?_put, if_neg hk]
      exact (move_rows hs hrows k).lighter
    · refine ⟨_, ?_, place_of_check hplace l⟩
      refine (bounded_readRows hs hrows l).mono fun id' => ?_
      split_ifs with hid
      · exact Nat.zero_le _
      · have hkey : ((room, id') : RoomKey) ≠ (room, id) := fun hkey => hid (Prod.mk.inj hkey).2
        rw [Table.get?_put, if_neg hkey]

end WorkerTasks

/-! ## Both runtimes -/

/-- The bounds of a room, for any finite set of ids: of jobs that are queued, accepted or failed,
of their recorded bytes, and of rows. -/
structure WithinCapacity (jobs : Jobs) (room : Str) : Prop where
  promised : ∀ ids : Finset Str, (∀ id ∈ ids, (jobs (room, id)).any retainsTaskPayload = true) →
    ids.card ≤ ROOM_JOB_LIMIT
  bytes : ∀ ids : Finset Str, (∀ id ∈ ids, (jobs (room, id)).any retainsTaskPayload = true) →
    ∑ id ∈ ids, (jobs (room, id)).elim 0 Job.bytes ≤ ROOM_JOB_BYTES
  receipts : ∀ ids : Finset Str, (∀ id ∈ ids, (jobs (room, id)).isSome = true) →
    ids.card ≤ ROOM_RECEIPT_LIMIT

theorem Fits.within {jobs : Jobs} {room : Str} (h : Fits jobs room) : WithinCapacity jobs room where
  promised ids hids := (h .jobs).card_le hids
  bytes ids hids := by
    refine le_trans (Finset.sum_le_sum fun id hid => ?_) (h .bytes ids)
    obtain ⟨row, hrow, hretains⟩ := (Option.any_eq_true ..).1 (hids id hid)
    simp [hrow, Limit.weight, Limit.weigh, hretains]
  receipts ids hids := by
    have hcount : Bounded (fun row : Job => if (fun _ => true) row then 1 else 0)
        (fun id => jobs (room, id)) ROOM_RECEIPT_LIMIT := h .receipts
    refine hcount.card_le fun id hid => ?_
    obtain ⟨row, hrow⟩ := Option.isSome_iff_exists.1 (hids id hid)
    simp [hrow]

/-- A call to a store. -/
def CallStep (S : JobStore) (s : S.State) (l : ℤ × TaskCall) (s' : S.State) : Prop :=
  s' = (S.call s l.1 l.2).2

theorem loading_store (sha256 : Str → Str) (runtime : Runtime) (s : (runtime.store sha256).State)
    (now : ℤ) (c : TaskCall) : Loading ((runtime.store sha256).job s)
      ((runtime.store sha256).job ((runtime.store sha256).call s now c).2) := by
  cases runtime with
  | node => exact NodeTasks.loading_call sha256 s now c
  | worker => exact WorkerTasks.loading_call s.2 sha256 now c

theorem run_fits {sha256 : Str → Str} {runtime : Runtime} {calls : List (ℤ × TaskCall)}
    {s : (runtime.store sha256).State}
    (h : Run (CallStep (runtime.store sha256)) (runtime.store sha256).empty calls s) (room : Str) :
    Fits ((runtime.store sha256).job s) room := by
  refine h.invariant (I := fun s => ∀ room, Fits ((runtime.store sha256).job s) room)
    (fun s l s' hfits hstep => ?_) (fun room l => ?_) room
  · rw [show s' = _ from hstep]
    exact (loading_store sha256 runtime s l.1 l.2).fits hfits
  · exact bounded_empty fun id => (runtime.store sha256).job_empty (room, id)

/-- A `put` that does not answer 201 creates nothing. -/
theorem TaskEffect.none_of_refused {hash : Value → Except Throw Str} {now : ℤ} {f g : Jobs}
    {room id : Str} {body : Value} {reply : Reply}
    (h : TaskEffect hash now f g (.put room id body) (.ok (.reply reply)))
    (hstatus : reply.status ≠ 201) {k : RoomKey} (hf : f k = none) : g k = none := by
  have aged (h : Aged now (receiptAt f k) (receiptAt g k)) : g k = none := by
    rw [receiptAt, hf, Option.map_none] at h
    have hnone : receiptAt g k = none := by
      generalize receiptAt g k = after at h
      cases h
      rfl
    exact Option.map_eq_none_iff.1 hnone
  cases h with
  | aged _ _ h => exact aged (h k)
  | created room id body job row r hcreated => exact absurd hcreated hstatus

/-- The refusals of `put`. -/
def putRefusals : List ℕ := [400, 409, 429]

theorem put_keeps {sha256 : Str → Str} {toNumber : Str → Option Number} {runtime : Runtime}
    {s : (runtime.backend sha256 toNumber).State} {now : ℤ} {room id : Str} {body : Value}
    {k : RoomKey}
    (h : ((runtime.backend sha256 toNumber).job
        ((runtime.backend sha256 toNumber).content s k)).isSome = true ∨
      ∃ reply, ((runtime.backend sha256 toNumber).call s now (.put room id body)).1 =
        .ok (.reply reply) ∧ reply.status ∈ putRefusals) :
    (runtime.backend sha256 toNumber).content
          ((runtime.backend sha256 toNumber).call s now (.put room id body)).2 k =
        (runtime.backend sha256 toNumber).content s k ∨
      (runtime.backend sha256 toNumber).content
          ((runtime.backend sha256 toNumber).call s now (.put room id body)).2 k =
        (runtime.backend sha256 toNumber).age now
          ((runtime.backend sha256 toNumber).content s k) := by
  rcases (runtime.backend sha256 toNumber).put_content s now room id body k with
    hsame | haged | ⟨rfl, hnone, job, row, -, hrow, -⟩
  · exact .inl hsame
  · exact .inr haged
  · exfalso
    rcases h with h | ⟨reply, hreply, hstatus⟩
    · rw [hnone] at h
      cases h
    · have hrefused : reply.status ≠ 201 := by
        intro heq
        rw [heq] at hstatus
        exact absurd hstatus (by decide)
      cases runtime with
      | node =>
        have heffect := NodeTasks.call_effect sha256 s now (.put room id body)
        rw [show (NodeTasks.call sha256 s now (.put room id body)).1 = _ from hreply] at heffect
        exact absurd ((heffect.none_of_refused hrefused hnone).symm.trans hrow) (by simp)
      | worker =>
        have heffect := (WorkerTasks.call_effect s.2 sha256 now (.put room id body)).1
        rw [show (s.1.call sha256 now (.put room id body)).1 = _ from hreply] at heffect
        have hnone' : s.1.jobs.get? (room, id) = none :=
          (WorkerTasks.job_of_contentAt s.1 (room, id)).symm.trans hnone
        have hrow' : (s.1.call sha256 now (.put room id body)).2.jobs.get? (room, id) = some row :=
          (WorkerTasks.job_of_contentAt _ (room, id)).symm.trans hrow
        exact absurd ((heffect.none_of_refused hrefused hnone').symm.trans hrow') (by simp)

/-- **Promised jobs stay within capacity and are never evicted**: on either runtime, in every state
that calls reach, every room keeps its bounds; and a `put` leaves alone what is stored at a key, up
to expiry, whenever there is a job, and everywhere when it is refused. -/
theorem promised_within_capacity (sha256 : Str → Str) (toNumber : Str → Option Number)
    (runtime : Runtime) :
    (∀ (calls : List (ℤ × TaskCall)) (s : (runtime.store sha256).State),
      Run (CallStep (runtime.store sha256)) (runtime.store sha256).empty calls s →
        ∀ room, WithinCapacity ((runtime.store sha256).job s) room) ∧
    ∀ (s : (runtime.backend sha256 toNumber).State) (now : ℤ) (room id : Str) (body : Value)
      (k : RoomKey),
      let B := runtime.backend sha256 toNumber
      let r := B.call s now (.put room id body)
      ((B.job (B.content s k)).isSome = true ∨
          ∃ reply, r.1 = .ok (.reply reply) ∧ reply.status ∈ putRefusals) →
        B.content r.2 k = B.content s k ∨ B.content r.2 k = B.age now (B.content s k) :=
  ⟨fun _ _ h room => (run_fits h room).within, fun _ _ _ _ _ _ h => put_keeps h⟩

end GrantTap
