import GrantTapRelay.Library.Unobserved
import GrantTapRelay.TaskDispatch.Backends
import Mathlib.Data.Int.ConditionallyCompleteOrder

/-!
# Lazy expiry

A queued job past its expiry is rewritten when it is next read; a transition that fails computes
its expiry and does not save it. So two stores that were asked for different things differ in which
rows are still to be expired. They have the same view at a time when the same rows come out of
`expireJob` then, and a view decides what a write answers.

* `transitionJob_expireJob`: a transition of a job is that of the expired one.
* `NodeTasks.view`, `WorkerTasks.view`: the rows of a store once their expiry is settled.
* `lazy_expiry_invisible`: **reads that are put into a history are not seen** by the writes of the
  history, and leave the same rows.
-/

namespace GrantTap

open Js Unobserved

/-! ## One job -/

/-- A row without the place of its ciphertext. -/
def Job.record (row : Job) : Job := { row with cipher := none }

/-- What does not read the place of the ciphertext is the same of rows with one record. -/
theorem congr_record {α : Type} {f : Job → α} (hf : ∀ row, f row.record = f row) {a b : Job}
    (h : a.record = b.record) : f a = f b := by
  rw [← hf a, h, hf b]

/-- A queued row has no claim. -/
def Job.Unclaimed (row : Job) : Prop := row.state = .queued → row.claimId = none

theorem record_expireJob (row : Job) (now : ℤ) :
    (expireJob row now).record = expireJob row.record now := by
  unfold expireJob
  rw [show expires row.record now = expires row now from rfl]
  split_ifs <;> rfl

theorem createdAt_expireJob (row : Job) (now : ℤ) :
    (expireJob row now).createdAt = row.createdAt := by
  unfold expireJob
  split_ifs <;> rfl

theorem fingerprint_expireJob (row : Job) (now : ℤ) :
    (expireJob row now).fingerprint = row.fingerprint := by
  unfold expireJob
  split_ifs <;> rfl

/-- A job that is expired now is so later. -/
theorem expireJob_later (row : Job) {now now' : ℤ} (h : now ≤ now') :
    expireJob (expireJob row now) now' = expireJob row now' := by
  by_cases hexpires : expires row now = true
  · have hlater : expires row now' = true := by
      simp only [expires, Bool.and_eq_true, decide_eq_true_eq] at hexpires ⊢
      exact ⟨hexpires.1, hexpires.2.trans h⟩
    rw [expireJob.eq_1 row now, if_pos hexpires, expireJob.eq_1 row now', if_pos hlater]
    exact if_neg (by simp [expires, retireJob])
  · rw [expireJob.eq_1 row now, if_neg hexpires]

theorem validProof_expireJob (row : Job) (proof : Value) (now : ℤ) (proofHash : Str) :
    validProof (expireJob row now) proof proofHash = validProof row proof proofHash := by
  unfold expireJob
  split_ifs
  · unfold validProof retireJob
    rw [Json.get_without (by decide)]
  · rfl

/-- **A transition settles the expiry of its job.** -/
theorem transitionJob_expireJob {row : Job} (hrow : row.Unclaimed) (action : TaskAction)
    (body : Value) (now : ℤ) (proofHash : Str) :
    transitionJob (expireJob row now) action body now proofHash =
      transitionJob row action body now proofHash := by
  cases action with
  | claim =>
    unfold transitionJob claimJob
    rw [validProof_expireJob, expireJob_later row le_rfl]
  | finish =>
    unfold transitionJob finishJob
    dsimp only
    rw [validProof_expireJob]
    by_cases hexpires : expires row now = true
    · -- neither the queued row nor the expired one has a claim
      have hclaim : row.claimId = none := by
        simp only [expires, Bool.and_eq_true, decide_eq_true_eq] at hexpires
        exact hrow hexpires.1
      have hclaim' : (expireJob row now).claimId = none := by
        rw [expireJob, if_pos hexpires]
        exact hclaim
      rw [hclaim, hclaim']
      cases validProof row body proofHash with
      | error e => rfl
      | ok valid => cases valid <;> rfl
    · rw [expireJob, if_neg hexpires]
  | cancel =>
    unfold transitionJob cancelJob
    dsimp only
    rw [expireJob_later row le_rfl]

/-- The reply with a row that has no place of its ciphertext. -/
def JobResult.record (result : JobResult) : JobResult :=
  { result with row := result.row.map Job.record }

/-- A transition passes the place of the ciphertext on. -/
theorem transitionJob_record (row : Job) (action : TaskAction) (body : Value) (now : ℤ)
    (proofHash : Str) : transitionJob row.record action body now proofHash =
      (transitionJob row action body now proofHash).map JobResult.record := by
  cases action with
  | claim =>
    unfold transitionJob claimJob
    dsimp only
    rw [← record_expireJob]
    generalize expireJob row now = current
    refine Early.map_attempt fun valid => Early.map_require rfl (Early.map_demand rfl fun claimId => ?_)
    refine Early.map_require ?_ (Early.map_require rfl rfl)
    rw [show current.record.claimId = current.claimId from rfl]
    split_ifs <;> rfl
  | finish =>
    unfold transitionJob finishJob
    refine Early.map_attempt fun valid => Early.map_require rfl (Early.map_demand rfl fun claimId => ?_)
    refine Early.map_require rfl (Early.map_demand rfl fun state => ?_)
    refine Early.map_require rfl (Early.map_require rfl (Early.map_require rfl ?_))
    refine Early.map_attempt fun valid => Early.map_require rfl ?_
    dsimp only
    split_ifs <;> rfl
  | cancel =>
    unfold transitionJob cancelJob
    dsimp only
    rw [← record_expireJob]
    rw [show (expireJob row now).record.state = (expireJob row now).state from rfl]
    split_ifs <;> rfl

/-! ## Histories with reads -/

namespace TaskCall

/-- A put, or a transition. -/
def writes : TaskCall → Bool
  | put .. => true
  | transition .. => true
  | _ => false

def cleans : TaskCall → Bool
  | clean _ => true
  | _ => false

end TaskCall

/-- Time does not queue a claimed job. -/
theorem Aged.unclaimed {now : ℤ} {x y : Option Receipt} (h : Aged now x y)
    (hx : ∀ r, x = some r → r.state = .queued → r.claimId = none) {r : Receipt} (hr : y = some r)
    (hqueued : r.state = .queued) : r.claimId = none := by
  cases h with
  | keep => exact hx r hr hqueued
  | expire r₀ =>
    cases hr
    cases hqueued

/-- No call queues a claimed job. -/
theorem TaskEffect.unclaimed {hash : Value → Except Throw Str} {now : ℤ} {f g : Jobs}
    {c : TaskCall} {a : Except Throw TaskAnswer} (h : TaskEffect hash now f g c a)
    (hf : ∀ k r, receiptAt f k = some r → r.state = .queued → r.claimId = none) (k : RoomKey)
    (r : Receipt) (hr : receiptAt g k = some r) (hqueued : r.state = .queued) :
    r.claimId = none := by
  -- a transition leaves a row that is not queued, and the rows at other keys
  have moved {k' : RoomKey} {r' : Receipt} (hstate : r'.state ≠ .queued)
      (hat : receiptAt g k' = some r') (hother : ∀ k, k ≠ k' → receiptAt g k = receiptAt f k) :
      r.claimId = none := by
    by_cases hk : k = k'
    · rw [hk, hat] at hr
      obtain rfl := Option.some_inj.1 hr
      exact absurd hqueued hstate
    · exact hf k r ((hother k hk).symm.trans hr) hqueued
  cases h with
  | aged _ _ haged => exact (haged k).unclaimed (hf k) hr hqueued
  | created room id body job row reply _ _ _ hrow _ hclaim _ hother =>
    by_cases hk : k = (room, id)
    · rw [hk, receiptAt_of_job hrow] at hr
      obtain rfl := Option.some_inj.1 hr
      exact hclaim
    · exact (hother k hk).unclaimed (hf k) hr hqueued
  | cleaned _ _ hcleaned =>
    rcases hcleaned k with haged | ⟨_, -, -, hgone⟩
    · exact haged.unclaimed (hf k) hr hqueued
    · rw [hgone] at hr
      cases hr
  | claimed room id proof row row' claimId reply _ _ _ heffect _ hat hother =>
    refine moved ?_ hat hother
    cases heffect with
    | again hstate => exact fun h => absurd (hstate.symm.trans h) (by decide)
    | won => exact fun h => by cases h
  | finished room id proof row claimId state _ _ _ _ _ hstate _ hat hother =>
    refine moved ?_ hat hother
    rcases hstate with rfl | rfl <;> exact fun h => by cases h
  | cancelled room id proof row _ _ _ hat hother =>
    exact moved (fun h => by cases h) hat hother

namespace JobStore

variable (S : JobStore)

/-- One call at its time. -/
def step (s : S.State) (e : ℤ × TaskCall) : Except Throw TaskAnswer × S.State := S.call s e.1 e.2

/-- The row at a key once its expiry is settled, but for the place of its ciphertext. -/
def settled (now : ℤ) (s : S.State) (k : RoomKey) : Option Job :=
  (S.job s k).map fun row => (expireJob row now).record

/-- The calls that write answer the same without the other calls, and the rows are the same once
their expiry is settled. -/
def ExpiresInvisibly : Prop :=
  ∀ calls : List (ℤ × TaskCall), (calls.map Prod.fst).Pairwise (· ≤ ·) →
    (∀ e ∈ calls, e.2.cleans = false) →
    answers S.step (fun e => e.2.writes) S.empty calls =
        answers S.step (fun e => e.2.writes) S.empty (calls.filter fun e => e.2.writes) ∧
      ∀ now, (∀ e ∈ calls, e.1 ≤ now) → ∀ k, S.settled now (after S.step S.empty calls) k =
        S.settled now (after S.step S.empty (calls.filter fun e => e.2.writes)) k

/-- No queued row has a claim. -/
def Unclaimed (s : S.State) : Prop := ∀ k row, S.job s k = some row → row.Unclaimed

variable {S}

theorem unclaimed_empty : S.Unclaimed S.empty := fun k row h => by
  rw [S.job_empty k] at h
  cases h

theorem Unclaimed.call {s : S.State} (h : S.Unclaimed s) (now : ℤ) (c : TaskCall) :
    S.Unclaimed (S.call s now c).2 := by
  have hbefore : ∀ k r, receiptAt (S.job s) k = some r → r.state = .queued → r.claimId = none := by
    intro k r hr
    obtain ⟨row, hrow, rfl⟩ := Option.map_eq_some_iff.1 hr
    exact h k row hrow
  have hafter : ∀ k r, receiptAt (S.job (S.call s now c).2) k = some r → r.state = .queued →
      r.claimId = none := fun k r hr => (S.effect s now c).unclaimed hbefore k r hr
  exact fun k row hrow => hafter k _ (receiptAt_of_job hrow)

/-- **The rule**: a relation that hides reads, and under which rows settle alike. -/
theorem expiresInvisibly_of (Same : ℤ → S.State → S.State → Prop)
    (hempty : ∀ now, Same now S.empty S.empty)
    (hhides : Hides S.step Prod.fst (fun e => e.2.writes) (fun e => e.2.cleans = false) Same)
    (hsettled : ∀ {now s t}, Same now s t → ∀ k, S.settled now s k = S.settled now t k) :
    S.ExpiresInvisibly := by
  intro calls hsorted hcleans
  have hplay : ∀ now, (∀ e ∈ calls, e.1 ≤ now) →
      answers S.step (fun e => e.2.writes) S.empty calls =
          answers S.step (fun e => e.2.writes) S.empty (calls.filter fun e => e.2.writes) ∧
        Same now (after S.step S.empty calls)
          (after S.step S.empty (calls.filter fun e => e.2.writes)) := by
    intro now hnow
    cases calls with
    | nil => exact ⟨rfl, hempty now⟩
    | cons e calls =>
      have hstart : ∀ e' ∈ e :: calls, e.1 ≤ e'.1 := by
        rw [List.map_cons, List.pairwise_cons] at hsorted
        intro e' he'
        rcases List.mem_cons.1 he' with rfl | he'
        · exact le_rfl
        · exact hsorted.1 _ (List.mem_map_of_mem he')
      exact hhides.play hsorted hcleans hstart (hempty e.1) (hnow e List.mem_cons_self) hnow
  refine ⟨?_, fun now hnow k => hsettled (hplay now hnow).2 k⟩
  obtain ⟨last, hlast⟩ := Runs.exists_bound Int.le_total Prod.fst 0 calls
  exact (hplay last hlast).1

end JobStore

/-! ## Node -/

namespace NodeTasks

variable {sha256 : Str → Str} {s t : NodeTasks} {room id : Str} {now now' : ℤ}

/-- The rows once their expiry is settled. -/
def view (now : ℤ) (s : NodeTasks) : Table RoomKey TaskRow := s.jobs.map fun _ => TaskRow.expire now

/-- The result of an operation, with the view of the store it leaves. -/
def seen {α : Type} (now : ℤ) (r : Except Throw (α × NodeTasks)) :
    Except Throw (α × Table RoomKey TaskRow) := r.map fun p => (p.1, p.2.view now)

theorem expire_later (row : TaskRow) (h : now ≤ now') :
    (row.expire now).expire now' = row.expire now' := by
  cases row with
  | saved row => simp only [TaskRow.expire, expireJob_later row.job h]
  | corrupt record => rfl

theorem view_later (s : NodeTasks) (h : now ≤ now') :
    (s.view now).map (fun _ => TaskRow.expire now') = s.view now' := by
  rw [view, Table.map_map]
  exact Table.map_congr fun _ row => expire_later row h

theorem view_expireQueued (s : NodeTasks) (room : Str) (now : ℤ) :
    (s.expireQueued room now).view now = s.view now := by
  rw [view, expireQueued, Table.map_map]
  refine Table.map_congr fun k row => ?_
  split_ifs
  · exact expire_later row le_rfl
  · rfl

/-- The rows of a room are those of the view, once they are saved. -/
theorem roomJobs_expireQueued (s : NodeTasks) (room : Str) (now : ℤ) :
    (s.expireQueued room now).roomJobs room = (roomRows (s.view now) room).map Prod.snd := by
  rw [roomJobs, expireQueued, view, roomRows_map, roomRows_map]
  refine congrArg (List.map Prod.snd) (List.map_congr_left fun r hr => ?_)
  rw [if_pos (mem_roomRows.1 hr).2]

/-- A read leaves the view. -/
theorem view_read {c : TaskCall} (hwrites : c.writes = false) (hcleans : c.cleans = false) :
    ((s.call sha256 now c).2).view now = s.view now := by
  refine call_cases (P := fun r => r.2.view now = s.view now) (fun _ _ => rfl) fun a t h => ?_
  cases c with
  | put => cases hwrites
  | transition => cases hwrites
  | clean => cases hcleans
  | list room =>
    obtain ⟨jobs, hr, -⟩ := answer_ok h
    obtain ⟨rows, -, hr⟩ := except_bind_ok.1 hr
    cases hr
    exact view_expireQueued s room now
  | listActive room =>
    obtain ⟨jobs, hr, -⟩ := answer_ok h
    obtain ⟨rows, -, hr⟩ := except_bind_ok.1 hr
    cases hr
    exact view_expireQueued s room now
  | getPublic room id metadataOnly =>
    obtain ⟨found, hr, -⟩ := answer_ok h
    obtain ⟨saved, -, hr⟩ := except_bind_ok.1 hr
    cases hr
    exact view_expireQueued s room now
  | due room recipientKeyId excluded =>
    cases h
    exact view_expireQueued s room now

theorem get?_view (now : ℤ) (s : NodeTasks) (k : RoomKey) :
    (s.view now).get? k = (s.jobs.get? k).map (TaskRow.expire now) := Table.get?_map _ _ _

/-- Two stores with the same view have rows with the same expired form. -/
inductive Rows (now : ℤ) : Except Throw (Option Job) → Except Throw (Option Job) → Prop
  | corrupt (e : Throw) : Rows now (.error e) (.error e)
  | absent : Rows now (.ok none) (.ok none)
  | job (a b : Job) : expireJob a now = expireJob b now → Rows now (.ok (some a)) (.ok (some b))

theorem get_of_view (h : s.view now = t.view now) (room id : Str) :
    Rows now (s.get room id) (t.get room id) := by
  have hrow : (s.jobs.get? (room, id)).map (TaskRow.expire now) =
      (t.jobs.get? (room, id)).map (TaskRow.expire now) := by
    rw [← get?_view, ← get?_view, h]
  unfold get
  generalize s.jobs.get? (room, id) = x at hrow ⊢
  generalize t.jobs.get? (room, id) = y at hrow ⊢
  rcases x with _ | x <;> rcases y with _ | y
  · exact .absent
  · cases hrow
  · cases hrow
  · have hrow := Option.some_inj.1 hrow
    rcases x with a | record <;> rcases y with b | record'
    · simp only [TaskRow.expire, TaskRow.saved.injEq, SavedJob.mk.injEq] at hrow
      exact .job a.job b.job hrow
    · cases hrow
    · cases hrow
    · exact .corrupt _

theorem seen_save (h : s.view now = t.view now) {α : Type} (room : Str) (row : Job) (a : α) :
    seen now ((s.save room row).map fun u => (a, u)) =
      seen now ((t.save room row).map fun u => (a, u)) := by
  unfold save
  by_cases hb : bindable (row.envelope.get (lit "recipientKeyId")) = true
  · simp only [dif_pos hb]
    refine congrArg (fun v => Except.ok (a, v)) ?_
    dsimp only [view]
    rw [Table.map_put, Table.map_put]
    exact congrArg (fun v => Table.put v _ _) h
  · simp only [dif_neg hb]

/-- **A transition answers from the view.** -/
theorem seen_transition (h : s.view now = t.view now) (hs : (store sha256).Unclaimed s)
    (ht : (store sha256).Unclaimed t) (action : TaskAction) (body : Value) :
    seen now (s.transitionInTransaction sha256 room id action body now) =
      seen now (t.transitionInTransaction sha256 room id action body now) := by
  have hsget := fun row (hrow : s.get room id = .ok (some row)) => hs (room, id) row (get_eq_ok hrow)
  have htget := fun row (hrow : t.get room id = .ok (some row)) => ht (room, id) row (get_eq_ok hrow)
  unfold transitionInTransaction
  have hrows := get_of_view h room id
  generalize s.get room id = x at *
  generalize t.get room id = y at *
  cases hrows with
  | corrupt e => rfl
  | absent => exact congrArg (fun v => Except.ok (_, v)) h
  | job a b hab =>
    dsimp only [bind, Except.bind]
    cases actionHash sha256 action body with
    | error e => rfl
    | ok proofHash =>
      dsimp only
      rw [← transitionJob_expireJob (hsget a rfl), hab, transitionJob_expireJob (htget b rfl)]
      cases transitionJob b action body now proofHash with
      | error e => rfl
      | ok result =>
        dsimp only
        cases result.row with
        | none => exact congrArg (fun v => Except.ok (_, v)) h
        | some row' => exact seen_save h room row' _

/-- **A put answers from the view.** -/
theorem seen_put (h : s.view now = t.view now) (body : Value) :
    seen now (s.putInTransaction sha256 room id body now) =
      seen now (t.putInTransaction sha256 room id body now) := by
  unfold putInTransaction
  have hrows := get_of_view h room id
  generalize s.get room id = x at *
  generalize t.get room id = y at *
  cases hrows with
  | corrupt e => rfl
  | absent =>
    dsimp only [bind, Except.bind, Option.elim_none]
    cases normalizeJob room id body now with
    | error e => rfl
    | ok parsed =>
      cases parsed with
      | none => exact congrArg (fun v => Except.ok (_, v)) h
      | some job =>
        dsimp only
        have hexpired : (s.expireQueued room now).view now = (t.expireQueued room now).view now := by
          rw [view_expireQueued, view_expireQueued, h]
        rw [roomJobs_expireQueued, roomJobs_expireQueued, h]
        split_ifs
        · exact congrArg (fun v => Except.ok (_, v)) hexpired
        · exact seen_save hexpired room _ _
  | job a b hab =>
    have hcreated : a.createdAt = b.createdAt := by
      rw [← createdAt_expireJob a now, hab, createdAt_expireJob]
    have hfingerprint : a.fingerprint = b.fingerprint := by
      rw [← fingerprint_expireJob a now, hab, fingerprint_expireJob]
    dsimp only [bind, Except.bind, Option.elim_some]
    rw [hcreated]
    cases normalizeJob room id body b.createdAt with
    | error e => rfl
    | ok parsed =>
      cases parsed with
      | none => exact congrArg (fun v => Except.ok (_, v)) h
      | some job =>
        dsimp only
        rw [hfingerprint, hab]
        split_ifs <;> exact congrArg (fun v => Except.ok (_, v)) h

theorem seen_call {r r' : Except Throw (Reply × NodeTasks)} (h : s.view now = t.view now)
    (hr : seen now r = seen now r') :
    (s.transact (answer .reply r)).1 = (t.transact (answer .reply r')).1 ∧
      (s.transact (answer .reply r)).2.view now = (t.transact (answer .reply r')).2.view now := by
  rcases r with e | ⟨reply, u⟩ <;> rcases r' with e' | ⟨reply', u'⟩ <;>
    simp only [seen, Except.map, Except.ok.injEq, Except.error.injEq, Prod.mk.injEq,
      reduceCtorEq] at hr
  · exact ⟨congrArg Except.error hr, h⟩
  · exact ⟨congrArg (fun reply => Except.ok (TaskAnswer.reply reply)) hr.1, hr.2⟩

theorem settled_of_view (h : s.view now = t.view now) (k : RoomKey) :
    (store sha256).settled now s k = (store sha256).settled now t k := by
  have hsettled : ∀ s : NodeTasks, (store sha256).settled now s k =
      (contentJob ((s.view now).get? k)).map Job.record := by
    intro s
    rw [get?_view]
    change (s.job k).map _ = _
    rw [job_eq_contentJob]
    rcases s.jobs.get? k with _ | ⟨row⟩ | ⟨record⟩ <;> rfl
  rw [hsettled, hsettled, h]

/-- **Reads of the Node store are not seen.** -/
theorem expiresInvisibly (sha256 : Str → Str) : (store sha256).ExpiresInvisibly := by
  refine JobStore.expiresInvisibly_of (fun now (s t : NodeTasks) =>
    s.view now = t.view now ∧ (store sha256).Unclaimed s ∧ (store sha256).Unclaimed t) ?_ ?_ ?_
  · exact fun now => ⟨rfl, JobStore.unclaimed_empty, JobStore.unclaimed_empty⟩
  · constructor
    · rintro s t now now' hle ⟨hview, hs, ht⟩
      refine ⟨?_, hs, ht⟩
      rw [← view_later s hle, ← view_later t hle, hview]
    · rintro s t ⟨now, c⟩ hwrites - ⟨hview, hs, ht⟩
      have hcall : (s.call sha256 now c).1 = (t.call sha256 now c).1 ∧
          (s.call sha256 now c).2.view now = (t.call sha256 now c).2.view now := by
        cases c with
        | put room id body => exact seen_call hview (seen_put hview body)
        | transition room id action body =>
          exact seen_call hview (seen_transition hview hs ht action body)
        | _ => cases hwrites
      exact ⟨hcall.1, hcall.2, hs.call now c, ht.call now c⟩
    · rintro s t ⟨now, c⟩ hwrites hcleans ⟨hview, hs, ht⟩
      exact ⟨(view_read hwrites hcleans).trans hview, hs.call now c, ht⟩
  · exact fun h => settled_of_view h.1

end NodeTasks

/-! ## Worker -/

/-- What the Worker stores of a row, but for the place of its ciphertext. -/
def Job.stored (row : Job) : Job :=
  { row with envelope := row.envelope.without [lit "box"], cipher := none }

theorem stored_expireJob {row : Job} {now : ℤ} (h : expires row now = true) :
    expireJob (expireJob row now).stored now = (expireJob row now).record := by
  have hbox : (row.envelope.without ciphertextFields).without [lit "box"] =
      row.envelope.without ciphertextFields := Json.without_of_subset (by decide) _
  rw [expireJob.eq_1 row now, if_pos h, expireJob, if_neg (by simp [expires, retireJob, Job.stored])]
  simp only [Job.stored, Job.record, retireJob, hbox]

/-- The rows of a room occupy what their records occupy. -/
theorem occupied_of_record {rows rows' : List Job}
    (h : rows.map Job.record = rows'.map Job.record) :
    rows.length = rows'.length ∧
      (rows.filter retainsTaskPayload).map Job.bytes =
        (rows'.filter retainsTaskPayload).map Job.bytes := by
  have hlength := congrArg List.length h
  have hactive := congrArg (fun rows : List Job => (rows.filter retainsTaskPayload).map Job.bytes) h
  rw [List.filter_map, List.filter_map, List.map_map, List.map_map] at hactive
  rw [List.length_map, List.length_map] at hlength
  exact ⟨hlength, hactive⟩

namespace WorkerTasks

variable {sha256 : Str → Str} {s t : WorkerTasks} {room id : Str} {now now' : ℤ}

/-- The rows once their expiry is settled, but for the places of their ciphertexts. -/
def view (now : ℤ) (s : WorkerTasks) : Table RoomKey Job :=
  s.jobs.map fun _ row => (expireJob row now).record

theorem get?_view (now : ℤ) (s : WorkerTasks) (k : RoomKey) :
    (s.view now).get? k = (s.jobs.get? k).map fun row => (expireJob row now).record :=
  Table.get?_map _ _ _

theorem view_later (s : WorkerTasks) (h : now ≤ now') :
    (s.view now).map (fun _ row => (expireJob row now').record) = s.view now' := by
  rw [view, Table.map_map]
  refine Table.map_congr fun _ row => ?_
  rw [← record_expireJob, expireJob_later row h]
  rfl

theorem view_writeTaskJob (s : WorkerTasks) (key : RoomKey) (input : Job) :
    (s.writeTaskJob sha256 key input).view now =
      (s.view now).put key (expireJob input.stored now) := by
  obtain ⟨cipher, h⟩ := writeTaskJob_jobs sha256 s key input
  rw [view, h, Table.map_put, record_expireJob]
  rfl

/-- Writing an expired row back leaves the view. -/
theorem view_expireSaved (sha256 : Str → Str) {r : RoomKey × Job} (hid : r.2.id = r.1.2)
    (hr : (s.view now).get? r.1 = some (expireJob r.2 now).record) :
    (s.expireSaved sha256 now r).view now = s.view now := by
  unfold expireSaved
  split_ifs with h
  · rw [view_writeTaskJob, stored_expireJob h, hid]
    exact Table.put_eq_self hr
  · rfl

/-- `rows`, as the view shows it. -/
theorem seen_rows (hs : s.Named) (sha256 : Str → Str) (room : Str) (now : ℤ) :
    (s.rows sha256 room now).map (fun p => (p.1.map Job.record, p.2.view now)) =
      (boundedRecords (roomRows (s.view now) room)).map fun records =>
        (records.map Prod.snd, s.view now) := by
  have hview : ((roomRows s.jobs room).foldl (expireSaved sha256 now) s).view now = s.view now := by
    refine List.foldlRecOn (motive := fun u : WorkerTasks => u.view now = s.view now) _ _ rfl ?_
    intro u hu r hr
    have hget := (mem_roomRows.1 hr).1
    rw [view_expireSaved sha256 (hs _ _ hget).1, hu]
    rw [hu, get?_view, hget]
    rfl
  have hrecords : roomRows (s.view now) room =
      (roomRows s.jobs room).map fun r => (r.1, (expireJob r.2 now).record) := roomRows_map _ _ _
  unfold rows boundedRecords
  rw [hrecords, List.length_map]
  by_cases hover : ROOM_RECEIPT_LIMIT + ROOM_JOB_LIMIT < (roomRows s.jobs room).length
  · rw [if_pos hover, if_pos hover]
    rfl
  · rw [if_neg hover, if_neg hover]
    simp only [bind, Except.bind, pure, Except.pure, Except.map, hview, List.map_map]
    rfl

/-- The result of an operation, with the view of the storage it leaves. -/
def seen {α : Type} (now : ℤ) (r : Except Throw (α × WorkerTasks)) :
    Except Throw (α × Table RoomKey Job) := r.map fun p => (p.1, p.2.view now)

theorem view_rows (hs : s.Named) {jobs : List Job} (h : s.rows sha256 room now = .ok (jobs, t)) :
    t.view now = s.view now := by
  have hseen := seen_rows hs sha256 room now
  rw [h] at hseen
  unfold boundedRecords at hseen
  split_ifs at hseen
  · cases hseen
  · exact congrArg Prod.snd (Except.ok.inj hseen)

theorem view_whole {α : Type} {f : α → TaskAnswer} {r : Except Throw (α × WorkerTasks)}
    (h : ∀ a u, r = .ok (a, u) → u.view now = s.view now) :
    (s.whole f r).2.view now = s.view now := by
  cases r with
  | error e => rfl
  | ok p => exact h p.1 p.2 rfl

/-- A read leaves the view. -/
theorem view_read (hs : s.Named) {c : TaskCall} (hwrites : c.writes = false)
    (hcleans : c.cleans = false) : ((s.call sha256 now c).2).view now = s.view now := by
  cases c with
  | put => cases hwrites
  | transition => cases hwrites
  | clean => cases hcleans
  | list room =>
    refine view_whole fun jobs u h => ?_
    obtain ⟨⟨rows, u'⟩, hrows, hr⟩ := except_bind_ok.1 h
    cases hr
    exact view_rows hs hrows
  | listActive room =>
    refine view_whole fun jobs u h => ?_
    obtain ⟨⟨all, u'⟩, hlist, hr⟩ := except_bind_ok.1 h
    obtain ⟨⟨rows, u''⟩, hrows, hr'⟩ := except_bind_ok.1 hlist
    cases hr'
    cases hr
    exact view_rows hs hrows
  | getPublic room id metadataOnly =>
    change (s.getPublic sha256 room id now metadataOnly).2.view now = s.view now
    unfold getPublic
    cases hrow : s.jobs.get? (room, id) with
    | none => rfl
    | some row =>
      have hid := (hs _ _ hrow).1
      have hget : (s.view now).get? (room, id) = some (expireJob row now).record := by
        rw [get?_view, hrow]
        rfl
      have hexpired := view_expireSaved sha256 (r := ((room, id), row)) hid hget
      unfold expireSaved at hexpired
      dsimp only at hexpired hid ⊢
      rwa [hid] at hexpired
  | due room recipientKeyId excluded =>
    change (s.due sha256 room recipientKeyId now excluded).2.view now = s.view now
    unfold due
    cases h : s.rows sha256 room now with
    | error e => rfl
    | ok p =>
      obtain ⟨rows, u⟩ := p
      dsimp only
      split <;> exact view_rows hs h

/-- **A transition answers from the view.** -/
theorem seen_transition (h : s.view now = t.view now)
    (hs : ∀ k row, s.jobs.get? k = some row → row.Unclaimed)
    (ht : ∀ k row, t.jobs.get? k = some row → row.Unclaimed) (action : TaskAction) (body : Value) :
    seen now (s.transition sha256 room id action body now) =
      seen now (t.transition sha256 room id action body now) := by
  have hrow : (s.jobs.get? (room, id)).map (fun row => (expireJob row now).record) =
      (t.jobs.get? (room, id)).map fun row => (expireJob row now).record := by
    rw [← get?_view, ← get?_view, h]
  have hs := hs (room, id)
  have ht := ht (room, id)
  unfold transition
  dsimp only [bind, Except.bind, digestToken]
  generalize s.jobs.get? (room, id) = x at *
  generalize t.jobs.get? (room, id) = y at *
  rcases x with _ | a <;> rcases y with _ | b
  · exact congrArg (fun v => Except.ok (_, v)) h
  · cases hrow
  · cases hrow
  · have hab : (expireJob a now).record = (expireJob b now).record := Option.some_inj.1 hrow
    have hresults : ∀ proofHash, (transitionJob a action body now proofHash).map JobResult.record =
        (transitionJob b action body now proofHash).map JobResult.record := by
      intro proofHash
      rw [← transitionJob_expireJob (hs a rfl), ← transitionJob_expireJob (ht b rfl),
        ← transitionJob_record, ← transitionJob_record, hab]
    have hresult := hresults (sha256 ((body.get (lit "token")).str?.getD []))
    dsimp only
    generalize transitionJob a action body now _ = r at *
    generalize transitionJob b action body now _ = r' at *
    rcases r with e | ⟨status, row, error⟩ <;> rcases r' with e' | ⟨status', row', error'⟩ <;>
      simp only [Except.map, JobResult.record, Except.ok.injEq, Except.error.injEq,
        JobResult.mk.injEq, reduceCtorEq] at hresult
    · rw [hresult]
    · obtain ⟨rfl, hrows, rfl⟩ := hresult
      rcases row with _ | row <;> rcases row' with _ | row'
      · exact congrArg (fun v => Except.ok (_, v)) h
      · cases hrows
      · cases hrows
      · have hrecord : row.record = row'.record := Option.some_inj.1 hrows
        have hpublic : publicJob row = publicJob row' := congr_record (fun _ => rfl) hrecord
        have hstored : row.stored = row'.stored := congr_record (fun _ => rfl) hrecord
        dsimp only
        rw [hpublic]
        refine congrArg (fun v => Except.ok (_, v)) ?_
        rw [view_writeTaskJob, view_writeTaskJob, h, hstored]

/-- **A put answers from the view.** -/
theorem seen_put (h : s.view now = t.view now) (hs : s.Named) (ht : t.Named) (body : Value) :
    seen now (s.put sha256 room id body now) = seen now (t.put sha256 room id body now) := by
  have hrow : (s.jobs.get? (room, id)).map (fun row => (expireJob row now).record) =
      (t.jobs.get? (room, id)).map fun row => (expireJob row now).record := by
    rw [← get?_view, ← get?_view, h]
  unfold put
  dsimp only [bind, Except.bind]
  generalize s.jobs.get? (room, id) = x at *
  generalize t.jobs.get? (room, id) = y at *
  rcases x with _ | a <;> rcases y with _ | b
  · dsimp only [Option.elim_none]
    cases normalizeJob room id body now with
    | error e => rfl
    | ok parsed =>
      cases parsed with
      | none => exact congrArg (fun v => Except.ok (_, v)) h
      | some job =>
        dsimp only
        have hrows := seen_rows hs sha256 room now
        rw [h, ← seen_rows ht sha256 room now] at hrows
        generalize s.rows sha256 room now = r at *
        generalize t.rows sha256 room now = r' at *
        rcases r with e | ⟨rows, u⟩ <;> rcases r' with e' | ⟨rows', u'⟩ <;>
          simp only [Except.map, Except.ok.injEq, Except.error.injEq, Prod.mk.injEq,
            reduceCtorEq] at hrows
        · rw [hrows]
        · obtain ⟨hrecords, hview⟩ := hrows
          obtain ⟨hlength, hbytes⟩ := occupied_of_record hrecords
          have hactive := congrArg List.length hbytes
          rw [List.length_map, List.length_map] at hactive
          dsimp only
          rw [hlength, hactive, hbytes]
          split_ifs
          · exact congrArg (fun v => Except.ok (_, v)) hview
          · refine congrArg (fun v => Except.ok (_, v)) ?_
            rw [view_writeTaskJob, view_writeTaskJob, hview]
  · cases hrow
  · cases hrow
  · have hab : (expireJob a now).record = (expireJob b now).record := Option.some_inj.1 hrow
    have hcreated : a.createdAt = b.createdAt := by
      rw [← createdAt_expireJob a now, ← createdAt_expireJob b now]
      exact congr_record (fun _ => rfl) hab
    have hfingerprint : a.fingerprint = b.fingerprint := by
      rw [← fingerprint_expireJob a now, ← fingerprint_expireJob b now]
      exact congr_record (fun _ => rfl) hab
    have hpublic : publicJob (expireJob a now) = publicJob (expireJob b now) :=
      congr_record (fun _ => rfl) hab
    dsimp only [Option.elim_some]
    rw [hcreated]
    cases normalizeJob room id body b.createdAt with
    | error e => rfl
    | ok parsed =>
      cases parsed with
      | none => exact congrArg (fun v => Except.ok (_, v)) h
      | some job =>
        dsimp only
        rw [hfingerprint, hpublic]
        split_ifs <;> exact congrArg (fun v => Except.ok (_, v)) h

theorem seen_whole {r r' : Except Throw (Reply × WorkerTasks)} (h : s.view now = t.view now)
    (hr : seen now r = seen now r') :
    (s.whole TaskAnswer.reply r).1 = (t.whole TaskAnswer.reply r').1 ∧
      (s.whole TaskAnswer.reply r).2.view now = (t.whole TaskAnswer.reply r').2.view now := by
  rcases r with e | ⟨reply, u⟩ <;> rcases r' with e' | ⟨reply', u'⟩ <;>
    simp only [seen, Except.map, Except.ok.injEq, Except.error.injEq, Prod.mk.injEq,
      reduceCtorEq] at hr
  · exact ⟨congrArg Except.error hr, h⟩
  · exact ⟨congrArg (fun reply => Except.ok (TaskAnswer.reply reply)) hr.1, hr.2⟩

/-- **Reads of the Worker store are not seen.** -/
theorem expiresInvisibly (sha256 : Str → Str) : (store sha256).ExpiresInvisibly := by
  refine JobStore.expiresInvisibly_of (fun now (s t : (store sha256).State) =>
    s.1.view now = t.1.view now ∧ (store sha256).Unclaimed s ∧ (store sha256).Unclaimed t) ?_ ?_ ?_
  · exact fun now => ⟨rfl, JobStore.unclaimed_empty, JobStore.unclaimed_empty⟩
  · constructor
    · rintro s t now now' hle ⟨hview, hs, ht⟩
      refine ⟨?_, hs, ht⟩
      rw [← view_later s.1 hle, ← view_later t.1 hle, hview]
    · rintro s t ⟨now, c⟩ hwrites - ⟨hview, hs, ht⟩
      have hcall : (s.1.call sha256 now c).1 = (t.1.call sha256 now c).1 ∧
          (s.1.call sha256 now c).2.view now = (t.1.call sha256 now c).2.view now := by
        cases c with
        | put room id body => exact seen_whole hview (seen_put hview s.2 t.2 body)
        | transition room id action body =>
          exact seen_whole hview (seen_transition hview hs ht action body)
        | _ => cases hwrites
      exact ⟨hcall.1, hcall.2, hs.call now c, ht.call now c⟩
    · rintro s t ⟨now, c⟩ hwrites hcleans ⟨hview, hs, ht⟩
      exact ⟨(view_read s.2 hwrites hcleans).trans hview, hs.call now c, ht⟩
  · intro now s t h k
    have hsettled : ∀ s : (store sha256).State, (store sha256).settled now s k =
        (s.1.view now).get? k := fun s => (get?_view now s.1 k).symm
    rw [hsettled, hsettled, h.1]

end WorkerTasks

/-- **Lazy expiry is invisible.** In both stores: whatever reads are put into a history of puts and
transitions, every call of the history is answered the same, and the rows are the same once their
expiry is settled. -/
theorem lazy_expiry_invisible (sha256 : Str → Str) :
    (NodeTasks.store sha256).ExpiresInvisibly ∧ (WorkerTasks.store sha256).ExpiresInvisibly :=
  ⟨NodeTasks.expiresInvisibly sha256, WorkerTasks.expiresInvisibly sha256⟩

end GrantTap
