import GrantTapRelay.TaskDispatch.Canonical
import GrantTapRelay.TaskDispatch.OneReceiver

/-!
# Submitting a job again

A `put` under the key of a stored row checks its body as of the row's creation and compares the
fingerprint of its text with the row's. So a body that is alike to the accepted one is answered with
the job, another valid one is refused, and the row stays. The exception is a body that comes to a
digest test with a value that has no text: it is answered with an exception.

* `StoresSubmissions`: what `put` does in both stores, with and without a row.
* `Resubmits`: the answer to a body that comes after an accepted one.
* `resubmission_answered`: **when `put` answers so**.
-/

namespace GrantTap

open Js Js.Json Runs

/-! ## Putting -/

/-- What `put` replies for a body that was checked against a row. -/
def replyTo (sha256 : Str → Str) (row : Job) (now : ℤ) (parsed : Option NormalizedJob) : Reply :=
  parsed.elim (.error 400 "invalid encrypted task job") fun job =>
    if row.fingerprint = sha256 job.canonical then ⟨200, .job (publicJob (expireJob row now))⟩
    else .error 409 "job identity already exists"

/-- A store whose `put` compares a body with the row at its key, and stores a new row with the
fingerprint of its text. -/
structure StoresSubmissions (sha256 : Str → Str) (S : JobStore) : Prop where
  again : ∀ {s room id row} (body : Value) (now : ℤ), S.job s (room, id) = some row →
    S.call s now (.put room id body) = ((normalizeJob room id body row.createdAt).map fun parsed =>
      .reply (replyTo sha256 row now parsed), s)
  created : ∀ {s room id body now reply},
    (S.call s now (.put room id body)).1 = .ok (.reply reply) → reply.status = 201 →
    ∃ job row, normalizeJob room id body now = .ok (some job) ∧
      S.job (S.call s now (.put room id body)).2 (room, id) = some row ∧
      row.fingerprint = sha256 job.canonical ∧ row.createdAt = now

namespace NodeTasks

variable {sha256 : Str → Str} {s : NodeTasks} {room id : Str} {row : Job}

theorem get_of_job (h : s.job (room, id) = some row) : s.get room id = .ok (some row) := by
  unfold job at h
  unfold get
  cases hk : s.jobs.get? (room, id) with
  | none =>
    rw [hk] at h
    cases h
  | some saved =>
    rw [hk] at h
    cases saved with
    | saved saved =>
      cases h
      rfl
    | corrupt record => cases h

theorem putInTransaction_again (body : Value) (now : ℤ) (h : s.job (room, id) = some row) :
    s.putInTransaction sha256 room id body now =
      (normalizeJob room id body row.createdAt).map fun parsed =>
        (replyTo sha256 row now parsed, s) := by
  unfold putInTransaction
  rw [get_of_job h]
  change (normalizeJob room id body row.createdAt >>= _) = _
  cases normalizeJob room id body row.createdAt with
  | error t => rfl
  | ok parsed =>
    cases parsed with
    | none => rfl
    | some job =>
      change (if _ then _ else _) = Except.ok (if _ then _ else _, s)
      split_ifs <;> rfl

theorem storesSubmissions (sha256 : Str → Str) : StoresSubmissions sha256 (store sha256) where
  again {s room id row} body now h := by
    change s.transact (answer .reply (s.putInTransaction sha256 room id body now)) = _
    rw [putInTransaction_again body now h]
    cases normalizeJob room id body row.createdAt <;> rfl
  created {s room id body now reply} h hstatus := by
    change (s.transact (answer .reply (s.putInTransaction sha256 room id body now))).1 = _ at h
    change ∃ job row, _ ∧ (s.transact (answer .reply
      (s.putInTransaction sha256 room id body now))).2.job (room, id) = _ ∧ _
    cases hput : s.putInTransaction sha256 room id body now with
    | error t =>
      rw [hput] at h
      cases h
    | ok r =>
      obtain ⟨reply', t⟩ := r
      rw [hput] at h
      cases h
      rcases putInTransaction_ok hput with ⟨-, hno⟩ | ⟨job, -, -, hjob, hsave⟩
      · exact absurd hstatus hno
      · exact ⟨job, _, hjob, (save_ok hsave).1, rfl, rfl⟩

end NodeTasks

namespace WorkerTasks

variable {sha256 : Str → Str} {s : WorkerTasks} {room id : Str} {row : Job}

theorem put_again (body : Value) (now : ℤ) (h : s.jobs.get? (room, id) = some row) :
    s.put sha256 room id body now =
      (normalizeJob room id body row.createdAt).map fun parsed =>
        (replyTo sha256 row now parsed, s) := by
  unfold put
  rw [h]
  change (normalizeJob room id body row.createdAt >>= _) = _
  cases normalizeJob room id body row.createdAt with
  | error t => rfl
  | ok parsed =>
    cases parsed with
    | none => rfl
    | some job =>
      change (if _ then _ else _) = Except.ok (if _ then _ else _, s)
      split_ifs <;> rfl

theorem put_created {body : Value} {now : ℤ} {reply : Reply} {t : WorkerTasks}
    (h : s.put sha256 room id body now = .ok (reply, t)) (hstatus : reply.status = 201) :
    ∃ job row, normalizeJob room id body now = .ok (some job) ∧ t.jobs.get? (room, id) = some row ∧
      row.fingerprint = sha256 job.canonical ∧ row.createdAt = now := by
  cases hrow : s.jobs.get? (room, id) with
  | some row =>
    rw [put_again body now hrow] at h
    obtain ⟨parsed, -, hreply⟩ := except_map_ok.1 h
    cases hreply
    have hno : ∀ parsed, (replyTo sha256 row now parsed).status ≠ 201 := by
      intro parsed
      cases parsed with
      | none => exact fun e => absurd (show 400 = 201 from e) (by decide)
      | some job =>
        change (if _ then _ else _ : Reply).status ≠ 201
        split_ifs
        · exact fun e => absurd (show 200 = 201 from e) (by decide)
        · decide
    exact absurd hstatus (hno parsed)
  | none =>
    unfold put at h
    rw [hrow] at h
    obtain ⟨parsed, hparsed, h⟩ := except_bind_ok.1 h
    cases parsed with
    | none =>
      cases h
      exact absurd hstatus (by decide)
    | some job =>
      dsimp only at h
      obtain ⟨⟨rows, s'⟩, -, h⟩ := except_bind_ok.1 h
      dsimp only at h
      split_ifs at h <;> cases h
      · exact absurd hstatus (by decide)
      · obtain ⟨row, hreceipt, -, -, hget⟩ := get?_writeTaskJob sha256 s' (room, id)
          (queuedJob job (sha256 job.canonical) id (some room) now)
        refine ⟨job, row, hparsed, ?_, congrArg Receipt.fingerprint hreceipt,
          congrArg Receipt.createdAt hreceipt⟩
        rw [hget, if_pos rfl]

theorem storesSubmissions (sha256 : Str → Str) : StoresSubmissions sha256 (store sha256) where
  again {s room id row} body now h := by
    have hput := @put_again sha256 s.1 room id row body now h
    have hcall : s.1.call sha256 now (.put room id body) =
        ((normalizeJob room id body row.createdAt).map fun parsed =>
          .reply (replyTo sha256 row now parsed), s.1) := by
      change s.1.whole .reply (s.1.put sha256 room id body now) = _
      rw [hput]
      cases normalizeJob room id body row.createdAt <;> rfl
    refine Prod.ext ?_ (Subtype.ext ?_)
    · exact (congrArg Prod.fst hcall :)
    · exact (congrArg Prod.snd hcall :)
  created {s room id body now reply} h hstatus := by
    change (s.1.whole .reply (s.1.put sha256 room id body now)).1 = _ at h
    change ∃ job row, _ ∧
      (s.1.whole .reply (s.1.put sha256 room id body now)).2.jobs.get? (room, id) = _ ∧ _
    cases hput : s.1.put sha256 room id body now with
    | error t =>
      rw [hput] at h
      cases h
    | ok r =>
      obtain ⟨reply', t⟩ := r
      rw [hput] at h
      cases h
      exact put_created hput hstatus

end WorkerTasks

theorem Runtime.storesSubmissions (sha256 : Str → Str) :
    ∀ runtime : Runtime, StoresSubmissions sha256 (runtime.store sha256)
  | node => NodeTasks.storesSubmissions sha256
  | worker => WorkerTasks.storesSubmissions sha256

/-! ## Answers -/

/-- The body is a job, as of a time. -/
def IsJob (room id : Str) (body : Json) (now : ℤ) : Prop :=
  ∃ job, normalizeJob room id (some body) now = .ok (some job)

namespace JobStore

/-- One call, after which there is still a row at the key. -/
def Keeps (S : JobStore) (k : RoomKey) (s : S.State) (e : ℤ × TaskCall) (t : S.State) : Prop :=
  t = (S.call s e.1 e.2).2 ∧ (S.job t k).isSome = true

/-- The answer to `b'`, put at `now` under the key of a job that `b` created at `t`: the job to a
body that is alike to `b`, 409 to another one that was a job at `t`, and 400 to any other; and every
stored row stays as it is. -/
def Resubmits (S : JobStore) (s : S.State) (room id : Str) (b b' : Json) (t now : ℤ) : Prop :=
  ∃ row reply, S.job s (room, id) = some row ∧
    (S.call s now (.put room id (some b'))).1 = .ok (.reply reply) ∧
    (Alike b b' → reply = ⟨200, .job (publicJob (expireJob row now))⟩) ∧
    (¬Alike b b' → IsJob room id b' t → reply.status = 409) ∧
    (¬Alike b b' → ¬IsJob room id b' t → reply.status = 400) ∧
    S.job (S.call s now (.put room id (some b'))).2 = S.job s

variable {sha256 : Str → Str} {S : JobStore} {s s' : S.State} {room id : Str} {b b' : Json}
  {t now : ℤ}

theorem Resubmits.answered (h : S.Resubmits s room id b b' t now) :
    (S.call s now (.put room id (some b'))).1.isOk = true := by
  obtain ⟨_, _, -, hanswer, -⟩ := h
  rw [hanswer]
  rfl

/-- A row keeps its fingerprint and its creation time as long as it is there. -/
theorem keeps_identity {k : RoomKey} {calls : List (ℤ × TaskCall)} {row : Job}
    (hrun : Run (S.Keeps k) s calls s') (hrow : S.job s k = some row) :
    ∃ row', S.job s' k = some row' ∧ row'.fingerprint = row.fingerprint ∧
      row'.createdAt = row.createdAt := by
  refine hrun.invariant (I := fun u => ∃ row', S.job u k = some row' ∧
    row'.fingerprint = row.fingerprint ∧ row'.createdAt = row.createdAt) ?_ ⟨row, hrow, rfl, rfl⟩
  rintro u ⟨now, c⟩ u' ⟨row', hrow', hfingerprint, hcreated⟩ ⟨rfl, hsome⟩
  obtain ⟨row'', hrow''⟩ := Option.isSome_iff_exists.1 hsome
  have hlawful := (S.effect u now c).lawful k
  rw [receiptAt_of_job hrow', receiptAt_of_job hrow''] at hlawful
  exact ⟨row'', hrow'', hlawful.1.trans hfingerprint, hlawful.2.1.trans hcreated⟩

/-- A row under a key that was accepted, with the text of the accepted body. -/
theorem accepted_row (hS : StoresSubmissions sha256 S) {reply : Reply}
    {calls : List (ℤ × TaskCall)}
    (hput : (S.call s t (.put room id (some b))).1 = .ok (.reply reply))
    (hstatus : reply.status = 201)
    (hrun : Run (S.Keeps (room, id)) (S.call s t (.put room id (some b))).2 calls s') :
    ∃ job row, normalizeJob room id (some b) t = .ok (some job) ∧ S.job s' (room, id) = some row ∧
      row.fingerprint = sha256 job.canonical ∧ row.createdAt = t := by
  obtain ⟨job, row, hjob, hrow, hfingerprint, hcreated⟩ := hS.created hput hstatus
  obtain ⟨row', hrow', hfingerprint', hcreated'⟩ := keeps_identity hrun hrow
  exact ⟨job, row', hjob, hrow', hfingerprint'.trans hfingerprint, hcreated'.trans hcreated⟩

/-- **An answer without an exception is the right one.** -/
theorem resubmits_of_ok (hsha : Function.Injective sha256) (hS : StoresSubmissions sha256 S)
    (hparsed : b.Parsed) (hparsed' : b'.Parsed) {job : NormalizedJob} {row : Job}
    (hjob : normalizeJob room id (some b) t = .ok (some job)) (hrow : S.job s (room, id) = some row)
    (hfingerprint : row.fingerprint = sha256 job.canonical) (hcreated : row.createdAt = t)
    {parsed : Option NormalizedJob} (hparse : normalizeJob room id (some b') t = .ok parsed) :
    S.Resubmits s room id b b' t now := by
  obtain ⟨e, w, hb, rfl, -⟩ := normalizeJob_iff.1 hjob
  have hagain := hS.again (some b') now hrow
  rw [hcreated, hparse] at hagain
  refine ⟨row, replyTo sha256 row now parsed, hrow, congrArg Prod.fst hagain, ?_, ?_, ?_,
    congrArg (fun r => S.job r.2) hagain⟩
  · intro halike
    obtain ⟨e', he, hb'⟩ := hb.alike halike hparsed
    have htext := hb.canonical_alike halike hparsed he
    have hsome : normalizeJob room id (some b') t = .ok (some (submitted b' e' w)) := by
      refine normalizeJob_iff.2 ⟨e', w, hb', rfl, ?_⟩
      rw [NormalizedJob.bytes, htext]
      obtain ⟨_, _, _, hjob', hbytes⟩ := normalizeJob_iff.1 hjob
      exact hbytes
    rw [hparse] at hsome
    cases hsome
    exact if_pos (by rw [hfingerprint, htext])
  · rintro halike ⟨job', hjob'⟩
    rw [hparse] at hjob'
    cases hjob'
    obtain ⟨e', w', hb', rfl, -⟩ := normalizeJob_iff.1 hparse
    have hne : row.fingerprint ≠ sha256 (submitted b' e' w').canonical := fun heq =>
      halike (hb.alike_of_canonical hb' hparsed hparsed' (hsha (hfingerprint.symm.trans heq)))
    rw [replyTo, Option.elim_some, if_neg hne]
    rfl
  · intro _ hno
    cases parsed with
    | none => rfl
    | some job' => exact absurd ⟨job', hparse⟩ hno

end JobStore

/-- **When a job submitted again is answered.** A body that creates a job at `t` is followed by any
calls that leave the row there. Then a body under the same key is answered as `Resubmits` says,
unless it comes to a digest test with a value that has no text. -/
theorem resubmission_answered {sha256 : Str → Str} (hsha : Function.Injective sha256)
    (runtime : Runtime) {s s' : (runtime.store sha256).State} {room id : Str} {b b' : Json}
    {t now : ℤ} {reply : Reply} {calls : List (ℤ × TaskCall)} (hparsed : b.Parsed)
    (hparsed' : b'.Parsed)
    (hput : ((runtime.store sha256).call s t (.put room id (some b))).1 = .ok (.reply reply))
    (hstatus : reply.status = 201)
    (hrun : Run ((runtime.store sha256).Keeps (room, id))
      ((runtime.store sha256).call s t (.put room id (some b))).2 calls s') :
    (runtime.store sha256).Resubmits s' room id b b' t now ↔ ¬TestsTextless id b' t := by
  have hS := runtime.storesSubmissions sha256
  obtain ⟨job, row, hjob, hrow, hfingerprint, hcreated⟩ :=
    JobStore.accepted_row hS hput hstatus hrun
  obtain ⟨_, _, hb, -, -⟩ := normalizeJob_iff.1 hjob
  rw [← normalizeJob_throws_iff hb.identity]
  cases hparse : normalizeJob room id (some b') t with
  | ok parsed =>
    exact iff_of_true (JobStore.resubmits_of_ok hsha hS hparsed hparsed' hjob hrow hfingerprint
      hcreated hparse) fun ⟨_, h⟩ => by cases h
  | error thrown =>
    refine iff_of_false ?_ fun h => h ⟨thrown, rfl⟩
    intro h
    have hanswer := h.answered
    rw [hS.again (some b') now hrow, hcreated, hparse] at hanswer
    cases hanswer

/-! ## A run -/

section Sample

/-- The sample job as a parsed body. -/
def sampleSubmission : Json := sampleBody.getD .null

/-- The same with its members in another order. -/
def sampleReordered : Json :=
  match sampleSubmission with
  | .obj members => .obj members.reverse
  | j => j

/-- A body whose acceptance hash is an object with a member `toString`. -/
def sampleTextless : Json := .obj
  [(lit "notBefore", .int 0), (lit "expiresAt", .int 9000),
    (lit "acceptanceHash", .obj [(lit "toString", .int 1)])]

theorem sampleSubmission_parsed : sampleSubmission.Parsed ∧ sampleReordered.Parsed := by
  have hvalues : ∀ m ∈ [(lit "notBefore", Json.int 0), (lit "expiresAt", .int 9000),
      (lit "acceptanceHash", .str (sampleDigest 'b')),
      (lit "envelope", sampleSubmission.get (lit "envelope") |>.getD .null)], m.2.Parsed := by
    have henvelope : (sampleSubmission.get (lit "envelope") |>.getD .null).Parsed := by
      refine .obj (by decide +kernel) fun m hm => ?_
      simp only [List.mem_cons, List.not_mem_nil, or_false] at hm
      rcases hm with rfl | rfl | rfl | rfl | rfl | rfl | rfl | rfl | rfl | rfl
      all_goals first | exact .num _ | exact .str _
    intro m hm
    simp only [List.mem_cons, List.not_mem_nil, or_false] at hm
    rcases hm with rfl | rfl | rfl | rfl
    · exact .num _
    · exact .num _
    · exact .str _
    · exact henvelope
  exact ⟨.obj (by decide +kernel) hvalues,
    .obj (by decide +kernel) fun m hm => hvalues m (List.mem_reverse.1 hm)⟩

/-- The store after the sample job was accepted at 1000. -/
def sampleSubmitted (runtime : Runtime) : (runtime.store id).State :=
  ((runtime.store id).call (runtime.store id).empty 1000
    (.put sampleRoom sampleJob (some sampleSubmission))).2

/-- The status of an answer. -/
def statusOf (a : Except Throw TaskAnswer) : Option ℕ :=
  match a with
  | .ok (.reply r) => some r.status
  | _ => none

theorem reply_of_statusOf {a : Except Throw TaskAnswer} {n : ℕ} (h : statusOf a = some n) :
    ∃ r, a = .ok (.reply r) ∧ r.status = n := by
  unfold statusOf at h
  split at h
  · cases h
    exact ⟨_, rfl, rfl⟩
  · cases h

/-- The store after the sample job was accepted, and then cancelled. -/
def sampleCancelled (runtime : Runtime) : (runtime.store id).State :=
  ((runtime.store id).call (sampleSubmitted runtime) 2000
    (.transition sampleRoom sampleJob .cancel none)).2

theorem sampleReordered_texts : ¬TestsTextless sampleJob sampleReordered 1000 := by
  have hids : (validRoom sampleRoom && validJobId sampleJob) = true := by decide +kernel
  have hok : (normalizeJob sampleRoom sampleJob (some sampleReordered) 1000).isOk = true := by
    decide +kernel
  rw [← normalizeJob_throws_iff hids]
  rintro ⟨t, h⟩
  rw [h] at hok
  cases hok

/-- A cancelled job is submitted again, with its members in another order. -/
theorem resubmission_answered_sample :
    (Runtime.node.store id).Resubmits (sampleCancelled .node) sampleRoom sampleJob sampleSubmission
        sampleReordered 1000 3000 ∧
      (Runtime.worker.store id).Resubmits (sampleCancelled .worker) sampleRoom sampleJob
        sampleSubmission sampleReordered 1000 3000 := by
  have hall (runtime : Runtime)
      (hput : statusOf ((runtime.store id).call (runtime.store id).empty 1000
        (.put sampleRoom sampleJob (some sampleSubmission))).1 = some 201)
      (hkept : ((runtime.store id).job (sampleCancelled runtime) (sampleRoom, sampleJob)).isSome =
        true) :
      (runtime.store id).Resubmits (sampleCancelled runtime) sampleRoom sampleJob sampleSubmission
        sampleReordered 1000 3000 := by
    obtain ⟨reply, hput, hstatus⟩ := reply_of_statusOf hput
    have hrun : Run ((runtime.store id).Keeps (sampleRoom, sampleJob)) (sampleSubmitted runtime)
        [(2000, .transition sampleRoom sampleJob .cancel none)] (sampleCancelled runtime) :=
      .cons ⟨rfl, hkept⟩ (.nil _)
    exact (resubmission_answered Function.injective_id runtime sampleSubmission_parsed.1
      sampleSubmission_parsed.2 hput hstatus hrun).2 sampleReordered_texts
  exact ⟨hall .node (by decide +kernel) (by decide +kernel),
    hall .worker (by decide +kernel) (by decide +kernel)⟩

/-- Both stores accept the sample job. Then the body with an object for its acceptance hash throws,
where 400 is the answer to a body that is no job. -/
theorem textless_hash_throws :
    (statusOf ((Runtime.node.store id).call (Runtime.node.store id).empty 1000
          (.put sampleRoom sampleJob (some sampleSubmission))).1 = some 201 ∧
        statusOf ((Runtime.worker.store id).call (Runtime.worker.store id).empty 1000
          (.put sampleRoom sampleJob (some sampleSubmission))).1 = some 201) ∧
      (((Runtime.node.store id).call (sampleSubmitted .node) 2000
          (.put sampleRoom sampleJob (some sampleTextless))).1.isOk = false ∧
      ¬(Runtime.node.store id).Resubmits (sampleSubmitted .node) sampleRoom sampleJob
        sampleSubmission sampleTextless 1000 2000) ∧
      ((Runtime.worker.store id).call (sampleSubmitted .worker) 2000
          (.put sampleRoom sampleJob (some sampleTextless))).1.isOk = false ∧
      ¬(Runtime.worker.store id).Resubmits (sampleSubmitted .worker) sampleRoom sampleJob
        sampleSubmission sampleTextless 1000 2000 := by
  have hnode : ((Runtime.node.store id).call (sampleSubmitted .node) 2000
      (.put sampleRoom sampleJob (some sampleTextless))).1.isOk = false := by decide +kernel
  have hworker : ((Runtime.worker.store id).call (sampleSubmitted .worker) 2000
      (.put sampleRoom sampleJob (some sampleTextless))).1.isOk = false := by decide +kernel
  exact ⟨by decide +kernel, ⟨hnode, fun h => Bool.false_ne_true (hnode.symm.trans h.answered)⟩,
    hworker, fun h => Bool.false_ne_true (hworker.symm.trans h.answered)⟩

end Sample

end GrantTap