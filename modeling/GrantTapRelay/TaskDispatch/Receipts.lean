import GrantTapRelay.TaskDispatch.Policy
import GrantTapRelay.Relay.WireGrammar

/-!
# What the policy does to a job

A `Receipt` is what decides who may execute a job: its state, times, fingerprint, recipient and
claim. Both stores keep the receipts of their rows and differ in where the ciphertext goes, so the
specifications here (`claimJob_ok`, `cancelJob_ok`, `finishJob_ok`, `normalizeJob_ok`) are stated
once for both.
-/

namespace GrantTap

open Js

/-! ## Submissions -/

theorem JobWindow.bounds (w : JobWindow) : (0 ≤ w.notBefore ∧ w.notBefore ≤ Number.maxSafe) ∧
    0 ≤ w.expiresAt ∧ w.expiresAt ≤ Number.maxSafe := by
  have h₁ := w.notBefore_nonneg
  have h₂ := w.notBefore_lt
  have h₃ := w.expiresAt_le
  omega

theorem NormalizedJob.canonical_expiresAt {a b : NormalizedJob} (h : a.canonical = b.canonical) :
    a.expiresAt = b.expiresAt :=
  (Json.stringify_numbers a.bounds.1 a.bounds.2 b.bounds.1 b.bounds.2 (by simp [tail])
    (by simp [tail]) h).2

/-- The checks on the two times. -/
theorem jobWindow?_iff {notBefore expiresAt : Value} {now : ℤ} {w : JobWindow} :
    jobWindow? notBefore expiresAt now = some w ↔
      notBefore.int? = some w.notBefore ∧ expiresAt.int? = some w.expiresAt ∧ now < w.expiresAt ∧
        w.expiresAt - w.notBefore ≤ JOB_TTL_MS ∧ w.expiresAt ≤ now + JOB_TTL_MS := by
  constructor
  · intro h
    unfold jobWindow? at h
    split at h
    · rename_i t e ht he
      split_ifs at h with h₁ h₂
      cases h
      exact ⟨ht, he, h₂⟩
    · cases h
  · rintro ⟨ht, he, hrange⟩
    unfold jobWindow?
    split
    · rename_i t e ht' he'
      rw [ht] at ht'
      rw [he] at he'
      cases ht'
      cases he'
      rw [dif_pos ⟨w.notBefore_nonneg, w.notBefore_lt⟩, if_pos hrange]
    · rename_i hno
      exact absurd he (hno _ _ ht)

/-- Sorting the members of an object keeps what each name finds. -/
theorem lookup_orderedInsert (name : Str) (m : Str × Json) (members : List (Str × Json)) :
    (members.orderedInsert (fun a b => localeLe a.1 b.1) m).lookup name =
      (m :: members).lookup name := by
  induction members with
  | nil => rfl
  | cons n members ih =>
    rw [List.orderedInsert]
    split_ifs with h
    · rfl
    · have hne : m.1 ≠ n.1 := fun e => h (by rw [e, localeLe]; exact unitsLe_refl _)
      rw [List.lookup_cons, ih, List.lookup_cons, List.lookup_cons, List.lookup_cons]
      by_cases hn : name = n.1
      · subst hn
        simp [beq_false_of_ne hne.symm]
      · simp [beq_false_of_ne hn]

theorem get_orderMembers (j : Json) (name : Str) : (orderMembers j).get name = j.get name := by
  cases j with
  | obj members =>
    change List.lookup name (members.insertionSort fun a b => localeLe a.1 b.1) = _
    change _ = List.lookup name members
    induction members with
    | nil => rfl
    | cons m members ih =>
      rw [List.insertionSort_cons, lookup_orderedInsert, List.lookup_cons, List.lookup_cons, ih]
  | null | bool | num | str | arr => rfl

/-- The checks of `normalizeJob`, for the envelope and the window of the submission. -/
structure Submits (room id : Str) (body : Json) (now : ℤ) (e : Json) (w : JobWindow) :
    Prop where
  identity : (validRoom room && validJobId id) = true
  fields : (body.isObject && body.keys.all fun key => JOB_FIELDS.contains key) = true
  writerId : ((body.get (lit "writerId")).isNone || isJobId (body.get (lit "writerId"))) = true
  writerSourceKeyId : (if (body.get (lit "writerId")).isSome then
    testDigest (body.get (lit "writerSourceKeyId")).orEmpty else .ok true) = .ok true
  writer : ((body.get (lit "writerId")).isSome ||
    (body.get (lit "writerSourceKeyId")).isNone) = true
  window : jobWindow? (body.get (lit "notBefore")) (body.get (lit "expiresAt")) now = some w
  acceptanceHash : testDigest (body.get (lit "acceptanceHash")).orEmpty = .ok true
  envelope : body.get (lit "envelope") = some e
  routed : (e.truthy && (e.get (lit "deliveryId")).is id &&
    (e.get (lit "to")).is (lit "machine")) = true
  recipientKeyId : testDigest (e.get (lit "recipientKeyId")).orEmpty = .ok true
  expiresAt : ((e.get (lit "expiresAt")).same (body.get (lit "expiresAt"))) = true
  valid : validEnvelope (some e) (some (.str room)) now (some JOB_TTL_MS) = .ok true

/-- The job of a submission. -/
def submitted (body envelope : Json) (window : JobWindow) : NormalizedJob :=
  { window with
    acceptanceHash := (body.get (lit "acceptanceHash")).getD .null
    envelope := orderMembers envelope
    writerId := (body.get (lit "writerId")).str?
    writerSourceKeyId := body.get (lit "writerSourceKeyId") }

theorem normalizeJob_iff {room id : Str} {body : Json} {now : ℤ} {job : NormalizedJob} :
    normalizeJob room id (some body) now = .ok (some job) ↔
      ∃ envelope window, Submits room id body now envelope window ∧
        job = submitted body envelope window ∧ job.bytes ≤ JOB_BYTES := by
  have no {a : NormalizedJob} : (none : Option NormalizedJob) ≠ some a := fun h => by cases h
  unfold normalizeJob
  constructor
  · intro h
    obtain ⟨hids, h⟩ := Early.require_run no h
    obtain ⟨_, hbody, h⟩ := Early.demand_run no h
    cases hbody
    obtain ⟨hfields, h⟩ := Early.require_run no h
    obtain ⟨hwriterId, h⟩ := Early.require_run no h
    obtain ⟨_, hkey, h⟩ := Early.attempt_run h
    obtain ⟨hkey', h⟩ := Early.require_run no h
    obtain ⟨hwriter, h⟩ := Early.require_run no h
    obtain ⟨window, hwindow, h⟩ := Early.demand_run no h
    obtain ⟨_, hacceptance, h⟩ := Early.attempt_run h
    obtain ⟨hacceptance', h⟩ := Early.require_run no h
    obtain ⟨envelope, henvelope, h⟩ := Early.demand_run no h
    obtain ⟨hrouted, h⟩ := Early.require_run no h
    obtain ⟨_, hrecipient, h⟩ := Early.attempt_run h
    obtain ⟨hrecipient', h⟩ := Early.require_run no h
    obtain ⟨hexpires, h⟩ := Early.require_run no h
    obtain ⟨_, hvalid, h⟩ := Early.attempt_run h
    obtain ⟨hvalid', h⟩ := Early.require_run no h
    obtain ⟨hbytes, h⟩ := Early.require_run no h
    cases h
    rw [hkey'] at hkey
    rw [hacceptance'] at hacceptance
    rw [hrecipient'] at hrecipient
    rw [hvalid'] at hvalid
    exact ⟨envelope, window, ⟨hids, hfields, hwriterId, hkey, hwriter, hwindow, hacceptance,
      henvelope, hrouted, hrecipient, hexpires, hvalid⟩, rfl, of_decide_eq_true hbytes⟩
  · rintro ⟨envelope, window, h, rfl, hbytes⟩
    rw [Early.require_run_iff no]
    refine ⟨h.identity, ?_⟩
    change Early.run (Early.require _ _ >>= _) = _
    rw [Early.require_run_iff no]
    refine ⟨h.fields, ?_⟩
    rw [Early.require_run_iff no]
    refine ⟨h.writerId, ?_⟩
    rw [Early.attempt_run_iff]
    refine ⟨true, h.writerSourceKeyId, ?_⟩
    rw [Early.require_run_iff no]
    refine ⟨rfl, ?_⟩
    rw [Early.require_run_iff no]
    refine ⟨h.writer, ?_⟩
    rw [h.window, Early.run_demand_bind]
    change Early.run (Early.attempt _ >>= _) = _
    rw [Early.attempt_run_iff]
    refine ⟨true, h.acceptanceHash, ?_⟩
    rw [Early.require_run_iff no]
    refine ⟨rfl, ?_⟩
    rw [h.envelope, Early.run_demand_bind]
    change Early.run (Early.require _ _ >>= _) = _
    rw [Early.require_run_iff no]
    refine ⟨h.routed, ?_⟩
    rw [Early.attempt_run_iff]
    refine ⟨true, h.recipientKeyId, ?_⟩
    rw [Early.require_run_iff no]
    refine ⟨rfl, ?_⟩
    rw [Early.require_run_iff no]
    refine ⟨h.expiresAt, ?_⟩
    rw [Early.attempt_run_iff]
    refine ⟨true, h.valid, ?_⟩
    rw [Early.require_run_iff no]
    refine ⟨rfl, ?_⟩
    rw [Early.require_run_iff no]
    exact ⟨decide_eq_true hbytes, rfl⟩

/-- What a normalized job keeps of the submission. -/
structure Normalizes (room id : Str) (body : Value) (now : ℤ) (job : NormalizedJob) : Prop where
  grammar : ∃ envelope, body.get (lit "envelope") = some envelope ∧
    WireGrammar DigestLike JOB_TTL_MS envelope (some (.str room)) now
  bytes : job.bytes ≤ JOB_BYTES
  room : validRoom room = true
  id : validJobId id = true
  fresh : now < job.expiresAt
  expiresAt : (body.get (lit "expiresAt")).int? = some job.expiresAt
  envelope : ∃ envelope, body.get (lit "envelope") = some envelope ∧
    job.envelope = orderMembers envelope
  recipient : testDigest (job.envelope.get (lit "recipientKeyId")).orEmpty = .ok true
  writerId : job.writerId = (body.get (lit "writerId")).str?
  writerSourceKeyId : job.writerSourceKeyId = body.get (lit "writerSourceKeyId")

theorem normalizeJob_ok {room id : Str} {body : Value} {now : ℤ} {job : NormalizedJob}
    (h : normalizeJob room id body now = .ok (some job)) : Normalizes room id body now job := by
  cases body with
  | none =>
    unfold normalizeJob at h
    obtain ⟨-, h⟩ := Early.require_run (fun h => by cases h) h
    cases h
  | some body =>
    obtain ⟨envelope, window, hsubmits, rfl, hbytes⟩ := normalizeJob_iff.1 h
    obtain ⟨-, hexpires, hfresh, -⟩ := jobWindow?_iff.1 hsubmits.window
    have hids := hsubmits.identity
    rw [Bool.and_eq_true] at hids
    exact
      { room := hids.1, id := hids.2, fresh := hfresh, expiresAt := hexpires,
        envelope := ⟨envelope, hsubmits.envelope, rfl⟩,
        grammar := ⟨envelope, hsubmits.envelope, grammar_of_validEnvelope hsubmits.valid⟩,
        bytes := hbytes,
        recipient := by
          change testDigest ((orderMembers envelope).get (lit "recipientKeyId")).orEmpty = _
          rw [get_orderMembers]
          exact hsubmits.recipientKeyId
        writerId := rfl, writerSourceKeyId := rfl }

/-! ## Receipts -/

/-- What decides who may execute a job. -/
structure Receipt where
  state : JobState
  notBefore : ℤ
  expiresAt : ℤ
  createdAt : ℤ
  updatedAt : ℤ
  acceptanceHash : Json
  recipientKeyId : Value
  writerId : Option Str
  fingerprint : Str
  claimId : Option Str

def Job.receipt (row : Job) : Receipt where
  state := row.state
  notBefore := row.notBefore
  expiresAt := row.expiresAt
  createdAt := row.createdAt
  updatedAt := row.updatedAt
  acceptanceHash := row.acceptanceHash
  recipientKeyId := row.envelope.get (lit "recipientKeyId")
  writerId := row.writerId
  fingerprint := row.fingerprint
  claimId := row.claimId

namespace Receipt

/-- `row.state === 'queued' && row.expiresAt <= now` -/
def expires (r : Receipt) (now : ℤ) : Prop := r.state = .queued ∧ r.expiresAt ≤ now

/-- The receipt of an expired job. -/
def expired (r : Receipt) : Receipt := { r with state := .expired, updatedAt := r.expiresAt }

/-- The receipt of a job that `claimId` claimed. -/
def claimed (r : Receipt) (claimId : Str) (now : ℤ) : Receipt :=
  { r with state := .accepted, claimId := some claimId, updatedAt := now }

/-- The receipt of a job that moved to `state`. -/
def moved (r : Receipt) (state : JobState) (now : ℤ) : Receipt :=
  { r with state := state, updatedAt := now }

end Receipt

theorem expires_iff {row : Job} {now : ℤ} : expires row now = true ↔ row.receipt.expires now := by
  simp [expires, Receipt.expires, Job.receipt]

theorem receipt_retireJob (row : Job) (state : JobState) (t : ℤ) :
    (retireJob row state t).receipt = row.receipt.moved state t := by
  have hr : (row.envelope.without ciphertextFields).get (lit "recipientKeyId") =
      row.envelope.get (lit "recipientKeyId") := Json.get_without (by decide) _
  simp only [retireJob, Job.receipt, Receipt.moved, hr]

theorem expireJob_of_not_expires {row : Job} {now : ℤ} (h : ¬ row.receipt.expires now) :
    expireJob row now = row := by
  rw [expireJob, if_neg (mt expires_iff.1 h)]

theorem receipt_expireJob_of_expires {row : Job} {now : ℤ} (h : row.receipt.expires now) :
    (expireJob row now).receipt = row.receipt.expired := by
  rw [expireJob, if_pos (expires_iff.2 h), receipt_retireJob]
  rfl

/-- A job that is not expired by `expireJob` is the job itself. -/
theorem expireJob_eq_self {row : Job} {now : ℤ} (h : (expireJob row now).state ≠ .expired) :
    expireJob row now = row := by
  by_cases he : row.receipt.expires now
  · exact absurd (congrArg Receipt.state (receipt_expireJob_of_expires he)) h
  · exact expireJob_of_not_expires he

/-! ## Transitions -/

/-- Nothing is stored, and the reply is a refusal. -/
def JobResult.Refused (result : JobResult) : Prop := result.row = none ∧ result.status ≠ 200

theorem refuse_refused {status : ℕ} {error : String} (h : status ≠ 200) :
    (refuse status error).Refused := ⟨rfl, h⟩

/-- What an accepted claim does to a job. -/
inductive ClaimEffect (row : Job) (claimId : Str) (now : ℤ) : Job → Prop
  | again : row.state = .accepted → row.claimId = some claimId → ClaimEffect row claimId now row
  | won : row.state = .queued → now < row.expiresAt → row.notBefore ≤ now →
    ClaimEffect row claimId now
      { row with state := .accepted, claimId := some claimId, updatedAt := now }

/-- **Claiming**: either nothing is stored, or the proof is valid and its claim is the first one
or the one that holds the job. -/
theorem claimJob_ok {row : Job} {proof : Value} {now : ℤ} {hash : Str} {result : JobResult}
    (h : claimJob row proof now hash = .ok result) :
    result.Refused ∨ ∃ row' claimId, result = accept row' ∧ validProof row proof hash = .ok true ∧
      (proof.get (lit "claimId")).str? = some claimId ∧ ClaimEffect row claimId now row' := by
  unfold claimJob at h
  obtain ⟨valid, hvalid, h⟩ := Early.attempt_run h
  rcases Early.require_cases h with ⟨-, rfl⟩ | ⟨rfl, h⟩
  · exact .inl (refuse_refused (by decide))
  rcases Early.demand_cases h with ⟨-, rfl⟩ | ⟨claimId, hclaim, h⟩
  · exact .inl (refuse_refused (by decide))
  obtain ⟨hclaim, -⟩ := Option.filter_eq_some_iff.1 hclaim
  rcases Early.require_cases h with ⟨hstate, rfl⟩ | ⟨-, h⟩
  · have hstate : (expireJob row now).state = .accepted := by simpa using hstate
    have hrow : expireJob row now = row := expireJob_eq_self (by rw [hstate]; decide)
    rw [hrow] at hstate ⊢
    split_ifs with hheld
    · exact .inr ⟨row, claimId, rfl, hvalid, hclaim, .again hstate hheld⟩
    · exact .inl (refuse_refused (by decide))
  rcases Early.require_cases h with ⟨-, rfl⟩ | ⟨hready, h⟩
  · exact .inl (refuse_refused (by decide))
  cases h
  simp only [Bool.and_eq_true, decide_eq_true_eq] at hready
  have hrow : expireJob row now = row := expireJob_eq_self (by rw [hready.1]; decide)
  rw [hrow] at hready ⊢
  have hlive : now < row.expiresAt := by
    by_contra hdead
    have hexp : row.receipt.expires now := ⟨hready.1, not_lt.1 hdead⟩
    have hgone : (expireJob row now).state = .expired :=
      congrArg Receipt.state (receipt_expireJob_of_expires hexp)
    rw [hrow, hready.1] at hgone
    cases hgone
  exact .inr ⟨_, claimId, rfl, hvalid, hclaim, .won hready.1 hlive hready.2⟩

/-- What an accepted cancellation does to a job. -/
inductive CancelEffect (row : Job) (now : ℤ) : Job → Prop
  | again : row.state = .cancelled → CancelEffect row now row
  | won : row.state = .queued ∨ row.state = .failed → CancelEffect row now
      (retireJob row .cancelled now)

/-- **Cancelling** a job that left the queue stores nothing, except for a failed one. -/
theorem cancelJob_cases (row : Job) (now : ℤ) : (cancelJob row now).Refused ∨
    ∃ row', cancelJob row now = accept row' ∧ CancelEffect row now row' := by
  unfold cancelJob
  dsimp only
  split_ifs with hcancelled hleft
  · have hrow : expireJob row now = row := expireJob_eq_self (by rw [hcancelled]; decide)
    rw [hrow] at hcancelled ⊢
    exact .inr ⟨row, rfl, .again hcancelled⟩
  · exact .inl (refuse_refused (by decide))
  · have hstate : (expireJob row now).state = .queued ∨ (expireJob row now).state = .failed := by
      tauto
    have hrow : expireJob row now = row := expireJob_eq_self fun he => by
      rw [he] at hstate
      exact absurd hstate (by decide)
    rw [hrow] at hstate ⊢
    exact .inr ⟨_, rfl, .won hstate⟩

/-- What an accepted finish does to a job. -/
inductive FinishEffect (row : Job) (now : ℤ) : Job → Prop
  | again : FinishEffect row now row
  | won (state : JobState) (row' : Job) : row.state = .accepted →
    state = .completed ∨ state = .failed → row'.receipt = row.receipt.moved state now →
    row'.id = row.id → row'.room = row.room → row'.cipher = row.cipher →
    (state = .failed → row'.bytes = row.bytes ∧ row'.envelope = row.envelope) →
    FinishEffect row now row'

theorem finalState_cases {proof : Value} {state : JobState} (h : finalState proof = some state) :
    state = .completed ∨ state = .failed := by
  unfold finalState at h
  split_ifs at h <;> cases h
  · exact .inl rfl
  · exact .inr rfl

/-- **Finishing**: either nothing is stored, or the proof is valid and carries the claim that
holds the job. -/
theorem finishJob_ok {row : Job} {proof : Value} {now : ℤ} {hash : Str} {result : JobResult}
    (h : finishJob row proof now hash = .ok result) :
    result.Refused ∨ ∃ row' claimId, result = accept row' ∧ validProof row proof hash = .ok true ∧
      row.claimId = some claimId ∧ (proof.get (lit "claimId")).str? = some claimId ∧
      FinishEffect row now row' := by
  unfold finishJob at h
  obtain ⟨valid, hvalid, h⟩ := Early.attempt_run h
  rcases Early.require_cases h with ⟨-, rfl⟩ | ⟨rfl, h⟩
  · exact .inl (refuse_refused (by decide))
  rcases Early.demand_cases h with ⟨-, rfl⟩ | ⟨claimId, hclaim, h⟩
  · exact .inl (refuse_refused (by decide))
  rcases Early.require_cases h with ⟨-, rfl⟩ | ⟨hattempt, h⟩
  · exact .inl (refuse_refused (by decide))
  have hproof : (proof.get (lit "claimId")).str? = some claimId := by
    rw [Bool.and_eq_true] at hattempt
    exact Value.str?_eq_some.2 (Value.is_iff.1 hattempt.2)
  rcases Early.demand_cases h with ⟨-, rfl⟩ | ⟨state, hstate, h⟩
  · exact .inl (refuse_refused (by decide))
  rcases Early.require_cases h with ⟨-, rfl⟩ | ⟨-, h⟩
  · exact .inl (refuse_refused (by decide))
  rcases Early.require_cases h with ⟨-, rfl⟩ | ⟨-, h⟩
  · exact .inr ⟨row, claimId, rfl, hvalid, hclaim, hproof, .again⟩
  rcases Early.require_cases h with ⟨-, rfl⟩ | ⟨haccepted, h⟩
  · exact .inl (refuse_refused (by decide))
  obtain ⟨_, -, h⟩ := Early.attempt_run h
  rcases Early.require_cases h with ⟨-, rfl⟩ | ⟨-, h⟩
  · exact .inl (refuse_refused (by decide))
  cases h
  refine .inr ⟨_, claimId, rfl, hvalid, hclaim, hproof, .won state _ (of_decide_eq_true haccepted)
    (finalState_cases hstate) ?_ ?_ ?_ ?_ fun hfailed => ?_⟩
  · split_ifs
    · exact receipt_retireJob row state now
    · rfl
  · split_ifs <;> rfl
  · split_ifs <;> rfl
  · split_ifs <;> rfl
  · rw [if_neg (by rw [hfailed]; decide)]
    exact ⟨rfl, rfl⟩

end GrantTap
