import GrantTapRelay.TaskDispatch.Capacity
import GrantTapRelay.TaskDispatch.Ciphertexts
import GrantTapRelay.TaskDispatch.LazyExpiry

/-!
# The rows of the two job stores

The Node store keeps a job as it was submitted; the Worker store keeps it without its box, with its
room and the place of its ciphertext. Either expires a row when it next reads it. The rows are
twins at a time when they are the same but for this (`Job.bare`), once their expiry is settled, and
the chunks give back the box that the Node row has.

* `transitionJob_bare`: a transition reads nothing of what tells twins apart.
* `Twin.expire`, `Twin.age`, `Twin.write`: **what keeps rows twins**.
* `Twin.hydrate`: the Worker shows the envelope of the Node row.
* `roomRows_twins`: the rows of a room are twins, one by one.
-/

namespace GrantTap

open Js

/-! ## One job -/

/-- A row without what one of the stores keeps elsewhere, or adds. -/
def Job.bare (row : Job) : Job :=
  { row with envelope := row.envelope.without [lit "box"], room := none, cipher := none }

/-- What does not read the box, the room and the place of the ciphertext is the same of rows with
one bare row. -/
theorem congr_bare {α : Type} {f : Job → α} (hf : ∀ row, f row.bare = f row) {a b : Job}
    (h : a.bare = b.bare) : f a = f b := by
  rw [← hf a, h, hf b]

theorem without_box_without (j : Json) :
    (j.without [lit "box"]).without ciphertextFields = j.without ciphertextFields := by
  cases j with
  | obj members =>
    simp only [Json.without, List.filter_filter, Json.obj.injEq]
    refine List.filter_congr fun m _ => ?_
    by_cases hm : m.1 = lit "box"
    · simp [ciphertextFields, hm]
    · simp [hm]
  | null | bool | num | str | arr => rfl

theorem without_without_box (j : Json) :
    (j.without ciphertextFields).without [lit "box"] = j.without ciphertextFields :=
  Json.without_of_subset (by decide) j

theorem bare_retireJob (row : Job) (state : JobState) (now : ℤ) :
    (retireJob row state now).bare = retireJob row.bare state now := by
  simp only [retireJob, Job.bare, without_box_without, without_without_box]

theorem bare_expireJob (row : Job) (now : ℤ) : (expireJob row now).bare = expireJob row.bare now := by
  unfold expireJob
  rw [show expires row.bare now = expires row now from rfl]
  split_ifs
  · exact bare_retireJob row .expired row.expiresAt
  · rfl

theorem get_bare {name : Str} (h : name ≠ lit "box") (row : Job) :
    row.bare.envelope.get name = row.envelope.get name :=
  Json.get_without (by simpa using h) row.envelope

theorem metadata_bare (row : Job) :
    taskJobMetadata (publicJob row.bare) = taskJobMetadata (publicJob row) := by
  simp only [taskJobMetadata, publicJob, Job.bare, without_box_without]

/-- The reply with a bare row. -/
def JobResult.bare (result : JobResult) : JobResult :=
  { result with row := result.row.map Job.bare }

theorem validProof_bare (row : Job) (proof : Value) (proofHash : Str) :
    validProof row.bare proof proofHash = validProof row proof proofHash := by
  unfold validProof
  rw [get_bare (by decide)]
  rfl

theorem validResult_bare (row : Job) (result : Json) (now : ℤ) :
    validResult row.bare result now = validResult row result now := by
  unfold validResult
  rw [get_bare (by decide)]
  rfl

/-- **A transition** of a bare row. -/
theorem transitionJob_bare (row : Job) (action : TaskAction) (body : Value) (now : ℤ)
    (proofHash : Str) : transitionJob row.bare action body now proofHash =
      (transitionJob row action body now proofHash).map JobResult.bare := by
  cases action with
  | claim =>
    unfold transitionJob claimJob
    dsimp only
    rw [← bare_expireJob, validProof_bare]
    generalize expireJob row now = current
    refine Early.map_attempt fun valid => Early.map_require rfl (Early.map_demand rfl fun claimId => ?_)
    refine Early.map_require ?_ (Early.map_require rfl rfl)
    rw [show current.bare.claimId = current.claimId from rfl]
    split_ifs <;> rfl
  | finish =>
    unfold transitionJob finishJob
    rw [validProof_bare]
    refine Early.map_attempt fun valid => Early.map_require rfl (Early.map_demand rfl fun claimId => ?_)
    refine Early.map_require rfl (Early.map_demand rfl fun state => ?_)
    refine Early.map_require rfl (Early.map_require rfl (Early.map_require rfl ?_))
    simp only [validResult_bare]
    refine Early.map_attempt fun valid => Early.map_require rfl ?_
    rw [← bare_retireJob]
    split_ifs <;> rfl
  | cancel =>
    unfold transitionJob cancelJob
    dsimp only
    rw [← bare_expireJob, ← bare_retireJob]
    rw [show (expireJob row now).bare.state = (expireJob row now).state from rfl]
    split_ifs <;> rfl

theorem finishJob_envelope {row row' : Job} {proof : Value} {now : ℤ} {hash : Str}
    {result : JobResult} (h : finishJob row proof now hash = .ok result)
    (hrow : result.row = some row') : row' = row ∨ retainsTaskPayload row' = true ∨
      row'.envelope = row.envelope.without ciphertextFields := by
  have refused {P : Prop} {status : ℕ} {error : String} (he : result = refuse status error) : P := by
    rw [he] at hrow
    cases hrow
  unfold finishJob at h
  obtain ⟨valid, -, h⟩ := Early.attempt_run h
  rcases Early.require_cases h with ⟨-, he⟩ | ⟨-, h⟩
  · exact refused he
  rcases Early.demand_cases h with ⟨-, he⟩ | ⟨claimId, -, h⟩
  · exact refused he
  rcases Early.require_cases h with ⟨-, he⟩ | ⟨-, h⟩
  · exact refused he
  rcases Early.demand_cases h with ⟨-, he⟩ | ⟨state, hstate, h⟩
  · exact refused he
  rcases Early.require_cases h with ⟨-, he⟩ | ⟨-, h⟩
  · exact refused he
  rcases Early.require_cases h with ⟨-, rfl⟩ | ⟨-, h⟩
  · cases hrow
    exact .inl rfl
  rcases Early.require_cases h with ⟨-, he⟩ | ⟨-, h⟩
  · exact refused he
  obtain ⟨valid, -, h⟩ := Early.attempt_run h
  rcases Early.require_cases h with ⟨-, he⟩ | ⟨-, h⟩
  · exact refused he
  cases h
  cases hrow
  rcases finalState_cases hstate with rfl | rfl
  · exact .inr (.inr rfl)
  · exact .inr (.inl rfl)

/-- A transition that retires a job takes its box away. -/
theorem transitionJob_envelope {row row' : Job} {action : TaskAction} {body : Value} {now : ℤ}
    {proofHash : Str} {result : JobResult}
    (h : transitionJob row action body now proofHash = .ok result) (hrow : result.row = some row') :
    row' = row ∨ retainsTaskPayload row' = true ∨
      row'.envelope = row.envelope.without ciphertextFields := by
  cases action with
  | claim =>
    rcases claimJob_ok h with hr | ⟨row₁, claimId, rfl, -, -, heffect⟩
    · exact absurd (hr.1.symm.trans hrow) (by simp)
    · cases hrow
      cases heffect with
      | again => exact .inl rfl
      | won => exact .inr (.inl rfl)
  | finish => exact finishJob_envelope h hrow
  | cancel =>
    cases h
    rcases cancelJob_cases row now with hr | ⟨row₁, he, heffect⟩
    · exact absurd (hr.1.symm.trans hrow) (by simp)
    · rw [he] at hrow
      cases hrow
      cases heffect with
      | again => exact .inl rfl
      | won => exact .inr (.inr rfl)

/-- A row that a transition stores is not queued. -/
theorem transitionJob_not_queued {row row' : Job} {action : TaskAction} {body : Value} {now : ℤ}
    {proofHash : Str} {result : JobResult} (hunclaimed : row.Unclaimed)
    (h : transitionJob row action body now proofHash = .ok result) (hrow : result.row = some row') :
    row'.state ≠ .queued := by
  cases action with
  | claim =>
    rcases claimJob_ok h with hr | ⟨row₁, claimId, rfl, -, -, heffect⟩
    · exact absurd (hr.1.symm.trans hrow) (by simp)
    · cases hrow
      cases heffect with
      | again haccepted => exact fun hq => by cases haccepted.symm.trans hq
      | won => exact fun hq => by cases hq
  | finish =>
    rcases finishJob_ok h with hr | ⟨row₁, claimId, rfl, -, hheld, -, heffect⟩
    · exact absurd (hr.1.symm.trans hrow) (by simp)
    · cases hrow
      cases heffect with
      | again => exact fun hq => by cases (hunclaimed hq).symm.trans hheld
      | won state _ _ hstate hreceipt =>
        have hnext : row'.state = state := congrArg Receipt.state hreceipt
        intro hq
        rw [hnext] at hq
        rcases hstate with rfl | rfl <;> cases hq
  | cancel =>
    cases h
    rcases cancelJob_cases row now with hr | ⟨row₁, he, heffect⟩
    · exact absurd (hr.1.symm.trans hrow) (by simp)
    · rw [he] at hrow
      cases hrow
      cases heffect with
      | again hcancelled => exact fun hq => by cases hcancelled.symm.trans hq
      | won => exact fun hq => by cases hq

/-! ## Two rows of one job -/

/-- A Node row and a Worker row whose expiry is settled: they differ in what one store keeps
elsewhere, and `body` is the job that was submitted for both. -/
structure Job.Twin (body : Option NormalizedJob) (n w : Job) : Prop where
  bare : n.bare = w.bare
  envelope : retainsTaskPayload n = true → ∃ job, body = some job ∧ job.envelope = n.envelope
  boxless : retainsTaskPayload n = false → n.envelope.get (lit "box") = none
  fresh : n.state = .queued → n.updatedAt = n.createdAt

namespace Job.Twin

variable {body : Option NormalizedJob} {n w w' : Job} {now : ℤ}

theorem congr_right (h : Twin body n w) (hw : w.bare = w'.bare) : Twin body n w' :=
  { h with bare := h.bare.trans hw }

/-- Time keeps twins. -/
theorem expire (h : Twin body n w) (now : ℤ) :
    Twin body (expireJob n now) (expireJob w now) := by
  have hbare : (expireJob n now).bare = (expireJob w now).bare := by
    rw [bare_expireJob, h.bare, bare_expireJob]
  by_cases hexpires : expires n now = true
  · have hretired := WorkerTasks.retains_expireJob hexpires
    refine ⟨hbare, fun hretains => absurd (hretired.symm.trans hretains) (by decide),
      fun _ => ?_, fun hqueued => ?_⟩
    · rw [expireJob, if_pos hexpires]
      exact Json.get_without_of_mem (by decide) n.envelope
    · rw [expireJob, if_pos hexpires] at hqueued
      cases hqueued
  · have hsame : expireJob n now = n := by rw [expireJob, if_neg hexpires]
    rw [hsame] at hbare ⊢
    exact { h with bare := hbare }

end Job.Twin

/-! ## A row and its shelf -/

/-- The Node row and the shelf of one key at a time. -/
inductive Twin (sha256 : Str → Str) (now : ℤ) : Option TaskRow → Shelf → Prop
  | vacant : Twin sha256 now none ⟨none, fun _ => none⟩
  | row (n : SavedJob) (w : Job) (shelf : Shelf) (body : Option NormalizedJob)
      (hrow : shelf.row = some w) (hbox : w.envelope.get (lit "box") = none)
      (hmirrors : shelf.Mirrors sha256 body)
      (htwin : Job.Twin body (expireJob n.job now) (expireJob w now)) :
    Twin sha256 now (some (.saved n)) shelf

theorem Shelf.bare_stored (row : Job) (cipher : Option Cipher) :
    (Shelf.stored row cipher).bare = row.bare := by
  simp only [Shelf.stored, Job.bare, Json.without_without]

namespace Twin

variable {sha256 : Str → Str} {now now' : ℤ} {row : Option TaskRow} {shelf : Shelf}

theorem later (h : Twin sha256 now row shelf) (hle : now ≤ now') : Twin sha256 now' row shelf := by
  cases h with
  | vacant => exact .vacant
  | row n w shelf body hrow hbox hmirrors htwin =>
    have hlater := htwin.expire now'
    rw [expireJob_later n.job hle, expireJob_later w hle] at hlater
    exact .row n w shelf body hrow hbox hmirrors hlater

/-- The Node store may save the expired row. -/
theorem expire (h : Twin sha256 now row shelf) :
    Twin sha256 now (row.map (TaskRow.expire now)) shelf := by
  cases h with
  | vacant => exact .vacant
  | row n w shelf body hrow hbox hmirrors htwin =>
    refine .row _ w shelf body hrow hbox hmirrors ?_
    rwa [expireJob_later n.job le_rfl]

/-- A row that is written is as the input, but for its box. -/
theorem bare_expireJob_stored (row : Job) (cipher : Option Cipher) (now : ℤ) :
    (expireJob (Shelf.stored row cipher) now).bare = (expireJob row now).bare := by
  rw [bare_expireJob, Shelf.bare_stored, bare_expireJob]

/-- The Worker store may write the expired row. -/
theorem age (h : Twin sha256 now row shelf) : Twin sha256 now row (shelf.age sha256 now) := by
  cases h with
  | vacant => exact .vacant
  | row n w shelf body hrow hbox hmirrors htwin =>
    have haged : (shelf.age sha256 now).Mirrors sha256 body := hmirrors.age
    unfold Shelf.age at haged ⊢
    rw [hrow] at haged ⊢
    dsimp only at haged ⊢
    split_ifs at haged ⊢
    · obtain ⟨cipher, hwritten⟩ := Shelf.write_row sha256 shelf (expireJob w now)
      refine .row n _ _ body hwritten (Json.get_without_of_mem (by simp) _) haged ?_
      refine htwin.congr_right ?_
      rw [bare_expireJob_stored, expireJob_later w le_rfl]
    · exact .row n w shelf body hrow hbox haged htwin

/-- Both stores may store what a transition makes of their rows. -/
theorem write {n n' : SavedJob} {w w' : Job} {action : TaskAction} {body : Value} {hash hash' : Str}
    {result result' : JobResult} (h : Twin sha256 now (some (.saved n)) shelf)
    (hrow : shelf.row = some w) (hunclaimed : n.job.Unclaimed)
    (hresult : transitionJob n.job action body now hash = .ok result)
    (hnode : result.row = some n'.job)
    (hresult' : transitionJob w action body now hash' = .ok result')
    (hworker : result'.row = some w') (hbare : n'.job.bare = w'.bare) :
    Twin sha256 now (some (.saved n')) (shelf.write sha256 w') := by
  cases h with
  | row n w₀ shelf job hrow₀ hbox hmirrors htwin =>
    obtain rfl := Option.some_inj.1 (hrow₀.symm.trans hrow)
    have hqueued := transitionJob_not_queued hunclaimed hresult hnode
    have hsettled := hresult
    rw [← transitionJob_expireJob hunclaimed] at hsettled
    have hkept := (transitionJob_follows hsettled hnode).retained
    have htwin' : Job.Twin job n'.job w' := by
      refine ⟨hbare, fun hretains => ?_, fun hretired => ?_, fun he => absurd he hqueued⟩
      · obtain ⟨hretained, -, henvelope⟩ := hkept hretains
        rw [henvelope]
        exact htwin.envelope hretained
      · rcases transitionJob_envelope hsettled hnode with hsame | hretains | henvelope
        · rw [hsame] at hretired ⊢
          exact htwin.boxless hretired
        · exact absurd (hretired.symm.trans hretains) (by decide)
        · rw [henvelope]
          exact Json.get_without_of_mem (by decide) _
    obtain ⟨cipher, hwritten⟩ := Shelf.write_row sha256 shelf w'
    refine .row n' _ _ job hwritten (Json.get_without_of_mem (by simp) _)
      (hmirrors.write hrow (transitionJob_follows hresult' hworker)) ?_
    exact (htwin'.expire now).congr_right (bare_expireJob_stored w' cipher now).symm

/-- Both stores may create the row of a submitted job. -/
theorem create {room id fingerprint box : Str} {job : NormalizedJob}
    (h : Twin sha256 now none shelf) (hbox : SubmittedBox job box)
    (hbound : bindable ((queuedJob job fingerprint id none now).envelope.get
      (lit "recipientKeyId")) = true) :
    Twin sha256 now (some (.saved ⟨queuedJob job fingerprint id none now, hbound⟩))
      (shelf.write sha256 (queuedJob job fingerprint id (some room) now)) := by
  cases h
  have htwin : Job.Twin (some job) (queuedJob job fingerprint id none now)
      (queuedJob job fingerprint id (some room) now) :=
    ⟨rfl, fun _ => ⟨job, rfl, rfl⟩, fun hretired => (by cases hretired), fun _ => rfl⟩
  obtain ⟨cipher, hwritten⟩ := Shelf.write_row sha256 ⟨none, fun _ => none⟩
    (queuedJob job fingerprint id (some room) now)
  refine .row _ _ _ (some job) hwritten (Json.get_without_of_mem (by simp) _)
    (Shelf.Mirrors.create (.vacant none) rfl hbox) ?_
  exact (htwin.expire now).congr_right (bare_expireJob_stored _ cipher now).symm

/-- `purgeInTransaction` deletes the outdated rows. -/
theorem purgeRow_saved (n : SavedJob) (now : ℤ) :
    if Shelf.Outdated now n.job then NodeTasks.purgeRow now (.saved n) = none
    else NodeTasks.purgeRow now (.saved n) = some (.saved n) ∨
      NodeTasks.purgeRow now (.saved n) = some ((TaskRow.saved n).expire now) := by
  unfold NodeTasks.purgeRow
  dsimp only
  split_ifs with hold hselected hdelete hselected hdelete
  · rfl
  · exact absurd hold hdelete
  · -- an outdated row is selected
    refine absurd ?_ hselected
    obtain ⟨hstate, hpast⟩ := hold
    unfold NodeTasks.purgeSelects
    by_cases hexpires : expires n.job now = true
    · rw [show (decide (n.job.state = .queued) && decide (n.job.expiresAt ≤ now)) = true from
        hexpires, Bool.true_or]
    · rw [expireJob, if_neg hexpires] at hstate hpast
      have hexpired : n.job.expiresAt < now - NodeTasks.RECEIPT_RETENTION_MS ∧
          n.job.updatedAt < now - NodeTasks.RECEIPT_RETENTION_MS := by
        unfold NodeTasks.RECEIPT_RETENTION_MS
        omega
      simp [hstate, hexpired]
  · exact absurd hdelete hold
  · exact .inr rfl
  · exact .inl rfl

/-- Both stores clean up. -/
theorem maintain (h : Twin sha256 now row shelf) :
    Twin sha256 now (row.bind (NodeTasks.purgeRow now)) (shelf.maintain sha256 now) := by
  have haged := h.age
  have hexpired := h.expire.age
  cases h with
  | vacant => exact .vacant
  | row n w shelf body hrow hbox hmirrors htwin =>
    have hold : Shelf.Outdated now n.job ↔ Shelf.Outdated now w := by
      unfold Shelf.Outdated
      rw [congr_bare (f := Job.state) (fun _ => rfl) htwin.bare,
        congr_bare (f := Job.expiresAt) (fun _ => rfl) htwin.bare,
        congr_bare (f := Job.updatedAt) (fun _ => rfl) htwin.bare]
    have hpurged := purgeRow_saved n now
    unfold Shelf.maintain
    rw [hrow, Option.bind_some]
    dsimp only
    by_cases hw : Shelf.Outdated now w
    · rw [if_pos (hold.2 hw)] at hpurged
      rw [hpurged, if_pos hw]
      have hdropped : Shelf.Mirrors sha256
          ⟨none, Shelf.clear (expireJob w now) shelf.chunks⟩ body := hmirrors.drop hrow
      generalize Shelf.clear (expireJob w now) shelf.chunks = chunks at hdropped
      cases hdropped
      exact .vacant
    · rw [if_neg (mt hold.1 hw)] at hpurged
      rw [if_neg hw]
      rcases hpurged with hpurged | hpurged
      · rw [hpurged]
        exact haged
      · rw [hpurged]
        exact hexpired

end Twin

/-! ## Reading -/

/-- Two public jobs with the same members, and envelopes with the same members. -/
structure PublicJob.Same (a b : PublicJob) : Prop where
  metadata : taskJobMetadata a = taskJobMetadata b
  envelope : ∀ name, a.envelope.get name = b.envelope.get name

theorem metadata_of_bare {n w : Job} (h : n.bare = w.bare) :
    taskJobMetadata (publicJob n) = taskJobMetadata (publicJob w) :=
  congr_bare (f := fun row => taskJobMetadata (publicJob row)) metadata_bare h

theorem get_of_bare {n w : Job} (h : n.bare = w.bare) {name : Str} (hname : name ≠ lit "box") :
    n.envelope.get name = w.envelope.get name :=
  congr_bare (f := fun row => row.envelope.get name) (get_bare hname) h

/-- Putting a dropped member back. -/
theorem without_set {j j' : Json} {name : Str} {found : Json} (value : Json)
    (hj : j.get name = some found) (hsame : j.without [name] = j'.without [name])
    (hnone : j'.get name = none) : j'.without [name] = (j'.set name value).without [name] := by
  cases j with
  | obj members =>
    cases j' with
    | obj members' =>
      have hlookup : ¬(members'.lookup name).isSome = true := by
        rw [show members'.lookup name = none from hnone]
        decide
      rw [Json.set, if_neg hlookup, Json.without, Json.without, List.filter_append]
      simp
    | null | bool | num | str | arr => cases hsame
  | null | bool | num | str | arr => cases hj

/-- **The Worker shows the envelope of the Node row**, once it has settled the expiry of its own. -/
theorem Twin.hydrate {sha256 : Str → Str} {now : ℤ} {t : WorkerTasks} {k : RoomKey} {n : SavedJob}
    {w : Job} (h : Twin sha256 now (some (.saved n)) (t.shelf k)) (hnamed : t.Named)
    (hw : t.jobs.get? k = some w) (hsettled : expires w now = false) :
    ∃ row, t.hydrateTaskJob sha256 w = .ok row ∧
      (publicJob (expireJob n.job now)).Same (publicJob row) := by
  obtain ⟨hid, hroom⟩ := hnamed k w hw
  generalize hshelf : t.shelf k = shelf at h
  cases h with
  | row n w₀ shelf body hrow hbox hmirrors htwin =>
    have hrow' : shelf.row = some w := by rw [← hshelf, WorkerTasks.shelf_row, hw]
    obtain rfl := Option.some_inj.1 (hrow.symm.trans hrow')
    rw [show expireJob w₀ now = w₀ from if_neg (by rw [hsettled]; decide)] at htwin
    have hretains : retainsTaskPayload (expireJob n.job now) = retainsTaskPayload w₀ :=
      congr_bare (f := retainsTaskPayload) (fun _ => rfl) htwin.bare
    cases hmirrors with
    | vacant => cases hrow
    | retired _ body hretired hcipher =>
      cases hrow
      refine ⟨w₀, by rw [WorkerTasks.hydrateTaskJob, hcipher], metadata_of_bare htwin.bare, ?_⟩
      intro name
      by_cases hname : name = lit "box"
      · rw [hname]
        exact (htwin.boxless (hretains.trans hretired)).trans hbox.symm
      · exact get_of_bare htwin.bare hname
    | kept _ job box hkept hcipher hsubmitted =>
      cases hrow
      refine ⟨_, WorkerTasks.hydrate_eq hid hroom hcipher (congrArg Shelf.chunks hshelf)
        hsubmitted.long hsubmitted.short, ?_, fun name => ?_⟩
      · refine metadata_of_bare (htwin.bare.trans ?_)
        have henvelope : (expireJob n.job now).envelope.without [lit "box"] =
            w₀.envelope.without [lit "box"] := congrArg Job.envelope htwin.bare
        obtain ⟨job', hjob, hsame⟩ := htwin.envelope (hretains.trans hkept)
        cases hjob
        have hnodeBox := hsubmitted.envelope
        rw [hsame] at hnodeBox
        simp only [Job.bare, without_set (.str box) hnodeBox henvelope hbox]
      · have hget := Json.get_set (lit "box") (.str box) w₀.envelope name
        refine Eq.trans ?_ hget.symm
        split_ifs with hname
        · obtain ⟨job', hjob, henvelope⟩ := htwin.envelope (hretains.trans hkept)
          cases hjob
          rw [hname]
          exact (congrArg (fun j : Json => j.get (lit "box")) henvelope.symm).trans
            hsubmitted.envelope
        · exact get_of_bare htwin.bare hname

end GrantTap
