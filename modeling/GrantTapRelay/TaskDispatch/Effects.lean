import GrantTapRelay.TaskDispatch.Calls
import GrantTapRelay.TaskDispatch.Receipts

/-!
# What a call does to the receipts

`TaskEffect` lists everything a call to a job store can do to the receipts of its rows: let them
age, create one, delete old ones, or move one by a claim, a finish or a cancellation. A `JobStore`
carries the proof that its calls do nothing else, so what follows from the list holds of every
runtime.
-/

namespace GrantTap

open Js

/-- The stored row at each key. -/
abbrev Jobs := RoomKey → Option Job

/-- The receipt at a key. -/
def receiptAt (f : Jobs) (k : RoomKey) : Option Receipt := (f k).map Job.receipt

theorem receiptAt_of_job {f : Jobs} {k : RoomKey} {row : Job} (h : f k = some row) :
    receiptAt f k = some row.receipt := by
  rw [receiptAt, h, Option.map_some]

theorem receiptAt_congr {f g : Jobs} {k : RoomKey} (h : f k = g k) :
    receiptAt f k = receiptAt g k := by
  rw [receiptAt, receiptAt, h]

/-! ## Events -/

namespace TaskCall

/-- The key and the body of a row that the call created. -/
def created (c : TaskCall) (now : ℤ) (a : Except Throw TaskAnswer) :
    Option (RoomKey × NormalizedJob) :=
  match c, a with
  | .put room id body, .ok (.reply r) =>
    if r.status = 201 then
      match normalizeJob room id body now with
      | .ok job => job.map (Prod.mk (room, id))
      | .error _ => none
    else none
  | _, _ => none

theorem created_eq_some {c : TaskCall} {now : ℤ} {a : Except Throw TaskAnswer} {k : RoomKey}
    {job : NormalizedJob} (h : c.created now a = some (k, job)) :
    ∃ body, c = .put k.1 k.2 body ∧ normalizeJob k.1 k.2 body now = .ok (some job) := by
  unfold created at h
  split at h
  · rename_i room id body r
    split_ifs at h
    split at h
    · rename_i parsed hparsed
      obtain ⟨job', rfl, hjob⟩ := Option.map_eq_some_iff.1 h
      cases hjob
      exact ⟨body, rfl, hparsed⟩
    · cases h
  · cases h

/-- The key and the claim id of a claim that the call granted. -/
def claimed (c : TaskCall) (a : Except Throw TaskAnswer) : Option (RoomKey × Str) :=
  match c, a with
  | .transition room id .claim proof, .ok (.reply r) =>
    if r.status = 200 then (proof.get (lit "claimId")).str?.map (Prod.mk (room, id)) else none
  | _, _ => none

/-- The key and the proof of a finish that changed its job. -/
def finished (c : TaskCall) (f g : Jobs) : Option (RoomKey × Value) :=
  match c with
  | .transition room id .finish proof =>
    if (f (room, id)).map Job.state = (g (room, id)).map Job.state then none
    else some ((room, id), proof)
  | _ => none

end TaskCall

/-! ## Transitions of one row -/

/-- A transition without a row to store is a refusal. -/
theorem transitionJob_refused {row : Job} {action : TaskAction} {body : Value} {now : ℤ}
    {proofHash : Str} {result : JobResult}
    (h : transitionJob row action body now proofHash = .ok result) (hrow : result.row = none) :
    result.status ≠ 200 := by
  have refused : ∀ {P : Prop}, result.Refused ∨ P → (P → result.row ≠ none) → result.status ≠ 200 :=
    fun hr hp => hr.elim (·.2) fun p => absurd hrow (hp p)
  cases action with
  | claim =>
    refine refused (claimJob_ok h) ?_
    rintro ⟨row', claimId, rfl, -⟩
    exact nofun
  | finish =>
    refine refused (finishJob_ok h) ?_
    rintro ⟨row', claimId, rfl, -⟩
    exact nofun
  | cancel =>
    cases h
    refine refused (cancelJob_cases row now) ?_
    rintro ⟨row', he, -⟩
    rw [he]
    exact nofun

/-- Every row that a transition stores keeps its id. -/
theorem transitionJob_id {row row' : Job} {action : TaskAction} {body : Value} {now : ℤ}
    {proofHash : Str} {result : JobResult}
    (h : transitionJob row action body now proofHash = .ok result) (hrow : result.row = some row') :
    row'.id = row.id ∧ row'.room = row.room := by
  cases action with
  | claim =>
    rcases claimJob_ok h with hr | ⟨row₁, claimId, rfl, -, -, heffect⟩
    · exact absurd (hr.1.symm.trans hrow) nofun
    · cases hrow
      cases heffect <;> exact ⟨rfl, rfl⟩
  | finish =>
    rcases finishJob_ok h with hr | ⟨row₁, claimId, rfl, -, -, -, heffect⟩
    · exact absurd (hr.1.symm.trans hrow) nofun
    · cases hrow
      cases heffect with
      | again => exact ⟨rfl, rfl⟩
      | won state _ _ _ _ hid hroom => exact ⟨hid, hroom⟩
  | cancel =>
    cases h
    rcases cancelJob_cases row now with hr | ⟨row₁, he, heffect⟩
    · exact absurd (hr.1.symm.trans hrow) nofun
    · rw [he] at hrow
      cases hrow
      cases heffect <;> exact ⟨rfl, rfl⟩

/-- A row that a transition stores has the payload of the row it found, or none. -/
structure Follows (row row' : Job) : Prop where
  cipher : row'.cipher = row.cipher
  retained : retainsTaskPayload row' = true →
    retainsTaskPayload row = true ∧ row'.bytes = row.bytes ∧ row'.envelope = row.envelope

theorem Follows.refl (row : Job) : Follows row row := ⟨rfl, fun h => ⟨h, rfl, rfl⟩⟩

/-- A row in a state that retains no payload. -/
theorem Follows.of_retired {row row' : Job} (hcipher : row'.cipher = row.cipher)
    (h : retainsTaskPayload row' = false) : Follows row row' :=
  ⟨hcipher, fun hretained => absurd (h.symm.trans hretained) (by decide)⟩

/-- **The payload of a job**: no transition changes it, and none brings one back. -/
theorem transitionJob_follows {row row' : Job} {action : TaskAction} {body : Value} {now : ℤ}
    {proofHash : Str} {result : JobResult}
    (h : transitionJob row action body now proofHash = .ok result) (hrow : result.row = some row') :
    Follows row row' := by
  have refused {P : Prop} (hr : result.Refused) : P := absurd (hr.1.symm.trans hrow) (by simp)
  cases action with
  | claim =>
    rcases claimJob_ok h with hr | ⟨row₁, claimId, rfl, -, -, heffect⟩
    · exact refused hr
    · cases hrow
      cases heffect with
      | again => exact .refl row
      | won hqueued =>
        exact ⟨rfl, fun _ => ⟨by rw [retainsTaskPayload, hqueued]; rfl, rfl, rfl⟩⟩
  | finish =>
    rcases finishJob_ok h with hr | ⟨row₁, claimId, rfl, -, -, -, heffect⟩
    · exact refused hr
    · cases hrow
      cases heffect with
      | again => exact .refl row
      | won state _ haccepted hstate hreceipt _ _ hcipher hkept =>
        have hnext : row'.state = state := congrArg Receipt.state hreceipt
        rcases hstate with rfl | rfl
        · exact .of_retired hcipher (by rw [retainsTaskPayload, hnext]; rfl)
        · exact ⟨hcipher, fun _ => ⟨by rw [retainsTaskPayload, haccepted]; rfl, hkept rfl⟩⟩
  | cancel =>
    cases h
    rcases cancelJob_cases row now with hr | ⟨row₁, he, heffect⟩
    · exact refused hr
    · rw [he] at hrow
      cases hrow
      cases heffect with
      | again => exact .refl row
      | won => exact .of_retired rfl rfl

/-! ## Effects -/

/-- What the passing of time does to a receipt. -/
inductive Aged (now : ℤ) : Option Receipt → Option Receipt → Prop
  | keep (r) : Aged now r r
  | expire (r : Receipt) : r.expires now → Aged now (some r) (some r.expired)

/-- A row that clean-up may delete. -/
def Receipt.disposable (r : Receipt) (now : ℤ) : Prop := r.state ≠ .accepted ∧ r.expiresAt < now

/-- A valid acceptance proof for a row, under the digest that a store takes of the token. -/
def Proven (hash : Value → Except Throw Str) (row : Job) (proof : Value) : Prop :=
  ∃ proofHash, hash proof = .ok proofHash ∧ validProof row proof proofHash = .ok true

/-- The effect of a call on the rows, from `f` to `g`. -/
inductive TaskEffect (hash : Value → Except Throw Str) (now : ℤ) (f g : Jobs) :
    TaskCall → Except Throw TaskAnswer → Prop
  | aged (c a) : (∀ k, Aged now (receiptAt f k) (receiptAt g k)) → c.created now a = none →
    c.claimed a = none → c.finished f g = none → TaskEffect hash now f g c a
  | created (room id : Str) (body : Value) (job : NormalizedJob) (row : Job) (r : Reply) :
    r.status = 201 → normalizeJob room id body now = .ok (some job) → f (room, id) = none →
    g (room, id) = some row → row.state = .queued → row.claimId = none →
    row.expiresAt = job.expiresAt →
    (∀ k, k ≠ (room, id) → Aged now (receiptAt f k) (receiptAt g k)) →
    TaskEffect hash now f g (.put room id body) (.ok (.reply r))
  | cleaned (connected a) : (∀ k, Aged now (receiptAt f k) (receiptAt g k) ∨
      ∃ r, receiptAt f k = some r ∧ r.disposable now ∧ receiptAt g k = none) →
    TaskEffect hash now f g (.clean connected) a
  | claimed (room id : Str) (proof : Value) (row row' : Job) (claimId : Str) (r : Reply) :
    r.status = 200 → (proof.get (lit "claimId")).str? = some claimId → Proven hash row proof →
    ClaimEffect row claimId now row' → f (room, id) = some row →
    receiptAt g (room, id) = some row'.receipt →
    (∀ k, k ≠ (room, id) → receiptAt g k = receiptAt f k) →
    TaskEffect hash now f g (.transition room id .claim proof) (.ok (.reply r))
  | finished (room id : Str) (proof : Value) (row : Job) (claimId : Str) (state : JobState) (a) :
    (proof.get (lit "claimId")).str? = some claimId → Proven hash row proof →
    row.state = .accepted → row.claimId = some claimId → state = .completed ∨ state = .failed →
    f (room, id) = some row → receiptAt g (room, id) = some (row.receipt.moved state now) →
    (∀ k, k ≠ (room, id) → receiptAt g k = receiptAt f k) →
    TaskEffect hash now f g (.transition room id .finish proof) a
  | cancelled (room id : Str) (proof : Value) (row : Job) (a) :
    row.state = .queued ∨ row.state = .failed → f (room, id) = some row →
    receiptAt g (room, id) = some (row.receipt.moved .cancelled now) →
    (∀ k, k ≠ (room, id) → receiptAt g k = receiptAt f k) →
    TaskEffect hash now f g (.transition room id .cancel proof) a

/-- A runtime's job store, with the effect of each of its calls. -/
structure JobStore where
  State : Type
  empty : State
  job : State → Jobs
  call : State → ℤ → TaskCall → Except Throw TaskAnswer × State
  hash : Value → Except Throw Str
  job_empty : ∀ k, job empty k = none
  effect : ∀ s now c, TaskEffect hash now (job s) (job (call s now c).2) c (call s now c).1

section Constructors

variable {hash : Value → Except Throw Str} {now : ℤ} {f g : Jobs} {room id : Str} {body : Value}

theorem TaskCall.finished_eq_none {c : TaskCall} (h : ∀ k, receiptAt g k = receiptAt f k) :
    c.finished f g = none := by
  have hstate (k : RoomKey) : (f k).map Job.state = (g k).map Job.state := by
    have hk := congrArg (Option.map Receipt.state) (h k)
    simp only [receiptAt, Option.map_map] at hk
    exact hk.symm
  cases c with
  | transition room id action body =>
    cases action with
    | finish => exact if_pos (hstate (room, id))
    | _ => rfl
  | _ => rfl

/-- A call that throws, and changes nothing, creates and claims nothing. -/
theorem TaskEffect.thrown (c : TaskCall) (t : Throw) : TaskEffect hash now f f c (.error t) :=
  .aged c _ (fun _ => .keep _) (by cases c <;> rfl) (by
    cases c with
    | transition room id action body => cases action <;> rfl
    | _ => rfl) (TaskCall.finished_eq_none fun _ => rfl)

/-- A `put` that answers something else than 201 creates nothing. -/
theorem TaskEffect.put_aged {r : Reply} (hr : r.status ≠ 201)
    (h : ∀ k, Aged now (receiptAt f k) (receiptAt g k)) :
    TaskEffect hash now f g (.put room id body) (.ok (.reply r)) :=
  .aged _ _ h (if_neg hr) rfl rfl

/-- A transition that answers something else than 200 claims nothing. -/
theorem TaskEffect.transition_refused {action : TaskAction} {r : Reply} (hr : r.status ≠ 200) :
    TaskEffect hash now f f (.transition room id action body) (.ok (.reply r)) := by
  refine .aged _ _ (fun _ => .keep _) rfl ?_ (TaskCall.finished_eq_none fun _ => rfl)
  cases action with
  | claim => exact if_neg hr
  | _ => rfl

/-- The transition of one row, stored in its place. -/
theorem TaskEffect.of_transition {action : TaskAction} {row row' : Job} {result : JobResult}
    {proofHash : Str} {r : Reply} (hf : f (room, id) = some row)
    (hhash : action ≠ .cancel → hash body = .ok proofHash)
    (hresult : transitionJob row action body now proofHash = .ok result)
    (hrow : result.row = some row') (hg : receiptAt g (room, id) = some row'.receipt)
    (hother : ∀ k, k ≠ (room, id) → receiptAt g k = receiptAt f k)
    (hr : r.status = result.status) :
    TaskEffect hash now f g (.transition room id action body) (.ok (.reply r)) := by
  have kept (h : row'.receipt = row.receipt) (k : RoomKey) : receiptAt g k = receiptAt f k := by
    by_cases hk : k = (room, id)
    · subst hk
      rw [hg, h, receiptAt_of_job hf]
    · exact hother k hk
  have again (h : row'.receipt = row.receipt) (k : RoomKey) :
      Aged now (receiptAt f k) (receiptAt g k) := by
    rw [kept h k]
    exact .keep _
  cases action with
  | claim =>
    rcases claimJob_ok hresult with hrefused | ⟨row₁, claimId, rfl, hvalid, hclaim, heffect⟩
    · exact absurd (hrefused.1.symm.trans hrow) nofun
    · cases hrow
      exact .claimed room id body row row' claimId r hr hclaim ⟨proofHash, hhash nofun, hvalid⟩
        heffect hf hg hother
  | finish =>
    rcases finishJob_ok hresult with hrefused |
      ⟨row₁, claimId, rfl, hvalid, hheld, hclaim, heffect⟩
    · exact absurd (hrefused.1.symm.trans hrow) nofun
    · cases hrow
      cases heffect with
      | again => exact .aged _ _ (again rfl) rfl rfl (TaskCall.finished_eq_none (kept rfl))
      | won state _ haccepted hstate hreceipt =>
        exact .finished room id body row claimId state _ hclaim ⟨proofHash, hhash nofun, hvalid⟩
          haccepted hheld hstate hf (hreceipt ▸ hg) hother
  | cancel =>
    cases hresult
    rcases cancelJob_cases row now with hrefused | ⟨row₁, he, heffect⟩
    · exact absurd (hrefused.1.symm.trans hrow) nofun
    · rw [he] at hrow
      cases hrow
      cases heffect with
      | again => exact .aged _ _ (again rfl) rfl rfl (TaskCall.finished_eq_none (kept rfl))
      | won hstate =>
        exact .cancelled room id body row _ hstate hf (receipt_retireJob row .cancelled now ▸ hg)
          hother

end Constructors

/-! ## The states of a job -/

/-- The moves of a job between its states. -/
inductive JobState.Moves : JobState → JobState → Prop
  | accept : Moves .queued .accepted
  | complete : Moves .accepted .completed
  | fail : Moves .accepted .failed
  | cancel : Moves .queued .cancelled
  | expire : Moves .queued .expired
  | discard : Moves .failed .cancelled

variable {hash : Value → Except Throw Str} {now : ℤ} {f g : Jobs} {c : TaskCall}
  {a : Except Throw TaskAnswer} {k : RoomKey}

/-- Two rows with equal receipts agree on what the receipt holds. -/
theorem receipt_eq_of_receiptAt_eq (h : receiptAt g k = receiptAt f k) {row row' : Job}
    (hf : f k = some row) (hg : g k = some row') : row'.receipt = row.receipt := by
  rw [receiptAt_of_job hf, receiptAt_of_job hg] at h
  exact Option.some.inj h

/-- What a call may do to one row: keep its state or move it along an arrow, as the job it was
created as, and never create one that is not queued. -/
def Lawful (before after : Option Receipt) : Prop :=
  match before, after with
  | some r, some r' => r'.fingerprint = r.fingerprint ∧ r'.createdAt = r.createdAt ∧
      (r'.state = r.state ∨ r.state.Moves r'.state)
  | none, some r' => r'.state = .queued
  | _, none => True

theorem Lawful.refl (r : Option Receipt) : Lawful r r := by
  cases r with
  | none => trivial
  | some r => exact ⟨rfl, rfl, .inl rfl⟩

theorem Aged.lawful {r r' : Option Receipt} (h : Aged now r r') : Lawful r r' := by
  cases h with
  | keep => exact .refl _
  | expire r he => exact ⟨rfl, rfl, .inr (show r.state.Moves .expired from he.1 ▸ .expire)⟩

/-- **The moves of a job**: every call keeps the state of a row or moves it along an arrow. -/
theorem TaskEffect.lawful (h : TaskEffect hash now f g c a) (k : RoomKey) :
    Lawful (receiptAt f k) (receiptAt g k) := by
  cases h with
  | aged _ _ h => exact (h k).lawful
  | created room id body job row r _ _ hf hg hstate _ _ hother =>
    by_cases hk : k = (room, id)
    · subst hk
      rw [receiptAt, hf, receiptAt_of_job hg]
      exact hstate
    · exact (hother k hk).lawful
  | cleaned _ _ h =>
    rcases h k with h | ⟨r, hr, -, hg⟩
    · exact h.lawful
    · rw [hr, hg]
      trivial
  | claimed room id proof row row' claimId r _ _ _ heffect hf hg hother =>
    by_cases hk : k = (room, id)
    · subst hk
      rw [receiptAt_of_job hf, hg]
      cases heffect with
      | again => exact .refl _
      | won hq => exact ⟨rfl, rfl, .inr (show row.state.Moves .accepted from hq ▸ .accept)⟩
    · rw [hother k hk]
      exact .refl _
  | finished room id proof row claimId state a _ _ haccepted _ hstate hf hg hother =>
    by_cases hk : k = (room, id)
    · subst hk
      rw [receiptAt_of_job hf, hg]
      refine ⟨rfl, rfl, .inr (show row.state.Moves state from ?_)⟩
      rw [haccepted]
      rcases hstate with rfl | rfl
      · exact .complete
      · exact .fail
    · rw [hother k hk]
      exact .refl _
  | cancelled room id proof row a hstate hf hg hother =>
    by_cases hk : k = (room, id)
    · subst hk
      rw [receiptAt_of_job hf, hg]
      refine ⟨rfl, rfl, .inr (show row.state.Moves .cancelled from ?_)⟩
      rcases hstate with hs | hs
      · exact hs ▸ .cancel
      · exact hs ▸ .discard
    · rw [hother k hk]
      exact .refl _

/-- The call finishes the job at `k`: its proof is valid and carries the claim of the row. -/
def Finishes (hash : Value → Except Throw Str) (row : Job) (c : TaskCall) (k : RoomKey) : Prop :=
  ∃ proof claimId, c = .transition k.1 k.2 .finish proof ∧ row.claimId = some claimId ∧
    (proof.get (lit "claimId")).str? = some claimId ∧ Proven hash row proof

theorem Aged.accepted {r r' : Option Receipt} (h : Aged now r r') {x : Receipt} (hr : r = some x)
    (hx : x.state = .accepted) : r' = some x := by
  cases h with
  | keep => exact hr
  | expire y hy =>
    cases hr
    exact absurd (hx.symm.trans hy.1) (by decide)

/-- **An accepted job stays accepted**, unless the call finishes it. -/
theorem TaskEffect.accepted (h : TaskEffect hash now f g c a) {row : Job} (hf : f k = some row)
    (hrow : row.state = .accepted) :
    receiptAt g k = some row.receipt ∨ Finishes hash row c k := by
  have hfk := receiptAt_of_job hf
  cases h with
  | aged _ _ h => exact .inl ((h k).accepted hfk hrow)
  | created room id body job row' r _ _ hnone _ _ _ _ hother =>
    refine .inl ((hother k fun hk => ?_).accepted hfk hrow)
    rw [hk, hnone] at hf
    cases hf
  | cleaned _ _ h =>
    rcases h k with h | ⟨r, hr, hd, -⟩
    · exact .inl (h.accepted hfk hrow)
    · rw [hfk] at hr
      cases hr
      exact absurd hrow hd.1
  | claimed room id proof row₀ row' claimId r _ _ _ heffect hf₀ hg hother =>
    by_cases hk : k = (room, id)
    · subst hk
      rw [hf] at hf₀
      cases hf₀
      cases heffect with
      | again => exact .inl hg
      | won hq => exact absurd (hrow.symm.trans hq) (by decide)
    · exact .inl ((hother k hk).trans hfk)
  | finished room id proof row₀ claimId state a hclaim hproven _ hheld _ hf₀ hg hother =>
    by_cases hk : k = (room, id)
    · subst hk
      rw [hf] at hf₀
      cases hf₀
      exact .inr ⟨proof, claimId, rfl, hheld, hclaim, hproven⟩
    · exact .inl ((hother k hk).trans hfk)
  | cancelled room id proof row₀ a hstate hf₀ hg hother =>
    by_cases hk : k = (room, id)
    · subst hk
      rw [hf] at hf₀
      cases hf₀
      rw [hrow] at hstate
      exact absurd hstate (by decide)
    · exact .inl ((hother k hk).trans hfk)

end GrantTap
