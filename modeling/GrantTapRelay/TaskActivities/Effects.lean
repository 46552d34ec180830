import GrantTapRelay.TaskActivities.Endpoint
import GrantTapRelay.TaskActivities.Laws

/-!
# What a step of the endpoint does

`ActivityRelay.Effect` says once what each label does to the rows of the registry, to the chains and
to the log; `effect_of_step` shows that it says everything a step can do. `expiry_of_gone` uses it:
a registration disappears for one of four reasons.
-/

namespace GrantTap

open Js Runs

variable {σ : Type} {R : ActivityRegistry σ}

/-! ### Ageing -/

theorem ActivityRow.live_mono {row : ActivityRow} {asOf now : ℤ} (hle : asOf ≤ now)
    (h : row.live now = true) : row.live asOf = true := by
  simp only [live, decide_eq_true_eq] at h ⊢
  omega

theorem Faded.mono {asOf now : ℤ} {row row' : Option ActivityRow} (hle : asOf ≤ now)
    (h : Faded asOf row row') : Faded now row row' := by
  rcases h with h | ⟨hgone, old, hold, hdead⟩
  · exact .inl h
  · refine .inr ⟨hgone, old, hold, Bool.eq_false_iff.2 fun hlive => ?_⟩
    rw [ActivityRow.live_mono hle hlive] at hdead
    cases hdead

theorem Faded.trans {now : ℤ} {row row' row'' : Option ActivityRow} (h : Faded now row row')
    (h' : Faded now row' row'') : Faded now row row'' := by
  rcases h' with rfl | ⟨hgone, old, hold, hdead⟩
  · exact h
  · rcases h with rfl | ⟨hgone', -⟩
    · exact .inr ⟨hgone, old, hold, hdead⟩
    · rw [hgone'] at hold
      cases hold

/-- A row that is there was there. -/
theorem Faded.of_some {now : ℤ} {row : Option ActivityRow} {new : ActivityRow}
    (h : Faded now row (some new)) : row = some new := by
  rcases h with h | ⟨hgone, -⟩
  · exact h.symm
  · cases hgone

/-- A row that is gone has expired. -/
theorem Faded.expired {now : ℤ} {old : ActivityRow} (h : Faded now (some old) none) :
    old.record.expiresAt ≤ now := by
  rcases h with h | ⟨-, old', hold, hdead⟩
  · cases h
  · cases hold
    simpa [ActivityRow.live] using hdead

theorem liveRow_eq_some {now : ℤ} {row : Option ActivityRow} {live : ActivityRow} :
    liveRow now row = some live ↔ row = some live ∧ live.live now = true :=
  Option.filter_eq_some_iff

/-! ### Outcomes -/

/-- What the checks of a registration let through. -/
theorem ActivityRequest.registrationOutcome_of_outcome {q : ActivityRequest} {now : ℤ}
    {outcome : ActivityOutcome} (h : q.outcome now = outcome)
    (houtcome : (∃ id, outcome = .remove id) ∨ ∃ record body, outcome = .register record body) :
    ∃ body, registrationOutcome q.method body now = outcome := by
  unfold ActivityRequest.outcome at h
  subst h
  grind

theorem ActivityRequest.outcome_register {q : ActivityRequest} {now : ℤ} {record : ActivityRecord}
    {body : Value} (h : q.outcome now = .register record body) :
    activityRegistration? body now = some record := by
  obtain ⟨body', hbody⟩ := registrationOutcome_of_outcome h (.inr ⟨record, body, rfl⟩)
  unfold registrationOutcome at hbody
  grind

/-- Only a `DELETE` removes. -/
theorem ActivityRequest.outcome_remove {q : ActivityRequest} {now : ℤ} {id : Str}
    (h : q.outcome now = .remove id) : q.method = .delete := by
  obtain ⟨body, hbody⟩ := registrationOutcome_of_outcome h (.inl ⟨id, rfl⟩)
  unfold registrationOutcome at hbody
  grind

/-! ### Effects -/

namespace ActivityRelay

/-- What the answer of the provider does to the row of the activity. -/
inductive Answered (update : ActivityUpdate) (sent : ActivitySend) :
    ActivityAnswer → Option ActivityRow → Option ActivityRow → Prop
  | refused {answer : ActivityAnswer} {row row' : Option ActivityRow} (refused : answer.ok = false)
      (aged : Faded sent.startedAt row row') : Answered update sent answer row row'
  | stale {result : ActivitySent} {old : ActivityRow} (stale : result.stale = true)
      (token : old.record.token = sent.route.record.token) :
      Answered update sent (.answered result) (some old) none
  | closed {answer : ActivityAnswer} {row : Option ActivityRow} (ok : answer.ok = true)
      (event : update.event = .finish) : Answered update sent answer row none
  | marked {answer : ActivityAnswer} {row row' : Option ActivityRow} (ok : answer.ok = true)
      (event : update.event = .update)
      (live : ∀ old, liveRow sent.startedAt row = some old →
        row' = some (old.mark update.deliveryId sent.startedAt))
      (dead : liveRow sent.startedAt row = none → Faded sent.startedAt row row') :
      Answered update sent answer row row'

/-- The phase of a delivery that starts. -/
inductive Started (update : ActivityUpdate) (now : ℤ) (configured : Str → Bool) :
    Option ActivityRow → Chains.Phase ActivitySend ActivityReply → Prop
  | replied {route : Option ActivityRow} (reply : ActivityReply) :
      Started update now configured route (.settled reply)
  | sent {route : ActivityRow} (duplicate : route.lastDeliveryId ≠ some update.deliveryId)
      (spaced : update.event = .update → 0 < route.lastDeliveredAt →
        route.lastDeliveredAt + ACTIVITY_WINDOW_MS ≤ now) :
      Started update now configured (some route) (.running ⟨route, now⟩)

/-- Everything a step can do. -/
inductive Effect (L : ActivityLaws R) (s : ActivityRelay σ) :
    ActivityLabel → ActivityRelay σ → Prop
  | tick {now : ℤ} (later : s.clock ≤ now) : Effect L s (.tick now) { s with clock := now }
  | quiet {q : ActivityRequest} {asOf : ℤ} {configured : Str → Bool} {registry : σ}
      (aged : ∀ k, Faded s.clock (L.row s.registry k) (L.row registry k)) :
      Effect L s (.request q asOf configured) { s with registry := registry }
  | removed {q : ActivityRequest} {asOf : ℤ} {configured : Str → Bool} {registry : σ} {id : Str}
      (outcome : q.outcome asOf = .remove id) (gone : L.row registry ⟨q.room, id⟩ = none)
      (aged : ∀ k, k ≠ ⟨q.room, id⟩ → Faded s.clock (L.row s.registry k) (L.row registry k)) :
      Effect L s (.request q asOf configured) { s with registry := registry }
  | registered {q : ActivityRequest} {asOf : ℤ} {configured : Str → Bool} {registry : σ}
      {k : ActivityKey} {record : ActivityRecord} {fresh : Bool} (early : asOf ≤ s.clock)
      (known : fresh = false → ∃ old, liveRow s.clock (L.row s.registry k) = some old)
      (new : fresh = true → liveRow s.clock (L.row s.registry k) = none)
      (row : L.row registry k = some (.renew (liveRow asOf (L.row s.registry k)) record))
      (aged : ∀ k', k' ≠ k → Faded s.clock (L.row s.registry k') (L.row registry k')) :
      Effect L s (.request q asOf configured)
        { s with registry := registry, log := .registered k fresh :: s.log }
  | enqueued {q : ActivityRequest} {asOf : ℤ} {configured : Str → Bool} (k : ActivityKey)
      (update : ActivityUpdate) :
      Effect L s (.request q asOf configured)
        { s with inFlight := s.inFlight.enqueue k update }
  | started {n : ℕ} {configured : Str → Bool} {registry : σ}
      {link : Chains.Link ActivityKey ActivityUpdate ActivitySend ActivityReply}
      {phase : Chains.Phase ActivitySend ActivityReply}
      (link_eq : s.inFlight.links[n]? = some link) (ready : s.inFlight.Ready n)
      (phase_eq : Started link.job s.clock configured
        (liveRow s.clock (L.row s.registry link.key)) phase)
      (aged : ∀ k, Faded s.clock (L.row s.registry k) (L.row registry k)) :
      Effect L s (.start n configured)
        { s with registry := registry, inFlight := s.inFlight.advance n phase }
  | answered {n : ℕ} {answer : ActivityAnswer} {registry : σ}
      {link : Chains.Link ActivityKey ActivityUpdate ActivitySend ActivityReply}
      {sent : ActivitySend} {reply : ActivityReply} (link_eq : s.inFlight.links[n]? = some link)
      (running : link.phase = .running sent)
      (row : Answered link.job sent answer (L.row s.registry link.key) (L.row registry link.key))
      (aged : ∀ k, k ≠ link.key → Faded sent.startedAt (L.row s.registry k) (L.row registry k)) :
      Effect L s (.answer n answer)
        { s with
          registry := registry
          inFlight := s.inFlight.advance n (.settled reply)
          log := if answer.ok then
            .accepted link.key link.job.deliveryId link.job.event sent.startedAt :: s.log
            else s.log }
  | finished {n : ℕ} {link : Chains.Link ActivityKey ActivityUpdate ActivitySend ActivityReply}
      (link_eq : s.inFlight.links[n]? = some link) (settled : link.phase.Settled) :
      Effect L s (.finish n) { s with inFlight := s.inFlight.finish link.key n }

variable (L : ActivityLaws R) {s t : ActivityRelay σ}

theorem effect_request {q : ActivityRequest} {asOf : ℤ} (configured : Str → Bool)
    (hearly : asOf ≤ s.clock) :
    Effect L s (.request q asOf configured) (s.request R q asOf configured).2 := by
  unfold request
  cases houtcome : q.outcome asOf with
  | reply reply => exact .quiet fun k => .refl ..
  | list => exact .quiet fun k => (L.list ..).mono hearly
  | remove id =>
    obtain ⟨hgone, haged⟩ := L.remove s.registry ⟨q.room, id⟩ asOf
    exact .removed houtcome hgone fun k hk => (haged k hk).mono hearly
  | register record body =>
    dsimp only
    have hrecord := ActivityRequest.outcome_register houtcome
    have hknown : s.registered R ⟨q.room, record.activityId⟩ =
        (liveRow s.clock (L.row s.registry ⟨q.room, record.activityId⟩)).isSome :=
      congrArg Option.isSome (L.get ..).1
    rcases L.register s.registry q.room body asOf with
      ⟨record', hrecord', hdone, hrow, haged⟩ | ⟨hdone, haged⟩
    · rw [hrecord] at hrecord'
      cases hrecord'
      rw [if_pos hdone]
      refine .registered hearly (fun hfresh => ?_) (fun hfresh => ?_) hrow
        fun k hk => (haged k hk).mono hearly
      · rw [hknown, Bool.not_eq_false'] at hfresh
        exact Option.isSome_iff_exists.1 hfresh
      · rwa [hknown, Bool.not_eq_true', Option.isSome_eq_false_iff, Option.isNone_iff_eq_none]
          at hfresh
    · rw [if_neg (by rw [hdone]; exact Bool.false_ne_true)]
      exact .quiet fun k => (haged k).mono hearly
  | enqueue update => exact .enqueued ⟨q.room, update.activityId⟩ update

theorem started_startDelivery (route : Option ActivityRow) (update : ActivityUpdate) (now : ℤ)
    (configured : Str → Bool) :
    Started update now configured route (match startDelivery route update now configured with
      | .inl reply => .settled reply
      | .inr route => .running ⟨route, now⟩) := by
  unfold startDelivery
  cases route with
  | none => exact .replied _
  | some route =>
    dsimp only
    split_ifs with hduplicate _ hwindow
    · exact .replied _
    · exact .replied _
    · exact .replied _
    · refine .sent hduplicate fun hevent hlast => ?_
      rw [hevent] at hwindow
      by_contra hclose
      exact hwindow ⟨nofun, hlast, by omega⟩

theorem answered_finishDelivery (s : σ) (k : ActivityKey) (update : ActivityUpdate)
    (sent : ActivitySend) (answer : ActivityAnswer) :
    Answered update sent answer (L.row s k)
        (L.row (finishDelivery R s k update sent answer).2 k) ∧
      ∀ k', k' ≠ k → Faded sent.startedAt (L.row s k')
        (L.row (finishDelivery R s k update sent answer).2 k') := by
  unfold finishDelivery
  cases answer with
  | failed => exact ⟨.refused rfl (.refl ..), fun k' _ => .refl ..⟩
  | answered result =>
    dsimp only
    split_ifs with hstale htoken hok hevent
    · obtain ⟨hlive, hrow, haged⟩ := L.get s k sent.startedAt
      obtain ⟨hgone, hothers⟩ := L.remove (R.get s k sent.startedAt).2 k sent.startedAt
      dsimp only
      refine ⟨?_, fun k' hk => (haged k').trans (hothers k' hk)⟩
      rw [hlive, Option.map_eq_some_iff] at htoken
      obtain ⟨old, hold, htoken⟩ := htoken
      rw [(liveRow_eq_some.1 hold).1, hgone]
      exact .stale hstale htoken
    · obtain ⟨-, -, haged⟩ := L.get s k sent.startedAt
      exact ⟨.refused (result.refused hstale) (haged k), fun k' _ => haged k'⟩
    · exact ⟨.refused (by simpa using hok) (.refl ..), fun k' _ => .refl ..⟩
    · obtain ⟨-, -, haged⟩ := L.delivered s k update.deliveryId sent.startedAt
      obtain ⟨hgone, hothers⟩ :=
        L.remove (R.delivered s k update.deliveryId sent.startedAt) k sent.startedAt
      dsimp only
      rw [hgone]
      exact ⟨.closed (by simpa using hok) hevent, fun k' hk => (haged k' hk).trans (hothers k' hk)⟩
    · obtain ⟨hlive, hdead, haged⟩ := L.delivered s k update.deliveryId sent.startedAt
      refine ⟨.marked (by simpa using hok) ?_ hlive hdead, haged⟩
      cases hupdate : update.event with
      | update => rfl
      | finish => exact absurd hupdate hevent

theorem effect_of_step {a : ActivityLabel} (h : Step R s a t) : Effect L s a t := by
  unfold Step at h
  cases a with
  | tick now =>
    simp only [next] at h
    split_ifs at h with hlater
    cases h
    exact .tick hlater
  | request q asOf configured =>
    simp only [next] at h
    split_ifs at h with hearly
    cases h
    exact effect_request L configured hearly
  | start n configured =>
    simp only [next] at h
    split at h
    · cases h
    · rename_i link hlink
      split_ifs at h with hready
      cases h
      obtain ⟨hlive, -, haged⟩ := L.get s.registry link.key s.clock
      refine .started hlink hready ?_ haged
      rw [hlive]
      exact started_startDelivery ..
  | answer n answer =>
    simp only [next] at h
    split at h
    · rename_i k update previous sent hlink
      cases h
      obtain ⟨hrow, haged⟩ := answered_finishDelivery L s.registry k update sent answer
      exact .answered hlink rfl hrow haged
    · cases h
  | finish n =>
    simp only [next] at h
    split at h
    · rename_i hlink
      cases h
      exact .finished hlink trivial
    · cases h

/-! ### Why a registration disappears -/

/-- The registration of an activity is gone, or a fresh one took its place. -/
def Gone (s t : ActivityRelay σ) (k : ActivityKey) : Prop :=
  L.row t.registry k = none ∨ t.log = .registered k true :: s.log

/-- The four reasons. -/
inductive Dismissed (s : ActivityRelay σ) (k : ActivityKey) (old : ActivityRow) :
    ActivityLabel → Prop
  | deleted {q : ActivityRequest} {asOf : ℤ} {configured : Str → Bool} (method : q.method = .delete)
      (room : q.room = k.room) (outcome : q.outcome asOf = .remove k.activityId) :
      Dismissed s k old (.request q asOf configured)
  | expired {a : ActivityLabel} (expired : old.record.expiresAt ≤ s.clock) : Dismissed s k old a
  | ended {n : ℕ} {answer : ActivityAnswer}
      {link : Chains.Link ActivityKey ActivityUpdate ActivitySend ActivityReply}
      {sent : ActivitySend} (link_eq : s.inFlight.links[n]? = some link) (key : link.key = k)
      (running : link.phase = .running sent) (event : link.job.event = .finish)
      (ok : answer.ok = true) : Dismissed s k old (.answer n answer)
  | stale {n : ℕ} {result : ActivitySent}
      {link : Chains.Link ActivityKey ActivityUpdate ActivitySend ActivityReply}
      {sent : ActivitySend} (link_eq : s.inFlight.links[n]? = some link) (key : link.key = k)
      (running : link.phase = .running sent) (stale : result.stale = true)
      (token : old.record.token = sent.route.record.token) :
      Dismissed s k old (.answer n (.answered result))

/-- **A registration disappears by `DELETE`, by expiry, after an end, or after a stale verdict on
the token it holds.** -/
theorem dismissed_of_gone {a : ActivityLabel} {k : ActivityKey} {old : ActivityRow}
    (htime : ∀ (n : ℕ) link sent, s.inFlight.links[n]? = some link →
      link.phase = .running sent → sent.startedAt ≤ s.clock)
    (hstep : Step R s a t) (hold : L.row s.registry k = some old) (hgone : Gone L s t k) :
    Dismissed s k old a := by
  have hlog {entry : ActivityEntry} (h : s.log = entry :: s.log) : False :=
    (List.cons_ne_self entry s.log) h.symm
  have hexpired {asOf : ℤ} (hle : asOf ≤ s.clock)
      (h : Faded asOf (L.row s.registry k) (none : Option ActivityRow)) :
      Dismissed s k old a := by
    rw [hold] at h
    exact .expired (h.expired.trans hle)
  cases effect_of_step L hstep with
  | tick =>
    rcases hgone with hgone | hgone
    · exact absurd (hold.symm.trans hgone) (by simp)
    · exact (hlog hgone).elim
  | quiet haged =>
    rcases hgone with hgone | hgone
    · exact hexpired le_rfl (hgone ▸ haged k)
    · exact (hlog hgone).elim
  | @removed q asOf configured registry id houtcome _ haged =>
    rcases hgone with hgone | hgone
    · by_cases hk : k = ⟨q.room, id⟩
      · subst hk
        exact .deleted (ActivityRequest.outcome_remove houtcome) rfl houtcome
      · exact hexpired le_rfl (hgone ▸ haged k hk)
    · exact (hlog hgone).elim
  | @registered q asOf configured registry k' record fresh hearly hknown hnew hrow haged =>
    by_cases hk : k = k'
    · subst hk
      rcases hgone with hgone | hgone
      · exact absurd (hrow.symm.trans hgone) (by simp)
      · obtain ⟨-, rfl⟩ : k = k ∧ fresh = true := by simpa using hgone
        have hdead := hnew rfl
        refine .expired ?_
        rw [hold] at hdead
        by_contra hlive
        have hlive : old.live s.clock = true := by simpa [ActivityRow.live] using hlive
        rw [liveRow, Option.filter_some, if_pos hlive] at hdead
        cases hdead
    · rcases hgone with hgone | hgone
      · exact hexpired le_rfl (hgone ▸ haged k hk)
      · obtain ⟨hkey, -⟩ : k' = k ∧ fresh = true := by simpa using hgone
        exact absurd hkey.symm hk
  | enqueued =>
    rcases hgone with hgone | hgone
    · exact absurd (hold.symm.trans hgone) (by simp)
    · exact (hlog hgone).elim
  | started _ _ _ haged =>
    rcases hgone with hgone | hgone
    · exact hexpired le_rfl (hgone ▸ haged k)
    · exact (hlog hgone).elim
  | @answered n answer registry link sent reply hlink hrunning hrow haged =>
    have hle := htime n link sent hlink hrunning
    have hgone : L.row registry k = none := by
      rcases hgone with hgone | hgone
      · exact hgone
      · dsimp only at hgone
        split_ifs at hgone
        · cases hgone
        · exact (hlog hgone).elim
    by_cases hk : k = link.key
    · subst hk
      rw [hold, hgone] at hrow
      cases hrow with
      | refused _ haged => exact .expired (haged.expired.trans hle)
      | stale hstale htoken => exact .stale hlink rfl hrunning hstale htoken
      | closed hok hevent => exact .ended hlink rfl hrunning hevent hok
      | marked _ _ hlive hdead =>
        cases hcase : liveRow sent.startedAt (some old) with
        | none => exact .expired ((hdead hcase).expired.trans hle)
        | some live => exact absurd (hlive live hcase) (by simp)
    · exact hexpired hle (hgone ▸ haged k hk)
  | finished =>
    rcases hgone with hgone | hgone
    · exact absurd (hold.symm.trans hgone) (by simp)
    · exact (hlog hgone).elim

end ActivityRelay

end GrantTap
