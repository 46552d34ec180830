import GrantTapRelay.Wake.Delivery

/-!
# The wake throttle

Two attempts for one room start at least `WAKE_INTERVAL_MS` apart because the record keeps the start
of the last one (`lastSentAt`) through every rewrite. The purge deletes the record, and this start
with it. `throttled`: the throttle holds in every run whose purges delete no start younger than the
interval; `purged_throttle`: it fails in a run where one does.
-/

namespace GrantTap

open Js Runs

namespace Wakes

/-- The starts of the attempts whose claim is durable, newest first. -/
def claims (log : List WakeEvent) : List ℤ :=
  log.filterMap fun event => match event with
    | .claimed stamp _ => some stamp
    | _ => none

/-- The starts of the attempts whose push was sent, newest first. -/
def starts (log : List WakeEvent) : List ℤ :=
  log.filterMap fun event => match event with
    | .started stamp => some stamp
    | _ => none

/-- Newest first, each start is an interval after the next. -/
def Spaced (stamps : List ℤ) : Prop :=
  stamps.Pairwise fun later earlier => earlier + WAKE_INTERVAL_MS ≤ later

/-- An attempt that started at `stamp` is over for the throttle, or the record keeps its start. -/
def Guards (stamp clock : ℤ) (record : Option WakeRecord) : Prop :=
  stamp + WAKE_INTERVAL_MS ≤ clock ∨ ∃ r, record = some r ∧ r.lastSentAt = some stamp ∧
    ∀ p, r.pending = some p → ∃ at', r.nextAt = some at' ∧ stamp + WAKE_INTERVAL_MS ≤ at'

/-- A claimed record keeps its start. -/
def Claims (stamp : ℤ) (claimed : WakeRecord) : Prop :=
  claimed.lastSentAt = some stamp ∧ claimed.nextAt = some (stamp + WAKE_INTERVAL_MS)

/-- What the running action knows of the last start. -/
def PhaseGuards (last : Option ℤ) (clock : ℤ) : WakePhase → Prop
  | .checking _ previous => ∀ s ∈ last, Guards s clock previous
  | .accepting _ state => ∀ s ∈ last, Guards s clock (some state)
  | .deciding state => ∀ s ∈ last, Guards s clock state
  | .closing state => ∀ s ∈ last, Guards s clock (some state)
  | .claiming stamp claimed =>
    Claims stamp claimed ∧ stamp ≤ clock ∧ ∀ s ∈ last, s + WAKE_INTERVAL_MS ≤ stamp
  | .calling stamp claimed => Claims stamp claimed ∧ last = some stamp
  | .sending stamp claimed => Claims stamp claimed ∧ last = some stamp
  | .settling stamp claimed => Claims stamp claimed ∧ last = some stamp
  | _ => True

/-- The claims whose push may have been sent: all but the one that is about to be. -/
def sendable (w : Wakes) : List ℤ :=
  match w.phase with
  | .calling _ _ => (claims w.log).tail
  | _ => claims w.log

/-- The invariant of the throttle. -/
structure Throttled (w : Wakes) : Prop where
  spaced : Spaced (claims w.log)
  past : ∀ s ∈ claims w.log, s ≤ w.clock
  sent : (starts w.log).Sublist w.sendable
  record : ∀ s ∈ (claims w.log).head?, Guards s w.clock w.record
  phase : PhaseGuards (claims w.log).head? w.clock w.phase

/-- A purge in time: it deletes no start younger than the interval. -/
def Timely (w : Wakes) : WakeLabel → Prop
  | .purge => ∀ r ∈ w.record, r.purges w.clock = true → ∀ s ∈ r.lastSentAt,
      s + WAKE_INTERVAL_MS ≤ w.clock
  | _ => True

/-! ## The record -/

variable {sha256 : Str → Str} {w : Wakes} {s clock clock' : ℤ} {record : Option WakeRecord}

theorem Guards.mono (h : Guards s clock record) (hle : clock ≤ clock') : Guards s clock' record :=
  h.imp (fun h => h.trans hle) id

theorem PhaseGuards.mono {last : Option ℤ} {phase : WakePhase} (h : PhaseGuards last clock phase)
    (hle : clock ≤ clock') : PhaseGuards last clock' phase := by
  cases phase with
  | checking => exact fun s hs => (h s hs).mono hle
  | accepting => exact fun s hs => (h s hs).mono hle
  | deciding => exact fun s hs => (h s hs).mono hle
  | closing => exact fun s hs => (h s hs).mono hle
  | claiming => exact ⟨h.1, h.2.1.trans hle, h.2.2⟩
  | _ => exact h

/-- Accepting an envelope keeps the start of the last attempt. -/
theorem Guards.accept {previous : Option WakeRecord} {state : WakeRecord} {now : ℤ}
    {receipt : WakeReceipt} (h : Guards s clock previous)
    (hstate : (previous.getD .empty).accept now receipt = some state) :
    Guards s clock (some state) := by
  refine h.imp_right ?_
  rintro ⟨r, rfl, hlast, -⟩
  unfold WakeRecord.accept at hstate
  split_ifs at hstate
  obtain rfl := Option.some.inj hstate
  refine ⟨_, rfl, hlast, fun p _ => ⟨_, rfl, ?_⟩⟩
  rw [Option.getD_some, hlast]
  exact le_max_right _ _

theorem Guards.close {r : WakeRecord} (h : Guards s clock (some r)) :
    Guards s clock (some r.close) := by
  refine h.imp_right ?_
  rintro ⟨r', he, hlast, -⟩
  cases he
  exact ⟨_, rfl, hlast, nofun⟩

theorem Claims.guards {claimed : WakeRecord} (h : Claims s claimed) :
    Guards s clock (some claimed) :=
  .inr ⟨claimed, rfl, h.1, fun _ _ => ⟨_, h.2, le_rfl⟩⟩

/-- What `wakeDecision` claims is due. -/
theorem wakeDecision_claim {state : Option WakeRecord} {now : ℤ} {r : WakeRecord} {p : WakePending}
    (h : wakeDecision state now = .claim r p) :
    state = some r ∧ r.pending = some p ∧ now < p.expiresAt ∧ p.attempts < MAX_ATTEMPTS ∧
      r.nextAt.getD 0 ≤ now := by
  unfold wakeDecision at h
  split at h
  · cases h
  · split at h
    · cases h
    · rename_i hpending
      split_ifs at h with hover hlate
      cases h
      rw [not_or, not_le, not_le] at hover
      exact ⟨rfl, hpending, hover.1, hover.2, not_lt.1 hlate⟩

theorem wakeDecision_close {state : Option WakeRecord} {now : ℤ} {r : WakeRecord}
    (h : wakeDecision state now = .close r) :
    state = some r ∧ ∃ p, r.pending = some p ∧ (p.expiresAt ≤ now ∨ MAX_ATTEMPTS ≤ p.attempts) := by
  unfold wakeDecision at h
  split at h
  · cases h
  · split at h
    · cases h
    · rename_i p hpending
      split_ifs at h with hover
      cases h
      exact ⟨rfl, p, hpending, hover⟩

/-- An attempt is claimed an interval after the last one. -/
theorem Guards.claim {state : Option WakeRecord} {r : WakeRecord} {p : WakePending}
    (h : Guards s clock state) (hclaim : wakeDecision state clock = .claim r p) :
    s + WAKE_INTERVAL_MS ≤ clock := by
  obtain ⟨rfl, hpending, -, -, hdue⟩ := wakeDecision_claim hclaim
  rcases h with h | ⟨r', he, -, hnext⟩
  · exact h
  · cases he
    obtain ⟨at', hat, hle⟩ := hnext p hpending
    rw [hat, Option.getD_some] at hdue
    exact hle.trans hdue

/-! ## Steps -/

theorem sendable_sublist (w : Wakes) : w.sendable.Sublist (claims w.log) := by
  unfold sendable
  split
  · exact List.tail_sublist _
  · exact List.Sublist.refl _

/-- A step that neither claims nor sends keeps the throttle when it keeps the guards. -/
theorem Throttled.quiet {v : Wakes} (h : w.Throttled) (hclock : v.clock = w.clock)
    (hclaims : claims v.log = claims w.log) (hstarts : starts v.log = starts w.log)
    (hsendable : ∀ stamp claimed, v.phase ≠ .calling stamp claimed)
    (hrecord : ∀ s ∈ (claims w.log).head?, Guards s w.clock v.record)
    (hphase : PhaseGuards (claims w.log).head? w.clock v.phase) : v.Throttled where
  spaced := hclaims ▸ h.spaced
  past := by
    rw [hclaims, hclock]
    exact h.past
  sent := by
    have hall : v.sendable = claims w.log := by
      unfold sendable
      split
      · rename_i hv
        exact absurd hv (hsendable _ _)
      · exact hclaims
    rw [hstarts, hall]
    exact h.sent.trans w.sendable_sublist
  record := by
    rw [hclaims, hclock]
    exact hrecord
  phase := by
    rw [hclaims, hclock]
    exact hphase

theorem Throttled.begin (h : w.Throttled) (hidle : w.phase = .idle) :
    (w.begin sha256).Throttled := by
  have hnot : ∀ stamp claimed, w.phase ≠ .calling stamp claimed := fun _ _ he => by
    rw [hidle] at he
    cases he
  unfold Wakes.begin
  split
  · exact h
  · exact h.quiet rfl rfl rfl nofun h.record trivial
  · dsimp only
    split_ifs
    · exact h.quiet rfl rfl rfl hnot h.record h.phase
    · exact h.quiet rfl rfl rfl nofun h.record trivial

theorem Throttled.decide (h : w.Throttled) {state : Option WakeRecord}
    (hstate : ∀ s ∈ (claims w.log).head?, Guards s w.clock state) :
    ({ w with phase := w.decide state } : Wakes).Throttled := by
  unfold Wakes.decide
  cases hd : wakeDecision state w.clock with
  | rest => exact h.quiet rfl rfl rfl nofun h.record trivial
  | close r =>
    obtain ⟨rfl, -⟩ := wakeDecision_close hd
    exact h.quiet rfl rfl rfl nofun h.record fun s hs => (hstate s hs).close
  | claim r p =>
    exact h.quiet rfl rfl rfl nofun h.record
      ⟨⟨rfl, rfl⟩, le_rfl, fun s hs => (hstate s hs).claim hd⟩

/-- The push of the last claim is sent. -/
theorem Throttled.call (h : w.Throttled) {stamp : ℤ} {claimed : WakeRecord}
    (hphase : w.phase = .calling stamp claimed) :
    ({ w with phase := .sending stamp claimed, log := .started stamp :: w.log } :
      Wakes).Throttled := by
  obtain ⟨hclaims, hlast⟩ : Claims stamp claimed ∧ (claims w.log).head? = some stamp := by
    have hp := h.phase
    rw [hphase] at hp
    exact hp
  have hcons : claims w.log = stamp :: (claims w.log).tail := by
    obtain ⟨rest, hrest⟩ := List.head?_eq_some_iff.1 hlast
    rw [hrest, List.tail_cons]
  refine ⟨h.spaced, h.past, ?_, h.record, ⟨hclaims, hlast⟩⟩
  have hsent := h.sent
  unfold sendable at hsent
  rw [hphase] at hsent
  change (stamp :: starts w.log).Sublist (claims w.log)
  rw [hcons]
  exact hsent.cons_cons stamp

theorem Throttled.go (h : w.Throttled) : (w.go sha256).Throttled := by
  unfold Wakes.go
  have hphase := h.phase
  split <;> rename_i hp
  · exact h.begin hp
  · exact h.quiet rfl rfl rfl nofun h.record h.record
  · rw [hp] at hphase
    split <;> rename_i hstate
    · exact h.quiet rfl rfl rfl nofun h.record trivial
    · exact h.quiet rfl rfl rfl nofun h.record fun s hs => (hphase s hs).accept hstate
  · exact h.quiet rfl rfl rfl nofun h.record h.record
  · rw [hp] at hphase
    exact h.decide hphase
  · exact h.call hp
  · exact h

/-- The claim becomes durable. -/
theorem Throttled.claim (h : w.Throttled) {stamp : ℤ} {claimed : WakeRecord} {attempt : ℕ}
    (hphase : w.phase = .claiming stamp claimed) :
    ({ w with
      record := some claimed
      phase := .calling stamp claimed
      log := .claimed stamp attempt :: w.log } : Wakes).Throttled := by
  obtain ⟨hclaims, hpast, hspaced⟩ : Claims stamp claimed ∧ stamp ≤ w.clock ∧
      ∀ s ∈ (claims w.log).head?, s + WAKE_INTERVAL_MS ≤ stamp := by
    have hp := h.phase
    rw [hphase] at hp
    exact hp
  have hlog : claims (.claimed stamp attempt :: w.log) = stamp :: claims w.log := rfl
  refine ⟨?_, ?_, ?_, ?_, ⟨hclaims, rfl⟩⟩
  · rw [Spaced, hlog]
    refine List.pairwise_cons.2 ⟨fun s hs => ?_, h.spaced⟩
    -- the last start is the latest of the earlier ones
    cases hc : claims w.log with
    | nil =>
      rw [hc] at hs
      cases hs
    | cons last rest =>
      have hlast : last + WAKE_INTERVAL_MS ≤ stamp := hspaced last (by rw [hc]; rfl)
      have hsp := h.spaced
      rw [Spaced, hc, List.pairwise_cons] at hsp
      rw [hc] at hs
      rcases List.mem_cons.1 hs with rfl | hs
      · exact hlast
      · have hle := hsp.1 s hs
        unfold WAKE_INTERVAL_MS at hle hlast ⊢
        omega
  · rw [hlog]
    exact List.forall_mem_cons.2 ⟨hpast, h.past⟩
  · have hsent := h.sent
    unfold sendable at hsent
    rw [hphase] at hsent
    exact hsent
  · rintro s hs
    obtain rfl : stamp = s := Option.some.inj hs
    exact hclaims.guards

theorem Throttled.write (h : w.Throttled) (ok : Bool) : (w.write ok).Throttled := by
  have hphase := h.phase
  unfold Wakes.write
  split
  · rename_i hp
    rw [hp] at hphase
    split_ifs
    · exact h.quiet rfl rfl rfl nofun hphase trivial
    · exact h.quiet rfl rfl rfl nofun h.record trivial
  · rename_i hp
    rw [hp] at hphase
    refine h.quiet rfl rfl rfl nofun ?_ trivial
    dsimp only
    split_ifs
    · exact hphase
    · exact h.record
  · rename_i hp
    split_ifs
    · exact h.claim hp
    · exact h.quiet rfl rfl rfl nofun h.record trivial
  · rename_i hp
    rw [hp] at hphase
    obtain ⟨hclaims, hlast⟩ := hphase
    refine h.quiet rfl rfl rfl nofun ?_ trivial
    dsimp only
    split_ifs
    · rintro s hs
      obtain rfl : _ = s := Option.some.inj (hlast.symm.trans hs)
      exact hclaims.guards.close
    · exact h.record
  · exact h

theorem Throttled.outcome (h : w.Throttled) (ok : Bool) : (w.outcome ok).Throttled := by
  have hphase := h.phase
  unfold Wakes.outcome
  split <;> rename_i hp
  · rw [hp] at hphase
    refine h.quiet rfl ?_ ?_ ?_ h.record ?_ <;> dsimp only
    · cases ok <;> rfl
    · cases ok <;> rfl
    · split_ifs <;> exact nofun
    · split_ifs
      · exact hphase
      · trivial
  · exact h

/-- **Step lemma**: a timely step keeps the throttle. -/
theorem Throttled.next (h : w.Throttled) {label : WakeLabel} (ht : w.Timely label) :
    (w.next sha256 label).Throttled := by
  cases label with
  | tick time =>
    have hle : w.clock ≤ max w.clock time := le_max_left _ _
    exact ⟨h.spaced, fun s hs => (h.past s hs).trans hle, h.sent,
      fun s hs => (h.record s hs).mono hle, h.phase.mono hle⟩
  | submit action => exact ⟨h.spaced, h.past, h.sent, h.record, h.phase⟩
  | go => exact h.go
  | write ok => exact h.write ok
  | outcome ok => exact h.outcome ok
  | restart => exact h.quiet rfl rfl rfl nofun h.record trivial
  | purge =>
    refine ⟨h.spaced, h.past, h.sent, fun s hs => ?_, h.phase⟩
    rcases h.record s hs with hdone | ⟨r, hr, hlast, hnext⟩
    · exact .inl hdone
    · by_cases hpurge : r.purges w.clock = true
      · exact .inl (ht r hr hpurge s hlast)
      · refine .inr ⟨r, ?_, hlast, hnext⟩
        change w.record.filter _ = some r
        rw [hr, Option.filter_some, if_pos (by simpa using hpurge)]

theorem throttled_start (clock : ℤ) : (start clock).Throttled :=
  ⟨.nil, nofun, .slnil, nofun, trivial⟩

/-- A timely step. -/
def TimelyStep (sha256 : Str → Str) (w : Wakes) (label : WakeLabel) (w' : Wakes) : Prop :=
  w.Timely label ∧ w.next sha256 label = w'

theorem Throttled.step {w' : Wakes} {label : WakeLabel} (h : w.Throttled)
    (hs : TimelyStep sha256 w label w') : w'.Throttled := by
  obtain ⟨ht, rfl⟩ := hs
  exact h.next ht

theorem timelyStep_of_not_purge {label : WakeLabel} (h : label.isPurge = false) (w : Wakes) :
    TimelyStep sha256 w label (w.next sha256 label) := by
  refine ⟨?_, rfl⟩
  cases label <;> trivial

/-- A run without a purge is timely. -/
theorem timely_run {labels : List WakeLabel} (h : labels.all (!·.isPurge) = true) (w : Wakes) :
    Run (TimelyStep sha256) w labels (labels.foldl (Wakes.next sha256) w) := by
  induction labels generalizing w with
  | nil => exact .nil w
  | cons label labels ih =>
    rw [List.all_cons, Bool.and_eq_true] at h
    exact .cons (timelyStep_of_not_purge (by simpa using h.1) w) (ih h.2 _)

end Wakes

/-- **Wake pushes are throttled** in every run whose purges are timely: the starts of the attempts
of a room, newest first, are an interval apart. -/
theorem throttled (sha256 : Str → Str) {clock : ℤ} {labels : List WakeLabel} {w : Wakes}
    (hrun : Run (Wakes.TimelyStep sha256) (.start clock) labels w) :
    Wakes.Spaced (Wakes.starts w.log) := by
  have h : w.Throttled :=
    hrun.invariant (fun _ _ _ h hs => Wakes.Throttled.step h hs) (Wakes.throttled_start clock)
  exact h.spaced.sublist (h.sent.trans w.sendable_sublist)

/-! ## Runs -/

section Sample

/-- An envelope that wakes a phone. -/
def sampleWake (deliveryId : String) (expiresAt : ℤ) : Json := .obj
  [(lit "senderId", .text "machine"), (lit "deliveryId", .text deliveryId),
    (lit "expiresAt", .int expiresAt)]

/-- A request from an empty queue to a successful push. -/
def sampleSend (envelope : Json) : List WakeLabel :=
  [.submit (.request envelope), .go, .go, .go, .write true, .go, .go, .write true, .go,
    .outcome true, .write true]

/-- A push, a purge after the interval, and a push. -/
def timelyLabels : List WakeLabel := sampleSend (sampleWake "first" 1001000) ++ [.tick 1060000]

theorem timely_sample : Run (Wakes.TimelyStep id) (.start 1000000)
    (timelyLabels ++ ([.purge] ++ sampleSend (sampleWake "second" 1070000)))
    ((sampleSend (sampleWake "second" 1070000)).foldl (Wakes.next id)
      ((timelyLabels.foldl (Wakes.next id) (.start 1000000)).next id .purge)) := by
  have hold : ((timelyLabels.foldl (Wakes.next id) (.start 1000000)).record.all fun r =>
      r.lastSentAt.all fun s => s + WAKE_INTERVAL_MS ≤
        (timelyLabels.foldl (Wakes.next id) (.start 1000000)).clock) = true := by
    decide +kernel
  refine (Wakes.timely_run (by decide) _).append ((Run.single ⟨fun r hr _ s hs => ?_, rfl⟩).append
    (Wakes.timely_run (by decide) _))
  rw [Option.all_eq_true] at hold
  have hr' := hold r hr
  rw [Option.all_eq_true] at hr'
  exact of_decide_eq_true (hr' s hs)

/-- The two pushes of the timely run. -/
theorem throttled_sample :
    Wakes.starts ((sampleSend (sampleWake "second" 1070000)).foldl (Wakes.next id)
      ((timelyLabels.foldl (Wakes.next id) (.start 1000000)).next id .purge)).log =
        [1060000, 1000000] ∧
      Wakes.Spaced (Wakes.starts ((sampleSend (sampleWake "second" 1070000)).foldl (Wakes.next id)
        ((timelyLabels.foldl (Wakes.next id) (.start 1000000)).next id .purge)).log) :=
  ⟨by decide +kernel, throttled id timely_sample⟩

/-- A push whose receipt expires after a second, the purge at that moment, and a push. -/
def purgedLabels : List WakeLabel :=
  sampleSend (sampleWake "first" 1001000) ++ [.tick 1001000, .purge] ++
    sampleSend (sampleWake "second" 1070000)

/-- The purge deletes the start of the last attempt, and the next one starts a second later. -/
theorem purged_throttle :
    ¬∀ (clock : ℤ) (labels : List WakeLabel) (w : Wakes),
      Run (fun w label w' => w.next id label = w') (.start clock) labels w →
        Wakes.Spaced (Wakes.starts w.log) := by
  intro h
  have hspaced := h 1000000 purgedLabels _ (foldl_run (Wakes.next id) _ _)
  have hstarts : Wakes.starts (purgedLabels.foldl (Wakes.next id) (.start 1000000)).log =
      [1001000, 1000000] := by decide +kernel
  rw [hstarts, Wakes.Spaced, List.pairwise_cons] at hspaced
  exact absurd (hspaced.1 1000000 List.mem_cons_self) (by decide)

end Sample

end GrantTap
