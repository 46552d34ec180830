import GrantTapRelay.TaskActivities.Effects

/-!
# Activity deliveries, one at a time

`receipts` reads from the log what the provider accepted for an activity since its last fresh
registration, newest first. `ActivityRelay.Orderly` is the invariant: the chains of `inFlight` are
serial, the row of an unexpired registration holds the newest receipt, and a delivery that waits
for the provider started a window after every receipt.

* `activities_serialized`: with either registry, deliveries of an activity go out one at a time,
  accepted updates of a registration start ten seconds apart, and a registration disappears for one
  of four reasons.
-/

namespace GrantTap

open Js Runs

/-- A delivery that the provider accepted. -/
structure ActivityReceipt where
  deliveryId : Str
  event : ActivityEvent
  startedAt : ℤ
  deriving DecidableEq

/-- The receipts of an activity since its last fresh registration, newest first. -/
def receipts (k : ActivityKey) : List ActivityEntry → List ActivityReceipt
  | [] => []
  | .registered k' fresh :: log => if k' = k ∧ fresh then [] else receipts k log
  | .accepted k' id event startedAt :: log =>
    if k' = k then ⟨id, event, startedAt⟩ :: receipts k log else receipts k log

/-- The first is newer, and an update starts a window after the second. -/
def ActivityReceipt.Follows (newer older : ActivityReceipt) : Prop :=
  older.startedAt ≤ newer.startedAt ∧
    (newer.event = .update → older.startedAt + ACTIVITY_WINDOW_MS ≤ newer.startedAt)

namespace ActivityRelay

variable {σ : Type} {R : ActivityRegistry σ} (L : ActivityLaws R) {s t : ActivityRelay σ}

/-- The invariant. -/
structure Orderly (s : ActivityRelay σ) : Prop where
  positive : 0 < s.clock
  serial : s.inFlight.Serial
  past : ∀ k, ∀ receipt ∈ receipts k s.log, 0 < receipt.startedAt ∧ receipt.startedAt ≤ s.clock
  ordered : ∀ k, (receipts k s.log).Pairwise ActivityReceipt.Follows
  /-- The row of an unexpired registration holds the newest receipt. -/
  held : ∀ k row receipt, liveRow s.clock (L.row s.registry k) = some row →
    (receipts k s.log).head? = some receipt →
      row.lastDeliveryId = some receipt.deliveryId ∧ row.lastDeliveredAt = receipt.startedAt
  /-- A delivery that waits for the provider started after every receipt. -/
  sending : ∀ (n : ℕ) link sent, s.inFlight.links[n]? = some link → link.phase = .running sent →
    0 < sent.startedAt ∧ sent.startedAt ≤ s.clock ∧ ∀ receipt ∈ receipts link.key s.log,
      ActivityReceipt.Follows ⟨link.job.deliveryId, link.job.event, sent.startedAt⟩ receipt

/-! ### Steps -/

theorem orderly_start {clock : ℤ} (h : 0 < clock) : Orderly L (start R clock) where
  positive := h
  serial := .empty
  past k receipt hreceipt := by cases hreceipt
  ordered k := .nil
  held k row receipt _ hreceipt := by cases hreceipt
  sending n link sent hlink := by
    simp [start, Chains.empty] at hlink

/-- Ageing keeps what an unexpired row holds. -/
theorem live_of_faded {now : ℤ} {row row' : Option ActivityRow} {live : ActivityRow}
    (h : Faded now row row') (hlive : liveRow now row' = some live) : liveRow now row = some live := by
  obtain ⟨hrow, halive⟩ := liveRow_eq_some.1 hlive
  rw [hrow] at h
  exact liveRow_eq_some.2 ⟨h.of_some, halive⟩

/-- A registry that ages. -/
theorem Orderly.aged (h : Orderly L s) {registry : σ}
    (haged : ∀ k, Faded s.clock (L.row s.registry k) (L.row registry k)) :
    Orderly L { s with registry := registry } :=
  { h with held := fun k row receipt hrow => h.held k row receipt (live_of_faded (haged k) hrow) }

theorem Orderly.tick (h : Orderly L s) {now : ℤ} (hle : s.clock ≤ now) :
    Orderly L { s with clock := now } where
  positive := h.positive.trans_le hle
  serial := h.serial
  past k receipt hreceipt := by
    obtain ⟨hpos, hpast⟩ := h.past k receipt hreceipt
    exact ⟨hpos, hpast.trans hle⟩
  ordered := h.ordered
  held k row receipt hrow := by
    obtain ⟨hrow, halive⟩ := liveRow_eq_some.1 hrow
    exact h.held k row receipt (liveRow_eq_some.2 ⟨hrow, ActivityRow.live_mono hle halive⟩)
  sending n link sent hlink hrunning := by
    obtain ⟨hpos, hpast, hfollows⟩ := h.sending n link sent hlink hrunning
    exact ⟨hpos, hpast.trans hle, hfollows⟩

theorem Orderly.removed (h : Orderly L s) {registry : σ} {k : ActivityKey}
    (hgone : L.row registry k = none)
    (haged : ∀ k', k' ≠ k → Faded s.clock (L.row s.registry k') (L.row registry k')) :
    Orderly L { s with registry := registry } :=
  { h with
    held := by
      intro k' row receipt hrow
      by_cases hk : k' = k
      · rw [hk] at hrow
        dsimp only at hrow
        rw [hgone] at hrow
        cases hrow
      · exact h.held k' row receipt (live_of_faded (haged k' hk) hrow) }

theorem receipts_registered (k k' : ActivityKey) (fresh : Bool) (log : List ActivityEntry) :
    receipts k' (.registered k fresh :: log) = [] ∨
      receipts k' (.registered k fresh :: log) = receipts k' log := by
  rw [receipts]
  split_ifs
  · exact .inl rfl
  · exact .inr rfl

theorem Orderly.registered (h : Orderly L s) {registry : σ} {k : ActivityKey} {fresh : Bool}
    {asOf : ℤ} {record : ActivityRecord} (hearly : asOf ≤ s.clock)
    (hknown : fresh = false → ∃ old, liveRow s.clock (L.row s.registry k) = some old)
    (hrow : L.row registry k = some (.renew (liveRow asOf (L.row s.registry k)) record))
    (haged : ∀ k', k' ≠ k → Faded s.clock (L.row s.registry k') (L.row registry k')) :
    Orderly L { s with registry := registry, log := .registered k fresh :: s.log } where
  positive := h.positive
  serial := h.serial
  past k' receipt hreceipt := by
    rcases receipts_registered k k' fresh s.log with he | he <;> rw [he] at hreceipt
    · cases hreceipt
    · exact h.past k' receipt hreceipt
  ordered k' := by
    rcases receipts_registered k k' fresh s.log with he | he <;> rw [he]
    · exact .nil
    · exact h.ordered k'
  held k' row receipt hlive hreceipt := by
    unfold receipts at hreceipt
    split_ifs at hreceipt with hfresh
    · cases hreceipt
    · by_cases hk : k' = k
      · subst hk
        -- the registration that was renewed held the newest receipt
        obtain ⟨old, hold⟩ := hknown (by simpa using hfresh)
        obtain ⟨hid, hat⟩ := h.held k' old receipt hold hreceipt
        obtain ⟨hstored, halive⟩ := liveRow_eq_some.1 hold
        have hasOf : liveRow asOf (L.row s.registry k') = some old :=
          liveRow_eq_some.2 ⟨hstored, ActivityRow.live_mono hearly halive⟩
        rw [hasOf] at hrow
        obtain ⟨hnew, -⟩ := liveRow_eq_some.1 hlive
        rw [hrow] at hnew
        cases hnew
        exact ⟨hid, hat⟩
      · exact h.held k' row receipt (live_of_faded (haged k' hk) hlive) hreceipt
  sending n link sent hlink hrunning := by
    obtain ⟨hpos, hpast, hfollows⟩ := h.sending n link sent hlink hrunning
    refine ⟨hpos, hpast, fun receipt hreceipt => ?_⟩
    rcases receipts_registered k link.key fresh s.log with he | he <;> rw [he] at hreceipt
    · cases hreceipt
    · exact hfollows receipt hreceipt

theorem Orderly.enqueued (h : Orderly L s) (k : ActivityKey) (update : ActivityUpdate) :
    Orderly L { s with inFlight := s.inFlight.enqueue k update } :=
  { h with
    serial := h.serial.enqueue k update
    sending := by
      intro n link sent hlink hrunning
      rcases (s.inFlight.getElem?_enqueue k update).1 hlink with hlink | ⟨-, rfl⟩
      · exact h.sending n link sent hlink hrunning
      · cases hrunning }

theorem Orderly.finished (h : Orderly L s) {n : ℕ}
    {link : Chains.Link ActivityKey ActivityUpdate ActivitySend ActivityReply}
    (hlink : s.inFlight.links[n]? = some link) (hsettled : link.phase.Settled) :
    Orderly L { s with inFlight := s.inFlight.finish link.key n } :=
  { h with
    serial := h.serial.finish hlink rfl hsettled
    sending := by
      intro m other sent hother
      refine h.sending m other sent ?_
      unfold Chains.finish at hother
      dsimp only at hother
      split_ifs at hother <;> exact hother }

/-- Every receipt of an activity is as old as the newest. -/
theorem Orderly.le_newest (h : Orderly L s) {k : ActivityKey} {newest receipt : ActivityReceipt}
    (hnewest : (receipts k s.log).head? = some newest) (hreceipt : receipt ∈ receipts k s.log) :
    receipt.startedAt ≤ newest.startedAt := by
  have hordered := h.ordered k
  cases hlog : receipts k s.log with
  | nil =>
    rw [hlog] at hreceipt
    cases hreceipt
  | cons first rest =>
    rw [hlog] at hnewest hreceipt hordered
    cases hnewest
    rcases List.mem_cons.1 hreceipt with rfl | hreceipt
    · exact le_rfl
    · exact ((List.pairwise_cons.1 hordered).1 receipt hreceipt).1

/-- A delivery that starts follows every receipt. -/
theorem follows_of_started (h : Orderly L s) {k : ActivityKey} {update : ActivityUpdate}
    {configured : Str → Bool} {sent : ActivitySend}
    (hphase : Started update s.clock configured (liveRow s.clock (L.row s.registry k))
      (.running sent)) :
    0 < sent.startedAt ∧ sent.startedAt ≤ s.clock ∧ ∀ receipt ∈ receipts k s.log,
      ActivityReceipt.Follows ⟨update.deliveryId, update.event, sent.startedAt⟩ receipt := by
  generalize hroute : liveRow s.clock (L.row s.registry k) = route at hphase
  cases hphase with
  | @sent route _ hspaced =>
    refine ⟨h.positive, le_rfl, fun receipt hreceipt => ⟨(h.past k receipt hreceipt).2, ?_⟩⟩
    intro hevent
    cases hnewest : (receipts k s.log).head? with
    | none =>
      rw [List.head?_eq_none_iff.1 hnewest] at hreceipt
      cases hreceipt
    | some newest =>
      obtain ⟨-, hat⟩ := h.held k route newest hroute hnewest
      obtain ⟨hpos, -⟩ := h.past k newest (List.mem_of_mem_head? hnewest)
      have hle := h.le_newest L hnewest hreceipt
      have hwindow := hspaced hevent (hat ▸ hpos)
      dsimp only
      omega

theorem Orderly.started (h : Orderly L s) {n : ℕ} {registry : σ} {configured : Str → Bool}
    {link : Chains.Link ActivityKey ActivityUpdate ActivitySend ActivityReply}
    {phase : Chains.Phase ActivitySend ActivityReply}
    (hlink : s.inFlight.links[n]? = some link) (hready : s.inFlight.Ready n)
    (hphase : Started link.job s.clock configured
      (liveRow s.clock (L.row s.registry link.key)) phase)
    (haged : ∀ k, Faded s.clock (L.row s.registry k) (L.row registry k)) :
    Orderly L { s with registry := registry, inFlight := s.inFlight.advance n phase } :=
  { h.aged L haged with
    serial := h.serial.advance phase fun _ _ => .inl hready
    sending := by
      intro m other sent hother hrunning
      obtain ⟨old, hold, hkey, hjob, -, hother⟩ := Chains.of_advance hother
      rw [hother] at hrunning
      split_ifs at hrunning with hm
      · subst hm
        rw [hlink] at hold
        cases hold
        rw [hkey, hjob]
        exact follows_of_started L h (hrunning ▸ hphase)
      · rw [hkey, hjob]
        exact h.sending m old sent hold hrunning }

theorem receipts_accepted (k k' : ActivityKey) (id : Str) (event : ActivityEvent) (startedAt : ℤ)
    (log : List ActivityEntry) :
    receipts k' (.accepted k id event startedAt :: log) =
      if k = k' then ⟨id, event, startedAt⟩ :: receipts k' log else receipts k' log := by
  rw [receipts]

variable {update : ActivityUpdate} {sent : ActivitySend} {answer : ActivityAnswer}
  {row row' : Option ActivityRow} {live : ActivityRow} {now : ℤ}

/-- An update that was not accepted leaves what an unexpired row holds. -/
theorem Answered.live_of_refused (h : Answered update sent answer row row')
    (hok : answer.ok = false) (hle : sent.startedAt ≤ now) (hlive : liveRow now row' = some live) :
    liveRow now row = some live := by
  cases h with
  | refused _ haged => exact live_of_faded (haged.mono hle) hlive
  | stale => cases hlive
  | closed => cases hlive
  | marked hok' =>
    rw [hok] at hok'
    cases hok'

/-- An accepted update is what an unexpired row holds. -/
theorem Answered.marks_live (h : Answered update sent answer row row') (hok : answer.ok = true)
    (hle : sent.startedAt ≤ now) (hlive : liveRow now row' = some live) :
    live.lastDeliveryId = some update.deliveryId ∧ live.lastDeliveredAt = sent.startedAt := by
  cases h with
  | refused hrefused =>
    rw [hok] at hrefused
    cases hrefused
  | stale => cases hlive
  | closed => cases hlive
  | marked _ _ hmarked hdead =>
    cases hold : liveRow sent.startedAt row with
    | some old =>
      rw [hmarked old hold] at hlive
      cases (liveRow_eq_some.1 hlive).1
      exact ⟨rfl, rfl⟩
    | none =>
      -- a row that had expired when the delivery started cannot be unexpired now
      obtain ⟨hrow, halive⟩ := liveRow_eq_some.1 hlive
      have hsame := hrow ▸ hdead hold
      rw [hsame.of_some] at hold
      rw [liveRow, Option.filter_some, if_pos (ActivityRow.live_mono hle halive)] at hold
      cases hold

theorem Orderly.answered (h : Orderly L s) {n : ℕ} {answer : ActivityAnswer} {registry : σ}
    {link : Chains.Link ActivityKey ActivityUpdate ActivitySend ActivityReply}
    {sent : ActivitySend} {reply : ActivityReply} (hlink : s.inFlight.links[n]? = some link)
    (hrunning : link.phase = .running sent)
    (hrow : Answered link.job sent answer (L.row s.registry link.key) (L.row registry link.key))
    (haged : ∀ k, k ≠ link.key → Faded sent.startedAt (L.row s.registry k) (L.row registry k)) :
    Orderly L
      { s with
        registry := registry
        inFlight := s.inFlight.advance n (.settled reply)
        log := if answer.ok then
          .accepted link.key link.job.deliveryId link.job.event sent.startedAt :: s.log
          else s.log } := by
  obtain ⟨hpos, hpast, hfollows⟩ := h.sending n link sent hlink hrunning
  have hserial : (s.inFlight.advance n (.settled reply)).Serial :=
    h.serial.advance _ fun other hother => by
      rw [hlink] at hother
      cases hother
      rw [hrunning]
      exact .inr ⟨id, id⟩
  -- the other deliveries that wait for the provider are of other activities
  have hothers (m : ℕ) (other : Chains.Link ActivityKey ActivityUpdate ActivitySend ActivityReply)
      (sent' : ActivitySend)
      (hother : (s.inFlight.advance n (.settled reply)).links[m]? = some other)
      (hrunning' : other.phase = .running sent') : other.key ≠ link.key ∧
        0 < sent'.startedAt ∧ sent'.startedAt ≤ s.clock ∧ ∀ receipt ∈ receipts other.key s.log,
          ActivityReceipt.Follows ⟨other.job.deliveryId, other.job.event, sent'.startedAt⟩
            receipt := by
    obtain ⟨old, hold, hkey, hjob, -, hphase⟩ := Chains.of_advance hother
    rw [hphase] at hrunning'
    split_ifs at hrunning' with hm
    rw [hkey, hjob]
    refine ⟨fun hsame => hm ?_, h.sending m old sent' hold hrunning'⟩
    exact h.serial.exclusive hold hlink hsame.symm hrunning' hrunning
  have hrest {k : ActivityKey} {row : ActivityRow} (hk : k ≠ link.key)
      (hlive : liveRow s.clock (L.row registry k) = some row) :
      liveRow s.clock (L.row s.registry k) = some row :=
    live_of_faded ((haged k hk).mono hpast) hlive
  cases hok : answer.ok with
  | false =>
    refine ⟨h.positive, hserial, h.past, h.ordered, fun k row receipt hlive hreceipt => ?_,
      fun m other sent' hother hrunning' => (hothers m other sent' hother hrunning').2⟩
    by_cases hk : k = link.key
    · subst hk
      exact h.held link.key row receipt (hrow.live_of_refused hok hpast hlive) hreceipt
    · exact h.held k row receipt (hrest hk hlive) hreceipt
  | true =>
    simp only [if_true]
    refine ⟨h.positive, hserial, fun k => ?_, fun k => ?_, fun k row receipt hlive hreceipt => ?_,
      fun m other sent' hother hrunning' => ?_⟩
    · dsimp only
      rw [receipts_accepted]
      split_ifs with hk
      · subst hk
        intro receipt hreceipt
        rcases List.mem_cons.1 hreceipt with rfl | hreceipt
        · exact ⟨hpos, hpast⟩
        · exact h.past link.key receipt hreceipt
      · exact h.past k
    · dsimp only
      rw [receipts_accepted]
      split_ifs with hk
      · subst hk
        exact List.pairwise_cons.2 ⟨hfollows, h.ordered link.key⟩
      · exact h.ordered k
    · dsimp only at hreceipt
      rw [receipts_accepted] at hreceipt
      split_ifs at hreceipt with hk
      · subst hk
        cases hreceipt
        exact hrow.marks_live hok hpast hlive
      · exact h.held k row receipt (hrest (Ne.symm hk) hlive) hreceipt
    · obtain ⟨hne, hsending⟩ := hothers m other sent' hother hrunning'
      dsimp only
      rw [receipts_accepted, if_neg hne.symm]
      exact hsending

/-- **The step lemma.** -/
theorem Orderly.step (h : Orderly L s) {a : ActivityLabel} (hstep : Step R s a t) :
    Orderly L t := by
  cases effect_of_step L hstep with
  | tick hle => exact h.tick L hle
  | quiet haged => exact h.aged L haged
  | removed _ hgone haged => exact h.removed L hgone haged
  | registered hearly hknown _ hrow haged => exact h.registered L hearly hknown hrow haged
  | enqueued k update => exact h.enqueued L k update
  | started hlink hready hphase haged => exact h.started L hlink hready hphase haged
  | answered hlink hrunning hrow haged => exact h.answered L hlink hrunning hrow haged
  | finished hlink hsettled => exact h.finished L hlink hsettled

theorem orderly_of_run {clock : ℤ} (hclock : 0 < clock) {as : List ActivityLabel}
    (h : Run (Step R) (start R clock) as s) : Orderly L s :=
  h.invariant (fun _ _ _ hs hstep => hs.step L hstep) (orderly_start L hclock)

/-! ### Serialized deliveries -/

/-- Deliveries go out one at a time and a window apart, and only the four reasons dismiss a
registration. -/
structure Serialized (s : ActivityRelay σ) : Prop where
  exclusive : ∀ (n m : ℕ) link other sent sent', s.inFlight.links[n]? = some link →
    s.inFlight.links[m]? = some other → link.phase = .running sent →
      other.phase = .running sent' → link.key = other.key → n = m
  spaced : ∀ k, (receipts k s.log).Pairwise fun newer older =>
    newer.event = .update → older.event = .update → older.startedAt + 10_000 ≤ newer.startedAt
  dismissed : ∀ a t k old, Step R s a t → L.row s.registry k = some old → Gone L s t k →
    Dismissed s k old a

theorem Orderly.serialized (h : Orderly L s) : Serialized L s where
  exclusive _ _ _ _ _ _ hlink hother hsent hsent' hkey :=
    h.serial.exclusive hlink hother hkey.symm hsent hsent'
  spaced k := (h.ordered k).imp fun hfollows hevent _ => hfollows.2 hevent
  dismissed _ _ _ _ hstep hold hgone :=
    dismissed_of_gone L (fun n link sent hlink hrunning => (h.sending n link sent hlink hrunning).2.1)
      hstep hold hgone

end ActivityRelay

open ActivityRelay

/-- **Serialized deliveries**, with either registry. -/
theorem activities_serialized (clock : ℤ) (hclock : 0 < clock) (as : List ActivityLabel) :
    (∀ s, Run (Step sqliteRegistry) (start sqliteRegistry clock) as s → Serialized sqliteLaws s) ∧
      ∀ s, Run (Step workerRegistry) (start workerRegistry clock) as s →
        Serialized workerLaws s :=
  ⟨fun _ h => (orderly_of_run sqliteLaws hclock h).serialized sqliteLaws,
    fun _ h => (orderly_of_run workerLaws hclock h).serialized workerLaws⟩

/-! ### A sample run -/

def sampleActivityRoom : Str := lit "0123456789abcdef"

def sampleActivity : ActivityKey := ⟨sampleActivityRoom, lit "activity"⟩

/-- The base64 text of bytes that are zero. -/
def zeros (length : ℕ) : Json := .str (List.replicate length 'A'.toNat.toUInt16)

/-- An enrollment that expires eight hours after the time of `sampleActivities`. -/
def sampleEnrollment : Value := some <| .obj
  [(lit "activityId", .str (lit "activity")),
    (lit "token", .str (List.replicate 64 'a'.toNat.toUInt16)),
    (lit "environment", .str (lit "sandbox")), (lit "bundleId", .str (lit "com.ziborov.granttap")),
    (lit "expiresAt", .num (.finite 28_800_000 0)), (lit "nonce", zeros 32), (lit "box", zeros 128)]

def sampleUpdate (deliveryId : String) : Value := some <| .obj
  [(lit "activityId", .str (lit "activity")), (lit "deliveryId", .str (lit deliveryId)),
    (lit "event", .str (lit "update")), (lit "staleDate", .num (.finite 90 0)),
    (lit "contentState", .obj [(lit "nonce", zeros 32), (lit "box", zeros 128)])]

def sampleActivityRequest (path : ActivityPath) (body : Value) : ActivityRequest where
  room := sampleActivityRoom
  path := path
  method := .post
  authorized := true
  body := some body

def sampleAccepted : ActivityAnswer := .answered ⟨true, false, nofun⟩

/-- Each update is delivered, accepted and finished before the next, ten seconds apart. -/
def sampleDeliveries : ℕ → List String → List ActivityLabel
  | _, [] => []
  | n, deliveryId :: rest =>
    .request (sampleActivityRequest .update (sampleUpdate deliveryId)) 1 (fun _ => true) ::
      .start n (fun _ => true) :: .answer n sampleAccepted :: .finish n ::
      .tick (1 + 10_000 * (n + 1)) :: sampleDeliveries (n + 1) rest

def sampleActivities (deliveryIds : List String) : List ActivityLabel :=
  .request (sampleActivityRequest .register sampleEnrollment) 1 (fun _ => true) ::
    sampleDeliveries 0 deliveryIds

/-- The state after a sample run with the SQLite registry. -/
def sampleActivityRelay (deliveryIds : List String) : Option (ActivityRelay SqliteTaskActivities) :=
  (sampleActivities deliveryIds).foldlM (next sqliteRegistry) (start sqliteRegistry 1)

theorem activities_serialized_sample :
    ∃ s, Run (Step sqliteRegistry) (start sqliteRegistry 1) (sampleActivities ["one", "two"]) s ∧
      Serialized sqliteLaws s ∧ (receipts sampleActivity s.log).length = 2 := by
  have hlength : (sampleActivityRelay ["one", "two"]).map
      (fun s => (receipts sampleActivity s.log).length) = some 2 := by decide +kernel
  obtain ⟨s, hs, hlength⟩ := Option.map_eq_some_iff.1 hlength
  have hrun := foldlM_run hs
  exact ⟨s, hrun, (activities_serialized 1 (by decide) _).1 s hrun, hlength⟩

end GrantTap
