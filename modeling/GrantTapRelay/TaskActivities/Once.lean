import GrantTapRelay.TaskActivities.Serialized

/-!
# Activity deliveries, once

The row of a registration holds the identity of its last delivery only. A retry of an older one is
sent again unless it comes within the window after the last.

* `delivered_once`: as long as no delivery repeats an older accepted identity outside the window,
  no identity is accepted twice by a registration.
* `retry_replaces_newer`: after a second update, the first is accepted again.
-/

namespace GrantTap

open Js Runs

/-- The identities are distinct. -/
def Once (receipts : List ActivityReceipt) : Prop := (receipts.map (·.deliveryId)).Nodup

namespace ActivityRelay

variable {σ : Type} {R : ActivityRegistry σ} (L : ActivityLaws R) {s t : ActivityRelay σ}

/-- A delivery that starts with an accepted identity has the last one, or comes as an update within
the window after the last. -/
def RepeatsLast (s : ActivityRelay σ) : ActivityLabel → Prop
  | .start n _ => ∀ link ∈ s.inFlight.links[n]?, ∀ receipt ∈ receipts link.key s.log,
    receipt.deliveryId = link.job.deliveryId →
      ∃ newest ∈ (receipts link.key s.log).head?, newest.deliveryId = link.job.deliveryId ∨
        link.job.event = .update ∧ s.clock < newest.startedAt + ACTIVITY_WINDOW_MS
  | _ => True

instance (s : ActivityRelay σ) (a : ActivityLabel) : Decidable (s.RepeatsLast a) := by
  cases a <;> unfold RepeatsLast <;> infer_instance

/-- A step at which no older accepted identity is repeated. -/
def StepLast (R : ActivityRegistry σ) (s : ActivityRelay σ) (a : ActivityLabel)
    (t : ActivityRelay σ) : Prop := Step R s a t ∧ s.RepeatsLast a

/-- The same as a partial function. -/
def nextLast (R : ActivityRegistry σ) (s : ActivityRelay σ) (a : ActivityLabel) :
    Option (ActivityRelay σ) := if s.RepeatsLast a then s.next R a else none

theorem stepLast_of_nextLast {a : ActivityLabel} (h : s.nextLast R a = some t) :
    StepLast R s a t := by
  unfold nextLast at h
  split_ifs at h with hlast
  exact ⟨h, hlast⟩

/-- No identity was accepted twice, and none that waits for the provider was accepted. -/
structure DeliveredOnce (s : ActivityRelay σ) : Prop where
  orderly : Orderly L s
  once : ∀ k, Once (receipts k s.log)
  sending : ∀ (n : ℕ) link sent, s.inFlight.links[n]? = some link → link.phase = .running sent →
    ∀ receipt ∈ receipts link.key s.log, receipt.deliveryId ≠ link.job.deliveryId

/-- A delivery is sent only if its identity was not accepted. -/
theorem new_of_started (h : Orderly L s) {n : ℕ} {configured : Str → Bool}
    {link : Chains.Link ActivityKey ActivityUpdate ActivitySend ActivityReply} {sent : ActivitySend}
    (hlast : s.RepeatsLast (.start n configured)) (hlink : s.inFlight.links[n]? = some link)
    (hphase : Started link.job s.clock configured (liveRow s.clock (L.row s.registry link.key))
      (.running sent)) :
    ∀ receipt ∈ receipts link.key s.log, receipt.deliveryId ≠ link.job.deliveryId := by
  intro receipt hreceipt hsame
  obtain ⟨newest, hnewest, hcase⟩ := hlast link hlink receipt hreceipt hsame
  generalize hroute : liveRow s.clock (L.row s.registry link.key) = route at hphase
  cases hphase with
  | @sent route hduplicate hspaced =>
    obtain ⟨hid, hat⟩ := h.held link.key route newest hroute hnewest
    rcases hcase with hcase | ⟨hevent, hwindow⟩
    · exact hduplicate (hid.trans (congrArg some hcase))
    · obtain ⟨hpos, -⟩ := h.past link.key newest (List.mem_of_mem_head? hnewest)
      have hlater := hspaced hevent (hat ▸ hpos)
      omega

theorem DeliveredOnce.step (h : DeliveredOnce L s) {a : ActivityLabel} (hstep : StepLast R s a t) :
    DeliveredOnce L t := by
  obtain ⟨hstep, hlast⟩ := hstep
  have horderly := h.orderly.step L hstep
  cases effect_of_step L hstep with
  | tick => exact ⟨horderly, h.once, h.sending⟩
  | quiet => exact ⟨horderly, h.once, h.sending⟩
  | removed => exact ⟨horderly, h.once, h.sending⟩
  | @registered q asOf configured registry k record fresh =>
    refine ⟨horderly, fun k' => ?_, fun n link sent hlink hrunning receipt hreceipt => ?_⟩
    · rcases receipts_registered k k' fresh s.log with he | he <;> dsimp only <;> rw [he]
      · exact .nil
      · exact h.once k'
    · rcases receipts_registered k link.key fresh s.log with he | he <;> rw [he] at hreceipt
      · cases hreceipt
      · exact h.sending n link sent hlink hrunning receipt hreceipt
  | enqueued k update =>
    refine ⟨horderly, h.once, fun n link sent hlink hrunning => ?_⟩
    rcases (s.inFlight.getElem?_enqueue k update).1 hlink with hlink | ⟨-, rfl⟩
    · exact h.sending n link sent hlink hrunning
    · cases hrunning
  | @started n configured registry link phase hlink _ hphase =>
    refine ⟨horderly, h.once, fun m other sent hother hrunning => ?_⟩
    obtain ⟨old, hold, hkey, hjob, -, hother⟩ := Chains.of_advance hother
    rw [hother] at hrunning
    rw [hkey, hjob]
    split_ifs at hrunning with hm
    · subst hm
      rw [hlink] at hold
      cases hold
      exact new_of_started L h.orderly hlast hlink (hrunning ▸ hphase)
    · exact h.sending m old sent hold hrunning
  | @answered n answer registry link sent reply hlink hrunning =>
    have hnew := h.sending n link sent hlink hrunning
    refine ⟨horderly, fun k => ?_, fun m other sent' hother hrunning' => ?_⟩
    · dsimp only
      split_ifs
      · rw [receipts_accepted]
        split_ifs with hk
        · subst hk
          refine List.nodup_cons.2 ⟨fun hmem => ?_, h.once link.key⟩
          obtain ⟨receipt, hreceipt, hsame⟩ := List.mem_map.1 hmem
          exact hnew receipt hreceipt hsame
        · exact h.once k
      · exact h.once k
    · obtain ⟨old, hold, hkey, hjob, -, hphase⟩ := Chains.of_advance hother
      rw [hphase] at hrunning'
      split_ifs at hrunning' with hm
      have hne : link.key ≠ old.key := fun hsame =>
        hm (h.orderly.serial.exclusive hold hlink hsame hrunning' hrunning)
      rw [hkey, hjob]
      dsimp only
      split_ifs
      · rw [receipts_accepted, if_neg hne]
        exact h.sending m old sent' hold hrunning'
      · exact h.sending m old sent' hold hrunning'
  | @finished n link =>
    refine ⟨horderly, h.once, fun m other sent hother => h.sending m other sent ?_⟩
    unfold Chains.finish at hother
    dsimp only at hother
    split_ifs at hother <;> exact hother

include L in
theorem once_of_run {clock : ℤ} (hclock : 0 < clock) {as : List ActivityLabel}
    (h : Run (StepLast R) (start R clock) as s) (k : ActivityKey) : Once (receipts k s.log) := by
  have hstart : DeliveredOnce L (start R clock) :=
    ⟨orderly_start L hclock, fun k => .nil, fun n link sent hlink => by
      simp [start, Chains.empty] at hlink⟩
  exact (h.invariant (fun _ _ _ hs hstep => hs.step L hstep) hstart).once k

end ActivityRelay

open ActivityRelay

/-- **No identity twice**, as long as no older accepted identity is repeated outside the window. -/
theorem delivered_once (clock : ℤ) (hclock : 0 < clock) (as : List ActivityLabel) (k : ActivityKey) :
    (∀ s, Run (StepLast sqliteRegistry) (start sqliteRegistry clock) as s →
        Once (receipts k s.log)) ∧
      ∀ s, Run (StepLast workerRegistry) (start workerRegistry clock) as s →
        Once (receipts k s.log) :=
  ⟨fun _ h => once_of_run sqliteLaws hclock h k, fun _ h => once_of_run workerLaws hclock h k⟩

theorem delivered_once_sample :
    ∃ s, Run (StepLast sqliteRegistry) (start sqliteRegistry 1) (sampleActivities ["one", "two"]) s ∧
      Once (receipts sampleActivity s.log) ∧ (receipts sampleActivity s.log).length = 2 := by
  have hlength : ((sampleActivities ["one", "two"]).foldlM (nextLast sqliteRegistry)
      (start sqliteRegistry 1)).map (fun s => (receipts sampleActivity s.log).length) = some 2 := by
    decide +kernel
  obtain ⟨s, hs, hlength⟩ := Option.map_eq_some_iff.1 hlength
  have hrun := (foldlM_run hs).mono fun _ _ _ => stepLast_of_nextLast
  exact ⟨s, hrun, (delivered_once 1 (by decide) _ _).1 s hrun, hlength⟩

/-- A retry of an older update is accepted again, and replaces the newer one. -/
theorem retry_replaces_newer :
    ∃ s, Run (Step sqliteRegistry) (start sqliteRegistry 1) (sampleActivities ["one", "two", "one"])
        s ∧ (receipts sampleActivity s.log).map (·.deliveryId) = [lit "one", lit "two", lit "one"] ∧
      ¬Once (receipts sampleActivity s.log) := by
  have hids : (sampleActivityRelay ["one", "two", "one"]).map
      (fun s => (receipts sampleActivity s.log).map (·.deliveryId)) =
        some [lit "one", lit "two", lit "one"] := by decide +kernel
  obtain ⟨s, hs, hids⟩ := Option.map_eq_some_iff.1 hids
  refine ⟨s, foldlM_run hs, hids, ?_⟩
  unfold Once
  rw [hids]
  decide

end GrantTap
