import GrantTapRelay.Library.Runs
import GrantTapRelay.Node.Store
import GrantTapRelay.Relay.Validation

/-!
# Push registrations and wakes in progress

`handlePushRegistration` and `sendWakePush` of `src/relay/room.js`. A registration reads and writes
the device list in one step. A wake reads it, waits for the push service, and then writes back
what it read without the stale devices. `PushRoom` is a room between these steps, with the log of
what happened, newest first.

* `registrations_kept`: when no registration changes the list under a wake that reports stale
  devices, the list holds every registered device that was not reported stale nor displaced, and
  no removed one.
* `wake_drops_registration`: a device that registers while such a wake waits is lost.
-/

namespace GrantTap

open Js Runs

def PUSH_TOKEN_LIMIT : ℕ := 8

/-! ## Registrations -/

/-- `/^[0-9a-f]{32,256}$/.test(token) && token.length % 2 === 0` -/
def validDeviceToken (token : Str) : Bool := ofClass isLowerHex 32 256 token && token.length % 2 = 0

inductive PushMethod
  | put
  | post
  | delete
  | other
  deriving DecidableEq

/-- A request: the refusal of `requireRoomAuth`, if any, and the body, unless reading it failed. -/
structure PushRequest where
  method : PushMethod
  authError : Option String
  body : Option Json

structure PushReply where
  status : ℕ
  error : String
  devices : ℕ

def PushReply.refuse (status : ℕ) (error : String) : PushReply := ⟨status, error, 0⟩

/-- What a request does to the stored list. -/
inductive PushChange
  | register (device : PushToken)
  | remove (token : Str)

namespace PushChange

/-- The device it is about. -/
def token : PushChange → Str
  | register device => device.token
  | remove token => token

/-- The list after a change; the newest devices are at the end. -/
def apply (tokens : List PushToken) : PushChange → List PushToken
  | register device =>
    let all := tokens.filter (fun item => item.token ≠ device.token) ++ [device]
    all.drop (all.length - PUSH_TOKEN_LIMIT)
  | remove token => tokens.filter fun item => item.token ≠ token

end PushChange

/-- `String(value ?? "")` -/
def textOrEmpty (value : Value) : Except Throw Str :=
  match value.orEmpty with
  | some j => j.toText
  | none => .ok []

/-- The change a request asks for, or its refusal. -/
def readRegistration (q : PushRequest) (now : ℤ) : Early PushReply PushChange := do
  Early.require q.authError.isNone (.refuse 401 (q.authError.getD ""))
  let body ← Early.demand q.body (.refuse 400 "bounded JSON body required")
  let text ← Early.attempt (textOrEmpty (body.get (lit "token")))
  let token := text.map lowerUnit
  Early.require (validDeviceToken token) (.refuse 400 "valid APNs token required")
  let environment ← Early.demand ((body.get (lit "environment")).str?.filter fun s =>
    s = lit "sandbox" || s = lit "production")
    (.refuse 400 "environment must be sandbox or production")
  let bundleId ← Early.attempt (textOrEmpty (body.get (lit "bundleId")))
  Early.require (bundleId = lit "com.ziborov.granttap") (.refuse 400 "unexpected bundle id")
  match q.method with
  | .delete => return .remove token
  | .other => throw (.returned (.refuse 405 "method not allowed"))
  | _ => return .register ⟨token, environment, bundleId, now⟩

/-- The reply, and the list to store. -/
def handlePushRegistration (tokens : List PushToken) (q : PushRequest) (now : ℤ) :
    Except Throw (PushReply × List PushToken) :=
  match readRegistration q now with
  | .error (.thrown t) => .error t
  | .error (.returned reply) => .ok (reply, tokens)
  | .ok change => .ok (⟨200, "", (change.apply tokens).length⟩, change.apply tokens)

/-! ## Wakes -/

/-- The answer of the push service for one device; `failed` is an exception. -/
inductive ApnsResult
  | accepted
  | stale
  | rejected
  | failed
  deriving DecidableEq

/-- The devices of a snapshot that were reported stale. -/
def staleTokens (snapshot : List PushToken) (results : PushToken → ApnsResult) : List Str :=
  (snapshot.filter fun device => results device = .stale).map (·.token)

/-- The rest of `sendWakePush` after the answers: its result, and the list to store. -/
def finishWakePush (snapshot : List PushToken) (results : PushToken → ApnsResult)
    (tokens : List PushToken) : Bool × List PushToken :=
  let stale := staleTokens snapshot results
  (snapshot.all fun device => results device = .accepted || results device = .stale,
    if stale = [] then tokens else snapshot.filter fun device => !stale.contains device.token)

/-! ## A room over time -/

inductive PushEvent
  | changed (change : PushChange)
  | stale (tokens : List Str)

/-- The stored devices, the snapshot of a waiting wake, and the log. -/
structure PushRoom where
  tokens : List PushToken
  sending : Option (List PushToken)
  log : List PushEvent

inductive PushLabel
  | registration (q : PushRequest) (now : ℤ)
  | wake
  | answers (results : PushToken → ApnsResult)

namespace PushRoom

def empty : PushRoom := ⟨[], none, []⟩

/-- The stored device tokens. -/
def devices (r : PushRoom) : List Str := r.tokens.map (·.token)

/-- The room after a step; `configured` is `apnsConfigured(env)`. -/
def next (configured : Bool) (r : PushRoom) : PushLabel → PushRoom
  | .registration q now =>
    match handlePushRegistration r.tokens q now with
    | .error _ => r
    | .ok (_, tokens) =>
      { r with
        tokens := tokens
        log := (readRegistration q now).toOption.elim r.log fun c => .changed c :: r.log }
  | .wake =>
    if configured && r.sending.isNone then { r with sending := some r.tokens } else r
  | .answers results =>
    match r.sending with
    | none => r
    | some snapshot =>
      { tokens := (finishWakePush snapshot results r.tokens).2
        sending := none
        log := .stale (staleTokens snapshot results) :: r.log }

/-! ## Reading the log -/

/-- The last change of a device. -/
def lastChange (token : Str) : List PushEvent → Option PushChange
  | [] => none
  | .changed change :: log => if change.token = token then some change else lastChange token log
  | .stale _ :: log => lastChange token log

/-- What happened after the last change of a device. -/
def later (token : Str) : List PushEvent → List PushEvent
  | [] => []
  | .changed change :: log =>
    if change.token = token then [] else .changed change :: later token log
  | .stale tokens :: log => .stale tokens :: later token log

/-- The devices registered by some events. -/
def registered : List PushEvent → List Str
  | [] => []
  | .changed (.register device) :: log => device.token :: registered log
  | _ :: log => registered log

/-- The device is registered. -/
def Registered (token : Str) (log : List PushEvent) : Prop :=
  ∃ device, lastChange token log = some (.register device)

/-- The device was reported stale after its last change. -/
def Stale (token : Str) (log : List PushEvent) : Prop :=
  ∃ tokens, .stale tokens ∈ later token log ∧ token ∈ tokens

/-- Enough other devices registered after the last change of a device. -/
def Displaced (token : Str) (log : List PushEvent) : Prop :=
  PUSH_TOKEN_LIMIT ≤ (registered (later token log)).dedup.length

/-- The stored devices, oldest first, are those the log asks for. -/
structure Faithful (log : List PushEvent) (devices : List Str) : Prop where
  nodup : devices.Nodup
  registered : ∀ token ∈ devices, Registered token log
  ordered : devices.Pairwise fun token token' => token' ∈ PushRoom.registered (later token log)
  kept : ∀ token, Registered token log →
    token ∈ devices ∨ Stale token log ∨ Displaced token log

variable {log : List PushEvent} {devices : List Str} {token : Str}

theorem Faithful.empty : Faithful [] [] :=
  ⟨.nil, nofun, .nil, fun _ ⟨_, h⟩ => nomatch h⟩

/-! ## Registrations keep the list faithful -/

theorem Registered.cons (change : PushChange) (hne : change.token ≠ token)
    (h : Registered token log) : Registered token (.changed change :: log) := by
  obtain ⟨device, h⟩ := h
  exact ⟨device, by rw [lastChange, if_neg hne, h]⟩

theorem Registered.of_cons (change : PushChange) (hne : change.token ≠ token)
    (h : Registered token (.changed change :: log)) : Registered token log := by
  obtain ⟨device, h⟩ := h
  rw [lastChange, if_neg hne] at h
  exact ⟨device, h⟩

theorem mem_registered_later_cons (change : PushChange) (hne : change.token ≠ token) {t : Str}
    (h : t ∈ registered (later token log)) :
    t ∈ registered (later token (.changed change :: log)) := by
  rw [later, if_neg hne]
  cases change with
  | register device => exact List.mem_cons_of_mem _ h
  | remove removed => exact h

/-- An excuse for the absence of another device stays one. -/
theorem excused_cons (change : PushChange) (hne : change.token ≠ token)
    (h : Stale token log ∨ Displaced token log) :
    Stale token (.changed change :: log) ∨ Displaced token (.changed change :: log) := by
  rcases h with ⟨tokens, hmem, hin⟩ | hlen
  · refine .inl ⟨tokens, ?_, hin⟩
    rw [later, if_neg hne]
    exact List.mem_cons_of_mem _ hmem
  · refine .inr (hlen.trans ?_)
    have hsub : (registered (later token log)).dedup ⊆
        (registered (later token (.changed change :: log))).dedup := fun t ht =>
      List.mem_dedup.2 (mem_registered_later_cons change hne (List.mem_dedup.1 ht))
    exact ((List.nodup_dedup _).subperm hsub).length_le

/-- Removing a device. -/
theorem Faithful.remove (h : Faithful log devices) (removed : Str) :
    Faithful (.changed (.remove removed) :: log) (devices.filter fun t => t ≠ removed) := by
  have hmem : ∀ t, t ∈ devices.filter (fun t => t ≠ removed) ↔ t ∈ devices ∧ t ≠ removed :=
    fun t => by rw [List.mem_filter, decide_eq_true_eq]
  refine ⟨h.nodup.filter _, fun t ht => ?_, ?_, fun t ht => ?_⟩
  · obtain ⟨ht, hne⟩ := (hmem t).1 ht
    exact (h.registered t ht).cons (.remove removed) hne.symm
  · refine (h.ordered.sublist List.filter_sublist).imp_of_mem fun {a b} ha _ hab => ?_
    exact mem_registered_later_cons (.remove removed) ((hmem a).1 ha).2.symm hab
  · by_cases hne : removed = t
    · obtain ⟨device, hlast⟩ := ht
      rw [lastChange, PushChange.token, if_pos hne] at hlast
      cases hlast
    · rcases h.kept t (ht.of_cons (.remove removed) hne) with hin | hexcused
      · exact .inl ((hmem t).2 ⟨hin, Ne.symm hne⟩)
      · exact .inr (excused_cons (.remove removed) hne hexcused)

/-- Registering a device at the end of the list, before the list is cut. -/
theorem Faithful.append (h : Faithful log devices) (device : PushToken) :
    Faithful (.changed (.register device) :: log)
      (devices.filter (fun t => t ≠ device.token) ++ [device.token]) := by
  have hmem : ∀ t, t ∈ devices.filter (fun t => t ≠ device.token) ↔
      t ∈ devices ∧ t ≠ device.token :=
    fun t => by rw [List.mem_filter, decide_eq_true_eq]
  have hself : Registered device.token (.changed (.register device) :: log) :=
    ⟨device, by rw [lastChange, PushChange.token, if_pos rfl]⟩
  refine ⟨?_, fun t ht => ?_, ?_, fun t ht => ?_⟩
  · refine (h.nodup.filter _).append (List.nodup_singleton _) ?_
    exact List.disjoint_singleton.2 fun hin => ((hmem _).1 hin).2 rfl
  · rcases List.mem_append.1 ht with ht | ht
    · obtain ⟨ht, hne⟩ := (hmem t).1 ht
      exact (h.registered t ht).cons (.register device) hne.symm
    · rw [List.mem_singleton.1 ht]
      exact hself
  · refine List.pairwise_append.2 ⟨?_, List.pairwise_singleton _ _, fun a ha b hb => ?_⟩
    · refine (h.ordered.sublist List.filter_sublist).imp_of_mem fun {a b} ha _ hab => ?_
      exact mem_registered_later_cons (.register device) ((hmem a).1 ha).2.symm hab
    · rw [List.mem_singleton.1 hb, later, PushChange.token, if_neg ((hmem a).1 ha).2.symm]
      exact List.mem_cons_self
  · by_cases hne : device.token = t
    · exact .inl (List.mem_append_right _ (List.mem_singleton.2 hne.symm))
    · rcases h.kept t (ht.of_cons (.register device) hne) with hin | hexcused
      · exact .inl (List.mem_append_left _ ((hmem t).2 ⟨hin, Ne.symm hne⟩))
      · exact .inr (excused_cons (.register device) hne hexcused)

/-- Cutting the oldest devices off: as many registered later as may stay. -/
theorem Faithful.cut (h : Faithful log devices) :
    Faithful log (devices.drop (devices.length - PUSH_TOKEN_LIMIT)) := by
  have hsub := List.drop_sublist (devices.length - PUSH_TOKEN_LIMIT) devices
  refine ⟨h.nodup.sublist hsub, fun t ht => h.registered t (hsub.subset ht),
    h.ordered.sublist hsub, fun t ht => ?_⟩
  rcases h.kept t ht with hin | hexcused
  · rw [← List.take_append_drop (devices.length - PUSH_TOKEN_LIMIT) devices] at hin
    rcases List.mem_append.1 hin with hcut | hin
    · refine .inr (.inr ?_)
      have hordered := h.ordered
      rw [← List.take_append_drop (devices.length - PUSH_TOKEN_LIMIT) devices] at hordered
      have hlater : devices.drop (devices.length - PUSH_TOKEN_LIMIT) ⊆
          (PushRoom.registered (later t log)).dedup := fun t' ht' =>
        List.mem_dedup.2 ((List.pairwise_append.1 hordered).2.2 t hcut t' ht')
      have hlen := ((h.nodup.sublist hsub).subperm hlater).length_le
      rw [List.length_drop] at hlen
      have hpos : 0 < (devices.take (devices.length - PUSH_TOKEN_LIMIT)).length :=
        List.length_pos_of_mem hcut
      rw [List.length_take] at hpos
      unfold Displaced
      omega
    · exact .inl hin
  · exact .inr hexcused

/-- **Every registration keeps the list faithful.** -/
theorem Faithful.change {tokens : List PushToken} (h : Faithful log (tokens.map (·.token)))
    (change : PushChange) :
    Faithful (.changed change :: log) ((change.apply tokens).map (·.token)) := by
  have hfilter : ∀ removed, (tokens.filter fun item => item.token ≠ removed).map (·.token) =
      (tokens.map (·.token)).filter fun t => t ≠ removed := fun removed => by
    rw [List.filter_map]
    rfl
  cases change with
  | remove removed =>
    rw [PushChange.apply, hfilter]
    exact h.remove removed
  | register device =>
    have hcut := (h.append device).cut
    simp only [PushChange.apply, List.map_drop, List.map_append, hfilter, List.map_cons,
      List.map_nil]
    have hlen : (tokens.filter (fun item => item.token ≠ device.token) ++ [device]).length =
        ((tokens.map (·.token)).filter (fun t => t ≠ device.token) ++ [device.token]).length := by
      rw [← hfilter, List.length_append, List.length_append, List.length_map]
      rfl
    rw [hlen]
    exact hcut

/-! ## Wakes keep the list faithful -/

theorem Registered.of_stale {stale : List Str} (h : Registered token (.stale stale :: log)) :
    Registered token log := h

/-- Dropping the devices reported stale. -/
theorem Faithful.stale (h : Faithful log devices) (stale : List Str) :
    Faithful (.stale stale :: log) (devices.filter fun t => !stale.contains t) := by
  refine ⟨h.nodup.filter _, fun t ht => h.registered t (List.mem_of_mem_filter ht),
    h.ordered.sublist List.filter_sublist, fun t ht => ?_⟩
  by_cases hstale : t ∈ stale
  · exact .inr (.inl ⟨stale, List.mem_cons_self, hstale⟩)
  · rcases h.kept t ht.of_stale with hin | ⟨tokens, hmem, hin⟩ | hlen
    · exact .inl (List.mem_filter.2 ⟨hin, by simpa using hstale⟩)
    · exact .inr (.inl ⟨tokens, List.mem_cons_of_mem _ hmem, hin⟩)
    · exact .inr (.inr hlen)

/-- When a wake reports stale devices, the stored list and the snapshot name the same other
devices in the same order. -/
def Undisturbed (r : PushRoom) : PushLabel → Prop
  | .answers results => ∀ snapshot ∈ r.sending, staleTokens snapshot results ≠ [] →
    (snapshot.map (·.token)).filter (fun t => !(staleTokens snapshot results).contains t) =
      r.devices.filter fun t => !(staleTokens snapshot results).contains t
  | _ => True

instance (r : PushRoom) (label : PushLabel) : Decidable (r.Undisturbed label) :=
  match label with
  | .answers _ => inferInstanceAs (Decidable (∀ snapshot ∈ r.sending, _ → _ = _))
  | .registration _ _ => inferInstanceAs (Decidable True)
  | .wake => inferInstanceAs (Decidable True)

/-- A step that no registration disturbed. -/
def QuietStep (configured : Bool) (r : PushRoom) (label : PushLabel) (r' : PushRoom) : Prop :=
  r.Undisturbed label ∧ r.next configured label = r'

/-- **Step lemma**: the stored list stays faithful. -/
theorem Faithful.step {configured : Bool} {r r' : PushRoom} {label : PushLabel}
    (h : Faithful r.log r.devices) (hs : QuietStep configured r label r') :
    Faithful r'.log r'.devices := by
  obtain ⟨hquiet, rfl⟩ := hs
  cases label with
  | registration q now =>
    unfold next handlePushRegistration
    cases hread : readRegistration q now with
    | ok change =>
      simp only [hread]
      exact Faithful.change h change
    | error e =>
      cases e with
      | thrown t => simpa only [hread] using h
      | returned reply =>
        simp only [hread]
        exact h
  | wake =>
    unfold next
    dsimp only
    split_ifs
    · exact h
    · exact h
  | answers results =>
    unfold next
    cases hsending : r.sending with
    | none => exact h
    | some snapshot =>
      have hstale := h.stale (staleTokens snapshot results)
      unfold PushRoom.devices finishWakePush
      dsimp only
      split_ifs with hnone
      · rw [hnone] at hstale ⊢
        simpa [PushRoom.devices] using hstale
      · rw [← hquiet snapshot hsending hnone] at hstale
        rw [List.filter_map] at hstale
        exact hstale

end PushRoom

/-- **Registrations survive wakes.** In every run whose wakes find, apart from the devices they
report stale, the devices they read in the order they read them: a registered device is stored,
unless it was reported stale or enough others registered after it, and a removed one is not. -/
theorem registrations_kept (configured : Bool) {labels : List PushLabel} {r : PushRoom}
    (hrun : Run (PushRoom.QuietStep configured) .empty labels r) (token : Str) :
    (∀ device, PushRoom.lastChange token r.log = some (.register device) →
      token ∈ r.devices ∨ PushRoom.Stale token r.log ∨ PushRoom.Displaced token r.log) ∧
    (∀ removed, PushRoom.lastChange token r.log = some (.remove removed) → token ∉ r.devices) := by
  have h : PushRoom.Faithful r.log r.devices :=
    hrun.invariant (I := fun r => PushRoom.Faithful r.log r.devices)
      (fun _ _ _ h hs => h.step hs) .empty
  refine ⟨fun device hlast => h.kept token ⟨device, hlast⟩, fun removed hlast hin => ?_⟩
  obtain ⟨device, hregistered⟩ := h.registered token hin
  rw [hlast] at hregistered
  cases hregistered

/-- A device token that repeats one digit. -/
def sampleToken (digit : Char) : Str := List.replicate 32 digit.toNat.toUInt16

/-- A registration of a device. -/
def sampleRegistration (digit : Char) : PushLabel := .registration
  { method := .put
    authError := none
    body := some (.obj [(lit "token", .str (sampleToken digit)),
      (lit "environment", .text "sandbox"), (lit "bundleId", .text "com.ziborov.granttap")]) } 0

/-- The push service reports one device stale. -/
def sampleAnswers (digit : Char) : PushLabel := .answers fun device =>
  if device.token = sampleToken digit then .stale else .accepted

/-- Steps that no registration disturbs, as a run. -/
theorem PushRoom.quiet_run {configured : Bool} {labels : List PushLabel} {r : PushRoom}
    (h : ∀ n, (hn : n < labels.length) →
      ((labels.take n).foldl (PushRoom.next configured) r).Undisturbed labels[n]) :
    Run (PushRoom.QuietStep configured) r labels (labels.foldl (PushRoom.next configured) r) := by
  induction labels generalizing r with
  | nil => exact .nil r
  | cons label labels ih =>
    exact .cons ⟨h 0 (Nat.zero_lt_succ _), rfl⟩ (ih fun n hn => h (n + 1) (Nat.succ_lt_succ hn))

/-- A device registers after a wake that reported another one stale. -/
def quietLabels : List PushLabel :=
  [sampleRegistration 'a', .wake, sampleAnswers 'a', sampleRegistration 'b']

theorem registrations_kept_sample :
    sampleToken 'b' ∈ (quietLabels.foldl (PushRoom.next true) .empty).devices ∧
    ∀ removed, PushRoom.lastChange (sampleToken 'b')
        (quietLabels.foldl (PushRoom.next true) .empty).log = some (.remove removed) →
      sampleToken 'b' ∉ (quietLabels.foldl (PushRoom.next true) .empty).devices :=
  ⟨by decide +kernel,
    (registrations_kept true (PushRoom.quiet_run (by decide +kernel)) (sampleToken 'b')).2⟩

/-- Two devices are registered, and a third one registers while a wake waits for the answer that
the first is stale. -/
def disturbedLabels : List PushLabel :=
  [sampleRegistration 'a', sampleRegistration 'b', .wake, sampleRegistration 'c',
    sampleAnswers 'a']

/-- The wake writes the list back without the third device. -/
theorem wake_drops_registration :
    ¬∀ (labels : List PushLabel) (r : PushRoom) (token : Str) (device : PushToken),
      Run (fun r label r' => r.next true label = r') .empty labels r → r.sending = none →
        PushRoom.lastChange token r.log = some (.register device) →
          token ∈ r.devices ∨ PushRoom.Stale token r.log ∨ PushRoom.Displaced token r.log := by
  intro h
  have hlost := h disturbedLabels _ (sampleToken 'c')
    ⟨sampleToken 'c', lit "sandbox", lit "com.ziborov.granttap", 0⟩
    (foldl_run (PushRoom.next true) _ _) (by decide +kernel) (by rfl)
  have hdevices : (disturbedLabels.foldl (PushRoom.next true) .empty).devices =
      [sampleToken 'b'] := by decide +kernel
  have hlater : PushRoom.later (sampleToken 'c')
      (disturbedLabels.foldl (PushRoom.next true) .empty).log = [.stale [sampleToken 'a']] := by rfl
  rw [hdevices, PushRoom.Stale, PushRoom.Displaced, hlater] at hlost
  rcases hlost with hin | ⟨tokens, hin, ht⟩ | hlen
  · revert hin
    decide +kernel
  · cases List.mem_singleton.1 hin
    revert ht
    decide +kernel
  · revert hlen
    decide +kernel

end GrantTap
