import GrantTapRelay.Laws.PinnedRooms
import GrantTapRelay.Push.Registrations
import GrantTapRelay.TaskDispatch.Router

/-!
# Push registrations on Node

`handlePushRegistration` and `sendWakePush` of `src/node/pushDelivery/`, over `pushTokens`,
`updatePushToken` and `removePushTokens` of `src/node/store.js`. When the push service has answered,
a wake reads the list again and takes the stale devices out of what it reads, so that a device that
registered meanwhile stays.

`NodePushes` are the rooms, the wakes that wait, and the log of each room. Any number of wakes may
wait, also for one room, and the other writers of the rooms go on between them.

* `NodePushes.Kept.next`: what every step keeps.
* `node_registrations_kept`: **in every run** the list of a room holds the devices that its log asks
  for.
-/

namespace GrantTap

open Js Runs

/-! ## The columns of a room -/

namespace RelayStore

def pushTokens (s : RelayStore) (room : Str) : List PushToken :=
  ((s.get? room).map (·.pushTokens)).getD []

/-- The list that is written, and the rooms. -/
def updatePushToken (s : RelayStore) (room : Str) (device : PushToken) (remove : Bool) (now : ℤ) :
    List PushToken × RelayStore :=
  let tokens := (s.pushTokens room).filter fun item => item.token ≠ device.token
  let tokens := if remove then tokens else tokens ++ [{ device with updatedAt := now }]
  let tokens :=
    if PUSH_TOKEN_LIMIT < tokens.length then tokens.drop (tokens.length - PUSH_TOKEN_LIMIT)
    else tokens
  (tokens, s.writeTokens room tokens now)

def removePushTokens (s : RelayStore) (room : Str) (tokens : List Str) (now : ℤ) : RelayStore :=
  s.writeTokens room ((s.pushTokens room).filter fun item => !tokens.contains item.token) now

end RelayStore

/-! ## Requests -/

/-- A request to `/push/register`, or to `/push/status`, and what the handler finds: a storage
failure of `authorize`, and one of the write. A body that `readJson` refuses is none. -/
structure NodePushRequest where
  status : Bool
  method : Method
  room : Option Str
  credential : Str
  body : Value
  fault : Option AuthFault
  writeFails : Bool

/-- A reply; what throws is answered with 500. -/
inductive NodePushReply
  | failed (status : ℕ) (error : String)
  | devices (registered : Option Bool) (enabled : Bool) (devices : ℕ)

/-- `throw` in a handler -/
def NodePushReply.internalError : NodePushReply := .failed 500 "internal error"

/-- The device of a registration, or the refusal. -/
def readNodeDevice (body : Value) (now : ℤ) : Early NodePushReply PushToken := do
  let text ← Early.attempt (textOrEmpty (body.get (lit "token")))
  let token := text.map lowerUnit
  Early.require (validDeviceToken token) (.failed 400 "valid APNs token required")
  let environment ← Early.demand ((body.get (lit "environment")).str?.filter fun s =>
    s = lit "sandbox" || s = lit "production")
    (.failed 400 "environment must be sandbox or production")
  Early.require ((body.get (lit "bundleId")).is (lit "com.ziborov.granttap"))
    (.failed 400 "unexpected bundle id")
  return ⟨token, environment, lit "com.ziborov.granttap", now⟩

/-- `handlePushRegistration` for a caller of the room; `configured` is
`apnsConfigured(env, environment)`. The change it makes is there for the log. -/
def serveNodePush (configured : Option Str → Bool) (s : RelayStore) (room : Str)
    (q : NodePushRequest) (now : ℤ) : NodePushReply × RelayStore × Option PushChange :=
  if q.status then
    if q.method ≠ .GET then (.failed 405 "method not allowed", s, none)
    else (.devices none (configured none) (s.pushTokens room).length, s, none)
  else if q.method ≠ .PUT ∧ q.method ≠ .POST ∧ q.method ≠ .DELETE then
    (.failed 405 "method not allowed", s, none)
  else
    match readNodeDevice q.body now with
    | .error (.thrown _) => (.internalError, s, none)
    | .error (.returned reply) => (reply, s, none)
    | .ok device =>
      if q.writeFails then (.internalError, s, none)
      else
        let remove : Bool := q.method = .DELETE
        let (tokens, s) := s.updatePushToken room device remove now
        (.devices (some !remove) (configured (some device.environment)) tokens.length, s,
          some (if remove then .remove device.token else .register device))

def handleNodePushRegistration (sha256 : Str → Str) (configured : Option Str → Bool)
    (s : RelayStore) (q : NodePushRequest) (now : ℤ) :
    NodePushReply × RelayStore × Option PushChange :=
  match q.room.filter validRoom with
  | none => (.failed 400 "valid room query parameter required", s, none)
  | some room =>
    match authorize sha256 s room q.credential (!q.status) q.fault now with
    | (none, s) => (.internalError, s, none)
    | (some false, s) => (.failed 401 "invalid room credential", s, none)
    | (some true, s) => serveNodePush configured s room q now

/-! ## Runs -/

structure NodePushes where
  store : RelayStore
  /-- The rooms of the waiting wakes, with the devices they read. -/
  sending : List (Str × List PushToken)
  /-- What happened in a room, newest first. -/
  log : Str → List PushEvent

inductive NodePushLabel
  | request (q : NodePushRequest)
  | wake (room : Str)
  /-- The push service has answered a waiting wake. -/
  | answers (n : ℕ) (results : PushToken → ApnsResult)
  /-- Another handler reads or writes a mailbox. -/
  | queue (room : Str) (role : Role)
  | enqueue (room : Str) (role : Role) (raw : Str) (deliveryId : Option Str) (expiresAt : Option ℤ)
  | acknowledge (room : Str) (role : Role) (deliveryId : Str)
  /-- Another handler authorizes. -/
  | authorize (room credential : Str) (pin : Bool) (fault : Option AuthFault)
  /-- The process ends, and the waiting wakes with it. -/
  | restart

namespace NodePushes

def empty : NodePushes := ⟨.empty, [], fun _ => []⟩

def record (w : NodePushes) (room : Str) (e : PushEvent) : NodePushes :=
  { w with log := Function.update w.log room (e :: w.log room) }

/-- The rest of `sendWakePush` after the answers. -/
def finish (w : NodePushes) (room : Str) (snapshot : List PushToken)
    (results : PushToken → ApnsResult) (now : ℤ) : NodePushes :=
  let stale := staleTokens snapshot results
  let store := if stale = [] then w.store else w.store.removePushTokens room stale now
  { w with store := store }.record room (.stale stale)

def next (w : NodePushes) (sha256 : Str → Str) (configured : Option Str → Bool) (now : ℤ) :
    NodePushLabel → NodePushes
  | .request q =>
    match handleNodePushRegistration sha256 configured w.store q now with
    | (_, store, none) => { w with store := store }
    | (_, store, some change) =>
      { w with store := store }.record (q.room.getD []) (.changed change)
  | .wake room =>
    if configured none then { w with sending := w.sending ++ [(room, w.store.pushTokens room)] }
    else w
  | .answers n results =>
    match w.sending[n]? with
    | none => w
    | some (room, snapshot) =>
      { w with sending := w.sending.eraseIdx n }.finish room snapshot results now
  | .queue room role => { w with store := (w.store.queue room role now).1 }
  | .enqueue room role raw deliveryId expiresAt =>
    { w with store := (w.store.enqueue room role raw deliveryId expiresAt now).1 }
  | .acknowledge room role deliveryId =>
    { w with store := w.store.acknowledge room role deliveryId now }
  | .authorize room credential pin fault =>
    { w with store := (GrantTap.authorize sha256 w.store room credential pin fault now).2 }
  | .restart => { w with sending := [] }

/-- A run: labels with their times. -/
def after (sha256 : Str → Str) (configured : Option Str → Bool)
    (labels : List (ℤ × NodePushLabel)) : NodePushes :=
  labels.foldl (fun w l => w.next sha256 configured l.1 l.2) .empty

end NodePushes

/-! ## What the writers of the rooms do to the lists -/

namespace RelayStore

variable {s : RelayStore} {room room' : Str} {now : ℤ}

theorem pushTokens_put (s : RelayStore) (room : Str) (row : RoomRow) (room' : Str) :
    pushTokens (s.put room row) room' = if room' = room then row.pushTokens
      else s.pushTokens room' := by
  unfold pushTokens
  rw [Table.get?_put]
  split_ifs <;> rfl

/-- Rewriting a row that keeps its list. -/
theorem pushTokens_rewrite {row row' : RoomRow} (hrow : s.get? room = some row)
    (hsame : row'.pushTokens = row.pushTokens) :
    pushTokens (s.put room row') room' = s.pushTokens room' := by
  rw [pushTokens_put]
  split_ifs with h
  · rw [h, pushTokens, hrow, hsame]
    rfl
  · rfl

/-- A row that starts without devices. -/
theorem pushTokens_start {row : RoomRow} (hrow : s.get? room = none)
    (hnew : row.pushTokens = []) : pushTokens (s.put room row) room' = s.pushTokens room' := by
  rw [pushTokens_put]
  split_ifs with h
  · rw [h, pushTokens, hrow, hnew]
    rfl
  · rfl

theorem pushTokens_writeQueue (role : Role) (queue : List QueueRow) :
    (s.writeQueue room role queue now).pushTokens room' = s.pushTokens room' := by
  unfold writeQueue
  split
  · rfl
  · rename_i row hrow
    refine pushTokens_rewrite hrow ?_
    cases role <;> rfl

theorem pushTokens_queue (role : Role) :
    (s.queue room role now).1.pushTokens room' = s.pushTokens room' := by
  unfold queue
  split
  · rfl
  · dsimp only
    split_ifs
    · exact pushTokens_writeQueue ..
    · rfl

theorem pushTokens_enqueue (role : Role) (raw : Str) (deliveryId : Option Str)
    (expiresAt : Option ℤ) :
    (s.enqueue room role raw deliveryId expiresAt now).1.pushTokens room' = s.pushTokens room' := by
  unfold enqueue
  dsimp only
  split_ifs
  · rfl
  · rfl
  · rfl
  · exact pushTokens_queue ..
  · split
    · exact pushTokens_queue ..
    · rw [pushTokens_writeQueue, pushTokens_queue]

theorem pushTokens_acknowledge (role : Role) (deliveryId : Str) :
    (s.acknowledge room role deliveryId now).pushTokens room' = s.pushTokens room' := by
  unfold acknowledge
  dsimp only
  split_ifs
  · rw [pushTokens_writeQueue, pushTokens_queue]
  · exact pushTokens_queue ..

theorem pushTokens_ensureRoom :
    (s.ensureRoom room now).pushTokens room' = s.pushTokens room' := by
  unfold ensureRoom
  split
  · rename_i hrow
    exact pushTokens_start hrow rfl
  · rename_i row hrow
    exact pushTokens_rewrite hrow rfl

theorem pushTokens_pinAuth (digest : Str) :
    (NodeRelay.pinAuth s room digest now).pushTokens room' = s.pushTokens room' := by
  unfold NodeRelay.pinAuth
  split
  · rename_i hrow
    exact pushTokens_start hrow rfl
  · rename_i row hrow
    exact pushTokens_rewrite hrow rfl

theorem pushTokens_authorize (sha256 : Str → Str) (credential : Str) (pin : Bool)
    (fault : Option AuthFault) :
    (authorize sha256 s room credential pin fault now).2.pushTokens room' = s.pushTokens room' := by
  unfold authorize
  split
  · rfl
  · split
    · rfl
    · dsimp only
      split
      · split <;> rfl
      · split_ifs
        · rfl
        · exact pushTokens_ensureRoom
        · exact pushTokens_pinAuth _
        · exact pushTokens_pinAuth _

/-- A list is written to a room that has a row, or to none that had devices. -/
theorem pushTokens_writeTokens {tokens : List PushToken}
    (h : (s.get? room).isSome ∨ tokens = []) :
    (s.writeTokens room tokens now).pushTokens room' =
      if room' = room then tokens else s.pushTokens room' := by
  unfold writeTokens
  split
  · rename_i hrow
    have htokens : tokens = [] := h.resolve_left (by rw [hrow]; exact Bool.false_ne_true)
    split_ifs with hroom
    · rw [hroom, htokens, pushTokens, hrow]
      rfl
    · rfl
  · rw [pushTokens_put]

theorem isSome_of_pushTokens (h : s.pushTokens room ≠ []) : (s.get? room).isSome := by
  unfold pushTokens at h
  cases hrow : s.get? room with
  | none => rw [hrow] at h; exact absurd rfl h
  | some row => rfl

theorem pushTokens_removePushTokens (tokens : List Str) :
    (s.removePushTokens room tokens now).pushTokens room' =
      if room' = room then (s.pushTokens room).filter fun item => !tokens.contains item.token
      else s.pushTokens room' := by
  refine pushTokens_writeTokens ?_
  by_cases h : s.pushTokens room = []
  · exact .inr (by rw [h]; rfl)
  · exact .inl (isSome_of_pushTokens h)

/-- What is written is the list after the change. -/
theorem fst_updatePushToken (device : PushToken) (remove : Bool)
    (hlength : (s.pushTokens room).length ≤ PUSH_TOKEN_LIMIT) (hnow : device.updatedAt = now) :
    (s.updatePushToken room device remove now).1 =
      (if remove then PushChange.remove device.token else .register device).apply
        (s.pushTokens room) := by
  subst hnow
  unfold updatePushToken
  dsimp only
  cases remove with
  | true =>
    have hkept := ((s.pushTokens room).length_filter_le fun item => item.token ≠ device.token).trans
      hlength
    rw [if_pos rfl, if_pos rfl, if_neg (by omega)]
    rfl
  | false =>
    rw [if_neg Bool.false_ne_true, if_neg Bool.false_ne_true, PushChange.apply]
    split_ifs with hfull
    · rfl
    · rw [Nat.sub_eq_zero_of_le (Nat.le_of_not_lt hfull), List.drop_zero]

end RelayStore

theorem PushChange.length_apply_le {tokens : List PushToken}
    (h : tokens.length ≤ PUSH_TOKEN_LIMIT) (change : PushChange) :
    (change.apply tokens).length ≤ PUSH_TOKEN_LIMIT := by
  cases change with
  | register device =>
    rw [apply, List.length_drop]
    omega
  | remove removed => exact (List.length_filter_le _ _).trans h

/-! ## One request -/

/-- Who is let through belongs to a room with a row. -/
theorem isSome_of_authorized {sha256 : Str → Str} {s s' : RelayStore} {room credential : Str}
    {pin : Bool} {fault : Option AuthFault} {now : ℤ}
    (h : authorize sha256 s room credential pin fault now = (some true, s')) :
    (s'.get? room).isSome := by
  obtain ⟨digest, hdigest, -⟩ := (authorize_spec h).2.2 rfl
  obtain ⟨row, hrow, -⟩ := Option.bind_eq_some_iff.1 hdigest
  rw [hrow]
  rfl

/-- The change that is logged is made in its room, and nothing else happens to the lists. -/
def Changes (room : Str) (change : Option PushChange) (s s' : RelayStore) : Prop :=
  ∀ room', s'.pushTokens room' =
    if room' = room then change.elim (s.pushTokens room) fun c => c.apply (s.pushTokens room)
    else s.pushTokens room'

theorem changes_none {room : Str} {s s' : RelayStore}
    (h : ∀ room', s'.pushTokens room' = s.pushTokens room') : Changes room none s s' := by
  intro room'
  rw [h]
  split_ifs with hroom
  · rw [hroom]
    rfl
  · rfl

theorem updatedAt_readNodeDevice {body : Value} {now : ℤ} {device : PushToken}
    (h : readNodeDevice body now = .ok device) : device.updatedAt = now := by
  obtain ⟨text, -, h⟩ := Early.attempt_bind_ok.1 h
  obtain ⟨-, h⟩ := Early.require_bind_ok.1 h
  obtain ⟨environment, -, h⟩ := Early.demand_bind_ok.1 h
  obtain ⟨-, h⟩ := Early.require_bind_ok.1 h
  rw [← Except.ok.inj h]

theorem RelayStore.updatePushToken_changes {s : RelayStore} {room : Str} {now : ℤ}
    (device : PushToken) (remove : Bool) (hrow : (s.get? room).isSome)
    (hlimited : (s.pushTokens room).length ≤ PUSH_TOKEN_LIMIT) (hnow : device.updatedAt = now) :
    Changes room (some (if remove then .remove device.token else .register device)) s
      (s.updatePushToken room device remove now).2 := by
  intro room'
  rw [Option.elim_some, ← fst_updatePushToken device remove hlimited hnow]
  exact pushTokens_writeTokens (.inl hrow)

theorem serveNodePush_changes (configured : Option Str → Bool) {s : RelayStore} {room : Str}
    (q : NodePushRequest) (now : ℤ) (hrow : (s.get? room).isSome)
    (hlimited : (s.pushTokens room).length ≤ PUSH_TOKEN_LIMIT) :
    Changes room (serveNodePush configured s room q now).2.2 s
      (serveNodePush configured s room q now).2.1 := by
  have hsame : Changes room none s s := changes_none fun _ => rfl
  unfold serveNodePush
  split
  · split <;> exact hsame
  · split
    · exact hsame
    · split
      · exact hsame
      · exact hsame
      · rename_i device hread
        split
        · exact hsame
        · exact RelayStore.updatePushToken_changes device _ hrow hlimited
            (updatedAt_readNodeDevice hread)

/-- **A request** makes the change that it logs, if it logs one, and no other. -/
theorem handleNodePushRegistration_changes (sha256 : Str → Str) (configured : Option Str → Bool)
    {s : RelayStore} (q : NodePushRequest) (now : ℤ)
    (hlimited : ∀ room, (s.pushTokens room).length ≤ PUSH_TOKEN_LIMIT) :
    Changes (q.room.getD []) (handleNodePushRegistration sha256 configured s q now).2.2 s
      (handleNodePushRegistration sha256 configured s q now).2.1 := by
  unfold handleNodePushRegistration
  split
  · exact changes_none fun _ => rfl
  · rename_i room hroom
    obtain ⟨hroom, -⟩ := Option.filter_eq_some_iff.1 hroom
    have hauthorized (room' : Str) : (authorize sha256 s room q.credential (!q.status) q.fault
        now).2.pushTokens room' = s.pushTokens room' :=
      RelayStore.pushTokens_authorize sha256 q.credential (!q.status) q.fault
    rw [hroom, Option.getD_some]
    split
    · rename_i s' hauth
      exact changes_none fun room' => by simpa only [hauth] using hauthorized room'
    · rename_i s' hauth
      exact changes_none fun room' => by simpa only [hauth] using hauthorized room'
    · rename_i s' hauth
      rw [hauth] at hauthorized
      have hserved := serveNodePush_changes configured q now (isSome_of_authorized hauth)
        (by rw [hauthorized]; exact hlimited room)
      intro room'
      rw [hserved room', hauthorized, hauthorized]

/-! ## Runs -/

namespace NodePushes

open PushRoom (Faithful)

/-- The lists are those that the logs ask for, and no longer than they may be. -/
structure Kept (w : NodePushes) : Prop where
  faithful : ∀ room, Faithful (w.log room) ((w.store.pushTokens room).map (·.token))
  limited : ∀ room, (w.store.pushTokens room).length ≤ PUSH_TOKEN_LIMIT

variable {w : NodePushes} {room : Str} {now : ℤ}

theorem Kept.empty : Kept .empty := ⟨fun _ => .empty, fun _ => Nat.zero_le _⟩

/-- A step that changes no list and logs nothing. -/
theorem Kept.of_same {w' : NodePushes} (h : w.Kept) (hlog : w'.log = w.log)
    (hsame : ∀ room, w'.store.pushTokens room = w.store.pushTokens room) : w'.Kept where
  faithful := fun room => by rw [hlog, hsame]; exact h.faithful room
  limited := fun room => by rw [hsame]; exact h.limited room

/-- A change of a list that is logged. -/
theorem Kept.change {store : RelayStore} {change : PushChange} (h : w.Kept)
    (hchange : Changes room (some change) w.store store) :
    ({ w with store := store }.record room (.changed change)).Kept where
  faithful := fun room' => by
    change Faithful (Function.update w.log room (.changed change :: w.log room) room')
      ((store.pushTokens room').map (·.token))
    rw [hchange room', Function.update_apply]
    split_ifs with hroom
    · exact (h.faithful room).change change
    · exact h.faithful room'
  limited := fun room' => by
    change (store.pushTokens room').length ≤ _
    rw [hchange room']
    split_ifs
    · exact PushChange.length_apply_le (h.limited room) change
    · exact h.limited room'

/-- **The end of a wake** takes out what it reports stale, of the list as it is now. -/
theorem Kept.finish (h : w.Kept) (room : Str) (snapshot : List PushToken)
    (results : PushToken → ApnsResult) (now : ℤ) : (w.finish room snapshot results now).Kept := by
  have hstore : ∀ room', (if staleTokens snapshot results = [] then w.store
      else w.store.removePushTokens room (staleTokens snapshot results) now).pushTokens room' =
        if room' = room then (w.store.pushTokens room).filter fun item =>
          !(staleTokens snapshot results).contains item.token
        else w.store.pushTokens room' := by
    intro room'
    split_ifs with hnone hroom hroom
    · rw [hroom, hnone]
      simp
    · rfl
    · rw [RelayStore.pushTokens_removePushTokens, if_pos hroom]
    · rw [RelayStore.pushTokens_removePushTokens, if_neg hroom]
  constructor
  · intro room'
    change Faithful (Function.update w.log room (.stale _ :: w.log room) room') _
    unfold NodePushes.finish record
    dsimp only
    rw [hstore room', Function.update_apply]
    split_ifs with hroom
    · have hstale := (h.faithful room).stale (staleTokens snapshot results)
      rw [List.filter_map] at hstale
      exact hstale
    · exact h.faithful room'
  · intro room'
    unfold NodePushes.finish record
    dsimp only
    rw [hstore room']
    split_ifs
    · exact (List.length_filter_le _ _).trans (h.limited room)
    · exact h.limited room'

/-- **Step lemma.** -/
theorem Kept.next (h : w.Kept) (sha256 : Str → Str) (configured : Option Str → Bool) (now : ℤ)
    (label : NodePushLabel) : (w.next sha256 configured now label).Kept := by
  cases label with
  | request q =>
    have hchanges := handleNodePushRegistration_changes sha256 configured q now h.limited
    unfold NodePushes.next
    dsimp only
    split
    · rename_i reply store hresult
      rw [hresult] at hchanges
      refine h.of_same rfl fun room => (hchanges room).trans ?_
      split_ifs with hroom
      · rw [hroom]
        rfl
      · rfl
    · rename_i reply store change hresult
      rw [hresult] at hchanges
      exact h.change hchanges
  | wake room =>
    unfold NodePushes.next
    dsimp only
    split_ifs
    · exact h.of_same rfl fun _ => rfl
    · exact h
  | answers n results =>
    unfold NodePushes.next
    dsimp only
    split
    · exact h
    · rename_i room snapshot hwaiting
      have hrest : ({ w with sending := w.sending.eraseIdx n } : NodePushes).Kept :=
        h.of_same rfl fun _ => rfl
      exact hrest.finish room snapshot results now
  | queue room role => exact h.of_same rfl fun _ => RelayStore.pushTokens_queue role
  | enqueue room role raw deliveryId expiresAt =>
    exact h.of_same rfl fun _ => RelayStore.pushTokens_enqueue role raw deliveryId expiresAt
  | acknowledge room role deliveryId =>
    exact h.of_same rfl fun _ => RelayStore.pushTokens_acknowledge role deliveryId
  | authorize room credential pin fault =>
    exact h.of_same rfl fun _ => RelayStore.pushTokens_authorize sha256 credential pin fault
  | restart => exact h.of_same rfl fun _ => rfl

end NodePushes

/-- **Registrations survive wakes on Node.** In every run, whatever registers while a wake waits, a
registered device of a room is stored, unless it was reported stale or enough others registered
after it, and a removed one is not; no list is longer than it may be. -/
theorem node_registrations_kept (sha256 : Str → Str) (configured : Option Str → Bool)
    (labels : List (ℤ × NodePushLabel)) (room token : Str) :
    let w := NodePushes.after sha256 configured labels
    let devices := (w.store.pushTokens room).map (·.token)
    devices.Nodup ∧ devices.length ≤ PUSH_TOKEN_LIMIT ∧
      (∀ device, PushRoom.lastChange token (w.log room) = some (.register device) →
        token ∈ devices ∨ PushRoom.Stale token (w.log room) ∨
          PushRoom.Displaced token (w.log room)) ∧
      ∀ removed, PushRoom.lastChange token (w.log room) = some (.remove removed) →
        token ∉ devices := by
  intro w devices
  have hrun : Run (fun w l w' => w.next sha256 configured l.1 l.2 = w') NodePushes.empty labels
      w :=
    foldl_run (fun (w : NodePushes) (l : ℤ × NodePushLabel) =>
      w.next sha256 configured l.1 l.2) .empty labels
  have h : w.Kept := by
    refine hrun.invariant (fun w l w' h hstep => ?_) .empty
    rw [← hstep]
    exact h.next sha256 configured l.1 l.2
  have hfaithful := h.faithful room
  refine ⟨hfaithful.nodup, by rw [List.length_map]; exact h.limited room,
    fun device hlast => hfaithful.kept token ⟨device, hlast⟩, fun removed hlast hin => ?_⟩
  obtain ⟨device, hregistered⟩ := hfaithful.registered token hin
  rw [hlast] at hregistered
  cases hregistered

section Sample

/-- A registration of a device that repeats one digit. -/
def sampleNodeRegistration (digit : Char) : NodePushLabel := .request
  { status := false
    method := .PUT
    room := some sampleRoom
    credential := sampleDigest 'a'
    body := some (.obj [(lit "token", .str (sampleToken digit)),
      (lit "environment", .text "sandbox"), (lit "bundleId", .text "com.ziborov.granttap")])
    fault := none
    writeFails := false }

/-- The device that registers while a wake waits stays, and the stale one goes. -/
example :
    ((NodePushes.after (fun _ => sampleDigest 'b') (fun _ => true)
      [(1000, sampleNodeRegistration 'a'), (1000, sampleNodeRegistration 'b'),
        (2000, .wake sampleRoom), (3000, sampleNodeRegistration 'c'),
        (4000, .answers 0 fun device =>
          if device.token = sampleToken 'a' then .stale else .accepted)]).store.pushTokens
      sampleRoom).map (·.token) = [sampleToken 'b', sampleToken 'c'] := by
  decide +kernel

end Sample

end GrantTap
