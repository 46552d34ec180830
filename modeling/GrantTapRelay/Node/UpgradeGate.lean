import GrantTapRelay.Node.ManagedAdmission
import GrantTapRelay.Relay.ConnectionPolicy

/-!
# Cool-downs at the gate

`src/node/upgrade-gate.js` and `src/node/socket-policy.js`: where the Node relay reads and strikes
cool-downs. A socket with a ticket is known by its ticket alone, so what others do reaches the
cool-down of a ticket holder only through the sweeps of the registry (`GateEvent.view_step_cases`).
-/

namespace GrantTap

open Js

/-! ## The gate -/

/-- The arguments of `upgradeRefusal`. An authorized upgrade names a valid room. -/
structure UpgradeRequest where
  authorized : Bool
  admissionRequired : Bool
  ticketHeader : Bool
  ticket : Option ManagedTicket
  recipientKeyId : Option Str
  room : Str
  roomSize : ℕ
  maxRoomSockets : ℕ
  room_valid : authorized = true → validRoom room = true

structure UpgradeRefusal where
  status : ℕ
  reason : Str
  retryAfter : Option ℕ
  deriving DecidableEq

/-- What the relay keeps of a socket for its policy. `sender` is the role and the sender id that
stand in for a missing key digest. -/
structure GateSocket where
  room : Str
  recipientKeyId : Option Str
  ticket : Option ManagedTicket
  sender : Option (Role × Str)
  room_valid : validRoom room = true

section Gate

variable (sha256 : Str → Str) (limits : CoolDownLimits)

def upgradeRefusal (q : UpgradeRequest) (coolDowns : CoolDownRegistry) (now : ℤ) :
    Option UpgradeRefusal × CoolDownRegistry :=
  if !q.authorized then (some ⟨401, lit "unauthorized", none⟩, coolDowns)
  else if q.admissionRequired && q.ticketHeader && q.ticket.isNone then
    (some ⟨403, lit "admission-invalid", none⟩, coolDowns)
  else if q.recipientKeyId.any fun key => !isDigest key then
    (some ⟨400, lit "recipient-invalid", none⟩, coolDowns)
  else
    let legacy := upgradeIdentity q.room q.recipientKeyId
    -- a ticket clears the admission-only cool-down of its legacy identity
    let coolDowns := if q.ticket.isSome then (coolDowns.remaining limits legacy true now).2
      else coolDowns
    let identity := match managedCooldownIdentity sha256 q.ticket with
      | some key => some key
      | none => legacy
    let (waitMs, coolDowns) := coolDowns.remaining limits identity q.ticket.isSome now
    if 0 < waitMs then
      (some ⟨429, lit "cool-down", some (max 1 (ceilSeconds waitMs))⟩, coolDowns)
    else if q.maxRoomSockets ≤ q.roomSize then (some ⟨503, lit "room-full", none⟩, coolDowns)
    else (none, coolDowns)

/-- A socket proves managed admission only while its signed lease is unexpired. -/
def admittedSocket (ticket : Option ManagedTicket) (now : ℤ) : Bool :=
  ticket.any fun t => now < t.expiresAt

/-- `identityOf` -/
def GateSocket.identity (s : GateSocket) : Option Str :=
  match managedCooldownIdentity sha256 s.ticket with
  | some key => some key
  | none => socketIdentity s.room s.recipientKeyId (s.sender.map Prod.fst) (s.sender.map Prod.snd)

/-- `refuseCoolingSocket`: whether the first frame is refused, and the cool-downs. -/
def refuseCoolingSocket (s : GateSocket) (coolDowns : CoolDownRegistry) (now : ℤ) :
    Bool × CoolDownRegistry :=
  let (remainingMs, coolDowns) :=
    coolDowns.remaining limits (s.identity sha256) (admittedSocket s.ticket now) now
  (decide (0 < remainingMs), coolDowns)

end Gate

/-! ## Histories -/

/-- What the cool-downs see of a relay. -/
inductive GateEvent
  | upgrade (request : UpgradeRequest)
  | firstFrame (socket : GateSocket)
  | policyClose (socket : GateSocket) (token : CloseToken)

namespace GateEvent

/-- The ticket of the upgrade or the socket. -/
def ticket : GateEvent → Option ManagedTicket
  | upgrade request => request.ticket
  | firstFrame socket => socket.ticket
  | policyClose socket _ => socket.ticket

/-- The event is of the holder of a ticket (`own_iff`). -/
def own (T : ManagedTicket) (e : GateEvent) : Bool :=
  e.ticket.any fun t => t.identityText = T.identityText

theorem own_iff {T : ManagedTicket} {e : GateEvent} :
    e.own T = true ↔ ∃ t, e.ticket = some t ∧ t.holder = T.holder := by
  rw [own, Option.any_eq_true]
  refine exists_congr fun t => and_congr_right fun _ => ?_
  rw [decide_eq_true_eq]
  refine ⟨ManagedTicket.holder_eq, fun h => ?_⟩
  simp only [ManagedTicket.holder, ManagedTicket.Holder.mk.injEq] at h
  simp only [ManagedTicket.identityText, h]

variable (sha256 : Str → Str) (limits : CoolDownLimits)

/-- The key that an event strikes, and whether for an admission. -/
def strikes : GateEvent → Option (Str × Bool)
  | policyClose socket token =>
    (struckKey token (socket.identity sha256)).map fun key => (key, token.policy.admission)
  | _ => none

/-- The refusals for a cool-down, and the cool-downs. -/
def step (coolDowns : CoolDownRegistry) (now : ℤ) : GateEvent → Bool × CoolDownRegistry
  | upgrade request =>
    let (refusal, coolDowns) := upgradeRefusal sha256 limits request coolDowns now
    (refusal.any fun r => r.reason = lit "cool-down", coolDowns)
  | firstFrame socket => refuseCoolingSocket sha256 limits socket coolDowns now
  | policyClose socket token =>
    (false, (applyPolicyClose token (socket.identity sha256) coolDowns limits now).2)

end GateEvent

/-- Events at times. -/
abbrev GateHistory := List (ℤ × GateEvent)

section History

variable (sha256 : Str → Str) (limits : CoolDownLimits) (T : ManagedTicket)

/-- The key of the holder of a ticket. -/
def holderKey : Str := lit "managed:" ++ sha256 T.identityText

/-- The events of the holder of a ticket. -/
def ownEvents (h : GateHistory) : GateHistory := h.filter fun x => x.2.own T

/-- Whether each event of the holder is refused for a cool-down. -/
def verdicts : CoolDownRegistry → GateHistory → List Bool
  | _, [] => []
  | r, (now, e) :: h =>
    let (refused, r) := e.step sha256 limits r now
    if e.own T then refused :: verdicts r h else verdicts r h

/-- No sweep evicts the entry of the holder: after every strike its key tells what it told before
the sweep. -/
def Spares : CoolDownRegistry → GateHistory → Prop
  | _, [] => True
  | r, (now, e) :: h =>
    (∀ key admission, e.strikes sha256 = some (key, admission) →
      ((r.enter limits key admission now).sweep limits now).view limits (holderKey sha256 T) now =
        (r.enter limits key admission now).view limits (holderKey sha256 T) now) ∧
      Spares (e.step sha256 limits r now).2 h

end History

/-! ## The keys of others -/

section Keys

variable {sha256 : Str → Str} {T : ManagedTicket}

/-- No text begins with a room and is the key of a ticket holder. -/
theorem room_ne_holderKey {room rest : Str} (h : validRoom room = true) :
    room.take 16 ++ rest ≠ holderKey sha256 T := by
  cases room with
  | nil => cases h
  | cons u room =>
    simp only [validRoom, ofClass, List.all_cons, Bool.and_eq_true] at h
    have hu : isLowerHex u = true := h.2.1
    intro heq
    have hhead : u = 109 := (List.cons.inj heq).1
    rw [hhead] at hu
    exact absurd hu (by decide)

theorem upgradeIdentity_ne {room : Str} (h : validRoom room = true) (key : Option Str) :
    upgradeIdentity room key ≠ some (holderKey sha256 T) := by
  unfold upgradeIdentity
  intro heq
  obtain ⟨key, -, heq⟩ := Option.map_eq_some_iff.1 heq
  rw [List.append_assoc] at heq
  exact room_ne_holderKey h heq

theorem socketIdentity_ne {room : Str} (h : validRoom room = true) (key : Option Str)
    (role : Option Role) (sender : Option Str) :
    socketIdentity room key role sender ≠ some (holderKey sha256 T) := by
  unfold socketIdentity
  split
  · rename_i key' hkey
    rw [← hkey]
    exact upgradeIdentity_ne h key
  · split
    · intro heq
      rw [Option.some_inj] at heq
      simp only [List.append_assoc] at heq
      exact room_ne_holderKey h heq
    · nofun

/-- Tickets of one identity text have one key, and others have others. -/
theorem managedCooldownIdentity_eq
    (hsha : ∀ text, sha256 text = sha256 T.identityText → text = T.identityText)
    {ticket : Option ManagedTicket} :
    managedCooldownIdentity sha256 ticket = some (holderKey sha256 T) ↔
      ticket.any (fun t => t.identityText = T.identityText) = true := by
  cases ticket with
  | none => simp [managedCooldownIdentity]
  | some t =>
    simp only [managedCooldownIdentity, holderKey, Option.map_some, Option.some_inj,
      List.append_cancel_left_eq, Option.any_some, decide_eq_true_eq]
    exact ⟨hsha _, fun h => by rw [h]⟩

theorem identity_eq_holderKey
    (hsha : ∀ text, sha256 text = sha256 T.identityText → text = T.identityText)
    (s : GateSocket) : s.identity sha256 = some (holderKey sha256 T) ↔
      s.ticket.any (fun t => t.identityText = T.identityText) = true := by
  rw [← managedCooldownIdentity_eq hsha]
  unfold GateSocket.identity
  split
  · rename_i key hkey
    rw [hkey]
  · rename_i hnone
    rw [hnone]
    exact iff_of_false (socketIdentity_ne s.room_valid _ _ _) (by nofun)

end Keys

/-! ## Steps -/

namespace GateEvent

open CoolDownRegistry

variable {sha256 : Str → Str} {limits : CoolDownLimits} {T : ManagedTicket}
  {r r' : CoolDownRegistry} {now later : ℤ}

/-- The upgrade gets as far as the cool-downs. -/
def reaches (q : UpgradeRequest) : Bool :=
  q.authorized && !(q.admissionRequired && q.ticketHeader && q.ticket.isNone) &&
    !(q.recipientKeyId.any fun key => !isDigest key)

/-- The cool-downs after the check of the legacy identity. -/
def legacyChecked (limits : CoolDownLimits) (q : UpgradeRequest) (r : CoolDownRegistry) (now : ℤ) :
    CoolDownRegistry :=
  if q.ticket.isSome then
    (r.remaining limits (upgradeIdentity q.room q.recipientKeyId) true now).2
  else r

/-- The identity whose cool-down an upgrade waits for. -/
def upgradeKey (sha256 : Str → Str) (q : UpgradeRequest) : Option Str :=
  match managedCooldownIdentity sha256 q.ticket with
  | some key => some key
  | none => upgradeIdentity q.room q.recipientKeyId

theorem step_upgrade (q : UpgradeRequest) (r : CoolDownRegistry) (now : ℤ) :
    (upgrade q).step sha256 limits r now =
      if reaches q then
        let waiting := (legacyChecked limits q r now).remaining limits (upgradeKey sha256 q)
          q.ticket.isSome now
        (decide (0 < waiting.1), waiting.2)
      else (false, r) := by
  have hreasons : lit "unauthorized" ≠ lit "cool-down" ∧ lit "admission-invalid" ≠ lit "cool-down" ∧
      lit "recipient-invalid" ≠ lit "cool-down" ∧ lit "room-full" ≠ lit "cool-down" := by decide
  obtain ⟨h401, h403, h400, h503⟩ := hreasons
  unfold step upgradeRefusal reaches
  dsimp only
  by_cases hauth : q.authorized = true
  · by_cases hticket : (q.admissionRequired && q.ticketHeader && q.ticket.isNone) = true
    · simp [hauth, hticket, h403]
    · by_cases hkey : (q.recipientKeyId.any fun key => !isDigest key) = true
      · simp [hauth, hticket, hkey, h400]
      · rw [Bool.not_eq_true] at hticket hkey
        simp only [hauth, hticket, hkey, Bool.not_true, Bool.not_false, Bool.and_self,
          Bool.false_eq_true, if_false, if_true]
        change (_, _) = (_, _)
        split_ifs <;> simp_all [legacyChecked, upgradeKey]
  · simp [hauth, h401]

theorem step_policyClose (socket : GateSocket) (token : CloseToken) (r : CoolDownRegistry)
    (now : ℤ) : ((policyClose socket token).step sha256 limits r now) =
      (false, match (policyClose socket token).strikes sha256 with
        | none => r
        | some (key, admission) => (r.enter limits key admission now).sweep limits now) := by
  unfold step strikes applyPolicyClose
  dsimp only
  cases struckKey token (socket.identity sha256) <;> rfl

/-- What a sweep leaves of a key, at any later time. -/
theorem view_sweep_later (r : CoolDownRegistry) (h : now ≤ later) (key : Str) :
    (r.sweep limits now).view limits key later = r.view limits key later ∨
      (r.sweep limits now).view limits key later = none := by
  rw [view_later h, view_later (r := r) h]
  rcases view_sweep r limits now key with hv | hv
  · exact .inl (by rw [hv])
  · exact .inr (by rw [hv]; rfl)

section Others

variable (hsha : ∀ text, sha256 text = sha256 T.identityText → text = T.identityText)
include hsha

theorem upgradeKey_ne {q : UpgradeRequest} (hreach : reaches q = true)
    (hown : (upgrade q).own T = false) : upgradeKey sha256 q ≠ some (holderKey sha256 T) := by
  have hroom : validRoom q.room = true := q.room_valid
    (by simp only [reaches, Bool.and_eq_true] at hreach; exact hreach.1.1)
  unfold upgradeKey
  split
  · rename_i key hkey
    rw [← hkey]
    exact fun he => Bool.eq_false_iff.1 hown ((managedCooldownIdentity_eq hsha).1 he)
  · exact upgradeIdentity_ne hroom _

theorem struckKey_ne {e : GateEvent} (hown : e.own T = false) {key : Str} {admission : Bool}
    (h : e.strikes sha256 = some (key, admission)) : holderKey sha256 T ≠ key := by
  rintro rfl
  cases e with
  | upgrade q => cases h
  | firstFrame socket => cases h
  | policyClose socket token =>
    obtain ⟨key, hkey, he⟩ := Option.map_eq_some_iff.1 h
    cases he
    unfold struckKey at hkey
    split_ifs at hkey
    have hid := (Option.filter_eq_some_iff.1 hkey).1
    exact Bool.eq_false_iff.1 hown ((identity_eq_holderKey hsha socket).1 hid)

/-- An event of another leaves what the key of the holder tells, up to the sweep of its strike. -/
theorem view_step_cases {e : GateEvent} (hown : e.own T = false) (limits : CoolDownLimits)
    (r : CoolDownRegistry) (now : ℤ) :
    (∀ later, (e.step sha256 limits r now).2.view limits (holderKey sha256 T) later =
        r.view limits (holderKey sha256 T) later) ∨
      ∃ key admission, e.strikes sha256 = some (key, admission) ∧
        (e.step sha256 limits r now).2 = (r.enter limits key admission now).sweep limits now ∧
        ∀ later, (r.enter limits key admission now).view limits (holderKey sha256 T) later =
          r.view limits (holderKey sha256 T) later := by
  cases e with
  | upgrade q =>
    refine .inl fun later => ?_
    rw [step_upgrade]
    split_ifs with hreach
    · have hroom : validRoom q.room = true := q.room_valid
        (by simp only [reaches, Bool.and_eq_true] at hreach; exact hreach.1.1)
      dsimp only
      rw [view_remaining_of_ne (upgradeKey_ne hsha hreach hown)]
      unfold legacyChecked
      split_ifs
      · exact view_remaining_of_ne (upgradeIdentity_ne hroom _) _ _ _
      · rfl
    · rfl
  | firstFrame socket =>
    refine .inl fun later => view_remaining_of_ne (fun he => ?_) _ _ _
    exact Bool.eq_false_iff.1 hown ((identity_eq_holderKey hsha socket).1 he)
  | policyClose socket token =>
    rw [step_policyClose]
    cases hstrike : (policyClose socket token).strikes sha256 with
    | none => exact .inl fun _ => rfl
    | some struck =>
      obtain ⟨key, admission⟩ := struck
      exact .inr ⟨key, admission, rfl, rfl,
        view_enter_of_ne (struckKey_ne hsha hown hstrike) admission now⟩

/-- **The events of others** leave what the key of a holder tells, or make it none. -/
theorem view_step_other (limits : CoolDownLimits) (r : CoolDownRegistry) {e : GateEvent}
    (hown : e.own T = false) (h : now ≤ later) :
    (e.step sha256 limits r now).2.view limits (holderKey sha256 T) later =
        r.view limits (holderKey sha256 T) later ∨
      (e.step sha256 limits r now).2.view limits (holderKey sha256 T) later = none := by
  rcases view_step_cases hsha hown limits r now with heq | ⟨key, admission, -, hstep, henter⟩
  · exact .inl (heq later)
  · rw [hstep, ← henter]
    exact view_sweep_later _ h _

/-- While the sweeps spare the holder, the events of others leave what its key tells. -/
theorem view_step_spared {e : GateEvent} (hown : e.own T = false)
    (hspares : ∀ key admission, e.strikes sha256 = some (key, admission) →
      ((r.enter limits key admission now).sweep limits now).view limits (holderKey sha256 T) now =
        (r.enter limits key admission now).view limits (holderKey sha256 T) now)
    (h : now ≤ later) :
    (e.step sha256 limits r now).2.view limits (holderKey sha256 T) later =
      r.view limits (holderKey sha256 T) later := by
  rcases view_step_cases hsha hown limits r now with heq | ⟨key, admission, hstrike, hstep, henter⟩
  · exact heq later
  · rw [hstep, view_later h, hspares key admission hstrike, ← view_later h, henter]

end Others

theorem holderKey_ne_nil : holderKey sha256 T ≠ [] := by
  unfold holderKey
  exact fun h => absurd (List.append_eq_nil_iff.1 h).1 (by decide)

end GateEvent

end GrantTap
