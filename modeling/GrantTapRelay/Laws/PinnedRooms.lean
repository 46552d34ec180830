import GrantTapRelay.Library.Runs
import GrantTapRelay.Node.Upgrades

/-!
# Pinned rooms

Upgrades that wait for the quota service, and HTTP requests between them. A room keeps the digest of
the first credential that opens it, whoever waits meanwhile; what `authorize` lets through later
supplied that credential; and no room has more than `MAX_ROOM_SOCKETS` sockets.

* `Pins`: what `authorize` may do to the digests of the rooms.
* `authorize_spec`: its three answers.
* `Guarded`: the digests are digests, and everything that was let through supplied the digest of
  its room.
* `Turn`: what an event does to the rooms, the sockets and the upgrades.
* `pinned_and_capped`: the laws of every run.
* `handshake_refused_after_pin`: a handshake that the library refuses may have pinned its room.
-/

namespace GrantTap

open Js Runs

/-! ## Digests -/

theorem isLowerHex_iff {u : UInt16} : isLowerHex u = true ↔
    97 ≤ u.toNat ∧ u.toNat ≤ 102 ∨ 48 ≤ u.toNat ∧ u.toNat ≤ 57 := by
  simp [isLowerHex, isDigit, unitIn, UInt16.le_iff_toNat_le]

/-- The value of a digit tells which one it is. -/
theorem hexValue_eq {u : UInt16} (h : isLowerHex u = true) :
    hexValue u = if u.toNat ≤ 57 then u.toNat - 48 else u.toNat - 87 := by
  have hu := isLowerHex_iff.1 h
  have hdigit : isDigit u = decide (u.toNat ≤ 57) := by
    simp only [isDigit, unitIn, UInt16.le_iff_toNat_le]
    rw [← Bool.decide_and, decide_eq_decide]
    change 48 ≤ u.toNat ∧ u.toNat ≤ 57 ↔ _
    omega
  have hlower : lowerUnit u = u := by
    unfold lowerUnit
    rw [if_neg]
    simp only [unitIn, UInt16.le_iff_toNat_le, Bool.and_eq_true, decide_eq_true_eq]
    change ¬(65 ≤ u.toNat ∧ u.toNat ≤ 90)
    omega
  unfold hexValue
  rw [hdigit, hlower]
  by_cases hle : u.toNat ≤ 57
  · simp [hle]
  · simp only [hle]
    change u.toNat - 97 + 10 = u.toNat - 87
    omega

theorem hexValue_inj {u v : UInt16} (hu : isLowerHex u = true) (hv : isLowerHex v = true)
    (h : hexValue u = hexValue v) : u = v := by
  rw [hexValue_eq hu, hexValue_eq hv] at h
  have hu' := isLowerHex_iff.1 hu
  have hv' := isLowerHex_iff.1 hv
  apply UInt16.toNat.inj
  split_ifs at h <;> omega

theorem hexValue_lt {u : UInt16} (hu : isLowerHex u = true) : hexValue u < 16 := by
  rw [hexValue_eq hu]
  have hu' := isLowerHex_iff.1 hu
  split_ifs <;> omega

theorem isHex_of_lower {u : UInt16} (h : isLowerHex u = true) : isHex u = true := by
  rw [isHex, h, Bool.true_or]

/-- The bytes of a text of digits, two by two. -/
theorem hexBytes_cons {u v : UInt16} {s : Str} (h : (u :: v :: s).all isLowerHex = true) :
    hexBytes (u :: v :: s) = (16 * hexValue u + hexValue v) :: hexBytes s := by
  simp only [List.all_cons, Bool.and_eq_true] at h
  simp [hexBytes, isHex_of_lower h.1, isHex_of_lower h.2.1]

theorem exists_cons_cons {n : ℕ} {s : Str} (h : s.length = 2 * (n + 1)) :
    ∃ u v rest, s = u :: v :: rest := by
  rcases s with _ | ⟨u, _ | ⟨v, rest⟩⟩
  · simp at h
  · simp at h
    omega
  · exact ⟨u, v, rest, rfl⟩

/-- Lower-case texts of whole bytes are told apart by their bytes. -/
theorem hexBytes_inj {n : ℕ} {s t : Str} (hs : s.all isLowerHex = true)
    (ht : t.all isLowerHex = true) (hslength : s.length = 2 * n) (htlength : t.length = 2 * n)
    (h : hexBytes s = hexBytes t) : s = t := by
  induction n generalizing s t with
  | zero =>
    rw [List.eq_nil_of_length_eq_zero hslength, List.eq_nil_of_length_eq_zero htlength]
  | succ n ih =>
    obtain ⟨u, v, s, rfl⟩ := exists_cons_cons hslength
    obtain ⟨u', v', t, rfl⟩ := exists_cons_cons htlength
    rw [hexBytes_cons hs, hexBytes_cons ht, List.cons.injEq] at h
    simp only [List.all_cons, Bool.and_eq_true] at hs ht
    have hv := hexValue_lt hs.2.1
    have hv' := hexValue_lt ht.2.1
    simp only [List.length_cons] at hslength htlength
    have hfirst : u = u' := hexValue_inj hs.1 ht.1 (by omega)
    have hsecond : v = v' := hexValue_inj hs.2.1 ht.2.1 (by omega)
    rw [hfirst, hsecond, ih hs.2.2 ht.2.2 (by omega) (by omega) h.2]

theorem eq_of_equalDigest {a b : Str} (ha : isDigest a = true) (hb : isDigest b = true)
    (h : equalDigest a b = true) : a = b := by
  simp only [isDigest, ofClass, Bool.and_eq_true, decide_eq_true_eq] at ha hb
  exact hexBytes_inj (n := 32) ha.2 hb.2 (by omega) (by omega) (of_decide_eq_true h)

/-! ## Rooms -/

namespace RelayStore

variable {s : RelayStore} {room room' : Str} {now : ℤ}

theorem authDigest_put (s : RelayStore) (room : Str) (row : RoomRow) (room' : Str) :
    authDigest (s.put room row) room' = if room' = room then row.authSha256
      else s.authDigest room' := by
  unfold authDigest
  rw [Table.get?_put]
  split_ifs <;> rfl

/-- Rewriting a row that keeps its digest. -/
theorem authDigest_rewrite {row row' : RoomRow} (hrow : s.get? room = some row)
    (hsame : row'.authSha256 = row.authSha256) :
    authDigest (s.put room row') room' = s.authDigest room' := by
  rw [authDigest_put]
  split_ifs with h
  · rw [h, authDigest, hrow, hsame]
    rfl
  · rfl

theorem authDigest_writeQueue (role : Role) (queue : List QueueRow) :
    (s.writeQueue room role queue now).authDigest room' = s.authDigest room' := by
  unfold writeQueue
  split
  · rfl
  · rename_i row hrow
    refine authDigest_rewrite hrow ?_
    cases role <;> rfl

theorem authDigest_queue (role : Role) :
    (s.queue room role now).1.authDigest room' = s.authDigest room' := by
  unfold queue
  split
  · rfl
  · dsimp only
    split_ifs
    · exact authDigest_writeQueue ..
    · rfl

theorem authDigest_apply (write : RoomWrite) :
    (write.apply s now).authDigest room' = s.authDigest room' := by
  cases write with
  | queue room role => exact authDigest_queue ..
  | enqueue room role raw deliveryId expiresAt =>
    unfold RoomWrite.apply enqueue
    dsimp only
    split_ifs
    · rfl
    · rfl
    · rfl
    · exact authDigest_queue ..
    · split
      · exact authDigest_queue ..
      · rw [authDigest_writeQueue, authDigest_queue]
  | acknowledge room role deliveryId =>
    unfold RoomWrite.apply acknowledge
    dsimp only
    split_ifs
    · rw [authDigest_writeQueue, authDigest_queue]
    · exact authDigest_queue ..
  | pushTokens room tokens =>
    unfold RoomWrite.apply writeTokens
    dsimp only
    split
    · rfl
    · rename_i row hrow
      exact authDigest_rewrite hrow rfl

theorem authDigest_ensureRoom :
    (s.ensureRoom room now).authDigest room' = s.authDigest room' := by
  unfold ensureRoom
  split
  · rename_i hnone
    rw [authDigest_put]
    split_ifs with h
    · rw [h, authDigest, hnone]
      rfl
    · rfl
  · rename_i row hrow
    exact authDigest_rewrite hrow rfl

/-- The digest that is written is the one that was there, or the one that is offered. -/
theorem authDigest_pinAuth (digest : Str) :
    authDigest (NodeRelay.pinAuth s room digest now) room' =
      if room' = room then some ((s.authDigest room).getD digest) else s.authDigest room' := by
  unfold NodeRelay.pinAuth
  cases hrow : s.get? room with
  | none =>
    have hcurrent : s.authDigest room = none := by rw [authDigest, hrow]; rfl
    rw [authDigest_put, hcurrent]
    rfl
  | some row =>
    have hcurrent : s.authDigest room = row.authSha256 := by rw [authDigest, hrow]; rfl
    rw [authDigest_put, hcurrent]

end RelayStore

/-! ## What `authorize` does -/

/-- Digests stay, and new ones are those of credentials. -/
structure Pins (sha256 : Str → Str) (s s' : RelayStore) : Prop where
  kept : ∀ room digest, s.authDigest room = some digest → s'.authDigest room = some digest
  fresh : ∀ room digest, s'.authDigest room = some digest →
    s.authDigest room = some digest ∨ ∃ credential, digest = sha256 credential

section Pins

variable {sha256 : Str → Str} {s s' s'' : RelayStore}

theorem Pins.of_same (h : ∀ room, s'.authDigest room = s.authDigest room) : Pins sha256 s s' :=
  ⟨fun room _ hd => (h room).trans hd, fun room _ hd => .inl ((h room).symm.trans hd)⟩

theorem Pins.refl (s : RelayStore) : Pins sha256 s s := .of_same fun _ => rfl

theorem Pins.trans (h : Pins sha256 s s') (h' : Pins sha256 s' s'') : Pins sha256 s s'' := by
  refine ⟨fun room d hd => h'.kept room d (h.kept room d hd), fun room d hd => ?_⟩
  rcases h'.fresh room d hd with hd | hd
  · exact h.fresh room d hd
  · exact .inr hd

theorem pins_pinAuth {room credential : Str} {now : ℤ} :
    Pins sha256 s (NodeRelay.pinAuth s room (sha256 credential) now) := by
  constructor
  · intro room' d hd
    rw [RelayStore.authDigest_pinAuth]
    split_ifs with h
    · rw [← h, hd]
      rfl
    · exact hd
  · intro room' d hd
    rw [RelayStore.authDigest_pinAuth] at hd
    split_ifs at hd with h
    · cases hroom : s.authDigest room with
      | none =>
        rw [hroom] at hd
        exact .inr ⟨credential, (Option.some_inj.1 hd).symm⟩
      | some current =>
        rw [hroom] at hd
        exact .inl (h ▸ hroom.trans hd)
    · exact .inl hd

/-- **The answers of `authorize`**: whatever it answers, digests stay; a refusal leaves the rooms as
they were; and who is let through supplied a credential with the digest of the room. -/
theorem authorize_spec {room credential : Str} {pin : Bool} {fault : Option AuthFault} {now : ℤ}
    {answer : Option Bool} (h : authorize sha256 s room credential pin fault now = (answer, s')) :
    Pins sha256 s s' ∧ (answer = some false → s' = s) ∧
      (answer = some true → ∃ digest, s'.authDigest room = some digest ∧
        equalDigest (sha256 credential) digest = true) := by
  unfold authorize at h
  split at h
  · cases h
    exact ⟨.refl s, fun _ => rfl, by simp⟩
  split at h
  · cases h
    exact ⟨.refl s, by simp, by simp⟩
  dsimp only at h
  split at h
  · rename_i current hcurrent
    split at h
    · cases h
      exact ⟨.refl s, fun _ => rfl, by simp⟩
    · cases h
      refine ⟨.refl s, fun _ => rfl, fun hequal => ⟨current, hcurrent, ?_⟩⟩
      exact Option.some_inj.1 hequal
  · rename_i hcurrent
    have hdigest : RelayStore.authDigest (NodeRelay.pinAuth s room (sha256 credential) now) room =
        some (sha256 credential) := by
      rw [RelayStore.authDigest_pinAuth, if_pos rfl, hcurrent]
      rfl
    split_ifs at h
    · cases h
      exact ⟨.refl s, fun _ => rfl, by simp⟩
    · cases h
      exact ⟨.of_same fun _ => RelayStore.authDigest_ensureRoom, by simp, by simp⟩
    · cases h
      exact ⟨pins_pinAuth, by simp, by simp⟩
    · rw [hdigest] at h
      cases h
      refine ⟨pins_pinAuth, fun hfalse => ?_, fun _ => ⟨_, hdigest, ?_⟩⟩
      · simp [equalDigest] at hfalse
      · simp [equalDigest]

end Pins

/-! ## Turns of a handler -/

/-- The room and the credential of an upgrade or a request that is let through. -/
def UpgradeEvent.supplied : UpgradeEvent → Option (Str × Str)
  | opened _ room credential => some (room, credential)
  | authorized room credential => some (room, credential)
  | _ => none

/-- The upgrade that the relay itself refuses. -/
def UpgradeEvent.refuses : UpgradeEvent → Option ℕ
  | refused id _ _ => some id
  | _ => none

/-- The upgrade whose handler runs. -/
def UpgradeLabel.handles : UpgradeLabel → Option ℕ
  | .upgrade id _ => some id
  | .admitted id _ => some id
  | _ => none

/-- An event about a lease. -/
def UpgradeEvent.Plain (e : UpgradeEvent) : Prop := e.supplied = none ∧ e.refuses = none

namespace UpgradeRelay

variable {cfg : UpgradeConfig} {w w' w'' : UpgradeRelay} {id : ℕ} {p : Admitting}
  {lease : Option Str} {ticket : Option ManagedTicket} {choice : UpgradeChoice} {now : ℤ}

/-- How a handler may end: it refuses and leaves the rooms as they were, it gives up, or it opens a
socket in a room that has place, for the credential of the room. -/
inductive Ended (cfg : UpgradeConfig) (w : UpgradeRelay) (p : Admitting) (e : UpgradeEnd) : Prop
  | refused (status : ℕ) (reason : Str) (hfate : e.fate = .refused status reason)
      (hstore : e.store = w.store)
  | dropped (hfate : e.fate = .destroyed ∨ e.fate = .answered)
      (hpins : Pins cfg.sha256 w.store e.store)
  | opened (hfate : e.fate = .opened) (hpins : Pins cfg.sha256 w.store e.store)
      (hplace : w.roomSize p.room < NodeRelay.MAX_ROOM_SOCKETS)
      (hsupplied : ∃ digest, e.store.authDigest p.room = some digest ∧
        equalDigest (cfg.sha256 p.credential) digest = true)

theorem recheck_ended (w : UpgradeRelay) (d : Option AccessDecision) :
    Ended cfg w p (w.recheck cfg p d choice now) := by
  unfold recheck
  split_ifs with hdenied hgone hfull
  · exact .refused _ _ rfl rfl
  · exact .dropped (.inl rfl) (.refl _)
  · exact .refused _ _ rfl rfl
  · cases hauth : authorize cfg.sha256 w.store p.room p.credential true choice.fault now with
    | mk answer store =>
      obtain ⟨hpins, hfalse, htrue⟩ := authorize_spec hauth
      cases answer with
      | none => exact .dropped (.inl rfl) hpins
      | some answer =>
        cases answer with
        | false => exact .refused _ _ rfl (hfalse rfl)
        | true =>
          cases choice.handshake with
          | opened => exact .opened rfl hpins (not_le.1 hfull) (htrue rfl)
          | answered => exact .dropped (.inr rfl) hpins
          | destroyed => exact .dropped (.inl rfl) hpins

/-- What is kept of an upgrade is of the same kind: a refusal stays one, and no other becomes one. -/
def SameKind : Attempt → Attempt → Prop
  | .waiting _ _, .waiting _ _ => True
  | .refused, .refused => True
  | .abandoned, .abandoned => True
  | .live _, .live _ | .live _, .closed _ | .closed _, .closed _ => True
  | _, _ => False

theorem sameKind_live (s t : TrackedSocket) : SameKind (.live s) (.live t) := trivial

/-- What an event does to the rooms, the sockets and the upgrades. -/
inductive Turn (cfg : UpgradeConfig) (w w' : UpgradeRelay) (own : Option ℕ) : Prop
  | ended (id : ℕ) (p : Admitting) (lease : Option Str) (e : UpgradeEnd)
      (new : List UpgradeEvent) (hown : own = some id)
      (hbefore : ∀ a, w.attempts.get? id = some a → ∃ p call, a = .waiting p call)
      (hstore : w'.store = e.store)
      (hsockets : w'.sockets = if e.fate = .opened then
        w.sockets.put p.room ((w.sockets.get? p.room).getD [] ++ [id]) else w.sockets)
      (hattempts : w'.attempts = w.attempts.put id (e.fate.attempt p lease))
      (htrace : w'.trace = w.trace ++ (new ++ [e.fate.event id p])) (hnew : ∀ e ∈ new, e.Plain)
      (hend : Ended cfg w p e)
  | suspended (id : ℕ) (p : Admitting) (call : AccessCall) (hbefore : w.attempts.get? id = none)
      (hstore : w'.store = w.store) (hsockets : w'.sockets = w.sockets)
      (hattempts : w'.attempts = w.attempts.put id (.waiting p call)) (htrace : w'.trace = w.trace)
  | touched (id : ℕ) (a a' : Attempt) (new : List UpgradeEvent)
      (hbefore : w.attempts.get? id = some a) (hkind : SameKind a a') (hstore : w'.store = w.store)
      (hsockets : ∀ room, w'.roomSize room ≤ w.roomSize room)
      (hattempts : w'.attempts = w.attempts.put id a') (htrace : w'.trace = w.trace ++ new)
      (hnew : ∀ e ∈ new, e.Plain)
  | stored (new : List UpgradeEvent) (hown : own = none) (hpins : Pins cfg.sha256 w.store w'.store)
      (hsockets : w'.sockets = w.sockets) (hattempts : w'.attempts = w.attempts)
      (htrace : w'.trace = w.trace ++ new)
      (hnew : ∀ e ∈ new, e.refuses = none ∧ ∀ room credential,
        e.supplied = some (room, credential) → ∃ digest, w'.store.authDigest room = some digest ∧
          equalDigest (cfg.sha256 credential) digest = true)
  | kept (new : List UpgradeEvent) (hstore : w'.store = w.store)
      (hsockets : ∀ room, w'.roomSize room ≤ w.roomSize room) (hattempts : w'.attempts = w.attempts)
      (htrace : w'.trace = w.trace ++ new) (hnew : ∀ e ∈ new, e.Plain)

theorem Turn.refl (w : UpgradeRelay) (own : Option ℕ) : Turn cfg w w own :=
  .kept [] rfl (fun _ => le_rfl) rfl (List.append_nil _).symm (by simp)

theorem plain_release {e : UpgradeEvent} (h : e ∈ releaseEvents id ticket lease now) : e.Plain := by
  unfold releaseEvents at h
  split at h
  · split_ifs at h
    · rw [List.mem_singleton.1 h]
      exact ⟨rfl, rfl⟩
    · cases h
  · cases h

theorem plain_replace {s : TrackedSocket} {d : AccessDecision} {e : UpgradeEvent}
    (h : e ∈ replaceEvents id s d) : e.Plain := by
  unfold replaceEvents at h
  split at h
  · split_ifs at h
    · rw [List.mem_singleton.1 h]
      exact ⟨rfl, rfl⟩
    · cases h
  · cases h

/-- **The end of a handler**, whatever lease it has been granted on the way. -/
theorem resume_turn {own : Option ℕ} {w₁ : UpgradeRelay} {d : Option AccessDecision}
    {granted : List UpgradeEvent} (hown : own = some id)
    (hbefore : ∀ a, w.attempts.get? id = some a → ∃ p call, a = .waiting p call)
    (hstore : w₁.store = w.store) (hsockets : w₁.sockets = w.sockets)
    (hattempts : w₁.attempts = w.attempts) (htrace : w₁.trace = w.trace ++ granted)
    (hgranted : ∀ e ∈ granted, e.Plain) : Turn cfg w (w₁.resume cfg id p d choice now) own := by
  have hend : Ended cfg w p (w₁.recheck cfg p d choice now) := by
    have hsame : Ended cfg w₁ p (w₁.recheck cfg p d choice now) := recheck_ended w₁ d
    have hsize : w₁.roomSize p.room = w.roomSize p.room := by rw [roomSize, roomSize, hsockets]
    cases hsame with
    | refused status reason hfate hstore' => exact .refused status reason hfate (hstore'.trans hstore)
    | dropped hfate hpins => exact .dropped hfate (hstore ▸ hpins)
    | opened hfate hpins hplace hsupplied =>
      exact .opened hfate (hstore ▸ hpins) (hsize ▸ hplace) hsupplied
  unfold resume
  refine .ended id p (d.bind (·.lease)) _ (granted ++ if (w₁.recheck cfg p d choice now).releases
    then releaseEvents id p.ticket (d.bind (·.lease)) now else []) hown hbefore (conclude_store _) ?_
    ?_ ?_ ?_ hend
  · rw [conclude_sockets, hsockets]
  · rw [conclude_attempts, hattempts]
  · rw [conclude_trace, htrace, List.append_assoc, List.append_assoc]
  · intro e he
    rcases List.mem_append.1 he with he | he
    · exact hgranted e he
    · split_ifs at he
      · exact plain_release he
      · cases he

/-- A fresh upgrade that has no answer yet. -/
theorem Turn.of_new {own : Option ℕ} {call : AccessCall} (hbefore : w.attempts.get? id = none)
    (hstore : w'.store = w.store) (hsockets : w'.sockets = w.sockets)
    (hattempts : w'.attempts = w.attempts.put id (.waiting p call)) (htrace : w'.trace = w.trace) :
    Turn cfg w w' own :=
  .suspended id p call hbefore hstore hsockets hattempts htrace

theorem upgrade_turn (q : UpgradeHandshake) :
    Turn cfg w (w.upgrade cfg id q choice now) (some id) := by
  unfold upgrade
  by_cases htaken : (w.attempts.get? id).isSome = true
  · rw [if_pos htaken]
    exact .refl w _
  rw [if_neg htaken]
  have hnone : w.attempts.get? id = none := by simpa using htaken
  have hbefore : ∀ a, w.attempts.get? id = some a → ∃ p call, a = .waiting p call := by simp [hnone]
  dsimp only
  generalize upgradeRefusal cfg.sha256 cfg.limits (w.gateRequest cfg q now) w.coolDowns now = r
  split
  · rename_i refusal hrefusal
    exact .ended id ⟨[], [], none⟩ none ⟨.refused refusal.status refusal.reason, w.store, false⟩ []
      rfl hbefore rfl rfl rfl rfl (by simp) (.refused _ _ rfl rfl)
  · split_ifs
    · exact .of_new hnone rfl rfl rfl rfl
    · exact resume_turn rfl hbefore rfl rfl rfl (List.append_nil _).symm (by simp)
    · exact resume_turn rfl hbefore rfl rfl rfl (List.append_nil _).symm (by simp)

theorem plain_grant {call : AccessCall} {remote : RemoteAnswer} {e : UpgradeEvent}
    (h : e ∈ grantEvents id call remote) : e.Plain := by
  unfold grantEvents at h
  split at h
  · cases h
  · split_ifs at h
    · cases h
    · rw [List.mem_singleton.1 h]
      exact ⟨rfl, rfl⟩

theorem admitted_turn (remote : RemoteAnswer) :
    Turn cfg w (w.admitted cfg id remote choice now) (some id) := by
  unfold admitted
  split
  · rename_i p call hp
    refine resume_turn rfl (fun a ha => ⟨p, call, ?_⟩) rfl rfl rfl rfl fun e he => plain_grant he
    exact Option.some_inj.1 (ha.symm.trans hp)
  · exact .refl w _

/-- A live socket, or a closed one, is written again. -/
theorem rewrite_turn {own : Option ℕ} {a a' : Attempt} {leases : Table Str ℤ}
    {new : List UpgradeEvent} (ha : w.attempts.get? id = some a) (hkind : SameKind a a')
    (hnew : ∀ e ∈ new, e.Plain) :
    Turn cfg w ({ w with localLeases := leases, trace := w.trace ++ new }.setAttempt id a') own :=
  .touched id a a' new ha hkind rfl (fun _ => le_rfl) rfl rfl hnew

theorem renewed_turn {own : Option ℕ} (remote : RemoteAnswer) :
    Turn cfg w (w.renewed id remote choice now) own := by
  have hsilent {a : Attempt} (a' : Attempt) (ha : w.attempts.get? id = some a)
      (hkind : SameKind a a') : Turn cfg w (w.setAttempt id a') own :=
    .touched id a a' [] ha hkind rfl (fun _ => le_rfl) rfl (List.append_nil _).symm (by simp)
  unfold renewed
  split
  · rename_i s hs
    split
    · exact .refl w _
    · rename_i call _
      split_ifs
      · exact hsilent _ hs (sameKind_live s _)
      · refine rewrite_turn hs (sameKind_live s _) fun e he => ?_
        rcases List.mem_append.1 he with he | he
        · exact plain_grant he
        · exact plain_replace he
  · rename_i s hs
    split
    · exact .refl w _
    · rename_i call _
      split_ifs
      · exact hsilent (.closed _) hs trivial
      · exact rewrite_turn hs trivial fun e he => plain_grant he
  · exact .refl w _

theorem releaseEnded_turn {own : Option ℕ} (remote : RemoteAnswer) :
    Turn cfg w (w.releaseEnded id remote choice now) own := by
  unfold releaseEnded
  split
  · exact .refl w _
  · exact .kept [] rfl (fun _ => le_rfl) rfl (List.append_nil _).symm (by simp)

theorem updateLive_turn {own : Option ℕ} (f : TrackedSocket → TrackedSocket) :
    Turn cfg w (w.updateLive id f) own := by
  unfold updateLive
  split
  · rename_i s hs
    exact .touched id (.live s) _ [] hs (sameKind_live s _) rfl (fun _ => le_rfl) rfl
      (List.append_nil _).symm (by simp)
  · exact .refl w _

theorem renewTimer_turn {own : Option ℕ} : Turn cfg w (w.renewTimer id now) own := by
  unfold renewTimer
  split
  · rename_i s hs
    split_ifs
    · exact .touched id (.live s) _ [] hs (sameKind_live s _) rfl (fun _ => le_rfl) rfl
        (List.append_nil _).symm (by simp)
    · exact .touched id (.live s) _ [] hs (sameKind_live s _) rfl (fun _ => le_rfl) rfl
        (List.append_nil _).symm (by simp)
    · exact .refl w _
  · exact .refl w _

/-- Leaving a room touches the `sockets` map only. -/
theorem leave_eq (w : UpgradeRelay) (id : ℕ) : ∃ sockets, w.leave id = { w with sockets := sockets } ∧
    ∀ room, ((sockets.get? room).getD []).length ≤ w.roomSize room := by
  have hsame : ∃ sockets, w = { w with sockets := sockets } ∧
      ∀ room, ((sockets.get? room).getD []).length ≤ w.roomSize room :=
    ⟨w.sockets, rfl, fun _ => le_rfl⟩
  have hpeers (room : Str) (peers : List ℕ) (h : w.sockets.get? room = some peers)
      (sockets : Table Str (List ℕ)) (hsockets : ∀ room', sockets.get? room' =
        if room' = room then (if peers.filter (· ≠ id) = [] then none
          else some (peers.filter (· ≠ id))) else w.sockets.get? room') :
      ∀ room', ((sockets.get? room').getD []).length ≤ w.roomSize room' := by
    intro room'
    rw [hsockets, roomSize]
    by_cases hroom : room' = room
    · rw [if_pos hroom, hroom, h]
      split_ifs
      · simp
      · simpa using List.length_filter_le _ peers
    · rw [if_neg hroom]
  unfold leave
  split
  · split
    · exact hsame
    · rename_i peers h
      refine ⟨_, rfl, hpeers _ peers h _ fun room' => ?_⟩
      split_ifs <;> simp_all
  · split
    · exact hsame
    · rename_i peers h
      refine ⟨_, rfl, hpeers _ peers h _ fun room' => ?_⟩
      split_ifs <;> simp_all
  · exact hsame

theorem close_turn {own : Option ℕ} : Turn cfg w (w.close id now) own := by
  unfold close
  split
  · rename_i s hs
    obtain ⟨sockets, hleft, hsizes⟩ := leave_eq (w.release id s.ticket s.lease now) id
    rw [hleft]
    refine .touched id (.live s) (.closed { s with isOpen := false })
      (releaseEvents id s.ticket s.lease now) hs trivial release_store ?_ ?_ release_trace
      fun e he => plain_release he
    · intro room
      refine (hsizes room).trans ?_
      rw [roomSize, roomSize, release_sockets]
    · simp only [setAttempt, release_attempts]
  · exact .refl w _

theorem http_turn (room credential : Str) (pin : Bool) :
    Turn cfg w (w.http cfg room credential pin choice now) none := by
  have hnone (store : RelayStore) (hpins : Pins cfg.sha256 w.store store) :
      Turn cfg w { w with store := store } none :=
    .stored [] rfl hpins rfl rfl (List.append_nil _).symm (by simp)
  unfold http
  cases hauth : authorize cfg.sha256 w.store room credential pin choice.fault now with
  | mk answer store =>
    obtain ⟨hpins, -, htrue⟩ := authorize_spec hauth
    cases answer with
    | none => exact hnone store hpins
    | some answer =>
      cases answer with
      | false => exact hnone store hpins
      | true =>
        refine .stored [.authorized room credential] rfl hpins rfl rfl rfl fun e he => ?_
        rw [List.mem_singleton.1 he]
        refine ⟨rfl, fun room' credential' h => ?_⟩
        cases h
        exact htrue rfl

/-- **Every event is a turn.** -/
theorem next_turn (w : UpgradeRelay) (i : UpgradeInput) :
    Turn cfg w (w.next cfg i) i.label.handles := by
  unfold next
  split
  · rename_i id request hlabel
    rw [hlabel]
    exact upgrade_turn request
  · rename_i id remote hlabel
    rw [hlabel]
    exact admitted_turn remote
  · exact renewTimer_turn
  · exact renewed_turn _
  · exact releaseEnded_turn _
  · exact updateLive_turn _
  · obtain ⟨sockets, hleft, hsizes⟩ := leave_eq w _
    rw [hleft]
    exact .kept [] rfl hsizes rfl (List.append_nil _).symm (by simp)
  · exact close_turn
  · exact updateLive_turn _
  · rename_i hlabel
    rw [hlabel]
    exact http_turn ..
  · rename_i write hlabel
    rw [hlabel]
    exact .stored [] rfl (.of_same fun _ => RelayStore.authDigest_apply write) rfl rfl
      (List.append_nil _).symm (by simp)
  · exact .kept [] rfl (fun _ => le_rfl) rfl (List.append_nil _).symm (by simp)

/-! ## The laws of every run -/

/-- What holds between the events. -/
structure Guarded (cfg : UpgradeConfig) (w : UpgradeRelay) : Prop where
  digests : ∀ room digest, w.store.authDigest room = some digest → isDigest digest = true
  supplied : ∀ e ∈ w.trace, ∀ room credential, e.supplied = some (room, credential) →
    w.store.authDigest room = some (cfg.sha256 credential)
  bounded : ∀ room, w.roomSize room ≤ NodeRelay.MAX_ROOM_SOCKETS
  fated : ∀ e ∈ w.trace, ∀ id, e.refuses = some id → w.attempts.get? id = some .refused

theorem guarded_empty : Guarded cfg empty where
  digests room digest h := by
    unfold RelayStore.authDigest empty at h
    simp at h
  supplied := by simp [empty]
  bounded room := by simp [roomSize, empty]
  fated := by simp [empty]

theorem Turn.pins {own : Option ℕ} (h : Turn cfg w w' own) : Pins cfg.sha256 w.store w'.store := by
  cases h with
  | ended id p lease e new hown hbefore hstore hsockets hattempts htrace hnew hend =>
    rw [hstore]
    cases hend with
    | refused status reason hfate hsame => exact hsame ▸ .refl _
    | dropped hfate hpins => exact hpins
    | opened hfate hpins hplace hsupplied => exact hpins
  | suspended id p call hbefore hstore => exact hstore ▸ .refl _
  | touched id a a' new hbefore hkind hstore => exact hstore ▸ .refl _
  | stored new hown hpins => exact hpins
  | kept new hstore => exact hstore ▸ .refl _

theorem Turn.bounded {own : Option ℕ} (h : Turn cfg w w' own)
    (hw : ∀ room, w.roomSize room ≤ NodeRelay.MAX_ROOM_SOCKETS) (room : Str) :
    w'.roomSize room ≤ NodeRelay.MAX_ROOM_SOCKETS := by
  cases h with
  | ended id p lease e new hown hbefore hstore hsockets hattempts htrace hnew hend =>
    rw [roomSize, hsockets]
    split_ifs with hopened
    · rw [Table.get?_put]
      split_ifs with hroom
      · cases hend with
        | refused status reason hfate => exact absurd (hopened.symm.trans hfate) (by simp)
        | dropped hfate =>
          rcases hfate with hfate | hfate
          · exact absurd (hopened.symm.trans hfate) (by simp)
          · exact absurd (hopened.symm.trans hfate) (by simp)
        | opened hfate hpins hplace hsupplied =>
          rw [roomSize] at hplace
          rw [Option.getD_some, List.length_append, List.length_singleton]
          omega
      · exact hw room
    · exact hw room
  | suspended id p call hbefore hstore hsockets =>
    rw [roomSize, hsockets]
    exact hw room
  | touched id a a' new hbefore hkind hstore hsockets => exact (hsockets room).trans (hw room)
  | stored new hown hpins hsockets =>
    rw [roomSize, hsockets]
    exact hw room
  | kept new hstore hsockets => exact (hsockets room).trans (hw room)

theorem sameKind_refused {a : Attempt} : SameKind .refused a → a = .refused := by
  cases a <;> simp [SameKind]

/-- A refusal stays one. -/
theorem Turn.refused {own : Option ℕ} (h : Turn cfg w w' own)
    (hw : w.attempts.get? id = some .refused) : w'.attempts.get? id = some .refused := by
  cases h with
  | ended id' p lease e new hown hbefore hstore hsockets hattempts =>
    rw [hattempts, Table.get?_put]
    split_ifs with hid
    · obtain ⟨p', call, hp'⟩ := hbefore .refused (hid ▸ hw)
      cases hp'
    · exact hw
  | suspended id' p call hbefore hstore hsockets hattempts =>
    rw [hattempts, Table.get?_put]
    split_ifs with hid
    · exact absurd (hbefore.symm.trans (hid ▸ hw)) (by simp)
    · exact hw
  | touched id' a a' new hbefore hkind hstore hsockets hattempts =>
    rw [hattempts, Table.get?_put]
    split_ifs with hid
    · subst hid
      obtain rfl := Option.some_inj.1 (hw.symm.trans hbefore)
      rw [sameKind_refused hkind]
    · exact hw
  | stored new hown hpins hsockets hattempts => exact hattempts ▸ hw
  | kept new hstore hsockets hattempts => exact hattempts ▸ hw

/-- **New events**: what is let through supplied the digest of its room, and what is refused is
kept as refused. -/
theorem Turn.event {own : Option ℕ} (h : Turn cfg w w' own) {e : UpgradeEvent}
    (he : e ∈ w'.trace) : e ∈ w.trace ∨
      (∀ room credential, e.supplied = some (room, credential) → ∃ digest,
        w'.store.authDigest room = some digest ∧
          equalDigest (cfg.sha256 credential) digest = true) ∧
      ∀ id, e.refuses = some id → w'.attempts.get? id = some .refused := by
  have hplain {new : List UpgradeEvent} (htrace : w'.trace = w.trace ++ new)
      (hnew : ∀ e ∈ new, e.Plain) : e ∈ w.trace ∨ e.Plain := by
    rw [htrace] at he
    exact (List.mem_append.1 he).imp_right (hnew e)
  have hsilent (h : e.Plain) : (∀ room credential, e.supplied = some (room, credential) →
      ∃ digest, w'.store.authDigest room = some digest ∧
        equalDigest (cfg.sha256 credential) digest = true) ∧
      ∀ id, e.refuses = some id → w'.attempts.get? id = some .refused := by
    constructor
    · intro room credential hs
      exact absurd (h.1.symm.trans hs) (by simp)
    · intro id hid
      exact absurd (h.2.symm.trans hid) (by simp)
  cases h with
  | ended id p lease e' new hown hbefore hstore hsockets hattempts htrace hnew hend =>
    rw [htrace, List.mem_append, List.mem_append, List.mem_singleton] at he
    rcases he with he | he | rfl
    · exact .inl he
    · exact .inr (hsilent (hnew e he))
    · refine .inr ?_
      cases hend with
      | refused status reason hfate =>
        rw [hfate]
        refine ⟨fun room credential hs => (by cases hs), fun id' hid => ?_⟩
        cases hid
        rw [hattempts, Table.get?_put, if_pos rfl, hfate]
        rfl
      | dropped hfate =>
        rcases hfate with hfate | hfate
        all_goals
          rw [hfate]
          exact ⟨fun room credential hs => (by cases hs), fun id' hid => by cases hid⟩
      | opened hfate hpins hplace hsupplied =>
        rw [hfate]
        refine ⟨fun room credential hs => ?_, fun id' hid => by cases hid⟩
        cases hs
        exact hstore ▸ hsupplied
  | suspended id p call hbefore hstore hsockets hattempts htrace => exact .inl (htrace ▸ he)
  | touched id a a' new hbefore hkind hstore hsockets hattempts htrace hnew =>
    exact (hplain htrace hnew).imp_right hsilent
  | stored new hown hpins hsockets hattempts htrace hnew =>
    rw [htrace] at he
    refine (List.mem_append.1 he).imp_right fun he => ⟨(hnew e he).2, fun id hid => ?_⟩
    exact absurd ((hnew e he).1.symm.trans hid) (by simp)
  | kept new hstore hsockets hattempts htrace hnew =>
    exact (hplain htrace hnew).imp_right hsilent

theorem Turn.guarded {own : Option ℕ} (hsha : ∀ text, isDigest (cfg.sha256 text) = true)
    (h : Turn cfg w w' own) (hw : Guarded cfg w) : Guarded cfg w' := by
  have hpins := h.pins
  have hdigests : ∀ room digest, w'.store.authDigest room = some digest →
      isDigest digest = true := fun room digest hd => by
    rcases hpins.fresh room digest hd with hd | ⟨credential, rfl⟩
    · exact hw.digests room digest hd
    · exact hsha credential
  refine ⟨hdigests, fun e he room credential hs => ?_, h.bounded hw.bounded, fun e he id hid => ?_⟩
  · rcases h.event he with he | ⟨hsupplied, -⟩
    · exact hpins.kept room _ (hw.supplied e he room credential hs)
    · obtain ⟨digest, hd, hequal⟩ := hsupplied room credential hs
      rw [hd, eq_of_equalDigest (hsha credential) (hdigests room digest hd) hequal]
  · rcases h.event he with he | ⟨-, hrefused⟩
    · exact h.refused (hw.fated e he id hid)
    · exact hrefused id hid

/-- A handler that changes the rooms does not refuse, then or later. -/
theorem Turn.unrefused (h : Turn cfg w w' (some id)) (hstore : w'.store ≠ w.store) :
    ∃ a, w'.attempts.get? id = some a ∧ a ≠ .refused ∧ ∀ p call, a ≠ .waiting p call := by
  cases h with
  | ended id' p lease e new hown hbefore hstore' hsockets hattempts htrace hnew hend =>
    cases hown
    refine ⟨e.fate.attempt p lease, by rw [hattempts, Table.get?_put, if_pos rfl], ?_⟩
    cases hend with
    | refused status reason hfate hsame => exact absurd (hstore'.trans hsame) hstore
    | dropped hfate =>
      rcases hfate with hfate | hfate
      all_goals
        rw [hfate]
        exact ⟨by simp [UpgradeFate.attempt], by simp [UpgradeFate.attempt]⟩
    | opened hfate =>
      rw [hfate]
      exact ⟨by simp [UpgradeFate.attempt], by simp [UpgradeFate.attempt]⟩
  | suspended id p call hbefore hsame => exact absurd hsame hstore
  | touched id a a' new hbefore hkind hsame => exact absurd hsame hstore
  | stored new hown => cases hown
  | kept new hsame => exact absurd hsame hstore

/-- An upgrade that is neither refused nor waiting. -/
def Served (w : UpgradeRelay) (id : ℕ) : Prop :=
  ∃ a, w.attempts.get? id = some a ∧ a ≠ .refused ∧ ∀ p call, a ≠ .waiting p call

theorem Turn.served {own : Option ℕ} (h : Turn cfg w w' own) (hw : w.Served id) :
    w'.Served id := by
  obtain ⟨a, ha, hrefused, hwaiting⟩ := hw
  cases h with
  | ended id' p lease e new hown hbefore hstore hsockets hattempts =>
    refine ⟨a, ?_, hrefused, hwaiting⟩
    rw [hattempts, Table.get?_put]
    split_ifs with hid
    · obtain ⟨p', call, hp'⟩ := hbefore a (hid ▸ ha)
      exact absurd hp' (hwaiting p' call)
    · exact ha
  | suspended id' p call hbefore hstore hsockets hattempts =>
    refine ⟨a, ?_, hrefused, hwaiting⟩
    rw [hattempts, Table.get?_put]
    split_ifs with hid
    · exact absurd (hbefore.symm.trans (hid ▸ ha)) (by simp)
    · exact ha
  | touched id' b b' new hbefore hkind hstore hsockets hattempts =>
    unfold Served
    rw [hattempts, Table.get?_put]
    split_ifs with hid
    · subst hid
      obtain rfl := Option.some_inj.1 (ha.symm.trans hbefore)
      refine ⟨b', rfl, ?_, fun p call hp => ?_⟩
      · rintro rfl
        cases a <;> simp_all [SameKind]
      · subst hp
        cases a <;> simp_all [SameKind]
    · exact ⟨a, ha, hrefused, hwaiting⟩
  | stored new hown hpins hsockets hattempts => exact ⟨a, hattempts ▸ ha, hrefused, hwaiting⟩
  | kept new hstore hsockets hattempts => exact ⟨a, hattempts ▸ ha, hrefused, hwaiting⟩

/-! ### Runs -/

variable {is : List UpgradeInput} {i : UpgradeInput}

theorem Step.turn (h : Step cfg w i w') : Turn cfg w w' (i.label.handles) := by
  rw [show w' = w.next cfg i from h]
  exact next_turn w i

theorem run_guarded (hsha : ∀ text, isDigest (cfg.sha256 text) = true)
    (h : Run (Step cfg) .empty is w) : Guarded cfg w :=
  h.invariant (fun _ _ _ hI hstep => Turn.guarded hsha hstep.turn hI) guarded_empty

theorem run_pins (h : Run (Step cfg) w is w') : Pins cfg.sha256 w.store w'.store :=
  h.rel (R := fun w w' : UpgradeRelay => Pins cfg.sha256 w.store w'.store) (fun _ => .refl _)
    (fun _ _ _ h h' => h.trans h') fun _ _ _ hstep => hstep.turn.pins

theorem run_served (h : Run (Step cfg) w is w') (hw : w.Served id) : w'.Served id :=
  h.invariant (I := fun w => w.Served id) (fun _ _ _ hI hstep => Turn.served hstep.turn hI) hw

/-- The handlers of an upgrade that ends in an event of `answers` left the rooms as they were. -/
def ReadOnly (cfg : UpgradeConfig) (answers : UpgradeEvent → Option ℕ) : Prop :=
  ∀ (before after : List UpgradeInput) (i : UpgradeInput) (u v w : UpgradeRelay) (id : ℕ),
    Run (Step cfg) .empty before u → Step cfg u i v → Run (Step cfg) v after w →
      i.label.handles = some id → (∃ e ∈ w.trace, answers e = some id) → v.store = u.store

/-- **Refused upgrades** have not touched the rooms. -/
theorem refuses_readOnly (hsha : ∀ text, isDigest (cfg.sha256 text) = true) :
    ReadOnly cfg UpgradeEvent.refuses := by
  intro before after i u v w id hbefore hstep hafter hid hanswered
  by_contra hstore
  obtain ⟨e, he, hrefuses⟩ := hanswered
  have hturn := hstep.turn
  rw [hid] at hturn
  obtain ⟨a, ha, hrefused, hwaiting⟩ := hturn.unrefused hstore
  obtain ⟨a', ha', hrefused', -⟩ := run_served hafter ⟨a, ha, hrefused, hwaiting⟩
  have hguarded : Guarded cfg w := by
    have hrun : Run (Step cfg) .empty (before ++ i :: after) w :=
      hbefore.append (.cons hstep hafter)
    exact run_guarded hsha hrun
  exact hrefused' (Option.some_inj.1 (ha'.symm.trans (hguarded.fated e he id hrefuses)))

end UpgradeRelay

open UpgradeRelay

/-- **Pins and caps**: in every run, whatever upgrades wait for the quota service, a digest that a
room has is kept; every upgrade that was opened, and every request that was let through, supplied
the credential with the digest of its room; no room has more sockets than it may; and the handlers
of an upgrade that the relay refuses leave the rooms as they were. -/
theorem pinned_and_capped {cfg : UpgradeConfig} (hsha : ∀ text, isDigest (cfg.sha256 text) = true)
    {is js : List UpgradeInput} {u w : UpgradeRelay} (hrun : Run (Step cfg) .empty is u)
    (hlater : Run (Step cfg) u js w) :
    (∀ room digest, u.store.authDigest room = some digest →
      w.store.authDigest room = some digest) ∧
    (∀ id room credential, UpgradeEvent.opened id room credential ∈ w.trace →
      w.store.authDigest room = some (cfg.sha256 credential)) ∧
    (∀ room credential, UpgradeEvent.authorized room credential ∈ w.trace →
      w.store.authDigest room = some (cfg.sha256 credential)) ∧
    (∀ room, w.roomSize room ≤ 32) ∧ ReadOnly cfg UpgradeEvent.refuses := by
  have hguarded : Guarded cfg w := run_guarded hsha (hrun.append hlater)
  refine ⟨(run_pins hlater).kept, fun id room credential he => ?_, fun room credential he => ?_,
    hguarded.bounded, refuses_readOnly hsha⟩
  · exact hguarded.supplied _ he room credential rfl
  · exact hguarded.supplied _ he room credential rfl

/-! ### A first upgrade -/

section Sample

def sampleCredential : Str := sampleDigest 'a'

/-- The digest of `sampleCredential`, and one for every other text. -/
def credentialDigest (text : Str) : Str :=
  if text = sampleCredential then
    lit "ffe054fe7ae0cb6dc65c3af9b61d5209f439851db43d0ba5997337df154668eb"
  else lit "a0fab1377f49a759b57f63318262ebe89fabfc990e8e93ceac2984561482b9d4"

theorem isDigest_credentialDigest (text : Str) : isDigest (credentialDigest text) = true := by
  unfold credentialDigest
  split_ifs <;> decide +kernel

/-- A relay with or without a quota service, and without managed admission. -/
def sampleUpgrades (quota : Bool) : UpgradeConfig where
  parse _ := none
  sha256 := credentialDigest
  admission := none
  limits := .standard
  quota := quota

/-- A request of a legacy client for its room. -/
def sampleHandshake : UpgradeHandshake where
  pathname := some (lit "/ws")
  room := some sampleRoom
  authorization := some (lit "Bearer " ++ sampleCredential)
  ticketHeader := none
  recipientKeyId := none

/-- Nothing fails, and the handshake ends as given. -/
def orderly (handshake : HandshakeEnd) : UpgradeChoice where
  gone := false
  fault := none
  handshake := handshake
  denied := none
  lease := lit "local"

/-- The first upgrade of a room. -/
def firstUpgrade (handshake : HandshakeEnd) : UpgradeInput where
  now := 1000
  choice := orderly handshake
  label := .upgrade 1 sampleHandshake

/-- The relay after a list of events. -/
def UpgradeRelay.after (cfg : UpgradeConfig) (is : List UpgradeInput) : UpgradeRelay :=
  is.foldl (fun w i => w.next cfg i) .empty

theorem UpgradeRelay.run_after (cfg : UpgradeConfig) (is : List UpgradeInput) :
    Run (Step cfg) .empty is (after cfg is) :=
  (foldl_run (fun w i => next w cfg i) .empty is).mono fun _ _ _ h => h.symm

/-- A first upgrade opens a socket, and pins its room. -/
theorem pinned_and_capped_sample :
    (after (sampleUpgrades false) [firstUpgrade .opened]).store.authDigest sampleRoom =
      some (credentialDigest sampleCredential) := by
  have hrun := run_after (sampleUpgrades false) [firstUpgrade .opened]
  obtain ⟨-, hopened, -⟩ := pinned_and_capped isDigest_credentialDigest hrun (.nil _)
  exact hopened 1 sampleRoom sampleCredential (by decide +kernel)

/-- An upgrade that is answered with a refusal, by the relay or by the library. -/
def UpgradeEvent.refusesOrFails : UpgradeEvent → Option ℕ
  | refused id _ _ => some id
  | answered id => some id
  | _ => none

/-- **A handshake that the library refuses** comes after the credential was pinned: the first
upgrade of a room, when it is malformed, is answered with an error and has made the room. -/
theorem handshake_refused_after_pin :
    ¬ReadOnly (sampleUpgrades false) UpgradeEvent.refusesOrFails := by
  intro h
  have hsame := h [] [] (firstUpgrade .answered) .empty
    (after (sampleUpgrades false) [firstUpgrade .answered])
    (after (sampleUpgrades false) [firstUpgrade .answered]) 1 (.nil _) rfl (.nil _) rfl
    ⟨.answered 1, by decide +kernel, rfl⟩
  have hmade : (after (sampleUpgrades false) [firstUpgrade .answered]).store.size = 1 := by
    decide +kernel
  rw [hsame] at hmade
  exact absurd hmade (by decide)

end Sample

end GrantTap
