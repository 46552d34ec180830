import GrantTapRelay.Room.Acts

/-!
# What the acts of a Worker room change

* `RoomAct.mail`: the mailboxes change by the operations of `RoomQueues`.
* `RoomActs.sent`: why a frame was passed to the `send` of a socket, and with which mailboxes.
-/

namespace GrantTap

open Js Relation

namespace RoomRelay

variable {cfg : RoomConfig} {i : RoomInput} {w₀ w w' : RoomRelay}

/-- How an act changes the mailboxes, and the trace of an acknowledgement. -/
inductive MailAct (cfg : RoomConfig) (i : RoomInput) (w₀ w : RoomRelay) :
    List RoomEvent → RoomQueues → Prop
  | same {trace : List RoomEvent} : MailAct cfg i w₀ w trace w.disk.mail
  | flush {trace : List RoomEvent} (role : Role) (socket : FlushSocket) :
      MailAct cfg i w₀ w trace
        (w.disk.mail.flushTo cfg.parse role socket (i.choice.clock .mailbox)).1
  | queue {trace : List RoomEvent} {id : ℕ} {s : RoomSocket} {role dest : Role}
      {raw deliveryId : Str} {envelope : Json}
      (h : Passed cfg i w id s role raw envelope)
      (haccepted : RoomEvent.accepted id s raw envelope ∈ w.trace)
      (hto : roleOf? (envelope.get (lit "to")) = some dest)
      (hid : deliveryId? envelope = some deliveryId) :
      MailAct cfg i w₀ w trace (w.disk.mail.queue dest raw (some deliveryId)
        (envelope.get (lit "expiresAt")).int? (i.choice.clock .queue)).1
  | acknowledge {id : ℕ} {s : RoomSocket} {role : Role} {raw deliveryId : Str} {frame : Json}
      (hlabel : i.label = .message id raw) (hparsed : cfg.parse raw = some frame)
      (hack : relayAck? frame = some deliveryId) (hcard : w.card? id = some s.card)
      (hrole : s.role = some role) (hopen : Unclosed w₀ w id) :
      MailAct cfg i w₀ w (w.trace ++ [.acknowledged id deliveryId])
        (w.disk.mail.acknowledge role deliveryId)

theorem RoomAct.mail (h : RoomAct cfg i w₀ w w') : MailAct cfg i w₀ w w'.trace w'.disk.mail := by
  cases h with
  | silent hmail => exact hmail ▸ .same
  | policy id raw s token envelope now =>
    obtain ⟨close, hclose⟩ := closeRoomSocket_eq w cfg id s token envelope now
    rw [hclose]
    exact .same
  | flush role socket now hmail _ _ _ hnow =>
    rw [hmail, hnow]
    exact .flush role socket
  | queue id s role dest raw envelope deliveryId h haccepted hto hid =>
    exact .queue h haccepted hto hid
  | acknowledge id s role raw frame deliveryId hlabel hparsed hack hcard hrole hopen =>
    exact .acknowledge hlabel hparsed hack hcard hrole hopen
  | sent | refused | register | accept | retain | woken | opens => exact .same

/-! ## Frames that are sent -/

/-- The events of an act, and why it sends. -/
theorem RoomAct.sends (h : RoomAct cfg i w₀ w w') : ∃ new, w'.trace = w.trace ++ new ∧
    ∀ id s frame mail, RoomEvent.sent id s frame mail ∈ new →
      Sent cfg i w id frame ∧ w.card? id = some s.card ∧ mail = w.disk.mail := by
  have hrecord {e : RoomEvent} (hnew : w'.trace = w.trace ++ [e])
      (he : ∀ id s frame mail, e ≠ .sent id s frame mail) : ∃ new, w'.trace = w.trace ++ new ∧
        ∀ id s frame mail, RoomEvent.sent id s frame mail ∈ new →
          Sent cfg i w id frame ∧ w.card? id = some s.card ∧ mail = w.disk.mail :=
    ⟨[e], hnew, fun id s frame mail hin =>
      absurd (List.mem_singleton.1 hin).symm (he id s frame mail)⟩
  have hnone (hsame : w'.trace = w.trace) : ∃ new, w'.trace = w.trace ++ new ∧
      ∀ id s frame mail, RoomEvent.sent id s frame mail ∈ new →
        Sent cfg i w id frame ∧ w.card? id = some s.card ∧ mail = w.disk.mail := by
    refine ⟨[], by rw [hsame, List.append_nil], fun id s frame mail hin => ?_⟩
    cases hin
  cases h with
  | silent _ _ _ htrace => exact hnone htrace
  | flush _ _ _ _ _ _ htrace => exact hnone htrace
  | sent id s frame hcard h =>
    refine ⟨_, rfl, fun id' s' frame' mail hin => ?_⟩
    cases List.mem_singleton.1 hin
    exact ⟨h, hcard, rfl⟩
  | policy id raw s token envelope now =>
    obtain ⟨close, hclose⟩ := closeRoomSocket_eq w cfg id s token envelope now
    rw [hclose]
    refine ⟨_, rfl, fun id' s' frame' mail hin => ?_⟩
    rcases List.mem_append.1 hin with hin | hin
    · obtain ⟨key, -, he⟩ := List.mem_map.1 hin
      cases he
    · cases List.mem_singleton.1 hin
  | refused | accept | queue | acknowledge | woken => exact hrecord rfl fun _ _ _ _ => nofun
  | register | retain | opens => exact hnone rfl

/-- **Why a frame was sent** in a sequence of acts. -/
theorem RoomActs.sends (h : RoomActs cfg i w₀ w w') : ∃ new, w'.trace = w.trace ++ new ∧
    ∀ id s frame mail, RoomEvent.sent id s frame mail ∈ new →
      ∃ v, RoomActs cfg i w₀ w v ∧ Sent cfg i v id frame ∧ v.card? id = some s.card ∧
        mail = v.disk.mail := by
  induction h with
  | refl => exact ⟨[], (List.append_nil _).symm, fun _ _ _ _ hin => absurd hin List.not_mem_nil⟩
  | @tail v v' hbefore hact ih =>
    obtain ⟨new, hnew, hsent⟩ := ih
    obtain ⟨more, hmore, hsent'⟩ := hact.sends
    refine ⟨new ++ more, by rw [hmore, hnew, List.append_assoc], fun id s frame mail hin => ?_⟩
    rcases List.mem_append.1 hin with hin | hin
    · exact hsent id s frame mail hin
    · exact ⟨v, hbefore, hsent' id s frame mail hin⟩

/-- The events between two states. -/
def since (w w' : RoomRelay) : List RoomEvent := w'.trace.drop w.trace.length

theorem since_eq {new : List RoomEvent} (h : w'.trace = w.trace ++ new) : w.since w' = new := by
  rw [since, h, List.drop_left]

theorem RoomActs.grew (h : RoomActs cfg i w₀ w w') : w.trace <+: w'.trace := by
  obtain ⟨new, hnew, -⟩ := h.sends
  exact ⟨new, hnew.symm⟩

/-! ## Sockets -/

/-- A socket keeps its key, and its role once it has one. -/
theorem RoomAct.known (h : RoomAct cfg i w₀ w w') {id : ℕ} {c : RoomCard}
    (hc : w.card? id = some c) : ∃ c', w'.card? id = some c' ∧
      c'.recipientKeyId = c.recipientKeyId ∧ ∀ role, c.role = some role → c'.role = some role := by
  have hsame (hcards : w'.card? id = w.card? id) : ∃ c', w'.card? id = some c' ∧
      c'.recipientKeyId = c.recipientKeyId ∧ ∀ role, c.role = some role → c'.role = some role :=
    ⟨c, hcards.trans hc, rfl, fun _ h => h⟩
  cases h with
  | silent _ _ hcards => exact hsame (hcards id)
  | flush _ _ _ _ _ hcards => exact hsame (hcards id)
  | policy id' raw s token envelope now =>
    obtain ⟨close, hclose⟩ := closeRoomSocket_eq w cfg id' s token envelope now
    exact hsame (by rw [hclose]; rfl)
  | register id' s role raw envelope h hrole =>
    rw [card?_setSocket]
    split_ifs with hid
    · subst hid
      rw [h.card] at hc
      cases hc
      exact ⟨_, rfl, rfl, fun role' hrole' => absurd (hrole.symm.trans hrole') (by simp)⟩
    · exact ⟨c, hc, rfl, fun _ h => h⟩
  | opens id' q hfresh =>
    rw [card?_setSocket]
    split_ifs with hid
    · rw [card?, hid, hfresh] at hc
      cases hc
    · exact ⟨c, hc, rfl, fun _ h => h⟩
  | sent | refused | accept | retain | queue | acknowledge | woken => exact hsame rfl

theorem RoomActs.known (h : RoomActs cfg i w₀ w w') {id : ℕ} {c : RoomCard}
    (hc : w.card? id = some c) : ∃ c', w'.card? id = some c' ∧
      c'.recipientKeyId = c.recipientKeyId ∧ ∀ role, c.role = some role → c'.role = some role := by
  induction h with
  | refl => exact ⟨c, hc, rfl, fun _ h => h⟩
  | tail _ hact ih =>
    obtain ⟨c', hc', hkey, hrole⟩ := ih
    obtain ⟨c'', hc'', hkey', hrole'⟩ := hact.known hc'
    exact ⟨c'', hc'', hkey'.trans hkey, fun role h => hrole' role (hrole role h)⟩

end RoomRelay

end GrantTap
