import GrantTapRelay.Library.Histories
import GrantTapRelay.Library.Windows
import GrantTapRelay.Node.Messages

/-!
# Response allowances

The frames of one Node socket: a send with a delivery id gives the socket one allowance, and a
received acknowledgement for that id spends it instead of counting against the rate of the socket.
`Traffic` is the socket with what was sent to it and what became of the frames it sent.

* `consume_eq`: which frames are exempt.
* `Traffic.Inv`: every allowance is of a send that no frame was exempted for.
* `allowances_not_multiplied`: **exemptions never outnumber sends**, each has its own, and the
  frames that are not exempt keep to the rate.
-/

namespace GrantTap

open Js Runs Histories Windows

/-! ## Frames of a socket -/

/-- What happened on a socket. -/
inductive TrafficEvent
  /-- A frame was handed to the socket. -/
  | sent (deliveryId : Option Str) (now : ℤ)
  /-- A received frame was not counted, as the acknowledgement of `deliveryId`. -/
  | exempt (deliveryId raw : Str) (now : ℤ)
  /-- A received frame was counted in the window that started at `start`, and processed. -/
  | counted (start now : ℤ)
  | closed (token : CloseToken)

structure Traffic where
  socket : NodeSocket
  clock : ℤ
  log : List TrafficEvent

inductive TrafficLabel
  | send (deliveryId : Option Str)
  | receive (raw : Str)

/-- The id of an exact `relay.ack`. -/
def exactAck? (parse : Str → Option Json) (raw : Str) : Option Str :=
  if NodeRelay.MAX_ACK_BYTES < utf8Length raw then none
  else (parse raw).bind fun frame => (relayAck? frame).filter fun _ => frame.keys.length = 2

namespace Traffic

/-- A socket that was just admitted. -/
def start (socket : NodeSocket) (now : ℤ) : Traffic where
  socket := { socket with allowances := .empty, window := ⟨some now, 0⟩, isOpen := true }
  clock := now
  log := []

/-- `delivery.send` for a frame that is handed over. -/
def send (t : Traffic) (deliveryId : Option Str) (now : ℤ) : Traffic where
  socket := { t.socket with
    allowances := NodeRelay.issue t.socket.allowances deliveryId now }
  clock := now
  log := t.log ++ [.sent deliveryId now]

def close (t : Traffic) (token : CloseToken) (now : ℤ) : Traffic where
  socket := { t.socket with isOpen := false }
  clock := now
  log := t.log ++ [.closed token]

/-- `handleSocketMessage`, up to the check of the rate. -/
def receive (parse : Str → Option Json) (t : Traffic) (raw : Str) (now : ℤ) : Traffic :=
  if NodeRelay.MAX_WEBSOCKET_MESSAGE_BYTES < utf8Length raw then t.close .oversize now
  else
    let (accepted, socket) := NodeRelay.countFrame parse t.socket raw now
    if !accepted then ({ t with socket := socket }).close .rateLimit now
    else
      let event := if (NodeRelay.consume parse t.socket.allowances raw now).1 then
        .exempt ((exactAck? parse raw).getD []) raw now
        else .counted (socket.window.windowStartedAt.getD now) now
      { socket := socket, clock := now, log := t.log ++ [event] }

/-- One frame; a socket that is not open neither gets one nor is heard. -/
def next (parse : Str → Option Json) (t : Traffic) (now : ℤ) (l : TrafficLabel) : Traffic :=
  if t.socket.isOpen then
    match l with
    | .send deliveryId => t.send deliveryId now
    | .receive raw => t.receive parse raw now
  else { t with clock := now }

/-- Times do not decrease. -/
def Step (parse : Str → Option Json) (t : Traffic) (l : ℤ × TrafficLabel) (t' : Traffic) : Prop :=
  t.clock ≤ l.1 ∧ t' = t.next parse l.1 l.2

end Traffic

/-! ## Allowances -/

/-- The valid delivery id of a send, which issues an allowance. -/
def issuedId? (deliveryId : Option Str) : Option Str :=
  deliveryId.filter fun id => decide (1 ≤ id.length ∧ id.length ≤ 180)

/-- **Which frames are exempt**: the acknowledgements of ids with an allowance that has not ended.
Either way the allowance is spent. -/
theorem consume_eq (parse : Str → Option Json) (allowances : Table Str ℤ) (raw : Str) (now : ℤ) :
    NodeRelay.consume parse allowances raw now =
      match exactAck? parse raw with
      | none => (false, allowances)
      | some id => ((allowances.get? id).any (now < ·), allowances.erase id) := by
  unfold NodeRelay.consume exactAck?
  split_ifs with hlong
  · rfl
  · cases hack : (parse raw).bind fun frame =>
        (relayAck? frame).filter fun _ => frame.keys.length = 2 with
    | none => rfl
    | some id =>
      dsimp only
      cases hget : allowances.get? id with
      | none =>
        dsimp only
        rw [Table.erase_eq_self hget]
        rfl
      | some expiresAt => rfl

/-- **An issue** makes room for the newest allowance. -/
theorem issue_spec (allowances : Table Str ℤ) (deliveryId : Option Str) (now : ℤ) :
    (∀ k e, (NodeRelay.issue allowances deliveryId now).get? k = some e →
      issuedId? deliveryId = some k ∧ e = now + NodeRelay.RESPONSE_LIFETIME_MS ∨
        allowances.get? k = some e) ∧
      (NodeRelay.issue allowances deliveryId now).size ≤
        allowances.size + (if (issuedId? deliveryId).isSome then 1 else 0) ∧
      (allowances.size ≤ NodeRelay.MAX_OUTSTANDING →
        (NodeRelay.issue allowances deliveryId now).size ≤ NodeRelay.MAX_OUTSTANDING) := by
  cases hid : issuedId? deliveryId with
  | none =>
    have hsame : NodeRelay.issue allowances deliveryId now = allowances := by
      cases deliveryId with
      | none => rfl
      | some id =>
        have hinvalid : ¬(1 ≤ id.length ∧ id.length ≤ 180) := by
          simpa [issuedId?, Option.filter_some] using hid
        exact if_neg hinvalid
    rw [hsame]
    exact ⟨fun k e hk => .inr hk, Nat.le_add_right _ _, fun hle => hle⟩
  | some id =>
    obtain ⟨rfl, hvalid⟩ := Option.filter_eq_some_iff.1 hid
    have hvalid := of_decide_eq_true hvalid
    set pending := (allowances.erase id).put id (now + NodeRelay.RESPONSE_LIFETIME_MS) with hpending
    have hget : ∀ k e, pending.get? k = some e →
        some id = some k ∧ e = now + NodeRelay.RESPONSE_LIFETIME_MS ∨
          allowances.get? k = some e := by
      intro k e hk
      rw [hpending, Table.get?_put, Table.get?_erase] at hk
      split_ifs at hk with he
      · exact .inl ⟨by rw [he], (Option.some.inj hk).symm⟩
      · exact .inr hk
    have hsize : pending.size ≤ allowances.size + 1 :=
      (Table.size_put_le _ _ _).trans (Nat.succ_le_succ (Table.size_erase_le _ _))
    unfold NodeRelay.issue
    dsimp only
    rw [if_pos hvalid, ← hpending, Option.isSome_some, if_pos rfl]
    cases hrows : pending.rows with
    | nil =>
      have hnil : pending.size = 0 := by rw [Table.size, hrows]; rfl
      exact ⟨hget, hsize, fun _ => hnil ▸ Nat.zero_le _⟩
    | cons first rest =>
      dsimp only
      split_ifs with hfull
      · have hfirst : pending.get? first.1 = some first.2 :=
          Table.mem_rows.1 (hrows ▸ List.mem_cons_self)
        have hlt := Table.size_erase_lt hfirst
        refine ⟨fun k e hk => ?_, by omega, fun hle => by omega⟩
        rw [Table.get?_erase] at hk
        split_ifs at hk
        exact hget k e hk
      · exact ⟨hget, hsize, fun _ => not_lt.1 hfull⟩

/-! ## The log -/

namespace TrafficEvent

/-- The event issues an allowance. -/
def issues : TrafficEvent → Bool
  | sent deliveryId _ => (issuedId? deliveryId).isSome
  | _ => false

def exempts : TrafficEvent → Bool
  | exempt _ _ _ => true
  | _ => false

/-- The window and the time of a counted frame. -/
def counted? : TrafficEvent → Option (ℤ × ℤ)
  | counted start now => some (start, now)
  | _ => none

end TrafficEvent

/-- An allowance of `id` that was issued at `at` and that no frame has spent. -/
def Issued (log : List TrafficEvent) (id : Str) (at' : ℤ) : Prop :=
  ∃ older mid, log = older ++ .sent (some id) at' :: mid ∧ issuedId? (some id) = some id ∧
    ∀ raw now, .exempt id raw now ∉ mid

theorem Issued.snoc {log : List TrafficEvent} {id : Str} {at' : ℤ} (h : Issued log id at')
    {e : TrafficEvent} (he : ∀ raw now, e ≠ .exempt id raw now) : Issued (log ++ [e]) id at' := by
  obtain ⟨older, mid, rfl, hid, hmid⟩ := h
  refine ⟨older, mid ++ [e], by simp, hid, fun raw now hmem => ?_⟩
  rcases List.mem_append.1 hmem with hmem | hmem
  · exact hmid raw now hmem
  · exact he raw now (List.mem_singleton.1 hmem).symm

/-- What every reachable traffic satisfies. -/
structure Unmultiplied (parse : Str → Option Json) (t : Traffic) : Prop where
  /-- Exemptions do not outnumber the sends with a valid delivery id. -/
  fewer : t.log.countP TrafficEvent.exempts ≤ t.log.countP TrafficEvent.issues
  /-- An exempt frame is the exact acknowledgement of a send less than 30 s before, which no other
  frame was exempted for. -/
  backed : ∀ before id raw now after, t.log = before ++ .exempt id raw now :: after →
    exactAck? parse raw = some id ∧ ∃ at', Issued before id at' ∧ now - at' < 30000
  outstanding : t.socket.allowances.size ≤ 512
  /-- In no window of one second are more than 300 frames processed that are not exempt. -/
  limited : ∀ start, ((t.log.filterMap TrafficEvent.counted?).filter
    fun e => e.1 = start).length ≤ 300
  inside : ∀ start now, .counted start now ∈ t.log → start ≤ now ∧ now < start + 1000
  apart : ∀ a now b now', .counted a now ∈ t.log → .counted b now' ∈ t.log →
    a = b ∨ a + 1000 ≤ b ∨ b + 1000 ≤ a
  /-- Nothing happens on a socket after its close. -/
  last : ∀ before token after, t.log = before ++ .closed token :: after →
    after = [] ∧ t.socket.isOpen = false

/-! ## One frame -/

/-- The window of a socket, as a counter. -/
def FrameWindow.counter (w : FrameWindow) : Window := ⟨w.windowStartedAt, w.windowMessages⟩

theorem acceptSocketFrame_eq (w : FrameWindow) (now : ℤ) :
    (acceptSocketFrame w now).2.counter =
        { w.counter.turn 1000 now with used := (w.counter.turn 1000 now).used + 1 } ∧
      ((acceptSocketFrame w now).1 = true ↔ (w.counter.turn 1000 now).used < 300) := by
  unfold acceptSocketFrame Window.turn FrameWindow.counter MAX_SOCKET_MESSAGES_PER_SECOND
  dsimp only
  split_ifs
  · exact ⟨rfl, decide_eq_true_iff.trans Nat.succ_le_iff⟩
  · exact ⟨rfl, decide_eq_true_iff.trans Nat.succ_le_iff⟩

/-- What an event of the log needs of the events before it. -/
def Backed (parse : Str → Option Json) (before : List TrafficEvent) (e : TrafficEvent) : Prop :=
  ∀ id raw now, e = .exempt id raw now →
    exactAck? parse raw = some id ∧ ∃ at', Issued before id at' ∧ now - at' < 30000

namespace Traffic

/-- The invariant of a traffic. -/
structure Inv (parse : Str → Option Json) (t : Traffic) : Prop where
  count : t.socket.allowances.size + t.log.countP TrafficEvent.exempts ≤
    t.log.countP TrafficEvent.issues
  size : t.socket.allowances.size ≤ NodeRelay.MAX_OUTSTANDING
  /-- Every allowance is of a send that no frame was exempted for. -/
  held : ∀ id e, t.socket.allowances.get? id = some e →
    ∃ at', Issued t.log id at' ∧ e = at' + NodeRelay.RESPONSE_LIFETIME_MS
  backed : Each (Backed parse) t.log
  paced : Paced 1000 300 t.socket.window.counter (t.log.filterMap TrafficEvent.counted?) t.clock
  opened : t.socket.isOpen = true → ∀ token, .closed token ∉ t.log
  last : ∀ before token after, t.log = before ++ .closed token :: after → after = []

variable {parse : Str → Option Json} {t : Traffic} {now : ℤ}

theorem inv_start (parse : Str → Option Json) (socket : NodeSocket) (now : ℤ) :
    (start socket now).Inv parse where
  count := le_rfl
  size := Nat.zero_le _
  held id e h := by cases h
  backed := .nil
  paced := paced_nil fun s hs => le_of_eq (Option.some.inj hs).symm
  opened _ _ := List.not_mem_nil
  last before token after h := by simp [start] at h

/-- **The rule for one event** on an open socket. -/
theorem Inv.snoc (h : t.Inv parse) (hopen : t.socket.isOpen = true) {s : NodeSocket}
    {e : TrafficEvent}
    (hcount : s.allowances.size + (if e.exempts then 1 else 0) ≤
      t.socket.allowances.size + if e.issues then 1 else 0)
    (hsize : s.allowances.size ≤ NodeRelay.MAX_OUTSTANDING)
    (hheld : ∀ id x, s.allowances.get? id = some x →
      ∃ at', Issued (t.log ++ [e]) id at' ∧ x = at' + NodeRelay.RESPONSE_LIFETIME_MS)
    (hbacked : Backed parse t.log e)
    (hpaced : Paced 1000 300 s.window.counter
      (t.log.filterMap TrafficEvent.counted? ++ e.counted?.toList) now)
    (hclosed : s.isOpen = true → ∀ token, e ≠ .closed token) :
    Inv parse ⟨s, now, t.log ++ [e]⟩ := by
  have hbefore := h.count
  refine ⟨?_, hsize, hheld, h.backed.snoc hbacked, ?_, fun hs token hmem => ?_, ?_⟩
  · simp only [List.countP_append, List.countP_singleton]
    omega
  · rw [List.filterMap_append]
    cases he : e.counted? <;> simpa [he] using hpaced
  · rcases List.mem_append.1 hmem with hmem | hmem
    · exact h.opened hopen token hmem
    · exact hclosed hs token (List.mem_singleton.1 hmem).symm
  · intro before token after heq
    rcases split_snoc heq with ⟨rfl, -⟩ | ⟨rest, -, hlog⟩
    · rfl
    · exact absurd (hlog ▸ by simp) (h.opened hopen token)

theorem Inv.send (h : t.Inv parse) (hopen : t.socket.isOpen = true) (hnow : t.clock ≤ now)
    (deliveryId : Option Str) : (t.send deliveryId now).Inv parse := by
  have hne (id raw : Str) (now' : ℤ) : TrafficEvent.sent deliveryId now ≠ .exempt id raw now' := by
    intro he
    cases he
  obtain ⟨hget, hgrow, hbound⟩ := issue_spec t.socket.allowances deliveryId now
  refine h.snoc hopen hgrow (hbound h.size) (fun id x hx => ?_)
    (fun id raw now' he => absurd he (hne id raw now')) ?_ fun _ token he => ?_
  · rcases hget id x hx with ⟨hid, rfl⟩ | hx
    · refine ⟨now, ⟨t.log, [], ?_, ?_, fun _ _ => List.not_mem_nil⟩, rfl⟩
      · rw [(Option.filter_eq_some_iff.1 hid).1]
      · rw [← (Option.filter_eq_some_iff.1 hid).1, hid]
        exact (Option.filter_eq_some_iff.1 hid).1.symm
    · obtain ⟨at', hissued, rfl⟩ := h.held id x hx
      exact ⟨at', hissued.snoc fun raw now' => hne id raw now', rfl⟩
  · simpa [TrafficEvent.counted?] using h.paced.later hnow
  · cases he

/-- Allowances that no event spends are still of their sends. -/
theorem Inv.held_snoc (h : t.Inv parse) {allowances : Table Str ℤ} {e : TrafficEvent}
    (hsub : ∀ k x, allowances.get? k = some x → t.socket.allowances.get? k = some x ∧
      ∀ raw now, e ≠ .exempt k raw now) (k : Str) (x : ℤ) (hx : allowances.get? k = some x) :
    ∃ at', Issued (t.log ++ [e]) k at' ∧ x = at' + NodeRelay.RESPONSE_LIFETIME_MS := by
  obtain ⟨hbefore, he⟩ := hsub k x hx
  obtain ⟨at', hissued, rfl⟩ := h.held k x hbefore
  exact ⟨at', hissued.snoc he, rfl⟩

/-- What a frame leaves of the allowances. -/
theorem consume_sub (parse : Str → Option Json) (allowances : Table Str ℤ) (raw : Str) (now : ℤ) :
    (NodeRelay.consume parse allowances raw now).2.size ≤ allowances.size ∧
      ∀ k x, (NodeRelay.consume parse allowances raw now).2.get? k = some x →
        allowances.get? k = some x := by
  rw [consume_eq]
  cases exactAck? parse raw with
  | none => exact ⟨le_rfl, fun k x hx => hx⟩
  | some id =>
    refine ⟨Table.size_erase_le _ _, fun k x hx => ?_⟩
    dsimp only at hx
    rw [Table.get?_erase] at hx
    split_ifs at hx
    exact hx

/-- An exempt frame. -/
theorem Inv.exempt (h : t.Inv parse) (hopen : t.socket.isOpen = true) (hnow : t.clock ≤ now)
    {raw : Str} (hexcused : (NodeRelay.consume parse t.socket.allowances raw now).1 = true) :
    Inv parse ⟨{ t.socket with
      allowances := (NodeRelay.consume parse t.socket.allowances raw now).2 }, now,
      t.log ++ [.exempt ((exactAck? parse raw).getD []) raw now]⟩ := by
  rw [consume_eq] at hexcused ⊢
  cases hack : exactAck? parse raw with
  | none =>
    rw [hack] at hexcused
    cases hexcused
  | some id =>
    rw [hack] at hexcused
    obtain ⟨e, he, hlt⟩ := (Option.any_eq_true ..).1 hexcused
    have hlt := of_decide_eq_true hlt
    have hsize := Table.size_erase_lt he
    obtain ⟨at', hissued, hlife⟩ := h.held id e he
    have hpaced := h.paced.later hnow
    refine h.snoc hopen hsize (hsize.le.trans h.size) (h.held_snoc fun k x hx => ?_) ?_
      (by simpa [TrafficEvent.counted?] using hpaced) fun _ token he => by cases he
    · dsimp only at hx
      rw [Table.get?_erase] at hx
      split_ifs at hx with hk
      refine ⟨hx, fun raw' now' heq => hk ?_⟩
      cases heq
      rfl
    · intro id' raw' now' heq
      cases heq
      refine ⟨hack, at', hissued, ?_⟩
      rw [hlife, NodeRelay.RESPONSE_LIFETIME_MS] at hlt
      omega

/-- **A received frame.** -/
theorem Inv.receive (h : t.Inv parse) (hopen : t.socket.isOpen = true) (hnow : t.clock ≤ now)
    (raw : Str) : (t.receive parse raw now).Inv parse := by
  have hpaced := h.paced.later hnow
  unfold Traffic.receive
  by_cases hlong : NodeRelay.MAX_WEBSOCKET_MESSAGE_BYTES < utf8Length raw
  · rw [if_pos hlong]
    refine h.snoc hopen le_rfl h.size (h.held_snoc fun k x hx => ⟨hx, fun _ _ he => by cases he⟩)
      (fun id raw now' he => by cases he) (by simpa [TrafficEvent.counted?] using hpaced)
      fun hs => by cases hs
  · rw [if_neg hlong]
    obtain ⟨hsize, hsub⟩ := consume_sub parse t.socket.allowances raw now
    cases hexcused : (NodeRelay.consume parse t.socket.allowances raw now).1 with
    | true =>
      have hcount : NodeRelay.countFrame parse t.socket raw now = (true, { t.socket with
          allowances := (NodeRelay.consume parse t.socket.allowances raw now).2 }) := by
        unfold NodeRelay.countFrame
        dsimp only
        rw [hexcused]
        rfl
      rw [hcount]
      simp only [Bool.not_true, Bool.false_eq_true, if_false, if_true]
      exact h.exempt hopen hnow hexcused
    | false =>
      have hcount : NodeRelay.countFrame parse t.socket raw now =
          ((acceptSocketFrame t.socket.window now).1, { t.socket with
            allowances := (NodeRelay.consume parse t.socket.allowances raw now).2
            window := (acceptSocketFrame t.socket.window now).2 }) := by
        unfold NodeRelay.countFrame
        dsimp only
        rw [hexcused]
        rfl
      rw [hcount]
      simp only [Bool.false_eq_true, if_false]
      obtain ⟨hcounter, haccepted⟩ := acceptSocketFrame_eq t.socket.window now
      obtain ⟨hturn, start, hstart, hle, hlt⟩ := hpaced.turn (by decide)
      split_ifs with hrefused
      · refine h.snoc hopen ?_ (hsize.trans h.size)
          (h.held_snoc fun k x hx => ⟨hsub k x hx, fun _ _ he => by cases he⟩)
          (fun id raw now' he => by cases he) ?_ fun hs => by cases hs
        · exact hsize
        · simp only [TrafficEvent.counted?, Option.toList_none, List.append_nil]
          rw [hcounter]
          exact hturn.count
      · have hused := haccepted.1 (by simpa using hrefused)
        have hstart' : (acceptSocketFrame t.socket.window now).2.windowStartedAt = some start := by
          have hsame := congrArg Window.start hcounter
          exact hsame.trans hstart
        refine h.snoc hopen hsize (hsize.trans h.size)
          (h.held_snoc fun k x hx => ⟨hsub k x hx, fun _ _ he => by cases he⟩)
          (fun id raw now' he => by cases he) ?_ fun _ token he => by cases he
        rw [hstart', hcounter]
        exact hturn.accept hstart hle hlt hused

theorem Inv.next (h : t.Inv parse) (hnow : t.clock ≤ now) (l : TrafficLabel) :
    (t.next parse now l).Inv parse := by
  unfold Traffic.next
  split_ifs with hopen
  · cases l with
    | send deliveryId => exact h.send hopen hnow deliveryId
    | receive raw => exact h.receive hopen hnow raw
  · exact { h with paced := h.paced.later hnow }

end Traffic

/-! ## Every run -/

/-- **Acknowledgement allowances cannot be multiplied**: in every run of frames sent to one socket
and received from it, at non-decreasing times. -/
theorem allowances_not_multiplied (parse : Str → Option Json) (socket : NodeSocket) (began : ℤ)
    (labels : List (ℤ × TrafficLabel)) (t : Traffic)
    (hrun : Run (Traffic.Step parse) (.start socket began) labels t) : Unmultiplied parse t := by
  have h : t.Inv parse := by
    refine hrun.invariant (I := Traffic.Inv parse) ?_ (Traffic.inv_start parse socket began)
    rintro t l t' h ⟨hnow, rfl⟩
    exact h.next hnow l.2
  have hmem {start now : ℤ} (hin : TrafficEvent.counted start now ∈ t.log) :
      (start, now) ∈ t.log.filterMap TrafficEvent.counted? :=
    List.mem_filterMap.2 ⟨_, hin, rfl⟩
  refine ⟨le_trans (Nat.le_add_left _ _) h.count, fun before id raw now after hlog => ?_, h.size,
    h.paced.limited, fun start now hin => h.paced.inside _ (hmem hin),
    fun a now b now' ha hb => h.paced.apart _ (hmem ha) _ (hmem hb), fun before token after hlog => ?_⟩
  · exact h.backed before _ after hlog id raw now rfl
  · refine ⟨h.last before token after hlog, Bool.eq_false_iff.2 fun hopen => ?_⟩
    exact h.opened hopen token (hlog ▸ by simp)

/-! ### A run -/

/-- The acknowledgement of one delivery. -/
def sampleAck : Json :=
  .obj [(lit "type", .text "relay.ack"), (lit "deliveryId", .text "delivery-1")]

def parseAck (raw : Str) : Option Json := if raw = sampleAck.stringify then some sampleAck else none

def ackingSocket : NodeSocket :=
  NodeRelay.newSocket ⟨parseAck, fun text => text, none, .standard⟩
    { room := lit "0123456789abcdef", authorized := false, digest := [], ticketHeader := none,
      recipientKeyId := none, relayControl := true, ingressFlow := false, presenceEnabled := false,
      taskDispatch := false, checkedAt := 1000, room_valid := by decide } none 1000

/-- One delivery is acknowledged twice. -/
def ackedTraffic : Traffic :=
  (((Traffic.start ackingSocket 1000).next parseAck 1000 (.send (some (lit "delivery-1")))).next
    parseAck 2000 (.receive sampleAck.stringify)).next parseAck 2000 (.receive sampleAck.stringify)

/-- The second acknowledgement is counted. -/
theorem allowances_not_multiplied_sample :
    (ackedTraffic.log.countP TrafficEvent.exempts = 1 ∧
      ackedTraffic.log.filterMap TrafficEvent.counted? = [(2000, 2000)]) ∧
      Unmultiplied parseAck ackedTraffic :=
  ⟨by decide +kernel, allowances_not_multiplied parseAck ackingSocket 1000
    [(1000, .send (some (lit "delivery-1"))), (2000, .receive sampleAck.stringify),
      (2000, .receive sampleAck.stringify)] ackedTraffic <|
      .cons ⟨le_refl (1000 : ℤ), rfl⟩ <| .cons ⟨show (1000 : ℤ) ≤ 2000 by decide, rfl⟩ <|
        .cons ⟨le_refl (2000 : ℤ), rfl⟩ <| .nil _⟩

end GrantTap
