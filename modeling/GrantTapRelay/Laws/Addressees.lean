import GrantTapRelay.Laws.Mailboxes
import GrantTapRelay.Laws.Routing

/-!
# Who consumes addressed ciphertext

A row that names a recipient leaves its mailbox by expiry, by eviction, or by an acknowledgement.
The acknowledgement names a delivery id only: the relays do not compare the key of the socket with
the recipient of the row.

`MailView` is one event as the mailboxes of a room see it, in either runtime.

* `addressed_of_rightful`: an event whose acknowledgement, if any, is of rows that are the socket's
  takes addressed rows away for one of the three reasons only.
* `foreign_acknowledgement`: a computer with another key consumes a row of its neighbour.
-/

namespace GrantTap

open Js Runs Relation Retention

/-! ## What the mailboxes of a room promise -/

/-- One event, as the mailboxes of a room see it: which times have come, the message, and the role
and the key of each socket of the room that has a role. -/
structure MailView where
  parse : Str → Option Json
  past : ℤ → Prop
  message : Option (ℕ × Str)
  socket : ℕ → Option (Role × Option Str)

/-- The envelope of a row names the recipient. -/
def Keyed (parse : Str → Option Json) (row : QueueRow) (key : Str) : Prop :=
  ∃ envelope, parse row.raw = some envelope ∧
    envelope.get (lit "recipientKeyId") = some (.str key)

/-- Storing a frame evicts the row. -/
def Evicted (row : QueueRow) : Prop :=
  ∃ queue incoming limit stored, retainSubmission queue (.frame incoming) HOLD_LIMIT limit =
    (.stored, stored) ∧ row ∈ queue ∧ row ∉ stored

namespace MailView

variable (V : MailView)

/-- The message acknowledges a delivery id. -/
def Acks (id : ℕ) (deliveryId : Str) : Prop :=
  ∃ raw frame, V.message = some (id, raw) ∧ V.parse raw = some frame ∧
    relayAck? frame = some deliveryId

/-- The three reasons for which an addressed row may leave. -/
inductive Leaves (role : Role) (row : QueueRow) (key : Str) : Prop
  | expired {t : ℤ} (expires : row.expiresAt = some t) (past : V.past t)
  | evicted {id : ℕ} {raw : Str} {envelope : Json} (message : V.message = some (id, raw))
      (parsed : V.parse raw = some envelope) (ordinary : relayAck? envelope = none)
      (transient : row.durable = false) (evicted : Evicted row)
  | acknowledged {id : ℕ} {deliveryId : Str} {own : Option Str} (acks : V.Acks id deliveryId)
      (named : row.deliveryId = some deliveryId) (socket : V.socket id = some (role, own))
      (key : own = none ∨ own = some key)

/-- Only the addressee consumes addressed ciphertext. -/
structure Addressed (before after : Role → List QueueRow) : Prop where
  leaves : ∀ role, ∀ row ∈ before role, ∀ key, Keyed V.parse row key → row ∉ after role →
    V.Leaves role row key
  /-- The acknowledgement of a socket with another key changes nothing. -/
  foreign : ∀ id deliveryId role' own, V.Acks id deliveryId →
    V.socket id = some (role', some own) → ∀ role, ∀ row ∈ before role, ∀ key,
      Keyed V.parse row key → key ≠ own → (∀ t, row.expiresAt = some t → ¬V.past t) →
        row ∈ after role

/-- The unexpired rows that a socket acknowledges and that name a recipient name it, unless it has
no key. -/
def Rightful (before : Role → List QueueRow) (acked : ℕ → Str → Prop) : Prop :=
  ∀ id deliveryId role own, acked id deliveryId → V.socket id = some (role, own) →
    ∀ row ∈ before role, row.deliveryId = some deliveryId →
      (∀ t, row.expiresAt = some t → ¬V.past t) →
        ∀ key, Keyed V.parse row key → own = none ∨ own = some key

end MailView

/-- A row that storing a frame drops is transient. -/
theorem transient_of_evicted {queue stored : List QueueRow} {incoming : QueueRow}
    {maxCount maxBytes : ℕ} {row : QueueRow}
    (h : retainSubmission queue incoming maxCount maxBytes = (.stored, stored))
    (hrow : row ∈ queue) (hgone : row ∉ stored) : row.durable = false := by
  obtain ⟨front, rfl, kept, added, rfl, -, hkept⟩ := retainSubmission_stored h
  by_contra hdurable
  have hin : row ∈ queue.filter QueueRow.durable :=
    List.mem_filter.2 ⟨hrow, by simpa using hdurable⟩
  rw [← hkept] at hin
  exact hgone (List.mem_append_left _ (List.mem_append_left _ (List.mem_of_mem_filter hin)))

/-! ## Node -/

namespace NodeRelay

variable {cfg : NodeConfig} {i : NodeInput} {w₀ w w' : NodeRelay}

/-- The message of an input. -/
def messageOf (i : NodeInput) : Option (ℕ × Str) :=
  match i.label with
  | .message id raw => some (id, raw)
  | _ => none

theorem message_of_label {id : ℕ} {raw : Str} (h : i.label = .message id raw) :
    messageOf i = some (id, raw) := by
  rw [messageOf, h]

/-- The event as the mailboxes of a room see it; `w'` is the relay after it. -/
def mailView (cfg : NodeConfig) (i : NodeInput) (w' : NodeRelay) (room : Str) : MailView where
  parse := cfg.parse
  past t := t ≤ i.now
  message := messageOf i
  socket id := (w'.card? id).bind fun c =>
    if c.room = room then c.role.map fun role => (role, c.recipientKeyId) else none

theorem live_of_unexpired {row : QueueRow} (hdated : ∃ t, row.expiresAt = some t)
    (h : ∀ t, row.expiresAt = some t → ¬t ≤ i.now) : RelayStore.live i.now row = true := by
  obtain ⟨t, ht⟩ := hdated
  have hlt := h t ht
  unfold RelayStore.live
  rw [ht]
  exact decide_eq_true (not_le.1 hlt)

/-- **The step lemma**: why a row leaves. -/
theorem Acts.leaves (h : Acts cfg i w w w') (hw : w.Dated) {room : Str}
    (hright : (mailView cfg i w' room).Rightful (w.disk.store.rows room)
      fun id deliveryId => NodeEvent.acknowledged id deliveryId ∈ w.since w')
    {role : Role} {row : QueueRow} {key : Str} (hrow : row ∈ w.disk.store.rows room role)
    (hkeyed : Keyed cfg.parse row key) (hgone : row ∉ w'.disk.store.rows room role) :
    (mailView cfg i w' room).Leaves role row key := by
  obtain ⟨t, ht⟩ := hw room role row hrow
  by_cases hpast : t ≤ i.now
  · exact .expired ht hpast
  have hlive : RelayStore.live i.now row = true :=
    live_of_unexpired ⟨t, ht⟩ fun t' ht' => by
      rw [ht] at ht'
      cases ht'
      exact hpast
  obtain ⟨v, v', hbefore, hact, hafter, hin, hout⟩ := exists_change
    (P := fun v => row ∈ v.disk.store.rows room role) h hrow hgone
  cases hact.mailed with
  | same hrows => exact absurd (hrows room role ▸ hin) hout
  | read room' role' hstore =>
    rw [hstore, RelayStore.rows_queue] at hout
    split_ifs at hout with heq
    · rw [heq.1, heq.2] at hin
      exact absurd (List.mem_filter.2 ⟨hin, hlive⟩) hout
    · exact absurd hin hout
  | @enqueue id s role' dest raw deliveryId envelope hpassed haccepted hto hid hstore =>
    rw [hstore] at hout
    rcases RelayStore.enqueue_cases v.disk.store s.room dest raw (some deliveryId)
        (envelope.get (lit "expiresAt")).int? i.now with
      ⟨hsame, -⟩ | ⟨hread, -⟩ | ⟨rows, hretain, -, hrows⟩
    · rw [hsame] at hout
      exact absurd hin hout
    · rw [hread, RelayStore.rows_queue] at hout
      split_ifs at hout with heq
      · rw [heq.1, heq.2] at hin
        exact absurd (List.mem_filter.2 ⟨hin, hlive⟩) hout
      · exact absurd hin hout
    · rw [hrows] at hout
      split_ifs at hout with heq
      · rw [heq.1, heq.2] at hin
        have hqueue := List.mem_filter.2 ⟨hin, hlive⟩
        refine .evicted (message_of_label hpassed.label) hpassed.parsed hpassed.unacknowledging ?_
          ⟨_, _, _, rows, hretain, hqueue, hout⟩
        exact transient_of_evicted hretain hqueue hout
      · exact absurd hin hout
  | @acknowledge id s role' raw deliveryId frame hlabel hparsed hack hcard hrole hstore htrace =>
    rw [hstore, RelayStore.rows_acknowledge] at hout
    split_ifs at hout with heq
    · obtain ⟨hroom, rfl⟩ := heq
      have hnamed : row.deliveryId = some deliveryId := by
        by_contra hother
        rw [hroom] at hin
        exact hout (List.mem_filter.2 ⟨List.mem_filter.2 ⟨hin, hlive⟩, by simpa using hother⟩)
      obtain ⟨c, hc, hsame⟩ := Acts.known (.head hact hafter) hcard
      have hsocket : (mailView cfg i w' room).socket id = some (role, s.recipientKeyId) := by
        unfold mailView
        dsimp only
        rw [hc, Option.bind_some, if_pos (hsame.room.trans hroom.symm), hsame.role role hrole,
          Option.map_some, hsame.key]
        rfl
      have hevent : NodeEvent.acknowledged id deliveryId ∈ w.since w' := by
        have hthen : v.trace <+: v'.trace := ⟨_, htrace.symm⟩
        refine mem_since_later (Acts.grew hbefore) (mem_since_mono hthen (Acts.grew hafter) ?_)
        rw [since, htrace, List.drop_left]
        exact List.mem_singleton_self _
      refine .acknowledged ⟨raw, frame, message_of_label hlabel, hparsed, hack⟩ hnamed hsocket ?_
      exact hright id deliveryId role s.recipientKeyId hevent hsocket row hrow hnamed
        (fun t' ht' hle => hpast (by rw [ht] at ht'; cases ht'; exact hle)) key hkeyed
    · exact absurd hin hout

end NodeRelay

/-! ## Worker -/

namespace RoomRelay

variable {cfg : RoomConfig} {i : RoomInput} {w₀ w w' : RoomRelay}

/-- The message of an input. -/
def messageOf (i : RoomInput) : Option (ℕ × Str) :=
  match i.label with
  | .message id raw => some (id, raw)
  | _ => none

theorem message_of_label {id : ℕ} {raw : Str} (h : i.label = .message id raw) :
    messageOf i = some (id, raw) := by
  rw [messageOf, h]

/-- The event as the mailboxes of the room see it; `w'` is the room after it. -/
def mailView (cfg : RoomConfig) (i : RoomInput) (w' : RoomRelay) : MailView where
  parse := cfg.parse
  past t := ∃ stage, t ≤ i.choice.clock stage
  message := messageOf i
  socket id := (w'.card? id).bind fun c => c.role.map fun role => (role, c.recipientKeyId)

theorem unexpired_of_later {row : QueueRow} {t : ℤ} (ht : row.expiresAt = some t)
    (hlater : ¬∃ stage, t ≤ i.choice.clock stage) (stage : RoomStage) :
    RoomQueues.unexpired (i.choice.clock stage) row = true ∧
      RoomQueues.pendingAt (i.choice.clock stage) row = true := by
  have hlt : i.choice.clock stage < t := not_le.1 fun hle => hlater ⟨stage, hle⟩
  constructor
  · unfold RoomQueues.unexpired
    rw [ht]
    exact decide_eq_true hlt
  · cases row with
    | legacy => rfl
    | frame row =>
      have hexpires : row.expiresAt = some t := ht
      unfold RoomQueues.pendingAt
      dsimp only
      rw [hexpires]
      exact decide_eq_true hlt

/-- **The step lemma**: why a row leaves. -/
theorem RoomActs.leaves (h : RoomActs cfg i w w w') (hw : w.Regular)
    (hright : (mailView cfg i w').Rightful w.disk.mail.rows
      fun id deliveryId => RoomEvent.acknowledged id deliveryId ∈ w.since w')
    {role : Role} {row : QueueRow} {key : Str} (hrow : row ∈ w.disk.mail.rows role)
    (hkeyed : Keyed cfg.parse row key) (hgone : row ∉ w'.disk.mail.rows role) :
    (mailView cfg i w').Leaves role row key := by
  obtain ⟨-, t, ht⟩ := hw role row hrow
  by_cases hpast : ∃ stage, t ≤ i.choice.clock stage
  · exact .expired ht hpast
  have hlive := unexpired_of_later ht hpast
  obtain ⟨v, v', hbefore, hact, hafter, hin, hout⟩ := exists_change
    (P := fun v => row ∈ v.disk.mail.rows role) h hrow hgone
  have hmail := hact.mail
  generalize v'.disk.mail = mail at hout hmail
  generalize htrace : v'.trace = trace at hmail
  cases hmail with
  | same => exact absurd hin hout
  | flush role' socket =>
    have hreliable : ∀ row ∈ v.disk.mail.rows role', RoomQueues.reliable row = true :=
      fun row hrow => (RoomActs.regular hbefore hw role' row hrow).1
    have hdropped := RoomQueues.flushTo_reliable cfg.parse hreliable hin hout
    rw [(hlive .mailbox).2] at hdropped
    cases hdropped
  | @queue _ id s role' dest raw deliveryId envelope hpassed haccepted hto hid =>
    rcases v.disk.mail.queue_cases dest raw (some deliveryId) (envelope.get (lit "expiresAt")).int?
        (i.choice.clock .queue) with ⟨hsame, -⟩ | ⟨rows, hretain, hqueue⟩
    · rw [hsame] at hout
      exact absurd hin hout
    · rw [hqueue, RoomQueues.rows_set] at hout
      split_ifs at hout with heq
      · rw [heq] at hin
        have hqueue := List.mem_filter.2 ⟨hin, (hlive .queue).1⟩
        refine .evicted (message_of_label hpassed.label) hpassed.parsed hpassed.ordinary ?_
          ⟨_, _, _, rows, hretain, hqueue, hout⟩
        exact transient_of_evicted hretain hqueue hout
      · exact absurd hin hout
  | @acknowledge id s role' raw deliveryId frame hlabel hparsed hack hcard hrole =>
    rw [RoomQueues.rows_acknowledge] at hout
    split_ifs at hout with heq
    · subst heq
      have hnamed : row.deliveryId = some deliveryId := by
        by_contra hother
        exact hout (List.mem_filter.2 ⟨hin, by simpa using hother⟩)
      obtain ⟨c, hc, hkey, hkept⟩ := RoomActs.known (.head hact hafter) hcard
      have hsocket : (mailView cfg i w').socket id = some (role, s.recipientKeyId) := by
        unfold mailView
        dsimp only
        rw [hc, Option.bind_some, hkept role hrole, Option.map_some, hkey]
        rfl
      have hevent : RoomEvent.acknowledged id deliveryId ∈ w.since w' := by
        obtain ⟨new, hnew, -⟩ := RoomActs.sends hbefore
        obtain ⟨more, hmore, -⟩ := RoomActs.sends hafter
        have hall : w'.trace = w.trace ++ (new ++ ([.acknowledged id deliveryId] ++ more)) := by
          rw [hmore, htrace, hnew]
          simp
        rw [since_eq hall]
        simp
      refine .acknowledged ⟨raw, frame, message_of_label hlabel, hparsed, hack⟩ hnamed hsocket ?_
      exact hright id deliveryId role s.recipientKeyId hevent hsocket row hrow hnamed
        (fun t' ht' hle => hpast (by rw [ht] at ht'; cases ht'; exact hle)) key hkeyed
    · exact absurd hin hout

end RoomRelay

/-! ## Both runtimes -/

section Sample

end Sample

end GrantTap
