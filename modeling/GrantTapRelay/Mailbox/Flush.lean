import GrantTapRelay.Mailbox.Agreement

/-!
# A flush and the other handlers of its mailbox

`flushTo` of `src/relay/room.js`, with the acknowledgements and enqueues of the same mailbox that
take effect while its frames are sent. A flush of reliable rows leaves storage to the others; a
flush of a mixed mailbox writes back what it computed from the snapshot that it took before.

`settled` is what the other handlers leave on their own, `Stays` says of a row whether the snapshot
that is written back has it. `FlushKeeps` is what the flush owes the others.

* `flush_keeps_iff`: the flush keeps its promise exactly when the mailbox is all reliable, or the
  snapshot has what the others stored and nothing that they acknowledged.
* `flush_resurrects`: a mixed mailbox whose reliable row is acknowledged during a send.
-/

namespace GrantTap

open Js Retention

/-- What another handler does to the mailbox while a frame is sent. -/
inductive MailboxChange
  | acknowledge (deliveryId : DeliveryId)
  | queue (raw : Str) (deliveryId : DeliveryId) (expiresAt : Option ℤ) (now : ℤ)

namespace MailboxChange

def apply (role : Role) (q : RoomQueues) : MailboxChange → RoomQueues
  | acknowledge deliveryId => q.acknowledge role deliveryId.text
  | queue raw deliveryId expiresAt now =>
    (q.queue role raw (some deliveryId.text) expiresAt now).1

/-- The row that an enqueue stores. -/
def row? : MailboxChange → Option QueueRow
  | acknowledge _ => none
  | queue raw deliveryId expiresAt now =>
    some (.frame (RoomQueues.newFrame raw (some deliveryId.text) expiresAt now))

theorem reliable_of_row? {change : MailboxChange} {row : QueueRow} (h : change.row? = some row) :
    RoomQueues.reliable row = true := by
  cases change with
  | acknowledge => cases h
  | queue raw deliveryId expiresAt now =>
    cases h
    simp [RoomQueues.reliable, RoomQueues.newFrame, RoomQueues.identified, deliveryId.nonempty]

end MailboxChange

namespace RoomQueues

variable (parse : Str → Option Json) (role : Role) (ws : FlushSocket)
  (meanwhile : ℕ → List MailboxChange)

/-! ## The flush -/

/-- The send at a position, and what takes effect meanwhile. -/
def duringSend (q : RoomQueues) (i : ℕ) : RoomQueues := (meanwhile i).foldl (MailboxChange.apply role) q

/-- The loop over reliable rows. -/
def flushReliableDuring : ℕ → List QueueRow → RoomQueues → RoomQueues
  | _, [], q => q
  | i, item :: rest, q =>
    if matchesQueuedRecipient parse item.raw ws.recipientKeyId then
      let q := q.duringSend role meanwhile i
      if ws.accepts i then flushReliableDuring (i + 1) rest q else q
    else flushReliableDuring (i + 1) rest q

/-- The loop over a mixed mailbox: the storage, and the rows to store again. -/
def flushMixedDuring : ℕ → List QueueRow → RoomQueues → RoomQueues × List QueueRow
  | _, [], q => (q, [])
  | i, item :: rest, q =>
    if item.raw = [] then flushMixedDuring (i + 1) rest q
    else if matchesQueuedRecipient parse item.raw ws.recipientKeyId then
      let q := q.duringSend role meanwhile i
      if ws.accepts i then
        let (q, remaining) := flushMixedDuring (i + 1) rest q
        (q, if reliable item then item :: remaining else remaining)
      else (q, item :: rest)
    else
      let (q, remaining) := flushMixedDuring (i + 1) rest q
      (q, item :: remaining)

/-- `flushTo` among the other handlers of the mailbox. -/
def flushDuring (q : RoomQueues) (now : ℤ) : RoomQueues :=
  if q.rows role = [] then q
  else
    let pending := (q.rows role).filter (pendingAt now)
    if pending = [] then q.set role none
    else if pending.all reliable then flushReliableDuring parse role ws meanwhile 0 pending q
    else
      let (q, remaining) := flushMixedDuring parse role ws meanwhile 0 pending q
      q.putOrDelete role remaining

/-! ## What is sent, and what takes effect -/

/-- The positions and rows that are passed to `send`; the last send may throw. -/
def sends (skips : QueueRow → Bool) : ℕ → List QueueRow → List (ℕ × QueueRow)
  | _, [] => []
  | i, item :: rest =>
    if skips item then sends skips (i + 1) rest
    else if matchesQueuedRecipient parse item.raw ws.recipientKeyId then
      (i, item) :: if ws.accepts i then sends skips (i + 1) rest else []
    else sends skips (i + 1) rest

/-- The rows behind the row whose send threw. -/
def behind : ℕ → List QueueRow → List QueueRow
  | _, [] => []
  | i, item :: rest =>
    if item.raw ≠ [] ∧ matchesQueuedRecipient parse item.raw ws.recipientKeyId = true ∧
        ws.accepts i = false then rest
    else behind (i + 1) rest

/-- The unexpired rows when the flush starts. -/
def pending (q : RoomQueues) (now : ℤ) : List QueueRow := (q.rows role).filter (pendingAt now)

/-- What the flush sends. -/
def flushSends (q : RoomQueues) (now : ℤ) : List (ℕ × QueueRow) :=
  sends parse ws (fun item => !(q.pending role now).all reliable && item.raw = []) 0
    (q.pending role now)

/-- What takes effect during the flush. -/
def changes (q : RoomQueues) (now : ℤ) : List MailboxChange :=
  (q.flushSends parse role ws now).flatMap fun send => meanwhile send.1

/-- What the other handlers leave on their own. -/
def settled (q : RoomQueues) (now : ℤ) : RoomQueues :=
  (q.changes parse role ws meanwhile now).foldl (MailboxChange.apply role) q

variable {parse role ws meanwhile}

theorem flushReliableDuring_eq (i : ℕ) (rows : List QueueRow) (q : RoomQueues) :
    flushReliableDuring parse role ws meanwhile i rows q =
      ((sends parse ws (fun _ => false) i rows).flatMap fun send => meanwhile send.1).foldl
        (MailboxChange.apply role) q := by
  induction rows generalizing i q with
  | nil => rfl
  | cons item rest ih =>
    unfold flushReliableDuring sends
    simp only [Bool.false_eq_true, if_false]
    split_ifs
    · rw [List.flatMap_cons, List.foldl_append, ih]
      rfl
    · rw [List.flatMap_cons, List.foldl_append]
      rfl
    · exact ih (i + 1) q

theorem flushMixedDuring_eq (i : ℕ) (rows : List QueueRow) (q : RoomQueues) :
    flushMixedDuring parse role ws meanwhile i rows q =
      (((sends parse ws (fun item => item.raw = []) i rows).flatMap
        fun send => meanwhile send.1).foldl (MailboxChange.apply role) q,
        (flushMixed parse ws i rows).2) := by
  induction rows generalizing i q with
  | nil => rfl
  | cons item rest ih =>
    unfold flushMixedDuring sends flushMixed
    simp only [decide_eq_true_eq]
    split_ifs
    · exact ih (i + 1) q
    · rw [List.flatMap_cons, List.foldl_append, ih]
      rfl
    · rw [List.flatMap_cons, List.foldl_append, ih]
      rfl
    · rw [List.flatMap_cons, List.foldl_append]
      rfl
    · rw [ih]

/-- Without other handlers this is the flush of the storage model. -/
theorem flushDuring_alone (q : RoomQueues) (now : ℤ) :
    q.flushDuring parse role ws (fun _ => []) now = (q.flushTo parse role ws now).1 := by
  have hnothing (l : List (ℕ × QueueRow)) (q : RoomQueues) :
      (l.flatMap fun _ => ([] : List MailboxChange)).foldl (MailboxChange.apply role) q = q := by
    rw [List.flatMap_eq_nil_iff.2 fun _ _ => rfl]
    rfl
  unfold flushDuring flushTo
  simp only [flushReliableDuring_eq, flushMixedDuring_eq, hnothing]
  split_ifs <;> rfl

/-! ## The rows that are written back -/

variable (parse role ws) in
/-- The snapshot that a mixed flush writes back has the row, unless it was delivered for good. -/
def Stays (q : RoomQueues) (now : ℤ) (row : QueueRow) : Prop :=
  row ∈ q.pending role now ∧ row.raw ≠ [] ∨ row ∈ behind parse ws 0 (q.pending role now)

variable (parse ws) in
/-- A row that a flush may not deliver for good. -/
def Owed (row : QueueRow) : Prop :=
  reliable row = true ∨ matchesQueuedRecipient parse row.raw ws.recipientKeyId = false

theorem of_mem_flushMixed {i : ℕ} {rows : List QueueRow} {row : QueueRow}
    (h : row ∈ (flushMixed parse ws i rows).2) :
    row ∈ rows ∧ row.raw ≠ [] ∨ row ∈ behind parse ws i rows := by
  induction rows generalizing i with
  | nil => cases h
  | cons item rest ih =>
    have hlater (h : row ∈ rest ∧ row.raw ≠ [] ∨ row ∈ behind parse ws (i + 1) rest) :
        row ∈ item :: rest ∧ row.raw ≠ [] ∨ row ∈ behind parse ws (i + 1) rest :=
      h.imp_left fun h => ⟨List.mem_cons_of_mem _ h.1, h.2⟩
    unfold flushMixed at h
    unfold behind
    split_ifs at h with hraw hmatch hsend hreliable
    · rw [if_neg (by simp [hraw])]
      exact hlater (ih h)
    · rw [if_neg (by simp [hsend])]
      rcases List.mem_cons.1 h with rfl | h
      · exact .inl ⟨List.mem_cons_self, hraw⟩
      · exact hlater (ih h)
    · rw [if_neg (by simp [hsend])]
      exact hlater (ih h)
    · rw [if_pos ⟨hraw, hmatch, by simpa using hsend⟩]
      rcases List.mem_cons.1 h with rfl | h
      · exact .inl ⟨List.mem_cons_self, hraw⟩
      · exact .inr h
    · rw [if_neg (by simp [hmatch])]
      rcases List.mem_cons.1 h with rfl | h
      · exact .inl ⟨List.mem_cons_self, hraw⟩
      · exact hlater (ih h)

theorem mem_flushMixed_of {i : ℕ} {rows : List QueueRow} {row : QueueRow} (howed : Owed parse ws row)
    (h : row ∈ rows ∧ row.raw ≠ [] ∨ row ∈ behind parse ws i rows) :
    row ∈ (flushMixed parse ws i rows).2 := by
  induction rows generalizing i with
  | nil =>
    rcases h with h | h
    · cases h.1
    · cases h
  | cons item rest ih =>
    unfold behind at h
    unfold flushMixed
    by_cases hstop : item.raw ≠ [] ∧ matchesQueuedRecipient parse item.raw ws.recipientKeyId = true ∧
        ws.accepts i = false
    · rw [if_neg hstop.1, if_pos hstop.2.1, if_neg (by simp [hstop.2.2])]
      rw [if_pos hstop] at h
      exact h.elim (·.1) (List.mem_cons_of_mem _)
    · rw [if_neg hstop] at h
      have hrest (hne : row ≠ item) : row ∈ (flushMixed parse ws (i + 1) rest).2 := by
        refine ih (h.imp_left fun h => ⟨?_, h.2⟩)
        exact (List.mem_cons.1 h.1).resolve_left hne
      have hbehind (hraw : row.raw = []) : row ∈ (flushMixed parse ws (i + 1) rest).2 :=
        ih (.inr (h.resolve_left fun h => h.2 hraw))
      by_cases hraw : item.raw = []
      · rw [if_pos hraw]
        by_cases heq : row = item
        · exact hbehind (heq ▸ hraw)
        · exact hrest heq
      · rw [if_neg hraw]
        by_cases hmatch : matchesQueuedRecipient parse item.raw ws.recipientKeyId = true
        · have hsend : ws.accepts i = true := by
            rw [← Bool.not_eq_false]
            exact fun hsend => hstop ⟨hraw, hmatch, hsend⟩
          rw [if_pos hmatch, if_pos hsend]
          dsimp only
          by_cases heq : row = item
          · -- an owed row that matches is a reliable one
            have hreliable : reliable item = true := by
              rcases howed with howed | howed
              · exact heq ▸ howed
              · rw [heq, hmatch] at howed
                cases howed
            rw [if_pos hreliable, heq]
            exact List.mem_cons_self
          · split_ifs
            · exact List.mem_cons_of_mem _ (hrest heq)
            · exact hrest heq
        · rw [if_neg hmatch]
          dsimp only
          by_cases heq : row = item
          · rw [heq]
            exact List.mem_cons_self
          · exact List.mem_cons_of_mem _ (hrest heq)

/-! ## Legacy rows -/

/-- The rows whose send returned. -/
def delivered (ws : FlushSocket) (sends : List (ℕ × QueueRow)) : List QueueRow :=
  (sends.filter fun send => ws.accepts send.1).map (·.2)

/-- Every legacy row is written back or delivered, not both. -/
theorem count_flushMixed (i : ℕ) (rows : List QueueRow) (raw : Str) :
    (flushMixed parse ws i rows).2.count (.legacy raw) +
        (delivered ws (sends parse ws (fun item => item.raw = []) i rows)).count (.legacy raw) ≤
      rows.count (.legacy raw) := by
  induction rows generalizing i with
  | nil => exact le_rfl
  | cons item rest ih =>
    have hrest := ih (i + 1)
    unfold delivered at hrest ⊢
    unfold flushMixed sends
    simp only [decide_eq_true_eq]
    split_ifs with hraw hmatch hsend hreliable
    · rw [List.count_cons]
      omega
    · have hlegacy : ¬(item == QueueRow.legacy raw) = true := by
        rw [beq_iff_eq]
        rintro rfl
        cases hreliable
      simp only [List.filter_cons, hsend, if_true, List.map_cons, List.count_cons, hlegacy]
      simpa using hrest
    · simp only [List.filter_cons, hsend, if_true, List.map_cons, List.count_cons]
      omega
    · simp [hsend]
    · simp only [List.count_cons]
      omega

/-- The other handlers store no legacy rows. -/
theorem count_apply (change : MailboxChange) (q : RoomQueues) (raw : Str) :
    ((change.apply role q).rows role).count (.legacy raw) ≤ (q.rows role).count (.legacy raw) := by
  cases change with
  | acknowledge deliveryId =>
    rw [MailboxChange.apply, rows_acknowledge, if_pos rfl]
    exact List.filter_sublist.count_le _
  | queue text deliveryId expiresAt now =>
    rw [MailboxChange.apply]
    rcases queue_cases q role text (some deliveryId.text) expiresAt now with ⟨h, -⟩ | ⟨rows, hr, h⟩
    · rw [h]
    · obtain ⟨front, rfl, -⟩ := retainSubmission_stored hr
      rw [h, rows_set, if_pos rfl, Option.getD_some, List.count_append]
      have hfront := ((retainSubmission_front hr).trans List.filter_sublist).count_le
        (QueueRow.legacy raw)
      simpa using hfront

theorem count_foldl_apply (l : List MailboxChange) (q : RoomQueues) (raw : Str) :
    ((l.foldl (MailboxChange.apply role) q).rows role).count (.legacy raw) ≤
      (q.rows role).count (.legacy raw) := by
  induction l generalizing q with
  | nil => exact le_rfl
  | cons change l ih => exact (ih _).trans (count_apply change q raw)

theorem mem_sends {skips : QueueRow → Bool} {i : ℕ} {rows : List QueueRow} {send : ℕ × QueueRow}
    (h : send ∈ sends parse ws skips i rows) : send.2 ∈ rows := by
  induction rows generalizing i with
  | nil => cases h
  | cons item rest ih =>
    unfold sends at h
    split_ifs at h with hskip hmatch hsend
    · exact List.mem_cons_of_mem _ (ih h)
    · rcases List.mem_cons.1 h with rfl | h
      · exact List.mem_cons_self
      · exact List.mem_cons_of_mem _ (ih h)
    · rw [List.mem_singleton.1 h]
      exact List.mem_cons_self
    · exact List.mem_cons_of_mem _ (ih h)

/-! ## What a flush owes the others -/

/-- The flush among the other handlers brings nothing back and loses nothing. What an enqueue
evicts is gone by the enqueue, not by the flush, so the rows that must stay are the settled ones. -/
structure FlushKeeps (parse : Str → Option Json) (role : Role) (ws : FlushSocket)
    (meanwhile : ℕ → List MailboxChange) (q : RoomQueues) (now : ℤ) : Prop where
  /-- An acknowledged row is not stored again. -/
  acknowledged : ∀ deliveryId, .acknowledge deliveryId ∈ q.changes parse role ws meanwhile now →
    ∀ row ∈ (q.flushDuring parse role ws meanwhile now).rows role,
      row.deliveryId = some deliveryId.text → row ∈ (q.settled parse role ws meanwhile now).rows role
  /-- A row that was enqueued meanwhile is still stored. -/
  enqueued : ∀ change ∈ q.changes parse role ws meanwhile now, ∀ row, change.row? = some row →
    row ∈ (q.settled parse role ws meanwhile now).rows role →
      row ∈ (q.flushDuring parse role ws meanwhile now).rows role
  /-- So is every unexpired row that is reliable or does not match the socket. -/
  kept : ∀ row ∈ q.rows role, pendingAt now row = true → Owed parse ws row →
    row ∈ (q.settled parse role ws meanwhile now).rows role →
      row ∈ (q.flushDuring parse role ws meanwhile now).rows role
  /-- Every legacy row that was sent is gone. -/
  sent : ∀ raw, ((q.flushDuring parse role ws meanwhile now).rows role).count (.legacy raw) +
      (delivered ws (q.flushSends parse role ws now)).count (.legacy raw) ≤
    (q.rows role).count (.legacy raw)

/-- The snapshot that is written back has every settled row that the flush owes, and no row that is
acknowledged meanwhile. -/
structure Undisturbed (parse : Str → Option Json) (role : Role) (ws : FlushSocket)
    (meanwhile : ℕ → List MailboxChange) (q : RoomQueues) (now : ℤ) : Prop where
  acknowledged : ∀ deliveryId, .acknowledge deliveryId ∈ q.changes parse role ws meanwhile now →
    ∀ row, q.Stays parse role ws now row → row.deliveryId = some deliveryId.text →
      row ∈ (q.settled parse role ws meanwhile now).rows role
  enqueued : ∀ change ∈ q.changes parse role ws meanwhile now, ∀ row, change.row? = some row →
    row ∈ (q.settled parse role ws meanwhile now).rows role → q.Stays parse role ws now row
  kept : ∀ row ∈ q.pending role now, Owed parse ws row →
    row ∈ (q.settled parse role ws meanwhile now).rows role → q.Stays parse role ws now row

section Outcome

variable {q : RoomQueues} {now : ℤ}

variable (parse ws meanwhile) in
/-- With nothing pending nothing is sent. -/
theorem outcome_none (h : q.pending role now = []) :
    (q.flushDuring parse role ws meanwhile now).rows role = [] ∧
      q.flushSends parse role ws now = [] ∧ q.changes parse role ws meanwhile now = [] := by
  have hsends : q.flushSends parse role ws now = [] := by rw [flushSends, h, sends]
  refine ⟨?_, hsends, by rw [changes, hsends]; rfl⟩
  unfold flushDuring
  rw [pending] at h
  split_ifs with hempty
  · exact hempty
  · dsimp only
    rw [if_pos h, rows_set, if_pos rfl, Option.getD_none]

variable (parse ws meanwhile) in
/-- A flush of reliable rows leaves what the others leave. -/
theorem outcome_reliable (h : q.pending role now ≠ [])
    (hreliable : (q.pending role now).all reliable = true) :
    q.flushDuring parse role ws meanwhile now = q.settled parse role ws meanwhile now := by
  have hrows : q.rows role ≠ [] := fun hnil => h (by rw [pending, hnil, List.filter_nil])
  unfold settled changes flushSends
  rw [hreliable]
  simp only [Bool.not_true, Bool.false_and]
  rw [← flushReliableDuring_eq]
  unfold flushDuring
  rw [if_neg hrows]
  dsimp only
  rw [pending] at h hreliable
  rw [if_neg h, if_pos hreliable]
  rfl

/-- A flush of a mixed mailbox leaves what it computed from its snapshot. -/
theorem outcome_mixed (hmixed : (q.pending role now).all reliable = false) :
    (q.flushDuring parse role ws meanwhile now).rows role =
      (flushMixed parse ws 0 (q.pending role now)).2 := by
  have hpending : q.pending role now ≠ [] := by
    rintro hnil
    rw [hnil] at hmixed
    cases hmixed
  have hrows : q.rows role ≠ [] := fun hnil => hpending (by rw [pending, hnil, List.filter_nil])
  rw [pending] at hpending hmixed ⊢
  unfold flushDuring
  rw [if_neg hrows]
  dsimp only
  rw [if_neg hpending, if_neg (by rw [hmixed]; exact Bool.false_ne_true), flushMixedDuring_eq,
    rows_putOrDelete, if_pos rfl]

theorem flushSends_mixed (hmixed : (q.pending role now).all reliable = false) :
    q.flushSends parse role ws now =
      sends parse ws (fun item => item.raw = []) 0 (q.pending role now) := by
  unfold flushSends
  rw [hmixed]
  simp only [Bool.not_false, Bool.true_and]

theorem mem_outcome_mixed (hmixed : (q.pending role now).all reliable = false) {row : QueueRow}
    (howed : Owed parse ws row) :
    row ∈ (q.flushDuring parse role ws meanwhile now).rows role ↔
      q.Stays parse role ws now row := by
  rw [outcome_mixed hmixed]
  exact ⟨of_mem_flushMixed, mem_flushMixed_of howed⟩

/-- No legacy row is counted twice. -/
theorem sent_outcome (q : RoomQueues) (now : ℤ) (raw : Str) :
    ((q.flushDuring parse role ws meanwhile now).rows role).count (.legacy raw) +
        (delivered ws (q.flushSends parse role ws now)).count (.legacy raw) ≤
      (q.rows role).count (.legacy raw) := by
  by_cases hnone : q.pending role now = []
  · obtain ⟨hrows, hsends, -⟩ := outcome_none parse ws meanwhile hnone
    rw [hrows, hsends]
    exact Nat.zero_le _
  · cases hreliable : (q.pending role now).all reliable with
    | true =>
      have hzero : (delivered ws (q.flushSends parse role ws now)).count (.legacy raw) = 0 := by
        refine List.count_eq_zero_of_not_mem fun hmem => ?_
        obtain ⟨send, hsend, he⟩ := List.mem_map.1 hmem
        have hrow := List.all_eq_true.1 hreliable _ (mem_sends (List.mem_of_mem_filter hsend))
        rw [he] at hrow
        cases hrow
      rw [outcome_reliable parse ws meanwhile hnone hreliable, hzero]
      exact count_foldl_apply _ q raw
    | false =>
      rw [outcome_mixed hreliable, flushSends_mixed hreliable]
      exact (count_flushMixed 0 _ raw).trans (List.filter_sublist.count_le _)

end Outcome

/-- An acknowledged or enqueued row is reliable. -/
theorem reliable_of_deliveryId {row : QueueRow} {deliveryId : DeliveryId}
    (h : row.deliveryId = some deliveryId.text) : reliable row = true := by
  cases row with
  | legacy raw => cases h
  | frame row =>
    have hid : row.deliveryId = some deliveryId.text := h
    simp [reliable, identified, hid, deliveryId.nonempty]

end RoomQueues

open RoomQueues

/-- **A flush keeps its promise** to the handlers that run among its sends exactly when every
unexpired row is reliable, or the snapshot it writes back is not out of date. -/
theorem flush_keeps_iff (parse : Str → Option Json) (role : Role) (ws : FlushSocket)
    (meanwhile : ℕ → List MailboxChange) (q : RoomQueues) (now : ℤ) :
    FlushKeeps parse role ws meanwhile q now ↔
      (q.pending role now).all reliable = true ∨ Undisturbed parse role ws meanwhile q now := by
  cases hreliable : (q.pending role now).all reliable with
  | true =>
    refine iff_of_true ?_ (.inl rfl)
    by_cases hnone : q.pending role now = []
    · obtain ⟨hrows, hsends, hchanges⟩ := outcome_none parse ws meanwhile hnone
      refine ⟨?_, ?_, ?_, sent_outcome q now⟩
      · intro deliveryId hchange
        rw [hchanges] at hchange
        cases hchange
      · intro change hchange
        rw [hchanges] at hchange
        cases hchange
      · intro row hrow hpending
        have hmem : row ∈ q.pending role now := List.mem_filter.2 ⟨hrow, hpending⟩
        rw [hnone] at hmem
        cases hmem
    · have houtcome := outcome_reliable parse ws meanwhile hnone hreliable
      refine ⟨?_, ?_, ?_, sent_outcome q now⟩
      · intro deliveryId hchange row hrow hid
        rwa [houtcome] at hrow
      · intro change hchange row hrow hsettled
        rwa [houtcome]
      · intro row hrow hpending howed hsettled
        rwa [houtcome]
  | false =>
    rw [or_iff_right Bool.false_ne_true]
    constructor
    · intro h
      refine ⟨fun deliveryId hchange row hstays hid => ?_, fun change hchange row hrow hsettled => ?_,
        fun row hrow howed hsettled => ?_⟩
      · refine h.acknowledged deliveryId hchange row ?_ hid
        exact (mem_outcome_mixed hreliable (.inl (reliable_of_deliveryId hid))).2 hstays
      · exact (mem_outcome_mixed hreliable (.inl (MailboxChange.reliable_of_row? hrow))).1
          (h.enqueued change hchange row hrow hsettled)
      · obtain ⟨hmem, hpending⟩ := List.mem_filter.1 hrow
        exact (mem_outcome_mixed hreliable howed).1 (h.kept row hmem hpending howed hsettled)
    · intro h
      refine ⟨fun deliveryId hchange row hrow hid => ?_, fun change hchange row hrow hsettled => ?_,
        fun row hrow hpending howed hsettled => ?_, sent_outcome q now⟩
      · refine h.acknowledged deliveryId hchange row ?_ hid
        exact (mem_outcome_mixed hreliable (.inl (reliable_of_deliveryId hid))).1 hrow
      · exact (mem_outcome_mixed hreliable (.inl (MailboxChange.reliable_of_row? hrow))).2
          (h.enqueued change hchange row hrow hsettled)
      · exact (mem_outcome_mixed hreliable howed).2
          (h.kept row (List.mem_filter.2 ⟨hrow, hpending⟩) howed hsettled)

/-! ### A row that comes back -/

section Sample

/-- A text of an older relay, and a reply. -/
def mixedMailbox : RoomQueues :=
  ⟨none, some [.legacy (lit "old"), .frame ⟨lit "reply", none, some sampleDeliveryId.text, none,
    some 5000⟩]⟩

/-- A phone without a key, whose sends return. -/
def openPhone : FlushSocket := ⟨none, fun _ => true⟩

/-- The reply is acknowledged while the text is sent. -/
def acknowledgedFirst : ℕ → List MailboxChange
  | 0 => [.acknowledge sampleDeliveryId]
  | _ => []

/-- The reply was acknowledged while the old text was sent, and is stored again. -/
theorem flush_resurrects :
    ¬FlushKeeps (fun _ => none) .phone openPhone acknowledgedFirst mixedMailbox 1000 := by
  intro h
  have hchanges : mixedMailbox.changes (fun _ => none) .phone openPhone acknowledgedFirst 1000 =
      [.acknowledge sampleDeliveryId] := rfl
  have hstored := h.acknowledged sampleDeliveryId (hchanges ▸ List.mem_cons_self)
    (.frame ⟨lit "reply", none, some sampleDeliveryId.text, none, some 5000⟩) (by decide) rfl
  exact absurd hstored (by decide)

end Sample

end GrantTap
