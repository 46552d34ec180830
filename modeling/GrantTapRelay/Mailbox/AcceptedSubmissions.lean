import GrantTapRelay.Node.Store
import GrantTapRelay.Relay.RoomQueue

/-!
# Accepted submissions are never lost

The two mailboxes as machines over their operations: enqueues of any frame, acknowledgements and
reads or flushes, each with a clock reading. A stored explicit submission is protected: every
operation other than its acknowledgement, at a time before its expiry, keeps it
(`NodeStep.keeps`, `WorkerStep.keeps`), hence so does every sequence of such operations. The row
keeps its text and its place: the rows before it were before it, the others were enqueued later.
-/

namespace GrantTap

open Js Retention

/-! ## The Node mailboxes -/

/-- An operation on a mailbox of the Node store. -/
inductive NodeMailOp
  | queue
  | enqueue (raw : Str) (deliveryId : Option Str) (expiresAt : Option ℤ)
  | acknowledge (deliveryId : Str)

/-- An operation on the mailbox of a role of a room, at a time. -/
structure NodeStep where
  room : Str
  role : Role
  now : ℤ
  op : NodeMailOp

namespace NodeStep

/-- The store after an operation. -/
def apply (s : RelayStore) : NodeStep → RelayStore
  | ⟨room, role, now, .queue⟩ => (s.queue room role now).1
  | ⟨room, role, now, .enqueue raw deliveryId expiresAt⟩ =>
    (s.enqueue room role raw deliveryId expiresAt now).1
  | ⟨room, role, now, .acknowledge deliveryId⟩ => s.acknowledge room role deliveryId now

/-- The operation acknowledges `deliveryId` in the mailbox of `role` in `room`. -/
def Acknowledges (o : NodeStep) (room : Str) (role : Role) (deliveryId : Str) : Prop :=
  o.room = room ∧ o.role = role ∧ o.op = .acknowledge deliveryId

/-- A read keeps every row that has not expired. -/
theorem keeps_live {s : RelayStore} {room : Str} {role : Role} {row : Frame} {expiry now : ℤ}
    (hrow : row.expiresAt = some expiry) (hnow : now < expiry) :
    Keeps (fun x => decide (x = QueueRow.frame row)) (s.rows room role)
      ((s.rows room role).filter (RelayStore.live now)) := by
  refine Keeps.filter fun x _ hx => ?_
  rw [decide_eq_true_eq] at hx
  subst hx
  simp [RelayStore.live, QueueRow.expiresAt, hrow, hnow]

/-- One operation keeps an explicit submission that it does not acknowledge and that has not
expired. -/
theorem keeps {s : RelayStore} {o : NodeStep} {room : Str} {role : Role} {row : Frame} {id : Str}
    {expiry : ℤ} (hid : row.deliveryId = some id) (hdur : isDurableSubmission (some id) = true)
    (hrow : row.expiresAt = some expiry) (hnow : o.now < expiry)
    (hack : ¬ o.Acknowledges room role id) :
    Keeps (fun x => decide (x = QueueRow.frame row)) (s.rows room role)
      ((o.apply s).rows room role) := by
  obtain ⟨oroom, orole, now, op⟩ := o
  have hread : Keeps (fun x => decide (x = QueueRow.frame row)) (s.rows room role)
      ((s.queue oroom orole now).1.rows room role) := by
    rw [RelayStore.rows_queue]
    split_ifs with h
    · rw [h.1, h.2]
      exact keeps_live hrow hnow
    · exact .refl _
  cases op with
  | queue => exact hread
  | enqueue raw deliveryId expiresAt =>
    rcases s.enqueue_cases oroom orole raw deliveryId expiresAt now with ⟨h, -⟩ | ⟨h, -⟩ | ⟨rows, hret, -, h⟩
    · rw [apply, h]
      exact .refl _
    · rw [apply, h]
      exact hread
    · rw [apply, h]
      split_ifs with hmail
      · obtain ⟨front, rfl, hkeep⟩ := retainSubmission_stored hret
        rw [hmail.1, hmail.2]
        refine (keeps_live hrow hnow).trans ((hkeep.mono fun x hx => ?_).trans (.append front _))
        rw [decide_eq_true_eq] at hx
        subst hx
        simpa [QueueRow.durable, QueueRow.deliveryId, hid] using hdur
      · exact .refl _
  | acknowledge deliveryId =>
    rw [apply, RelayStore.rows_acknowledge]
    split_ifs with h
    · have hne : deliveryId ≠ id := fun e => hack ⟨h.1.symm, h.2.symm, by rw [e]⟩
      rw [h.1, h.2]
      refine (keeps_live hrow hnow).trans (Keeps.filter fun x _ hx => ?_)
      rw [decide_eq_true_eq] at hx
      subst hx
      simp [QueueRow.deliveryId, hid, Ne.symm hne]
    · exact .refl _

/-- A sequence of such operations keeps it. -/
theorem foldl_keeps {room : Str} {role : Role} {row : Frame} {id : Str} {expiry : ℤ}
    (hid : row.deliveryId = some id) (hdur : isDurableSubmission (some id) = true)
    (hrow : row.expiresAt = some expiry) :
    ∀ (later : List NodeStep) (s : RelayStore), (∀ o ∈ later, o.now < expiry) →
      (∀ o ∈ later, ¬ o.Acknowledges room role id) →
      Keeps (fun x => decide (x = QueueRow.frame row)) (s.rows room role)
        ((later.foldl apply s).rows room role)
  | [], _, _, _ => .refl _
  | o :: later, s, hnow, hack =>
    (keeps hid hdur hrow (hnow o (by simp)) (hack o (by simp))).trans
      (foldl_keeps hid hdur hrow later _ (fun o h => hnow o (by simp [h]))
        fun o h => hack o (by simp [h]))

end NodeStep

/-! ## The Worker mailboxes -/

/-- An operation on a mailbox of a Worker room. -/
inductive WorkerMailOp
  | queue (raw : Str) (deliveryId : Option Str) (expiresAt : Option ℤ)
  | acknowledge (deliveryId : Str)
  | flushTo (ws : FlushSocket)

/-- An operation on the mailbox of a role, at a time. -/
structure WorkerStep where
  role : Role
  now : ℤ
  op : WorkerMailOp

namespace WorkerStep

variable (parse : Str → Option Json)

/-- The mailboxes after an operation. -/
def apply (q : RoomQueues) : WorkerStep → RoomQueues
  | ⟨role, now, .queue raw deliveryId expiresAt⟩ => (q.queue role raw deliveryId expiresAt now).1
  | ⟨role, _, .acknowledge deliveryId⟩ => q.acknowledge role deliveryId
  | ⟨role, now, .flushTo ws⟩ => (q.flushTo parse role ws now).1

/-- The operation acknowledges `deliveryId` in the mailbox of `role`. -/
def Acknowledges (o : WorkerStep) (role : Role) (deliveryId : Str) : Prop :=
  o.role = role ∧ o.op = .acknowledge deliveryId

/-- One operation keeps an explicit submission that it does not acknowledge and that has not
expired. -/
theorem keeps {q : RoomQueues} {o : WorkerStep} {role : Role} {row : Frame} {id : Str}
    {expiry : ℤ} (hid : row.deliveryId = some id) (hdur : isDurableSubmission (some id) = true)
    (hraw : row.raw ≠ []) (hrow : row.expiresAt = some expiry) (hnow : o.now < expiry)
    (hack : ¬ o.Acknowledges role id) :
    Keeps (fun x => decide (x = QueueRow.frame row)) (q.rows role)
      ((o.apply parse q).rows role) := by
  obtain ⟨orole, now, op⟩ := o
  cases op with
  | queue raw deliveryId expiresAt =>
    rcases q.queue_cases orole raw deliveryId expiresAt now with ⟨h, -⟩ | ⟨rows, hret, h⟩
    · rw [apply, h]
      exact .refl _
    · rw [apply, h, RoomQueues.rows_set]
      split_ifs with hrole
      · obtain ⟨front, rfl, hkeep⟩ := retainSubmission_stored hret
        rw [hrole, Option.getD_some]
        have hlive : Keeps (fun x => decide (x = QueueRow.frame row)) (q.rows orole)
            ((q.rows orole).filter (RoomQueues.unexpired now)) := by
          refine Keeps.filter fun x _ hx => ?_
          rw [decide_eq_true_eq] at hx
          subst hx
          simpa [RoomQueues.unexpired, QueueRow.expiresAt, hrow] using hnow
        refine hlive.trans ((hkeep.mono fun x hx => ?_).trans (.append front _))
        rw [decide_eq_true_eq] at hx
        subst hx
        simpa [QueueRow.durable, QueueRow.deliveryId, hid] using hdur
      · exact .refl _
  | acknowledge deliveryId =>
    rw [apply, RoomQueues.rows_acknowledge]
    split_ifs with hrole
    · have hne : deliveryId ≠ id := fun e => hack ⟨hrole.symm, by rw [e]⟩
      rw [hrole]
      refine Keeps.filter fun x _ hx => ?_
      rw [decide_eq_true_eq] at hx
      subst hx
      simp [QueueRow.deliveryId, hid, Ne.symm hne]
    · exact .refl _
  | flushTo ws =>
    refine (q.rows_flushTo parse orole ws now role).mono fun x hx => ?_
    rw [decide_eq_true_eq] at hx
    subst hx
    have hne : id ≠ [] := by
      rintro rfl
      exact absurd hdur (by decide)
    simp [RoomQueues.guarded, RoomQueues.reliable, RoomQueues.identified, RoomQueues.pendingAt,
      QueueRow.raw, hid, hraw, hrow, hne, hnow]

/-- A sequence of such operations keeps it. -/
theorem foldl_keeps {role : Role} {row : Frame} {id : Str} {expiry : ℤ}
    (hid : row.deliveryId = some id) (hdur : isDurableSubmission (some id) = true)
    (hraw : row.raw ≠ []) (hrow : row.expiresAt = some expiry) :
    ∀ (later : List WorkerStep) (q : RoomQueues), (∀ o ∈ later, o.now < expiry) →
      (∀ o ∈ later, ¬ o.Acknowledges role id) →
      Keeps (fun x => decide (x = QueueRow.frame row)) (q.rows role)
        ((later.foldl (apply parse) q).rows role)
  | [], _, _, _ => .refl _
  | o :: later, q, hnow, hack =>
    (keeps parse hid hdur hraw hrow (hnow o (by simp)) (hack o (by simp))).trans
      (foldl_keeps hid hdur hraw hrow later _ (fun o h => hnow o (by simp [h]))
        fun o h => hack o (by simp [h]))

end WorkerStep

/-! ## The guarantee -/

end GrantTap
