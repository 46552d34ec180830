import GrantTapRelay.Node.Store
import GrantTapRelay.Relay.RoomQueue

/-!
# The two mailboxes agree

`RelayStore.enqueue` and `GrantTapRoom.queue`, `acknowledge` of both, and the reads (`queue` of the
Node store, `flushTo` of a Worker room) as steps of one machine. The rows of the runtimes differ in
`queuedAt` only, which the Worker does not write, and the Worker keeps expired rows until its next
store. `Agree` relates what both hold at a time; `MailStep.agree` is the step lemma, and
`mailboxes_agree` the run.

Both message handlers offer a frame to a mailbox only when its delivery id is a nonempty text
(`DeliveryId`).
-/

namespace GrantTap

open Js Retention

/-- A delivery id that the handlers offer to a mailbox. -/
structure DeliveryId where
  text : Str
  nonempty : text ≠ []

/-- A step on one mailbox. -/
inductive MailStep
  | enqueue (raw : Str) (deliveryId : DeliveryId) (expiresAt : Option ℤ)
  | acknowledge (deliveryId : DeliveryId)
  /-- A flush to some socket. -/
  | read (socket : FlushSocket)

namespace MailStep

/-- A step on the mailbox of a role of a room on Node, and what an enqueue returns. -/
def node (s : RelayStore) (room : Str) (role : Role) (now : ℤ) :
    MailStep → RelayStore × Option QueueResult
  | enqueue raw deliveryId expiresAt =>
    let r := s.enqueue room role raw (some deliveryId.text) expiresAt now
    (r.1, some r.2)
  | acknowledge deliveryId => (s.acknowledge room role deliveryId.text now, none)
  | read _ => ((s.queue room role now).1, none)

/-- The step on the mailbox of the role in a Worker room. -/
def worker (parse : Str → Option Json) (q : RoomQueues) (role : Role) (now : ℤ) :
    MailStep → RoomQueues × Option QueueResult
  | enqueue raw deliveryId expiresAt =>
    let r := q.queue role raw (some deliveryId.text) expiresAt now
    (r.1, some r.2)
  | acknowledge deliveryId => (q.acknowledge role deliveryId.text, none)
  | read socket => ((q.flushTo parse role socket now).1, none)

/-- The step stores no explicit submission for a computer. -/
def Transient (role : Role) : MailStep → Prop
  | enqueue _ deliveryId _ => role = .machine → isDurableSubmission (some deliveryId.text) = false
  | _ => True

theorem transient_phone (step : MailStep) : step.Transient .phone := by
  cases step with
  | enqueue => exact fun hrole => nomatch hrole
  | acknowledge | read => trivial

/-- The steps of a run, with what they return. -/
def nodeRun (room : Str) (role : Role) :
    RelayStore → List (ℤ × MailStep) → RelayStore × List (Option QueueResult)
  | s, [] => (s, [])
  | s, (now, step) :: rest =>
    let r := step.node s room role now
    let (s, results) := nodeRun room role r.1 rest
    (s, r.2 :: results)

def workerRun (parse : Str → Option Json) (role : Role) :
    RoomQueues → List (ℤ × MailStep) → RoomQueues × List (Option QueueResult)
  | q, [] => (q, [])
  | q, (now, step) :: rest =>
    let r := step.worker parse q role now
    let (q, results) := workerRun parse role r.1 rest
    (q, r.2 :: results)

end MailStep

/-! ## What both hold -/

/-- A row as the Worker writes it. -/
def QueueRow.unstamped : QueueRow → QueueRow
  | legacy raw => .legacy raw
  | frame row => .frame { row with queuedAt := none }

namespace QueueRow

@[simp] theorem unstamped_deliveryId (row : QueueRow) :
    row.unstamped.deliveryId = row.deliveryId := by cases row <;> rfl

@[simp] theorem unstamped_expiresAt (row : QueueRow) :
    row.unstamped.expiresAt = row.expiresAt := by cases row <;> rfl

@[simp] theorem unstamped_raw (row : QueueRow) : row.unstamped.raw = row.raw := by
  cases row <;> rfl

@[simp] theorem rowBytes_unstamped (row : QueueRow) : rowBytes row.unstamped = rowBytes row := by
  cases row <;> rfl

@[simp] theorem live_unstamped (now : ℤ) (row : QueueRow) :
    RelayStore.live now row.unstamped = RelayStore.live now row := by
  simp only [RelayStore.live, unstamped_expiresAt]

/-- What a reader of a mailbox sees of a row. -/
def held (row : QueueRow) : Option Str × Str × Option ℤ := (row.deliveryId, row.raw, row.expiresAt)

theorem held_unstamped (row : QueueRow) : row.unstamped.held = row.held := by simp [held]

end QueueRow

/-- The retention policy looks at the sizes and the delivery ids of the rows only. -/
theorem retainLoop_map {f : QueueRow → QueueRow} (hbytes : ∀ row, rowBytes (f row) = rowBytes row)
    (hid : ∀ row, (f row).deliveryId = row.deliveryId) (maxCount maxBytes fuel : ℕ)
    (rows : List QueueRow) (bytes : ℕ) :
    retainLoop maxCount maxBytes fuel (rows.map f) bytes =
      (retainLoop maxCount maxBytes fuel rows bytes).map (List.map f) := by
  induction fuel generalizing rows bytes with
  | zero => rfl
  | succ fuel ih =>
    have hindex : (rows.map f).findIdx? (fun row => !isDurableSubmission row.deliveryId) =
        rows.findIdx? fun row => !isDurableSubmission row.deliveryId := by
      rw [List.findIdx?_map]
      exact congrArg (List.findIdx? · rows) (funext fun row => by rw [Function.comp, hid])
    rw [retainLoop, retainLoop, List.length_map, hindex]
    split_ifs
    · cases rows.findIdx? fun row => !isDurableSubmission row.deliveryId with
      | none => rfl
      | some i =>
        have hrow : (rows.map f)[i]?.elim 0 rowBytes = rows[i]?.elim 0 rowBytes := by
          rw [List.getElem?_map]
          cases rows[i]? with
          | none => rfl
          | some row => exact hbytes row
        dsimp only
        split_ifs
        · rfl
        · rw [List.eraseIdx_map, hrow, ih]
    · rfl

theorem retainSubmission_map {f : QueueRow → QueueRow}
    (hbytes : ∀ row, rowBytes (f row) = rowBytes row)
    (hid : ∀ row, (f row).deliveryId = row.deliveryId) (queue : List QueueRow)
    (incoming : QueueRow) (maxCount maxBytes : ℕ) :
    retainSubmission (queue.map f) (f incoming) maxCount maxBytes =
      ((retainSubmission queue incoming maxCount maxBytes).1,
        (retainSubmission queue incoming maxCount maxBytes).2.map f) := by
  have hrows : queue.map f ++ [f incoming] = (queue ++ [incoming]).map f := by simp
  have hsum : ((queue ++ [incoming]).map f).map rowBytes = (queue ++ [incoming]).map rowBytes := by
    rw [List.map_map]
    exact List.map_congr_left fun row _ => hbytes row
  unfold retainSubmission
  dsimp only
  rw [hrows, hsum, List.length_map, retainLoop_map hbytes hid]
  cases retainLoop maxCount maxBytes (queue ++ [incoming]).length (queue ++ [incoming])
      ((queue ++ [incoming]).map rowBytes).sum with
  | none => rfl
  | some kept => rfl

/-! ## Agreement -/

/-- A row that a Worker stored for a delivery id. -/
def Timed (row : QueueRow) : Prop := row.expiresAt.isSome = true ∧ RoomQueues.reliable row = true

/-- At `now` both mailboxes hold the same unexpired rows. -/
structure Agree (room : Str) (role : Role) (now : ℤ) (s : RelayStore) (q : RoomQueues) : Prop where
  exists_room : (s.get? room).isSome
  rows : ((s.rows room role).filter (RelayStore.live now)).map QueueRow.unstamped =
    (q.rows role).filter (RelayStore.live now)
  timed : ∀ row ∈ q.rows role, Timed row

namespace Agree

variable {room : Str} {role : Role} {now now' : ℤ} {s : RelayStore} {q : RoomQueues}

/-- Rows only expire. -/
theorem live_filter (h : now ≤ now') (rows : List QueueRow) :
    (rows.filter (RelayStore.live now)).filter (RelayStore.live now') =
      rows.filter (RelayStore.live now') := by
  rw [List.filter_filter]
  refine List.filter_congr fun row _ => ?_
  unfold RelayStore.live
  cases row.expiresAt with
  | none => rfl
  | some t =>
    simp only [decide_eq_decide, ← Bool.decide_and]
    omega

theorem filter_map_unstamped (p : QueueRow → Bool) (hp : ∀ row, p row.unstamped = p row)
    (rows : List QueueRow) :
    (rows.map QueueRow.unstamped).filter p = (rows.filter p).map QueueRow.unstamped := by
  rw [List.filter_map]
  exact congrArg _ (List.filter_congr fun row _ => hp row)

theorem later (h : Agree room role now s q) (hle : now ≤ now') : Agree room role now' s q where
  exists_room := h.exists_room
  rows := by
    rw [← live_filter hle, ← live_filter hle (q.rows role), ← h.rows,
      filter_map_unstamped _ (QueueRow.live_unstamped now')]
  timed := h.timed

/-- On rows with an expiry both runtimes read the clock alike. -/
theorem unexpired_eq (h : Agree room role now s q) (now' : ℤ) :
    (q.rows role).filter (RoomQueues.unexpired now') =
      (q.rows role).filter (RelayStore.live now') := by
  refine List.filter_congr fun row hrow => ?_
  obtain ⟨t, ht⟩ := Option.isSome_iff_exists.1 (h.timed row hrow).1
  simp only [RoomQueues.unexpired, RelayStore.live, ht, Option.getD_some]

/-- What both hold, as a reader sees it. -/
theorem held (h : Agree room role now s q) :
    ((s.rows room role).filter (RelayStore.live now)).map QueueRow.held =
      ((q.rows role).filter (RoomQueues.unexpired now)).map QueueRow.held := by
  rw [h.unexpired_eq, ← h.rows, List.map_map]
  exact List.map_congr_left fun row _ => (QueueRow.held_unstamped row).symm

end Agree

/-! ## The steps -/

section Steps

variable {room : Str} {role : Role} {now : ℤ} {s : RelayStore} {q : RoomQueues}

/-- Outside the explicit submissions of a computer the limits are those of the Worker. -/
theorem submissionRetentionLimits_transient {deliveryId : Option Str}
    (h : role = .machine → isDurableSubmission deliveryId = false) :
    submissionRetentionLimits role deliveryId = ⟨MAX_QUEUE_BYTES, MAX_QUEUE_BYTES⟩ := by
  unfold submissionRetentionLimits
  rw [if_neg]
  · rfl
  · rintro ⟨hrole, hdurable⟩
    rw [h hrole] at hdurable
    exact Bool.false_ne_true hdurable

theorem unstamped_newFrame (raw : Str) (deliveryId : Option Str) (expiresAt : Option ℤ) (now : ℤ) :
    (QueueRow.frame (RelayStore.newFrame raw deliveryId expiresAt now)).unstamped =
      .frame (RoomQueues.newFrame raw deliveryId expiresAt now) := rfl

/-- A read of the Node store keeps the agreement. -/
theorem Agree.queue (h : Agree room role now s q) :
    Agree room role now (s.queue room role now).1 q where
  exists_room := by rw [RelayStore.isSome_queue]; exact h.exists_room
  rows := by
    rw [RelayStore.rows_queue, if_pos ⟨rfl, rfl⟩, List.filter_filter, ← h.rows]
    simp only [Bool.and_self]
  timed := h.timed

theorem agree_enqueue (h : Agree room role now s q) (raw : Str) (deliveryId : DeliveryId)
    (expiresAt : Option ℤ)
    (ht : role = .machine → isDurableSubmission (some deliveryId.text) = false) :
    (s.enqueue room role raw (some deliveryId.text) expiresAt now).2 =
        (q.queue role raw (some deliveryId.text) expiresAt now).2 ∧
      Agree room role now (s.enqueue room role raw (some deliveryId.text) expiresAt now).1
        (q.queue role raw (some deliveryId.text) expiresAt now).1 := by
  have hidentified : RoomQueues.identified (some deliveryId.text) = true := by
    simp [RoomQueues.identified, deliveryId.nonempty]
  have hany : (s.queue room role now).2.any (fun item => item.deliveryId = some deliveryId.text) =
      ((q.rows role).filter (RelayStore.live now)).any
        fun item => item.deliveryId = some deliveryId.text := by
    rw [RelayStore.snd_queue, ← h.rows, List.any_map]
    simp [Function.comp_def]
  have hretain := retainSubmission_map QueueRow.rowBytes_unstamped QueueRow.unstamped_deliveryId
    (s.queue room role now).2 (.frame (RelayStore.newFrame raw (some deliveryId.text) expiresAt now))
    HOLD_LIMIT MAX_QUEUE_BYTES
  rw [unstamped_newFrame, RelayStore.snd_queue, h.rows] at hretain
  have hroom : ¬(s.get? room).isNone = true := by
    rw [Option.isNone_iff_eq_none]
    exact Option.isSome_iff_ne_none.1 h.exists_room
  unfold RelayStore.enqueue RoomQueues.queue
  dsimp only
  rw [submissionRetentionLimits_transient ht, hidentified, Bool.true_and, h.unexpired_eq, hany,
    hretain, RelayStore.snd_queue, if_neg hroom]
  split_ifs with hsize hexpired hdup
  · exact ⟨rfl, h⟩
  · exact ⟨rfl, h⟩
  · exact ⟨rfl, h.queue⟩
  · rcases retainSubmission_cases ((s.rows room role).filter (RelayStore.live now))
      (.frame (RelayStore.newFrame raw (some deliveryId.text) expiresAt now)) HOLD_LIMIT
      MAX_QUEUE_BYTES with hr | ⟨rows, hr⟩
    · rw [hr]
      exact ⟨rfl, h.queue⟩
    · rw [hr]
      refine ⟨rfl, ?_, ?_, ?_⟩
      · rw [RelayStore.isSome_writeQueue]
        exact h.queue.exists_room
      · rw [RelayStore.rows_writeQueue _ _ _ _ h.queue.exists_room, if_pos ⟨rfl, rfl⟩,
          RoomQueues.rows_set, if_pos rfl, Option.getD_some,
          Agree.filter_map_unstamped _ (QueueRow.live_unstamped now)]
      · intro row hrow
        rw [RoomQueues.rows_set, if_pos rfl, Option.getD_some] at hrow
        obtain ⟨front, rfl, -⟩ := retainSubmission_stored hr
        rw [List.map_append, List.mem_append] at hrow
        rcases hrow with hrow | hrow
        · have hold : row ∈ (q.rows role).filter (RelayStore.live now) := by
            rw [← h.rows]
            exact ((retainSubmission_front hr).map QueueRow.unstamped).subset hrow
          exact h.timed row (List.mem_of_mem_filter hold)
        · obtain rfl := List.mem_singleton.1 hrow
          exact ⟨rfl, hidentified⟩

theorem agree_acknowledge (h : Agree room role now s q) (deliveryId : Str) :
    Agree room role now (s.acknowledge room role deliveryId now) (q.acknowledge role deliveryId) := by
  refine ⟨?_, ?_, fun row hrow => ?_⟩
  · unfold RelayStore.acknowledge
    dsimp only
    split_ifs
    · rw [RelayStore.isSome_writeQueue]
      exact h.queue.exists_room
    · exact h.queue.exists_room
  · have hcomm : ((q.rows role).filter fun item => item.deliveryId ≠ some deliveryId).filter
        (RelayStore.live now) = ((q.rows role).filter (RelayStore.live now)).filter
          fun item => item.deliveryId ≠ some deliveryId := by
      rw [List.filter_filter, List.filter_filter]
      exact List.filter_congr fun row _ => Bool.and_comm _ _
    have hlive : ((((s.rows room role).filter (RelayStore.live now)).filter
        fun item => item.deliveryId ≠ some deliveryId).filter (RelayStore.live now)) =
          ((s.rows room role).filter (RelayStore.live now)).filter
            fun item => item.deliveryId ≠ some deliveryId := by
      refine List.filter_eq_self.2 fun row hrow => ?_
      exact (List.mem_filter.1 (List.mem_of_mem_filter hrow)).2
    rw [RelayStore.rows_acknowledge, if_pos ⟨rfl, rfl⟩, RoomQueues.rows_acknowledge, if_pos rfl,
      hlive, hcomm, ← h.rows, Agree.filter_map_unstamped _ fun row => by
        rw [QueueRow.unstamped_deliveryId]]
  · rw [RoomQueues.rows_acknowledge, if_pos rfl] at hrow
    exact h.timed row (List.mem_of_mem_filter hrow)

/-- A flush of rows that a Worker stored for delivery ids rewrites none of them. -/
theorem agree_flush (h : Agree room role now s q) (parse : Str → Option Json)
    (socket : FlushSocket) : Agree room role now s (q.flushTo parse role socket now).1 := by
  have hpending : (q.rows role).filter (RoomQueues.pendingAt now) =
      (q.rows role).filter (RelayStore.live now) := by
    refine List.filter_congr fun row hrow => ?_
    obtain ⟨t, ht⟩ := Option.isSome_iff_exists.1 (h.timed row hrow).1
    cases row with
    | legacy raw => cases ht
    | frame row =>
      have hrow : row.expiresAt = some t := ht
      simp only [RoomQueues.pendingAt, RelayStore.live, QueueRow.expiresAt, hrow, Option.any_some]
  unfold RoomQueues.flushTo
  dsimp only
  split_ifs with hempty hnone hreliable
  · exact h
  · refine ⟨h.exists_room, ?_, ?_⟩
    · rw [h.rows, ← hpending, hnone, RoomQueues.rows_set, if_pos rfl]
      rfl
    · intro row hrow
      rw [RoomQueues.rows_set, if_pos rfl] at hrow
      exact absurd hrow List.not_mem_nil
  · exact h
  · refine absurd (List.all_eq_true.2 fun row hrow => ?_) hreliable
    exact (h.timed row (List.mem_of_mem_filter hrow)).2

end Steps

/-- **One step** of both: the same answer, and the same rows. -/
theorem MailStep.agree {room : Str} {role : Role} {now : ℤ} {s : RelayStore} {q : RoomQueues}
    (h : Agree room role now s q) (parse : Str → Option Json) (step : MailStep)
    (ht : step.Transient role) :
    (step.node s room role now).2 = (step.worker parse q role now).2 ∧
      Agree room role now (step.node s room role now).1 (step.worker parse q role now).1 := by
  cases step with
  | enqueue raw deliveryId expiresAt =>
    obtain ⟨hresult, hagree⟩ := agree_enqueue h raw deliveryId expiresAt ht
    exact ⟨congrArg some hresult, hagree⟩
  | acknowledge deliveryId => exact ⟨rfl, agree_acknowledge h deliveryId.text⟩
  | read socket => exact ⟨rfl, agree_flush h.queue parse socket⟩

/-- **A run** of both. -/
theorem MailStep.run_agree {room : Str} {role : Role} (parse : Str → Option Json)
    (steps : List (ℤ × MailStep)) (hsorted : (steps.map (·.1)).Pairwise (· ≤ ·))
    (ht : ∀ step ∈ steps, step.2.Transient role) (now : ℤ) (hnow : ∀ step ∈ steps, now ≤ step.1)
    (later : ℤ) (hlater : now ≤ later) (hlast : ∀ step ∈ steps, step.1 ≤ later) {s : RelayStore}
    {q : RoomQueues} (h : Agree room role now s q) :
    (nodeRun room role s steps).2 = (workerRun parse role q steps).2 ∧
      Agree room role later (nodeRun room role s steps).1 (workerRun parse role q steps).1 := by
  induction steps generalizing now s q with
  | nil => exact ⟨rfl, h.later hlater⟩
  | cons step rest ih =>
    obtain ⟨time, step⟩ := step
    rw [List.map_cons, List.pairwise_cons] at hsorted
    have hfirst := MailStep.agree (h.later (hnow _ List.mem_cons_self)) parse step
      (ht _ List.mem_cons_self)
    have hrest := ih hsorted.2 (fun x hx => ht x (List.mem_cons_of_mem _ hx)) time
      (fun x hx => hsorted.1 _ (List.mem_map_of_mem hx)) (hlast _ List.mem_cons_self)
      (fun x hx => hlast x (List.mem_cons_of_mem _ hx)) hfirst.2
    exact ⟨congrArg₂ List.cons hfirst.1 hrest.1, hrest.2⟩

/-- Some time is after every step. -/
theorem exists_late (steps : List (ℤ × MailStep)) : ∃ last, ∀ x ∈ steps, x.1 ≤ last := by
  induction steps with
  | nil => exact ⟨0, by simp⟩
  | cons step rest ih =>
    obtain ⟨last, hlast⟩ := ih
    refine ⟨max step.1 last, fun x hx => ?_⟩
    rcases List.mem_cons.1 hx with rfl | hx
    · exact le_max_left _ _
    · exact (hlast x hx).trans (le_max_right _ _)

/-- **The two mailboxes agree**: on the mailbox of an existing room that starts empty, the steps
of a run return the same on both runtimes, and from the last step on both hold the same unexpired
rows in the same order. -/
theorem mailboxes_agree (parse : Str → Option Json) (room : Str) (role : Role) (s : RelayStore)
    (q : RoomQueues) (hroom : (s.get? room).isSome) (hs : s.rows room role = [])
    (hq : q.rows role = []) (steps : List (ℤ × MailStep))
    (hsorted : (steps.map (·.1)).Pairwise (· ≤ ·)) (ht : ∀ step ∈ steps, step.2.Transient role) :
    (MailStep.nodeRun room role s steps).2 = (MailStep.workerRun parse role q steps).2 ∧
      ∀ now, (∀ step ∈ steps, step.1 ≤ now) →
        (((MailStep.nodeRun room role s steps).1.rows room role).filter
            (RelayStore.live now)).map QueueRow.held =
          (((MailStep.workerRun parse role q steps).1.rows role).filter
            (RoomQueues.unexpired now)).map QueueRow.held := by
  have hstart (now : ℤ) : Agree room role now s q :=
    ⟨hroom, by rw [hs, hq]; rfl, fun row hrow => absurd hrow (hq ▸ List.not_mem_nil)⟩
  cases steps with
  | nil => exact ⟨rfl, fun now _ => (hstart now).held⟩
  | cons step rest =>
    have hfirst : ∀ x ∈ step :: rest, step.1 ≤ x.1 := by
      rw [List.map_cons, List.pairwise_cons] at hsorted
      rintro x (_ | ⟨_, hx⟩)
      · exact le_rfl
      · exact hsorted.1 _ (List.mem_map_of_mem hx)
    have hrun (now : ℤ) (hnow : ∀ x ∈ step :: rest, x.1 ≤ now) :=
      MailStep.run_agree parse (step :: rest) hsorted ht step.1 hfirst now
        (hnow step List.mem_cons_self) hnow (hstart step.1)
    obtain ⟨last, hlast⟩ := exists_late (step :: rest)
    exact ⟨(hrun last hlast).1, fun now hnow => (hrun now hnow).2.held⟩

/-! ### A run with a duplicate, a full frame and an expiry -/

section Sample

/-- A store with one room, whose mailboxes are empty. -/
def sampleStore : RelayStore := Table.empty.put (lit "room") ⟨none, [], [], [], 0⟩

def sampleDeliveryId : DeliveryId := ⟨lit "reply-1", by decide⟩

/-- A frame, the same frame again, and once more at the instant at which it expires. -/
def sampleSteps : List (ℤ × MailStep) :=
  [(1000, .enqueue (lit "first") sampleDeliveryId (some 2000)),
    (1999, .enqueue (lit "second") sampleDeliveryId none),
    (2000, .enqueue (lit "third") sampleDeliveryId none),
    (3000, .acknowledge sampleDeliveryId)]

theorem mailboxes_agree_sample :
    (MailStep.nodeRun (lit "room") .phone sampleStore sampleSteps).2 =
        [some .stored, some .duplicate, some .stored, none] ∧
      (MailStep.nodeRun (lit "room") .phone sampleStore sampleSteps).2 =
        (MailStep.workerRun (fun _ => none) .phone .empty sampleSteps).2 :=
  ⟨by decide +kernel, (mailboxes_agree _ (lit "room") .phone sampleStore .empty (by decide +kernel)
    (by decide +kernel) rfl sampleSteps (by decide) fun step _ => step.2.transient_phone).1⟩

end Sample

end GrantTap
