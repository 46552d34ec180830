import GrantTapRelay.Room.Alarm
import GrantTapRelay.TaskDispatch.OrderlyRooms

/-!
# The alarm of a Worker room comes in time

The one alarm of a Durable Object covers the deadlines of four stores: `Guarded` says that it is
set, and not after any of them. Whatever adds a deadline, or moves one earlier, ends in
`scheduleRoomTaskAlarm`, with one exception: `putDirectoryEndpoint` sets the alarm to the first
expiry of an endpoint before it finds that there is no place, and the handler of a refused request
does not schedule (`Undercut`).

* `guardedAt_schedule`: after `scheduleRoomTaskAlarm` the alarm covers every deadline.
* `Kept.step`: a step that does not undercut keeps the alarm in time.
* `alarm_in_time`: **in every run without such a step** the room wakes for every deadline.
-/

namespace GrantTap

open Js Runs

/-! ## The directory -/

namespace EndpointStorage

theorem firstExpiry_covers {rows : List (Str × SealedRow)} {r : Str × SealedRow} (hr : r ∈ rows) :
    Covers (firstExpiry rows) r.2.expiresAt := by
  have hfold : ∀ (rows : List (Str × SealedRow)) (next : Option ℤ),
      let last := rows.foldl (fun next r => some (min (next.getD r.2.expiresAt) r.2.expiresAt)) next
      (∀ d, Covers next d → Covers last d) ∧ ∀ r ∈ rows, Covers last r.2.expiresAt := by
    intro rows
    induction rows with
    | nil => exact fun next => ⟨fun d h => h, fun r hr => absurd hr List.not_mem_nil⟩
    | cons r rows ih =>
      intro next
      obtain ⟨hkept, hrows⟩ := ih (some (min (next.getD r.2.expiresAt) r.2.expiresAt))
      refine ⟨fun d h => hkept d ?_, fun r' hr' => ?_⟩
      · obtain ⟨time, rfl, hle⟩ := h
        exact covers_some.2 ((min_le_left _ _).trans hle)
      · rcases List.mem_cons.1 hr' with rfl | hr'
        · exact hkept _ (covers_some.2 (min_le_right _ _))
        · exact hrows r' hr'
  exact (hfold rows none).2 r hr

/-- The alarm is that of a row. -/
theorem firstExpiry_eq_some {rows : List (Str × SealedRow)} {time : ℤ}
    (h : firstExpiry rows = some time) : ∃ r ∈ rows, r.2.expiresAt = time := by
  have hfold : ∀ (rows : List (Str × SealedRow)) (next : Option ℤ),
      rows.foldl (fun next r => some (min (next.getD r.2.expiresAt) r.2.expiresAt)) next =
          some time → next = some time ∨ ∃ r ∈ rows, r.2.expiresAt = time := by
    intro rows
    induction rows with
    | nil => exact fun next h => .inl h
    | cons r rows ih =>
      intro next h
      rcases ih _ h with h | ⟨r', hr', hexpiry⟩
      · have hmin : min (next.getD r.2.expiresAt) r.2.expiresAt = time := Option.some_inj.1 h
        rcases min_choice (next.getD r.2.expiresAt) r.2.expiresAt with hchoice | hchoice
        · rw [hchoice] at hmin
          cases next with
          | none => exact .inr ⟨r, List.mem_cons_self, hmin⟩
          | some first => exact .inl (congrArg some hmin)
        · exact .inr ⟨r, List.mem_cons_self, hchoice.symm.trans hmin⟩
      · exact .inr ⟨r', List.mem_cons_of_mem _ hr', hexpiry⟩
  exact (hfold rows none h).resolve_left (by simp)

/-- What a request leaves of a directory: anything when it answers 200; fewer rows under the same
alarm when it is refused; and when there is no place, the rows that have not expired, under the
first of their expiries. -/
inductive Left (s : EndpointStorage) (q : EndpointRequest) :
    Except Throw EndpointReply × EndpointStorage → Prop
  | done (body : EndpointBody) (s' : EndpointStorage) : Left s q (.ok ⟨200, body⟩, s')
  | calm (reply : EndpointReply) (s' : EndpointStorage) (hstatus : 300 ≤ reply.status)
      (hplace : reply.status ≠ 409) (halarm : s'.alarm = s.alarm)
      (hrows : ∀ key row, s'.rows.get? key = some row → s.rows.get? key = some row) :
    Left s q (.ok reply, s')
  | full : Left s q (.ok (.error 409 "endpoint capacity"), s.purgeEndpointDirectory q.actedAt)

theorem left_handleEndpoint (s : EndpointStorage) (q : EndpointRequest) :
    Left s q (GrantTap.handleEndpoint store s q) := by
  have refused (status : ℕ) (text : String) (h : 300 ≤ status ∧ status ≠ 409) :
      Left s q (.ok (.error status text), s) := .calm _ s h.1 h.2 rfl fun _ _ h => h
  unfold GrantTap.handleEndpoint
  split
  · exact refused _ _ (by decide)
  · rename_i key hkey
    unfold endpointResponse
    split
    · split
      · exact refused _ _ (by decide)
      · rename_i record hrecord
        split_ifs
        · exact refused _ _ (by decide)
        · rw [show store.put s key record q.actedAt =
            .ok (s.putDirectoryEndpoint key record q.actedAt) from rfl]
          unfold putDirectoryEndpoint
          dsimp only
          split_ifs
          · exact .full
          · exact .done _ _
    · split_ifs
      · exact refused _ _ (by decide)
      · exact .done _ _
    · split_ifs
      · exact refused _ _ (by decide)
      · rw [show store.get s key q.actedAt = (s.rows.get? key, s) from rfl]
        cases s.rows.get? key with
        | none => exact refused _ _ (by decide)
        | some row =>
          dsimp only
          split_ifs
          · exact .done _ _
          · refine .calm _ _ (by decide) (by decide) rfl fun key' row' hrow => ?_
            change (s.rows.erase key).get? key' = some row' at hrow
            rw [Table.get?_erase] at hrow
            split_ifs at hrow
            exact hrow
    · exact refused _ _ (by decide)

end EndpointStorage

/-! ## Deadlines -/

namespace AlarmedRoom

variable {cfg : AlarmConfig} {s s' : AlarmedRoom} {r : AlarmReadings} {now now' t d : ℤ}

/-- What the room must wake for at `now` besides the endpoints. -/
inductive Owed (s : AlarmedRoom) (now : ℤ) : ℤ → Prop
  | configuration (k : RoomKey) (row : Configuration)
      (hrow : s.tasks.1.registry.configurations.get? k = some row) : Owed s now row.expiresAt
  | job (k : RoomKey) (row : Job) (d : ℤ) (hrow : s.tasks.1.jobs.get? k = some row)
      (hdue : WorkerTasks.dueBy (some s.connected) now row = some d) : Owed s now d
  | wake (d : ℤ) (hwake : WakeRecord.nextWake s.wake = some d) : Owed s now d

/-- What the room must wake for at `now`. -/
inductive Deadline (s : AlarmedRoom) (now : ℤ) : ℤ → Prop
  | endpoint (key : Str) (row : SealedRow) (hrow : s.directory.rows.get? key = some row) :
    Deadline s now row.expiresAt
  | owed (d : ℤ) (h : s.Owed now d) : Deadline s now d

/-- From `t` on, the alarm is set for every deadline. -/
def GuardedAt (s : AlarmedRoom) (t : ℤ) : Prop :=
  ∀ now d, t ≤ now → s.Deadline now d → Covers s.alarm d

/-- The alarm is set for every deadline. -/
def Guarded (s : AlarmedRoom) : Prop := s.GuardedAt s.clock

theorem Owed.later (h : s.Owed now' d) (hle : now ≤ now') : ∃ d', s.Owed now d' ∧ d' ≤ d := by
  cases h with
  | configuration k row hrow => exact ⟨_, .configuration k row hrow, le_rfl⟩
  | job k row d hrow hdue =>
    obtain ⟨d', hd', hle'⟩ := WorkerTasks.dueBy_later hle hdue
    exact ⟨d', .job k row d' hrow hd', hle'⟩
  | wake d hwake => exact ⟨d, .wake d hwake, le_rfl⟩

/-- Between `s` and `s'` at most expiries were settled, rows and wakes went away and recipients
left. -/
structure Calmer (s s' : AlarmedRoom) (t : ℤ) : Prop where
  jobs : ∀ now, t ≤ now → s'.tasks.1.view now = s.tasks.1.view now
  configurations : s'.tasks.1.registry.configurations.rows.Sublist
    s.tasks.1.registry.configurations.rows
  wake : ∀ d, WakeRecord.nextWake s'.wake = some d → WakeRecord.nextWake s.wake = some d
  connected : ∀ key ∈ s'.connected, key ∈ s.connected

/-- **What is owed then** was owed before, or something earlier was. -/
theorem Owed.calm (h : s'.Owed now d) (hcalm : s.Calmer s' t) (hle : t ≤ now) :
    ∃ d', s.Owed now d' ∧ d' ≤ d := by
  cases h with
  | configuration k row hrow =>
    have hmem := hcalm.configurations.subset (Table.mem_rows.2 hrow)
    exact ⟨_, .configuration k row (Table.mem_rows.1 hmem), le_rfl⟩
  | job k row d hrow hdue =>
    have hview := congrArg (fun t : Table RoomKey Job => t.get? k) (hcalm.jobs now hle)
    rw [WorkerTasks.get?_view, WorkerTasks.get?_view, hrow, Option.map_some] at hview
    obtain ⟨row', hrow', hsame⟩ := Option.map_eq_some_iff.1 hview.symm
    have hdue' : WorkerTasks.dueBy (some s'.connected) now row' = some d := by
      unfold WorkerTasks.dueBy at hdue ⊢
      rw [← hdue]
      exact congr_record (fun row => WorkerTasks.deadline_record row) hsame
    obtain ⟨d', hd', hle'⟩ := WorkerTasks.dueBy_fewer hcalm.connected hdue'
    exact ⟨d', .job k row' d' hrow' hd', hle'⟩
  | wake d hwake => exact ⟨d, .wake d (hcalm.wake d hwake), le_rfl⟩

/-- **Nothing is scheduled**, and nothing needs to be. -/
theorem GuardedAt.calm (h : s.GuardedAt t) (hcalm : s.Calmer s' t) (halarm : s'.alarm = s.alarm)
    (hrows : ∀ key row, s'.directory.rows.get? key = some row →
      s.directory.rows.get? key = some row) : s'.GuardedAt t := by
  intro now d hnow hd
  rw [halarm]
  cases hd with
  | endpoint key row hrow => exact h now _ hnow (.endpoint key row (hrows key row hrow))
  | owed d howed =>
    obtain ⟨d', hd', hle⟩ := howed.calm hcalm hnow
    exact (h now d' hnow (.owed d' hd')).mono hle

theorem Calmer.refl_sockets (htasks : s'.tasks = s.tasks) (hwake : s'.wake = s.wake)
    (hconnected : ∀ key ∈ s'.connected, key ∈ s.connected) : s.Calmer s' t where
  jobs := fun now _ => by rw [htasks]
  configurations := by rw [htasks]
  wake := fun d h => by rwa [hwake] at h
  connected := hconnected

/-! ## The parts of the handlers -/

/-- The task storage of the room is in order. -/
def Ordered (cfg : AlarmConfig) (s : AlarmedRoom) : Prop := s.tasks.1.Orderly cfg.sha256 cfg.room

/-- What `scheduleRoomTaskAlarm` leaves when `maintain` does not throw. -/
theorem schedule_eq {next : Option ℤ} {t : { s : WorkerTasks // s.Named }}
    (h : (WorkerTasks.store cfg.sha256).call s.tasks r.maintainedAt (.clean (some s.connected)) =
      (.ok (.deadline next), t)) :
    s.scheduleRoomTaskAlarm cfg r =
      { s with
        directory := ⟨(s.directory.purgeEndpointDirectory r.purgedAt).rows,
          WorkerTasks.earlier (WorkerTasks.earlier
            (s.directory.purgeEndpointDirectory r.purgedAt).alarm next)
              (WakeRecord.nextWake s.wake)⟩
        tasks := t } := by
  have hpurged : (WorkerTasks.store cfg.sha256).call s.tasks r.maintainedAt (.clean (some
      ({ s with directory := s.directory.purgeEndpointDirectory r.purgedAt } :
        AlarmedRoom).connected)) = (.ok (.deadline next), t) := h
  unfold scheduleRoomTaskAlarm
  dsimp only
  rw [hpurged]
  rfl

/-- **The schedule** keeps the room in order and sets the alarm in time. -/
theorem guardedAt_schedule (h : s.Ordered cfg) (r : AlarmReadings) :
    (s.scheduleRoomTaskAlarm cfg r).Ordered cfg ∧
      (s.scheduleRoomTaskAlarm cfg r).GuardedAt r.maintainedAt := by
  obtain ⟨next, t, hmaintain⟩ := WorkerTasks.Orderly.maintain_ok h (some s.connected) r.maintainedAt
  have hcall : s.tasks.1.call cfg.sha256 r.maintainedAt (.clean (some s.connected)) =
      (.ok (.deadline next), t) :=
    congrArg (s.tasks.1.whole TaskAnswer.deadline) hmaintain
  have hordered : t.Orderly cfg.sha256 cfg.room := by
    have hclean := WorkerTasks.Orderly.call (c := .clean (some s.connected)) h r.maintainedAt
      (by simp)
    rw [hcall] at hclean
    refine hclean ?_
    dsimp only
    rw [WorkerTasks.registry_maintain hmaintain]
    exact h.tidy.maintainWorker.1
  rw [schedule_eq (WorkerTasks.store_call hcall hordered.named)]
  refine ⟨hordered, fun now d hnow hd => ?_⟩
  have covered {d : ℤ} (h : Covers (s.directory.purgeEndpointDirectory r.purgedAt).alarm d ∨
      Covers next d ∨ Covers (WakeRecord.nextWake s.wake) d) :
      Covers (WorkerTasks.earlier (WorkerTasks.earlier
        (s.directory.purgeEndpointDirectory r.purgedAt).alarm next)
          (WakeRecord.nextWake s.wake)) d := by
    rw [WorkerTasks.covers_earlier, WorkerTasks.covers_earlier, or_assoc]
    exact h
  cases hd with
  | endpoint key row hrow =>
    exact covered (.inl (EndpointStorage.firstExpiry_covers (Table.mem_rows.2 hrow)))
  | owed d howed =>
    obtain ⟨d', hd', hle⟩ := howed.later hnow
    refine Covers.mono (covered (.inr ?_)) hle
    cases hd' with
    | configuration k row hrow =>
      exact .inl (WorkerTasks.maintain_covers_configuration hmaintain h.tidy hrow)
    | job k row d' hrow hdue => exact .inl (WorkerTasks.maintain_covers h.named hmaintain hrow hdue)
    | wake d' hwake => exact .inr ⟨d', hwake, le_rfl⟩

/-- The offers to one socket do not throw; the socket keeps its role. -/
theorem offerSocket_ok (peer : RoomSocket) {tasks : { s : WorkerTasks // s.Named }} (now : ℤ)
    (send : PublicJob → Bool) (h : tasks.1.Orderly cfg.sha256 cfg.room) :
    (offerSocket cfg peer tasks now send).1 = true ∧
      (offerSocket cfg peer tasks now send).2.2.1.Orderly cfg.sha256 cfg.room := by
  unfold offerSocket
  split_ifs
  · exact ⟨rfl, h⟩
  · split
    · exact ⟨rfl, h⟩
    · exact ⟨rfl, h⟩
    · rename_i unit units hkey
      dsimp only
      obtain ⟨jobs, hjobs⟩ := h.due_ok (unit :: units) now (dropLapsed peer.offered now).ids
      have hcall : tasks.1.call cfg.sha256 now
          (.due cfg.room (unit :: units) (dropLapsed peer.offered now).ids) =
            (.ok (.jobs jobs), (tasks.1.due cfg.sha256 cfg.room (unit :: units) now
              (dropLapsed peer.offered now).ids).2) :=
        congrArg (fun answer => (Except.map TaskAnswer.jobs answer, _)) hjobs
      have hkept := h.call_of_ne_clean now
        (c := .due cfg.room (unit :: units) (dropLapsed peer.offered now).ids) (by simp) (by simp)
      rw [hcall] at hkept
      rw [WorkerTasks.store_call hcall hkept.named]
      exact ⟨rfl, hkept⟩

/-- **The offers** do not throw, and keep the room in order. -/
theorem offerSockets_ok (r : AlarmReadings) (sockets : List RoomSocket) (i : ℕ)
    {tasks : { s : WorkerTasks // s.Named }} (h : tasks.1.Orderly cfg.sha256 cfg.room) :
    (offerSockets cfg r i sockets tasks).1 = true ∧
      (offerSockets cfg r i sockets tasks).2.2.1.Orderly cfg.sha256 cfg.room := by
  induction sockets generalizing i tasks with
  | nil => exact ⟨rfl, h⟩
  | cons peer peers ih =>
    obtain ⟨hok, hkept⟩ := offerSocket_ok peer (r.offeredAt i) (r.sends i) h
    unfold offerSockets
    generalize offerSocket cfg peer tasks (r.offeredAt i) (r.sends i) = offer at hok hkept
    obtain ⟨ok, peer', tasks'⟩ := offer
    obtain rfl : ok = true := hok
    exact ih (i + 1) hkept

/-- The offers and the schedule. -/
theorem guardedAt_offerAndSchedule (h : s.Ordered cfg) (r : AlarmReadings) :
    (s.offerAndSchedule cfg r).Ordered cfg ∧
      (s.offerAndSchedule cfg r).GuardedAt r.maintainedAt := by
  obtain ⟨hok, hkept⟩ := offerSockets_ok r s.sockets 0 h
  unfold offerAndSchedule
  generalize offerSockets cfg r 0 s.sockets s.tasks = offers at hok hkept
  obtain ⟨ok, sockets, tasks⟩ := offers
  obtain rfl : ok = true := hok
  exact guardedAt_schedule (s := { s with sockets := sockets, tasks := tasks }) hkept r

/-! ## Steps -/

/-- The room is in order, and its alarm is set in time from `t` on. -/
structure Kept (cfg : AlarmConfig) (t : ℤ) (s : AlarmedRoom) : Prop where
  ordered : s.Ordered cfg
  guarded : s.GuardedAt t

/-- A `PUT` that finds no place moves the alarm to the first expiry of an endpoint; something is
owed before it. -/
def Undercut (s : AlarmedRoom) (l : AlarmEvent × AlarmReadings) : Prop :=
  ∃ q, l.1 = .endpoint q ∧
    (GrantTap.handleEndpoint EndpointStorage.store s.directory q).1 =
      .ok (.error 409 "endpoint capacity") ∧
    ∃ d, s.Owed l.2.maintainedAt d ∧
      ∀ key row, s.directory.rows.get? key = some row → q.actedAt < row.expiresAt →
        d < row.expiresAt

theorem GuardedAt.mono (h : s.GuardedAt t) {t' : ℤ} (hle : t ≤ t') : s.GuardedAt t' :=
  fun now d hnow hd => h now d (hle.trans hnow) hd

theorem Kept.schedule (h : s.Ordered cfg) (r : AlarmReadings) :
    Kept cfg r.maintainedAt (s.scheduleRoomTaskAlarm cfg r) :=
  ⟨(guardedAt_schedule h r).1, (guardedAt_schedule h r).2⟩

theorem Kept.offerAndSchedule (h : s.Ordered cfg) (r : AlarmReadings) :
    Kept cfg r.maintainedAt (s.offerAndSchedule cfg r) :=
  ⟨(guardedAt_offerAndSchedule h r).1, (guardedAt_offerAndSchedule h r).2⟩

/-- A request for an endpoint. -/
theorem Kept.handleEndpoint (h : Kept cfg r.maintainedAt s) (q : EndpointRequest)
    (hplace : ¬s.Undercut (.endpoint q, r)) :
    Kept cfg r.maintainedAt (s.handleEndpoint cfg q r) := by
  have hleft := EndpointStorage.left_handleEndpoint s.directory q
  unfold AlarmedRoom.handleEndpoint
  unfold Undercut at hplace
  generalize hp : GrantTap.handleEndpoint EndpointStorage.store s.directory q = p at hleft
  cases hleft with
  | done body s' => exact .schedule (s := { s with directory := s' }) h.ordered r
  | calm reply s' hstatus _ halarm hrows =>
    dsimp only
    rw [if_neg (by omega)]
    exact ⟨h.ordered, h.guarded.calm (.refl_sockets rfl rfl fun _ h => h) halarm hrows⟩
  | full =>
    dsimp only
    rw [if_neg (by decide)]
    refine ⟨h.ordered, fun now d hnow hd => ?_⟩
    cases hd with
    | endpoint key row hrow => exact EndpointStorage.firstExpiry_covers (Table.mem_rows.2 hrow)
    | owed d howed =>
      obtain ⟨d₁, hd₁, hle₁⟩ := howed.later hnow
      obtain ⟨d', hd', hle'⟩ := hd₁.calm (s := s) (.refl_sockets rfl rfl fun _ h => h) le_rfl
      have hle := hle'.trans hle₁
      by_contra hcovers
      refine hplace ⟨q, rfl, by rw [hp], d', hd', fun key row hrow hlive => ?_⟩
      by_contra hlate
      refine hcovers (Covers.mono (d := row.expiresAt) ?_ ((not_lt.1 hlate).trans hle))
      refine EndpointStorage.firstExpiry_covers (r := (key, row)) (Table.mem_rows.2 ?_)
      rw [Table.get?_filter, hrow, Option.filter_some, if_pos (decide_eq_true hlive)]

/-- A request for tasks. -/
theorem Kept.handleRoomTaskDispatch (h : Kept cfg r.maintainedAt s) {q : TaskRequest}
    (hroom : q.room = some (.str cfg.room)) (hlooked : q.existingAt ≤ q.actedAt)
    (hdone : q.actedAt ≤ r.maintainedAt) :
    Kept cfg r.maintainedAt (s.handleRoomTaskDispatch cfg q r) := by
  have hordered := WorkerTasks.Orderly.response cfg.toNumber h.ordered hroom
  have hquiet (now : ℤ) (hquiet : WorkerTasks.Quiet q
      ((workerBackend cfg.sha256 cfg.toNumber).taskDispatchResponse s.tasks q).1)
      (hlater : q.actedAt ≤ now) :=
    WorkerTasks.response_quiet cfg.toNumber s.tasks hroom hlooked hquiet hlater
  unfold AlarmedRoom.handleRoomTaskDispatch
  generalize (workerBackend cfg.sha256 cfg.toNumber).taskDispatchResponse s.tasks q = p
    at hordered hquiet
  obtain ⟨answer, tasks⟩ := p
  have calm (hrest : WorkerTasks.Quiet q answer) :
      Kept cfg r.maintainedAt { s with tasks := tasks } := by
    refine ⟨hordered, h.guarded.calm ⟨fun now hnow => ?_, ?_, fun d h => h, fun key h => h⟩ rfl
      fun key row h => h⟩
    · exact (hquiet now hrest (hdone.trans hnow)).1
    · exact (hquiet r.maintainedAt hrest hdone).2
  cases answer with
  | error e => exact calm (.inr fun reply h => by cases h)
  | ok reply =>
    obtain ⟨status, body⟩ := reply
    dsimp only
    split_ifs with hwrite hput
    · exact .offerAndSchedule (s := { s with tasks := tasks }) hordered r
    · exact .schedule (s := { s with tasks := tasks }) hordered r
    · refine calm ?_
      by_cases hm : q.method = .GET
      · exact .inl hm
      · refine .inr fun reply h => ?_
        cases h
        exact Nat.not_lt.1 fun hok => hwrite ⟨hok, hm⟩

/-- The sockets that take task jobs after a change of the list. -/
theorem connected_of_mem {sockets : List RoomSocket}
    (h : ∀ peer ∈ sockets, peer.dispatches = true →
      ∃ peer' ∈ s.sockets, peer'.dispatches = true ∧ peer'.recipientKeyId = peer.recipientKeyId) :
    ∀ key ∈ ({ s with sockets := sockets } : AlarmedRoom).connected, key ∈ s.connected := by
  intro key hkey
  obtain ⟨peer, hpeer, rfl⟩ := List.mem_map.1 hkey
  obtain ⟨hmem, hdispatches⟩ := List.mem_filter.1 hpeer
  obtain ⟨peer', hmem', hdispatches', hsame⟩ := h peer hmem hdispatches
  exact List.mem_map.2 ⟨peer', List.mem_filter.2 ⟨hmem', hdispatches'⟩, hsame⟩

/-- Sockets that take no task jobs come, and others go. -/
theorem Kept.sockets (h : Kept cfg t s) {sockets : List RoomSocket}
    (hsockets : ∀ peer ∈ sockets, peer.dispatches = true →
      ∃ peer' ∈ s.sockets, peer'.dispatches = true ∧ peer'.recipientKeyId = peer.recipientKeyId) :
    Kept cfg t { s with sockets := sockets } :=
  ⟨h.ordered, h.guarded.calm (.refl_sockets rfl rfl (connected_of_mem hsockets)) rfl
    fun _ _ h => h⟩

theorem Kept.register (h : Kept cfg r.maintainedAt s) (i : ℕ) (role : Role) :
    Kept cfg r.maintainedAt (s.register cfg i role r) := by
  unfold AlarmedRoom.register
  split
  · exact h
  · rename_i peer hpeer
    dsimp only
    split_ifs with hrole hmachine
    · exact h
    · exact .offerAndSchedule
        (s := { s with sockets := s.sockets.set i { peer with role := some role } }) h.ordered r
    · refine h.sockets fun peer' hmem hdispatches => ?_
      rcases List.mem_or_eq_of_mem_set hmem with hmem | rfl
      · exact ⟨peer', hmem, hdispatches, rfl⟩
      · simp only [RoomSocket.dispatches, Bool.and_eq_true, decide_eq_true_eq,
          Option.some.injEq] at hdispatches
        exact absurd hdispatches hmachine

theorem Kept.requestWake (h : Kept cfg r.maintainedAt s) (envelope : Json) (now dueAt : ℤ)
    (sent : Bool) : Kept cfg r.maintainedAt (s.requestWake cfg envelope now dueAt sent r) := by
  unfold AlarmedRoom.requestWake
  dsimp only
  split_ifs with hnext
  · exact .schedule
      (s := { s with wake := WakeRecord.request cfg.sha256 s.wake envelope now dueAt sent })
      h.ordered r
  · refine ⟨h.ordered, h.guarded.calm ⟨fun _ _ => rfl, List.Sublist.refl _, fun d hd => ?_,
      fun _ h => h⟩ rfl fun _ _ h => h⟩
    rw [hd] at hnext
    exact absurd rfl hnext

theorem Kept.withClock (h : Kept cfg t s) (clock : ℤ) : Kept cfg t { s with clock := clock } :=
  ⟨h.ordered, h.guarded.calm (.refl_sockets rfl rfl fun _ h => h) rfl fun _ _ h => h⟩

/-- The clock does not go back. -/
theorem Step.clock_le {l : AlarmEvent × AlarmReadings} (h : Step cfg s l s') :
    s.clock ≤ l.2.maintainedAt := by
  obtain ⟨hallowed, hafter, -⟩ := h
  have hdone := hafter.purged.trans hafter.maintained
  obtain ⟨e, r⟩ := l
  refine le_trans ?_ hdone
  cases e with
  | endpoint q =>
    obtain ⟨-, hclock, htimely⟩ := hallowed
    refine hclock.trans ?_
    unfold EndpointRequest.Timely at htimely
    unfold AlarmEvent.done EndpointRequest.finish
    dsimp only
    cases hm : q.method <;> simp only [hm] at htimely ⊢ <;> first | exact htimely | exact le_rfl
  | tasks q => exact hallowed.2.1.trans hallowed.2.2
  | wake envelope requestedAt dueAt sent => exact hallowed.1.trans hallowed.2
  | alarm firedAt sent => exact hallowed.1
  | connect | register | leave | restart => exact le_rfl

/-- **A step** that does not undercut keeps the alarm in time. -/
theorem Kept.step {l : AlarmEvent × AlarmReadings} (h : Kept cfg s.clock s)
    (hstep : Step cfg s l s') (hcut : ¬s.Undercut l) : Kept cfg s'.clock s' := by
  have hlater : Kept cfg l.2.maintainedAt s := ⟨h.ordered, h.guarded.mono hstep.clock_le⟩
  obtain ⟨e, r⟩ := l
  obtain ⟨hallowed, hafter, rfl⟩ := hstep
  have hdone := hafter.purged.trans hafter.maintained
  refine Kept.withClock ?_ _
  cases e with
  | endpoint q => exact hlater.handleEndpoint q hcut
  | tasks q => exact hlater.handleRoomTaskDispatch hallowed.1 hallowed.2.2 hdone
  | connect peer =>
    refine hlater.sockets fun peer' hmem hdispatches => ?_
    rcases List.mem_append.1 hmem with hmem | hmem
    · exact ⟨peer', hmem, hdispatches, rfl⟩
    · obtain rfl := List.mem_singleton.1 hmem
      have hrole : peer'.role = none := hallowed
      simp [RoomSocket.dispatches, hrole] at hdispatches
  | register i role => exact hlater.register i role
  | leave i =>
    exact hlater.sockets fun peer hmem hdispatches =>
      ⟨peer, (List.eraseIdx_sublist _ _).subset hmem, hdispatches, rfl⟩
  | wake envelope requestedAt dueAt sent => exact hlater.requestWake envelope requestedAt dueAt sent
  | alarm firedAt sent =>
    exact .offerAndSchedule
      (s := { s.setAlarm none with wake := WakeRecord.sendDue s.wake firedAt sent }) h.ordered r
  | restart =>
    refine hlater.sockets fun peer hmem hdispatches => ?_
    obtain ⟨peer', hmem', rfl⟩ := List.mem_map.1 hmem
    exact ⟨peer', hmem', hdispatches, rfl⟩

/-- A step that undercuts leaves something that the alarm does not cover. -/
theorem not_guarded_of_undercut {l : AlarmEvent × AlarmReadings} (hstep : Step cfg s l s')
    (hcut : s.Undercut l) : ¬s'.Guarded := by
  obtain ⟨q, hq, hfull, d, howed, hlate⟩ := hcut
  obtain ⟨-, -, rfl⟩ := hstep
  obtain ⟨e, r⟩ := l
  obtain rfl : e = .endpoint q := hq
  have hnext : s.next cfg (.endpoint q) r =
      { s with
        directory := s.directory.purgeEndpointDirectory q.actedAt
        clock := r.maintainedAt } := by
    have hleft := EndpointStorage.left_handleEndpoint s.directory q
    unfold next AlarmedRoom.handleEndpoint
    dsimp only at hfull ⊢
    generalize GrantTap.handleEndpoint EndpointStorage.store s.directory q = p at hleft hfull ⊢
    cases hleft with
    | done body s' => cases hfull
    | calm reply s' _ hplace =>
      cases hfull
      exact absurd rfl hplace
    | full =>
      dsimp only
      rw [if_neg (by decide)]
  rw [hnext]
  intro hguarded
  obtain ⟨d', hd', hle⟩ := howed.calm (s := { s with
    directory := s.directory.purgeEndpointDirectory q.actedAt
    clock := r.maintainedAt }) (.refl_sockets rfl rfl fun _ h => h) le_rfl
  obtain ⟨time, halarm, htime⟩ := hguarded r.maintainedAt d' le_rfl (.owed d' hd')
  obtain ⟨row, hrow, rfl⟩ := EndpointStorage.firstExpiry_eq_some halarm
  obtain ⟨hmem, hlive⟩ := List.mem_filter.1 hrow
  have hlast := hlate row.1 row.2 (Table.mem_rows.1 hmem) (of_decide_eq_true hlive)
  exact absurd (htime.trans hle) (not_le.2 hlast)

/-- **The alarm of a Worker room comes in time.** In every run of a room without a step that
undercuts, an alarm is set whenever something is due at some time from the present on, and it is not
later; after every step that undercuts, it is later than something, or not set. -/
theorem alarm_in_time (cfg : AlarmConfig) (clock : ℤ) :
    (∀ (ls : List (AlarmEvent × AlarmReadings)) (s : AlarmedRoom),
      Run (fun s l s' => Step cfg s l s' ∧ ¬s.Undercut l) (start clock) ls s → s.Guarded) ∧
    ∀ (s s' : AlarmedRoom) (l : AlarmEvent × AlarmReadings),
      Step cfg s l s' → s.Undercut l → ¬s'.Guarded := by
  refine ⟨fun ls s hrun => ?_, fun s s' l hstep hcut => not_guarded_of_undercut hstep hcut⟩
  have hkept : Kept cfg s.clock s := hrun.invariant (I := fun s => Kept cfg s.clock s)
    (fun s l s' h hstep => h.step hstep.1 hstep.2) ?_
  · exact hkept.guarded
  · refine ⟨WorkerTasks.orderly_empty _ _, fun now d _ hd => ?_⟩
    cases hd with
    | endpoint key row hrow => cases hrow
    | owed d howed =>
      cases howed with
      | configuration k row hrow => cases hrow
      | job k row d hrow => cases hrow
      | wake d hwake => cases hwake

section Sample

def sampleAlarmConfig : AlarmConfig := ⟨sampleEndpointRoom, id, fun _ => none⟩

/-- The rest of a handler takes no time. -/
def instant (t : ℤ) : AlarmReadings := ⟨fun _ => t, fun _ _ => true, t, t⟩

def sampleWakeEnvelope : Json := .obj
  [(lit "senderId", .str (lit "phone")), (lit "deliveryId", .str (lit "delivery")),
    (lit "expiresAt", .num (.finite 600 0))]

/-- An endpoint that expires at 1000, a wake whose push fails, and the alarm for it. -/
def sampleAlarmEvents : List (AlarmEvent × AlarmReadings) :=
  [(.endpoint (sampleEndpointRequest .PUT 0 1), instant 2),
    (.wake sampleWakeEnvelope 5 5 false, instant 6), (.alarm 600 false, instant 601)]

def sampleAlarmRoom (n : ℕ) : AlarmedRoom :=
  (sampleAlarmEvents.take n).foldl (fun s l => s.next sampleAlarmConfig l.1 l.2) (start 0)

theorem instant_after {t done : ℤ} (h : done ≤ t) : (instant t).After done :=
  ⟨fun _ => ⟨h, le_rfl⟩, h, le_rfl⟩

theorem sampleAlarms : (sampleAlarmRoom 1).alarm = some 1000 ∧
    (sampleAlarmRoom 2).alarm = some 600 ∧ (sampleAlarmRoom 3).alarm = some 1000 := by
  decide +kernel

theorem alarm_in_time_sample :
    (sampleAlarmRoom 3).alarm = some 1000 ∧ (sampleAlarmRoom 3).Guarded := by
  have hstored : (GrantTap.handleEndpoint EndpointStorage.store (start 0).directory
      (sampleEndpointRequest .PUT 0 1)).1.toOption.map (·.status) = some 200 := by decide +kernel
  have hfirst : ¬(start 0).Undercut (.endpoint (sampleEndpointRequest .PUT 0 1), instant 2) := by
    rintro ⟨q, hq, hfull, -⟩
    cases hq
    rw [hfull] at hstored
    exact absurd hstored (by decide)
  have hplace (s : AlarmedRoom) {e : AlarmEvent} (he : ∀ q, e ≠ .endpoint q) (r : AlarmReadings) :
      ¬s.Undercut (e, r) := fun ⟨q, hq, _⟩ => he q hq
  refine ⟨sampleAlarms.2.2, (alarm_in_time sampleAlarmConfig 0).1 sampleAlarmEvents _ ?_⟩
  refine .cons ⟨⟨⟨rfl, by decide, show (0 : ℤ) ≤ 1 by decide⟩, instant_after (by decide), rfl⟩,
    hfirst⟩ ?_
  refine .cons ⟨⟨⟨by decide, by decide⟩, instant_after (by decide), rfl⟩,
    hplace _ (by simp) _⟩ ?_
  refine .cons ⟨⟨⟨by decide, 600, sampleAlarms.2.1, le_rfl⟩, instant_after (by decide), rfl⟩,
    hplace _ (by simp) _⟩ ?_
  exact .nil _

/-- A `PUT` at 6 for one of a hundred recipients. -/
def crowdRequest (i : ℕ) : EndpointRequest :=
  { sampleEndpointRequest .PUT 6 6 with
    recipient := some ((48 + (i % 10).toUInt16) :: (48 + (i / 10).toUInt16) ::
      List.replicate 62 98) }

/-- One endpoint more than there are places. -/
def crowdEvents (indices : List ℕ) : List (AlarmEvent × AlarmReadings) :=
  indices.map fun i => (.endpoint (crowdRequest i), instant 6)

/-- After a wake that is due at 600. -/
def wokenRoom : AlarmedRoom :=
  (start 0).next sampleAlarmConfig (.wake sampleWakeEnvelope 5 5 false) (instant 6)

def crowdedRoom (indices : List ℕ) (s : AlarmedRoom) : AlarmedRoom :=
  (crowdEvents indices).foldl (fun s l => s.next sampleAlarmConfig l.1 l.2) s

theorem run_crowd (indices : List ℕ) (s : AlarmedRoom) (hs : s.clock ≤ 6) :
    Run (Step sampleAlarmConfig) s (crowdEvents indices) (crowdedRoom indices s) := by
  induction indices generalizing s with
  | nil => exact .nil s
  | cons i indices ih =>
    have hallowed : (AlarmEvent.endpoint (crowdRequest i)).Allowed sampleAlarmConfig s :=
      ⟨rfl, hs, show (6 : ℤ) ≤ 6 by decide⟩
    exact .cons ⟨hallowed, instant_after (show (6 : ℤ) ≤ 6 by decide), rfl⟩ (ih _ le_rfl)

/-- **The room does sleep past a wake**: the refused request leaves the alarm at 1000. -/
theorem alarm_comes_late : ∃ ls s, Run (Step sampleAlarmConfig) (start 0) ls s ∧
    s.alarm = some 1000 ∧ s.Owed s.clock 600 := by
  have hlate : (crowdedRoom (List.range 33) wokenRoom).alarm = some 1000 ∧
      WakeRecord.nextWake (crowdedRoom (List.range 33) wokenRoom).wake = some 600 := by
    decide +kernel
  have hwoken : Step sampleAlarmConfig (start 0)
      (.wake sampleWakeEnvelope 5 5 false, instant 6) wokenRoom :=
    ⟨⟨by decide, by decide⟩, instant_after (by decide), rfl⟩
  exact ⟨_, _, .cons hwoken (run_crowd (List.range 33) wokenRoom (by decide)), hlate.1,
    .wake 600 hlate.2⟩

end Sample

end AlarmedRoom

end GrantTap
