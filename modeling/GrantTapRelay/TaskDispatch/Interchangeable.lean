import GrantTapRelay.TaskDispatch.Twins

/-!
# The two job stores are interchangeable

The Node store and the Worker store take the same calls. They answer alike (`SameAnswer`), as long as
the calls are agreeable (`Agreeable`): the stores differ in the recipients that they can store, in
what they hash of a token that is not a string, in the full read of a job that is due to expire, and
in how many rows they clean up.

* `Twins`: the relation between the two stores, which the calls preserve.
* `exists_twinRows`: the rows of a room in the two stores, one by one.
* `stores_interchangeable`: **agreeable calls answer alike**, in every run.
-/

namespace GrantTap

open Js Runs

/-! ## Twin stores -/

/-- The two stores hold twins at every key. -/
structure Twins (sha256 : Str → Str) (now : ℤ) (s : NodeTasks) (t : WorkerTasks) : Prop where
  rows : ∀ k, Twin sha256 now (s.jobs.get? k) (t.shelf k)
  named : t.Named
  node : ∀ k row, s.job k = some row → row.Unclaimed
  worker : ∀ k row, t.jobs.get? k = some row → row.Unclaimed
  fits : ∀ room, Fits t.jobs.get? room

/-- The rows of two stores at one key. -/
structure TwinRow (s : NodeTasks) (t : WorkerTasks) where
  key : RoomKey
  node : SavedJob
  worker : Job
  node_get : s.jobs.get? key = some (.saved node)
  worker_get : t.jobs.get? key = some worker

namespace TwinRow

variable {sha256 : Str → Str} {now : ℤ} {s : NodeTasks} {t : WorkerTasks}

theorem twin (r : TwinRow s t) (h : Twins sha256 now s t) :
    ∃ body, Job.Twin body (expireJob r.node.job now) (expireJob r.worker now) := by
  have hrow := h.rows r.key
  rw [r.node_get] at hrow
  generalize hshelf : t.shelf r.key = shelf at hrow
  cases hrow with
  | row n w shelf body hw hbox hmirrors htwin =>
    have hworker : shelf.row = some r.worker := by
      rw [← hshelf, WorkerTasks.shelf_row, r.worker_get]
    obtain rfl := Option.some_inj.1 (hw.symm.trans hworker)
    exact ⟨body, htwin⟩

theorem bare (r : TwinRow s t) (h : Twins sha256 now s t) :
    (expireJob r.node.job now).bare = (expireJob r.worker now).bare :=
  (r.twin h).elim fun _ htwin => htwin.bare

end TwinRow

/-- Tables with rows at the same keys have the same keys in a room, in one order. -/
theorem roomRows_keys {ν ν' : Type} {t : Table RoomKey ν} {u : Table RoomKey ν'}
    (h : ∀ k, (t.get? k).isSome = (u.get? k).isSome) (room : Str) :
    (roomRows t room).map Prod.fst = (roomRows u room).map Prod.fst := by
  have sorted {ν : Type} (t : Table RoomKey ν) : ((roomRows t room).map Prod.fst).Pairwise
      fun k k' => unitsLe k.2 k'.2 = true := List.pairwise_map.2 (sorted_roomRows t room)
  have hroom {ν : Type} (t : Table RoomKey ν) : ∀ k ∈ (roomRows t room).map Prod.fst, k.1 = room := by
    rintro k hk
    obtain ⟨r, hr, rfl⟩ := List.mem_map.1 hk
    exact (mem_roomRows.1 hr).2
  have hmem {ν : Type} (t : Table RoomKey ν) (k : RoomKey) :
      k ∈ (roomRows t room).map Prod.fst ↔ (t.get? k).isSome = true ∧ k.1 = room := by
    rw [Option.isSome_iff_exists, List.mem_map]
    constructor
    · rintro ⟨r, hr, rfl⟩
      exact ⟨⟨r.2, (mem_roomRows.1 hr).1⟩, (mem_roomRows.1 hr).2⟩
    · rintro ⟨⟨row, hrow⟩, hk⟩
      exact ⟨(k, row), mem_roomRows.2 ⟨hrow, hk⟩, rfl⟩
  refine List.Perm.eq_of_pairwise (fun k k' hk hk' hle hle' => ?_) (sorted t) (sorted u) ?_
  · exact Prod.ext ((hroom t k hk).trans (hroom u k' hk').symm) (unitsLe_antisymm hle hle')
  · refine (List.perm_ext_iff_of_nodup (WorkerTasks.nodup_roomRows t room)
      (WorkerTasks.nodup_roomRows u room)).2 fun k => ?_
    rw [hmem, hmem, h]

namespace Twins

variable {sha256 : Str → Str} {now now' : ℤ} {s : NodeTasks} {t : WorkerTasks} {room : Str}

theorem later (h : Twins sha256 now s t) (hle : now ≤ now') : Twins sha256 now' s t :=
  { h with rows := fun k => (h.rows k).later hle }

theorem empty (sha256 : Str → Str) (now : ℤ) : Twins sha256 now .empty .empty where
  rows := fun _ => .vacant
  named := WorkerTasks.named_empty
  node := fun k row hrow => by cases hrow
  worker := fun k row hrow => by cases hrow
  fits := fun room _ => Loads.bounded_empty fun _ => rfl

theorem isSome_eq (h : Twins sha256 now s t) (k : RoomKey) :
    (s.jobs.get? k).isSome = (t.jobs.get? k).isSome := by
  have hrow := h.rows k
  rw [← WorkerTasks.shelf_row]
  generalize s.jobs.get? k = row at hrow
  generalize t.shelf k = shelf at hrow
  cases hrow with
  | vacant => rfl
  | row n w shelf body hw => rw [hw]; rfl

/-- A Worker row has a Node row next to it. -/
theorem exists_node (h : Twins sha256 now s t) {k : RoomKey} {w : Job}
    (hw : t.jobs.get? k = some w) : ∃ n, s.jobs.get? k = some (.saved n) := by
  have hrow := h.rows k
  have hshelf : (t.shelf k).row = some w := hw
  generalize s.jobs.get? k = row at hrow
  generalize t.shelf k = shelf at hrow hshelf
  cases hrow with
  | vacant => cases hshelf
  | row n => exact ⟨n, rfl⟩

/-- **The rows of a room** in the two stores, one by one. -/
theorem exists_twinRows (h : Twins sha256 now s t) (room : Str) : ∃ rows : List (TwinRow s t),
    roomRows s.jobs room = rows.map (fun r => (r.key, .saved r.node)) ∧
      roomRows t.jobs room = rows.map fun r => (r.key, r.worker) := by
  have hpairs : ∀ (l : List (RoomKey × TaskRow)) (l' : List (RoomKey × Job)),
      l.map Prod.fst = l'.map Prod.fst → (∀ r ∈ l, s.jobs.get? r.1 = some r.2) →
        (∀ r ∈ l', t.jobs.get? r.1 = some r.2) → ∃ rows : List (TwinRow s t),
          l = rows.map (fun r => (r.key, .saved r.node)) ∧
            l' = rows.map fun r => (r.key, r.worker) := by
    intro l
    induction l with
    | nil =>
      intro l' hkeys _ _
      obtain rfl := List.map_eq_nil_iff.1 hkeys.symm
      exact ⟨[], rfl, rfl⟩
    | cons r l ih =>
      intro l' hkeys hl hl'
      cases l' with
      | nil => cases hkeys
      | cons r' l' =>
        obtain ⟨k, row⟩ := r
        obtain ⟨k', w⟩ := r'
        rw [List.map_cons, List.map_cons, List.cons.injEq] at hkeys
        obtain ⟨rfl, hkeys⟩ := hkeys
        obtain ⟨rows, rfl, rfl⟩ := ih l' hkeys (fun r hr => hl r (List.mem_cons_of_mem _ hr))
          fun r hr => hl' r (List.mem_cons_of_mem _ hr)
        have hw : t.jobs.get? k = some w := hl' (k, w) List.mem_cons_self
        obtain ⟨n, hn⟩ := h.exists_node hw
        obtain rfl : row = .saved n :=
          Option.some_inj.1 ((hl (k, row) List.mem_cons_self).symm.trans hn)
        exact ⟨⟨k, n, w, hn, hw⟩ :: rows, rfl, rfl⟩
  exact hpairs _ _ (roomRows_keys h.isSome_eq room) (fun r hr => (mem_roomRows.1 hr).1)
    fun r hr => (mem_roomRows.1 hr).1

/-- The Node rows of a room, once the store saved what expired. -/
theorem roomJobs_eq {rows : List (TwinRow s t)}
    (hrows : roomRows s.jobs room = rows.map fun r => (r.key, TaskRow.saved r.node)) :
    (s.expireQueued room now).roomJobs room =
      rows.map fun r => (TaskRow.saved r.node).expire now := by
  rw [NodeTasks.roomJobs_expireQueued, NodeTasks.view, roomRows_map, hrows]
  simp only [List.map_map]
  rfl

theorem length_roomRows_le (hfits : Fits t.jobs.get? room) :
    (roomRows t.jobs room).length ≤ ROOM_RECEIPT_LIMIT := by
  have hkeys : (roomRows t.jobs room).map Prod.fst =
      ((roomRows t.jobs room).map fun r => r.1.2).map fun id => (room, id) := by
    rw [List.map_map]
    exact List.map_congr_left fun r hr => Prod.ext (mem_roomRows.1 hr).2 rfl
  have hnodup := WorkerTasks.nodup_roomRows t.jobs room
  rw [hkeys] at hnodup
  have hcard := hfits.within.receipts ((roomRows t.jobs room).map fun r => r.1.2).toFinset ?_
  · rwa [List.toFinset_card_of_nodup (.of_map _ hnodup), List.length_map] at hcard
  · intro id hid
    obtain ⟨r, hr, rfl⟩ := List.mem_map.1 (List.mem_toFinset.1 hid)
    obtain ⟨hget, hroom⟩ := mem_roomRows.1 hr
    rw [← hroom, hget]
    rfl

/-- The Worker rows of a room, once the store wrote back what expired. -/
theorem rows_eq (h : Twins sha256 now s t) {rows : List (TwinRow s t)}
    (hrows : roomRows t.jobs room = rows.map fun r => (r.key, r.worker)) :
    ∃ t', t.rows sha256 room now = .ok (rows.map fun r => expireJob r.worker now, t') := by
  have hbound : ¬ROOM_RECEIPT_LIMIT + ROOM_JOB_LIMIT < (roomRows t.jobs room).length := by
    have hle := length_roomRows_le (h.fits room)
    omega
  unfold WorkerTasks.rows WorkerTasks.boundedRecords
  rw [if_neg hbound, hrows]
  refine ⟨_, congrArg (fun l => Except.ok (l, _)) ?_⟩
  rw [List.map_map]
  rfl

/-- The Worker store may write expired rows back. -/
theorem aged (h : Twins sha256 now s t) {t' : WorkerTasks}
    (ht : ∀ k, t'.shelf k = t.shelf k ∨ t'.shelf k = (t.shelf k).age sha256 now) (k : RoomKey) :
    Twin sha256 now (s.jobs.get? k) (t'.shelf k) := by
  rcases ht k with hk | hk <;> rw [hk]
  · exact h.rows k
  · exact (h.rows k).age

/-- A read may settle expiries in either store. -/
theorem read (h : Twins sha256 now s t) {t' : WorkerTasks}
    (ht : ∀ k, t'.shelf k = t.shelf k ∨ t'.shelf k = (t.shelf k).age sha256 now) (room : Str)
    (k : RoomKey) : Twin sha256 now ((s.expireQueued room now).jobs.get? k) (t'.shelf k) := by
  rcases NodeTasks.get?_expireQueued s room now k with hk | hk <;> rw [hk]
  · exact h.aged ht k
  · exact (h.aged ht k).expire

theorem shelf_rows_cases (h : Twins sha256 now s t) {jobs : List Job} {t' : WorkerTasks}
    (hrows : t.rows sha256 room now = .ok (jobs, t')) (k : RoomKey) :
    t'.shelf k = t.shelf k ∨ t'.shelf k = (t.shelf k).age sha256 now := by
  rw [WorkerTasks.shelf_rows h.named hrows]
  split_ifs
  · exact .inr rfl
  · exact .inl rfl

end Twins

/-! ## Answers -/

/-- A reply without the ciphertext of its job. -/
def ReplyBody.metadata : ReplyBody → ReplyBody
  | .job shown => .job (taskJobMetadata shown)
  | body => body

/-- Answers of the two stores to one call that a client cannot tell apart: both throw, or they have
the same status and the same public job. Where a call shows the envelope, it is the same. -/
inductive SameAnswer : TaskCall → Except Throw TaskAnswer → Except Throw TaskAnswer → Prop
  | thrown (c : TaskCall) (e e' : Throw) : SameAnswer c (.error e) (.error e')
  | replied (c : TaskCall) (r r' : Reply) (hstatus : r.status = r'.status)
      (hbody : r.body.metadata = r'.body.metadata) : SameAnswer c (.ok (.reply r)) (.ok (.reply r'))
  | listed (room : Str) (l l' : List PublicJob)
      (h : (l.map taskJobMetadata).Perm (l'.map taskJobMetadata)) :
    SameAnswer (.list room) (.ok (.jobs l)) (.ok (.jobs l'))
  | listedActive (room : Str) (l l' : List PublicJob)
      (h : (l.map taskJobMetadata).Perm (l'.map taskJobMetadata)) :
    SameAnswer (.listActive room) (.ok (.jobs l)) (.ok (.jobs l'))
  | missing (room id : Str) (metadataOnly : Bool) :
    SameAnswer (.getPublic room id metadataOnly) (.ok (.found none)) (.ok (.found none))
  | found (room id : Str) (metadataOnly : Bool) (job job' : PublicJob)
      (hmetadata : taskJobMetadata job = taskJobMetadata job')
      (hsame : metadataOnly = false → job.Same job') :
    SameAnswer (.getPublic room id metadataOnly) (.ok (.found (some job))) (.ok (.found (some job')))
  | idle (room recipientKeyId : Str) (excluded : List Str) :
    SameAnswer (.due room recipientKeyId excluded) (.ok (.jobs [])) (.ok (.jobs []))
  | due (room recipientKeyId : Str) (excluded : List Str) (job job' : PublicJob)
      (hsame : job.Same job') :
    SameAnswer (.due room recipientKeyId excluded) (.ok (.jobs [job])) (.ok (.jobs [job']))
  | cleaned (connected : Option (List (Option Str))) (next next' : Option ℤ) :
    SameAnswer (.clean connected) (.ok (.deadline next)) (.ok (.deadline next'))

/-- The two stores answer a call alike, and hold twins after it. -/
structure Agrees (sha256 : Str → Str) (now : ℤ) (c : TaskCall)
    (r : Except Throw TaskAnswer × NodeTasks) (r' : Except Throw TaskAnswer × WorkerTasks) : Prop where
  answer : SameAnswer c r.1 r'.1
  rows : ∀ k, Twin sha256 now (r.2.jobs.get? k) (r'.2.shelf k)

/-! ## Reads -/

section Reads

variable {sha256 : Str → Str} {now : ℤ} {s : NodeTasks} {t : WorkerTasks}

/-- A list that has no text that does not parse. -/
theorem mapM_parse (rows : List (TwinRow s t)) :
    (rows.map fun r => (TaskRow.saved r.node).expire now).mapM TaskRow.parse =
      .ok (rows.map fun r => expireJob r.node.job now) := by
  induction rows with
  | nil => rfl
  | cons r rows ih =>
    rw [List.map_cons, List.mapM_cons, ih]
    rfl

theorem TwinRow.metadata (r : TwinRow s t) (h : Twins sha256 now s t) :
    taskJobMetadata (publicJob (expireJob r.node.job now)) =
      taskJobMetadata (publicJob (expireJob r.worker now)) := metadata_of_bare (r.bare h)

theorem agrees_list (h : Twins sha256 now s t) (room : Str) :
    Agrees sha256 now (.list room) (s.call sha256 now (.list room))
      (t.call sha256 now (.list room)) := by
  obtain ⟨rows, hnode, hworker⟩ := h.exists_twinRows room
  obtain ⟨t', ht⟩ := h.rows_eq hworker
  have hs : s.list room now = .ok ((rows.map fun r => expireJob r.node.job now).map publicJob,
      s.expireQueued room now) := by
    unfold NodeTasks.list
    dsimp only
    rw [Twins.roomJobs_eq hnode, mapM_parse]
    rfl
  have hcall : s.call sha256 now (.list room) =
      (.ok (.jobs ((rows.map fun r => expireJob r.node.job now).map publicJob)),
        s.expireQueued room now) := by
    change s.transact (NodeTasks.answer .jobs (s.list room now)) = _
    rw [hs]
    rfl
  have hcall' : t.call sha256 now (.list room) =
      (.ok (.jobs ((rows.map fun r => expireJob r.worker now).map publicJob)), t') := by
    unfold WorkerTasks.call WorkerTasks.list
    dsimp only
    rw [ht]
    rfl
  rw [hcall, hcall']
  refine ⟨.listed room _ _ (.of_eq ?_), h.read (h.shelf_rows_cases ht) room⟩
  rw [List.map_map, List.map_map, List.map_map, List.map_map]
  exact List.map_congr_left fun r _ => r.metadata h

theorem agrees_listActive (h : Twins sha256 now s t) (room : Str) :
    Agrees sha256 now (.listActive room) (s.call sha256 now (.listActive room))
      (t.call sha256 now (.listActive room)) := by
  obtain ⟨rows, hnode, hworker⟩ := h.exists_twinRows room
  obtain ⟨t', ht⟩ := h.rows_eq hworker
  -- the rows that retain a payload are the same in both stores
  set active := rows.filter fun r => retainsTaskPayload (expireJob r.node.job now) with hactive
  have hretains : active = rows.filter fun r => retainsTaskPayload (expireJob r.worker now) :=
    List.filter_congr fun r _ => congr_bare (f := retainsTaskPayload) (fun _ => rfl) (r.bare h)
  have hs : s.listActive room now =
      .ok ((active.map fun r => expireJob r.node.job now).map fun row =>
        publicJob (NodeTasks.withoutCiphertext row), s.expireQueued room now) := by
    unfold NodeTasks.listActive
    dsimp only
    rw [Twins.roomJobs_eq hnode, List.filter_map]
    exact congrArg (fun e : Except Throw (List Job) => e >>= fun rows => pure (rows.map fun row =>
      publicJob (NodeTasks.withoutCiphertext row), s.expireQueued room now)) (mapM_parse active)
  have hcall : s.call sha256 now (.listActive room) =
      (.ok (.jobs ((active.map fun r => expireJob r.node.job now).map fun row =>
        publicJob (NodeTasks.withoutCiphertext row))), s.expireQueued room now) := by
    change s.transact (NodeTasks.answer .jobs (s.listActive room now)) = _
    rw [hs]
    rfl
  have hcall' : t.call sha256 now (.listActive room) =
      (.ok (.jobs ((active.map fun r => expireJob r.worker now).map publicJob)), t') := by
    unfold WorkerTasks.call WorkerTasks.listActive WorkerTasks.list
    dsimp only
    rw [ht, hretains]
    refine congrArg (fun l => (Except.ok (TaskAnswer.jobs l), t')) ?_
    rw [List.filter_map, List.filter_map]
    rfl
  rw [hcall, hcall']
  refine ⟨.listedActive room _ _ (.of_eq ?_), h.read (h.shelf_rows_cases ht) room⟩
  rw [List.map_map, List.map_map, List.map_map, List.map_map]
  refine List.map_congr_left fun r _ => Eq.trans ?_ (r.metadata h)
  simp only [Function.comp_apply, taskJobMetadata, publicJob, NodeTasks.withoutCiphertext,
    Json.without_without]

theorem get_expireQueued {k : RoomKey} {n : SavedJob} (hn : s.jobs.get? k = some (.saved n)) :
    (s.expireQueued k.1 now).get k.1 k.2 = .ok (some (expireJob n.job now)) := by
  have hrow : (s.expireQueued k.1 now).jobs.get? (k.1, k.2) =
      some ((TaskRow.saved n).expire now) := by
    unfold NodeTasks.expireQueued
    rw [Table.get?_map, hn]
    exact congrArg some (if_pos rfl)
  unfold NodeTasks.get
  rw [hrow]
  rfl

theorem agrees_getPublic (h : Twins sha256 now s t) (room id : Str) (metadataOnly : Bool)
    (hread : metadataOnly = false → ∀ w, t.jobs.get? (room, id) = some w → expires w now = false) :
    Agrees sha256 now (.getPublic room id metadataOnly)
      (s.call sha256 now (.getPublic room id metadataOnly))
      (t.call sha256 now (.getPublic room id metadataOnly)) := by
  have hshelf (k : RoomKey) : (t.getPublic sha256 room id now metadataOnly).2.shelf k = t.shelf k ∨
      (t.getPublic sha256 room id now metadataOnly).2.shelf k = (t.shelf k).age sha256 now := by
    rw [WorkerTasks.shelf_getPublic h.named]
    split_ifs
    · exact .inr rfl
    · exact .inl rfl
  have hrows := h.read hshelf room
  cases hw : t.jobs.get? (room, id) with
  | none =>
    have hn : s.jobs.get? (room, id) = none :=
      Option.not_isSome_iff_eq_none.1 (by rw [h.isSome_eq, hw]; decide)
    have hget : (s.expireQueued room now).get room id = .ok none := by
      unfold NodeTasks.get NodeTasks.expireQueued
      rw [Table.get?_map, hn]
      rfl
    have hcall : s.call sha256 now (.getPublic room id metadataOnly) =
        (.ok (.found none), s.expireQueued room now) := by
      change s.transact (NodeTasks.answer .found (s.getPublic room id now metadataOnly)) = _
      unfold NodeTasks.getPublic
      dsimp only
      rw [hget]
      rfl
    have hanswer : (t.call sha256 now (.getPublic room id metadataOnly)).1 = .ok (.found none) := by
      change (t.getPublic sha256 room id now metadataOnly).1.map TaskAnswer.found = _
      rw [WorkerTasks.getPublic, hw]
      rfl
    refine ⟨?_, fun k => ?_⟩
    · rw [hcall, hanswer]
      exact .missing room id metadataOnly
    · rw [hcall]
      exact hrows k
  | some w =>
    obtain ⟨n, hn⟩ := h.exists_node hw
    have hcall : s.call sha256 now (.getPublic room id metadataOnly) =
        (.ok (.found (some (publicJob (if metadataOnly then
          NodeTasks.withoutCiphertext (expireJob n.job now) else expireJob n.job now)))),
          s.expireQueued room now) := by
      change s.transact (NodeTasks.answer .found (s.getPublic room id now metadataOnly)) = _
      unfold NodeTasks.getPublic
      dsimp only
      rw [get_expireQueued hn]
      rfl
    let r : TwinRow s t := ⟨(room, id), n, w, hn, hw⟩
    refine ⟨?_, fun k => ?_⟩
    · rw [hcall]
      change SameAnswer _ _ ((t.getPublic sha256 room id now metadataOnly).1.map TaskAnswer.found)
      unfold WorkerTasks.getPublic
      rw [hw]
      cases metadataOnly with
      | true =>
        refine .found room id true _ _ (Eq.trans ?_ (r.metadata h)) (fun hfalse => by cases hfalse)
        simp only [taskJobMetadata, publicJob, NodeTasks.withoutCiphertext, if_true,
          Json.without_without]
        rfl
      | false =>
        have hsettled := hread rfl w hw
        have hrow := h.rows (room, id)
        rw [hn] at hrow
        obtain ⟨row, hhydrate, hsame⟩ := hrow.hydrate h.named hw hsettled
        have hexpire : expireJob w now = w := if_neg (by rw [hsettled]; decide)
        dsimp only
        rw [hsettled, hexpire, if_neg Bool.false_ne_true, if_neg Bool.false_ne_true,
          if_neg Bool.false_ne_true, hhydrate]
        exact .found room id false _ _ hsame.metadata fun _ => hsame
    · rw [hcall]
      exact hrows k

/-- The two stores select the same due rows. -/
theorem TwinRow.isDue_eq (r : TwinRow s t) (h : Twins sha256 now s t) (recipientKeyId : Str)
    (excluded : List Str) (row : SavedJob) (hrow : row.job = expireJob r.node.job now) :
    NodeTasks.isDue recipientKeyId now excluded row =
      WorkerTasks.isDue recipientKeyId now excluded (expireJob r.worker now) := by
  have hbare := r.bare h
  rw [← hrow] at hbare
  have hkey : row.job.envelope.get (lit "recipientKeyId") =
      (expireJob r.worker now).envelope.get (lit "recipientKeyId") := get_of_bare hbare (by decide)
  have hstate : row.job.state = (expireJob r.worker now).state :=
    congr_bare (f := Job.state) (fun _ => rfl) hbare
  have hstart : row.job.notBefore = (expireJob r.worker now).notBefore :=
    congr_bare (f := Job.notBefore) (fun _ => rfl) hbare
  have hid : row.job.id = (expireJob r.worker now).id :=
    congr_bare (f := Job.id) (fun _ => rfl) hbare
  -- a queued row that was settled has not expired
  have hlive : row.job.state = .queued → now < row.job.expiresAt := by
    intro hqueued
    by_contra hpast
    have hexpires : expires row.job now = true := by
      simp only [expires, hqueued, not_lt.1 hpast, decide_true, Bool.and_self]
    have hagain := WorkerTasks.retains_expireJob hexpires
    rw [hrow, expireJob_later r.node.job le_rfl, ← hrow, retainsTaskPayload, hqueued] at hagain
    cases hagain
  unfold NodeTasks.isDue WorkerTasks.isDue
  rw [← hkey, ← hstate, ← hstart, ← hid]
  by_cases hqueued : row.job.state = .queued
  · simp [hqueued, hlive hqueued, Bool.and_comm, Bool.and_left_comm]
  · simp [hqueued]

theorem filterMap_ite {α β : Type} (p : α → Bool) (f : α → β) (l : List α) :
    l.filterMap (fun a => if p a = true then some (f a) else none) = (l.filter p).map f := by
  induction l with
  | nil => rfl
  | cons a l ih =>
    rw [List.filterMap_cons, List.filter_cons]
    split_ifs
    · rw [List.map_cons, ih]
    · exact ih

/-- The order of the due rows. Rows that tie are taken by their ids, an order that SQLite does not
promise. -/
def TwinRow.Before (now : ℤ) (a b : TwinRow s t) : Prop :=
  (expireJob a.worker now).notBefore < (expireJob b.worker now).notBefore ∨
    (expireJob a.worker now).notBefore = (expireJob b.worker now).notBefore ∧
      (expireJob a.worker now).createdAt ≤ (expireJob b.worker now).createdAt

instance (now : ℤ) : DecidableRel (TwinRow.Before (s := s) (t := t) now) :=
  fun _ _ => inferInstanceAs (Decidable (_ ∨ _))

/-- A queued row was not updated since it was created. -/
theorem TwinRow.updatedAt_eq (r : TwinRow s t) (h : Twins sha256 now s t)
    (hqueued : (expireJob r.worker now).state = .queued) :
    (expireJob r.node.job now).updatedAt = (expireJob r.worker now).createdAt := by
  obtain ⟨body, htwin⟩ := r.twin h
  have hstate : (expireJob r.node.job now).state = (expireJob r.worker now).state :=
    congr_bare (f := Job.state) (fun _ => rfl) htwin.bare
  rw [htwin.fresh (hstate.trans hqueued)]
  exact congr_bare (f := Job.createdAt) (fun _ => rfl) htwin.bare

theorem agrees_due (h : Twins sha256 now s t) (room recipientKeyId : Str) (excluded : List Str) :
    Agrees sha256 now (.due room recipientKeyId excluded)
      (s.call sha256 now (.due room recipientKeyId excluded))
      (t.call sha256 now (.due room recipientKeyId excluded)) := by
  obtain ⟨rows, hnode, hworker⟩ := h.exists_twinRows room
  obtain ⟨t', ht⟩ := h.rows_eq hworker
  set due := rows.filter fun r =>
    WorkerTasks.isDue recipientKeyId now excluded (expireJob r.worker now) with hdue
  have hqueued : ∀ r ∈ due, (expireJob r.worker now).state = .queued := by
    intro r hr
    have hr := (List.mem_filter.1 hr).2
    simp only [WorkerTasks.isDue, Bool.and_eq_true, decide_eq_true_eq] at hr
    exact hr.1.1.1
  have hs : s.due room recipientKeyId now excluded =
      .ok ((((due.insertionSort (TwinRow.Before now)).map fun r =>
        expireJob r.node.job now).take 1).map publicJob, s.expireQueued room now) := by
    unfold NodeTasks.due
    dsimp only
    rw [Twins.roomJobs_eq hnode, List.filterMap_map]
    refine congrArg (fun l : List Job => Except.ok ((l.take 1).map publicJob, _)) ?_
    have hselected := filterMap_ite (fun r : TwinRow s t =>
      WorkerTasks.isDue recipientKeyId now excluded (expireJob r.worker now))
      (fun r => expireJob r.node.job now) rows
    refine (congrArg (List.insertionSort _)
      ((List.filterMap_congr fun r _ => ?_).trans hselected)).trans ?_
    · dsimp only [Function.comp_apply, TaskRow.expire]
      rw [r.isDue_eq h recipientKeyId excluded _ rfl]
    refine (List.map_insertionSort (TwinRow.Before now) (fun a b : Job =>
      a.notBefore < b.notBefore ∨ a.notBefore = b.notBefore ∧ a.updatedAt ≤ b.updatedAt)
      (fun r => expireJob r.node.job now) due fun a ha b hb => ?_).symm
    rw [TwinRow.Before, a.updatedAt_eq h (hqueued a ha), b.updatedAt_eq h (hqueued b hb),
      congr_bare (f := Job.notBefore) (fun _ => rfl) (a.bare h),
      congr_bare (f := Job.notBefore) (fun _ => rfl) (b.bare h)]
  have hworkerRows : ((rows.map fun r => expireJob r.worker now).filter
      (WorkerTasks.isDue recipientKeyId now excluded)).insertionSort (fun a b =>
        a.notBefore < b.notBefore ∨ a.notBefore = b.notBefore ∧ a.createdAt ≤ b.createdAt) =
      (due.insertionSort (TwinRow.Before now)).map fun r => expireJob r.worker now := by
    rw [List.filter_map]
    exact (List.map_insertionSort (TwinRow.Before now) (fun a b : Job =>
      a.notBefore < b.notBefore ∨ a.notBefore = b.notBefore ∧ a.createdAt ≤ b.createdAt)
      (fun r => expireJob r.worker now) due fun _ _ _ _ => Iff.rfl).symm
  have hshelf := h.shelf_rows_cases ht
  have hcall : s.call sha256 now (.due room recipientKeyId excluded) =
      (.ok (.jobs ((((due.insertionSort (TwinRow.Before now)).map fun r =>
        expireJob r.node.job now).take 1).map publicJob)), s.expireQueued room now) := by
    change s.transact (NodeTasks.answer .jobs (s.due room recipientKeyId now excluded)) = _
    rw [hs]
    rfl
  rw [hcall]
  change Agrees _ _ _ _ ((t.due sha256 room recipientKeyId now excluded).1.map TaskAnswer.jobs,
    (t.due sha256 room recipientKeyId now excluded).2)
  unfold WorkerTasks.due
  rw [ht]
  dsimp only
  rw [hworkerRows]
  cases hsorted : due.insertionSort (TwinRow.Before now) with
  | nil => exact ⟨.idle room recipientKeyId excluded, h.read hshelf room⟩
  | cons r rest =>
    have hr : r ∈ due := (List.mem_insertionSort _).1 (hsorted ▸ List.mem_cons_self)
    have hstate := hqueued r hr
    have hsettled : expires r.worker now = false := by
      rw [Bool.eq_false_iff]
      intro hexpires
      rw [expireJob, if_pos hexpires] at hstate
      cases hstate
    have hexpire : expireJob r.worker now = r.worker := if_neg (by rw [hsettled]; decide)
    have hget : t'.jobs.get? r.key = some r.worker := by
      have haged : (t.shelf r.key).age sha256 now = t.shelf r.key := by
        unfold Shelf.age
        rw [WorkerTasks.shelf_row, r.worker_get]
        exact if_neg (by rw [hsettled]; decide)
      rw [← WorkerTasks.shelf_row, ← r.worker_get, ← WorkerTasks.shelf_row]
      rcases hshelf r.key with hk | hk <;> rw [hk]
      rw [haged]
    have hrow := h.aged hshelf r.key
    rw [r.node_get] at hrow
    obtain ⟨row, hhydrate, hsame⟩ :=
      hrow.hydrate (WorkerTasks.rows_ok h.named ht).2 hget hsettled
    refine ⟨?_, h.read hshelf room⟩
    change SameAnswer _ _ (((t'.hydrateTaskJob sha256 (expireJob r.worker now)).map _).map _)
    rw [hexpire, hhydrate]
    exact .due room recipientKeyId excluded _ _ hsame

end Reads

/-! ## Writes -/

section Writes

variable {sha256 : Str → Str} {now : ℤ} {s : NodeTasks} {t : WorkerTasks} {room id : Str}

/-- Rows with the same bare rows leave the same place. -/
theorem full_of_bare {rows rows' : List Job} (h : rows.map Job.bare = rows'.map Job.bare)
    (bytes : ℕ) : WorkerTasks.Full rows bytes ↔ WorkerTasks.Full rows' bytes := by
  have hlength := congrArg List.length h
  have hactive := congrArg (fun rows : List Job => (rows.filter retainsTaskPayload).map Job.bytes) h
  rw [List.filter_map, List.filter_map, List.map_map, List.map_map] at hactive
  rw [List.length_map, List.length_map] at hlength
  have hbytes : (rows.filter retainsTaskPayload).map Job.bytes =
      (rows'.filter retainsTaskPayload).map Job.bytes := hactive
  have hjobs := congrArg List.length hbytes
  rw [List.length_map, List.length_map] at hjobs
  rw [WorkerTasks.Full, WorkerTasks.Full, hlength, hjobs, hbytes]

/-- The capacity check of the Node store is that of the Worker store. -/
theorem Twins.full_iff (h : Twins sha256 now s t) (room : Str) (bytes : ℕ) :
    (ROOM_RECEIPT_LIMIT ≤ ((s.expireQueued room now).roomJobs room).length ∨
      ROOM_JOB_LIMIT ≤ (((s.expireQueued room now).roomJobs room).filter TaskRow.active).length ∨
        ROOM_JOB_BYTES < ((((s.expireQueued room now).roomJobs room).filter TaskRow.active).map
          TaskRow.payloadBytes).sum + bytes) ↔
      WorkerTasks.Full ((roomRows t.jobs room).map fun r => expireJob r.2 now) bytes := by
  obtain ⟨rows, hnode, hworker⟩ := h.exists_twinRows room
  rw [Twins.roomJobs_eq hnode, hworker, List.map_map]
  have hbare : (rows.map fun r => expireJob r.node.job now).map Job.bare =
      (rows.map fun r => expireJob r.worker now).map Job.bare := by
    rw [List.map_map, List.map_map]
    exact List.map_congr_left fun r _ => r.bare h
  refine Iff.trans ?_ (full_of_bare hbare bytes)
  rw [WorkerTasks.Full, List.filter_map, List.filter_map, List.length_map, List.length_map, List.length_map,
    List.length_map, List.map_map, List.map_map]
  rfl

/-- The recipient of a job that the call creates can be stored in a column. -/
def Storable (now : ℤ) (t : WorkerTasks) (room id : Str) (body : Value) : Prop :=
  ∀ job, t.jobs.get? (room, id) = none → normalizeJob room id body now = .ok (some job) →
    ¬WorkerTasks.Full ((roomRows t.jobs room).map fun r => expireJob r.2 now) job.bytes →
      bindable (job.envelope.get (lit "recipientKeyId")) = true

theorem agrees_put (h : Twins sha256 now s t) (body : Value)
    (hstorable : Storable now t room id body) :
    Agrees sha256 now (.put room id body) (s.call sha256 now (.put room id body))
      (t.call sha256 now (.put room id body)) := by
  change Agrees _ _ _ (s.transact (NodeTasks.answer .reply
    (s.putInTransaction sha256 room id body now))) (t.whole .reply (t.put sha256 room id body now))
  unfold NodeTasks.putInTransaction WorkerTasks.put
  cases hw : t.jobs.get? (room, id) with
  | some w =>
    obtain ⟨n, hn⟩ := h.exists_node hw
    let r : TwinRow s t := ⟨(room, id), n, w, hn, hw⟩
    have hget : s.get room id = .ok (some n.job) := by
      unfold NodeTasks.get
      rw [hn]
      rfl
    have hcreated : n.job.createdAt = w.createdAt := by
      rw [← createdAt_expireJob n.job now, ← createdAt_expireJob w now]
      exact congr_bare (f := Job.createdAt) (fun _ => rfl) (r.bare h)
    have hfingerprint : n.job.fingerprint = w.fingerprint := by
      rw [← fingerprint_expireJob n.job now, ← fingerprint_expireJob w now]
      exact congr_bare (f := Job.fingerprint) (fun _ => rfl) (r.bare h)
    rw [hget]
    dsimp only [bind, Except.bind, Option.elim_some]
    rw [hcreated]
    cases normalizeJob room id body w.createdAt with
    | error e => exact ⟨.thrown _ e e, h.rows⟩
    | ok parsed =>
      cases parsed with
      | none => exact ⟨.replied _ _ _ rfl rfl, h.rows⟩
      | some job =>
        dsimp only
        rw [hfingerprint]
        split_ifs
        · exact ⟨.replied _ _ _ rfl (congrArg ReplyBody.job (r.metadata h)), h.rows⟩
        · exact ⟨.replied _ _ _ rfl rfl, h.rows⟩
  | none =>
    have hn : s.jobs.get? (room, id) = none :=
      Option.not_isSome_iff_eq_none.1 (by rw [h.isSome_eq, hw]; decide)
    have hget : s.get room id = .ok none := by
      unfold NodeTasks.get
      rw [hn]
    rw [hget]
    dsimp only [bind, Except.bind, Option.elim_none]
    cases hparsed : normalizeJob room id body now with
    | error e => exact ⟨.thrown _ e e, h.rows⟩
    | ok parsed =>
      cases parsed with
      | none => exact ⟨.replied _ _ _ rfl rfl, h.rows⟩
      | some job =>
        obtain ⟨rows, hnode, hworker⟩ := h.exists_twinRows room
        obtain ⟨t', ht⟩ := h.rows_eq hworker
        have hfull := h.full_iff room job.bytes
        have hexpired : (roomRows t.jobs room).map (fun r => expireJob r.2 now) =
            rows.map fun r => expireJob r.worker now := by
          rw [hworker, List.map_map]
          rfl
        have hread := h.read (h.shelf_rows_cases ht) room
        rw [ht]
        dsimp only
        by_cases hplace : WorkerTasks.Full (rows.map fun r => expireJob r.worker now) job.bytes
        · have hcheck := hplace
          unfold WorkerTasks.Full at hcheck
          rw [if_pos (hfull.2 (hexpired ▸ hplace)), if_pos hcheck]
          exact ⟨.replied _ _ _ rfl rfl, hread⟩
        · have hcheck := hplace
          unfold WorkerTasks.Full at hcheck
          rw [if_neg (mt hfull.1 (hexpired ▸ hplace)), if_neg hcheck]
          have hbound := hstorable job hw hparsed (hexpired ▸ hplace)
          have hsave : (s.expireQueued room now).save room
              (queuedJob job (sha256 job.canonical) id none now) = _ := dif_pos hbound
          rw [hsave]
          refine ⟨.replied _ _ _ rfl rfl, fun k => ?_⟩
          change Twin sha256 now
            (((s.expireQueued room now).jobs.put (room, id) (.saved ⟨_, hbound⟩)).get? k)
            ((t'.writeTaskJob sha256 (room, id)
              (queuedJob job (sha256 job.canonical) id (some room) now)).shelf k)
          rw [Table.get?_put, WorkerTasks.shelf_writeTaskJob rfl rfl]
          split_ifs with hk
          · obtain ⟨box, -, hbox⟩ := (normalizeJob_ok hparsed).box
            have hvacant := h.aged (h.shelf_rows_cases ht) (room, id)
            rw [hn] at hvacant
            exact hvacant.create hbox hbound
          · exact hread k

/-- The proof is as valid with the digest that the Node store takes of its token as with the one
that the Worker store takes. -/
def TokenAgrees (sha256 : Str → Str) (row : Job) (body : Value) : Prop :=
  (NodeTasks.digestToken sha256 body).bind (validProof row body) =
    (WorkerTasks.digestToken sha256 body).bind (validProof row body)

theorem transitionJob_congr {row : Job} {action : TaskAction} {body : Value} {hash hash' : Str}
    (h : action ≠ .cancel → validProof row body hash = validProof row body hash') :
    transitionJob row action body now hash = transitionJob row action body now hash' := by
  cases action with
  | claim =>
    unfold transitionJob claimJob
    rw [h (by decide)]
  | finish =>
    unfold transitionJob finishJob
    rw [h (by decide)]
  | cancel => rfl

theorem transitionJob_error {row : Job} {action : TaskAction} {body : Value} {hash : Str} {e : Throw}
    (hne : action ≠ .cancel) (h : validProof row body hash = .error e) :
    transitionJob row action body now hash = .error e := by
  cases action with
  | claim =>
    unfold transitionJob claimJob
    rw [h]
    rfl
  | finish =>
    unfold transitionJob finishJob
    rw [h]
    rfl
  | cancel => exact absurd rfl hne

theorem TwinRow.validProof_eq (r : TwinRow s t) (h : Twins sha256 now s t) (body : Value)
    (hash : Str) : validProof r.node.job body hash = validProof r.worker body hash := by
  rw [← validProof_expireJob r.node.job body now, ← validProof_expireJob r.worker body now]
  exact congr_bare (f := fun row => validProof row body hash)
    (fun row => validProof_bare row body hash) (r.bare h)

/-- A transition of twins. -/
theorem TwinRow.transition_eq (r : TwinRow s t) (h : Twins sha256 now s t) (action : TaskAction)
    (body : Value) (hash : Str) :
    (transitionJob r.node.job action body now hash).map JobResult.bare =
      (transitionJob r.worker action body now hash).map JobResult.bare := by
  have hnode : s.job r.key = some r.node.job := by
    rw [NodeTasks.job, r.node_get]
  rw [← transitionJob_expireJob (h.node _ _ hnode),
    ← transitionJob_expireJob (h.worker _ _ r.worker_get), ← transitionJob_bare,
    ← transitionJob_bare, r.bare h]

/-- A transition keeps the recipient. -/
theorem bindable_transition {n : SavedJob} {row' : Job} {action : TaskAction} {body : Value}
    {hash : Str} {result : JobResult}
    (h : transitionJob n.job action body now hash = .ok result) (hrow : result.row = some row') :
    bindable (row'.envelope.get (lit "recipientKeyId")) = true := by
  rcases transitionJob_envelope h hrow with hsame | hretains | henvelope
  · rw [hsame]
    exact n.bound
  · rw [((transitionJob_follows h hrow).retained hretains).2.2]
    exact n.bound
  · rw [henvelope, Json.get_without (by decide)]
    exact n.bound

theorem agrees_transition (h : Twins sha256 now s t) (action : TaskAction) (body : Value)
    (htoken : action ≠ .cancel → ∀ w, t.jobs.get? (room, id) = some w → TokenAgrees sha256 w body) :
    Agrees sha256 now (.transition room id action body)
      (s.call sha256 now (.transition room id action body))
      (t.call sha256 now (.transition room id action body)) := by
  change Agrees _ _ _ (s.transact (NodeTasks.answer .reply
    (s.transitionInTransaction sha256 room id action body now)))
    (t.whole .reply (t.transition sha256 room id action body now))
  unfold NodeTasks.transitionInTransaction WorkerTasks.transition
  cases hw : t.jobs.get? (room, id) with
  | none =>
    have hn : s.jobs.get? (room, id) = none :=
      Option.not_isSome_iff_eq_none.1 (by rw [h.isSome_eq, hw]; decide)
    have hget : s.get room id = .ok none := by
      unfold NodeTasks.get
      rw [hn]
    rw [hget]
    exact ⟨.replied _ _ _ rfl rfl, h.rows⟩
  | some w =>
    obtain ⟨n, hn⟩ := h.exists_node hw
    let r : TwinRow s t := ⟨(room, id), n, w, hn, hw⟩
    have hget : s.get room id = .ok (some n.job) := by
      unfold NodeTasks.get
      rw [hn]
      rfl
    rw [hget]
    dsimp only [bind, Except.bind, WorkerTasks.digestToken]
    generalize hworker : sha256 ((body.get (lit "token")).str?.getD []) = hash'
    cases hhash : NodeTasks.actionHash sha256 action body with
    | error e =>
      -- the text of the token throws in both stores
      have hne : action ≠ .cancel := by
        rintro rfl
        cases hhash
      have hthrows := htoken hne w hw
      rw [NodeTasks.actionHash, if_neg hne] at hhash
      rw [TokenAgrees, hhash, WorkerTasks.digestToken, hworker] at hthrows
      have hvalid : validProof w body hash' = .error e := hthrows.symm
      dsimp only
      rw [transitionJob_error hne hvalid]
      exact ⟨.thrown _ e e, h.rows⟩
    | ok hash =>
      have hsame : transitionJob w action body now hash = transitionJob w action body now hash' := by
        refine transitionJob_congr fun hne => ?_
        have htoken := htoken hne w hw
        rw [NodeTasks.actionHash, if_neg hne] at hhash
        rw [TokenAgrees, hhash, WorkerTasks.digestToken, hworker] at htoken
        exact htoken
      have hbare := r.transition_eq h action body hash
      dsimp only at hbare ⊢
      rw [← hsame]
      have hnode := h.node (room, id) n.job (by rw [NodeTasks.job, hn])
      have hrow := h.rows (room, id)
      rw [hn] at hrow
      cases hresult : transitionJob n.job action body now hash with
      | error e =>
        cases hresult' : transitionJob w action body now hash with
        | error e' => exact ⟨.thrown _ e e', h.rows⟩
        | ok result' =>
          rw [hresult, hresult'] at hbare
          cases hbare
      | ok result =>
        cases hresult' : transitionJob w action body now hash with
        | error e' =>
          rw [hresult, hresult'] at hbare
          cases hbare
        | ok result' =>
          rw [hresult, hresult'] at hbare
          obtain ⟨status, row, error⟩ := result
          obtain ⟨status', row', error'⟩ := result'
          simp only [Except.map, JobResult.bare, Except.ok.injEq, JobResult.mk.injEq] at hbare
          obtain ⟨rfl, hrows, rfl⟩ := hbare
          rcases row with _ | row <;> rcases row' with _ | row'
          · exact ⟨.replied _ _ _ rfl rfl, h.rows⟩
          · cases hrows
          · cases hrows
          · have hbound := bindable_transition hresult rfl
            have hid : row.id = id := (transitionJob_id hresult rfl).1.trans (s.named _ _ hn)
            obtain ⟨hid', hroom'⟩ := transitionJob_id hresult' rfl
            obtain ⟨hidw, hroomw⟩ := h.named _ _ hw
            have hbares : row.bare = row'.bare := Option.some_inj.1 hrows
            have hsave : s.save room row = _ := dif_pos hbound
            dsimp only
            rw [hsave]
            refine ⟨.replied _ _ _ rfl (congrArg ReplyBody.job (metadata_of_bare hbares)),
              fun k => ?_⟩
            change Twin sha256 now ((s.jobs.put (room, row.id) (.saved ⟨row, hbound⟩)).get? k)
              ((t.writeTaskJob sha256 (room, id) row').shelf k)
            rw [Table.get?_put, hid, WorkerTasks.shelf_writeTaskJob (hid'.trans hidw)
              (hroom'.trans hroomw)]
            split_ifs with hk
            · exact hrow.write hw hnode hresult rfl hresult' rfl hbares
            · exact h.rows k

end Writes

/-! ## Clean-up -/

section Clean

variable {sha256 : Str → Str} {now : ℤ} {s : NodeTasks} {t : WorkerTasks}

theorem Twins.not_corrupt (h : Twins sha256 now s t) :
    s.jobs.values.any TaskRow.isCorrupt = false := by
  refine List.any_eq_false.2 fun row hrow => ?_
  obtain ⟨k, hk⟩ := Table.mem_values.1 hrow
  have htwin := h.rows k
  rw [hk] at htwin
  cases htwin
  exact Bool.false_ne_true

/-- The storage has no more rows than the Worker store lists. -/
def Listable (t : WorkerTasks) : Prop := t.jobs.rows.length ≤ ROOM_RECEIPT_LIMIT + ROOM_JOB_LIMIT

theorem agrees_clean (h : Twins sha256 now s t) (connected : Option (List (Option Str)))
    (hlist : Listable t) :
    Agrees sha256 now (.clean connected) (s.call sha256 now (.clean connected))
      (t.call sha256 now (.clean connected)) := by
  have hworker : ∃ next t', t.maintain sha256 connected now = .ok (next, t') := by
    unfold WorkerTasks.maintain WorkerTasks.boundedRecords
    rw [if_neg (not_lt.2 hlist)]
    exact ⟨_, _, rfl⟩
  obtain ⟨next, t', ht⟩ := hworker
  change Agrees _ _ _ (s.transact (NodeTasks.answer .deadline (s.purgeInTransaction now)))
    (t.whole .deadline (t.maintain sha256 connected now))
  unfold NodeTasks.purgeInTransaction
  rw [ht, h.not_corrupt, if_neg Bool.false_ne_true]
  refine ⟨.cleaned connected none next, fun k => ?_⟩
  change Twin sha256 now ((s.jobs.filterMap fun _ => NodeTasks.purgeRow now).get? k) (t'.shelf k)
  rw [Table.get?_filterMap, WorkerTasks.shelf_maintain h.named ht]
  exact (h.rows k).maintain

end Clean

/-! ## Calls -/

/-- What must hold of a call, and of the stores before it, for the answers to be the same. -/
def Agreeable (sha256 : Str → Str) (now : ℤ) (t : WorkerTasks) : TaskCall → Prop
  | .put room id body => Storable now t room id body
  | .transition room id action body =>
    action ≠ .cancel → ∀ w, t.jobs.get? (room, id) = some w → TokenAgrees sha256 w body
  | .getPublic room id metadataOnly =>
    metadataOnly = false → ∀ w, t.jobs.get? (room, id) = some w → expires w now = false
  | .clean _ => Listable t
  | .list _ => True
  | .listActive _ => True
  | .due _ _ _ => True

/-- **An agreeable call** of twin stores is answered alike. -/
theorem agrees_call {sha256 : Str → Str} {now : ℤ} {s : NodeTasks} {t : WorkerTasks}
    (h : Twins sha256 now s t) {c : TaskCall} (hc : Agreeable sha256 now t c) :
    Agrees sha256 now c (s.call sha256 now c) (t.call sha256 now c) := by
  cases c with
  | put room id body => exact agrees_put h body hc
  | transition room id action body => exact agrees_transition h action body hc
  | list room => exact agrees_list h room
  | listActive room => exact agrees_listActive h room
  | getPublic room id metadataOnly => exact agrees_getPublic h room id metadataOnly hc
  | due room recipientKeyId excluded => exact agrees_due h room recipientKeyId excluded
  | clean connected => exact agrees_clean h connected hc

/-- The stores after an agreeable call are twins. -/
theorem Twins.call {sha256 : Str → Str} {now : ℤ} {s : NodeTasks} {t : WorkerTasks}
    (h : Twins sha256 now s t) {c : TaskCall} (hc : Agreeable sha256 now t c) :
    Twins sha256 now (s.call sha256 now c).2 (t.call sha256 now c).2 where
  rows := (agrees_call h hc).rows
  named := (WorkerTasks.call_effect h.named sha256 now c).2
  node := JobStore.Unclaimed.call (S := NodeTasks.store sha256) h.node now c
  worker := JobStore.Unclaimed.call (S := WorkerTasks.store sha256) (s := ⟨t, h.named⟩) h.worker
    now c
  fits := (WorkerTasks.loading_call h.named sha256 now c).fits h.fits

/-! ## Runs -/

/-- The two stores, and the time of the last call to them. -/
structure BothStores where
  clock : ℤ
  node : NodeTasks
  worker : WorkerTasks

namespace BothStores

/-- Two empty stores. -/
def start (clock : ℤ) : BothStores := ⟨clock, .empty, .empty⟩

/-- Both stores take the call. -/
def next (sha256 : Str → Str) (b : BothStores) (now : ℤ) (c : TaskCall) : BothStores :=
  ⟨now, (b.node.call sha256 now c).2, (b.worker.call sha256 now c).2⟩

/-- Both stores after some calls. -/
def after (sha256 : Str → Str) (calls : List (ℤ × TaskCall)) : BothStores :=
  calls.foldl (fun b l => b.next sha256 l.1 l.2) (start 0)

/-- An agreeable call, no earlier than the last one. -/
def Step (sha256 : Str → Str) (b : BothStores) (l : ℤ × TaskCall) (b' : BothStores) : Prop :=
  b.clock ≤ l.1 ∧ Agreeable sha256 l.1 b.worker l.2 ∧ b' = b.next sha256 l.1 l.2

end BothStores

end GrantTap
