import GrantTapRelay.TaskDispatch.Interchangeable
import GrantTapRelay.TaskDispatch.Maintenance

/-!
# A Worker room in order

The storage of a room is `Orderly` when its rows are its own, its bounds are kept and its
ciphertexts are complete. Then neither `maintain` nor `due` throws, which the room calls without
catching what they throw; and a request for the room keeps the storage so (`Orderly.response`).

After its first look at an existing job a request does one of seven things (`Turn`). One that is
refused, and a `GET`, leave the deadlines of the room as they were (`response_quiet`).
-/

namespace GrantTap

open Js

/-! ## The turns of a request -/

namespace TaskBackend

variable {B : TaskBackend} {q : TaskRequest} {room : Str} {s : B.State}

/-- What a request for a room does to the storage. -/
inductive Turn (B : TaskBackend) (q : TaskRequest) (room : Str) (s : B.State) : B.Handled → Prop
  | rest (r : Except Throw Reply) : Turn B q room s (r, s)
  | read (c : TaskCall) (hm : q.method = .GET) (hwrites : c.writes = false)
      (hcleans : c.cleans = false) : Turn B q room s (B.replyOf (B.call s q.actedAt c))
  | put (id : Str) (body : Value) (hm : q.method ≠ .GET) :
    Turn B q room s (B.replyOf (B.call s q.actedAt (.put room id body)))
  | transition (id : Str) (action : TaskAction) (body : Value) (hm : q.method ≠ .GET) :
    Turn B q room s (B.replyOf (B.call s q.actedAt (.transition room id action body)))
  | writers (reply : Reply) (registry : Registry)
      (hsame : registry.configurations = (B.registry s).configurations) :
    Turn B q room s (.ok reply, B.withRegistry s registry)
  | configuration (id : Str) (reply : Reply) (hm : q.method = .GET) :
    Turn B q room s (.ok reply,
      B.withRegistry s ((B.registry s).getConfiguration room id q.actedAt).2)
  | configure (id : Str) (body : Value) (reply : Reply) (registry : Registry)
      (hm : q.method ≠ .GET)
      (hput : (B.registry s).putConfiguration room id body q.actedAt = .ok (reply, registry)) :
    Turn B q room s (.ok reply, B.withRegistry s registry)

theorem turn_onRegistry {r : Except Throw (Reply × Registry)}
    (h : ∀ reply registry, r = .ok (reply, registry) →
      registry.configurations = (B.registry s).configurations) :
    Turn B q room s (B.onRegistry s r) := by
  rcases r with e | ⟨reply, registry⟩
  · exact .rest _
  · exact .writers reply registry (h reply registry rfl)

theorem turn_handleConfiguration (id : Str) :
    Turn B q room s (B.handleConfiguration s q room id) := by
  unfold handleConfiguration
  split_ifs
  · exact .rest _
  · split
    · exact .configuration id _ ‹_›
    · split
      · exact .rest _
      · cases hput : (B.registry s).putConfiguration room id _ q.actedAt with
        | error e => exact .rest _
        | ok r => exact .configure id _ r.1 r.2 (by simp [*]) hput
    · exact .rest _

theorem turn_handleResources (id : Str) (writer : Option WriterGrant) :
    Turn B q room s (B.handleResources s q room id writer) := by
  unfold handleResources
  split_ifs
  · exact .rest _
  · split
    · exact turn_onRegistry fun reply registry h => Registry.configurations_resourcesOf h
    · split
      · exact .rest _
      · exact turn_onRegistry fun reply registry h => Registry.configurations_resourcesOf h
    · exact .rest _

theorem turn_handleGrant (id : Str) (hcommit : ∀ registry room row now,
      (B.commitWriter registry room row now).2.configurations = registry.configurations) :
    Turn B q room s (B.handleGrant s q room id) := by
  unfold handleGrant
  split_ifs
  · exact .rest _
  · split
    · split
      · exact .rest _
      · refine turn_onRegistry fun reply registry h => ?_
        rw [← show _ = registry from congrArg Prod.snd (Except.ok.inj h)]
        unfold Registry.putWriter
        split
        · exact hcommit ..
        · rfl
    · refine turn_onRegistry fun reply registry h => ?_
      rw [← show _ = registry from congrArg Prod.snd (Except.ok.inj h)]
      exact Registry.configurations_revoke ..
    · exact .rest _

theorem turn_putJob (id : Str) (writer : Option WriterGrant) (body : Value) (hm : q.method ≠ .GET) :
    Turn B q room s (B.putJob s q room id writer body) := by
  unfold putJob
  split
  · exact .put id body hm
  · split
    · exact .rest _
    · exact .rest _
    · exact .put id _ hm

theorem turn_actOnJobs (writer : Option WriterGrant) (id : Option Str)
    (action : Option TaskAction) : Turn B q room s (B.actOnJobs s q room writer id action) := by
  unfold actOnJobs
  split
  · exact .read _ ‹_› rfl rfl
  · exact .read _ ‹_› rfl rfl
  · split
    · exact .rest _
    · exact turn_putJob _ _ _ (by simp [*])
  · split
    · exact .rest _
    · exact .transition _ _ _ (by simp [*])
  · exact .transition _ _ _ (by simp [*])
  · exact .rest _

/-- The storage when the turn begins: an existing job may have been read. -/
def Looked (B : TaskBackend) (q : TaskRequest) (room : Str) (s s' : B.State) : Prop :=
  s' = s ∨ ∃ id, s' = (B.call s q.existingAt (.getPublic room id true)).2

theorem turn_handleJobs (writer : Option WriterGrant) (id : Option Str)
    (action : Option TaskAction) :
    ∃ s', B.Looked q room s s' ∧ B.Turn q room s' (B.handleJobs s q room writer id action) := by
  unfold handleJobs
  split
  · exact ⟨s, .inl rfl, turn_actOnJobs none id action⟩
  · split
    · exact ⟨s, .inl rfl, .rest _⟩
    · rename_i id
      dsimp only
      split_ifs
      · exact ⟨s, .inl rfl, .rest _⟩
      · refine ⟨_, .inr ⟨id, rfl⟩, ?_⟩
        split
        · exact .rest _
        · split_ifs
          · exact .rest _
          · exact turn_actOnJobs _ _ _

/-- **A request takes a turn**, on the storage that its first look left. -/
theorem turn_response (hcommit : ∀ registry room row now,
      (B.commitWriter registry room row now).2.configurations = registry.configurations)
    (hroom : q.room = some (.str room)) :
    ∃ s', B.Looked q room s s' ∧ B.Turn q room s' (B.taskDispatchResponse s q) := by
  have rest (r : Except Throw Reply) : ∃ s', B.Looked q room s s' ∧ B.Turn q room s' (r, s) :=
    ⟨s, .inl rfl, .rest r⟩
  unfold taskDispatchResponse
  rw [hroom]
  split
  · exact rest _
  · rename_i room' hvalid
    obtain rfl : room = room' := by
      obtain ⟨hsame, -⟩ := Option.filter_eq_some_iff.1 hvalid
      exact Option.some_inj.1 hsame
    dsimp only
    split_ifs
    · exact rest _
    · split
      · exact ⟨s, .inl rfl, turn_handleConfiguration _⟩
      · split
        · exact ⟨s, .inl rfl, turn_handleResources _ _⟩
        · split
          · exact ⟨s, .inl rfl, turn_handleGrant _ hcommit⟩
          · split
            · exact rest _
            · split_ifs
              · exact turn_handleJobs _ _ _
              · exact rest _

end TaskBackend

/-! ## Order -/

namespace WorkerTasks

variable {sha256 : Str → Str} {toNumber : Str → Option Number} {s t : WorkerTasks} {room : Str}
  {now now' : ℤ}

/-- The storage of a room in order. -/
structure Orderly (sha256 : Str → Str) (room : Str) (s : WorkerTasks) : Prop where
  named : s.Named
  home : ∀ k row, s.jobs.get? k = some row → k.1 = room
  fits : ∀ room, Fits s.jobs.get? room
  mirrors : ∀ k, ∃ body, (s.shelf k).Mirrors sha256 body
  tidy : s.registry.Tidy room

theorem orderly_empty (sha256 : Str → Str) (room : Str) : empty.Orderly sha256 room where
  named := named_empty
  home := fun k row h => by cases h
  fits := fun room l => Loads.bounded_empty fun _ => rfl
  mirrors := fun k => ⟨none, .vacant none⟩
  tidy := ⟨fun k row h => (by cases h), Nat.zero_le _⟩

theorem Orderly.withRegistry (h : s.Orderly sha256 room) {registry : Registry}
    (htidy : registry.Tidy room) :
    ({ s with registry := registry } : WorkerTasks).Orderly sha256 room :=
  { h with tidy := htidy }

/-- A moved shelf has a row only where there was one. -/
theorem isSome_of_move {shelf shelf' : Shelf} (h : Shelf.Move sha256 now shelf shelf')
    (hrow : shelf'.row.isSome) : shelf.row.isSome := by
  cases h with
  | keep => exact hrow
  | age =>
    unfold Shelf.age at hrow
    split at hrow
    · rename_i row hrow'
      rw [hrow']
      rfl
    · exact hrow
  | drop row hrow' => cases hrow
  | store row row' action body proofHash result hrow' => rw [hrow']; rfl

/-- **A call for the room** keeps it in order, but for its registry. -/
theorem Orderly.call (h : s.Orderly sha256 room) (now : ℤ) {c : TaskCall}
    (hroom : ∀ room' id body, c = .put room' id body → room' = room)
    (htidy : (s.call sha256 now c).2.registry.Tidy room) :
    (s.call sha256 now c).2.Orderly sha256 room := by
  have hmirrors (k : RoomKey) : ∃ body, ((s.call sha256 now c).2.shelf k).Mirrors sha256 body := by
    choose bodies hbodies using h.mirrors
    have hm : History.Mirrored (⟨⟨s, h.named⟩, now, bodies, [], []⟩ : History (store sha256)) :=
      hbodies
    exact ⟨_, hm.next now c k⟩
  refine ⟨(call_effect h.named sha256 now c).2, fun k row hrow => ?_,
    (loading_call h.named sha256 now c).fits h.fits, hmirrors, htidy⟩
  have hat {t : WorkerTasks} (hmove : Shelf.Move sha256 now (s.shelf k) (t.shelf k))
      (hget : t.jobs.get? k = some row) : k.1 = room := by
    have hsome : (t.shelf k).row.isSome := by
      rw [shelf_row, hget]
      rfl
    obtain ⟨row₀, hrow₀⟩ := Option.isSome_iff_exists.1 (isSome_of_move hmove hsome)
    exact h.home k row₀ hrow₀
  have heffect := shelf_call h.named sha256 now c
  generalize (s.call sha256 now c).1 = answer at heffect
  generalize (s.call sha256 now c).2 = after at heffect hrow
  cases heffect with
  | moved _ _ _ hmove => exact hat (hmove k) hrow
  | created room' id body job rows s' reply hstatus hnone hjob hrows hplace =>
    obtain ⟨cipher, hjobs⟩ := writeTaskJob_jobs sha256 s' (room', id)
      (queuedJob job (sha256 job.canonical) id (some room') now)
    rw [hjobs, Table.get?_put] at hrow
    split_ifs at hrow with hk
    · rw [hk]
      exact hroom room' id body rfl
    · exact hat (move_rows h.named hrows k) hrow

/-! ### What does not throw -/

theorem Orderly.length_rows (h : s.Orderly sha256 room) :
    s.jobs.rows.length ≤ ROOM_RECEIPT_LIMIT := by
  have hall : (s.jobs.rows.filter fun r => r.1.1 = room) = s.jobs.rows := by
    refine List.filter_eq_self.2 fun r hr => decide_eq_true ?_
    exact h.home r.1 r.2 (Table.mem_rows.1 hr)
  have hlength := Twins.length_roomRows_le (h.fits room)
  unfold roomRows at hlength
  rwa [List.length_insertionSort, hall] at hlength

theorem boundedRecords_eq {rows : List (RoomKey × Job)} (h : rows.length ≤ ROOM_RECEIPT_LIMIT) :
    boundedRecords rows = .ok rows := if_neg (by omega)

/-- **`maintain` does not throw** in an orderly room. -/
theorem Orderly.maintain_ok (h : s.Orderly sha256 room) (connected : Option (List (Option Str)))
    (now : ℤ) : ∃ next t, s.maintain sha256 connected now = .ok (next, t) := by
  unfold maintain
  rw [boundedRecords_eq h.length_rows]
  exact ⟨_, _, rfl⟩

/-- A row that is written back has its payload, or does not retain one. -/
theorem hydrate_ok (hs : s.Named) {k : RoomKey} {row : Job} {body : Option NormalizedJob}
    (hmirrors : (s.shelf k).Mirrors sha256 body) (hrow : s.jobs.get? k = some row) :
    ∃ row', s.hydrateTaskJob sha256 row = .ok row' := by
  obtain ⟨hid, hroom⟩ := hs k row hrow
  have hshelfRow : (s.shelf k).row = some row := hrow
  generalize hshelf : s.shelf k = shelf at hmirrors hshelfRow
  cases hmirrors with
  | vacant => cases hshelfRow
  | retired row₀ body hretired hnone =>
    cases hshelfRow
    unfold hydrateTaskJob
    rw [hnone]
    exact ⟨_, rfl⟩
  | kept row₀ job box hretains hcipher hbox =>
    cases hshelfRow
    exact ⟨_, hydrate_eq hid hroom hcipher (congrArg Shelf.chunks hshelf) hbox.long hbox.short⟩

/-- **`due` does not throw** in an orderly room. -/
theorem Orderly.due_ok (h : s.Orderly sha256 room) (recipientKeyId : Str) (now : ℤ)
    (excluded : List Str) :
    ∃ jobs, (s.due sha256 room recipientKeyId now excluded).1 = .ok jobs := by
  have hlength : (roomRows s.jobs room).length ≤ ROOM_RECEIPT_LIMIT :=
    Twins.length_roomRows_le (h.fits room)
  obtain ⟨t, hrows⟩ : ∃ t, s.rows sha256 room now =
      .ok ((roomRows s.jobs room).map fun r => expireJob r.2 now, t) := by
    unfold rows
    rw [boundedRecords_eq hlength]
    exact ⟨_, rfl⟩
  unfold due
  rw [hrows]
  dsimp only
  split
  · exact ⟨_, rfl⟩
  · rename_i next hnext
    have hmem := List.mem_of_mem_head? hnext
    rw [List.mem_insertionSort, List.mem_filter] at hmem
    obtain ⟨hmem, hdue⟩ := hmem
    obtain ⟨r, hr, rfl⟩ := List.mem_map.1 hmem
    -- what is due has not expired, so that the pass left its row
    have hexpires : expires r.2 now = false := by
      rw [Bool.eq_false_iff]
      intro hexpires
      rw [expireJob, if_pos hexpires] at hdue
      simp [isDue, retireJob] at hdue
    obtain ⟨hget, hroom⟩ := mem_roomRows.1 hr
    have hkept : t.jobs.get? r.1 = some r.2 := by
      rw [← shelf_row, shelf_rows h.named hrows, if_pos hroom, Shelf.age, shelf_row, hget]
      dsimp only
      rw [hexpires]
      exact hget
    obtain ⟨body, hmirrors⟩ := h.mirrors r.1
    obtain ⟨row, hrow⟩ := hydrate_ok (rows_ok h.named hrows).2
      ((move_rows h.named hrows r.1).mirrors hmirrors) hkept
    have hsame : expireJob r.2 now = r.2 := by
      rw [expireJob, hexpires]
      rfl
    rw [hsame, hrow]
    exact ⟨_, rfl⟩

/-- A call that does not clean up. -/
theorem Orderly.call_of_ne_clean (h : s.Orderly sha256 room) (now : ℤ) {c : TaskCall}
    (hroom : ∀ room' id body, c = .put room' id body → room' = room)
    (hclean : ∀ connected, c ≠ .clean connected) : (s.call sha256 now c).2.Orderly sha256 room := by
  refine h.call now hroom ?_
  rw [registry_call sha256 s now hclean]
  exact h.tidy

theorem store_call {s : { s : WorkerTasks // s.Named }} {c : TaskCall}
    {a : Except Throw TaskAnswer} (h : s.1.call sha256 now c = (a, t)) (ht : t.Named) :
    (store sha256).call s now c = (a, ⟨t, ht⟩) := by
  have hanswer : (s.1.call sha256 now c).1 = a := congrArg Prod.fst h
  have hstate : (s.1.call sha256 now c).2 = t := congrArg Prod.snd h
  exact Prod.ext hanswer (Subtype.ext hstate)

/-! ### Requests -/

theorem Orderly.looked {q : TaskRequest} {s s' : (workerBackend sha256 toNumber).State}
    (h : s.1.Orderly sha256 room) (hlooked : (workerBackend sha256 toNumber).Looked q room s s') :
    s'.1.Orderly sha256 room := by
  rcases hlooked with rfl | ⟨id, rfl⟩
  · exact h
  · exact h.call_of_ne_clean _ (by simp) (by simp)

/-- **A request keeps its room in order.** -/
theorem Orderly.response (toNumber : Str → Option Number) {q : TaskRequest}
    {s : (workerBackend sha256 toNumber).State} (h : s.1.Orderly sha256 room)
    (hroom : q.room = some (.str room)) :
    ((workerBackend sha256 toNumber).taskDispatchResponse s q).2.1.Orderly sha256 room := by
  obtain ⟨s', hlooked, hturn⟩ := TaskBackend.turn_response
    (B := (workerBackend sha256 toNumber).toTaskBackend) (s := s)
    Registry.configurations_commitWriterGrant hroom
  have h' := h.looked hlooked
  generalize (workerBackend sha256 toNumber).taskDispatchResponse s q = r at hturn
  cases hturn with
  | rest r => exact h'
  | read c hm hwrites hcleans =>
    refine h'.call_of_ne_clean _ ?_ ?_
    · rintro room' id body rfl
      cases hwrites
    · rintro connected rfl
      cases hcleans
  | put id body hm =>
    refine h'.call_of_ne_clean _ ?_ (by simp)
    rintro room' id' body' hc
    cases hc
    rfl
  | transition id action body hm => exact h'.call_of_ne_clean _ (by simp) (by simp)
  | writers reply registry hsame => exact h'.withRegistry (h'.tidy.congr hsame)
  | configuration id reply hm =>
    exact h'.withRegistry (h'.tidy.of_sublist (Registry.sublist_getConfiguration ..))
  | configure id body reply registry hm hput =>
    exact h'.withRegistry (h'.tidy.putConfiguration hput)

/-! ### Requests that leave the deadlines -/

/-- A transition that stores a row answers 200. -/
theorem status_of_row {row row' : Job} {action : TaskAction} {body : Value} {proofHash : Str}
    {result : JobResult} (h : transitionJob row action body now proofHash = .ok result)
    (hrow : result.row = some row') : result.status = 200 := by
  cases action with
  | claim =>
    rcases claimJob_ok h with hr | ⟨row₁, claimId, rfl, -⟩
    · exact absurd (hr.1.symm.trans hrow) (by simp)
    · rfl
  | finish =>
    rcases finishJob_ok h with hr | ⟨row₁, claimId, rfl, -⟩
    · exact absurd (hr.1.symm.trans hrow) (by simp)
    · rfl
  | cancel =>
    cases h
    rcases cancelJob_cases row now with hr | ⟨row₁, he, -⟩
    · exact absurd (hr.1.symm.trans hrow) (by simp)
    · rw [he]
      rfl

theorem view_put_refused (hs : s.Named) {id : Str} {body : Value} {reply : Reply}
    (h : s.put sha256 room id body now = .ok (reply, t)) (hstatus : 300 ≤ reply.status) :
    t.view now = s.view now := by
  unfold put at h
  obtain ⟨parsed, hparsed, h⟩ := except_bind_ok.1 h
  cases parsed with
  | none =>
    cases h
    rfl
  | some job =>
    cases hexisting : s.jobs.get? (room, id) with
    | some existing =>
      rw [hexisting] at h
      dsimp only at h
      split_ifs at h <;> cases h <;> rfl
    | none =>
      rw [hexisting] at h
      dsimp only at h
      obtain ⟨⟨rows, s'⟩, hrows, h⟩ := except_bind_ok.1 h
      dsimp only at h
      split_ifs at h <;> cases h
      · exact view_rows hs hrows
      · exact absurd hstatus (show ¬300 ≤ 201 by decide)

theorem view_transition_refused {id : Str} {action : TaskAction} {body : Value} {reply : Reply}
    (h : s.transition sha256 room id action body now = .ok (reply, t))
    (hstatus : 300 ≤ reply.status) : t.view now = s.view now := by
  obtain ⟨proofHash, -, h⟩ := except_bind_ok.1 h
  split at h
  · cases h
    rfl
  · obtain ⟨result, hresult, h⟩ := except_bind_ok.1 h
    split at h <;> cases h
    · rfl
    · rw [status_of_row hresult ‹_›] at hstatus
      exact absurd hstatus (show ¬300 ≤ 200 by decide)

/-- A call whose reply refuses. -/
theorem view_refused {c : TaskCall} {r : Except Throw (Reply × WorkerTasks)}
    (hwhole : s.call sha256 now c = s.whole .reply r)
    (hr : ∀ reply t, r = .ok (reply, t) → 300 ≤ reply.status → t.view now = s.view now)
    (hstatus : ∀ reply, (s.call sha256 now c).1 = .ok (.reply reply) → 300 ≤ reply.status) :
    (s.call sha256 now c).2.view now = s.view now := by
  rw [hwhole] at hstatus ⊢
  rcases r with e | ⟨reply, t⟩
  · rfl
  · exact hr reply t rfl (hstatus reply rfl)

/-- The router passes the status of a reply on. -/
theorem status_replyOf {B : TaskBackend} {r : Except Throw TaskAnswer × B.State} {reply : Reply}
    (h : r.1 = .ok (.reply reply)) :
    ∃ reply', (B.replyOf r).1 = .ok reply' ∧ reply'.status = reply.status := by
  obtain ⟨status, body⟩ := reply
  unfold TaskBackend.replyOf
  rw [h]
  cases body <;> exact ⟨_, rfl, rfl⟩

/-- A request that the room answers without a new schedule. -/
def Quiet (q : TaskRequest) (answer : Except Throw Reply) : Prop :=
  q.method = .GET ∨ ∀ reply, answer = .ok reply → 300 ≤ reply.status

theorem Quiet.refused {B : TaskBackend} {q : TaskRequest} {r : Except Throw TaskAnswer × B.State}
    (h : Quiet q (B.replyOf r).1) (hm : q.method ≠ .GET) {reply : Reply}
    (hr : r.1 = .ok (.reply reply)) : 300 ≤ reply.status := by
  obtain ⟨reply', hreply', hstatus⟩ := status_replyOf hr
  rw [← hstatus]
  exact (h.resolve_left hm) reply' hreply'

/-- **A request that is refused, and a `GET`,** leave the rows as they were, once their expiry is
settled; they add no configuration. -/
theorem response_quiet (toNumber : Str → Option Number) {q : TaskRequest}
    (s : (workerBackend sha256 toNumber).State) (hroom : q.room = some (.str room))
    (hlooked : q.existingAt ≤ q.actedAt)
    (hquiet : Quiet q ((workerBackend sha256 toNumber).taskDispatchResponse s q).1)
    (hlater : q.actedAt ≤ now) :
    let s' := ((workerBackend sha256 toNumber).taskDispatchResponse s q).2
    s'.1.view now = s.1.view now ∧
      s'.1.registry.configurations.rows.Sublist s.1.registry.configurations.rows := by
  obtain ⟨s', hs', hturn⟩ := TaskBackend.turn_response
    (B := (workerBackend sha256 toNumber).toTaskBackend) (s := s)
    Registry.configurations_commitWriterGrant hroom
  have view_le {t t' : WorkerTasks} {at' : ℤ} (h : t.view at' = t'.view at') (hle : at' ≤ now) :
      t.view now = t'.view now := by rw [← view_later t hle, ← view_later t' hle, h]
  have hfirst : s'.1.view now = s.1.view now ∧ s'.1.registry = s.1.registry := by
    rcases hs' with rfl | ⟨id, rfl⟩
    · exact ⟨rfl, rfl⟩
    · exact ⟨view_le (view_read s.2 rfl rfl) (hlooked.trans hlater),
        registry_call sha256 s.1 q.existingAt (by simp)⟩
  have called {c : TaskCall} (hc : ∀ connected, c ≠ .clean connected)
      (h : (s'.1.call sha256 q.actedAt c).2.view q.actedAt = s'.1.view q.actedAt) :
      (s'.1.call sha256 q.actedAt c).2.view now = s.1.view now ∧
        (s'.1.call sha256 q.actedAt c).2.registry.configurations.rows.Sublist
          s.1.registry.configurations.rows := by
    refine ⟨(view_le h hlater).trans hfirst.1, ?_⟩
    rw [registry_call sha256 s'.1 q.actedAt hc, hfirst.2]
  rw [← hfirst.1, ← hfirst.2] at *
  dsimp only
  generalize (workerBackend sha256 toNumber).taskDispatchResponse s q = r at hturn hquiet ⊢
  cases hturn with
  | rest r => exact ⟨rfl, List.Sublist.refl _⟩
  | read c hm hwrites hcleans =>
    refine called ?_ (view_read s'.2 hwrites hcleans)
    rintro connected rfl
    cases hcleans
  | put id body hm =>
    exact called (by simp) (view_refused rfl (fun reply t h => view_put_refused s'.2 h)
      fun reply hr => hquiet.refused hm hr)
  | transition id action body hm =>
    exact called (by simp) (view_refused rfl (fun reply t h => view_transition_refused h)
      fun reply hr => hquiet.refused hm hr)
  | writers reply registry hsame => exact ⟨rfl, hsame ▸ List.Sublist.refl _⟩
  | configuration id reply hm => exact ⟨rfl, Registry.sublist_getConfiguration ..⟩
  | configure id body reply registry hm hput =>
    exact ⟨rfl, Registry.sublist_putConfiguration hput ((hquiet.resolve_left hm) reply rfl)⟩

end WorkerTasks

end GrantTap
