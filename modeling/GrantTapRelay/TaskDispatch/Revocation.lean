import GrantTapRelay.TaskDispatch.Backends

/-!
# Revocation and writes in flight

A writer's `PUT` waits for its authorization and for its body, and other requests are handled
meanwhile. `Put` is such a request between two waits, `World` a store with its unfinished requests,
and a step of the world lets one request run to its next wait or revokes a grant. `put_in_steps`:
without interleaving, the steps are `taskDispatchResponse`.

The grant is not consulted again when the body arrives. `no_new_work`: the writer of a revoked grant
creates no job, provided that no `PUT` of it that the store would take is under way when the
revocation commits; `revoked_writer_creates` is a run where one is.
-/

namespace GrantTap

open Js Runs

/-! ## Requests between two waits -/

/-- A `PUT` of a writer on `/task-jobs/:id`. -/
structure Put where
  request : TaskRequest
  room : Str
  id : Str
  method_put : request.method = .PUT
  not_owner : request.owner = false
  room_valid : request.room.str?.filter validRoom = some room
  path_job : retainedPath request.pathname = some id

/-- Where a request waits, or how it ended. -/
inductive Phase
  /-- For its authorization. -/
  | arrived
  /-- Its grant was found; the ownership check is next. -/
  | admitted (writer : WriterGrant)
  /-- For its body. -/
  | reading (writer : WriterGrant)
  | done (reply : Except Throw Reply)

/-- The writer of a request that passed its grant check and has not ended. -/
def Phase.writer : Phase → Option WriterGrant
  | admitted writer => some writer
  | reading writer => some writer
  | _ => none

namespace Put

variable (B : TaskBackend) (p : Put)

/-- `store.writers.authorize(…)` -/
def authorize (s : B.State) (now : ℤ) : Phase :=
  match B.writerOf s { p.request with authorizedAt := now } p.room with
  | some writer => .admitted writer
  | none => .done (.ok (.error 401 "invalid room credential"))

/-- The ownership check, from the answer of `getPublic`. -/
def check (writer : WriterGrant) : Except Throw TaskAnswer → Phase
  | .error t => .done (.error t)
  | .ok answer =>
    let existing := TaskBackend.existingOf answer
    if existing.isSome && TaskBackend.foreign writer existing then
      .done (.ok (.error 404 "unknown task job"))
    else .reading writer

/-- The rest, once the body arrived. -/
def finish (s : B.State) (now : ℤ) (writer : WriterGrant) : Phase × B.State :=
  match p.request.read JOB_BYTES with
  | .error t => (.done (.error t), s)
  | .ok body =>
    let r := B.putJob s { p.request with actedAt := now } p.room p.id (some writer) body
    (.done r.1, r.2)

/-- The request runs from one wait to the next. -/
def run (s : B.State) (now : ℤ) : Phase → Phase × B.State
  | .arrived => (p.authorize B s now, s)
  | .admitted writer =>
    let r := B.call s now (.getPublic p.room p.id true)
    (check writer r.1, r.2)
  | .reading writer => p.finish B s now writer
  | .done reply => (.done reply, s)

variable {B p}

/-- Two steps of an admitted request are the job route of the router. -/
theorem run_admitted (s : B.State) (writer : WriterGrant) {t₂ t₃ : ℤ} {q : TaskRequest}
    (hm : q.method = .PUT) (hread : q.read = p.request.read) (h₂ : q.existingAt = t₂)
    (h₃ : q.actedAt = t₃) :
    let r := p.run B s t₂ (.admitted writer)
    p.run B r.2 t₃ r.1 = (.done (B.handleJobs s q p.room (some writer) (some p.id) none).1,
      (B.handleJobs s q p.room (some writer) (some p.id) none).2) := by
  have hfinish (s : B.State) : p.finish B s t₃ writer =
      (.done (B.actOnJobs s q p.room (some writer) (some p.id) none).1,
        (B.actOnJobs s q p.room (some writer) (some p.id) none).2) := by
    unfold finish TaskBackend.actOnJobs
    rw [hm]
    dsimp only
    rw [hread]
    cases p.request.read JOB_BYTES with
    | error t => rfl
    | ok body =>
      unfold TaskBackend.putJob
      dsimp only
      rw [h₃]
  unfold TaskBackend.handleJobs
  dsimp only [run]
  rw [if_neg (by simp [hm]), h₂]
  generalize B.call s t₂ (.getPublic p.room p.id true) = r
  obtain ⟨answer, s'⟩ := r
  cases answer with
  | error t => rfl
  | ok answer =>
    dsimp only [check]
    simp only [hm, ne_eq, not_true_eq_false, decide_false, Bool.false_or]
    split_ifs
    · rfl
    · exact hfinish s'

/-- **Without interleaving** a request runs as `taskDispatchResponse` does. -/
theorem run_alone (s : B.State) (t₁ t₂ t₃ : ℤ) :
    let r₁ := p.run B s t₁ .arrived
    let r₂ := p.run B r₁.2 t₂ r₁.1
    let r := B.taskDispatchResponse s
      { p.request with authorizedAt := t₁, existingAt := t₂, actedAt := t₃ }
    p.run B r₂.2 t₃ r₂.1 = (.done r.1, r.2) := by
  obtain ⟨hconfiguration, hresource, hgrant, hjob, hvalid⟩ := routes_of_retainedPath p.path_job
  have hwriter : B.writerOf s { p.request with authorizedAt := t₁, existingAt := t₂, actedAt := t₃ }
      p.room = B.writerOf s { p.request with authorizedAt := t₁ } p.room := rfl
  dsimp only
  unfold TaskBackend.taskDispatchResponse
  rw [p.room_valid]
  dsimp only
  rw [hwriter, hconfiguration, hresource, hgrant, hjob, p.not_owner]
  cases hw : B.writerOf s { p.request with authorizedAt := t₁ } p.room with
  | none =>
    simp only [run, authorize, hw]
    rfl
  | some writer =>
    simp only [Option.isNone_some, Bool.and_false, Bool.false_eq_true, if_false, Option.all_some,
      hvalid, if_true]
    have harrived : p.run B s t₁ .arrived = (.admitted writer, s) := by
      simp only [run, authorize, hw]
    rw [harrived]
    exact run_admitted s writer p.method_put rfl rfl rfl

end Put

/-! ## Worlds -/

/-- What happens next. -/
inductive Event
  /-- A request of a writer arrives. -/
  | arrive (put : Put)
  /-- A request goes on. -/
  | resume (index : ℕ) (now : ℤ)
  /-- The owner's `DELETE` of a grant. -/
  | revoke (room id : Str) (now : ℤ)

/-- A store with the requests that have arrived and the grants whose revocation returned 200. -/
structure World (B : TaskBackend) where
  store : B.State
  puts : List (Put × Phase)
  revoked : List RoomKey

namespace World

variable {B : TaskBackend}

def start (s : B.State) : World B := ⟨s, [], []⟩

/-- A request goes on. -/
def resume (W : World B) (i : ℕ) (now : ℤ) (p : Put × Phase) : World B :=
  let r := p.1.run B W.store now p.2
  { W with store := r.2, puts := W.puts.set i (p.1, r.1) }

/-- The owner's `DELETE` commits and returns. -/
def revoke (W : World B) (room id : Str) (now : ℤ) : World B :=
  let r := (B.registry W.store).revoke room id now
  { W with
    store := B.withRegistry W.store r.2
    revoked := if r.1.status = 200 then (room, id) :: W.revoked else W.revoked }

def next (W : World B) : Event → World B
  | .arrive p => { W with puts := W.puts ++ [(p, .arrived)] }
  | .resume i now =>
    match W.puts[i]? with
    | some p => W.resume i now p
    | none => W
  | .revoke room id now => W.revoke room id now

theorem next_resume (W : World B) (i : ℕ) (now : ℤ) :
    W.next (.resume i now) = W ∨ ∃ p ∈ W.puts, W.next (.resume i now) = W.resume i now p := by
  unfold next
  dsimp only
  cases hp : W.puts[i]? with
  | none => exact .inl rfl
  | some p => exact .inr ⟨p, List.mem_of_getElem? hp, rfl⟩

end World

/-! ## The invariant -/

/-- The store would create a job of the writer from the body of the request, at some time. -/
def Put.Takes (B : TaskBackend) (p : Put) (writer : WriterGrant) : Prop :=
  ∃ body signed now normalized, p.request.read JOB_BYTES = .ok body ∧
    B.writerBody writer body = .ok (some signed) ∧
    normalizeJob p.room p.id signed now = .ok (some normalized)

namespace World

variable {B : ConfinedBackend} {W : World B.toTaskBackend} {room id : Str} {now : ℤ}

/-- No `PUT` that the store would take is under way for the writer. -/
def Quiet (W : World B.toTaskBackend) (room id : Str) : Prop :=
  ∀ p ∈ W.puts, p.1.room = room → ∀ w, p.2.writer = some w → w.id = id →
    ¬p.1.Takes B.toTaskBackend w

/-- A revocation commits when its writer is quiet. -/
def Orderly (W : World B.toTaskBackend) : Event → Prop
  | .revoke room id _ => W.Quiet room id
  | _ => True

/-- An event in order. -/
def Step (W : World B.toTaskBackend) (e : Event) (W' : World B.toTaskBackend) : Prop :=
  W.Orderly e ∧ W.next e = W'

/-- The grants stay revoked, and their writers quiet. -/
structure Settled (W : World B.toTaskBackend) : Prop where
  revoked : ∀ room id, (room, id) ∈ W.revoked → ∀ w,
    (B.registry W.store).writers.get? (room, id) = some w → w.revokedAt ≠ none
  quiet : ∀ room id, (room, id) ∈ W.revoked → W.Quiet room id

/-- Some job of the writer is there after the step, and none was before under its id. -/
def Creates (B : ConfinedBackend) (s t : B.State) (room id : Str) : Prop :=
  ∃ k row, k.1 = room ∧ B.job (B.content s k) = none ∧ B.job (B.content t k) = some row ∧
    row.writerId = some id

theorem get?_revoke (r : Registry) (room id : Str) (now : ℤ) (k : RoomKey) :
    (k ≠ (room, id) → (r.revoke room id now).2.writers.get? k = r.writers.get? k) ∧
      ∀ w, (r.revoke room id now).2.writers.get? (room, id) = some w → w.revokedAt ≠ none := by
  unfold Registry.revoke Registry.deleteResources
  dsimp only
  cases hrow : r.writers.get? (room, id) with
  | none =>
    refine ⟨fun _ => rfl, fun w hw => ?_⟩
    rw [hrow] at hw
    cases hw
  | some row =>
    have hid : row.id = id := r.named _ _ hrow
    dsimp only
    split_ifs with hnew
    · refine ⟨fun hk => ?_, fun w hw => ?_⟩
      · simp only [Registry.putGrant, Table.get?_put, hid, if_neg hk]
      · simp only [Registry.putGrant, Table.get?_put, hid, if_true] at hw
        cases hw
        exact Option.some_ne_none _
    · refine ⟨fun _ => rfl, fun w hw => ?_⟩
      cases hrow.symm.trans hw
      exact fun he => hnew (by rw [he]; rfl)

theorem registry_putJob (s : B.State) (q : TaskRequest) (w : WriterGrant) (body : Value) :
    B.registry (B.putJob s q room id (some w) body).2 = B.registry s := by
  unfold TaskBackend.putJob
  dsimp only
  split
  · rfl
  · rfl
  · rename_i signed _
    exact B.registry_call s q.actedAt (.put room id signed) nofun

theorem registry_run (p : Put) (phase : Phase) (s : B.State) (now : ℤ) :
    B.registry (p.run B.toTaskBackend s now phase).2 = B.registry s := by
  cases phase with
  | arrived => rfl
  | admitted writer => exact B.registry_call s now (.getPublic p.room p.id true) nofun
  | reading writer =>
    unfold Put.run Put.finish
    dsimp only
    split
    · rfl
    · exact registry_putJob _ _ _ _
  | done reply => rfl

/-- A request passes its grant check only under a grant that is stored and not revoked. -/
theorem writer_run {p : Put} {phase : Phase} {s : B.State} {w : WriterGrant}
    (h : (p.run B.toTaskBackend s now phase).1.writer = some w) :
    phase.writer = some w ∨
      (B.registry s).writers.get? (p.room, w.id) = some w ∧ w.revokedAt = none := by
  cases phase with
  | arrived =>
    right
    unfold Put.run Put.authorize at h
    dsimp only at h
    split at h
    · rename_i writer hwriter
      cases h
      have ha : B.Admitted s { p.request with authorizedAt := now } p.room w :=
        ⟨p.room_valid, hwriter⟩
      obtain ⟨-, hget, hlive⟩ := ha.authorized
      rw [if_neg (by simp [p.method_put])] at hlive
      exact ⟨hget, hlive.1⟩
    · cases h
  | admitted writer =>
    left
    unfold Put.run Put.check at h
    dsimp only at h
    split at h
    · cases h
    · split_ifs at h
      · cases h
      · exact h
  | reading writer =>
    unfold Put.run Put.finish at h
    dsimp only at h
    split at h <;> cases h
  | done reply => cases h

theorem mem_set_cases {puts : List (Put × Phase)} {i : ℕ} {p p' : Put × Phase}
    (h : p ∈ puts.set i p') : p = p' ∨ p ∈ puts := by
  rcases List.mem_or_eq_of_mem_set h with h | h
  · exact .inr h
  · exact .inl h

/-- **Step lemma**: an orderly event keeps the world settled. -/
theorem Settled.next (hW : W.Settled) {e : Event} (he : W.Orderly e) : (W.next e).Settled := by
  cases e with
  | arrive p =>
    refine ⟨hW.revoked, fun room id hk p' hp' hroom w hw => ?_⟩
    rcases List.mem_append.1 hp' with hp' | hp'
    · exact hW.quiet room id hk p' hp' hroom w hw
    · rw [List.mem_singleton.1 hp'] at hw
      cases hw
  | resume i now =>
    rcases next_resume W i now with he | ⟨p, hmem, he⟩ <;> rw [he]
    · exact hW
    · have hregistry := registry_run (B := B) p.1 p.2 W.store now
      refine ⟨fun room id hk w hw => ?_, fun room id hk p' hp' hroom w hw hid => ?_⟩
      · dsimp only [World.resume] at hw
        rw [hregistry] at hw
        exact hW.revoked room id hk w hw
      · rcases mem_set_cases hp' with rfl | hp'
        · rcases writer_run hw with hw | ⟨hget, hlive⟩
          · exact hW.quiet room id hk p hmem hroom w hw hid
          · dsimp only at hroom
            rw [hroom, hid] at hget
            exact absurd hlive (hW.revoked room id hk w hget)
        · exact hW.quiet room id hk p' hp' hroom w hw hid
  | revoke room id now =>
    unfold World.next World.revoke
    have hstatus : ((B.registry W.store).revoke room id now).1.status = 200 := rfl
    refine ⟨fun room' id' hk w hw => ?_, fun room' id' hk => ?_⟩
    · dsimp only at hw hk
      rw [B.registry_withRegistry] at hw
      obtain ⟨hother, hself⟩ := get?_revoke (B.registry W.store) room id now (room', id')
      by_cases hkey : (room', id') = (room, id)
      · rw [hkey] at hw
        exact hself w hw
      · rw [hother hkey] at hw
        rw [if_pos hstatus, List.mem_cons] at hk
        exact hW.revoked room' id' (hk.resolve_left hkey) w hw
    · dsimp only at hk
      rw [if_pos hstatus, List.mem_cons] at hk
      rcases hk with hk | hk
      · cases hk
        exact he
      · exact hW.quiet room' id' hk

theorem Settled.step {W' : World B.toTaskBackend} {e : Event} (hW : W.Settled) (h : W.Step e W') :
    W'.Settled := by
  obtain ⟨he, rfl⟩ := h
  exact hW.next he

/-- A job that a request creates is of its writer, from a body that the store takes. -/
theorem creates_run {p : Put} {phase : Phase} {s : B.State} {room id : Str}
    (h : Creates B s (p.run B.toTaskBackend s now phase).2 room id) :
    p.room = room ∧ ∃ w, phase.writer = some w ∧ w.id = id ∧ p.Takes B.toTaskBackend w := by
  obtain ⟨k, row, hroom, hnone, hrow, hwriter⟩ := h
  have hsame : ∀ t : B.State, B.content t k = B.content s k → B.job (B.content t k) ≠ some row :=
    fun t ht hrow => by
      rw [ht, hnone] at hrow
      cases hrow
  have haged : ∀ t : B.State, B.content t k = B.age now (B.content s k) →
      B.job (B.content t k) ≠ some row := fun t ht hrow => by
    have hage := B.age_job now (B.content s k)
    rw [← ht, hrow, hnone] at hage
    cases hage
  cases phase with
  | arrived => exact absurd hrow (hsame s rfl)
  | admitted writer =>
    rcases B.getPublic_content s now p.room p.id true k with he | he
    · exact absurd hrow (hsame _ he)
    · exact absurd hrow (haged _ he)
  | reading writer =>
    unfold Put.run Put.finish at hrow
    dsimp only at hrow
    split at hrow
    · exact absurd hrow (hsame s rfl)
    · rename_i body hread
      unfold TaskBackend.putJob at hrow
      dsimp only at hrow
      split at hrow
      · exact absurd hrow (hsame s rfl)
      · exact absurd hrow (hsame s rfl)
      · rename_i signed hsigned
        have hput := B.put_content s now p.room p.id signed k
        change B.job (B.content (B.call s now (.put p.room p.id signed)).2 k) = some row at hrow
        rcases hput with he | he | ⟨rfl, -, normalized, row', hnormalized, hrow', hw', -⟩
        · exact absurd hrow (hsame _ he)
        · exact absurd hrow (haged _ he)
        · cases hrow.symm.trans hrow'
          have hid := (ConfinedBackend.created_within hsigned hnormalized).1
          rw [← hw', hwriter] at hid
          exact ⟨hroom, writer, rfl, (Option.some.inj hid).symm, body, signed, now, normalized, hread,
            hsigned, hnormalized⟩
  | done reply => exact absurd hrow (hsame s rfl)

theorem Settled.not_creates (hW : W.Settled) (hk : (room, id) ∈ W.revoked) (e : Event) :
    ¬Creates B W.store (W.next e).store room id := by
  intro h
  cases e with
  | arrive p =>
    obtain ⟨k, row, -, hnone, hrow, -⟩ := h
    cases hnone.symm.trans hrow
  | resume i now =>
    rcases next_resume W i now with he | ⟨p, hmem, he⟩ <;> rw [he] at h
    · obtain ⟨k, row, -, hnone, hrow, -⟩ := h
      cases hnone.symm.trans hrow
    · obtain ⟨hroom, w, hw, hid, htakes⟩ := creates_run h
      exact hW.quiet room id hk p hmem hroom w hw hid htakes
  | revoke room' id' now =>
    obtain ⟨k, row, -, hnone, hrow, -⟩ := h
    unfold World.next World.revoke at hrow
    dsimp only at hrow
    rw [B.content_withRegistry, hnone] at hrow
    cases hrow

end World

/-- **Revocation stops new work** in every run whose revocations find their writers quiet: whatever
happens after the revocation of a grant returned 200, no job of its writer is created. -/
theorem no_new_work (sha256 : Str → Str) (toNumber : Str → Option Number) (runtime : Runtime)
    {s : (runtime.backend sha256 toNumber).State} {events : List Event}
    {W : World (runtime.backend sha256 toNumber).toTaskBackend}
    (hrun : Run World.Step (World.start s) events W) {room id : Str}
    (hrevoked : (room, id) ∈ W.revoked) (e : Event) :
    ¬World.Creates (runtime.backend sha256 toNumber) W.store (W.next e).store room id := by
  have hW : W.Settled := hrun.invariant (fun _ _ _ hW h => hW.step h) ⟨nofun, nofun⟩
  exact hW.not_creates hrevoked e

/-! ## Runs -/

section Sample

/-- The sample grant before its revocation. -/
def liveGrant : WriterGrant := { sampleGrant with revokedAt := none }

/-- The writer's `PUT` of a job. -/
def samplePut : Put where
  request := { sampleRead with method := .PUT, metadataOnly := false, read := fun _ => .ok sampleBody }
  room := sampleRoom
  id := sampleJob
  method_put := rfl
  not_owner := rfl
  room_valid := by decide +kernel
  path_job := by decide +kernel

/-- A world on a Node store with the live grant, after the events. -/
def sampleWorld (events : List Event) : World sampleNode.toTaskBackend :=
  events.foldl World.next <| .start
    { NodeTasks.empty with registry := Registry.empty.putGrant sampleRoom liveGrant }

/-- A request of the writer, handled up to its body. -/
def waitingEvents : List Event := [.arrive samplePut, .resume 0 1000, .resume 0 1000]

/-- The body arrives, and the job is created. -/
def createdEvents : List Event := waitingEvents ++ [.resume 0 1500]

/-- The owner revokes the grant. -/
def sampleRevocation : Event := .revoke sampleRoom sampleGrant.id 2000

theorem sampleWorld_snoc (events : List Event) (e : Event) :
    sampleWorld (events ++ [e]) = (sampleWorld events).next e := by
  rw [sampleWorld, List.foldl_append]
  rfl

theorem orderly_run :
    Run World.Step (sampleWorld []) (createdEvents ++ [sampleRevocation])
      (sampleWorld (createdEvents ++ [sampleRevocation])) := by
  have hdone : ((sampleWorld createdEvents).puts.all fun p => p.2.writer.isNone) = true := by
    decide +kernel
  have hcreated : Run World.Step (sampleWorld []) createdEvents (sampleWorld createdEvents) :=
    .cons ⟨trivial, rfl⟩ <| .cons ⟨trivial, rfl⟩ <| .cons ⟨trivial, rfl⟩ <|
      .cons ⟨trivial, rfl⟩ (.nil _)
  refine hcreated.snoc ⟨fun p hp _ w hw => ?_, (sampleWorld_snoc _ _).symm⟩
  have hnone := List.all_eq_true.1 hdone p hp
  rw [hw] at hnone
  cases hnone

/-- After the orderly run the next `PUT` creates no job. -/
theorem no_new_work_sample :
    ¬World.Creates sampleNode (sampleWorld (createdEvents ++ [sampleRevocation])).store
      ((sampleWorld (createdEvents ++ [sampleRevocation])).next (.arrive samplePut)).store
      sampleRoom sampleGrant.id :=
  no_new_work (fun _ => sampleTokenHash) (fun _ => none) .node orderly_run (by decide +kernel) _

/-- A body that arrives after the revocation still creates a job of the revoked writer. -/
theorem revoked_writer_creates :
    ¬∀ (s : sampleNode.State) (events : List Event) (W : World sampleNode.toTaskBackend)
      (room id : Str) (e : Event), Run (fun W e W' => W.next e = W') (.start s) events W →
        (room, id) ∈ W.revoked → ¬World.Creates sampleNode W.store (W.next e).store room id := by
  intro h
  refine h _ (waitingEvents ++ [sampleRevocation]) (sampleWorld (waitingEvents ++ [sampleRevocation]))
    sampleRoom sampleGrant.id (.resume 0 3000) (foldl_run World.next _ _) (by decide +kernel) ?_
  have hnone : (sampleNode.job (sampleNode.content
      (sampleWorld (waitingEvents ++ [sampleRevocation])).store (sampleRoom, sampleJob))).isNone =
        true := by decide +kernel
  have hsome : (sampleNode.job (sampleNode.content
      ((sampleWorld (waitingEvents ++ [sampleRevocation])).next (.resume 0 3000)).store
      (sampleRoom, sampleJob))).any (fun row => row.writerId = some sampleGrant.id) = true := by
    decide +kernel
  obtain ⟨row, hrow, hwriter⟩ := (Option.any_eq_true _ _).1 hsome
  exact ⟨(sampleRoom, sampleJob), row, rfl, Option.isNone_iff_eq_none.1 hnone, hrow,
    of_decide_eq_true hwriter⟩

end Sample

end GrantTap
