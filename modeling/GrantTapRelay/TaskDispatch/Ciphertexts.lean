import GrantTapRelay.Library.Chunks
import GrantTapRelay.Library.JsonText
import GrantTapRelay.TaskDispatch.OneReceiver
import GrantTapRelay.TaskDispatch.Shelves

/-!
# Ciphertexts and jobs

The Worker store cuts the box of a job into chunks and keeps its count, length and digest in the
row. A shelf mirrors the submitted job (`Shelf.Mirrors`) when it has the chunks of the submitted box
as long as its row retains a payload, and no chunk otherwise. Every move of a shelf preserves this
(`Shelf.Move.mirrors`): a transition keeps the envelope or retires the row, and a retired or deleted
row takes its chunks along.

* `SubmittedBox`: the box of a submitted job, whose length the bound on the job's bytes limits.
* `hydrate_eq`: reading the chunks gives the box back.
* `ciphertext_mirrors`: **the chunks are those of the jobs**, in every reachable state.
-/

namespace GrantTap

open Js Runs

/-! ## Boxes -/

/-- The box of a submitted job. -/
structure SubmittedBox (job : NormalizedJob) (box : Str) : Prop where
  envelope : job.envelope.get (lit "box") = some (.str box)
  long : 24 ≤ box.length
  short : box.length ≤ JOB_BYTES

theorem NormalizedJob.get_toJson_envelope (job : NormalizedJob) :
    job.toJson.get (lit "envelope") = some job.envelope := by
  have hbefore : (lit "envelope" == lit "notBefore") = false ∧
      (lit "envelope" == lit "expiresAt") = false ∧
        (lit "envelope" == lit "acceptanceHash") = false := by decide
  simp [toJson, Json.get, tail, List.lookup_cons, hbefore]

/-- **The bound on the bytes of a job** bounds its box. -/
theorem NormalizedJob.length_box_le {job : NormalizedJob} {box : Str}
    (h : job.envelope.get (lit "box") = some (.str box)) : box.length ≤ job.bytes :=
  calc box.length ≤ job.envelope.stringify.length := Json.length_le_stringify_of_get h
    _ ≤ job.canonical.length := Json.length_stringify_le_of_get job.get_toJson_envelope
    _ ≤ job.bytes := length_le_utf8Length job.canonical

/-- A normalized job has the box that was submitted. -/
theorem Normalizes.box {room id : Str} {body : Value} {now : ℤ} {job : NormalizedJob}
    (h : Normalizes room id body now job) :
    ∃ box, (body.get (lit "envelope")).get (lit "box") = some (.str box) ∧ SubmittedBox job box := by
  obtain ⟨envelope, henvelope, hjob⟩ := h.envelope
  obtain ⟨envelope', henvelope', hgrammar⟩ := h.grammar
  rw [henvelope] at henvelope'
  cases henvelope'
  obtain ⟨box, hbox, hlong, -⟩ := hgrammar.box
  have hget : job.envelope.get (lit "box") = some (.str box) := by
    rw [hjob, get_orderMembers, hbox]
  refine ⟨box, by rw [henvelope]; exact hbox, hget, hlong, ?_⟩
  exact le_trans (NormalizedJob.length_box_le hget) h.bytes

/-! ## Shelves that mirror a job -/

/-- Whether the chunk belongs to a box, and which part of it it is. -/
def boxChunks (box : Str) (i : ℕ) : Option Str :=
  if i < Chunks.count CHUNK_BYTES box.length then some (WorkerTasks.boxChunk box i) else none

theorem lt_count_iff {n length i : ℕ} (hn : 0 < n) : i < Chunks.count n length ↔ i * n < length := by
  unfold Chunks.count
  rw [Nat.lt_div_iff_mul_lt hn]
  omega

theorem boxChunks_eq_some {box chunk : Str} {i : ℕ} : boxChunks box i = some chunk ↔
    i * CHUNK_BYTES < box.length ∧ chunk = WorkerTasks.boxChunk box i := by
  unfold boxChunks
  rw [Option.ite_none_right_eq_some, lt_count_iff (by decide), Option.some.injEq, eq_comm]

namespace Shelf

variable {sha256 : Str → Str} {now : ℤ} {shelf shelf' : Shelf} {body : Option NormalizedJob}

/-- A shelf has the chunks of the box of `body` if its row retains a payload, and no chunk
otherwise. -/
inductive Mirrors (sha256 : Str → Str) : Shelf → Option NormalizedJob → Prop
  | vacant (body : Option NormalizedJob) : Mirrors sha256 ⟨none, fun _ => none⟩ body
  | retired (row : Job) (body : Option NormalizedJob) (hretired : retainsTaskPayload row = false)
      (hnone : row.cipher = none) : Mirrors sha256 ⟨some row, fun _ => none⟩ body
  | kept (row : Job) (job : NormalizedJob) (box : Str) (hretains : retainsTaskPayload row = true)
      (hcipher : row.cipher = some (cipherOf sha256 box)) (hbox : SubmittedBox job box) :
    Mirrors sha256 ⟨some row, boxChunks box⟩ (some job)

/-- Clearing the chunks of a box leaves none. -/
theorem clear_boxChunks {row : Job} {box : Str} (h : row.cipher = some (cipherOf sha256 box)) :
    clear row (boxChunks box) = fun _ => none := by
  funext i
  rw [clear, h]
  change (if i < Chunks.count CHUNK_BYTES box.length then none else boxChunks box i) = none
  split_ifs with hi
  · rfl
  · exact if_neg hi

/-- **A row that follows the stored one** is written without a trace of the chunks, or with all of
them. -/
theorem Mirrors.write (h : Mirrors sha256 shelf body) {row row' : Job} (hrow : shelf.row = some row)
    (hfollows : Follows row row') : Mirrors sha256 (shelf.write sha256 row') body := by
  have hcipher := hfollows.cipher
  unfold Shelf.write
  cases h with
  | vacant => cases hrow
  | retired row₀ body hretired hnone =>
    cases hrow
    have hretired' : retainsTaskPayload row' = false := by
      rw [Bool.eq_false_iff]
      intro hretains
      exact absurd (hretired.symm.trans (hfollows.retained hretains).1) (by decide)
    rw [if_pos hretired', clear, hcipher, hnone]
    exact .retired _ _ hretired' rfl
  | kept row₀ job box hretains hbox hsubmitted =>
    cases hrow
    rw [hbox] at hcipher
    split_ifs with hretired
    · rw [clear_boxChunks hcipher]
      exact .retired _ _ hretired rfl
    · rw [hcipher]
      exact .kept _ job box (eq_true_of_ne_false hretired) rfl hsubmitted

theorem follows_expireJob {row : Job} (h : expires row now = true) :
    Follows row (expireJob row now) := by
  refine .of_retired ?_ (WorkerTasks.retains_expireJob h)
  rw [expireJob, if_pos h]
  rfl

theorem Mirrors.age (h : Mirrors sha256 shelf body) : Mirrors sha256 (shelf.age sha256 now) body := by
  unfold Shelf.age
  split
  · rename_i row hrow
    split_ifs with hexpires
    · exact h.write hrow (follows_expireJob hexpires)
    · exact h
  · exact h

/-- A deleted row takes its chunks along. -/
theorem Mirrors.drop (h : Mirrors sha256 shelf body) {row : Job} (hrow : shelf.row = some row) :
    Mirrors sha256 ⟨none, clear (expireJob row now) shelf.chunks⟩ body := by
  have hcipher : (expireJob row now).cipher = row.cipher := by
    unfold expireJob
    split_ifs <;> rfl
  cases h with
  | vacant => cases hrow
  | retired row₀ body hretired hnone =>
    cases hrow
    rw [clear, hcipher, hnone]
    exact .vacant body
  | kept row₀ job box hretains hbox hsubmitted =>
    cases hrow
    rw [clear_boxChunks (hcipher.trans hbox)]
    exact .vacant _

/-- **A move keeps the mirror.** -/
theorem Move.mirrors (hmove : Move sha256 now shelf shelf') (h : Mirrors sha256 shelf body) :
    Mirrors sha256 shelf' body := by
  cases hmove with
  | keep => exact h
  | age => exact h.age
  | drop row hrow => exact h.drop hrow
  | store row row' action proof proofHash result hrow hresult hrow' =>
    exact h.write hrow (transitionJob_follows hresult hrow')

/-- A new row mirrors the job it was created for. -/
theorem Mirrors.create {room id : Str} {fingerprint : Str} {job : NormalizedJob} {box : Str}
    (h : Mirrors sha256 shelf body) (hrow : shelf.row = none) (hbox : SubmittedBox job box) :
    Mirrors sha256 (shelf.write sha256 (queuedJob job fingerprint id (some room) now)) (some job) := by
  cases h with
  | retired => cases hrow
  | kept => cases hrow
  | vacant body =>
    have hretains : retainsTaskPayload (queuedJob job fingerprint id (some room) now) = true := rfl
    have hstr : ((queuedJob job fingerprint id (some room) now).envelope.get (lit "box")).str? =
        some box := Value.str?_eq_some.2 hbox.envelope
    unfold Shelf.write
    rw [if_neg (by rw [hretains]; decide), hstr]
    exact .kept _ job box hretains rfl hbox

end Shelf

/-! ## Reading -/

namespace WorkerTasks

variable {sha256 : Str → Str} {s : WorkerTasks} {k : RoomKey}

theorem mapM_ok {ε α β : Type} {f : α → Except ε β} {g : α → β} :
    ∀ {l : List α}, (∀ a ∈ l, f a = .ok (g a)) → l.mapM f = .ok (l.map g)
  | [], _ => rfl
  | a :: l, h => by
    rw [List.mapM_cons, h a List.mem_cons_self,
      mapM_ok fun b hb => h b (List.mem_cons_of_mem _ hb)]
    rfl

theorem readChunk_eq {row : Job} {box : Str} {i : ℕ} (hid : row.id = k.2)
    (hroom : row.room = some k.1) (hi : i < Chunks.count CHUNK_BYTES box.length)
    (hchunks : (s.shelf k).chunks = boxChunks box) :
    readChunk s.boxes row i = .ok (boxChunk box i) := by
  have hget : s.boxes.get? (boxKey row i) = some (boxChunk box i) := by
    rw [boxKey_of_named hid hroom, ← shelf_chunks, hchunks]
    exact if_pos hi
  have hlength : (boxChunk box i).length ≤ CHUNK_BYTES := Chunks.length_slice_le CHUNK_BYTES box i
  unfold readChunk
  rw [hget]
  exact if_pos hlength

/-- **Reading the chunks** gives the box back: its count, length and digest are those recorded. -/
theorem hydrate_eq {row : Job} {box : Str} (hid : row.id = k.2) (hroom : row.room = some k.1)
    (hcipher : row.cipher = some (Shelf.cipherOf sha256 box))
    (hchunks : (s.shelf k).chunks = boxChunks box) (hlong : 24 ≤ box.length)
    (hshort : box.length ≤ JOB_BYTES) : s.hydrateTaskJob sha256 row =
      .ok { row with envelope := row.envelope.set (lit "box") (.str box) } := by
  set cipher := Shelf.cipherOf sha256 box with hdef
  have hread : readChunks s.boxes row cipher.count =
      .ok ((List.range cipher.count).map (boxChunk box)) :=
    mapM_ok fun i hi => readChunk_eq hid hroom (List.mem_range.1 hi) hchunks
  have hflatten : ((List.range cipher.count).map (boxChunk box)).flatten = box :=
    Chunks.flatten_slices (by decide) box
  have hbounds : ¬(cipher.count < 1 ∨ 350 < cipher.count ∨ cipher.bytes < 24 ∨
      22000000 < cipher.bytes) := by
    simp only [hdef, Shelf.cipherOf, CHUNK_BYTES, JOB_BYTES] at hshort ⊢
    omega
  have hsame : ¬(box.length ≠ cipher.bytes ∨ sha256 box ≠ cipher.digest) := by
    simp [hdef, Shelf.cipherOf]
  unfold hydrateTaskJob
  rw [hcipher]
  dsimp only
  rw [if_neg hbounds, hread]
  change (if _ ≠ _ ∨ _ ≠ _ then _ else _) = _
  rw [hflatten, if_neg hsame]
  rfl

end WorkerTasks

/-! ## Every reachable state -/

namespace History

section Bodies

variable {S : JobStore}

/-- A body is of an earlier call or of this one. -/
theorem bodies_next (h : History S) (now : ℤ) (c : TaskCall) (k : RoomKey) :
    (h.next now c).bodies k = h.bodies k ∨ ∃ body job, c = .put k.1 k.2 body ∧
      normalizeJob k.1 k.2 body now = .ok (some job) ∧ (h.next now c).bodies k = some job := by
  cases hcreated : c.created now (S.call h.state now c).1 with
  | none => exact .inl (congrFun (next_bodies hcreated) k)
  | some p =>
    obtain ⟨key, job⟩ := p
    have hbodies : (h.next now c).bodies = Function.update h.bodies key (some job) := by
      simp only [next, hcreated]
    rw [hbodies]
    by_cases hk : k = key
    · subst hk
      rw [Function.update_self]
      obtain ⟨body, rfl, hjob⟩ := TaskCall.created_eq_some hcreated
      exact .inr ⟨body, job, rfl, hjob, rfl⟩
    · rw [Function.update_of_ne hk]
      exact .inl rfl

/-- The body under a key was put there. -/
theorem put_of_bodies {h₀ h : History S} {calls : List (ℤ × TaskCall)}
    (hrun : Run Step h₀ calls h) {k : RoomKey} {job : NormalizedJob}
    (hjob : h.bodies k = some job) : h₀.bodies k = some job ∨ ∃ now body,
      (now, .put k.1 k.2 body) ∈ calls ∧ normalizeJob k.1 k.2 body now = .ok (some job) := by
  induction hrun with
  | nil => exact .inl hjob
  | @cons h₀ h₁ h l calls hstep _ ih =>
    rcases ih hjob with hjob | ⟨now, body, hmem, hnormal⟩
    · obtain ⟨-, rfl⟩ := hstep
      rcases h₀.bodies_next l.1 l.2 k with hsame | ⟨body, job', hc, hnormal, hnew⟩
      · exact .inl (hsame.symm.trans hjob)
      · rw [hnew] at hjob
        cases hjob
        refine .inr ⟨l.1, body, ?_, hnormal⟩
        rw [← hc]
        exact List.mem_cons_self
    · exact .inr ⟨now, body, List.mem_cons_of_mem _ hmem, hnormal⟩

end Bodies

variable {sha256 : Str → Str} {h : History (WorkerTasks.store sha256)}

/-- Every shelf mirrors the body under its key. -/
def Mirrored (h : History (WorkerTasks.store sha256)) : Prop :=
  ∀ k, (h.state.1.shelf k).Mirrors sha256 (h.bodies k)

theorem mirrored_start (clock : ℤ) :
    (start clock : History (WorkerTasks.store sha256)).Mirrored := fun _ => .vacant _

/-- **A call keeps every shelf in step with its body.** -/
theorem Mirrored.next (hm : h.Mirrored) (now : ℤ) (c : TaskCall) : (h.next now c).Mirrored := by
  intro k
  change Shelf.Mirrors sha256 ((h.state.1.call sha256 now c).2.shelf k) _
  have heffect := WorkerTasks.shelf_call h.state.2 sha256 now c
  generalize hanswer : (h.state.1.call sha256 now c).1 = answer at heffect
  generalize (h.state.1.call sha256 now c).2 = after at heffect
  have hcall : ((WorkerTasks.store sha256).call h.state now c).1 = answer := hanswer
  cases heffect with
  | moved _ _ _ hmove hnone =>
    rw [next_bodies (by rw [hcall, hnone])]
    exact (hmove k).mirrors (hm k)
  | created room id body job rows s' reply hstatus hnone hjob hrows hplace =>
    have hcreated : (TaskCall.put room id body).created now
        ((WorkerTasks.store sha256).call h.state now (.put room id body)).1 =
          some ((room, id), job) := by
      rw [hcall]
      simp only [TaskCall.created, hstatus, if_true, hjob, Option.map_some]
    have hbodies : (h.next now (.put room id body)).bodies =
        Function.update h.bodies (room, id) (some job) := by
      simp only [History.next, hcreated]
    have hmoved := (WorkerTasks.move_rows h.state.2 hrows k).mirrors (hm k)
    rw [hbodies, WorkerTasks.shelf_writeTaskJob rfl rfl]
    split_ifs with hk
    · subst hk
      obtain ⟨box, -, hbox⟩ := (normalizeJob_ok hjob).box
      have hvacant : (s'.shelf (room, id)).row = none := by
        have haged := WorkerTasks.shelf_rows h.state.2 hrows (room, id)
        rw [haged, if_pos rfl, Shelf.age, WorkerTasks.shelf_row, hnone]
        exact hnone
      rw [Function.update_self]
      exact hmoved.create hvacant hbox
    · rw [Function.update_of_ne hk]
      exact hmoved

theorem mirrored_run {clock : ℤ} {calls : List (ℤ × TaskCall)}
    (hrun : Run Step (start clock) calls h) : h.Mirrored := by
  refine hrun.invariant (I := Mirrored) (fun h l h' hm hstep => ?_) (mirrored_start clock)
  obtain ⟨-, rfl⟩ := hstep
  exact hm.next l.1 l.2

end History

/-! ## The claim about ciphertexts -/

/-- What the calls put under a key: the box of the body that created its row. -/
def PutBox {S : JobStore} (calls : List (ℤ × TaskCall)) (h : History S) (room id box : Str) :
    Prop :=
  ∃ job now body, h.bodies (room, id) = some job ∧ (now, .put room id body) ∈ calls ∧
    normalizeJob room id body now = .ok (some job) ∧
      (body.get (lit "envelope")).get (lit "box") = some (.str box)

/-- The ciphertexts of a store are those of its jobs: `getPublic` shows the box that was put, as
long as the job is queued, accepted or failed, and every stored chunk is one of such a box. -/
structure CiphertextMirrors (calls : List (ℤ × TaskCall))
    (h : History (WorkerTasks.store sha256)) : Prop where
  read : ∀ room id row now, h.jobs (room, id) = some row →
    retainsTaskPayload (expireJob row now) = true →
      ∃ box shown, PutBox calls h room id box ∧
        (h.state.1.getPublic sha256 room id now false).1 = .ok (some shown) ∧
        shown.state = (expireJob row now).state ∧
        shown.envelope.get (lit "box") = some (.str box)
  chunks : ∀ room id i chunk, h.state.1.boxes.get? (room, id, i) = some chunk ↔
    ∃ row box, h.jobs (room, id) = some row ∧ retainsTaskPayload row = true ∧
      PutBox calls h room id box ∧ i * CHUNK_BYTES < box.length ∧
        chunk = WorkerTasks.boxChunk box i

section

variable {sha256 : Str → Str} {clock : ℤ} {calls : List (ℤ × TaskCall)}
  {h : History (WorkerTasks.store sha256)} {room id box : Str}

theorem PutBox.submitted {S : JobStore} {h : History S} (hput : PutBox calls h room id box) :
    ∃ job, h.bodies (room, id) = some job ∧ SubmittedBox job box := by
  obtain ⟨job, now, body, hjob, -, hnormal, hbox⟩ := hput
  obtain ⟨box', hbox', hsubmitted⟩ := (normalizeJob_ok hnormal).box
  rw [hbox] at hbox'
  cases hbox'
  exact ⟨job, hjob, hsubmitted⟩

theorem putBox_of_submitted {S : JobStore} {h : History S}
    (hrun : Run History.Step (.start clock) calls h) {job : NormalizedJob}
    (hjob : h.bodies (room, id) = some job) (hbox : SubmittedBox job box) :
    PutBox calls h room id box := by
  rcases History.put_of_bodies hrun hjob with hnone | ⟨now, body, hmem, hnormal⟩
  · cases hnone
  · obtain ⟨box', hbox', hsubmitted⟩ := (normalizeJob_ok hnormal).box
    have hsame := hbox.envelope.symm.trans hsubmitted.envelope
    cases hsame
    exact ⟨job, now, body, hjob, hmem, hnormal, hbox'⟩

theorem read_of_mirrored (hm : h.Mirrored) {row : Job} {now : ℤ}
    (hrow : h.jobs (room, id) = some row) (hretains : retainsTaskPayload (expireJob row now) = true) :
    ∃ job box, h.bodies (room, id) = some job ∧ SubmittedBox job box ∧
      (h.state.1.getPublic sha256 room id now false).1 = .ok (some (publicJob
        { row with envelope := row.envelope.set (lit "box") (.str box) })) := by
  have hexpires : expires row now = false := by
    rw [Bool.eq_false_iff]
    intro hexpires
    exact absurd ((WorkerTasks.retains_expireJob hexpires).symm.trans hretains) (by decide)
  have hsame : expireJob row now = row := by
    rw [expireJob, hexpires]
    rfl
  rw [hsame] at hretains
  have hget : h.state.1.jobs.get? (room, id) = some row := hrow
  obtain ⟨hid, hroom⟩ := h.state.2 _ _ hget
  have hshelf := hm (room, id)
  generalize hs : h.state.1.shelf (room, id) = shelf at hshelf
  generalize h.bodies (room, id) = body at hshelf
  have hshelfRow : shelf.row = some row := by rw [← hs, WorkerTasks.shelf_row, hget]
  cases hshelf with
  | vacant => cases hshelfRow
  | retired _ _ hretired =>
    cases hshelfRow
    exact absurd (hretired.symm.trans hretains) (by decide)
  | kept _ job box _ hcipher hbox =>
    cases hshelfRow
    refine ⟨job, box, rfl, hbox, ?_⟩
    have hhydrate := WorkerTasks.hydrate_eq hid hroom hcipher (congrArg Shelf.chunks hs) hbox.long
      hbox.short
    unfold WorkerTasks.getPublic
    rw [hget]
    dsimp only
    rw [hexpires, hsame, if_neg Bool.false_ne_true, if_neg Bool.false_ne_true, hhydrate]
    rfl

theorem chunks_of_mirrored (hm : h.Mirrored) (room id : Str) (i : ℕ) (chunk : Str) :
    h.state.1.boxes.get? (room, id, i) = some chunk ↔
      ∃ row job box, h.jobs (room, id) = some row ∧ retainsTaskPayload row = true ∧
        h.bodies (room, id) = some job ∧ SubmittedBox job box ∧ boxChunks box i = some chunk := by
  have hchunk : h.state.1.boxes.get? (room, id, i) = (h.state.1.shelf (room, id)).chunks i := rfl
  have hrow : h.jobs (room, id) = (h.state.1.shelf (room, id)).row := rfl
  have hshelf := hm (room, id)
  rw [hchunk, hrow]
  generalize h.state.1.shelf (room, id) = shelf at hshelf ⊢
  generalize h.bodies (room, id) = body at hshelf ⊢
  cases hshelf with
  | vacant =>
    refine iff_of_false (by simp) ?_
    rintro ⟨row, -, -, hrow, -⟩
    cases hrow
  | retired row _ hretired =>
    refine iff_of_false (by simp) ?_
    rintro ⟨row', -, -, hrow, hretains, -⟩
    cases hrow
    exact absurd (hretired.symm.trans hretains) (by decide)
  | kept row job box hretains hcipher hbox =>
    constructor
    · intro hsome
      exact ⟨row, job, box, rfl, hretains, rfl, hbox, hsome⟩
    · rintro ⟨row', job', box', -, -, hjob, hbox', hsome⟩
      cases hjob
      cases hbox.envelope.symm.trans hbox'.envelope
      exact hsome

end

/-- **Worker ciphertexts mirror the jobs**: after any calls at non-decreasing times, `getPublic`
shows the box that was put for every job in state queued, accepted or failed, and the stored chunks
are those of the boxes of these jobs. -/
theorem ciphertext_mirrors (sha256 : Str → Str) (clock : ℤ) (calls : List (ℤ × TaskCall))
    (h : History (WorkerTasks.store sha256)) (hrun : Run History.Step (.start clock) calls h) :
    CiphertextMirrors calls h := by
  have hm := History.mirrored_run hrun
  constructor
  · intro room id row now hrow hretains
    obtain ⟨job, box, hjob, hbox, hread⟩ := read_of_mirrored hm hrow hretains
    refine ⟨box, _, putBox_of_submitted hrun hjob hbox, hread, ?_, ?_⟩
    · unfold expireJob
      split_ifs with hexpires
      · rw [retainsTaskPayload, expireJob, if_pos hexpires] at hretains
        cases hretains
      · rfl
    · exact (Json.get_set _ _ _ _).trans (if_pos rfl)
  · intro room id i chunk
    rw [chunks_of_mirrored hm]
    constructor
    · rintro ⟨row, job, box, hrow, hretains, hjob, hbox, hchunk⟩
      obtain ⟨hlt, rfl⟩ := boxChunks_eq_some.1 hchunk
      exact ⟨row, box, hrow, hretains, putBox_of_submitted hrun hjob hbox, hlt, rfl⟩
    · rintro ⟨row, box, hrow, hretains, hput, hlt, rfl⟩
      obtain ⟨job, hjob, hbox⟩ := hput.submitted
      exact ⟨row, job, box, hrow, hretains, hjob, hbox, boxChunks_eq_some.2 ⟨hlt, rfl⟩⟩

/-- A job is put and claimed. -/
def claimCalls : List (ℤ × TaskCall) :=
  [(1000, .put sampleRoom sampleJob sampleBody),
    (1000, .transition sampleRoom sampleJob .claim (sampleProof "claim-000001"))]

def claimedHistory {S : JobStore} : History S :=
  (History.next (.start 0) 1000 (.put sampleRoom sampleJob sampleBody)).next 1000
    (.transition sampleRoom sampleJob .claim (sampleProof "claim-000001"))

theorem claimedHistory_run {S : JobStore} :
    Run History.Step (.start 0 : History S) claimCalls claimedHistory :=
  .cons ⟨show (0 : ℤ) ≤ 1000 by decide, rfl⟩ <| .cons ⟨le_refl (1000 : ℤ), rfl⟩ <| .nil _

/-- The job has one chunk, and is read. -/
theorem ciphertext_mirrors_sample :
    (claimedHistory (S := WorkerTasks.store fun _ => sampleDigest 'b')).state.1.boxes.get?
        (sampleRoom, sampleJob, 0) = some (List.replicate 24 65) ∧
      CiphertextMirrors claimCalls
        (claimedHistory (S := WorkerTasks.store fun _ => sampleDigest 'b')) :=
  ⟨by decide +kernel, ciphertext_mirrors _ 0 _ _ claimedHistory_run⟩

end GrantTap
