import GrantTapRelay.TaskDispatch.UndisturbedReads

/-!
# Reads of the Worker store, interleaved with transactions

One storage operation of a read keeps the invariant `JobTraffic.Sound` of
`TaskDispatch/UndisturbedReads.lean` when it disturbs nothing. With the transactions, every
undisturbed run keeps it.

* `JobTraffic.replaced`: the traffic after a read went on.
* `Sound.replace`: the invariant, when one read changes and the others are left what they rely on.
* `Sound.reading`, `Sound.deleting`, `Sound.storing`, `Sound.hydrating`: the steps of a read.
* `reads_respect_transactions`: **undisturbed reads** undo no transaction, and never fail.
-/

namespace GrantTap

open Js Runs WorkerTasks

/-! ## One read goes on -/

section Rewritten

variable {sha256 : Str → Str} {call : ReadCall} {now : ℤ}

theorem rewritten_hydration (row : Job) (chunks : List Str) :
    JobRead.rewritten ⟨call, now, hydration sha256 call row chunks⟩ = [] := by
  unfold hydration
  cases row.cipher with
  | none => rfl
  | some cipher =>
    dsimp only
    split_ifs <;> rfl

/-- The writes of a read are those that it has ahead. -/
theorem rewritten_afterWrites (pending : List WriteBack) (rest : ReadRest) :
    JobRead.rewritten ⟨call, now, afterWrites sha256 call pending rest⟩ = pending := by
  cases pending with
  | nil =>
    cases rest with
    | answer answer => rfl
    | hydrate row => exact rewritten_hydration row []
  | cons p pending => rfl

end Rewritten

namespace JobTraffic

variable {sha256 : Str → Str} {w : JobTraffic} {n : ℕ} {r r' : JobRead} {s : WorkerTasks}

/-- The traffic after the `n`-th read went on. -/
def replaced (w : JobTraffic) (n : ℕ) (r : JobRead) (s : WorkerTasks) : JobTraffic :=
  { w with storage := s, reads := w.reads.set n r }

theorem replaced_self (hr : w.reads[n]? = some r) : w.replaced n r w.storage = w := by
  obtain ⟨hlt, rfl⟩ := List.getElem?_eq_some_iff.1 hr
  unfold JobTraffic.replaced
  rw [List.set_getElem_self]

/-- The chunks that are gone stay gone, but for writes that this read finished. -/
theorem Gone.replaced {k : RoomKey} {i : ℕ} (h : w.Gone k i) (hr : w.reads[n]? = some r)
    (hkeeps : ∀ p ∈ r.rewritten, p.key = k → i < p.deleted →
      ∃ p' ∈ r'.rewritten, p'.key = k ∧ i < p'.deleted) : (w.replaced n r' s).Gone k i := by
  obtain ⟨r₁, hr₁, p, hp, hk, hi⟩ := h
  obtain ⟨m, hm⟩ := List.mem_iff_getElem?.1 hr₁
  have hlt : n < w.reads.length := (List.getElem?_eq_some_iff.1 hr).1
  by_cases hmn : m = n
  · subst hmn
    obtain rfl := Option.some_inj.1 (hm.symm.trans hr)
    obtain ⟨p', hp', hk', hi'⟩ := hkeeps p hp hk hi
    exact ⟨r', List.mem_set hlt r', p', hp', hk', hi'⟩
  · refine ⟨r₁, List.mem_of_getElem? (i := m) ?_, p, hp, hk, hi⟩
    exact (List.getElem?_set_ne (Ne.symm hmn)).trans hm

/-- **One read goes on**: the others are left what they rely on. -/
theorem Sound.replace (h : w.Sound sha256) (hnamed : s.Named)
    (hworn : ∀ k, (s.shelf k).Worn sha256 ((w.replaced n r' s).Gone k))
    (hok : r'.Ok sha256 (w.replaced n r' s))
    (hcurrent : ∀ r ∈ w.reads, ∀ p ∈ r.rewritten, p.Current w → p.Current (w.replaced n r' s))
    (hheld : ∀ r ∈ w.reads, ∀ a ∈ r.awaited,
      Held sha256 w.storage a.1 a.2 → Held sha256 s a.1 a.2) :
    (w.replaced n r' s).Sound sha256 where
  named := hnamed
  worn := hworn
  reads r hr := by
    rcases List.mem_or_eq_of_mem_set hr with hold | rfl
    · have hr := h.reads r hold
      exact
        { current := fun p hp => hcurrent r hold p hp (hr.current p hp)
          held := fun a ha hsome => hheld r hold a ha (hr.held a ha hsome)
          unfinished := hr.unfinished
          whole := hr.whole }
    · exact hok

/-- A read that leaves jobs and chunks as they are, and drops no write that has begun. -/
theorem Sound.observe (h : w.Sound sha256) (hr : w.reads[n]? = some r)
    (hjobs : s.jobs = w.storage.jobs) (hboxes : s.boxes = w.storage.boxes)
    (hbegun : ∀ p ∈ r.rewritten, p.deleted = 0) (hok : r'.Ok sha256 (w.replaced n r' s)) :
    (w.replaced n r' s).Sound sha256 := by
  refine h.replace ?_ (fun k => ?_) hok (fun r₁ _ p _ hp => ?_) (fun r₁ _ a _ ha => ?_)
  · intro k row hrow
    rw [hjobs] at hrow
    exact h.named k row hrow
  · have hshelf : s.shelf k = w.storage.shelf k := by
      unfold WorkerTasks.shelf
      rw [hjobs, hboxes]
    rw [hshelf]
    refine (h.worn k).mono fun i hi => hi.replaced hr fun p hp _ hdeleted => ?_
    rw [hbegun p hp] at hdeleted
    exact absurd hdeleted (Nat.not_lt_zero i)
  · refine hp.mono rfl (fun row hrow _ => ?_) fun i hi => ?_
    · rw [← hjobs]
      exact hrow
    · change s.boxes.get? _ = none
      rw [hboxes]
      exact hi
  · exact ha.mono fun i _ _ => by rw [hboxes]

end JobTraffic

/-! ## Reading -/

section Reading

variable {sha256 : Str → Str} {w w' : JobTraffic} {call : ReadCall} {now : ℤ}

/-- What a read writes for a row: the row is expired, and no chunk is deleted yet. -/
theorem writes_eq {x : Snapshot} {p : WriteBack} (h : p ∈ call.writes now x) :
    (x.row.id = x.key.2 → p.key = x.key) ∧ p.row = expireJob x.row now ∧ p.seen = x.seen ∧
      p.deleted = 0 ∧ (p.keeps = true → expires x.row now = true) := by
  have hexpired (hp : p ∈ x.expired now) : (x.row.id = x.key.2 → p.key = x.key) ∧
      p.row = expireJob x.row now ∧ p.seen = x.seen ∧ p.deleted = 0 ∧
      (p.keeps = true → expires x.row now = true) := by
    unfold Snapshot.expired at hp
    split_ifs at hp with hexpires
    · obtain rfl := List.mem_singleton.1 hp
      refine ⟨fun hid => ?_, rfl, rfl, rfl, fun _ => hexpires⟩
      change ((x.key.1, x.row.id) : RoomKey) = x.key
      rw [hid]
    · cases hp
  cases call with
  | maintain connected =>
    change p ∈ x.maintained now at h
    unfold Snapshot.maintained at h
    split_ifs at h with houtdated hexpires
    · obtain rfl := List.mem_singleton.1 h
      exact ⟨fun _ => rfl, rfl, rfl, rfl, fun hkeeps => by cases hkeeps⟩
    · obtain rfl := List.mem_singleton.1 h
      exact ⟨fun _ => rfl, rfl, rfl, rfl, fun _ => hexpires⟩
    · cases h
  | list room => exact hexpired h
  | listActive room => exact hexpired h
  | getPublic room id metadataOnly => exact hexpired h
  | due room recipientKeyId excluded => exact hexpired h

/-- A row is written back by the time at which it was read. -/
theorem current_writes (hs : w.storage.Named) {k : RoomKey} {row : Job} {p : WriteBack}
    (hrow : w.storage.jobs.get? k = some row)
    (h : p ∈ call.writes now ⟨k, row, w.commits k⟩) : p.Current w := by
  obtain ⟨hid, hroom⟩ := hs k row hrow
  obtain ⟨hkey, hexpired, hseen, hdeleted, hkeeps⟩ := writes_eq h
  have hkey := hkey hid
  obtain ⟨hid', hroom'⟩ := expireJob_id row now
  refine ⟨?_, ?_, fun hkept => ?_, fun row' hrow' _ => ?_, fun i hi => ?_⟩
  · rw [hseen, hkey]
  · rw [hexpired, hkey]
    exact ⟨hid'.trans hid, hroom'.trans hroom⟩
  · rw [hexpired]
    exact retains_expireJob (hkeeps hkept)
  · rw [hkey] at hrow'
    obtain rfl := Option.some_inj.1 (hrow.symm.trans hrow')
    rw [hexpired, Shelf.cipher_expireJob]
  · rw [hdeleted] at hi
    exact absurd hi (Nat.not_lt_zero i)

theorem get?_of_mem_nextPage {s : WorkerTasks} {records : List Snapshot} {x : RoomKey × Job}
    (h : x ∈ nextPage s call records) : s.jobs.get? x.1 = some x.2 :=
  Table.mem_rows.1 (List.mem_filter.1 ((List.mem_insertionSort _).1 (List.mem_of_mem_take h))).1

variable (sha256 call now) in
/-- Reading a page changes neither jobs nor chunks. -/
theorem readPage_storage (s : WorkerTasks) (commits : RoomKey → ℕ) (records : List Snapshot) :
    (readPage sha256 s commits call now records).2.jobs = s.jobs ∧
      (readPage sha256 s commits call now records).2.boxes = s.boxes := by
  unfold readPage
  dsimp only
  split_ifs
  · exact ⟨rfl, rfl⟩
  · cases call <;> exact ⟨rfl, rfl⟩
  · exact ⟨rfl, rfl⟩

/-- **A page is read**: its rows are current, and the row to show is held. -/
theorem ok_readPage (hs : w.storage.Named) (hworn : ∀ k, (w.storage.shelf k).Worn sha256 (w.Gone k))
    {records : List Snapshot} (hok : JobRead.Ok sha256 w ⟨call, now, .reading records⟩)
    (hintact : (nextPage w.storage call records).length < LIST_LIMIT →
      ∀ row, call.rest now (found w.storage w.commits call records) none = .hydrate row →
        row.cipher.isSome = true → Intact w.storage row)
    (hcommits : w'.commits = w.commits)
    (hjobs : w'.storage.jobs = w.storage.jobs) (hboxes : w'.storage.boxes = w.storage.boxes) :
    JobRead.Ok sha256 w' ⟨call, now, (readPage sha256 w.storage w.commits call now records).1⟩ := by
  have hcurrent : ∀ p ∈ (found w.storage w.commits call records).flatMap (call.writes now),
      p.Current w' := by
    intro p hp
    have hp : p.Current w := by
      rw [found, List.flatMap_append, List.mem_append] at hp
      rcases hp with hold | hnew
      · exact hok.current p hold
      · obtain ⟨x, hx, hp⟩ := List.mem_flatMap.1 hnew
        obtain ⟨y, hy, rfl⟩ := List.mem_map.1 hx
        exact current_writes hs (get?_of_mem_nextPage hy) hp
    refine hp.mono (by rw [hcommits]) (fun row hrow _ => ?_) fun i hi => ?_
    · rw [← hjobs]
      exact hrow
    · rw [hboxes]
      exact hi
  unfold readPage
  dsimp only
  split_ifs with hbounds hlast
  · exact ⟨fun _ hp => absurd hp List.not_mem_nil, fun _ ha => absurd ha List.not_mem_nil,
      fun _ _ hphase => (by cases hphase), fun e hphase => by cases hphase; rfl⟩
  · have hheld (row : Job)
        (hrest : call.rest now (found w.storage w.commits call records) none = .hydrate row)
        (hsome : row.cipher.isSome = true) : Held sha256 w'.storage row [] :=
      ((hintact hlast row hrest hsome).held hworn hsome).mono fun i _ _ => by rw [hboxes]
    cases call <;> exact ok_allRead hcurrent hheld
  · exact ⟨hcurrent, fun _ ha => absurd ha List.not_mem_nil, fun _ _ hphase => (by cases hphase),
      fun _ hphase => (by cases hphase)⟩

end Reading

/-! ## Writing -/

section Writing

variable {sha256 : Str → Str} {w : JobTraffic} {p : WriteBack}

/-- When all its chunks are deleted, nothing is left on the shelf of a row but the row. -/
theorem WriteBack.Current.cleared (h : p.Current w)
    (hworn : (w.storage.shelf p.key).Worn sha256 (w.Gone p.key)) (hdone : p.count ≤ p.deleted)
    (i : ℕ) : w.storage.boxes.get? (p.key.1, p.key.2, i) = none := by
  have hcipher := h.cipher
  have hgone := h.gone
  have hrow : w.storage.jobs.get? p.key = (w.storage.shelf p.key).row := rfl
  have hchunks : ∀ i, w.storage.boxes.get? (p.key.1, p.key.2, i) = (w.storage.shelf p.key).chunks i :=
    fun _ => rfl
  rw [hrow] at hcipher
  rw [hchunks]
  generalize w.storage.shelf p.key = shelf at hworn hcipher hchunks
  cases hworn with
  | vacant => rfl
  | retired row hretired hnone => rfl
  | kept row job box chunks hretains hbox hsubmitted hstored =>
    have hsame := hcipher row rfl hretains
    have hcount : p.count = Chunks.count CHUNK_BYTES box.length := by
      rw [WriteBack.count, ← hsame, hbox]
      rfl
    by_cases hi : i < p.deleted
    · exact (hchunks i).symm.trans (hgone i hi)
    · rcases hstored i with hi' | hi'
      · exact hi'.trans (if_neg (by rw [← hcount]; omega))
      · exact hi'.1

/-- A chunk of a pending write. -/
theorem WriteBack.Current.boxKey_eq (h : p.Current w) (i : ℕ) :
    boxKey p.row i = (p.key.1, p.key.2, i) := boxKey_of_named h.named.1 h.named.2 i

/-- The row that a read goes on to show while it writes. -/
theorem held_rest {call : ReadCall} {now : ℤ} {pending : List WriteBack} {rest : ReadRest}
    (h : JobRead.Ok sha256 w ⟨call, now, .writing pending rest⟩) (row : Job)
    (hrest : rest = .hydrate row) (hsome : row.cipher.isSome = true) :
    Held sha256 w.storage row [] := by
  subst hrest
  exact h.held (row, []) List.mem_cons_self hsome

end Writing

namespace JobTraffic

variable {sha256 : Str → Str} {w : JobTraffic} {n b : ℕ} {call : ReadCall} {now : ℤ}
  {pending : List WriteBack} {rest : ReadRest} {p : WriteBack}

/-- **A chunk is deleted** that no read awaits. -/
theorem Sound.deleting (h : w.Sound sha256)
    (hr : w.reads[n]? = some ⟨call, now, .writing pending rest⟩) (hp : pending[b]? = some p)
    (hawaits : ∀ r ∈ w.reads, ¬r.Awaits (boxKey p.row p.deleted)) :
    (w.replaced n
      ⟨call, now, afterWrites sha256 call (pending.set b { p with deleted := p.deleted + 1 }) rest⟩
      { w.storage with boxes := w.storage.boxes.erase (boxKey p.row p.deleted) }).Sound sha256 := by
  have hr' := List.mem_of_getElem? hr
  have hok := h.reads _ hr'
  have hlt : b < pending.length := (List.getElem?_eq_some_iff.1 hp).1
  have hcurrent : p.Current w := hok.current p (List.mem_of_getElem? hp)
  have hkey := hcurrent.boxKey_eq p.deleted
  have herase (k : RoomKey) (i : ℕ) :
      (w.storage.boxes.erase (boxKey p.row p.deleted)).get? (k.1, k.2, i) =
        if k = p.key ∧ i = p.deleted then none else w.storage.boxes.get? (k.1, k.2, i) := by
    rw [Table.get?_erase, hkey]
    exact if_congr (by simp [Prod.ext_iff, and_assoc]) rfl rfl
  have hothers {q : WriteBack} (hq : q.Current w) (reads : List JobRead) : q.Current
      ⟨{ w.storage with boxes := w.storage.boxes.erase (boxKey p.row p.deleted) }, w.commits,
        reads⟩ :=
    hq.mono rfl (fun row hrow _ => hrow) fun i hi => by
      refine (herase q.key i).trans ?_
      split_ifs
      · rfl
      · exact hi
  have hstay {r : JobRead} (hr : r ∈ w.reads) {a : Job × List Str} (ha : a ∈ r.awaited)
      (hheld : Held sha256 w.storage a.1 a.2) :
      Held sha256 { w.storage with boxes := w.storage.boxes.erase (boxKey p.row p.deleted) }
        a.1 a.2 := by
    refine hheld.mono fun i hlow hhigh => ?_
    rw [Table.get?_erase]
    exact if_neg fun heq => hawaits r hr ⟨a, ha, i, hlow, hhigh, heq⟩
  refine h.replace h.named (fun k => ?_) ?_ (fun r₁ _ q _ hq => hothers hq _)
    fun r₁ hr₁ a ha hheld => hstay hr₁ ha hheld
  · -- the chunk is gone by the write that deleted it
    have hnext : { p with deleted := p.deleted + 1 } ∈ pending.set b { p with deleted := p.deleted + 1 } :=
      List.mem_set hlt _
    have hgone (i : ℕ) (hi : w.Gone k i) : (w.replaced n
        ⟨call, now, afterWrites sha256 call (pending.set b { p with deleted := p.deleted + 1 }) rest⟩
        { w.storage with boxes := w.storage.boxes.erase (boxKey p.row p.deleted) }).Gone k i := by
      refine hi.replaced hr fun q hq hk hdeleted => ?_
      rw [rewritten_afterWrites]
      obtain ⟨m, hm⟩ := List.mem_iff_getElem?.1 hq
      by_cases hmb : m = b
      · subst hmb
        obtain rfl := Option.some_inj.1 (hm.symm.trans hp)
        exact ⟨_, hnext, hk, hdeleted.trans (Nat.lt_succ_self _)⟩
      · exact ⟨q, List.mem_of_getElem? ((List.getElem?_set_ne (Ne.symm hmb)).trans hm), hk, hdeleted⟩
    by_cases hk : k = p.key
    · subst hk
      have hshelf : ({ w.storage with boxes := w.storage.boxes.erase (boxKey p.row p.deleted) } :
          WorkerTasks).shelf p.key = ⟨(w.storage.shelf p.key).row,
            fun i => if i = p.deleted then none else (w.storage.shelf p.key).chunks i⟩ := by
        refine shelf_eq rfl fun i => (herase p.key i).trans ?_
        exact if_congr (and_iff_right rfl) rfl rfl
      rw [hshelf]
      refine (h.worn p.key).delete hgone ?_
      have hread := List.mem_set (List.getElem?_eq_some_iff.1 hr).1
      refine ⟨_, hread _, { p with deleted := p.deleted + 1 }, ?_, rfl, Nat.lt_succ_self _⟩
      rw [rewritten_afterWrites]
      exact hnext
    · have hshelf : ({ w.storage with boxes := w.storage.boxes.erase (boxKey p.row p.deleted) } :
          WorkerTasks).shelf k = w.storage.shelf k :=
        shelf_eq rfl fun i => (herase k i).trans (if_neg fun heq => hk heq.1)
      rw [hshelf]
      exact (h.worn k).mono hgone
  · refine ok_afterWrites (fun q hq => ?_) fun row hrest hsome => ?_
    · rcases List.mem_or_eq_of_mem_set hq with hold | rfl
      · exact hothers (hok.current q hold) _
      · refine ⟨hcurrent.seen, hcurrent.named, hcurrent.retired, hcurrent.cipher, fun i hi => ?_⟩
        refine (herase p.key i).trans ?_
        split_ifs with hlast
        · rfl
        · have hi : i < p.deleted + 1 := hi
          have hne : i ≠ p.deleted := fun heq => hlast ⟨rfl, heq⟩
          exact hcurrent.gone i (by omega)
    · have hawaited : (row, ([] : List Str)) ∈ JobRead.awaited ⟨call, now, .writing pending rest⟩ := by
        rw [hrest]
        exact List.mem_cons_self
      exact hstay hr' hawaited (held_rest hok row hrest hsome)

/-- **A row is written back** without its ciphertext, or deleted: no chunk of it is left. -/
theorem Sound.storing (h : w.Sound sha256)
    (hr : w.reads[n]? = some ⟨call, now, .writing pending rest⟩) (hp : pending[b]? = some p)
    (hdone : p.count ≤ p.deleted) {jobs : Table RoomKey Job}
    (hjobs : ∀ k, jobs.get? k = if k = p.key then
      (if p.keeps then some (Shelf.stored p.row none) else none) else w.storage.jobs.get? k) :
    (w.replaced n ⟨call, now, afterWrites sha256 call (pending.eraseIdx b) rest⟩
      { w.storage with jobs }).Sound sha256 := by
  have hok := h.reads _ (List.mem_of_getElem? hr)
  have hcurrent : p.Current w := hok.current p (List.mem_of_getElem? hp)
  have hothers {q : WriteBack} (hq : q.Current w) (reads : List JobRead) : q.Current
      ⟨{ w.storage with jobs }, w.commits, reads⟩ := by
    refine hq.mono rfl (fun row hrow hretains => ?_) fun i hi => hi
    have hrow := (hjobs q.key).symm.trans hrow
    split_ifs at hrow with hk hkeeps
    · -- the row that is written back retains no payload
      obtain rfl := Option.some_inj.1 hrow
      exact absurd ((hcurrent.retired hkeeps).symm.trans hretains) (by decide)
    · exact hrow
  refine h.replace (fun k row hrow => ?_) (fun k => ?_) ?_ (fun r₁ _ q _ hq => hothers hq _)
    fun r₁ _ a _ hheld => hheld.mono fun i _ _ => rfl
  · have hrow := (hjobs k).symm.trans hrow
    split_ifs at hrow with hk hkeeps
    · obtain rfl := Option.some_inj.1 hrow
      rw [hk]
      exact hcurrent.named
    · exact h.named k row hrow
  · by_cases hk : k = p.key
    · subst hk
      have hnone := hcurrent.cleared (h.worn p.key) hdone
      have hshelf : ({ w.storage with jobs } : WorkerTasks).shelf p.key =
          ⟨if p.keeps then some (Shelf.stored p.row none) else none, fun _ => none⟩ :=
        shelf_eq ((hjobs p.key).trans (if_pos rfl)) hnone
      rw [hshelf]
      split_ifs with hkeeps
      · exact .retired _ (hcurrent.retired hkeeps) rfl
      · exact .vacant
    · have hshelf : ({ w.storage with jobs } : WorkerTasks).shelf k = w.storage.shelf k :=
        shelf_eq ((hjobs k).trans (if_neg hk)) fun i => rfl
      rw [hshelf]
      refine (h.worn k).mono fun i hi => hi.replaced hr fun q hq hqk hdeleted => ?_
      rw [rewritten_afterWrites]
      obtain ⟨m, hm⟩ := List.mem_iff_getElem?.1 hq
      refine ⟨q, List.mem_eraseIdx_iff_getElem?.2 ⟨m, fun hmb => ?_, hm⟩, hqk, hdeleted⟩
      subst hmb
      obtain rfl := Option.some_inj.1 (hm.symm.trans hp)
      exact hk hqk.symm
  · refine ok_afterWrites (fun q hq => ?_) fun row hrest hsome => ?_
    · exact hothers (hok.current q (List.mem_of_mem_eraseIdx hq)) _
    · exact (held_rest hok row hrest hsome).mono fun i _ _ => rfl

/-- **A chunk is read** of a ciphertext that is held. -/
theorem Sound.hydrating (h : w.Sound sha256) {row : Job} {chunks : List Str}
    (hr : w.reads[n]? = some ⟨call, now, .hydrating row chunks⟩) :
    ∃ chunk, readChunk w.storage.boxes row chunks.length = .ok chunk ∧
      (w.replaced n ⟨call, now, hydration sha256 call row (chunks ++ [chunk])⟩ w.storage).Sound
        sha256 := by
  have hok := h.reads _ (List.mem_of_getElem? hr)
  have hlt : chunks.length < row.chunkCount := hok.unfinished row chunks rfl
  have hsome : row.cipher.isSome = true := by
    unfold Job.chunkCount at hlt
    cases hcipher : row.cipher with
    | none =>
      rw [hcipher] at hlt
      exact absurd hlt (Nat.not_lt_zero _)
    | some cipher => rfl
  obtain ⟨k, box, hbox⟩ := hok.held (row, chunks) List.mem_cons_self hsome
  have hget : w.storage.boxes.get? (boxKey row chunks.length) = some (boxChunk box chunks.length) := by
    rw [boxKey_of_named hbox.id hbox.room]
    exact hbox.ahead _ le_rfl hlt
  have hlength : (boxChunk box chunks.length).length ≤ CHUNK_BYTES :=
    Chunks.length_slice_le CHUNK_BYTES box _
  refine ⟨boxChunk box chunks.length, ?_, ?_⟩
  · unfold readChunk
    rw [hget]
    exact if_pos hlength
  · refine h.observe hr rfl rfl (fun p hp => absurd hp List.not_mem_nil) ?_
    refine ok_hydration fun _ => ⟨k, box, { hbox with read := ?_, length_le := ?_, ahead := ?_ }⟩
    · rw [List.length_append, List.length_singleton, List.range_succ, List.map_append,
        ← hbox.read]
      rfl
    · rw [List.length_append]
      exact hlt
    · intro i hlow hhigh
      rw [List.length_append, List.length_singleton] at hlow
      exact hbox.ahead i (Nat.le_of_succ_le hlow) hhigh

/-- **A read goes on** undisturbed. -/
theorem Sound.proceed (h : w.Sound sha256) {r : JobRead} (hr : w.reads[n]? = some r)
    (hundisturbing : r.Undisturbing w b) :
    (w.replaced n (r.step sha256 w.storage w.commits b).1
      (r.step sha256 w.storage w.commits b).2).Sound sha256 := by
  have hok := h.reads r (List.mem_of_getElem? hr)
  obtain ⟨call, now, phase⟩ := r
  cases phase with
  | reading records =>
    obtain ⟨hjobs, hboxes⟩ := readPage_storage sha256 call now w.storage w.commits records
    refine h.observe hr hjobs hboxes (fun p hp => ?_) ?_
    · obtain ⟨x, -, hx⟩ := List.mem_flatMap.1 hp
      exact (writes_eq hx).2.2.2.1
    · exact ok_readPage h.named h.worn hok hundisturbing rfl hjobs hboxes
  | writing pending rest =>
    unfold JobRead.step
    dsimp only
    cases hp : pending[call.branch b]? with
    | none =>
      dsimp only
      rw [replaced_self hr]
      exact h
    | some p =>
      dsimp only
      unfold WriteBack.perform
      split_ifs with hmore hkeeps
      · exact h.deleting hr hp (hundisturbing p hp hmore)
      · exact h.storing hr hp (not_lt.1 hmore) fun k => by rw [Table.get?_put, if_pos hkeeps]
      · exact h.storing hr hp (not_lt.1 hmore) fun k => by rw [Table.get?_erase, if_neg hkeeps]
  | hydrating row chunks =>
    obtain ⟨chunk, hchunk, hsound⟩ := h.hydrating hr
    unfold JobRead.step
    dsimp only
    rw [hchunk]
    exact hsound
  | done answer =>
    change (w.replaced n ⟨call, now, .done answer⟩ w.storage).Sound sha256
    rw [replaced_self hr]
    exact h

/-- A read starts. -/
theorem Sound.start (h : w.Sound sha256) :
    JobTraffic.Sound sha256 { w with reads := w.reads ++ [⟨call, now, .reading []⟩] } where
  named := h.named
  worn k := by
    refine (h.worn k).mono ?_
    rintro i ⟨r, hr, hgone⟩
    exact ⟨r, List.mem_append_left _ hr, hgone⟩
  reads r hr := by
    rcases List.mem_append.1 hr with hold | hnew
    · have hr := h.reads r hold
      exact
        { current := fun p hp => (hr.current p hp).mono rfl (fun row hrow _ => hrow) fun i hi => hi
          held := hr.held
          unfinished := hr.unfinished
          whole := hr.whole }
    · obtain rfl := List.mem_singleton.1 hnew
      exact ⟨fun _ hp => absurd hp List.not_mem_nil, fun _ ha => absurd ha List.not_mem_nil,
        fun _ _ hphase => (by cases hphase), fun _ hphase => (by cases hphase)⟩

/-! ## Runs -/

/-- An undisturbed event. -/
def Step (sha256 : Str → Str) (w : JobTraffic) (e : JobEvent) (w' : JobTraffic) : Prop :=
  Undisturbed sha256 w e ∧ w' = w.next sha256 e

/-- **An undisturbed event** keeps the invariant. -/
theorem Sound.next {w' : JobTraffic} (h : w.Sound sha256) {e : JobEvent}
    (hstep : Step sha256 w e w') : w'.Sound sha256 := by
  obtain ⟨hundisturbed, rfl⟩ := hstep
  cases e with
  | start now call => exact h.start
  | proceed read branch =>
    unfold JobTraffic.next
    dsimp only
    cases hr : w.reads[read]? with
    | none => exact h
    | some r => exact h.proceed hr (hundisturbed r hr)
  | commit now c =>
    cases hwrites : c.writes with
    | false =>
      unfold JobTraffic.next
      dsimp only
      rw [hwrites]
      exact h
    | true =>
      rw [next_commit hwrites]
      exact h.commit hundisturbed hwrites

theorem sound_empty : empty.Sound sha256 where
  named := named_empty
  worn _ := .vacant
  reads _ hr := absurd hr List.not_mem_nil

/-- The row that a read writes next, or deletes, after its chunks. -/
def nextWrite (r : JobRead) (branch : ℕ) : Option WriteBack :=
  match r.phase with
  | .writing pending _ => pending[r.call.branch branch]?
  | _ => none

/-- What a read threw. -/
def failure (r : JobRead) : Option Throw :=
  match r.phase with
  | .done (.error e) => some e
  | _ => none

/-- No read goes on with a row from an older snapshot than the last one that a transaction stored,
and none failed on a ciphertext. -/
structure Safe (w : JobTraffic) : Prop where
  fresh : ∀ r ∈ w.reads, ∀ branch p, nextWrite r branch = some p → p.seen = w.commits p.key
  whole : ∀ r ∈ w.reads, ∀ e, failure r = some e →
    e = .error "task history exceeds storage bounds"

theorem mem_rewritten_of_nextWrite {r : JobRead} {branch : ℕ} {p : WriteBack}
    (h : nextWrite r branch = some p) : p ∈ r.rewritten := by
  obtain ⟨call, now, phase⟩ := r
  cases phase with
  | writing pending rest => exact List.mem_of_getElem? h
  | reading records => cases h
  | hydrating row chunks => cases h
  | done answer => cases h

theorem Sound.safe (h : w.Sound sha256) : w.Safe where
  fresh r hr _ p hp := ((h.reads r hr).current p (mem_rewritten_of_nextWrite hp)).seen
  whole r hr e he := by
    have hr := (h.reads r hr).whole
    obtain ⟨call, now, phase⟩ := r
    cases phase with
    | done answer =>
      cases answer with
      | error e' =>
        cases he
        exact hr e rfl
      | ok answer => cases he
    | reading records => cases he
    | writing pending rest => cases he
    | hydrating row chunks => cases he

end JobTraffic

/-- **Undisturbed reads** never write a row over one that a transaction stored after they read it,
and never fail on a ciphertext. -/
theorem reads_respect_transactions (sha256 : Str → Str) (events : List JobEvent) (w : JobTraffic)
    (hrun : Run (JobTraffic.Step sha256) JobTraffic.empty events w) : w.Safe :=
  (hrun.invariant (fun _ _ _ h hstep => h.next hstep) JobTraffic.sound_empty).safe

namespace JobTraffic

/-- The traffic after events. -/
def after (sha256 : Str → Str) (events : List JobEvent) : JobTraffic :=
  events.foldl (JobTraffic.next sha256) empty

/-- Only lists of rooms are in flight. -/
def listsOnly (w : JobTraffic) : Bool :=
  w.reads.all fun r => (match r.call with | .list _ => true | _ => false) && r.awaited.isEmpty

/-- Lists show no row in full. -/
theorem undisturbed_lists {sha256 : Str → Str} {w : JobTraffic} (h : w.listsOnly = true)
    (n b : ℕ) : Undisturbed sha256 w (.proceed n b) := by
  have hlists := List.all_eq_true.1 h
  intro r hr
  obtain ⟨hcall, -⟩ := Bool.and_eq_true_iff.1 (hlists r (List.mem_of_getElem? hr))
  obtain ⟨call, now, phase⟩ := r
  cases phase with
  | reading records =>
    intro _ row hrest
    cases call with
    | list room => cases hrest
    | _ => cases hcall
  | writing pending rest =>
    rintro p - - r' hr' ⟨a, ha, -⟩
    obtain ⟨-, hnone⟩ := Bool.and_eq_true_iff.1 (hlists r' hr')
    rw [List.isEmpty_iff.1 hnone] at ha
    cases ha
  | hydrating row chunks => exact trivial
  | done answer => exact trivial

end JobTraffic

/-- A job is put, and a list finds it expired, deletes its chunk and writes it back. -/
def expiringList : List JobEvent :=
  [.commit 1000 (.put sampleRoom sampleJob sampleBody), .start 9000 (.list sampleRoom),
    .proceed 0 0, .proceed 0 0, .proceed 0 0]

theorem expiringList_run : Run (JobTraffic.Step fun _ => sampleDigest 'b') JobTraffic.empty
    expiringList (.after (fun _ => sampleDigest 'b') expiringList) :=
  .cons ⟨⟨fun _ _ _ hr => absurd hr List.not_mem_nil, fun _ _ _ hr => absurd hr List.not_mem_nil⟩,
      rfl⟩ <|
    .cons ⟨trivial, rfl⟩ <|
    .cons ⟨JobTraffic.undisturbed_lists (by decide +kernel) 0 0, rfl⟩ <|
    .cons ⟨JobTraffic.undisturbed_lists (by decide +kernel) 0 0, rfl⟩ <|
    .cons ⟨JobTraffic.undisturbed_lists (by decide +kernel) 0 0, rfl⟩ <|
    .nil _

/-- The list writes the expired row. -/
theorem reads_respect_transactions_sample :
    ((JobTraffic.after (fun _ => sampleDigest 'b') expiringList).storage.jobs.get?
        (sampleRoom, sampleJob)).any (fun row => row.state = .expired) = true ∧
      (JobTraffic.after (fun _ => sampleDigest 'b') expiringList).Safe :=
  ⟨by decide +kernel, reads_respect_transactions _ expiringList _ expiringList_run⟩

/-- A list finds a job expired, and a claim that was started before it commits. -/
def staleList : List JobEvent :=
  [.commit 1000 (.put sampleRoom sampleJob sampleBody), .start 9000 (.list sampleRoom),
    .proceed 0 0, .proceed 0 0,
    .commit 8999 (.transition sampleRoom sampleJob .claim (sampleProof "claim-000001"))]

/-- A full read has the row of a job, and a cancellation retires the job. -/
def cancelledRead : List JobEvent :=
  [.commit 1000 (.put sampleRoom sampleJob sampleBody),
    .start 2000 (.getPublic sampleRoom sampleJob false), .proceed 0 0,
    .commit 2000 (.transition sampleRoom sampleJob .cancel none), .proceed 0 0]

/-- The list writes the expired job over the claimed one, and the full read misses the chunk. -/
theorem reads_undo_transactions :
    (¬∀ (sha256 : Str → Str) (events : List JobEvent), ∀ r ∈ (JobTraffic.after sha256 events).reads,
        ∀ branch p, JobTraffic.nextWrite r branch = some p → p.count ≤ p.deleted →
          p.seen = (JobTraffic.after sha256 events).commits p.key) ∧
      ¬∀ (sha256 : Str → Str) (events : List JobEvent), ∀ r ∈ (JobTraffic.after sha256 events).reads,
        ∀ e, JobTraffic.failure r = some e →
          e = .error "task history exceeds storage bounds" := by
  constructor
  · intro h
    set w := JobTraffic.after (fun _ => sampleDigest 'b') staleList with hw
    have hfresh : (w.reads.all fun r => (JobTraffic.nextWrite r 0).all fun p =>
        p.count ≤ p.deleted → p.seen = w.commits p.key) = true :=
      List.all_eq_true.2 fun r hr => (Option.all_eq_true _ _).2 fun p hp =>
        decide_eq_true (h _ staleList r hr 0 p hp)
    rw [hw] at hfresh
    exact absurd hfresh (by decide +kernel)
  · intro h
    set w := JobTraffic.after (fun _ => sampleDigest 'b') cancelledRead with hw
    have hwhole : (w.reads.all fun r => (JobTraffic.failure r).all fun e =>
        e = .error "task history exceeds storage bounds") = true :=
      List.all_eq_true.2 fun r hr => (Option.all_eq_true _ _).2 fun e he =>
        decide_eq_true (h _ cancelledRead r hr e he)
    rw [hw] at hwhole
    exact absurd hwhole (by decide +kernel)

end GrantTap
