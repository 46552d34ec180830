import GrantTapRelay.TaskDispatch.Capacity
import GrantTapRelay.TaskDispatch.LazyExpiry

/-!
# Maintenance of a Worker room

What `maintain` of `src/taskDispatch/worker.js` returns is not after the deadline of anything that
it keeps, neither of a job (`maintain_covers`) nor of a configuration
(`Registry.Tidy.maintainWorker`).

It reads one page of 129 configurations, so this takes that there are no more than 128 of them.
`Registry.Tidy` says so, and the requests for one room keep it.
-/

namespace GrantTap

open Js

/-! ## Deadlines -/

/-- An alarm is set, and not after `d`. -/
def Covers (alarm : Option ℤ) (d : ℤ) : Prop := ∃ time, alarm = some time ∧ time ≤ d

@[simp] theorem covers_none (d : ℤ) : ¬Covers none d := by
  rintro ⟨time, h, -⟩
  cases h

@[simp] theorem covers_some {time d : ℤ} : Covers (some time) d ↔ time ≤ d := by
  simp [Covers]

theorem Covers.mono {alarm : Option ℤ} {d d' : ℤ} (h : Covers alarm d) (hle : d ≤ d') :
    Covers alarm d' := by
  obtain ⟨time, halarm, htime⟩ := h
  exact ⟨time, halarm, htime.trans hle⟩

namespace WorkerTasks

@[simp] theorem covers_earlier {next deadline : Option ℤ} {d : ℤ} :
    Covers (earlier next deadline) d ↔ Covers next d ∨ Covers deadline d := by
  cases next <;> cases deadline <;> simp [earlier]

section Deadlines

variable {connected : Option (List (Option Str))} {now now' d : ℤ} {row : Job}

/-- When the room must wake for a row that it keeps. -/
def dueBy (connected : Option (List (Option Str))) (now : ℤ) (row : Job) : Option ℤ :=
  deadline connected now (expireJob row now)

theorem deadline_record (row : Job) :
    deadline connected now row.record = deadline connected now row := rfl

/-- What is not queued any more waits for the end of its retention. -/
theorem deadline_of_not_queued (h : row.state ≠ .queued) :
    deadline connected now row = deadline connected now' row := by
  simp [deadline, h]

theorem deadline_of_queued (connected : Option (List (Option Str))) (now : ℤ)
    (h : row.state = .queued) : ∃ d, deadline connected now row = some d ∧ d ≤ row.expiresAt := by
  unfold deadline
  rw [if_pos h]
  split_ifs
  · exact ⟨_, rfl, le_rfl⟩
  · exact ⟨_, rfl, min_le_left _ _⟩
  · exact ⟨_, rfl, min_le_left _ _⟩

/-- Of a queued row that does not expire yet. -/
theorem deadline_later (h : row.state = .queued) (hle : now ≤ now')
    (hd : deadline connected now' row = some d) :
    ∃ d', deadline connected now row = some d' ∧ d' ≤ d := by
  unfold deadline at hd ⊢
  rw [if_pos h] at hd ⊢
  split_ifs at hd ⊢ <;> cases hd <;> refine ⟨_, rfl, ?_⟩ <;> omega

/-- **Deadlines move later** while nothing is written. -/
theorem dueBy_later (hle : now ≤ now') (hd : dueBy connected now' row = some d) :
    ∃ d', dueBy connected now row = some d' ∧ d' ≤ d := by
  unfold dueBy at hd ⊢
  by_cases hqueued : row.state = .queued
  · by_cases hexpired : row.expiresAt ≤ now
    · have hsame : expireJob row now = expireJob row now' := by
        unfold expireJob expires
        rw [if_pos (by simp [hqueued, hexpired]), if_pos (by simp [hqueued, hexpired.trans hle])]
      rw [hsame]
      refine ⟨d, ?_, le_rfl⟩
      rw [← hd]
      refine deadline_of_not_queued ?_
      rw [← hsame]
      unfold expireJob expires
      rw [if_pos (by simp [hqueued, hexpired])]
      simp [retireJob]
    · have hkeep : expireJob row now = row := by
        unfold expireJob expires
        rw [if_neg (by simp [hexpired])]
      rw [hkeep]
      by_cases hlater : row.expiresAt ≤ now'
      · obtain ⟨d', hd', hle'⟩ := deadline_of_queued connected now hqueued
        refine ⟨d', hd', hle'.trans ?_⟩
        unfold expireJob expires at hd
        rw [if_pos (by simp [hqueued, hlater])] at hd
        simp only [deadline, retireJob, reduceCtorEq, if_false, max_self, Option.some.injEq] at hd
        omega
      · have hkeep' : expireJob row now' = row := by
          unfold expireJob expires
          rw [if_neg (by simp [hlater])]
        rw [hkeep'] at hd
        exact deadline_later hqueued hle hd
  · have hkeep (t : ℤ) : expireJob row t = row := by
      unfold expireJob expires
      rw [if_neg (by simp [hqueued])]
    rw [hkeep] at hd ⊢
    refine ⟨d, ?_, le_rfl⟩
    rw [← hd]
    exact deadline_of_not_queued hqueued

/-- They move later when a recipient leaves. -/
theorem dueBy_fewer {keys keys' : List (Option Str)} (hsub : ∀ key ∈ keys', key ∈ keys)
    (hd : dueBy (some keys') now row = some d) :
    ∃ d', dueBy (some keys) now row = some d' ∧ d' ≤ d := by
  unfold dueBy at hd ⊢
  generalize expireJob row now = row at hd ⊢
  by_cases hqueued : row.state = .queued
  · by_cases hthere : hasRecipient keys' (row.envelope.get (lit "recipientKeyId")) = true
    · have hthere' : hasRecipient keys (row.envelope.get (lit "recipientKeyId")) = true := by
        revert hthere
        cases row.envelope.get (lit "recipientKeyId") with
        | none => simpa [hasRecipient] using hsub none
        | some value =>
          cases value with
          | str key => simpa [hasRecipient] using hsub (some key)
          | _ => simp [hasRecipient]
      refine ⟨d, ?_, le_rfl⟩
      rw [← hd]
      simp [deadline, hthere, hthere']
    · obtain ⟨d', hd', hle⟩ := deadline_of_queued (some keys) now hqueued
      refine ⟨d', hd', hle.trans ?_⟩
      simp only [deadline, hqueued, if_true, Option.any_some, hthere, Bool.not_false,
        Option.some.injEq] at hd
      omega
  · refine ⟨d, ?_, le_rfl⟩
    rw [← hd]
    simp [deadline, hqueued]

/-- A row that was written back has the deadline that it had. -/
theorem dueBy_age {sha256 : Str → Str} (shelf : Shelf) {row₀ : Job}
    (hrow₀ : shelf.row = some row₀) (hrow : (shelf.age sha256 now).row = some row) :
    dueBy connected now row = dueBy connected now row₀ := by
  unfold Shelf.age at hrow
  rw [hrow₀] at hrow
  dsimp only at hrow
  split_ifs at hrow with hexpires
  · obtain ⟨cipher, hwrite⟩ := Shelf.write_row sha256 shelf (expireJob row₀ now)
    rw [hwrite] at hrow
    cases hrow
    have hretired : expireJob row₀ now = retireJob row₀ .expired row₀.expiresAt := by
      rw [expireJob, if_pos hexpires]
    have hkeep : expireJob (Shelf.stored (expireJob row₀ now) cipher) now =
        Shelf.stored (expireJob row₀ now) cipher := by
      rw [hretired, expireJob, if_neg (by simp [expires, Shelf.stored, retireJob])]
    unfold dueBy
    rw [hkeep, hretired]
    rfl
  · rw [hrow₀] at hrow
    cases hrow
    rfl

end Deadlines

/-! ## `maintain` -/

section Maintain

variable {sha256 : Str → Str} {s t : WorkerTasks} {connected : Option (List (Option Str))}
  {now d : ℤ} {k : RoomKey} {row : Job}

theorem maintainRow_covers (acc : Option ℤ × WorkerTasks) (r : RoomKey × Job)
    (h : Covers acc.1 d) : Covers (maintainRow sha256 connected now acc r).1 d := by
  unfold maintainRow
  dsimp only
  split_ifs
  · exact h
  · exact covers_earlier.2 (.inl h)
  · exact covers_earlier.2 (.inl h)

theorem maintainRow_self (acc : Option ℤ × WorkerTasks) {r : RoomKey × Job}
    (hkeep : ¬Shelf.Outdated now r.2) (hd : dueBy connected now r.2 = some d) :
    Covers (maintainRow sha256 connected now acc r).1 d := by
  refine (congrArg (fun acc : Option ℤ × WorkerTasks => Covers acc.1 d) (if_neg hkeep)).mpr ?_
  rw [show deadline connected now (expireJob r.2 now) = some d from hd]
  exact covers_earlier.2 (.inr (covers_some.2 le_rfl))

theorem foldl_maintainRow (l : List (RoomKey × Job)) (acc : Option ℤ × WorkerTasks) :
    (Covers acc.1 d → Covers (l.foldl (maintainRow sha256 connected now) acc).1 d) ∧
      ∀ r ∈ l, ¬Shelf.Outdated now r.2 → dueBy connected now r.2 = some d →
        Covers (l.foldl (maintainRow sha256 connected now) acc).1 d := by
  induction l generalizing acc with
  | nil => exact ⟨id, fun r hr => absurd hr List.not_mem_nil⟩
  | cons r l ih =>
    obtain ⟨hkept, hself⟩ := ih (maintainRow sha256 connected now acc r)
    refine ⟨fun h => hkept (maintainRow_covers acc r h), fun r' hr' hkeep hd => ?_⟩
    rcases List.mem_cons.1 hr' with rfl | hr'
    · exact hkept (maintainRow_self acc hkeep hd)
    · exact hself r' hr' hkeep hd

theorem registry_maintainRow (acc : Option ℤ × WorkerTasks) (r : RoomKey × Job) :
    (maintainRow sha256 connected now acc r).2.registry = acc.2.registry := by
  unfold maintainRow
  dsimp only
  split_ifs
  · rfl
  · exact registry_writeTaskJob ..
  · rfl

/-- What a successful `maintain` computes. -/
theorem maintain_eq {next : Option ℤ} (h : s.maintain sha256 connected now = .ok (next, t)) :
    (next, t) = s.jobs.rows.foldl (maintainRow sha256 connected now)
      ((s.registry.maintainWorker now).1,
        { s with registry := (s.registry.maintainWorker now).2 }) := by
  obtain ⟨records, hrecords, h⟩ := except_bind_ok.1 h
  unfold boundedRecords at hrecords
  split_ifs at hrecords
  cases hrecords
  exact (Except.ok.inj h).symm

theorem registry_maintain {next : Option ℤ}
    (h : s.maintain sha256 connected now = .ok (next, t)) :
    t.registry = (s.registry.maintainWorker now).2 := by
  have ht := congrArg Prod.snd (maintain_eq h)
  dsimp only at ht
  rw [ht]
  refine List.foldlRecOn (motive := fun acc : Option ℤ × WorkerTasks =>
    acc.2.registry = (s.registry.maintainWorker now).2) s.jobs.rows _ rfl ?_
  intro acc hacc r _
  rw [registry_maintainRow, hacc]

/-- **The deadline that `maintain` returns** is not after that of a row it keeps. -/
theorem maintain_covers (hs : s.Named) {next : Option ℤ}
    (h : s.maintain sha256 connected now = .ok (next, t)) (hrow : t.jobs.get? k = some row)
    (hd : dueBy connected now row = some d) : Covers next d := by
  have hshelf := congrArg Shelf.row (shelf_maintain hs h k)
  rw [shelf_row, hrow] at hshelf
  unfold Shelf.maintain at hshelf
  cases hrow₀ : s.jobs.get? k with
  | none => simp [hrow₀] at hshelf
  | some row₀ =>
    simp only [shelf_row, hrow₀] at hshelf
    split_ifs at hshelf with hkeep
    · rw [dueBy_age (s.shelf k) hrow₀ hshelf.symm] at hd
      have hnext := congrArg Prod.fst (maintain_eq h)
      dsimp only at hnext
      rw [hnext]
      exact (foldl_maintainRow _ _).2 (k, row₀) (Table.mem_rows.2 hrow₀) hkeep hd

end Maintain

end WorkerTasks

/-! ## Configurations -/

namespace Registry

variable {s : Registry} {room id : Str} {now : ℤ} {k : RoomKey} {row : Configuration}

/-- The configurations are those of one room, at their own ids, and no more than it may have. -/
structure Tidy (s : Registry) (room : Str) : Prop where
  home : ∀ k row, s.configurations.get? k = some row → k = (room, row.id)
  few : s.configurations.size ≤ 128

theorem Tidy.congr {s' : Registry} (h : s.Tidy room)
    (hsame : s'.configurations = s.configurations) : s'.Tidy room :=
  ⟨hsame ▸ h.home, hsame ▸ h.few⟩

/-- Rows are deleted. -/
theorem Tidy.of_sublist {s' : Registry} (h : s.Tidy room)
    (hsub : s'.configurations.rows.Sublist s.configurations.rows) : s'.Tidy room where
  home k row hrow := h.home k row (Table.mem_rows.1 (hsub.subset (Table.mem_rows.2 hrow)))
  few := hsub.length_le.trans h.few

/-- Deleting some of the rows that a list names. -/
theorem foldl_erase {β : Type} (old : β → Prop) [DecidablePred old] (key : β → RoomKey) (l : List β)
    (t : Table RoomKey Configuration) :
    (l.foldl (fun t b => if old b then t.erase (key b) else t) t).rows.Sublist t.rows ∧
      ∀ b ∈ l, old b →
        (l.foldl (fun t b => if old b then t.erase (key b) else t) t).get? (key b) = none := by
  induction l generalizing t with
  | nil => exact ⟨List.Sublist.refl _, fun b hb => absurd hb List.not_mem_nil⟩
  | cons b l ih =>
    obtain ⟨hsub, hgone⟩ := ih (if old b then t.erase (key b) else t)
    have hstep : (if old b then t.erase (key b) else t).rows.Sublist t.rows := by
      split_ifs
      · exact List.filter_sublist
      · exact List.Sublist.refl _
    refine ⟨hsub.trans hstep, fun b' hb' hold => ?_⟩
    rcases List.mem_cons.1 hb' with rfl | hb'
    · rw [List.foldl_cons]
      cases hget : (l.foldl (fun t b => if old b then t.erase (key b) else t)
          (if old b' then t.erase (key b') else t)).get? (key b') with
      | none => rfl
      | some row =>
        have hmem := hsub.subset (Table.mem_rows.2 hget)
        rw [if_pos hold, Table.mem_rows, Table.get?_erase, if_pos rfl] at hmem
        cases hmem
    · exact hgone b' hb' hold

/-- The rows of the room are all rows, and one page shows them. -/
theorem Tidy.listed (h : s.Tidy room) :
    (s.listConfigurations room).Perm s.configurations.rows := by
  have hall : (s.configurations.rows.filter fun r => r.1.1 = room) = s.configurations.rows := by
    refine List.filter_eq_self.2 fun r hr => decide_eq_true ?_
    exact congrArg Prod.fst (h.home r.1 r.2 (Table.mem_rows.1 hr))
  have hperm : (roomRows s.configurations room).Perm s.configurations.rows := by
    unfold roomRows
    rw [hall]
    exact List.perm_insertionSort _ _
  have hpage : s.listConfigurations room = roomRows s.configurations room := by
    refine List.take_of_length_le ?_
    rw [hperm.length_eq]
    exact h.few.trans (by decide)
  rw [hpage]
  exact hperm

/-- What `maintainWorker` does with one row. -/
def maintainOne (now : ℤ) (acc : Option ℤ × Registry) (r : RoomKey × Configuration) :
    Option ℤ × Registry :=
  if r.2.expiresAt ≤ now then
    (acc.1, { acc.2 with configurations := acc.2.configurations.erase r.1 })
  else (some (acc.1.elim r.2.expiresAt (min r.2.expiresAt)), acc.2)

theorem maintainOne_covers {acc : Option ℤ × Registry} {r : RoomKey × Configuration} {d : ℤ}
    (h : Covers acc.1 d) : Covers (maintainOne now acc r).1 d := by
  obtain ⟨time, htime, hle⟩ := h
  unfold maintainOne
  split_ifs
  · exact ⟨time, htime, hle⟩
  · rw [htime]
    exact covers_some.2 ((min_le_right _ _).trans hle)

theorem maintainOne_sublist (acc : Option ℤ × Registry) (r : RoomKey × Configuration) :
    (maintainOne now acc r).2.configurations.rows.Sublist acc.2.configurations.rows := by
  unfold maintainOne
  split_ifs
  · exact List.filter_sublist
  · exact List.Sublist.refl _

theorem foldl_maintainOne (now : ℤ) (l : List (RoomKey × Configuration))
    (acc : Option ℤ × Registry) :
    (l.foldl (maintainOne now) acc).2.configurations.rows.Sublist acc.2.configurations.rows ∧
      (∀ d, Covers acc.1 d → Covers (l.foldl (maintainOne now) acc).1 d) ∧
      ∀ r ∈ l, r ∈ (l.foldl (maintainOne now) acc).2.configurations.rows →
        Covers (l.foldl (maintainOne now) acc).1 r.2.expiresAt := by
  induction l generalizing acc with
  | nil => exact ⟨List.Sublist.refl _, fun d h => h, fun r hr => absurd hr List.not_mem_nil⟩
  | cons r l ih =>
    obtain ⟨hsub, hcovers, hself⟩ := ih (maintainOne now acc r)
    refine ⟨hsub.trans (maintainOne_sublist acc r), fun d h => hcovers d (maintainOne_covers h),
      fun r' hr' hkept => ?_⟩
    rcases List.mem_cons.1 hr' with rfl | hr'
    · refine hcovers _ ?_
      have hmem := hsub.subset hkept
      unfold maintainOne at hmem ⊢
      split_ifs at hmem ⊢
      · rw [Table.mem_rows (k := r'.1) (v := r'.2), Table.get?_erase, if_pos rfl] at hmem
        cases hmem
      · rw [covers_some]
        cases acc.1 with
        | none => exact le_rfl
        | some time => exact min_le_left _ _
    · exact hself r' hr' hkept

/-- **The deadline that `maintainWorker` returns** is not after the expiry of what it keeps. -/
theorem Tidy.maintainWorker (h : s.Tidy room) :
    (s.maintainWorker now).2.Tidy room ∧
      ∀ k row, (s.maintainWorker now).2.configurations.get? k = some row →
        Covers (s.maintainWorker now).1 row.expiresAt := by
  have hpage : (s.configurations.rows.insertionSort fun a b =>
      unitsLe (a.1.1 ++ lit ":" ++ a.1.2) (b.1.1 ++ lit ":" ++ b.1.2)).take 129 =
        s.configurations.rows.insertionSort fun a b =>
          unitsLe (a.1.1 ++ lit ":" ++ a.1.2) (b.1.1 ++ lit ":" ++ b.1.2) := by
    refine List.take_of_length_le ?_
    rw [List.length_insertionSort]
    exact h.few.trans (by decide)
  have hfold : s.maintainWorker now = List.foldl (maintainOne now) (none, s)
      (s.configurations.rows.insertionSort fun a b =>
        unitsLe (a.1.1 ++ lit ":" ++ a.1.2) (b.1.1 ++ lit ":" ++ b.1.2)) := by
    rw [← hpage]
    rfl
  obtain ⟨hsub, -, hself⟩ := foldl_maintainOne now
    (s.configurations.rows.insertionSort fun a b =>
      unitsLe (a.1.1 ++ lit ":" ++ a.1.2) (b.1.1 ++ lit ":" ++ b.1.2)) (none, s)
  rw [hfold]
  refine ⟨h.of_sublist hsub, fun k row hrow => ?_⟩
  have hkept := Table.mem_rows.2 hrow
  exact hself (k, row) ((List.mem_insertionSort _).2 (hsub.subset hkept)) hkept

/-- Reading a configuration may delete it. -/
theorem sublist_getConfiguration (s : Registry) (room id : Str) (now : ℤ) :
    (s.getConfiguration room id now).2.configurations.rows.Sublist s.configurations.rows := by
  unfold getConfiguration
  split_ifs
  · split
    · exact List.Sublist.refl _
    · split_ifs
      · exact List.filter_sublist
      · exact List.Sublist.refl _
  · exact List.Sublist.refl _

/-- **A configuration that does not fit** leaves the others, and those that expired go. -/
theorem sublist_putConfiguration {body : Value} {reply : Reply} {s' : Registry}
    (h : s.putConfiguration room id body now = .ok (reply, s')) (hstatus : 300 ≤ reply.status) :
    s'.configurations.rows.Sublist s.configurations.rows := by
  unfold putConfiguration at h
  split at h
  · cases h
  · cases h
    exact List.Sublist.refl _
  · rename_i row hrow
    unfold commitConfiguration at h
    dsimp only at h
    split_ifs at h with hfits <;> cases h
    · exact absurd hfits (Nat.not_lt.2 hstatus)
    · exact (foldl_erase (fun old : RoomKey × Configuration => old.2.expiresAt ≤ now)
        (fun old => (room, old.2.id)) _ _).1

/-- **A configuration that is stored** leaves the room tidy. -/
theorem Tidy.commitConfiguration (h : s.Tidy room) (row : Configuration) :
    (s.commitConfiguration room row now).2.Tidy room := by
  obtain ⟨hsub, hgone⟩ := foldl_erase (fun old : RoomKey × Configuration => old.2.expiresAt ≤ now)
    (fun old => (room, old.2.id)) (s.listConfigurations room) s.configurations
  unfold Registry.commitConfiguration
  dsimp only
  generalize hkept : (s.listConfigurations room).foldl (fun t old =>
    if old.2.expiresAt ≤ now then t.erase (room, old.2.id) else t) s.configurations = kept
    at hsub hgone ⊢
  have hhome : ({ s with configurations := kept } : Registry).Tidy room := h.of_sublist hsub
  split_ifs with hfits
  · refine ⟨fun k row' hrow => ?_, ?_⟩
    · dsimp only at hrow
      rw [Table.get?_put] at hrow
      split_ifs at hrow with hk
      · cases hrow
        exact hk
      · exact hhome.home k row' hrow
    · -- what is kept has not expired
      have hactive : kept.rows.Sublist
          (s.configurations.rows.filter fun r => now < r.2.expiresAt) := by
        rw [← List.filter_eq_self (l := kept.rows) (p := fun r => now < r.2.expiresAt) |>.2 ?_]
        · exact hsub.filter _
        · intro r hr
          rw [decide_eq_true_eq, ← not_le]
          intro hold
          have hlisted := h.listed.mem_iff.2 (hsub.subset hr)
          have hkey := h.home r.1 r.2 (Table.mem_rows.1 (hsub.subset hr))
          have hnone := hgone r hlisted hold
          rw [← hkey, Table.mem_rows.1 hr] at hnone
          cases hnone
      have hlength : (((s.listConfigurations room).map Prod.snd).filter fun row =>
          now < row.expiresAt).length =
            (s.configurations.rows.filter fun r => now < r.2.expiresAt).length := by
        rw [List.filter_map, List.length_map]
        exact (h.listed.filter _).length_eq
      have hfew : (s.configurations.rows.filter fun r => now < r.2.expiresAt).length ≤ 128 :=
        (List.length_filter_le _ _).trans h.few
      cases hget : kept.get? (room, row.id) with
      | some old =>
        rw [Table.size_put_of_isSome (by rw [hget]; rfl)]
        exact hhome.few
      | none =>
        refine (Table.size_put_le kept _ row).trans (Nat.succ_le_of_lt ?_)
        by_cases hroomy : (s.configurations.rows.filter fun r => now < r.2.expiresAt).length < 128
        · exact hactive.length_le.trans_lt hroomy
        · -- the room is full, so that the row has a predecessor, which is not kept
          refine lt_of_lt_of_le (lt_of_le_of_ne hactive.length_le fun hsame => ?_) hfew
          have hall := hactive.eq_of_length hsame
          unfold configurationCapacity at hfits
          dsimp only at hfits
          rw [hlength] at hfits
          split_ifs at hfits with hrefused hprevious
          · exact absurd hfits (by decide)
          · obtain ⟨old, hold⟩ := Option.isSome_iff_exists.1 hprevious
            have hid : old.id = row.id := by simpa using List.find?_some hold
            obtain ⟨hmem, hlater⟩ := List.mem_filter.1 (List.mem_of_find?_eq_some hold)
            obtain ⟨r, hr, rfl⟩ := List.mem_map.1 hmem
            have hrow := h.listed.mem_iff.1 hr
            have hkey := h.home r.1 r.2 (Table.mem_rows.1 hrow)
            have hin : r ∈ kept.rows := by
              rw [hall]
              exact List.mem_filter.2 ⟨hrow, hlater⟩
            rw [Table.mem_rows (k := r.1) (v := r.2), hkey, hid, hget] at hin
            cases hin
          · have hnone := Option.not_isSome_iff_eq_none.1 hprevious
            refine hrefused (.inl ⟨?_, Nat.not_lt.1 hroomy⟩)
            rw [hnone]
            rfl
  · exact hhome

theorem Tidy.putConfiguration (h : s.Tidy room) {body : Value} {reply : Reply} {s' : Registry}
    (hput : s.putConfiguration room id body now = .ok (reply, s')) : s'.Tidy room := by
  unfold Registry.putConfiguration at hput
  split at hput
  · cases hput
  · cases hput
    exact h
  · rename_i row hrow
    have hcommit : (s.commitConfiguration room row now).2 = s' :=
      congrArg Prod.snd (Except.ok.inj hput)
    rw [← hcommit]
    exact h.commitConfiguration row

/-- The writers of a room have no part in its configurations. -/
theorem configurations_dropRetired (s : Registry) (room : Str) (rows : List (RoomKey × WriterGrant))
    (now : ℤ) : (s.dropRetired room rows now).configurations = s.configurations := by
  unfold dropRetired
  refine List.foldlRecOn (motive := fun s' : Registry => s'.configurations = s.configurations)
    rows _ rfl fun s' hs' old _ => ?_
  split_ifs
  · exact hs'
  · exact hs'

theorem configurations_commitWriterGrant (s : Registry) (room : Str) (row : WriterGrant) (now : ℤ) :
    (s.commitWriterGrant room row now).2.configurations = s.configurations := by
  unfold commitWriterGrant
  split
  · rfl
  · dsimp only
    split_ifs
    · exact configurations_dropRetired ..
    · exact configurations_dropRetired ..

theorem configurations_revoke (s : Registry) (room id : Str) (now : ℤ) :
    (s.revoke room id now).2.configurations = s.configurations := by
  unfold revoke
  dsimp only [deleteResources]
  split
  · split_ifs <;> rfl
  · rfl

theorem configurations_resourcesOf {s' : Registry} {body : Option Json} {reply : Reply}
    (h : s.resourcesOf room id body now = .ok (reply, s')) :
    s'.configurations = s.configurations := by
  unfold resourcesOf at h
  repeat' split at h
  all_goals cases h
  all_goals rfl

end Registry

/-- The deadline that `maintain` returns is not after the expiry of a configuration. -/
theorem WorkerTasks.maintain_covers_configuration {sha256 : Str → Str} {s t : WorkerTasks}
    {connected : Option (List (Option Str))} {room : Str} {now : ℤ} {next : Option ℤ}
    (h : s.maintain sha256 connected now = .ok (next, t)) (htidy : s.registry.Tidy room)
    {k : RoomKey} {row : Configuration} (hrow : t.registry.configurations.get? k = some row) :
    Covers next row.expiresAt := by
  have hnext := congrArg Prod.fst (maintain_eq h)
  dsimp only at hnext
  rw [registry_maintain h] at hrow
  rw [hnext]
  exact (foldl_maintainRow _ _).1 (htidy.maintainWorker.2 k row hrow)

end GrantTap
