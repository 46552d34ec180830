import GrantTapRelay.TaskActivities.Registry

/-!
# What both registries promise

`ActivityLaws` says what an operation does to the row of each activity: apart from what it is about,
it deletes expired rows at most (`Faded`). `sqliteLaws` and `workerLaws` are the two registries.
-/

namespace GrantTap

open Js

/-- The row is as it was, or it had expired and is gone. -/
def Faded (now : ℤ) (row row' : Option ActivityRow) : Prop :=
  row' = row ∨ row' = none ∧ ∃ old, row = some old ∧ old.live now = false

/-- The row, unless it has expired. -/
def liveRow (now : ℤ) (row : Option ActivityRow) : Option ActivityRow := row.filter (·.live now)

/-- What both registries promise; `row` is the row they keep of an activity. -/
structure ActivityLaws {σ : Type} (R : ActivityRegistry σ) where
  row : σ → ActivityKey → Option ActivityRow
  empty : ∀ k, row R.empty k = none
  get : ∀ s k now, (R.get s k now).1 = liveRow now (row s k) ∧
    row (R.get s k now).2 k = liveRow now (row s k) ∧
      ∀ k', Faded now (row s k') (row (R.get s k now).2 k')
  list : ∀ s room now k, Faded now (row s k) (row (R.list s room now).2 k)
  register : ∀ s room body now,
    (∃ record, activityRegistration? body now = some record ∧
      (R.register s room body now).1 = true ∧
      row (R.register s room body now).2 ⟨room, record.activityId⟩ =
        some (.renew (liveRow now (row s ⟨room, record.activityId⟩)) record) ∧
      ∀ k, k ≠ ⟨room, record.activityId⟩ → Faded now (row s k) (row (R.register s room body now).2 k)) ∨
    (R.register s room body now).1 = false ∧
      ∀ k, Faded now (row s k) (row (R.register s room body now).2 k)
  remove : ∀ s k now, row (R.remove s k now) k = none ∧
    ∀ k', k' ≠ k → Faded now (row s k') (row (R.remove s k now) k')
  delivered : ∀ s k deliveryId now,
    (∀ old, liveRow now (row s k) = some old →
      row (R.delivered s k deliveryId now) k = some (old.mark deliveryId now)) ∧
    (liveRow now (row s k) = none → Faded now (row s k) (row (R.delivered s k deliveryId now) k)) ∧
    ∀ k', k' ≠ k → Faded now (row s k') (row (R.delivered s k deliveryId now) k')

/-! ### SQLite -/

theorem Faded.refl (now : ℤ) (row : Option ActivityRow) : Faded now row row := .inl rfl

theorem faded_liveRow (now : ℤ) (row : Option ActivityRow) : Faded now row (liveRow now row) := by
  cases row with
  | none => exact .inl rfl
  | some row =>
    cases hlive : row.live now with
    | true => exact .inl (by simp [liveRow, hlive])
    | false => exact .inr ⟨by simp [liveRow, hlive], row, rfl, hlive⟩

theorem liveRow_liveRow (now : ℤ) (row : Option ActivityRow) :
    liveRow now (liveRow now row) = liveRow now row := by
  unfold liveRow
  rw [Option.filter_filter]
  simp only [Bool.and_self]

namespace SqliteTaskActivities

theorem get?_purge (s : SqliteTaskActivities) (now : ℤ) (k : ActivityKey) :
    (s.purge now).get? k = liveRow now (s.get? k) := Table.get?_filter ..

theorem register_laws (s : SqliteTaskActivities) (room : Str) (body : Value) (now : ℤ) :
    (∃ record, activityRegistration? body now = some record ∧ (s.register room body now).1 = true ∧
      (s.register room body now).2.get? ⟨room, record.activityId⟩ =
        some (.renew (liveRow now (s.get? ⟨room, record.activityId⟩)) record) ∧
      ∀ k, k ≠ ⟨room, record.activityId⟩ →
        Faded now (s.get? k) ((s.register room body now).2.get? k)) ∨
    (s.register room body now).1 = false ∧
      ∀ k, Faded now (s.get? k) ((s.register room body now).2.get? k) := by
  have htwice (k : ActivityKey) :
      ((s.purge now).purge now).get? k = liveRow now (s.get? k) := by
    rw [get?_purge, get?_purge, liveRow_liveRow]
  unfold register
  cases hrecord : activityRegistration? body now with
  | none => exact .inr ⟨rfl, fun k => .refl ..⟩
  | some record =>
    dsimp only [get]
    split_ifs
    · refine .inr ⟨rfl, fun k => ?_⟩
      dsimp only
      rw [htwice]
      exact faded_liveRow ..
    · refine .inl ⟨record, rfl, rfl, ?_, fun k hk => ?_⟩
      · dsimp only
        rw [Table.get?_put, if_pos rfl, htwice]
      · dsimp only
        rw [Table.get?_put, if_neg hk, htwice]
        exact faded_liveRow ..

theorem delivered_other (s : SqliteTaskActivities) {k k' : ActivityKey} (deliveryId : Str) (now : ℤ)
    (hk : k' ≠ k) : (s.delivered k deliveryId now).get? k' = s.get? k' := by
  unfold delivered
  cases s.get? k with
  | none => rfl
  | some row =>
    dsimp only
    split_ifs
    · rw [Table.get?_put, if_neg hk]
    · rfl

theorem delivered_self (s : SqliteTaskActivities) (k : ActivityKey) (deliveryId : Str) (now : ℤ) :
    (s.delivered k deliveryId now).get? k =
      (s.get? k).map fun row => if row.live now then row.mark deliveryId now else row := by
  unfold delivered
  cases hrow : s.get? k with
  | none => exact hrow
  | some row =>
    dsimp only [Option.map_some]
    split_ifs
    · rw [Table.get?_put, if_pos rfl]
    · exact hrow

end SqliteTaskActivities

/-- The SQLite registry keeps its promises. -/
def sqliteLaws : ActivityLaws sqliteRegistry where
  row s k := s.get? k
  empty _ := rfl
  get s k now := by
    have hrow := SqliteTaskActivities.get?_purge s now
    exact ⟨hrow k, hrow k, fun k' => (hrow k').symm ▸ faded_liveRow ..⟩
  list s room now k := (SqliteTaskActivities.get?_purge s now k).symm ▸ faded_liveRow ..
  register := SqliteTaskActivities.register_laws
  remove s k now := by
    refine ⟨?_, fun k' hk => .inl ?_⟩
    · exact (Table.get?_erase s k k).trans (if_pos rfl)
    · exact (Table.get?_erase s k k').trans (if_neg hk)
  delivered s k deliveryId now := by
    have hself := SqliteTaskActivities.delivered_self s k deliveryId now
    refine ⟨fun old hold => ?_, fun hnone => .inl ?_, fun k' hk => .inl ?_⟩
    · obtain ⟨hrow, hlive⟩ := Option.filter_eq_some_iff.1 hold
      refine hself.trans ?_
      rw [hrow, Option.map_some, if_pos hlive]
    · refine hself.trans ?_
      cases hrow : s.get? k with
      | none => rfl
      | some row =>
        rw [liveRow, hrow] at hnone
        have hlive : ¬row.live now = true := by
          intro hlive
          rw [Option.filter_some, if_pos hlive] at hnone
          cases hnone
        rw [Option.map_some, if_neg hlive]
    · exact SqliteTaskActivities.delivered_other s deliveryId now hk

/-! ### Worker -/

namespace WorkerTaskActivities

/-- The row of an activity. -/
def row (s : WorkerTaskActivities) (k : ActivityKey) : Option ActivityRow :=
  find ((s.get? k.room).getD []) k.activityId

theorem row_change {α : Type} (s : WorkerTaskActivities) (room : Str) (now : ℤ)
    (update : List ActivityRow → α × List ActivityRow) (k : ActivityKey) :
    row (s.change room now update).2 k =
      if k.room = room then find (update (((s.get? room).getD []).filter (·.live now))).2 k.activityId
      else row s k := by
  unfold change row
  dsimp only
  split_ifs with hempty hroom hroom
  · rw [Table.get?_erase, if_pos hroom, hempty]
    rfl
  · rw [Table.get?_erase, if_neg hroom]
  · rw [Table.get?_put, if_pos hroom, Option.getD_some]
  · rw [Table.get?_put, if_neg hroom]

theorem find_filter {rows : List ActivityRow} (h : (ids rows).Nodup) (now : ℤ) (id : Str) :
    find (rows.filter (·.live now)) id = liveRow now (find rows id) := by
  induction rows with
  | nil => rfl
  | cons first rest ih =>
    rw [ids, List.map_cons, List.nodup_cons] at h
    have hrest := ih h.2
    unfold find at hrest ⊢
    by_cases hid : first.record.activityId = id
    · have hnone : rest.find? (fun row => row.record.activityId = id) = none :=
        find_none.2 (hid ▸ h.1)
      rw [List.find?_cons_of_pos (by simpa using hid), liveRow]
      by_cases hlive : first.live now = true
      · rw [List.filter_cons_of_pos hlive, List.find?_cons_of_pos (by simpa using hid),
          Option.filter_some, if_pos hlive]
      · rw [List.filter_cons_of_neg hlive, hrest, hnone, Option.filter_some, if_neg hlive]
        rfl
    · rw [List.find?_cons_of_neg (by simpa using hid), ← hrest]
      by_cases hlive : first.live now = true
      · rw [List.filter_cons_of_pos hlive, List.find?_cons_of_neg (by simpa using hid)]
      · rw [List.filter_cons_of_neg hlive]

theorem find_splice {rows : List ActivityRow} {id : Str} {old new : ActivityRow}
    (hold : find rows id = some old) (hnew : new.record.activityId = id) (id' : Str) :
    find (splice rows id [new]) id' = if id' = id then some new else find rows id' := by
  induction rows with
  | nil => cases hold
  | cons first rest ih =>
    unfold splice
    unfold find at hold ih ⊢
    by_cases hfirst : first.record.activityId = id
    · rw [if_pos hfirst, List.singleton_append]
      by_cases hid : id' = id
      · rw [if_pos hid, List.find?_cons_of_pos (by simp [hnew, hid])]
      · rw [if_neg hid, List.find?_cons_of_neg (by simp [hnew, Ne.symm hid]),
          List.find?_cons_of_neg (by simp [hfirst, Ne.symm hid])]
    · rw [if_neg hfirst]
      rw [List.find?_cons_of_neg (by simpa using hfirst)] at hold
      by_cases hid : first.record.activityId = id'
      · rw [List.find?_cons_of_pos (by simpa using hid), List.find?_cons_of_pos (by simpa using hid),
          if_neg (hid ▸ hfirst)]
      · rw [List.find?_cons_of_neg (by simpa using hid), List.find?_cons_of_neg (by simpa using hid)]
        exact ih hold

theorem find_splice_nil {rows : List ActivityRow} (h : (ids rows).Nodup) (id id' : Str) :
    find (splice rows id []) id' = if id' = id then none else find rows id' := by
  induction rows with
  | nil => simp [find, splice]
  | cons first rest ih =>
    rw [ids, List.map_cons, List.nodup_cons] at h
    unfold splice
    by_cases hfirst : first.record.activityId = id
    · rw [if_pos hfirst, List.nil_append]
      split_ifs with hid
      · rw [hid, find_none, ← hfirst]
        exact h.1
      · unfold find
        rw [List.find?_cons_of_neg (by simp [hfirst, Ne.symm hid])]
    · rw [if_neg hfirst]
      have hrest := ih h.2
      unfold find at hrest ⊢
      by_cases hid : first.record.activityId = id'
      · rw [List.find?_cons_of_pos (by simpa using hid), List.find?_cons_of_pos (by simpa using hid),
          if_neg (hid ▸ hfirst)]
      · rw [List.find?_cons_of_neg (by simpa using hid), List.find?_cons_of_neg (by simpa using hid)]
        exact hrest

end WorkerTaskActivities

namespace WorkerActivities

open WorkerTaskActivities

variable (s : WorkerActivities) (now : ℤ)

theorem nodup_rows (room : Str) : (ids ((s.1.get? room).getD [])).Nodup := by
  cases hrows : s.1.get? room with
  | none => exact List.nodup_nil
  | some rows => exact s.2 room rows hrows

theorem nodup_live (room : Str) : (ids (((s.1.get? room).getD []).filter (·.live now))).Nodup :=
  List.Nodup.sublist (List.filter_sublist.map _) (s.nodup_rows room)

/-- The live row that an update finds. -/
theorem find_live (k : ActivityKey) :
    find (((s.1.get? k.room).getD []).filter (·.live now)) k.activityId =
      liveRow now (s.1.row k) := find_filter (s.nodup_rows k.room) now k.activityId

/-- An update that leaves an activity ages it at most. -/
theorem faded_change {α : Type} (room : Str) (update : List ActivityRow → α × List ActivityRow)
    (k : ActivityKey) (hupdate : k.room = room →
      find (update (((s.1.get? room).getD []).filter (·.live now))).2 k.activityId =
        find (((s.1.get? room).getD []).filter (·.live now)) k.activityId) :
    Faded now (s.1.row k) ((s.1.change room now update).2.row k) := by
  rw [row_change]
  split_ifs with hroom
  · rw [hupdate hroom, ← hroom, find_live]
    exact faded_liveRow ..
  · exact .refl ..

theorem register_laws (room : Str) (body : Value) :
    (∃ record, activityRegistration? body now = some record ∧ (s.1.register room body now).1 = true ∧
      (s.1.register room body now).2.row ⟨room, record.activityId⟩ =
        some (.renew (liveRow now (s.1.row ⟨room, record.activityId⟩)) record) ∧
      ∀ k, k ≠ ⟨room, record.activityId⟩ →
        Faded now (s.1.row k) ((s.1.register room body now).2.row k)) ∨
    (s.1.register room body now).1 = false ∧
      ∀ k, Faded now (s.1.row k) ((s.1.register room body now).2.row k) := by
  have hlive := s.find_live now
  unfold WorkerTaskActivities.register
  cases hrecord : activityRegistration? body now with
  | none => exact .inr ⟨rfl, fun k => .refl ..⟩
  | some record =>
    have hkey := hlive ⟨room, record.activityId⟩
    dsimp only at hkey ⊢
    cases hfind : find (((s.1.get? room).getD []).filter (·.live now)) record.activityId with
    | some existing =>
      rw [hfind] at hkey
      refine .inl ⟨record, rfl, ?_, ?_, fun k hk => ?_⟩
      · unfold change
        dsimp only
        rw [hfind]
      · rw [row_change, if_pos rfl, hfind, ← hkey]
        exact (find_splice hfind rfl _).trans (if_pos rfl)
      · refine s.faded_change now room _ k fun hroom => ?_
        rw [hfind]
        refine (find_splice hfind rfl _).trans (if_neg fun hid => hk ?_)
        rw [← hroom, ← hid]
    | none =>
      rw [hfind] at hkey
      by_cases hfull : ACTIVITY_LIMIT ≤ (((s.1.get? room).getD []).filter (·.live now)).length
      · refine .inr ⟨?_, fun k => s.faded_change now room _ k fun _ => ?_⟩
        · unfold change
          dsimp only
          rw [hfind]
          dsimp only
          rw [if_pos hfull]
        · rw [hfind]
          dsimp only
          rw [if_pos hfull]
      · have happend (id : Str) : find ((((s.1.get? room).getD []).filter (·.live now)) ++
            [.renew none record]) id = if id = record.activityId then some (.renew none record)
              else find (((s.1.get? room).getD []).filter (·.live now)) id := by
          unfold find at hfind ⊢
          rw [List.find?_append]
          split_ifs with hid
          · rw [hid, hfind, List.find?_cons_of_pos (by simp [ActivityRow.renew])]
            rfl
          · rw [List.find?_cons_of_neg (by simp [ActivityRow.renew, Ne.symm hid]), List.find?_nil,
              Option.or_none]
        refine .inl ⟨record, rfl, ?_, ?_, fun k hk => ?_⟩
        · unfold change
          dsimp only
          rw [hfind]
          dsimp only
          rw [if_neg hfull]
        · rw [row_change, if_pos rfl, hfind]
          dsimp only
          rw [if_neg hfull, happend, if_pos rfl, ← hkey]
        · refine s.faded_change now room _ k fun hroom => ?_
          rw [hfind]
          dsimp only
          rw [if_neg hfull, happend, if_neg fun hid => hk ?_]
          rw [← hroom, ← hid]

theorem remove_laws (k : ActivityKey) : (s.1.remove k now).row k = none ∧
    ∀ k', k' ≠ k → Faded now (s.1.row k') ((s.1.remove k now).row k') := by
  have hsplice := find_splice_nil (s.nodup_live now k.room) k.activityId
  refine ⟨?_, fun k' hk => s.faded_change now k.room _ k' fun hroom => ?_⟩
  · exact (row_change ..).trans ((if_pos rfl).trans ((hsplice _).trans (if_pos rfl)))
  · refine (hsplice _).trans (if_neg fun hid => hk ?_)
    cases k
    cases k'
    simp_all

theorem delivered_laws (k : ActivityKey) (deliveryId : Str) :
    (∀ old, liveRow now (s.1.row k) = some old →
      (s.1.delivered k deliveryId now).row k = some (old.mark deliveryId now)) ∧
    (liveRow now (s.1.row k) = none →
      Faded now (s.1.row k) ((s.1.delivered k deliveryId now).row k)) ∧
    ∀ k', k' ≠ k → Faded now (s.1.row k') ((s.1.delivered k deliveryId now).row k') := by
  have hlive := s.find_live now k
  refine ⟨fun old hold => ?_, fun hnone => ?_, fun k' hk => ?_⟩
  · rw [hold] at hlive
    refine (row_change ..).trans ((if_pos rfl).trans ?_)
    dsimp only
    rw [hlive]
    have hid : (old.mark deliveryId now).record.activityId = k.activityId := by
      have hfound := find_some hlive
      exact hfound
    exact (find_splice hlive hid _).trans (if_pos rfl)
  · rw [hnone] at hlive
    refine s.faded_change now k.room _ k fun _ => ?_
    dsimp only
    rw [hlive]
    exact hlive
  · refine s.faded_change now k.room _ k' fun hroom => ?_
    dsimp only
    cases hfind : find (((s.1.get? k.room).getD []).filter (·.live now)) k.activityId with
    | none => rfl
    | some old =>
      have hid : (old.mark deliveryId now).record.activityId = k.activityId := by
        have hfound := find_some hfind
        exact hfound
      refine (find_splice hfind hid _).trans (if_neg fun he => hk ?_)
      cases k
      cases k'
      simp_all

end WorkerActivities

/-- The Worker registry keeps its promises. -/
def workerLaws : ActivityLaws workerRegistry where
  row s k := s.1.row k
  empty _ := rfl
  get s k now := by
    have hlive := s.find_live now k
    refine ⟨hlive, ?_, fun k' => s.faded_change now k.room _ k' fun _ => rfl⟩
    exact (WorkerTaskActivities.row_change ..).trans ((if_pos rfl).trans hlive)
  list s room now k := s.faded_change now room _ k fun _ => rfl
  register s room body now := s.register_laws now room body
  remove s k now := s.remove_laws now k
  delivered s k deliveryId now := s.delivered_laws now k deliveryId

end GrantTap
