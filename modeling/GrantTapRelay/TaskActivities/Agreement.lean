import GrantTapRelay.Library.Expiring
import GrantTapRelay.TaskActivities.Serialized

/-!
# The two activity registries agree

What the endpoint learns from a registry is what a map from activities to rows tells it (`Answers`):
a room has `ACTIVITY_LIMIT` places, a row is there until it expires, and a registration in the place
of another keeps the last delivery. `CountedLaws` adds to what a registry promises of single rows
when it takes a registration and what it lists. Both registries keep it, although one counts rows of
a table and the other the members of a list.

* `Answers.same`: the map determines an answer, but for the order of a listing.
* `CountedLaws.Holds.answers`: a registry answers as the map does.
* `registries_agree`: **in every run** the two registries answer alike, and list no more than
  `ACTIVITY_LIMIT` activities of a room.
-/

namespace GrantTap

open Js Expiring

/-! ## The map -/

def ActivityRow.expiresAt (row : ActivityRow) : ℤ := row.record.expiresAt

abbrev ActivityMap := ActivityKey → Option ActivityRow

/-- What the endpoint asks of a registry. -/
inductive RegistryCall
  | register (room : Str) (body : Value)
  | list (room : Str)
  | get (k : ActivityKey)
  | remove (k : ActivityKey)
  | delivered (k : ActivityKey) (deliveryId : Str)

inductive RegistryAnswer
  | registered (ok : Bool)
  | listed (subscriptions : List Subscription)
  | found (row : Option ActivityRow)
  | done

/-- The answers are the same, but for the order of a listing. -/
inductive RegistryAnswer.Same : RegistryAnswer → RegistryAnswer → Prop
  | refl (a : RegistryAnswer) : Same a a
  | listed (l l' : List Subscription) (h : l.Perm l') : Same (.listed l) (.listed l')

/-- There is a place for an activity. -/
def ActivityPlace (now : ℤ) (m : ActivityMap) (k : ActivityKey) : Prop :=
  HasRoom ActivityRow.expiresAt ActivityKey.room ACTIVITY_LIMIT now m k

/-- The answer of a map at `now`, and the map afterwards. -/
inductive Answers (now : ℤ) (m : ActivityMap) : RegistryCall → RegistryAnswer → ActivityMap → Prop
  | refused (room : Str) (body : Value) (hbody : activityRegistration? body now = none) :
    Answers now m (.register room body) (.registered false) m
  | full (room : Str) (body : Value) (record : ActivityRecord)
      (hbody : activityRegistration? body now = some record)
      (hplace : ¬ActivityPlace now m ⟨room, record.activityId⟩) :
    Answers now m (.register room body) (.registered false) m
  | registered (room : Str) (body : Value) (record : ActivityRecord)
      (hbody : activityRegistration? body now = some record)
      (hplace : ActivityPlace now m ⟨room, record.activityId⟩) :
    Answers now m (.register room body) (.registered true)
      (Function.update m ⟨room, record.activityId⟩
        (some (.renew (liveRow now (m ⟨room, record.activityId⟩)) record)))
  | listed (room : Str) (subscriptions : List Subscription)
      (hnodup : (subscriptions.map (·.activityId)).Nodup)
      (hmem : ∀ sub, sub ∈ subscriptions ↔
        ∃ id row, liveRow now (m ⟨room, id⟩) = some row ∧ row.subscription = sub)
      (hlength : subscriptions.length =
        occupied ActivityRow.expiresAt ActivityKey.room now m room) :
    Answers now m (.list room) (.listed subscriptions) m
  | found (k : ActivityKey) : Answers now m (.get k) (.found (liveRow now (m k))) m
  | removed (k : ActivityKey) : Answers now m (.remove k) .done (Function.update m k none)
  | delivered (k : ActivityKey) (deliveryId : Str) :
    Answers now m (.delivered k deliveryId) .done
      (Function.update m k ((liveRow now (m k)).map fun row => row.mark deliveryId now))

/-- **The map determines** its answer. -/
theorem Answers.same {now : ℤ} {m m₁ m₂ : ActivityMap} {op : RegistryCall} {a b : RegistryAnswer}
    (ha : Answers now m op a m₁) (hb : Answers now m op b m₂) : a.Same b ∧ m₁ = m₂ := by
  cases ha with
  | refused room body hbody =>
    cases hb with
    | refused => exact ⟨.refl _, rfl⟩
    | full _ _ record hbody' => exact absurd (hbody.symm.trans hbody') (by simp)
    | registered _ _ record hbody' => exact absurd (hbody.symm.trans hbody') (by simp)
  | full room body record hbody hplace =>
    cases hb with
    | refused _ _ hbody' => exact absurd (hbody.symm.trans hbody') (by simp)
    | full => exact ⟨.refl _, rfl⟩
    | registered _ _ record' hbody' hplace' =>
      cases hbody.symm.trans hbody'
      exact absurd hplace' hplace
  | registered room body record hbody hplace =>
    cases hb with
    | refused _ _ hbody' => exact absurd (hbody.symm.trans hbody') (by simp)
    | full _ _ record' hbody' hplace' =>
      cases hbody.symm.trans hbody'
      exact absurd hplace hplace'
    | registered _ _ record' hbody' =>
      cases hbody.symm.trans hbody'
      exact ⟨.refl _, rfl⟩
  | listed room subscriptions hnodup hmem =>
    cases hb with
    | listed _ subscriptions' hnodup' hmem' =>
      refine ⟨.listed _ _ ((List.perm_ext_iff_of_nodup ?_ ?_).2 fun sub => ?_), rfl⟩
      · exact hnodup.of_map _
      · exact hnodup'.of_map _
      · rw [hmem, hmem']
  | found k => cases hb with | found => exact ⟨.refl _, rfl⟩
  | removed k => cases hb with | removed => exact ⟨.refl _, rfl⟩
  | delivered k deliveryId => cases hb with | delivered => exact ⟨.refl _, rfl⟩

/-! ## A registry that counts -/

/-- The answer of a registry. -/
def ActivityRegistry.answer {σ : Type} (R : ActivityRegistry σ) (s : σ) (now : ℤ) :
    RegistryCall → RegistryAnswer × σ
  | .register room body =>
    let r := R.register s room body now
    (.registered r.1, r.2)
  | .list room =>
    let r := R.list s room now
    (.listed r.1, r.2)
  | .get k =>
    let r := R.get s k now
    (.found r.1, r.2)
  | .remove k => (.done, R.remove s k now)
  | .delivered k deliveryId => (.done, R.delivered s k deliveryId now)

/-- What a registry promises of the rows of a room, in the states that `Sound` describes. -/
structure CountedLaws {σ : Type} (R : ActivityRegistry σ) extends ActivityLaws R where
  Sound : σ → Prop
  sound_empty : Sound R.empty
  sound_answer : ∀ s now op, Sound s → Sound (R.answer s now op).2
  place : ∀ s room body now record, Sound s → activityRegistration? body now = some record →
    ((R.register s room body now).1 = true ↔
      ActivityPlace now (row s) ⟨room, record.activityId⟩)
  nodup_list : ∀ s room now, Sound s → ((R.list s room now).1.map (·.activityId)).Nodup
  mem_list : ∀ s room now sub, sub ∈ (R.list s room now).1 ↔
    ∃ id row', liveRow now (row s ⟨room, id⟩) = some row' ∧ row'.subscription = sub
  length_list : ∀ s room now, (R.list s room now).1.length =
    occupied ActivityRow.expiresAt ActivityKey.room now (row s) room

theorem live_eq_liveRow (now : ℤ) (m : ActivityMap) (k : ActivityKey) :
    live ActivityRow.expiresAt now m k = liveRow now (m k) := by
  unfold live liveRow
  rfl

/-- A row that faded at most is alike. -/
theorem Faded.liveRow_eq {now : ℤ} {row row' : Option ActivityRow} (h : Faded now row row') :
    liveRow now row' = liveRow now row := by
  rcases h with rfl | ⟨rfl, old, rfl, hold⟩
  · rfl
  · rw [liveRow, liveRow, Option.filter_some, if_neg (by simp [hold])]
    rfl

theorem alike_of_liveRow {now : ℤ} {m m' : ActivityMap}
    (h : ∀ k, liveRow now (m k) = liveRow now (m' k)) : Alike ActivityRow.expiresAt now m m' :=
  .of_live fun k => by rw [live_eq_liveRow, live_eq_liveRow, h]

theorem liveRow_of_alike {now : ℤ} {m m' : ActivityMap} (h : Alike ActivityRow.expiresAt now m m')
    (k : ActivityKey) : liveRow now (m k) = liveRow now (m' k) := by
  rw [← live_eq_liveRow, ← live_eq_liveRow, h.live_eq]

namespace CountedLaws

variable {σ : Type} {R : ActivityRegistry σ} (L : CountedLaws R) {now now' : ℤ} {s : σ}
  {m : ActivityMap}

/-- The registry holds what the map does. -/
structure Holds (now : ℤ) (s : σ) (m : ActivityMap) : Prop where
  sound : L.Sound s
  alike : Alike ActivityRow.expiresAt now (L.row s) m

variable {L}

theorem Holds.later (h : L.Holds now s m) (hle : now ≤ now') : L.Holds now' s m :=
  ⟨h.sound, h.alike.later hle⟩

/-- One row is written, and the others fade at most. -/
theorem alike_update {s' : σ} {k : ActivityKey} {entry : Option ActivityRow}
    (h : Alike ActivityRow.expiresAt now (L.row s) m)
    (hself : liveRow now (L.row s' k) = liveRow now entry)
    (hother : ∀ k', k' ≠ k → Faded now (L.row s k') (L.row s' k')) :
    Alike ActivityRow.expiresAt now (L.row s') (Function.update m k entry) := by
  refine alike_of_liveRow fun k' => ?_
  by_cases hk : k' = k
  · rw [hk, Function.update_self, hself]
  · rw [Function.update_of_ne hk, (hother k' hk).liveRow_eq, liveRow_of_alike h]

/-- **A registry answers** as the map does. -/
theorem Holds.answers (h : L.Holds now s m) (op : RegistryCall) :
    ∃ m', Answers now m op (R.answer s now op).1 m' ∧ L.Holds now (R.answer s now op).2 m' := by
  have hsound := L.sound_answer s now op h.sound
  have hsame (k : ActivityKey) := liveRow_of_alike h.alike k
  have hfaded {s' : σ} (hall : ∀ k, Faded now (L.row s k) (L.row s' k)) :
      Alike ActivityRow.expiresAt now (L.row s') m :=
    alike_of_liveRow fun k => (hall k).liveRow_eq.trans (hsame k)
  cases op with
  | register room body =>
    have hregister := L.register s room body now
    unfold ActivityRegistry.answer at hsound ⊢
    dsimp only at hsound ⊢
    cases hbody : activityRegistration? body now with
    | none =>
      rcases hregister with ⟨record, hrecord, -⟩ | ⟨hfalse, hall⟩
      · cases hbody.symm.trans hrecord
      · rw [hfalse]
        exact ⟨m, .refused room body hbody, hsound, hfaded hall⟩
    | some record =>
      have hplace := L.place s room body now record h.sound hbody
      unfold ActivityPlace at hplace
      rw [h.alike.hasRoom] at hplace
      rcases hregister with ⟨record', hrecord, htrue, hself, hother⟩ | ⟨hfalse, hall⟩
      · cases hbody.symm.trans hrecord
        rw [htrue]
        refine ⟨_, .registered room body record hbody (hplace.1 htrue), hsound, ?_⟩
        refine alike_update h.alike ?_ hother
        rw [hself, hsame]
      · rw [hfalse]
        refine ⟨m, .full room body record hbody fun hroom => ?_, hsound, hfaded hall⟩
        exact absurd (hfalse.symm.trans (hplace.2 hroom)) (by decide)
  | list room =>
    refine ⟨m, .listed room _ (L.nodup_list s room now h.sound) (fun sub => ?_) ?_, hsound,
      hfaded (L.list s room now)⟩
    · rw [L.mem_list s room now sub]
      simp only [hsame]
    · rw [L.length_list, h.alike.occupied_eq]
  | get k =>
    obtain ⟨hfound, -, hall⟩ := L.get s k now
    unfold ActivityRegistry.answer at hsound ⊢
    dsimp only at hsound ⊢
    rw [hfound, hsame]
    exact ⟨m, .found k, hsound, hfaded hall⟩
  | remove k =>
    obtain ⟨hgone, hother⟩ := L.remove s k now
    refine ⟨_, .removed k, hsound, alike_update h.alike ?_ hother⟩
    exact congrArg (liveRow now) hgone
  | delivered k deliveryId =>
    obtain ⟨hsome, hnone, hother⟩ := L.delivered s k deliveryId now
    refine ⟨_, .delivered k deliveryId, hsound, alike_update h.alike ?_ hother⟩
    rw [← hsame]
    cases hrow : liveRow now (L.row s k) with
    | none => exact (hnone hrow).liveRow_eq.trans hrow
    | some old => exact congrArg (liveRow now) (hsome old hrow)

end CountedLaws

/-! ## SQLite -/

namespace SqliteTaskActivities

/-- Every row lies at the identity of its registration. -/
def Sound (s : SqliteTaskActivities) : Prop :=
  ∀ k row, s.get? k = some row → row.record.activityId = k.activityId

variable {s : SqliteTaskActivities} {room : Str} {now : ℤ}

theorem Sound.purge (h : s.Sound) (now : ℤ) : Sound (s.purge now) := by
  intro k row hrow
  rw [get?_purge] at hrow
  exact h k row (Option.filter_eq_some_iff.1 hrow).1

theorem Sound.put (h : s.Sound) {k : ActivityKey} {row : ActivityRow}
    (hrow : row.record.activityId = k.activityId) : Sound (s.put k row) := by
  intro k' row' hrow'
  rw [Table.get?_put] at hrow'
  split_ifs at hrow' with hk
  · cases hrow'
    rw [hk, hrow]
  · exact h k' row' hrow'

theorem Sound.answer (h : s.Sound) (now : ℤ) (op : RegistryCall) :
    Sound (sqliteRegistry.answer s now op).2 := by
  cases op with
  | register room body =>
    change Sound (s.register room body now).2
    unfold register
    split
    · exact h
    · dsimp only [get]
      split_ifs
      · exact (h.purge now).purge now
      · exact ((h.purge now).purge now).put rfl
  | list room => exact h.purge now
  | get k => exact h.purge now
  | remove k =>
    intro k' row hrow
    change (s.erase k).get? k' = some row at hrow
    rw [Table.get?_erase] at hrow
    split_ifs at hrow
    exact h k' row hrow
  | delivered k deliveryId =>
    change Sound (s.delivered k deliveryId now)
    unfold delivered
    split
    · exact h
    · rename_i row hrow
      split_ifs
      · exact h.put (h k row hrow)
      · exact h

theorem purge_purge (s : SqliteTaskActivities) (now : ℤ) :
    (s.purge now).purge now = s.purge now := by
  refine Table.ext_rows ?_
  change List.filter _ (List.filter _ s.rows) = List.filter _ s.rows
  rw [List.filter_filter]
  simp only [Bool.and_self]

/-- The rows that a purge leaves are those that have not expired. -/
theorem length_purge (s : SqliteTaskActivities) (room : Str) (now : ℤ) :
    ((s.purge now).rows.filter fun r => r.1.room = room).length =
      occupied ActivityRow.expiresAt ActivityKey.room now s.get? room := by
  rw [occupied_rows]
  unfold SqliteTaskActivities.purge Table.filter
  rw [List.filter_filter]
  refine congrArg List.length (List.filter_congr fun r _ => ?_)
  rw [Bool.eq_iff_iff]
  simp only [ActivityRow.live, ActivityRow.expiresAt, Bool.and_eq_true, decide_eq_true_eq]
  constructor
  · rintro ⟨hroom, hlive⟩
    exact ⟨hroom, decide_eq_true hlive⟩
  · rintro ⟨hroom, hlive⟩
    exact ⟨hroom, of_decide_eq_true hlive⟩

theorem register_iff {body : Value} {record : ActivityRecord}
    (hrecord : activityRegistration? body now = some record) :
    (s.register room body now).1 = true ↔ ActivityPlace now s.get? ⟨room, record.activityId⟩ := by
  unfold register
  rw [hrecord]
  dsimp only [get]
  rw [purge_purge, get?_purge, count, List.countP_eq_length_filter, length_purge]
  unfold ActivityPlace HasRoom
  rw [live_eq_liveRow]
  split_ifs with hfull
  · rw [Bool.and_eq_true, decide_eq_true_eq, Option.isNone_iff_eq_none] at hfull
    refine iff_of_false (by simp) ?_
    rintro (hthere | hfree)
    · rw [hfull.1] at hthere
      cases hthere
    · exact absurd hfull.2 (not_le.2 hfree)
  · refine iff_of_true rfl ?_
    rw [Bool.and_eq_true, decide_eq_true_eq, not_and, not_le] at hfull
    cases hrow : liveRow now (s.get? ⟨room, record.activityId⟩) with
    | some row => exact .inl rfl
    | none => exact .inr (hfull (by rw [hrow]; rfl))

theorem nodup_list (h : s.Sound) (room : Str) (now : ℤ) :
    ((s.list room now).1.map (·.activityId)).Nodup := by
  have hids : (s.list room now).1.map (·.activityId) =
      (((s.purge now).rows.filter fun r => r.1.room = room).map Prod.fst).map (·.activityId) := by
    unfold list
    rw [List.map_map, List.map_map]
    refine List.map_congr_left fun r hr => ?_
    exact h.purge now r.1 r.2 (Table.mem_rows.1 (List.mem_filter.1 hr).1)
  rw [hids]
  refine List.Nodup.map_on ?_ ((s.purge now).nodup.sublist (List.filter_sublist.map Prod.fst))
  have hroom : ∀ k ∈ ((s.purge now).rows.filter fun r => r.1.room = room).map Prod.fst,
      k.room = room := by
    intro k hk
    obtain ⟨r, hr, rfl⟩ := List.mem_map.1 hk
    exact of_decide_eq_true (List.mem_filter.1 hr).2
  rintro ⟨room₁, id₁⟩ hk₁ ⟨room₂, id₂⟩ hk₂ rfl
  rw [show room₁ = room from hroom _ hk₁, show room₂ = room from hroom _ hk₂]

theorem mem_list (sub : Subscription) : sub ∈ (s.list room now).1 ↔
    ∃ id row, liveRow now (s.get? ⟨room, id⟩) = some row ∧ row.subscription = sub := by
  unfold list
  dsimp only
  rw [List.mem_map]
  constructor
  · rintro ⟨⟨⟨room', id⟩, row⟩, hr, rfl⟩
    obtain ⟨hmem, hroom⟩ := List.mem_filter.1 hr
    obtain rfl : room' = room := of_decide_eq_true hroom
    rw [Table.mem_rows, get?_purge] at hmem
    exact ⟨id, row, hmem, rfl⟩
  · rintro ⟨id, row, hrow, rfl⟩
    refine ⟨(⟨room, id⟩, row), List.mem_filter.2 ⟨?_, decide_eq_true rfl⟩, rfl⟩
    rwa [Table.mem_rows, get?_purge]

/-- The SQLite registry counts the rows of a room. -/
def countedLaws : CountedLaws sqliteRegistry where
  toActivityLaws := sqliteLaws
  Sound := Sound
  sound_empty k row hrow := by cases hrow
  sound_answer s now op h := h.answer now op
  place s room body now record _ hrecord := register_iff hrecord
  nodup_list s room now h := nodup_list h room now
  mem_list s room now sub := mem_list sub
  length_list s room now := (List.length_map _).trans (length_purge s room now)

end SqliteTaskActivities

/-! ## Worker -/

namespace WorkerActivities

open WorkerTaskActivities

variable {s : WorkerActivities} {room : Str} {now : ℤ}

/-- The live rows of a room. -/
def liveRows (s : WorkerActivities) (room : Str) (now : ℤ) : List ActivityRow :=
  ((s.1.get? room).getD []).filter (·.live now)

theorem mem_liveRows (s : WorkerActivities) (room : Str) (now : ℤ) (row : ActivityRow) :
    row ∈ s.liveRows room now ↔ liveRow now (s.1.row ⟨room, row.record.activityId⟩) = some row := by
  rw [← s.find_live now ⟨room, row.record.activityId⟩]
  unfold liveRows
  have hnodup := s.nodup_live now room
  generalize ((s.1.get? room).getD []).filter (·.live now) = rows at hnodup ⊢
  dsimp only
  constructor
  · intro hmem
    cases hfind : find rows row.record.activityId with
    | none => exact absurd (List.mem_map_of_mem hmem) (find_none.1 hfind)
    | some found =>
      have hfound : found ∈ rows := List.mem_of_find?_eq_some hfind
      rw [List.inj_on_of_nodup_map hnodup hfound hmem (find_some hfind)]
  · exact fun hfind => List.mem_of_find?_eq_some hfind

theorem occupied_liveRows (s : WorkerActivities) (room : Str) (now : ℤ) :
    occupied ActivityRow.expiresAt ActivityKey.room now s.1.row room =
      (s.liveRows room now).length := by
  have hkeys : {k | k.room = room ∧ (live ActivityRow.expiresAt now s.1.row k).isSome} =
      (((s.liveRows room now).map fun row =>
        (⟨room, row.record.activityId⟩ : ActivityKey)).toFinset : Set ActivityKey) := by
    ext ⟨room', id⟩
    simp only [Set.mem_ofPred_eq, List.coe_toFinset, List.mem_map, ActivityKey.mk.injEq]
    constructor
    · rintro ⟨rfl, hsome⟩
      obtain ⟨row, hrow⟩ := Option.isSome_iff_exists.1 hsome
      rw [live_eq_liveRow] at hrow
      have hid : row.record.activityId = id := by
        rw [← s.find_live now ⟨room', id⟩] at hrow
        exact find_some hrow
      subst hid
      exact ⟨row, (s.mem_liveRows room' now row).2 hrow, rfl, rfl⟩
    · rintro ⟨row, hrow, rfl, rfl⟩
      refine ⟨rfl, ?_⟩
      rw [live_eq_liveRow, (s.mem_liveRows room now row).1 hrow]
      rfl
  have hnodup : ((s.liveRows room now).map fun row =>
      (⟨room, row.record.activityId⟩ : ActivityKey)).Nodup := by
    have hids := (s.nodup_live now room).map (f := fun id => (⟨room, id⟩ : ActivityKey))
      fun id id' h => (ActivityKey.mk.inj h).2
    rwa [ids, List.map_map] at hids
  unfold occupied
  rw [hkeys, Set.ncard_coe_finset, List.toFinset_card_of_nodup hnodup, List.length_map]

theorem register_iff {body : Value} {record : ActivityRecord}
    (hrecord : activityRegistration? body now = some record) :
    (s.1.register room body now).1 = true ↔
      ActivityPlace now s.1.row ⟨room, record.activityId⟩ := by
  have hfound := s.find_live now ⟨room, record.activityId⟩
  unfold ActivityPlace HasRoom
  rw [live_eq_liveRow, occupied_liveRows, ← hfound]
  unfold WorkerTaskActivities.register liveRows
  rw [hrecord]
  dsimp only [change]
  cases find (((s.1.get? room).getD []).filter (·.live now)) record.activityId with
  | some row => exact iff_of_true rfl (.inl rfl)
  | none =>
    dsimp only
    split_ifs with hfull
    · refine iff_of_false (by simp) ?_
      rintro (hthere | hfree)
      · cases hthere
      · exact absurd hfull (not_le.2 hfree)
    · exact iff_of_true rfl (.inr (not_le.1 hfull))

/-- The Worker registry counts the members of a list. -/
def countedLaws : CountedLaws workerRegistry where
  toActivityLaws := workerLaws
  Sound _ := True
  sound_empty := trivial
  sound_answer _ _ _ _ := trivial
  place s room body now record _ hrecord := register_iff hrecord
  nodup_list s room now _ := by
    change ((s.liveRows room now).map (·.subscription)).map (·.activityId) |>.Nodup
    rw [List.map_map]
    exact s.nodup_live now room
  mem_list s room now sub := by
    change sub ∈ (s.liveRows room now).map (·.subscription) ↔ _
    rw [List.mem_map]
    constructor
    · rintro ⟨row, hrow, rfl⟩
      exact ⟨row.record.activityId, row, (s.mem_liveRows room now row).1 hrow, rfl⟩
    · rintro ⟨id, row, hrow, rfl⟩
      change liveRow now (s.1.row ⟨room, id⟩) = some row at hrow
      have hid : row.record.activityId = id := by
        rw [← s.find_live now ⟨room, id⟩] at hrow
        exact find_some hrow
      subst hid
      exact ⟨row, (s.mem_liveRows room now row).2 hrow, rfl⟩
  length_list s room now := (List.length_map _).trans (s.occupied_liveRows room now).symm

end WorkerActivities

/-! ## Runs -/

/-- The answers of a registry to calls, and the state it reaches. -/
def ActivityRegistry.answers {σ : Type} (R : ActivityRegistry σ) (s : σ) :
    List (ℤ × RegistryCall) → List RegistryAnswer × σ
  | [] => ([], s)
  | (now, op) :: calls =>
    let r := R.answer s now op
    let rest := R.answers r.2 calls
    (r.1 :: rest.1, rest.2)

/-- The places of a room bound the map. -/
theorem Answers.within {now : ℤ} {m m' : ActivityMap} {op : RegistryCall} {a : RegistryAnswer}
    (h : Answers now m op a m')
    (hwithin : Within ActivityKey.room ACTIVITY_LIMIT now ActivityRow.expiresAt m) :
    Within ActivityKey.room ACTIVITY_LIMIT now ActivityRow.expiresAt m' := by
  cases h with
  | refused | full | listed | found => exact hwithin
  | registered room body record hbody hplace => exact hwithin.update hplace _
  | removed k =>
    refine hwithin.mono fun k' hk' => ?_
    rw [live_eq_liveRow] at hk' ⊢
    by_cases hk : k' = k
    · rw [hk, Function.update_self] at hk'
      cases hk'
    · rwa [Function.update_of_ne hk] at hk'
  | delivered k deliveryId =>
    refine hwithin.mono fun k' hk' => ?_
    rw [live_eq_liveRow] at hk' ⊢
    by_cases hk : k' = k
    · rw [hk, Function.update_self] at hk'
      rw [hk]
      cases hrow : liveRow now (m k) with
      | none => rw [hrow] at hk'; cases hk'
      | some row => rfl
    · rwa [Function.update_of_ne hk] at hk'

/-- No listing is longer than a room has places. -/
def RegistryAnswer.Bounded : RegistryAnswer → Prop
  | .listed subscriptions => subscriptions.length ≤ ACTIVITY_LIMIT
  | _ => True

theorem Answers.bounded {now : ℤ} {m m' : ActivityMap} {op : RegistryCall} {a : RegistryAnswer}
    (h : Answers now m op a m')
    (hwithin : Within ActivityKey.room ACTIVITY_LIMIT now ActivityRow.expiresAt m) :
    a.Bounded := by
  cases h with
  | listed room subscriptions _ _ hlength =>
    have hle := hwithin.le room
    rwa [← hlength] at hle
  | _ => trivial

/-- **Two registries that count** answer alike. -/
theorem CountedLaws.same_answers {σ τ : Type} {R : ActivityRegistry σ} {S : ActivityRegistry τ}
    (L : CountedLaws R) (M : CountedLaws S) (calls : List (ℤ × RegistryCall)) (now : ℤ) (s : σ)
    (t : τ) (m : ActivityMap) (hs : L.Holds now s m) (ht : M.Holds now t m)
    (hwithin : Within ActivityKey.room ACTIVITY_LIMIT now ActivityRow.expiresAt m)
    (hcalls : List.IsChain (· ≤ ·) (now :: calls.map Prod.fst)) :
    List.Forall₂ RegistryAnswer.Same (R.answers s calls).1 (S.answers t calls).1 ∧
      ∀ a ∈ (R.answers s calls).1, a.Bounded := by
  induction calls generalizing now s t m with
  | nil => exact ⟨.nil, fun a ha => absurd ha List.not_mem_nil⟩
  | cons call calls ih =>
    obtain ⟨later, op⟩ := call
    obtain ⟨hle, hcalls⟩ := List.isChain_cons_cons.1 hcalls
    have hwithin' : Within ActivityKey.room ACTIVITY_LIMIT later ActivityRow.expiresAt m := by
      refine hwithin.mono fun k hk => ?_
      obtain ⟨row, hrow⟩ := Option.isSome_iff_exists.1 hk
      obtain ⟨hrow, hlive⟩ := live_eq_some.1 hrow
      rw [live_eq_some.2 ⟨hrow, hle.trans_lt hlive⟩]
      rfl
    obtain ⟨m₁, ha, hs₁⟩ := (hs.later hle).answers op
    obtain ⟨m₂, hb, ht₂⟩ := (ht.later hle).answers op
    obtain ⟨hsame, rfl⟩ := ha.same hb
    obtain ⟨hrest, hbounded⟩ := ih later _ _ m₁ hs₁ ht₂ (ha.within hwithin') hcalls
    refine ⟨.cons hsame hrest, fun a ha' => ?_⟩
    rcases List.mem_cons.1 ha' with rfl | ha'
    · exact ha.bounded hwithin'
    · exact hbounded a ha'

/-- **The two activity registries agree.** Whatever the endpoint asks of the SQLite registry and of
the Worker registry, at times that do not go back, they answer the same, but for the order in which
they list activities; and they list no more than `ACTIVITY_LIMIT` activities of a room. -/
theorem registries_agree (calls : List (ℤ × RegistryCall))
    (hcalls : (calls.map Prod.fst).Pairwise (· ≤ ·)) :
    List.Forall₂ RegistryAnswer.Same (sqliteRegistry.answers sqliteRegistry.empty calls).1
        (workerRegistry.answers workerRegistry.empty calls).1 ∧
      ∀ a ∈ (sqliteRegistry.answers sqliteRegistry.empty calls).1, a.Bounded := by
  have hempty {σ : Type} {R : ActivityRegistry σ} (L : CountedLaws R) (now : ℤ) :
      L.Holds now R.empty fun _ => none :=
    ⟨L.sound_empty, alike_of_liveRow fun k => by rw [L.empty k]⟩
  have hwithin (now : ℤ) :
      Within ActivityKey.room ACTIVITY_LIMIT now ActivityRow.expiresAt fun _ => none := by
    have hnone (k : ActivityKey) : ¬(live ActivityRow.expiresAt now (fun _ => none) k).isSome := by
      simp [live]
    refine ⟨?_, fun room => ?_⟩
    · simp [hnone]
    · unfold occupied
      simp [hnone]
  cases calls with
  | nil => exact ⟨.nil, fun a ha => absurd ha List.not_mem_nil⟩
  | cons call calls =>
    exact SqliteTaskActivities.countedLaws.same_answers WorkerActivities.countedLaws _ call.1 _ _ _
      (hempty _ _) (hempty _ _) (hwithin _)
      (List.isChain_cons_cons.2 ⟨le_rfl, List.isChain_iff_pairwise.2 hcalls⟩)

section Sample

/-- An activity is delivered to, registered again, read and listed, and read when it has expired. -/
def sampleRegistryCalls : List (ℤ × RegistryCall) :=
  [(0, .register sampleActivityRoom sampleEnrollment), (5, .delivered sampleActivity (lit "first")),
    (6, .register sampleActivityRoom sampleEnrollment), (7, .get sampleActivity),
    (7, .list sampleActivityRoom), (28_800_000, .get sampleActivity)]

/-- The last deliveries of the rows that were read. -/
def readDeliveries (answers : List RegistryAnswer) : List (Option Str) :=
  answers.filterMap fun
    | .found row => some (row.bind (·.lastDeliveryId))
    | _ => none

theorem registries_agree_sample :
    readDeliveries (workerRegistry.answers workerRegistry.empty sampleRegistryCalls).1 =
        [some (lit "first"), none] ∧
      List.Forall₂ RegistryAnswer.Same
        (sqliteRegistry.answers sqliteRegistry.empty sampleRegistryCalls).1
        (workerRegistry.answers workerRegistry.empty sampleRegistryCalls).1 :=
  ⟨by decide +kernel, (registries_agree sampleRegistryCalls (by decide)).1⟩

end Sample

end GrantTap
