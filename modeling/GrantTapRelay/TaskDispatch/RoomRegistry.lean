import GrantTapRelay.Library.Expiring
import GrantTapRelay.TaskDispatch.Maintenance

/-!
# The grants, reports and configurations of a room

`Registry.ask` is one request to `TaskWriterGrants` or `TaskConfigurations`. It makes at most two
changes, to rows of its room (`Registry.ask_moves`). The adapters list 129 rows at most, which are
all rows of a room that is `Within` its limits, and the changes keep it so.

* `Registry.commitWriterNode_eq`: the adapters count the grants of a room in two ways, which agree.
* `Registry.dropRetired_all`, `Registry.get?_dropExpired`: what a commit deletes first.
* `Registry.Within.move`: **the limits of a room**.
-/

namespace GrantTap

open Js Expiring Loads

/-! ## The rows of a room -/

/-- Tables with the same rows of a kind in a room list them in the same order. -/
theorem roomRows_filter_congr {ν : Type} {t u : Table RoomKey ν} {room : Str} (p : ν → Bool)
    (h : ∀ id, (t.get? (room, id)).filter p = (u.get? (room, id)).filter p) :
    (roomRows t room).filter (fun r => p r.2) = (roomRows u room).filter fun r => p r.2 := by
  have hmem {t u : Table RoomKey ν}
      (h : ∀ id, (t.get? (room, id)).filter p = (u.get? (room, id)).filter p) (r : RoomKey × ν)
      (hr : r ∈ (roomRows t room).filter fun r => p r.2) :
      r ∈ (roomRows u room).filter fun r => p r.2 := by
    obtain ⟨⟨room', id⟩, row⟩ := r
    obtain ⟨hr, hp⟩ := List.mem_filter.1 hr
    obtain ⟨hget, hroom⟩ := mem_roomRows.1 hr
    dsimp only at hget hroom
    subst hroom
    have hkept := h id
    rw [hget, Option.filter_some, if_pos hp, eq_comm, Option.filter_eq_some_iff] at hkept
    exact List.mem_filter.2 ⟨mem_roomRows.2 ⟨hkept.1, rfl⟩, hp⟩
  have hnodup (t : Table RoomKey ν) : ((roomRows t room).filter fun r => p r.2).Nodup :=
    (WorkerTasks.nodup_roomRows t room).of_map.filter _
  have hsorted (t : Table RoomKey ν) : ((roomRows t room).filter fun r => p r.2).Pairwise
      fun a b => unitsLe a.1.2 b.1.2 = true := (sorted_roomRows t room).sublist List.filter_sublist
  refine List.Perm.eq_of_pairwise (fun a b ha hb hle hle' => ?_) (hsorted t) (hsorted u)
    ((List.perm_ext_iff_of_nodup (hnodup t) (hnodup u)).2 fun r =>
      ⟨hmem h r, hmem (fun id => (h id).symm) r⟩)
  -- rows at one id of one table are one row
  have ha := mem_roomRows.1 (List.mem_of_mem_filter (hmem h a ha))
  have hb := mem_roomRows.1 (List.mem_of_mem_filter hb)
  have hkey : a.1 = b.1 := Prod.ext (ha.2.trans hb.2.symm) (unitsLe_antisymm hle hle')
  have hrow := ha.1
  rw [hkey, hb.1] at hrow
  exact Prod.ext hkey (Option.some.inj hrow).symm

theorem roomRows_congr {ν : Type} {t u : Table RoomKey ν} {room : Str}
    (h : ∀ id, t.get? (room, id) = u.get? (room, id)) : roomRows t room = roomRows u room := by
  have hall : (roomRows t room).filter (fun _ => true) = (roomRows u room).filter fun _ => true :=
    roomRows_filter_congr (fun _ => true) fun id => by rw [h id]
  rwa [List.filter_true, List.filter_true] at hall

section Counts

variable {ν : Type} {w : ν → ℕ} {t : Table RoomKey ν} {room : Str} {n : ℕ}

theorem roomRows_filter (t : Table RoomKey ν) (room : Str) (p : ν → Bool) :
    roomRows (t.filter fun _ row => p row) room = (roomRows t room).filter fun r => p r.2 := by
  have hcongr : (roomRows (t.filter fun _ row => p row) room).filter (fun r => p r.2) =
      (roomRows t room).filter fun r => p r.2 := by
    refine roomRows_filter_congr p fun id => ?_
    rw [Table.get?_filter]
    cases t.get? (room, id) with
    | none => rfl
    | some row => by_cases hp : p row <;> simp [Option.filter_some, hp]
  rw [← hcongr, eq_comm, List.filter_eq_self]
  intro r hr
  have hget := (mem_roomRows.1 hr).1
  rw [Table.get?_filter, Option.filter_eq_some_iff] at hget
  exact hget.2

/-- The rows of a kind bound it. -/
theorem bounded_filter (w : ν → ℕ) (t : Table RoomKey ν) (room : Str) (p : ν → Bool) :
    Bounded w (fun id => (t.get? (room, id)).filter p)
      (((roomRows t room).filter fun r => p r.2).map fun r => w r.2).sum := by
  have hrows := bounded_roomRows w (t.filter fun _ row => p row) room
  rw [roomRows_filter] at hrows
  refine hrows.mono fun id => ?_
  rw [Table.get?_filter]

/-- What a room has at its ids, in a list of its rows. -/
theorem sum_roomRows_le (h : Bounded w (fun id => t.get? (room, id)) n)
    {l : List (RoomKey × ν)} (hl : l.Sublist (roomRows t room)) :
    (l.map fun r => w r.2).sum ≤ n := by
  have hnodup : (l.map fun r => r.1.2).Nodup := by
    have hkeys := (WorkerTasks.nodup_roomRows t room).sublist (hl.map Prod.fst)
    have hpair : l.map Prod.fst = (l.map fun r => r.1.2).map fun id => (room, id) := by
      rw [List.map_map]
      exact List.map_congr_left fun r hr => Prod.ext (mem_roomRows.1 (hl.subset hr)).2 rfl
    rw [hpair] at hkeys
    exact hkeys.of_map
  have hids := h (l.map fun r => r.1.2).toFinset
  rw [List.sum_toFinset _ hnodup, List.map_map] at hids
  refine le_trans (le_of_eq (congrArg List.sum (List.map_congr_left fun r hr => ?_))) hids
  obtain ⟨hget, hroom⟩ := mem_roomRows.1 (hl.subset hr)
  have hkey : r.1 = (room, r.1.2) := Prod.ext hroom rfl
  rw [hkey] at hget
  rw [Function.comp_apply]
  dsimp only
  rw [hget, weight_some]

theorem length_rows_le (h : Bounded (fun _ => 1) (fun id => t.get? (room, id)) n) :
    (roomRows t room).length ≤ n := by
  have hsum := sum_roomRows_le h (List.Sublist.refl _)
  simpa using hsum

end Counts

namespace Registry

variable {s s' t : Registry} {room room' id : Str} {now now' : ℤ}

/-- The grants of a room, at their ids. -/
def grantsOf (s : Registry) (room : Str) : Str → Option WriterGrant :=
  fun id => s.writers.get? (room, id)

/-- The resource reports of a room. -/
def reportsOf (s : Registry) (room : Str) : Str → Option ResourceReport :=
  fun id => s.resources.get? (room, id)

/-- The configurations of a room. -/
def configurationsOf (s : Registry) (room : Str) : Str → Option Configuration :=
  fun id => s.configurations.get? (room, id)

/-! ## Grants -/

/-- Whether a grant is still retained. -/
def retained (now : ℤ) (row : WriterGrant) : Bool := now < writerRetainedUntil row

theorem get?_dropRetired (l : List (RoomKey × WriterGrant)) (s : Registry) (k : RoomKey) :
    (s.dropRetired room l now).writers.get? k =
        (if ∃ r ∈ l, writerRetainedUntil r.2 ≤ now ∧ k = (room, r.2.id) then none
          else s.writers.get? k) ∧
      (s.dropRetired room l now).resources.get? k =
        if ∃ r ∈ l, writerRetainedUntil r.2 ≤ now ∧ k = (room, r.2.id) then none
          else s.resources.get? k := by
  induction l generalizing s with
  | nil => simp [dropRetired]
  | cons r l ih =>
    have hcons : s.dropRetired room (r :: l) now = Registry.dropRetired
        (if writerRetainedUntil r.2 ≤ now then s.deleteWriter (room, r.2.id) else s) room l now :=
      rfl
    rw [hcons, (ih _).1, (ih _).2]
    simp only [List.exists_mem_cons_iff]
    by_cases hold : writerRetainedUntil r.2 ≤ now
    · by_cases hk : k = (room, r.2.id)
      · simp only [hold, hk, deleteWriter, Table.get?_erase, and_self, true_or, if_true, ite_self]
      · simp only [hold, hk, deleteWriter, Table.get?_erase, and_false, false_or, if_true, if_false,
          and_self]
    · simp only [hold, false_and, false_or, if_false, and_self]

/-- Which keys a pass over the grants of a room deletes. -/
theorem exists_retired (s : Registry) (room : Str) (now : ℤ) (k : RoomKey) :
    (∃ r ∈ roomRows s.writers room, writerRetainedUntil r.2 ≤ now ∧ k = (room, r.2.id)) ↔
      k.1 = room ∧ ∃ row, s.grantsOf room k.2 = some row ∧ retained now row = false := by
  constructor
  · rintro ⟨r, hr, hold, rfl⟩
    obtain ⟨hget, hroom⟩ := mem_roomRows.1 hr
    refine ⟨rfl, r.2, ?_, by simpa [retained] using hold⟩
    have hkey : r.1 = (room, r.2.id) := Prod.ext hroom (s.named _ _ hget).symm
    rw [grantsOf, ← hkey]
    exact hget
  · obtain ⟨room', id⟩ := k
    rintro ⟨rfl, row, hrow, hold⟩
    refine ⟨((room', id), row), mem_roomRows.2 ⟨hrow, rfl⟩, by simpa [retained] using hold, ?_⟩
    rw [s.named _ _ hrow]

/-- The grants of the room that are retained, and the reports of grants that are not deleted. -/
theorem dropRetired_all (s : Registry) (room : Str) (now : ℤ) :
    (s.dropRetired room (roomRows s.writers room) now).grantsOf room =
        (fun id => (s.grantsOf room id).filter (retained now)) ∧
      (s.dropRetired room (roomRows s.writers room) now).reportsOf room = fun id =>
        if (s.grantsOf room id).any fun row => !retained now row then none
        else s.reportsOf room id := by
  have hgone (id : Str) : (∃ r ∈ roomRows s.writers room, writerRetainedUntil r.2 ≤ now ∧
      (room, id) = (room, r.2.id)) ↔ (s.grantsOf room id).any fun row => !retained now row := by
    rw [exists_retired]
    cases s.grantsOf room id <;> simp
  constructor
  · funext id
    rw [grantsOf, (get?_dropRetired _ s (room, id)).1, grantsOf.eq_1 s]
    simp only [hgone]
    rw [grantsOf]
    cases s.writers.get? (room, id) with
    | none => simp
    | some row => cases h : retained now row <;> simp [h, Option.filter_some]
  · funext id
    rw [reportsOf, (get?_dropRetired _ s (room, id)).2]
    simp only [hgone]
    rfl

theorem listWriters_eq (h : Bounded (fun _ => 1) (s.grantsOf room) 128) :
    s.listWriters room = roomRows s.writers room :=
  List.take_of_length_le ((length_rows_le h).trans (by decide))

/-- How many grants of a room are retained. -/
def retainedCount (s : Registry) (room : Str) (now : ℤ) : ℕ :=
  ((roomRows s.writers room).filter fun item => now < writerRetainedUntil item.2).length

/-- **The two ways of counting** the grants of a room agree. -/
theorem commitWriterNode_eq (h : Bounded (fun _ => 1) (s.grantsOf room) 128) (row : WriterGrant) :
    s.commitWriterNode room row now = s.commitWriterGrant room row now := by
  unfold commitWriterNode commitWriterGrant
  split
  · rfl
  · dsimp only
    rw [listWriters_eq h]
    have hrows : roomRows (s.dropRetired room (roomRows s.writers room) now).writers room =
        (roomRows s.writers room).filter fun item => now < writerRetainedUntil item.2 := by
      have hsame : (roomRows (s.dropRetired room (roomRows s.writers room) now).writers room).filter
          (fun item => retained now item.2) =
            (roomRows s.writers room).filter fun item => retained now item.2 := by
        refine roomRows_filter_congr (retained now) fun id => ?_
        have hid := congrFun (dropRetired_all s room now).1 id
        rw [grantsOf, grantsOf] at hid
        rw [hid, Option.filter_filter]
        simp
      rw [show (fun item : RoomKey × WriterGrant => decide (now < writerRetainedUntil item.2)) =
        fun item => retained now item.2 from rfl, ← hsame, eq_comm, List.filter_eq_self]
      intro r hr
      obtain ⟨hget, hroom⟩ := mem_roomRows.1 hr
      have hid := congrFun (dropRetired_all s room now).1 r.1.2
      have hkey : (room, r.1.2) = r.1 := Prod.ext hroom.symm rfl
      rw [grantsOf, hkey, hget, eq_comm, Option.filter_eq_some_iff] at hid
      exact hid.2
    have hlist : ((s.dropRetired room (roomRows s.writers room) now).listWriters room).length =
        ((roomRows s.writers room).filter fun item => now < writerRetainedUntil item.2).length := by
      rw [listWriters, hrows]
      refine congrArg List.length (List.take_of_length_le ?_)
      exact ((List.length_filter_le _ _).trans (length_rows_le h)).trans (by decide)
    rw [hlist]

/-! ## Configurations -/

/-- Whether a configuration has not expired. -/
def unexpired (now : ℤ) (row : Configuration) : Bool := now < row.expiresAt

theorem live_configurationsOf (s : Registry) (room : Str) (now : ℤ) (id : Str) :
    live Configuration.expiresAt now (s.configurationsOf room) id =
      (s.configurations.get? (room, id)).filter (unexpired now) := rfl

/-- The unexpired configurations of a room, in the order of their ids. -/
def activeConfigurations (s : Registry) (room : Str) (now : ℤ) : List Configuration :=
  ((roomRows s.configurations room).filter fun r => unexpired now r.2).map Prod.snd

theorem listConfigurations_eq (h : Bounded (fun _ => 1) (s.configurationsOf room) 128) :
    s.listConfigurations room = roomRows s.configurations room :=
  List.take_of_length_le ((length_rows_le h).trans (by decide))

/-- What the unexpired configurations weigh, in a list of them. -/
theorem sum_activeConfigurations_le {w : Configuration → ℕ} {n : ℕ}
    (h : Bounded w (live Configuration.expiresAt now (s.configurationsOf room)) n) :
    ((s.activeConfigurations room now).map w).sum ≤ n := by
  have hrows : Bounded w (fun id => (s.configurations.filter fun _ row =>
      unexpired now row).get? (room, id)) n := by
    refine h.mono fun id => ?_
    rw [Table.get?_filter]
    exact le_rfl
  have hsum := sum_roomRows_le hrows (List.Sublist.refl _)
  rw [roomRows_filter] at hsum
  rw [activeConfigurations, List.map_map]
  exact hsum

/-- Expired rows do not count. -/
theorem configurationCapacity_eq (s : Registry) (row : Configuration) :
    configurationCapacity ((roomRows s.configurations room).map Prod.snd) row now =
      configurationCapacity (s.activeConfigurations room now) row now := by
  have hactive : s.activeConfigurations room now =
      ((roomRows s.configurations room).map Prod.snd).filter fun row => now < row.expiresAt := by
    unfold activeConfigurations
    rw [List.filter_map]
    rfl
  unfold configurationCapacity
  rw [hactive, List.filter_filter]
  simp only [Bool.and_self]

/-- Deleting the expired rows of a room leaves those that have not expired. -/
theorem get?_dropExpired (hnamed : ∀ id row, s.configurationsOf room id = some row → row.id = id)
    (k : RoomKey) :
    ((roomRows s.configurations room).foldl (fun t old =>
      if old.2.expiresAt ≤ now then t.erase (room, old.2.id) else t) s.configurations).get? k =
        if k.1 = room then (s.configurations.get? k).filter (unexpired now)
        else s.configurations.get? k := by
  have hfold (l : List (RoomKey × Configuration)) (t : Table RoomKey Configuration) :
      (l.foldl (fun t old =>
        if old.2.expiresAt ≤ now then t.erase (room, old.2.id) else t) t).get? k =
        if ∃ r ∈ l, r.2.expiresAt ≤ now ∧ k = (room, r.2.id) then none else t.get? k := by
    induction l generalizing t with
    | nil => simp
    | cons r l ih =>
      rw [List.foldl_cons, ih]
      simp only [List.exists_mem_cons_iff]
      by_cases hold : r.2.expiresAt ≤ now
      · by_cases hk : k = (room, r.2.id)
        · simp only [hold, hk, Table.get?_erase, and_self, true_or, if_true, ite_self]
        · simp only [hold, hk, Table.get?_erase, and_false, false_or, if_true, if_false]
      · simp only [hold, false_and, false_or, if_false]
  rw [hfold]
  obtain ⟨room', id⟩ := k
  by_cases hroom : room' = room
  · subst hroom
    rw [if_pos rfl]
    have hgone : (∃ r ∈ roomRows s.configurations room', r.2.expiresAt ≤ now ∧
        (room', id) = (room', r.2.id)) ↔
          (s.configurations.get? (room', id)).any fun row => !unexpired now row := by
      constructor
      · rintro ⟨r, hr, hold, hid⟩
        obtain ⟨hget, hroom⟩ := mem_roomRows.1 hr
        have hkey : r.1 = (room', r.1.2) := Prod.ext hroom rfl
        rw [hkey] at hget
        have hname := hnamed _ _ hget
        rw [hid, hname, hget]
        simpa [unexpired] using hold
      · intro hold
        obtain ⟨row, hrow, hold⟩ := (Option.any_eq_true ..).1 hold
        refine ⟨((room', id), row), mem_roomRows.2 ⟨hrow, rfl⟩, by simpa [unexpired] using hold, ?_⟩
        rw [hnamed id row hrow]
    simp only [hgone]
    cases s.configurations.get? (room', id) with
    | none => simp
    | some row => cases h : unexpired now row <;> simp [h, Option.filter_some]
  · rw [if_neg hroom, if_neg]
    rintro ⟨r, -, -, hkey⟩
    exact hroom (congrArg Prod.fst hkey)

end Registry

/-! ## Requests -/

/-- A request to `TaskWriterGrants` or `TaskConfigurations`. -/
inductive RecordRequest
  | putWriter (id : Str) (body : Value)
  | revoke (id : Str)
  | authorize (credential : Option Str) (retainedRead : Bool)
  | resources (id : Str) (body : Option Json)
  | putConfiguration (id : Str) (body : Value)
  | getConfiguration (id : Str)

inductive RecordAnswer
  | reply (reply : Reply)
  | grant (grant : Option WriterGrant)
  | shown (configuration : Option VisibleConfiguration)

namespace Registry

variable {sha256 : Str → Str} {s s' t : Registry} {room room' id : Str} {now now' : ℤ}

/-- A request for a room, over an adapter's `commit`. -/
def ask (sha256 : Str → Str) (commit : Registry → Str → WriterGrant → ℤ → Reply × Registry)
    (s : Registry) (room : Str) (now : ℤ) : RecordRequest → Except Throw RecordAnswer × Registry
  | .putWriter id body =>
    let r := putWriter commit s room id body now
    (.ok (.reply r.1), r.2)
  | .revoke id =>
    let r := s.revoke room id now
    (.ok (.reply r.1), r.2)
  | .authorize credential retainedRead =>
    (.ok (.grant (s.authorize sha256 room credential now retainedRead)), s)
  | .resources id body =>
    match s.resourcesOf room id body now with
    | .error t => (.error t, s)
    | .ok r => (.ok (.reply r.1), r.2)
  | .putConfiguration id body =>
    match s.putConfiguration room id body now with
    | .error t => (.error t, s)
    | .ok r => (.ok (.reply r.1), r.2)
  | .getConfiguration id =>
    let r := s.getConfiguration room id now
    (.ok (.shown r.1), r.2)

/-! ### What a room has -/

/-- The registries show the same of a room from a time on. -/
structure Alike (now : ℤ) (room : Str) (s t : Registry) : Prop where
  grants : s.grantsOf room = t.grantsOf room
  reports : s.reportsOf room = t.reportsOf room
  configurations : Expiring.Alike Configuration.expiresAt now (s.configurationsOf room)
    (t.configurationsOf room)

/-- The room is within its limits. -/
structure Within (now : ℤ) (room : Str) (s : Registry) : Prop where
  grants : Bounded (fun _ => 1) (s.grantsOf room) 128
  configurations : Bounded (fun _ => 1) (s.configurationsOf room) 128
  bytes : Bounded Configuration.bytes
    (live Configuration.expiresAt now (s.configurationsOf room)) 8000000
  named : ∀ id row, s.configurationsOf room id = some row → row.id = id

/-- Nothing of the room changed. -/
def Same (room : Str) (s s' : Registry) : Prop :=
  s'.grantsOf room = s.grantsOf room ∧ s'.reportsOf room = s.reportsOf room ∧
    s'.configurationsOf room = s.configurationsOf room

theorem Same.refl (room : Str) (s : Registry) : Same room s s := ⟨rfl, rfl, rfl⟩

theorem Same.trans {s'' : Registry} (h : Same room s s') (h' : Same room s' s'') :
    Same room s s'' :=
  ⟨h'.1.trans h.1, h'.2.1.trans h.2.1, h'.2.2.trans h.2.2⟩

theorem Alike.later (h : Alike now room s t) (hle : now ≤ now') : Alike now' room s t :=
  { h with configurations := h.configurations.later hle }

theorem Alike.same {t' : Registry} (h : Alike now room s t) (hs : Same room s s')
    (ht : Same room t t') : Alike now room s' t' where
  grants := hs.1.trans (h.grants.trans ht.1.symm)
  reports := hs.2.1.trans (h.reports.trans ht.2.1.symm)
  configurations := by
    rw [hs.2.2, ht.2.2]
    exact h.configurations

theorem Within.later (h : Within now room s) (hle : now ≤ now') : Within now' room s where
  grants := h.grants
  configurations := h.configurations
  bytes := by
    refine h.bytes.mono fun id => ?_
    unfold live
    cases s.configurationsOf room id with
    | none => simp
    | some row =>
      by_cases hlater : now' < row.expiresAt
      · simp [Option.filter_some, hlater, hle.trans_lt hlater]
      · simp [Option.filter_some, hlater]
  named := h.named

theorem Within.same (h : Within now room s) (hs : Same room s s') : Within now room s' where
  grants := hs.1 ▸ h.grants
  configurations := hs.2.2 ▸ h.configurations
  bytes := hs.2.2 ▸ h.bytes
  named := hs.2.2 ▸ h.named

theorem retainedCount_congr (h : s.grantsOf room = t.grantsOf room) :
    s.retainedCount room now = t.retainedCount room now := by
  unfold retainedCount
  rw [roomRows_congr fun id => congrFun h id]

theorem activeConfigurations_congr (h : Alike now room s t) :
    s.activeConfigurations room now = t.activeConfigurations room now := by
  unfold activeConfigurations
  rw [roomRows_filter_congr (unexpired now) fun id => h.configurations.live_eq id]

/-! ### Writing grants -/

/-- The registry without the grants of a room that are not retained. -/
def dropped (s : Registry) (room : Str) (now : ℤ) : Registry :=
  s.dropRetired room (roomRows s.writers room) now

theorem dropped_elsewhere (s : Registry) (hroom : room' ≠ room) :
    Same room' s (s.dropped room now) := by
  have hkeep (id : Str) : ¬∃ r ∈ roomRows s.writers room, writerRetainedUntil r.2 ≤ now ∧
      (room', id) = (room, r.2.id) := by
    rintro ⟨r, -, -, hkey⟩
    exact hroom (congrArg Prod.fst hkey)
  refine ⟨funext fun id => ?_, funext fun id => ?_, ?_⟩
  · rw [grantsOf, dropped, (get?_dropRetired _ s (room', id)).1, if_neg (hkeep id)]
    rfl
  · rw [reportsOf, dropped, (get?_dropRetired _ s (room', id)).2, if_neg (hkeep id)]
    rfl
  · unfold configurationsOf dropped
    rw [configurations_dropRetired]

theorem configurationsOf_dropped (s : Registry) :
    (s.dropped room now).configurationsOf room = s.configurationsOf room := by
  unfold configurationsOf dropped
  rw [configurations_dropRetired]

theorem grantsOf_putGrant (s : Registry) (row : WriterGrant) :
    (s.putGrant room row).grantsOf room =
      Function.update (s.grantsOf room) row.id (some row) := by
  funext id
  simp only [grantsOf, putGrant, Table.get?_put, Function.update_apply, Prod.mk.injEq, true_and]

theorem putGrant_elsewhere (s : Registry) (row : WriterGrant) (hroom : room' ≠ room) :
    Same room' s (s.putGrant room row) := by
  refine ⟨funext fun id => ?_, rfl, rfl⟩
  simp only [grantsOf, putGrant, Table.get?_put, Prod.mk.injEq, hroom, false_and, if_false]

theorem reportsOf_deleteResources (s : Registry) (id : Str) :
    (s.deleteResources (room, id)).reportsOf room = Function.update (s.reportsOf room) id none := by
  funext id'
  simp only [reportsOf, deleteResources, Table.get?_erase, Function.update_apply, Prod.mk.injEq,
    true_and]

theorem deleteResources_elsewhere (s : Registry) (id : Str) (hroom : room' ≠ room) :
    Same room' s (s.deleteResources (room, id)) := by
  refine ⟨rfl, funext fun id' => ?_, rfl⟩
  simp only [reportsOf, deleteResources, Table.get?_erase, Prod.mk.injEq, hroom, false_and,
    if_false]

/-- A grant that is there settles the commit. -/
theorem commitWriterGrant_some {row previous : WriterGrant}
    (h : s.grantsOf room row.id = some previous) :
    s.commitWriterGrant room row now = (existingWriter previous row, s) := by
  unfold commitWriterGrant
  rw [show s.writers.get? (room, row.id) = some previous from h]

/-- A new grant. -/
theorem commitWriterGrant_none (hbound : Bounded (fun _ => 1) (s.grantsOf room) 128)
    {row : WriterGrant} (h : s.grantsOf room row.id = none) :
    s.commitWriterGrant room row now =
      if 128 ≤ s.retainedCount room now then
        (.error 429 "writer grant capacity reached", s.dropped room now)
      else (s.dropped room now).insertWriter room row := by
  unfold commitWriterGrant
  rw [show s.writers.get? (room, row.id) = none from h]
  dsimp only
  rw [listWriters_eq hbound]
  rfl

theorem Alike.dropped (h : Alike now room s t) :
    Alike now room (s.dropped room now) (t.dropped room now) where
  grants := by
    unfold Registry.dropped
    rw [(dropRetired_all s room now).1, (dropRetired_all t room now).1, h.grants]
  reports := by
    unfold Registry.dropped
    rw [(dropRetired_all s room now).2, (dropRetired_all t room now).2, h.grants, h.reports]
  configurations := by
    rw [configurationsOf_dropped, configurationsOf_dropped]
    exact h.configurations

theorem Alike.putGrant (h : Alike now room s t) (row : WriterGrant) :
    Alike now room (s.putGrant room row) (t.putGrant room row) where
  grants := by rw [grantsOf_putGrant, grantsOf_putGrant, h.grants]
  reports := h.reports
  configurations := h.configurations

theorem Alike.deleteResources (h : Alike now room s t) (id : Str) :
    Alike now room (s.deleteResources (room, id)) (t.deleteResources (room, id)) where
  grants := h.grants
  reports := by rw [reportsOf_deleteResources, reportsOf_deleteResources, h.reports]
  configurations := h.configurations

theorem Within.dropped (h : Within now room s) : Within now room (s.dropped room now) where
  grants := by
    unfold Registry.dropped
    rw [(dropRetired_all s room now).1]
    refine h.grants.mono fun id => ?_
    cases s.grantsOf room id with
    | none => simp
    | some row => cases hrow : retained now row <;> simp [Option.filter_some, hrow]
  configurations := (configurationsOf_dropped s).symm ▸ h.configurations
  bytes := (configurationsOf_dropped s).symm ▸ h.bytes
  named := (configurationsOf_dropped s).symm ▸ h.named

/-! ### Writing configurations -/

/-- The registry without the expired configurations of a room. -/
def dropExpired (s : Registry) (room : Str) (now : ℤ) : Registry :=
  { s with configurations := (roomRows s.configurations room).foldl (fun t old =>
      if old.2.expiresAt ≤ now then t.erase (room, old.2.id) else t) s.configurations }

def storeConfiguration (s : Registry) (room : Str) (row : Configuration) : Registry :=
  { s with configurations := s.configurations.put (room, row.id) row }

theorem configurationsOf_dropExpired (h : Within now room s) :
    (s.dropExpired room now).configurationsOf room =
      live Configuration.expiresAt now (s.configurationsOf room) := by
  funext id
  rw [configurationsOf, dropExpired]
  dsimp only
  rw [get?_dropExpired h.named, if_pos rfl]
  rfl

theorem dropExpired_elsewhere (h : Within now room s) (hroom : room' ≠ room) :
    Same room' s (s.dropExpired room now) := by
  refine ⟨rfl, rfl, funext fun id => ?_⟩
  rw [configurationsOf, dropExpired]
  dsimp only
  rw [get?_dropExpired h.named, if_neg hroom]
  rfl

theorem configurationsOf_storeConfiguration (s : Registry) (row : Configuration) :
    (s.storeConfiguration room row).configurationsOf room =
      Function.update (s.configurationsOf room) row.id (some row) := by
  funext id
  simp only [configurationsOf, storeConfiguration, Table.get?_put, Function.update_apply,
    Prod.mk.injEq, true_and]

theorem storeConfiguration_elsewhere (s : Registry) (row : Configuration) (hroom : room' ≠ room) :
    Same room' s (s.storeConfiguration room row) := by
  refine ⟨rfl, rfl, funext fun id => ?_⟩
  simp only [configurationsOf, storeConfiguration, Table.get?_put, Prod.mk.injEq, hroom, false_and,
    if_false]

theorem commitConfiguration_eq (h : Within now room s) (row : Configuration) :
    s.commitConfiguration room row now =
      if configurationCapacity (s.activeConfigurations room now) row now < 300 then
        (⟨configurationCapacity (s.activeConfigurations room now) row now,
          .configuration (some (visible row))⟩,
          (s.dropExpired room now).storeConfiguration room row)
      else (.error (configurationCapacity (s.activeConfigurations room now) row now)
        "configuration capacity reached", s.dropExpired room now) := by
  unfold commitConfiguration
  dsimp only
  rw [listConfigurations_eq h.configurations, configurationCapacity_eq]
  rfl

theorem Alike.dropExpired (h : Alike now room s t) (hs : Within now room s)
    (ht : Within now room t) :
    Alike now room (s.dropExpired room now) (t.dropExpired room now) where
  grants := h.grants
  reports := h.reports
  configurations := by
    rw [configurationsOf_dropExpired hs, configurationsOf_dropExpired ht]
    exact ((Expiring.Alike.sweep le_rfl _).trans h.configurations).trans
      (Expiring.Alike.sweep le_rfl _).symm

theorem Alike.storeConfiguration (h : Alike now room s t) (row : Configuration) :
    Alike now room (s.storeConfiguration room row) (t.storeConfiguration room row) where
  grants := h.grants
  reports := h.reports
  configurations := by
    rw [configurationsOf_storeConfiguration, configurationsOf_storeConfiguration]
    exact h.configurations.update row.id (some row)

theorem weight_live_le (w : Configuration → ℕ) (m : Str → Option Configuration) (id : Str) :
    weight w (live Configuration.expiresAt now m id) ≤ weight w (m id) := by
  unfold live
  cases m id with
  | none => simp
  | some row => by_cases hrow : now < row.expiresAt <;> simp [Option.filter_some, hrow]

theorem Within.dropExpired (h : Within now room s) : Within now room (s.dropExpired room now) where
  grants := h.grants
  configurations := by
    rw [configurationsOf_dropExpired h]
    exact h.configurations.mono (weight_live_le _ _)
  bytes := by
    rw [configurationsOf_dropExpired h, live_live le_rfl]
    exact h.bytes
  named id row hrow := by
    rw [configurationsOf_dropExpired h] at hrow
    exact h.named id row (live_eq_some.1 hrow).1

/-- The unexpired configuration of an id, as `configurationCapacity` finds it. -/
theorem find?_activeConfigurations (h : Within now room s) (id : Str) :
    ((s.activeConfigurations room now).find? fun row => row.id = id) =
      live Configuration.expiresAt now (s.configurationsOf room) id := by
  have hmem (row : Configuration) : row ∈ s.activeConfigurations room now ↔
      live Configuration.expiresAt now (s.configurationsOf room) row.id = some row := by
    unfold activeConfigurations
    rw [List.mem_map, live_eq_some]
    constructor
    · rintro ⟨r, hr, rfl⟩
      obtain ⟨hr, hlive⟩ := List.mem_filter.1 hr
      obtain ⟨hget, hroom⟩ := mem_roomRows.1 hr
      have hkey : r.1 = (room, r.1.2) := Prod.ext hroom rfl
      rw [hkey] at hget
      have hname := h.named _ _ hget
      exact ⟨by rw [hname]; exact hget, of_decide_eq_true hlive⟩
    · rintro ⟨hget, hlive⟩
      exact ⟨((room, row.id), row), List.mem_filter.2
        ⟨mem_roomRows.2 ⟨hget, rfl⟩, decide_eq_true hlive⟩, rfl⟩
  cases hlive : live Configuration.expiresAt now (s.configurationsOf room) id with
  | none =>
    refine List.find?_eq_none.2 fun row hrow hid => ?_
    have hid : row.id = id := of_decide_eq_true hid
    have hthere := (hmem row).1 hrow
    rw [hid, hlive] at hthere
    cases hthere
  | some row =>
    have hname : row.id = id := h.named id row (live_eq_some.1 hlive).1
    have hthere : row ∈ s.activeConfigurations room now := (hmem row).2 (hname ▸ hlive)
    have hsome : ((s.activeConfigurations room now).find? fun row => row.id = id).isSome := by
      rw [List.find?_isSome]
      exact ⟨row, hthere, decide_eq_true hname⟩
    obtain ⟨found, hfound⟩ := Option.isSome_iff_exists.1 hsome
    have hid : found.id = id := by simpa using List.find?_some hfound
    have hsame := (hmem found).1 (List.mem_of_find?_eq_some hfound)
    rw [hid, hlive] at hsame
    rw [hfound, hsame]

/-- **A configuration that fits** leaves the room within its limits. -/
theorem Within.storeConfiguration (h : Within now room s) {row : Configuration}
    (hfits : configurationCapacity (s.activeConfigurations room now) row now < 300) :
    Within now room ((s.dropExpired room now).storeConfiguration room row) := by
  have hactive : (s.activeConfigurations room now).filter (fun row => now < row.expiresAt) =
      s.activeConfigurations room now := by
    refine List.filter_eq_self.2 fun row hrow => ?_
    obtain ⟨r, hr, rfl⟩ := List.mem_map.1 hrow
    exact (List.mem_filter.1 hr).2
  have hweights (w : Configuration → ℕ) :
      Bounded w (live Configuration.expiresAt now (s.configurationsOf room))
        ((s.activeConfigurations room now).map w).sum := by
    have hbound := bounded_filter w s.configurations room (unexpired now)
    unfold activeConfigurations
    rw [List.map_map]
    exact hbound
  unfold configurationCapacity at hfits
  dsimp only at hfits
  rw [hactive, find?_activeConfigurations h] at hfits
  refine ⟨h.grants, ?_, ?_, ?_⟩
  · rw [configurationsOf_storeConfiguration, configurationsOf_dropExpired h]
    cases hprevious : live Configuration.expiresAt now (s.configurationsOf room) row.id with
    | none =>
      have hroomy : (s.activeConfigurations room now).length < 128 := by
        by_contra hfull
        rw [if_pos (.inl ⟨by rw [hprevious]; rfl, Nat.not_lt.1 hfull⟩)] at hfits
        exact absurd hfits (by decide)
      have hcount := hweights fun _ => 1
      rw [List.map_const', List.sum_replicate_nat, Nat.mul_one] at hcount
      refine Bounded.write (i := row.id) (m := (s.activeConfigurations room now).length) ?_ ?_
      · refine hcount.mono fun id => ?_
        by_cases hid : id = row.id <;> simp [hid]
      · rw [Function.update_self, weight_some]
        omega
    | some previous =>
      refine h.configurations.mono fun id => ?_
      by_cases hid : id = row.id
      · rw [hid, Function.update_self, (live_eq_some.1 hprevious).1]
        exact le_rfl
      · rw [Function.update_of_ne hid]
        exact weight_live_le _ _ id
  · rw [configurationsOf_storeConfiguration, configurationsOf_dropExpired h]
    refine Bounded.write (i := row.id)
      (m := ((s.activeConfigurations room now).map (·.bytes)).sum -
        weight Configuration.bytes
          (live Configuration.expiresAt now (s.configurationsOf room) row.id)) ?_ ?_
    · refine ((hweights Configuration.bytes).erase row.id).mono fun id => ?_
      by_cases hid : id = row.id
      · simp [hid]
      · rw [if_neg hid, if_neg hid]
        refine (weight_live_le _ _ id).trans ?_
        rw [Function.update_of_ne hid]
    · have hrow : weight Configuration.bytes (live Configuration.expiresAt now (Function.update
          (live Configuration.expiresAt now (s.configurationsOf room)) row.id (some row)) row.id) ≤
          row.bytes := by
        refine (weight_live_le _ _ _).trans ?_
        rw [Function.update_self, weight_some]
      have hbytes : ¬8000000 < ((s.activeConfigurations room now).map (·.bytes)).sum -
          weight Configuration.bytes
            (live Configuration.expiresAt now (s.configurationsOf room) row.id) + row.bytes := by
        intro hfull
        rw [if_pos (.inr hfull)] at hfits
        exact absurd hfits (by decide)
      omega
  · intro id row' hrow
    rw [configurationsOf_storeConfiguration, configurationsOf_dropExpired h] at hrow
    by_cases hid : id = row.id
    · rw [hid, Function.update_self] at hrow
      cases hrow
      exact hid.symm
    · rw [Function.update_of_ne hid] at hrow
      exact h.named id row' (live_eq_some.1 hrow).1

/-! ### What a request can do -/

/-- The registry without the configuration of an id. -/
def eraseConfiguration (s : Registry) (room id : Str) : Registry :=
  { s with configurations := s.configurations.erase (room, id) }

def storeReport (s : Registry) (room id : Str) (report : ResourceReport) : Registry :=
  { s with resources := s.resources.put (room, id) report }

/-- One change that a request for a room makes. -/
inductive Move (room : Str) (now : ℤ) : Registry → Registry → Prop
  | drop (s : Registry) : Move room now s (s.dropped room now)
  | grant (s : Registry) (row : WriterGrant) (hnone : s.grantsOf room row.id = none)
      (hplace : s.retainedCount room now < 128) (hnew : row.revokedAt = none) :
      Move room now s ((s.dropped room now).putGrant room row)
  | revoke (s : Registry) (row : WriterGrant) (hrow : s.grantsOf room row.id = some row)
      (hlive : row.revokedAt = none) :
      Move room now s (s.putGrant room { row with revokedAt := some now })
  | forget (s : Registry) (id : Str) : Move room now s (s.deleteResources (room, id))
  | report (s : Registry) (id : Str) (report : ResourceReport) :
      Move room now s (s.storeReport room id report)
  | expire (s : Registry) : Move room now s (s.dropExpired room now)
  | store (s : Registry) (row : Configuration)
      (hfits : configurationCapacity (s.activeConfigurations room now) row now < 300) :
      Move room now s ((s.dropExpired room now).storeConfiguration room row)
  | erase (s : Registry) (id : Str) (row : Configuration)
      (hrow : s.configurationsOf room id = some row) (hexpired : row.expiresAt ≤ now) :
      Move room now s (s.eraseConfiguration room id)

/-- A new grant lies at its id, and is not revoked. -/
theorem writerRow_ok {id : Str} {body : Value} {row : WriterGrant}
    (h : writerRow id body now = some row) : row.id = id ∧ row.revokedAt = none := by
  unfold writerRow at h
  dsimp only at h
  split_ifs at h
  · obtain ⟨body, -, h⟩ := Option.bind_eq_some_iff.1 h
    obtain ⟨-, -, h⟩ := Option.bind_eq_some_iff.1 h
    obtain ⟨sourceKeyId, -, h⟩ := Option.bind_eq_some_iff.1 h
    obtain ⟨recipientKeyId, -, h⟩ := Option.bind_eq_some_iff.1 h
    obtain ⟨scopeHash, -, h⟩ := Option.bind_eq_some_iff.1 h
    obtain ⟨tokenHash, -, h⟩ := Option.bind_eq_some_iff.1 h
    obtain ⟨expiresAt, -, h⟩ := Option.bind_eq_some_iff.1 h
    obtain ⟨-, -, h⟩ := Option.bind_eq_some_iff.1 h
    cases h
    exact ⟨rfl, rfl⟩
  · cases h

/-- **A request makes at most two changes**, in its room. -/
theorem ask_moves (sha256 : Str → Str) (h : Within now room s) (op : RecordRequest) :
    Relation.ReflTransGen (Move room now) s (s.ask sha256 commitWriterGrant room now op).2 := by
  cases op with
  | putWriter id body =>
    unfold ask putWriter
    dsimp only
    cases hrow : writerRow id body now with
    | none => exact .refl
    | some row =>
      dsimp only
      cases hprevious : s.grantsOf room row.id with
      | some previous =>
        rw [commitWriterGrant_some hprevious]
      | none =>
        rw [commitWriterGrant_none h.grants hprevious]
        split_ifs with hfull
        · exact .single (.drop s)
        · exact .single (.grant s row hprevious (Nat.not_le.1 hfull) (writerRow_ok hrow).2)
  | revoke id =>
    unfold ask revoke
    dsimp only
    cases hrow : s.writers.get? (room, id) with
    | none => exact .single (.forget s id)
    | some row =>
      dsimp only
      have hname : row.id = id := s.named _ _ hrow
      cases hlive : row.revokedAt with
      | none =>
        simp only [Option.isNone_none, if_true]
        exact (Relation.ReflTransGen.single (.revoke s row (hname ▸ hrow) hlive)).tail
          (.forget _ id)
      | some time => exact .single (.forget s id)
  | authorize credential retainedRead => exact .refl
  | resources id body =>
    unfold ask resourcesOf
    dsimp only
    cases s.writers.get? (room, id) with
    | none => exact .refl
    | some grant =>
      dsimp only
      split_ifs
      · exact .refl
      · cases body with
        | none =>
          dsimp only
          cases s.resources.get? (room, id) with
          | none => exact .refl
          | some report =>
            dsimp only
            split_ifs <;> exact .refl
        | some body =>
          dsimp only
          cases validReport grant room body now with
          | error t => exact .refl
          | ok envelope =>
            cases envelope with
            | none => exact .refl
            | some envelope => exact .single (.report s id ⟨envelope, now⟩)
  | putConfiguration id body =>
    unfold ask putConfiguration
    dsimp only
    cases configurationRow room id body now with
    | error verdict => cases verdict <;> exact .refl
    | ok row =>
      dsimp only
      rw [commitConfiguration_eq h]
      split_ifs with hfits
      · exact .single (.store s row hfits)
      · exact .single (.expire s)
  | getConfiguration id =>
    unfold ask getConfiguration
    dsimp only
    split_ifs
    · cases hrow : s.configurations.get? (room, id) with
      | none => exact .refl
      | some row =>
        dsimp only
        split_ifs with hexpired
        · exact .single (.erase s id row hrow hexpired)
        · exact .refl
    · exact .refl

theorem eraseConfiguration_elsewhere (s : Registry) (id : Str) (hroom : room' ≠ room) :
    Same room' s (s.eraseConfiguration room id) := by
  refine ⟨rfl, rfl, funext fun id' => ?_⟩
  simp only [configurationsOf, eraseConfiguration, Table.get?_erase, Prod.mk.injEq, hroom,
    false_and, if_false]

theorem configurationsOf_eraseConfiguration (s : Registry) (id : Str) :
    (s.eraseConfiguration room id).configurationsOf room =
      Function.update (s.configurationsOf room) id none := by
  funext id'
  simp only [configurationsOf, eraseConfiguration, Table.get?_erase, Function.update_apply,
    Prod.mk.injEq, true_and]

/-- The other rooms stay as they are. -/
theorem Move.elsewhere (hs : Within now room s) (h : Move room now s s') (hroom : room' ≠ room) :
    Same room' s s' := by
  cases h with
  | drop => exact dropped_elsewhere s hroom
  | grant row => exact (dropped_elsewhere s hroom).trans (putGrant_elsewhere _ row hroom)
  | revoke row => exact putGrant_elsewhere s _ hroom
  | forget id => exact deleteResources_elsewhere s id hroom
  | report id report =>
    refine ⟨rfl, funext fun id' => ?_, rfl⟩
    simp only [reportsOf, storeReport, Table.get?_put, Prod.mk.injEq, hroom, false_and, if_false]
  | expire => exact dropExpired_elsewhere hs hroom
  | store row =>
    exact (dropExpired_elsewhere hs hroom).trans (storeConfiguration_elsewhere _ row hroom)
  | erase id => exact eraseConfiguration_elsewhere s id hroom

/-- **The limits of a room** are kept. -/
theorem Within.move (hs : Within now room s) (h : Move room now s s') : Within now room s' := by
  cases h with
  | drop => exact hs.dropped
  | grant row hnone hplace =>
    refine { hs.dropped with grants := ?_ }
    rw [grantsOf_putGrant]
    have hcount := bounded_filter (fun _ => 1) s.writers room (retained now)
    rw [List.map_const', List.sum_replicate_nat, Nat.mul_one] at hcount
    refine Bounded.write (i := row.id) (m := s.retainedCount room now) ?_ ?_
    · refine hcount.mono fun id => ?_
      by_cases hid : id = row.id
      · simp [hid]
      · rw [if_neg hid, Function.update_of_ne hid, Registry.dropped, (dropRetired_all s room now).1]
        exact le_rfl
    · rw [Function.update_self, weight_some]
      omega
  | revoke row hrow =>
    refine { hs with grants := ?_ }
    rw [grantsOf_putGrant]
    refine hs.grants.mono fun id => ?_
    by_cases hid : id = row.id
    · rw [hid]
      simp [hrow]
    · rw [Function.update_of_ne hid]
  | forget id => exact { hs with }
  | report id report => exact { hs with }
  | expire => exact hs.dropExpired
  | store row hfits => exact hs.storeConfiguration hfits
  | erase id row hrow hexpired =>
    have hle (w : Configuration → ℕ) (j : Str) :
        weight w (Function.update (s.configurationsOf room) id none j) ≤
          weight w (s.configurationsOf room j) := by
      by_cases hj : j = id <;> simp [hj]
    refine ⟨hs.grants, ?_, ?_, fun id' row' hrow' => ?_⟩
    · rw [configurationsOf_eraseConfiguration]
      exact hs.configurations.mono (hle _)
    · rw [configurationsOf_eraseConfiguration]
      refine hs.bytes.mono fun j => ?_
      by_cases hj : j = id <;> simp [live, hj]
    · rw [configurationsOf_eraseConfiguration] at hrow'
      by_cases hid : id' = id
      · rw [hid, Function.update_self] at hrow'
        cases hrow'
      · rw [Function.update_of_ne hid] at hrow'
        exact hs.named id' row' hrow'

theorem Within.moves (hs : Within now room s) (h : Relation.ReflTransGen (Move room now) s s') :
    Within now room s' := by
  induction h with
  | refl => exact hs
  | tail _ hmove ih => exact ih.move hmove

theorem moves_elsewhere (hs : Within now room s) (h : Relation.ReflTransGen (Move room now) s s')
    (hroom : room' ≠ room) : Same room' s s' := by
  induction h with
  | refl => exact .refl room' s
  | tail hmoves hmove ih => exact ih.trans (hmove.elsewhere (hs.moves hmoves) hroom)

end Registry

end GrantTap
