import GrantTapRelay.RetainedState.LatestRevision

/-!
# Cache pressure

What `retainState` evicts when the new row takes the room over its bounds: whole groups, a prefix of
the eviction order, and the shortest one after which the bounds hold.

* `Grouped`: the groups of some rows are the rows with their ids, with the priority, the time and
  the recipient's presence of these rows.
* `evict_eq`: eviction stops at the first prefix without which the rows are within the bounds.
* `cache_pressure`: **the evicted rows**.
-/

namespace GrantTap

open Js

/-- The rows after the new row is inserted and before a group is evicted. -/
def insertedRows (rows : List StateRow) (envelope : Json) (raw : Str) (now : ℤ) : List StateRow :=
  (liveRows rows now).eraseP (inSlot envelope) ++ [stateRow envelope raw now]

/-- The new row is inserted: it may be retained, and is newer than the row of its slot. -/
structure Inserts (rows : List StateRow) (envelope : Json) (raw : Str) (now : ℤ) : Prop where
  retainable : retainable envelope raw now = .ok true
  newer : ∀ existing, (liveRows rows now).find? (inSlot envelope) = some existing →
    existing.revision < (stateRow envelope raw now).revision

/-- The rows of no group of a list. -/
def outside (groups : List EvictionGroup) (rows : List StateRow) : List StateRow :=
  rows.filter fun row => groupOf row ∉ groups.map EvictionGroup.id

/-! ## Groups -/

/-- The rows of a group that are not its decryption grants. -/
def groupBodies (rows : List StateRow) : List StateRow := rows.filter fun row => row.priority ≠ 0

/-- The priority of the group of some rows: the largest one of the bodies, or without bodies 2 when
the last row names a group and 4 when it does not. -/
def groupPriority (rows : List StateRow) : ℤ :=
  if groupBodies rows ≠ [] then largest ((groupBodies rows).map (·.priority))
  else if rows.getLast?.any (·.groupId.truthy) then 2 else 4

/-- The time at which the group of some rows was saved. -/
def groupSavedAt (rows : List StateRow) : ℤ :=
  largest ((if groupBodies rows ≠ [] then groupBodies rows else rows).map (·.savedAt))

/-- The group of the rows that share its id. -/
structure IsGroup (activity : List PresenceRow) (now : ℤ) (rows : List StateRow)
    (group : EvictionGroup) : Prop where
  members : group.rows = rows.filter fun row => groupOf row = group.id
  nonempty : group.rows ≠ []
  /-- A group is as recent as the recipient of its first row. -/
  seen : group.rows.head?.map (seenAt activity now) = some group.seen
  priority : group.priority = groupPriority group.rows
  savedAt : group.savedAt = groupSavedAt group.rows

/-- The groups of some rows. -/
structure Grouped (activity : List PresenceRow) (now : ℤ) (rows : List StateRow)
    (groups : List EvictionGroup) : Prop where
  nodup : (groups.map EvictionGroup.id).Nodup
  each : ∀ group ∈ groups, IsGroup activity now rows group
  covers : ∀ row ∈ rows, ∃ group ∈ groups, group.id = groupOf row

variable {activity : List PresenceRow} {now : ℤ} {rows : List StateRow}
  {groups groups' : List EvictionGroup} {group : EvictionGroup} {row : StateRow}

theorem filter_groupOf_snoc (rows : List StateRow) (row : StateRow) (id : Str) :
    (rows ++ [row]).filter (fun row => groupOf row = id) =
      (rows.filter fun row => groupOf row = id) ++ if groupOf row = id then [row] else [] := by
  rw [List.filter_append, List.filter_singleton]
  by_cases hid : groupOf row = id
  · rw [if_pos hid, decide_eq_true hid]
    rfl
  · rw [if_neg hid, decide_eq_false hid]
    rfl

namespace IsGroup

/-- A row of another group. -/
theorem other (h : IsGroup activity now rows group) (hid : groupOf row ≠ group.id) :
    IsGroup activity now (rows ++ [row]) group where
  members := by
    rw [filter_groupOf_snoc, if_neg hid, List.append_nil]
    exact h.members
  nonempty := h.nonempty
  seen := h.seen
  priority := h.priority
  savedAt := h.savedAt

theorem priority_push (group : EvictionGroup) (row : StateRow) :
    (group.push row).priority = groupPriority (group.push row).rows := by
  have hrows : (group.push row).rows = group.rows ++ [row] := rfl
  unfold groupPriority
  rw [hrows, List.getLast?_concat, Option.any_some]
  rfl

/-- A row of the group. -/
theorem push (h : IsGroup activity now rows group) (hid : groupOf row = group.id) :
    IsGroup activity now (rows ++ [row]) (group.push row) where
  members := by
    have hgroup : (group.push row).id = group.id := rfl
    rw [hgroup, filter_groupOf_snoc, if_pos hid, ← h.members]
    rfl
  nonempty := by
    have hrows : (group.push row).rows = group.rows ++ [row] := rfl
    rw [hrows]
    exact List.append_ne_nil_of_right_ne_nil _ (List.cons_ne_nil row [])
  seen := by
    have hrows : (group.push row).rows = group.rows ++ [row] := rfl
    rw [hrows, List.head?_append_of_ne_nil _ h.nonempty]
    exact h.seen
  priority := priority_push group row
  savedAt := rfl

/-- The first row of a group. -/
theorem first (hnone : ∀ old ∈ rows, groupOf old ≠ groupOf row) : IsGroup activity now (rows ++ [row])
    (EvictionGroup.push ⟨groupOf row, [], 2, row.savedAt, seenAt activity now row⟩ row) where
  members := by
    change [row] = (rows ++ [row]).filter fun old => groupOf old = groupOf row
    rw [filter_groupOf_snoc, if_pos rfl, List.filter_eq_nil_iff.2, List.nil_append]
    intro old hold heq
    exact hnone old hold (of_decide_eq_true heq)
  nonempty := List.cons_ne_nil row []
  seen := rfl
  priority := priority_push ..
  savedAt := rfl

end IsGroup

namespace Grouped

theorem nil (activity : List PresenceRow) (now : ℤ) : Grouped activity now [] [] where
  nodup := .nil
  each _ h := absurd h List.not_mem_nil
  covers _ h := absurd h List.not_mem_nil

/-- The order of the groups does not matter. -/
theorem perm (h : Grouped activity now rows groups) (hperm : groups'.Perm groups) :
    Grouped activity now rows groups' where
  nodup := (hperm.map _).nodup_iff.2 h.nodup
  each group hgroup := h.each group (hperm.mem_iff.1 hgroup)
  covers row hrow := by
    obtain ⟨group, hgroup, hid⟩ := h.covers row hrow
    exact ⟨group, hperm.mem_iff.2 hgroup, hid⟩

/-- A group of some rows is the one of its rows. -/
theorem eq_of_id (h : Grouped activity now rows groups) (hgroup : group ∈ groups)
    {group' : EvictionGroup} (hgroup' : group' ∈ groups) (hid : group.id = group'.id) :
    group = group' :=
  List.inj_on_of_nodup_map h.nodup hgroup hgroup' hid

/-- **One more row.** -/
theorem add (h : Grouped activity now rows groups) (row : StateRow) :
    Grouped activity now (rows ++ [row]) (addToGroups activity now groups row) := by
  have hcovers : ∀ old ∈ rows ++ [row],
      ∃ group ∈ addToGroups activity now groups row, group.id = groupOf old := by
    intro old hold
    refine mem_addToGroups activity now groups row ?_
    rcases List.mem_append.1 hold with hold | hold
    · exact .inl (h.covers old hold)
    · exact .inr (by rw [List.mem_singleton.1 hold])
  refine ⟨?_, ?_, hcovers⟩
  · unfold addToGroups
    dsimp only
    split_ifs with hany
    · have hids : (groups.map fun group => if group.id = groupOf row then group.push row
          else group).map EvictionGroup.id = groups.map EvictionGroup.id := by
        rw [List.map_map]
        refine List.map_congr_left fun group _ => ?_
        dsimp only [Function.comp_apply]
        split_ifs <;> rfl
      rw [hids]
      exact h.nodup
    · rw [List.map_append, List.nodup_append]
      refine ⟨h.nodup, List.nodup_singleton _, fun id hid id' hid' heq => hany ?_⟩
      obtain ⟨group, hgroup, rfl⟩ := List.mem_map.1 hid
      rw [List.mem_singleton.1 hid'] at heq
      exact List.any_eq_true.2 ⟨group, hgroup, decide_eq_true heq⟩
  · unfold addToGroups
    dsimp only
    split_ifs with hany
    · intro group hgroup
      obtain ⟨old, hold, rfl⟩ := List.mem_map.1 hgroup
      split_ifs with hid
      · exact (h.each old hold).push hid.symm
      · exact (h.each old hold).other (Ne.symm hid)
    · have hnone : ∀ group ∈ groups, group.id ≠ groupOf row := fun group hgroup hid =>
        hany (List.any_eq_true.2 ⟨group, hgroup, decide_eq_true hid⟩)
      intro group hgroup
      rcases List.mem_append.1 hgroup with hgroup | hgroup
      · exact (h.each group hgroup).other (hnone group hgroup).symm
      · rw [List.mem_singleton.1 hgroup]
        refine IsGroup.first fun old hold heq => ?_
        obtain ⟨group', hgroup', hid⟩ := h.covers old hold
        exact hnone group' hgroup' (hid.trans heq)

/-- **The groups of the eviction** are those of the rows. -/
theorem evictionGroups (rows : List StateRow) (activity : List PresenceRow) (now : ℤ) :
    Grouped activity now rows (evictionGroups rows activity now) := by
  refine perm ?_ (List.perm_insertionSort ..)
  induction rows using List.reverseRecOn with
  | nil => exact nil activity now
  | append_singleton rows row ih =>
    rw [List.foldl_concat]
    exact ih.add row

end Grouped

/-! ## The order -/

/-- The four levels of the order. -/
theorem evictsBefore_iff {a b : EvictionGroup} : evictsBefore a b = true ↔
    (a.priority ≠ 1 ∧ b.priority = 1) ∨ ((a.priority = 1 ↔ b.priority = 1) ∧
      (a.seen < b.seen ∨ a.seen = b.seen ∧ (b.priority < a.priority ∨
        a.priority = b.priority ∧ a.savedAt ≤ b.savedAt))) := by
  unfold evictsBefore
  by_cases hcatalog : (a.priority = 1) = (b.priority = 1)
  · rw [if_neg (not_not.2 hcatalog)]
    rw [eq_iff_iff] at hcatalog
    split_ifs <;> simp only [decide_eq_true_eq] <;> omega
  · rw [if_pos hcatalog]
    rw [eq_iff_iff] at hcatalog
    simp only [decide_eq_true_eq]
    omega

theorem evictsBefore_total (a b : EvictionGroup) :
    evictsBefore a b = true ∨ evictsBefore b a = true := by
  rw [evictsBefore_iff, evictsBefore_iff]
  omega

theorem evictsBefore_trans {a b c : EvictionGroup} (hab : evictsBefore a b = true)
    (hbc : evictsBefore b c = true) : evictsBefore a c = true := by
  rw [evictsBefore_iff] at hab hbc ⊢
  omega

theorem pairwise_evictionGroups (rows : List StateRow) (activity : List PresenceRow) (now : ℤ) :
    (evictionGroups rows activity now).Pairwise fun a b => evictsBefore a b = true := by
  have : Std.Total fun a b : EvictionGroup => evictsBefore a b = true := ⟨evictsBefore_total⟩
  have : IsTrans EvictionGroup fun a b => evictsBefore a b = true :=
    ⟨fun _ _ _ => evictsBefore_trans⟩
  exact List.pairwise_insertionSort _ _

/-! ## Eviction -/

theorem outside_nil (rows : List StateRow) : outside [] rows = rows :=
  List.filter_eq_self.2 fun _ _ => decide_eq_true List.not_mem_nil

theorem outside_cons (group : EvictionGroup) (groups : List EvictionGroup) (rows : List StateRow) :
    outside (group :: groups) rows =
      outside groups (rows.filter fun row => groupOf row ≠ group.id) := by
  unfold outside
  rw [List.filter_filter]
  refine List.filter_congr fun row _ => ?_
  rw [List.map_cons, ← Bool.decide_and, decide_eq_decide, List.mem_cons, not_or, and_comm]

theorem Retained.rows_without (r : Retained) (id : Str) :
    (r.without id).rows = r.rows.filter fun row => groupOf row ≠ id := by
  rw [Retained.rows, Retained.rows, List.filter_append, Retained.without]
  cases r.added with
  | none => rfl
  | some row =>
    rw [Option.filter_some, Option.toList_some, List.filter_singleton]
    cases decide (groupOf row ≠ id) <;> rfl

theorem Retained.fits_iff_bounded {r : Retained} : r.fits = true ↔ StateStore.Bounded r.rows :=
  Retained.fits_iff

/-- **Eviction stops** at the first prefix without which the rows are within the bounds. -/
theorem Retained.evict_eq (groups : List EvictionGroup) (r : Retained) :
    ∃ n ≤ groups.length, (Retained.evict groups r).rows = outside (groups.take n) r.rows ∧
      ∀ m < n, ¬StateStore.Bounded (outside (groups.take m) r.rows) := by
  induction groups generalizing r with
  | nil => exact ⟨0, le_rfl, (outside_nil _).symm, fun m hm => absurd hm (Nat.not_lt_zero m)⟩
  | cons group groups ih =>
    unfold Retained.evict
    by_cases hfits : r.fits = true
    · rw [if_pos hfits]
      exact ⟨0, Nat.zero_le _, (outside_nil _).symm, fun m hm => absurd hm (Nat.not_lt_zero m)⟩
    · rw [if_neg hfits]
      obtain ⟨n, hn, hrows, hshort⟩ := ih (r.without group.id)
      rw [Retained.rows_without] at hrows hshort
      refine ⟨n + 1, Nat.succ_le_succ hn, ?_, fun m hm => ?_⟩
      · rw [hrows, List.take_succ_cons, outside_cons]
      · cases m with
        | zero =>
          rw [List.take_zero, outside_nil]
          exact fun h => hfits (Retained.fits_iff_bounded.2 h)
        | succ m =>
          rw [List.take_succ_cons, outside_cons]
          exact hshort m (Nat.lt_of_succ_lt_succ hm)

/-- The rows after a put that inserts its row. -/
theorem retainState_inserts {rows : List StateRow} {envelope : Json} {raw : Str} {now : ℤ}
    (h : Inserts rows envelope raw now) (activity : List PresenceRow) :
    ∃ r, retainState rows envelope raw now activity = .ok r ∧
      StateStore.Bounded r.rows ∧
      ∃ n ≤ (evictionGroups (insertedRows rows envelope raw now) activity now).length,
        r.rows = outside ((evictionGroups (insertedRows rows envelope raw now) activity now).take n)
          (insertedRows rows envelope raw now) ∧
        ∀ m < n, ¬StateStore.Bounded
          (outside ((evictionGroups (insertedRows rows envelope raw now) activity now).take m)
            (insertedRows rows envelope raw now)) := by
  have hold : ¬((liveRows rows now).find? (inSlot envelope)).any
      (fun existing => (stateRow envelope raw now).revision ≤ existing.revision) = true := by
    intro hany
    obtain ⟨existing, hfind, hle⟩ := (Option.any_eq_true ..).1 hany
    exact absurd (of_decide_eq_true hle) (not_le.2 (h.newer existing hfind))
  have hretain : retainState rows envelope raw now activity = .ok (Retained.evict
      (evictionGroups (insertedRows rows envelope raw now) activity now)
      ⟨(liveRows rows now).eraseP (inSlot envelope),
        (rows.filter fun row => row.expiresAt ≤ now) ++
          ((liveRows rows now).find? (inSlot envelope)).toList,
        some (stateRow envelope raw now)⟩) := by
    unfold retainState
    simp only [h.retainable, bind, Except.bind, Bool.not_true, Bool.false_eq_true, if_false]
    exact if_neg hold
  refine ⟨_, hretain, Retained.fits_iff_bounded.1 ?_, Retained.evict_eq _ _⟩
  exact Retained.evict_fits _ _ fun row hrow => mem_evictionGroups activity now hrow

theorem mem_outside {groups : List EvictionGroup} {rows : List StateRow} {row : StateRow} :
    row ∈ outside groups rows ↔ row ∈ rows ∧ ∀ group ∈ groups, group.id ≠ groupOf row := by
  rw [outside, List.mem_filter, decide_eq_true_eq, List.mem_map]
  refine and_congr_right fun _ => ⟨fun h group hgroup hid => h ⟨group, hgroup, hid⟩, ?_⟩
  rintro h ⟨group, hgroup, hid⟩
  exact h group hgroup hid

/-- The rows outside some of the groups are those of the others. -/
theorem Grouped.mem_outside (h : Grouped activity now rows groups) {evicted kept : List EvictionGroup}
    (hsplit : groups = evicted ++ kept) :
    row ∈ outside evicted rows ↔ ∃ group ∈ kept, row ∈ group.rows := by
  subst hsplit
  rw [GrantTap.mem_outside]
  constructor
  · rintro ⟨hrow, hnot⟩
    obtain ⟨group, hgroup, hid⟩ := h.covers row hrow
    refine ⟨group, (List.mem_append.1 hgroup).resolve_left fun hin => hnot group hin hid, ?_⟩
    rw [(h.each group hgroup).members]
    exact List.mem_filter.2 ⟨hrow, decide_eq_true hid.symm⟩
  · rintro ⟨group, hgroup, hrow⟩
    have hmem : group ∈ evicted ++ kept := List.mem_append_right _ hgroup
    rw [(h.each group hmem).members] at hrow
    obtain ⟨hrow, hid⟩ := List.mem_filter.1 hrow
    have hid : groupOf row = group.id := of_decide_eq_true hid
    refine ⟨hrow, fun other hother heq => ?_⟩
    have hnodup := h.nodup
    rw [List.map_append, List.nodup_append] at hnodup
    exact hnodup.2.2 other.id (List.mem_map_of_mem hother) group.id (List.mem_map_of_mem hgroup)
      (heq.trans hid)

/-- What cache pressure does to the rows after an insertion: the groups of these rows, in the order
of eviction, are `evicted` and then `kept`. -/
structure Relieved (inserted result : List StateRow) (activity : List PresenceRow) (now : ℤ)
    (evicted kept : List EvictionGroup) : Prop where
  groups : evictionGroups inserted activity now = evicted ++ kept
  /-- The groups partition the rows. -/
  grouped : Grouped activity now inserted (evicted ++ kept)
  /-- What goes are the rows of the evicted groups, all of them and no others. -/
  rows : result = outside evicted inserted
  gone : ∀ group ∈ evicted, ∀ row ∈ group.rows, row ∉ result
  stays : ∀ group ∈ kept, ∀ row ∈ group.rows, row ∈ result
  bounded : StateStore.Bounded result
  /-- A shorter prefix leaves the room over its bounds. -/
  shortest : ∀ first later, evicted = first ++ later → later ≠ [] →
    ¬StateStore.Bounded (outside first inserted)
  /-- Catalogs are evicted after everything else. -/
  catalogs : ∀ a ∈ evicted, ∀ b ∈ kept, a.priority = 1 → b.priority = 1
  /-- Of the others, those of the recipients that were seen last are evicted last. -/
  recent : ∀ a ∈ evicted, ∀ b ∈ kept, a.priority ≠ 1 → b.priority ≠ 1 → a.seen ≤ b.seen
  /-- Within the bounds nothing is evicted. -/
  idle : StateStore.Bounded inserted → result = inserted

/-- **Cache pressure.** A put that inserts its row evicts the shortest prefix of the groups without
which the room is within its bounds. -/
theorem cache_pressure {rows : List StateRow} {envelope : Json} {raw : Str} {now : ℤ}
    {activity : List PresenceRow} (h : Inserts rows envelope raw now) {r : Retained}
    (hr : retainState rows envelope raw now activity = .ok r) :
    ∃ evicted kept, Relieved (insertedRows rows envelope raw now) r.rows activity now evicted kept := by
  obtain ⟨r', hr', hbounded, n, hn, hrows, hshort⟩ := retainState_inserts h activity
  obtain rfl : r' = r := by
    rw [hr] at hr'
    exact (Except.ok.inj hr').symm
  have hsplit := (List.take_append_drop n
    (evictionGroups (insertedRows rows envelope raw now) activity now)).symm
  have hgrouped := Grouped.evictionGroups (insertedRows rows envelope raw now) activity now
  have horder := pairwise_evictionGroups (insertedRows rows envelope raw now) activity now
  rw [hsplit] at hgrouped horder
  have hbefore := (List.pairwise_append.1 horder).2.2
  refine ⟨_, _, hsplit, hgrouped, hrows, fun group hgroup row hrow hin => ?_,
    fun group hgroup row hrow => ?_, hbounded, fun first later hfirst hlater => ?_,
    fun a ha b hb => ?_, fun a ha b hb hnot hnot' => ?_, fun hwithin => ?_⟩
  · rw [(hgrouped.each group (List.mem_append_left _ hgroup)).members] at hrow
    rw [hrows, mem_outside] at hin
    exact hin.2 group hgroup (of_decide_eq_true (List.mem_filter.1 hrow).2).symm
  · rw [hrows, hgrouped.mem_outside rfl]
    exact ⟨group, hgroup, hrow⟩
  · have hlength := congrArg List.length hfirst
    rw [List.length_append, List.length_take, min_eq_left hn] at hlength
    have hpos := List.length_pos_of_ne_nil hlater
    have htake : first = (evictionGroups (insertedRows rows envelope raw now) activity now).take
        first.length := by
      have htake := congrArg (List.take first.length) hfirst
      rw [List.take_take, min_eq_left (by omega), List.take_left'] at htake
      · exact htake.symm
      · rfl
    rw [htake]
    exact hshort first.length (by omega)
  · have hle := evictsBefore_iff.1 (hbefore a ha b hb)
    omega
  · have hle := evictsBefore_iff.1 (hbefore a ha b hb)
    omega
  · cases n with
    | zero => rw [hrows, List.take_zero, outside_nil]
    | succ n =>
      have hnot := hshort 0 n.succ_pos
      rw [List.take_zero, outside_nil] at hnot
      exact absurd hwithin hnot

/-- A room that a chat head fills. -/
def crowdedRoom : List StateRow :=
  [{ stateRow (sampleStatePut 5 1000).envelope (lit "head") 1000 with
    key := .null, priority := 3, bytes := STATE_ROOM_BYTES }]

/-- The chat head is evicted for a catalog. -/
theorem cache_pressure_sample : ∃ result evicted kept, evicted ≠ [] ∧ Relieved
    (insertedRows crowdedRoom (sampleStatePut 5 1000).envelope (lit "ciphertext") 1000)
      result [] 1000 evicted kept := by
  have hnone : ((liveRows crowdedRoom 1000).find?
      (inSlot (sampleStatePut 5 1000).envelope)).isNone = true := by decide +kernel
  have h : Inserts crowdedRoom (sampleStatePut 5 1000).envelope (lit "ciphertext") 1000 := by
    refine ⟨by decide +kernel, fun existing hfind => ?_⟩
    rw [hfind] at hnone
    cases hnone
  obtain ⟨r, hr, -⟩ := retainState_inserts h []
  obtain ⟨evicted, kept, hrelieved⟩ := cache_pressure h hr
  refine ⟨r.rows, evicted, kept, ?_, hrelieved⟩
  rintro rfl
  have hover : ¬totalBytes (insertedRows crowdedRoom (sampleStatePut 5 1000).envelope
      (lit "ciphertext") 1000) ≤ STATE_ROOM_BYTES := by decide +kernel
  have hbounded := hrelieved.bounded
  rw [hrelieved.rows, outside_nil] at hbounded
  exact hover hbounded.2

end GrantTap
