import GrantTapRelay.Library.Table
import GrantTapRelay.RetainedState.Policy

/-!
# Retained state on Node

`src/retainedState/node.js` over the table `retained_state`. A put reads the metadata of its room,
applies the policy, and in one transaction deletes the rows that the policy drops and inserts the
new one.
-/

namespace GrantTap

open Js

/-- The table `retained_state`; a row lies at its room and slot. -/
structure NodeStates where
  rows : Table (Str × Slot) StateRow
  named : ∀ k row, rows.get? k = some row → row.At k.2

/-- A group that SQLite binds as text or `NULL`. -/
def bindableGroup (group : Value) : Bool := group.nullish || group.str?.isSome

namespace NodeStates

def empty : NodeStates := ⟨.empty, fun _ _ h => nomatch h⟩

/-- The rows of a room. -/
def room (s : NodeStates) (room : Str) : List StateRow :=
  (s.rows.rows.filter fun r => r.1.1 = room).map Prod.snd

/-- `metadata(room)`, in the order of the primary key. -/
def metadata (s : NodeStates) (room : Str) : List StateRow :=
  ((s.rows.rows.filter fun r => r.1.1 = room).insertionSort fun a b =>
    unitsLe (a.1.2.1 ++ lit ":" ++ a.1.2.2) (b.1.2.1 ++ lit ":" ++ b.1.2.2)).map fun r => r.2.metadata

/-- `DELETE FROM retained_state` of some rows of a room. -/
def remove (s : NodeStates) (room : Str) (removed : List StateRow) : NodeStates where
  rows := s.rows.filter fun k _ => !(k.1 = room && removed.any fun old => old.slot? = some k.2)
  named := fun k row h => by
    rw [Table.get?_filter, Option.filter_eq_some_iff] at h
    exact s.named k row h.1

/-- `INSERT OR REPLACE INTO retained_state`; a value that is not text cannot be bound. -/
def insert (s : NodeStates) (room : Str) (row : StateRow) : Except Throw NodeStates :=
  match h : row.slot? with
  | none => .error .typeError
  | some slot =>
    if bindableGroup row.groupId then
      .ok
        { rows := s.rows.put (room, slot) row
          named := fun k row' hk => by
            rw [Table.get?_put] at hk
            split_ifs at hk with e
            · cases hk
              rw [e]
              exact StateRow.slot?_eq_some.1 h
            · exact s.named k row' hk }
    else .error .typeError

def put (s : NodeStates) (room : Str) (envelope : Json) (raw : Str) (now : ℤ)
    (activity : List PresenceRow) : Except Throw NodeStates := do
  let before := s.metadata room
  let r ← retainState before envelope raw now activity
  match r.added with
  | none => return s.remove room r.dropped
  | some row => (s.remove room r.dropped).insert room row

/-- The texts that a recipient is sent when it reconnects. -/
def list (s : NodeStates) (room : Str) (recipient : Option Str) (now : ℤ) : List Str :=
  (replayState (s.room room) recipient now).map (·.raw)

def purge (s : NodeStates) (now : ℤ) : NodeStates where
  rows := s.rows.filter fun _ row => now < row.expiresAt
  named := fun k row h => by
    rw [Table.get?_filter, Option.filter_eq_some_iff] at h
    exact s.named k row h.1

/-! ## The rows of a room -/

variable {s t : NodeStates} {room : Str}

theorem mem_room {row : StateRow} :
    row ∈ s.room room ↔ ∃ slot, s.rows.get? (room, slot) = some row := by
  simp only [NodeStates.room, List.mem_map, List.mem_filter, decide_eq_true_eq]
  constructor
  · rintro ⟨⟨⟨room', slot⟩, row'⟩, ⟨hmem, rfl⟩, rfl⟩
    exact ⟨slot, Table.mem_rows.1 hmem⟩
  · rintro ⟨slot, h⟩
    exact ⟨((room, slot), row), ⟨Table.mem_rows.2 h, rfl⟩, rfl⟩

theorem get?_of_mem_room {row : StateRow} {slot : Slot} (h : row ∈ s.room room)
    (hat : row.At slot) : s.rows.get? (room, slot) = some row := by
  obtain ⟨slot', h⟩ := mem_room.1 h
  have hat' : row.At slot' := s.named _ _ h
  rwa [hat'.unique hat] at h

/-- The rows of a room have different slots. -/
theorem slotted_room (s : NodeStates) (room : Str) : Slotted (s.room room) := by
  refine ⟨fun row hrow => ?_, ?_⟩
  · obtain ⟨slot, h⟩ := mem_room.1 hrow
    exact ⟨slot, s.named _ _ h⟩
  · have hkeys := List.pairwise_map.1 s.rows.nodup
    refine List.pairwise_map.2 (((hkeys.sublist List.filter_sublist).imp_of_mem ?_))
    intro a b ha hb hne slot hat hbt
    obtain ⟨ha, hroom⟩ := List.mem_filter.1 ha
    obtain ⟨hb, hroom'⟩ := List.mem_filter.1 hb
    refine hne (Prod.ext ((of_decide_eq_true hroom).trans (of_decide_eq_true hroom').symm) ?_)
    have hat' := s.named a.1 a.2 (Table.mem_rows.1 ha)
    have hbt' := s.named b.1 b.2 (Table.mem_rows.1 hb)
    exact (hat'.unique hat).trans (hbt.unique hbt')

/-- The metadata of a room are its rows without their texts. -/
theorem metadata_perm (s : NodeStates) (room : Str) :
    (s.metadata room).Perm ((s.room room).map StateRow.metadata) := by
  rw [metadata, NodeStates.room, List.map_map]
  exact (List.perm_insertionSort _ _).map _

theorem slotted_metadata (s : NodeStates) (room : Str) : Slotted (s.metadata room) :=
  (slotted_room s room).metadata.perm (metadata_perm s room).symm

/-- **What a put does to the rows**: in its room the rows whose slots the policy kept stay as they
were, the new row is added, and the others go. -/
theorem put_ok {envelope : Json} {raw : Str} {now : ℤ} {activity : List PresenceRow}
    (h : s.put room envelope raw now activity = .ok t) :
    ∃ r, retainState (s.metadata room) envelope raw now activity = .ok r ∧
      (∀ row, r.added = some row → ∃ slot, row.At slot) ∧
      ∀ room' slot, t.rows.get? (room', slot) =
        if room' ≠ room then s.rows.get? (room', slot)
        else if r.added.any (fun row => row.slot? = some slot) then r.added
        else if r.kept.any (fun row => row.slot? = some slot) then s.rows.get? (room, slot)
        else none := by
  obtain ⟨r, hr, h⟩ := except_bind_ok.1 h
  refine ⟨r, hr, ?_⟩
  have hperm := kept_append_dropped hr
  have hslotted := (slotted_metadata s room).perm hperm.symm
  -- a stored row is deleted exactly when its slot is not kept
  have hget : ∀ room' slot, (s.remove room r.dropped).rows.get? (room', slot) =
      if room' ≠ room then s.rows.get? (room', slot)
      else if r.kept.any (fun row => row.slot? = some slot) then s.rows.get? (room, slot)
      else none := fun room' slot => by
    rw [remove, Table.get?_filter]
    by_cases hroom : room' = room
    · subst hroom
      rw [if_neg (not_not.2 rfl)]
      cases hrow : s.rows.get? (room', slot) with
      | none => simp
      | some row =>
        by_cases hkept : r.kept.any (fun row => row.slot? = some slot) = true
        · rw [if_pos hkept, Option.filter_some, if_pos]
          rw [Bool.not_eq_true', Bool.and_eq_false_iff, List.any_eq_false]
          refine .inr fun old hold hat => ?_
          obtain ⟨row', hrow', hat'⟩ := List.any_eq_true.1 hkept
          exact (List.pairwise_append.1 hslotted.distinct).2.2 row' hrow' old hold slot
            (StateRow.slot?_eq_some.1 (of_decide_eq_true hat'))
            (StateRow.slot?_eq_some.1 (of_decide_eq_true hat))
        · rw [if_neg hkept, Option.filter_some, if_neg]
          rw [Bool.not_eq_true', Bool.and_eq_false_iff, not_or, Bool.not_eq_false,
            Bool.not_eq_false]
          have hslot := StateRow.slot?_eq_some.2 (s.named _ _ hrow)
          have hmem : row.metadata ∈ r.kept ++ r.dropped := hperm.mem_iff.2
            ((metadata_perm s room').mem_iff.2 (List.mem_map_of_mem (mem_room.2 ⟨slot, hrow⟩)))
          refine ⟨decide_eq_true rfl, List.any_eq_true.2 ⟨row.metadata, ?_, decide_eq_true hslot⟩⟩
          refine (List.mem_append.1 hmem).resolve_left fun hin => hkept ?_
          exact List.any_eq_true.2 ⟨row.metadata, hin, decide_eq_true hslot⟩
    · rw [if_pos hroom]
      cases s.rows.get? (room', slot) with
      | none => rfl
      | some row => simp [hroom]
  cases hadded : r.added with
  | none =>
    rw [hadded] at h
    cases h
    refine ⟨nofun, fun room' slot => ?_⟩
    rw [hget]
    rfl
  | some row =>
    rw [hadded] at h
    dsimp only at h
    unfold insert at h
    split at h
    · cases h
    · rename_i slot₀ hslot₀
      split_ifs at h
      cases h
      refine ⟨fun row' hrow' => ?_, fun room' slot => ?_⟩
      · cases hrow'
        exact ⟨slot₀, StateRow.slot?_eq_some.1 hslot₀⟩
      · rw [Table.get?_put, hget, Option.any_some, hslot₀]
        by_cases hroom : room' = room
        · subst hroom
          by_cases hslot : slot = slot₀
          · subst hslot
            simp
          · simp [hslot, Ne.symm hslot]
        · simp [hroom]

end NodeStates

end GrantTap
