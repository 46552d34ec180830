import GrantTapRelay.Library.Chunks
import GrantTapRelay.RetainedState.Policy

/-!
# Retained state on the Worker

`src/retainedState/worker.js` over the storage of a Durable Object: `state:index` lists the rows,
`state:recipient:key` holds the metadata of one, and its text is cut into chunks at
`state:recipient:key:index`. Recipients and keys hold no colon, so the keys are pairs and triples
of their texts.

A text is cut by UTF-16 units, and a row is deleted by its UTF-8 size, which is at least that
large (`length_le_utf8Length`), so that a deleted row leaves no chunk (`Content.remove`).
-/

namespace GrantTap

open Js

def STATE_CHUNK : ℕ := 60000

/-- `Math.ceil(n / 60000)` -/
def chunkCount (n : ℕ) : ℕ := Chunks.count STATE_CHUNK n

/-- `raw.slice(i * 60000, (i + 1) * 60000)` -/
def stateChunk (raw : Str) (i : ℕ) : Str := Chunks.slice STATE_CHUNK raw i

/-- A stored value under `state:recipient:key`. -/
structure StateMetadata where
  row : StateRow
  chunks : ℕ

/-- The storage of `WorkerRetainedState`. -/
structure WorkerStates where
  index : Option (List (Json × Json))
  metadata : Table Slot StateMetadata
  chunks : Table (Str × Str × ℕ) Str

namespace WorkerStates

def empty : WorkerStates := ⟨none, .empty, .empty⟩

/-- `key(row)` -/
def keyOf (recipient key : Json) : Slot := (acceptedText recipient, acceptedText key)

/-- `key(row, chunk)` -/
def chunkKey (slot : Slot) (i : ℕ) : Str × Str × ℕ := (slot.1, slot.2, i)

/-- The chunks of a row, unless one is missing. -/
def readText (s : WorkerStates) (slot : Slot) (count : ℕ) : Option Str :=
  ((List.range count).mapM fun i => s.chunks.get? (chunkKey slot i)).map List.flatten

/-- The row of an index entry, when it is complete. -/
def readRow (s : WorkerStates) (entry : Json × Json) : Option StateRow := do
  let slot := keyOf entry.1 entry.2
  let metadata ← s.metadata.get? slot
  let raw ← s.readText slot metadata.chunks
  return { metadata.row with raw := raw }

/-- `rows()` -/
def rows (s : WorkerStates) : List StateRow := (s.index.getD []).filterMap s.readRow

/-- `remove(row)` -/
def remove (s : WorkerStates) (row : StateRow) : WorkerStates :=
  let slot := keyOf row.recipient row.key
  { s with
    metadata := s.metadata.erase slot
    chunks := s.chunks.eraseAll (chunkKey slot) (List.range (chunkCount row.bytes)) }

/-- The storage of a new row: its chunks, then its metadata. -/
def write (s : WorkerStates) (row : StateRow) : WorkerStates :=
  let slot := keyOf row.recipient row.key
  let count := chunkCount row.raw.length
  { s with
    metadata := s.metadata.put slot ⟨row.metadata, count⟩
    chunks := s.chunks.putAll (chunkKey slot) (stateChunk row.raw) (List.range count) }

def put (s : WorkerStates) (envelope : Json) (raw : Str) (now : ℤ)
    (activity : List PresenceRow) : Except Throw WorkerStates := do
  let before := s.rows
  let r ← retainState before envelope raw now activity
  let s := r.dropped.foldl remove s
  let s := r.added.elim s s.write
  return { s with index := some (r.rows.map fun row => (row.recipient, row.key)) }

def list (s : WorkerStates) (recipient : Option Str) (now : ℤ) : List StateRow :=
  replayState s.rows recipient now

/-! ## The storage of some rows -/

theorem chunkKey_injective (slot : Slot) : Function.Injective (chunkKey slot) := fun i j h => by
  simpa [chunkKey] using h

theorem keyOf_str (slot : Slot) : keyOf (.str slot.1) (.str slot.2) = slot := by
  simp [keyOf, acceptedText, Json.toText]

theorem keyOf_of_at {row : StateRow} {slot : Slot} (h : row.At slot) :
    keyOf row.recipient row.key = slot := by
  rw [h.1, h.2, keyOf_str]

/-- The metadata and the chunks are exactly those of the rows that `f` has in each slot. -/
structure Content (s : WorkerStates) (f : Slot → Option StateRow) : Prop where
  metadata : ∀ slot, s.metadata.get? slot =
    (f slot).map fun row => ⟨row.metadata, chunkCount row.raw.length⟩
  chunks : ∀ slot i, s.chunks.get? (chunkKey slot i) =
    (f slot).bind fun row => if i < chunkCount row.raw.length then some (stateChunk row.raw i)
      else none
  at_slot : ∀ slot row, f slot = some row → row.At slot
  size : ∀ slot row, f slot = some row → row.raw.length ≤ row.bytes

namespace Content

variable {s : WorkerStates} {f : Slot → Option StateRow}

/-- A row is read back. -/
theorem readRow (h : s.Content f) (slot : Slot) :
    s.readRow (.str slot.1, .str slot.2) = f slot := by
  unfold WorkerStates.readRow
  rw [keyOf_str]
  dsimp only
  rw [h.metadata]
  cases hrow : f slot with
  | none => rfl
  | some row =>
    have hchunks : s.readText slot (chunkCount row.raw.length) = some row.raw := by
      unfold readText
      rw [Chunks.mapM_some (g := stateChunk row.raw) fun i hi => ?_]
      · exact congrArg some (Chunks.flatten_slices (by decide) row.raw)
      · rw [h.chunks, hrow, Option.bind_some, if_pos (List.mem_range.1 hi)]
    simp only [Option.map_some, bind, Option.bind_some, hchunks]
    rfl

/-- Deleting a row. -/
theorem remove (h : s.Content f) {slot : Slot} {row : StateRow} (hrow : f slot = some row) :
    (s.remove row).Content (Function.update f slot none) := by
  have hat := h.at_slot slot row hrow
  refine ⟨fun slot' => ?_, fun slot' i => ?_, fun slot' row' h' => ?_, fun slot' row' h' => ?_⟩
  · simp only [WorkerStates.remove, keyOf_of_at hat, Table.get?_erase]
    by_cases he : slot' = slot
    · rw [if_pos he, he, Function.update_self]
      rfl
    · rw [if_neg he, Function.update_of_ne he, h.metadata]
  · simp only [WorkerStates.remove, keyOf_of_at hat, Table.get?_eraseAll]
    by_cases he : slot' = slot
    · subst he
      rw [Function.update_self, Option.bind_none]
      split_ifs with hin
      · rfl
      · rw [h.chunks, hrow, Option.bind_some, if_neg fun hlt => hin ?_]
        have hle := Chunks.count_mono STATE_CHUNK (h.size slot' row hrow)
        exact List.mem_map_of_mem (List.mem_range.2 (lt_of_lt_of_le hlt hle))
    · rw [Function.update_of_ne he, if_neg, h.chunks]
      intro hin
      obtain ⟨j, -, hj⟩ := List.mem_map.1 hin
      simp only [chunkKey, Prod.mk.injEq] at hj
      exact he (Prod.ext hj.1.symm hj.2.1.symm)
  · by_cases he : slot' = slot
    · rw [he, Function.update_self] at h'
      cases h'
    · rw [Function.update_of_ne he] at h'
      exact h.at_slot slot' row' h'
  · by_cases he : slot' = slot
    · rw [he, Function.update_self] at h'
      cases h'
    · rw [Function.update_of_ne he] at h'
      exact h.size slot' row' h'

/-- Writing a row into an empty slot. -/
theorem write (h : s.Content f) {slot : Slot} {row : StateRow} (hnone : f slot = none)
    (hat : row.At slot) (hsize : row.raw.length ≤ row.bytes) :
    (s.write row).Content (Function.update f slot (some row)) := by
  refine ⟨fun slot' => ?_, fun slot' i => ?_, fun slot' row' h' => ?_, fun slot' row' h' => ?_⟩
  · simp only [WorkerStates.write, keyOf_of_at hat, Table.get?_put]
    by_cases he : slot' = slot
    · rw [if_pos he, he, Function.update_self, Option.map_some]
    · rw [if_neg he, Function.update_of_ne he, h.metadata]
  · simp only [WorkerStates.write, keyOf_of_at hat]
    by_cases he : slot' = slot
    · subst he
      rw [Function.update_self, Option.bind_some]
      by_cases hlt : i < chunkCount row.raw.length
      · rw [if_pos hlt, Table.get?_putAll_of_mem _ (chunkKey_injective slot') _
          (List.mem_range.2 hlt)]
      · rw [if_neg hlt, Table.get?_putAll_of_notMem, h.chunks, hnone, Option.bind_none]
        intro hin
        obtain ⟨j, hj, he⟩ := List.mem_map.1 hin
        rw [chunkKey_injective slot' he] at hj
        exact hlt (List.mem_range.1 hj)
    · rw [Function.update_of_ne he, Table.get?_putAll_of_notMem, h.chunks]
      intro hin
      obtain ⟨j, -, hj⟩ := List.mem_map.1 hin
      simp only [chunkKey, Prod.mk.injEq] at hj
      exact he (Prod.ext hj.1.symm hj.2.1.symm)
  · by_cases he : slot' = slot
    · subst he
      rw [Function.update_self] at h'
      cases h'
      exact hat
    · rw [Function.update_of_ne he] at h'
      exact h.at_slot slot' row' h'
  · by_cases he : slot' = slot
    · subst he
      rw [Function.update_self] at h'
      cases h'
      exact hsize
    · rw [Function.update_of_ne he] at h'
      exact h.size slot' row' h'

end Content

/-! ## What is read was written -/

/-- The metadata and the chunks of each slot are those of one row that satisfies `P`. -/
def Written (P : StateRow → Prop) (s : WorkerStates) : Prop :=
  ∀ slot m, s.metadata.get? slot = some m → ∃ row, P row ∧
    m = ⟨row.metadata, chunkCount row.raw.length⟩ ∧
    ∀ i < chunkCount row.raw.length,
      s.chunks.get? (chunkKey slot i) = some (stateChunk row.raw i)

namespace Written

variable {P Q : StateRow → Prop} {s t : WorkerStates}

theorem empty (P : StateRow → Prop) : Written P .empty := fun _ _ h => by cases h

theorem mono (h : Written P s) (hle : ∀ row, P row → Q row) : Written Q s := fun slot m hm => by
  obtain ⟨row, hrow, hread⟩ := h slot m hm
  exact ⟨row, hle row hrow, hread⟩

theorem remove (h : Written P s) (row : StateRow) : Written P (s.remove row) := by
  intro slot m hm
  simp only [WorkerStates.remove, Table.get?_erase] at hm
  split_ifs at hm with hslot
  obtain ⟨row', hrow', he, hchunks⟩ := h slot m hm
  refine ⟨row', hrow', he, fun i hi => ?_⟩
  simp only [WorkerStates.remove, Table.get?_eraseAll]
  rw [if_neg, hchunks i hi]
  intro hin
  obtain ⟨j, -, hj⟩ := List.mem_map.1 hin
  simp only [chunkKey, Prod.mk.injEq] at hj
  exact hslot (Prod.ext hj.1.symm hj.2.1.symm)

theorem write (h : Written P s) {row : StateRow} (hrow : P row) : Written P (s.write row) := by
  intro slot m hm
  simp only [WorkerStates.write, Table.get?_put] at hm
  split_ifs at hm with hslot
  · cases hm
    refine ⟨row, hrow, rfl, fun i hi => ?_⟩
    simp only [WorkerStates.write]
    rw [hslot, Table.get?_putAll_of_mem _ (chunkKey_injective _) _ (List.mem_range.2 hi)]
  · obtain ⟨row', hrow', he, hchunks⟩ := h slot m hm
    refine ⟨row', hrow', he, fun i hi => ?_⟩
    simp only [WorkerStates.write]
    rw [Table.get?_putAll_of_notMem, hchunks i hi]
    intro hin
    obtain ⟨j, -, hj⟩ := List.mem_map.1 hin
    simp only [chunkKey, Prod.mk.injEq] at hj
    exact hslot (Prod.ext hj.1.symm hj.2.1.symm)

theorem of_mem_rows (h : Written P s) {row : StateRow} (hrow : row ∈ s.rows) : P row := by
  obtain ⟨entry, -, hread⟩ := List.mem_filterMap.1 hrow
  unfold WorkerStates.readRow at hread
  dsimp only at hread
  obtain ⟨m, hm, hread⟩ := Option.bind_eq_some_iff.1 hread
  obtain ⟨raw, hraw, hread⟩ := Option.bind_eq_some_iff.1 hread
  obtain ⟨row', hrow', rfl, hchunks⟩ := h _ m hm
  have htext : s.readText (keyOf entry.1 entry.2) (chunkCount row'.raw.length) =
      some row'.raw := by
    unfold readText
    rw [Chunks.mapM_some fun i hi => hchunks i (List.mem_range.1 hi)]
    exact congrArg some (Chunks.flatten_slices (by decide) row'.raw)
  obtain rfl := Option.some_inj.1 (htext.symm.trans hraw)
  cases hread
  exact hrow'

/-- A put writes the row of its envelope. -/
theorem put (h : Written P s) {envelope : Json} {raw : Str} {now : ℤ}
    {activity : List PresenceRow} (hput : s.put envelope raw now activity = .ok t)
    (hnew : retainable envelope raw now = .ok true → P (stateRow envelope raw now)) :
    Written P t := by
  obtain ⟨r, hr, hput⟩ := except_bind_ok.1 hput
  cases hput
  have hremoved : Written P (r.dropped.foldl WorkerStates.remove s) :=
    List.foldlRecOn r.dropped WorkerStates.remove h fun v hv row _ => hv.remove row
  cases hadded : r.added with
  | none => exact hremoved
  | some row =>
    rcases retainState_ok hr with ⟨⟨-, hnone⟩, -⟩ | ⟨hok, -, -, hrow, -⟩
    · rw [hadded] at hnone
      cases hnone
    · exact hremoved.write (hrow row hadded ▸ hnew hok)

end Written

/-- **The storage of some rows**: the index lists them, and nothing else is stored. -/
structure Holds (s : WorkerStates) (rows : List StateRow) : Prop where
  slotted : Slotted rows
  index : s.index.getD [] = rows.map fun row => (row.recipient, row.key)
  content : s.Content (rowAt rows)

theorem Holds.empty : WorkerStates.empty.Holds [] :=
  ⟨.nil, rfl, ⟨fun _ => rfl, fun _ _ => rfl, nofun, nofun⟩⟩

/-- The rows are read back in their order. -/
theorem Holds.rows_eq {s : WorkerStates} {rows : List StateRow} (h : s.Holds rows) :
    s.rows = rows := by
  have hread : ∀ row ∈ rows, s.readRow (row.recipient, row.key) = some row := fun row hrow => by
    obtain ⟨slot, hat⟩ := h.slotted.texts row hrow
    rw [hat.1, hat.2, h.content.readRow, h.slotted.rowAt_eq_some]
    exact ⟨hrow, hat⟩
  rw [WorkerStates.rows, h.index, List.filterMap_map]
  calc rows.filterMap (s.readRow ∘ fun row => (row.recipient, row.key))
      = rows.filterMap some := List.filterMap_congr hread
    _ = rows := List.filterMap_some

/-- Deleting some rows. -/
theorem Content.removeAll {s : WorkerStates} {f : Slot → Option StateRow} (h : s.Content f)
    {removed : List StateRow} (hs : Slotted removed)
    (hf : ∀ row ∈ removed, ∀ slot, row.At slot → f slot = some row) :
    (removed.foldl WorkerStates.remove s).Content fun slot =>
      if (rowAt removed slot).isSome then none else f slot := by
  induction removed generalizing s f with
  | nil => exact h
  | cons row removed ih =>
    obtain ⟨slot₀, hat⟩ := hs.texts row List.mem_cons_self
    have htail := hs.sublist (List.sublist_cons_self row removed)
    have hne : ∀ old ∈ removed, ¬old.At slot₀ := fun old hold =>
      (List.pairwise_cons.1 hs.distinct).1 old hold slot₀ hat
    have hnext := ih (h.remove (hf row List.mem_cons_self slot₀ hat)) htail
      fun old hold slot hslot => by
        have hother : slot ≠ slot₀ := fun e => hne old hold (e ▸ hslot)
        rw [Function.update_of_ne hother]
        exact hf old (List.mem_cons_of_mem _ hold) slot hslot
    rw [List.foldl_cons]
    convert hnext using 2 with slot
    by_cases he : slot = slot₀
    · subst he
      rw [rowAt_cons, if_pos (StateRow.slot?_eq_some.2 hat), Function.update_self]
      simp
    · rw [rowAt_cons, if_neg fun hpos => he ((StateRow.slot?_eq_some.1 hpos).unique hat),
        Function.update_of_ne he]

/-- **A put stores exactly the rows of the policy.** -/
theorem Holds.put {s t : WorkerStates} {rows : List StateRow} (h : s.Holds rows) {envelope : Json}
    {raw : Str} {now : ℤ} {activity : List PresenceRow} {slot : Slot} (hn : Names envelope slot)
    (hput : s.put envelope raw now activity = .ok t) :
    ∃ r, retainState rows envelope raw now activity = .ok r ∧ t.Holds r.rows := by
  obtain ⟨r, hr, hput⟩ := except_bind_ok.1 hput
  cases hput
  rw [h.rows_eq] at hr
  refine ⟨r, hr, h.slotted.retainState hn hr, rfl, ?_⟩
  have hperm := kept_append_dropped hr
  have hslotted := h.slotted.perm hperm.symm
  have hkept := hslotted.sublist (List.sublist_append_left r.kept r.dropped)
  have hdropped := hslotted.sublist (List.sublist_append_right r.kept r.dropped)
  have hall := h.slotted.retainState hn hr
  have hremoved := h.content.removeAll hdropped fun row hrow slot' hat =>
    h.slotted.rowAt_eq_some.2 ⟨hperm.mem_iff.1 (List.mem_append_right _ hrow), hat⟩
  -- what is left after the deletions are the kept rows
  have hleft : (fun slot' => if (rowAt r.dropped slot').isSome then none else rowAt rows slot') =
      rowAt r.kept := by
    funext slot'
    refine Option.ext fun row => ?_
    rw [hkept.rowAt_eq_some]
    split_ifs with hgone
    · obtain ⟨old, hold⟩ := Option.isSome_iff_exists.1 hgone
      obtain ⟨hmem, hat⟩ := hdropped.rowAt_eq_some.1 hold
      refine ⟨nofun, fun ⟨hrow, hat'⟩ => ?_⟩
      exact absurd hat ((List.pairwise_append.1 hslotted.distinct).2.2 row hrow old hmem slot' hat')
    · rw [h.slotted.rowAt_eq_some, ← hperm.mem_iff, List.mem_append]
      constructor
      · rintro ⟨hrow | hrow, hat⟩
        · exact ⟨hrow, hat⟩
        · exact absurd (Option.isSome_iff_exists.2
            ⟨row, hdropped.rowAt_eq_some.2 ⟨hrow, hat⟩⟩) hgone
      · exact fun ⟨hrow, hat⟩ => ⟨.inl hrow, hat⟩
  rw [hleft] at hremoved
  cases hadded : r.added with
  | none =>
    have hrows : r.rows = r.kept := by rw [Retained.rows, hadded, Option.toList_none, List.append_nil]
    rw [hrows]
    exact ⟨hremoved.metadata, hremoved.chunks, hremoved.at_slot, hremoved.size⟩
  | some row =>
    have hrows : r.rows = r.kept ++ [row] := by rw [Retained.rows, hadded, Option.toList_some]
    have hrow : row = stateRow envelope raw now := by
      rcases retainState_ok hr with ⟨⟨-, hnone⟩, -⟩ | ⟨-, -, -, hnew, -⟩
      · rw [hadded] at hnone
        cases hnone
      · exact hnew row hadded
    have hat : row.At slot := hrow ▸ stateRow_at hn raw now
    have hempty : rowAt r.kept slot = none := by
      refine Option.eq_none_iff_forall_ne_some.2 fun old hold => ?_
      obtain ⟨hmem, hat'⟩ := hkept.rowAt_eq_some.1 hold
      rw [hrows] at hall
      exact (List.pairwise_append.1 hall.distinct).2.2 old hmem row (List.mem_singleton.2 rfl)
        slot hat' hat
    have hsize : row.raw.length ≤ row.bytes := by
      rw [hrow]
      exact length_le_utf8Length raw
    have hwrite := hremoved.write hempty hat hsize
    have hfinal : Function.update (rowAt r.kept) slot (some row) = rowAt r.rows := by
      funext slot'
      refine Option.ext fun row' => ?_
      rw [hall.rowAt_eq_some, hrows, List.mem_append, List.mem_singleton]
      by_cases he : slot' = slot
      · subst he
        rw [Function.update_self, Option.some_inj]
        constructor
        · rintro rfl
          exact ⟨.inr rfl, hat⟩
        · rintro ⟨hmem | rfl, hat'⟩
          · have hin := hkept.rowAt_eq_some.2 ⟨hmem, hat'⟩
            rw [hempty] at hin
            cases hin
          · rfl
      · rw [Function.update_of_ne he, hkept.rowAt_eq_some]
        constructor
        · exact fun ⟨hmem, hat'⟩ => ⟨.inl hmem, hat'⟩
        · rintro ⟨hmem | rfl, hat'⟩
          · exact ⟨hmem, hat'⟩
          · exact absurd (hat'.unique hat) he
    rw [hfinal] at hwrite
    exact ⟨hwrite.metadata, hwrite.chunks, hwrite.at_slot, hwrite.size⟩

end WorkerStates

end GrantTap
