import GrantTapRelay.Library.Histories
import GrantTapRelay.RetainedState.Convergence

/-!
# Retained state whose storage fails

A put of the Worker is a list of storage operations, and a failure of any of them ends it there;
`pending` swallows the failure, and the next put starts from what is stored. The operations are
ordered so that a half-written frame is not listed: a replaced row is deleted chunk by chunk before
its metadata, and a new row's metadata and the index are written last.

* `putOps`: the operations of a put, which together are the put (`put_eq_putOps`).
* `CutPut.stop`: a put that stops after some of them.
* `Whole`: what is listed and complete was sent.
* `replayed_frames_are_sent`: **what is replayed was sent**, as long as no put stops among its
  chunks over metadata that finds all of its own (`CutPut.mixes`); one that does is read with the
  first of those chunks (`mixed_row`).
* `interrupted_puts_mix_frames`: metadata that lost its chunks to one interrupted put is given
  those of another frame by the next.
-/

namespace GrantTap

open Js Histories

/-- An operation on the storage. -/
inductive StateOp
  | deleteChunk (slot : Slot) (i : ℕ)
  | deleteMetadata (slot : Slot)
  | putChunk (slot : Slot) (i : ℕ) (text : Str)
  | putMetadata (slot : Slot) (metadata : StateMetadata)
  | putIndex (index : List (Json × Json))

namespace WorkerStates

/-- The storage after an operation. -/
def apply (s : WorkerStates) : StateOp → WorkerStates
  | .deleteChunk slot i => { s with chunks := s.chunks.erase (chunkKey slot i) }
  | .deleteMetadata slot => { s with metadata := s.metadata.erase slot }
  | .putChunk slot i text => { s with chunks := s.chunks.put (chunkKey slot i) text }
  | .putMetadata slot metadata => { s with metadata := s.metadata.put slot metadata }
  | .putIndex index => { s with index := some index }

/-- The operations of `remove(row)`. -/
def removeOps (row : StateRow) : List StateOp :=
  let slot := keyOf row.recipient row.key
  (List.range (chunkCount row.bytes)).map (.deleteChunk slot) ++ [.deleteMetadata slot]

/-- The writes of the chunks of a new row. -/
def chunkOps (row : StateRow) : List StateOp :=
  (List.range (chunkCount row.raw.length)).map fun i =>
    .putChunk (keyOf row.recipient row.key) i (stateChunk row.raw i)

/-- The operations that store a new row. -/
def writeOps (row : StateRow) : List StateOp :=
  chunkOps row ++
    [.putMetadata (keyOf row.recipient row.key) ⟨row.metadata, chunkCount row.raw.length⟩]

/-- The operations of a put that removes some rows. -/
def putOps (r : Retained) (removed : List StateRow) : List StateOp :=
  removed.flatMap removeOps ++ (r.added.elim [] writeOps ++
    [.putIndex (r.rows.map fun row => (row.recipient, row.key))])

/-! ## The operations of a put are the put -/

theorem foldl_removeOps (s : WorkerStates) (row : StateRow) :
    (removeOps row).foldl apply s = s.remove row := by
  have hchunks : ∀ (slot : Slot) (l : List ℕ) (s : WorkerStates),
      (l.map (.deleteChunk slot)).foldl apply s =
        { s with chunks := s.chunks.eraseAll (chunkKey slot) l } := by
    intro slot l
    induction l with
    | nil => intro s; rfl
    | cons i l ih => intro s; exact ih _
  rw [removeOps, List.foldl_append, hchunks]
  rfl

theorem foldl_removals (s : WorkerStates) (removed : List StateRow) :
    (removed.flatMap removeOps).foldl apply s = removed.foldl remove s := by
  induction removed generalizing s with
  | nil => rfl
  | cons row removed ih =>
    rw [List.flatMap_cons, List.foldl_append, foldl_removeOps, ih, List.foldl_cons]

/-- The storage after the first chunks of a new row. -/
def writeChunks (s : WorkerStates) (row : StateRow) (k : ℕ) : WorkerStates :=
  let slot := keyOf row.recipient row.key
  { s with chunks := s.chunks.putAll (chunkKey slot) (stateChunk row.raw) (List.range k) }

theorem foldl_chunkOps (s : WorkerStates) (row : StateRow) (k : ℕ) :
    ((chunkOps row).take k).foldl apply s =
      s.writeChunks row (min k (chunkCount row.raw.length)) := by
  have hchunks : ∀ (slot : Slot) (text : ℕ → Str) (l : List ℕ) (s : WorkerStates),
      (l.map fun i => StateOp.putChunk slot i (text i)).foldl apply s =
        { s with chunks := s.chunks.putAll (chunkKey slot) text l } := by
    intro slot text l
    induction l with
    | nil => intro s; rfl
    | cons i l ih => intro s; exact ih _
  rw [chunkOps, ← List.map_take, List.take_range, hchunks]
  rfl

theorem foldl_writeOps (s : WorkerStates) (row : StateRow) :
    (writeOps row).foldl apply s = s.write row := by
  have hchunks := foldl_chunkOps s row (chunkOps row).length
  rw [List.take_length] at hchunks
  rw [writeOps, List.foldl_append, hchunks, chunkOps, List.length_map, List.length_range, min_self]
  rfl

/-- Metadata that is left after some deletions was there. -/
theorem metadata_removeAll {s : WorkerStates} {removed : List StateRow} {slot : Slot}
    {m : StateMetadata} (h : (removed.foldl remove s).metadata.get? slot = some m) :
    s.metadata.get? slot = some m := by
  induction removed generalizing s with
  | nil => exact h
  | cons row removed ih =>
    have hm := ih h
    simp only [remove, Table.get?_erase] at hm
    split_ifs at hm
    exact hm

theorem length_chunkOps (row : StateRow) : (chunkOps row).length = chunkCount row.raw.length := by
  rw [chunkOps, List.length_map, List.length_range]

/-- A write that stops among the chunks, or right after them. -/
theorem foldl_take_chunks (s : WorkerStates) (row : StateRow) (op : StateOp) {k : ℕ}
    (hk : k ≤ chunkCount row.raw.length) :
    ((writeOps row ++ [op]).take k).foldl apply s = s.writeChunks row k := by
  rw [writeOps, List.append_assoc, List.take_append, length_chunkOps, Nat.sub_eq_zero_of_le hk,
    List.foldl_append, foldl_chunkOps, Nat.min_eq_left hk]
  rfl

/-- A write that goes on after the metadata. -/
theorem foldl_take_writes (s : WorkerStates) (row : StateRow) (op : StateOp) (k : ℕ) :
    ((writeOps row ++ [op]).take (chunkCount row.raw.length + k + 1)).foldl apply s =
      ([op].take k).foldl apply (s.write row) := by
  have hlength : (writeOps row).length = chunkCount row.raw.length + 1 := by
    rw [writeOps, List.length_append, length_chunkOps]
    rfl
  have hle : (writeOps row).length ≤ chunkCount row.raw.length + k + 1 := by omega
  have hsub : chunkCount row.raw.length + k + 1 - (writeOps row).length = k := by omega
  rw [List.take_append, List.take_of_length_le hle, hsub, List.foldl_append, foldl_writeOps]

/-- **A put whose operations all succeed is the put.** -/
theorem put_eq_putOps {s : WorkerStates} {envelope : Json} {raw : Str} {now : ℤ}
    {activity : List PresenceRow} {r : Retained}
    (hr : retainState s.rows envelope raw now activity = .ok r) :
    s.put envelope raw now activity = .ok ((putOps r r.dropped).foldl apply s) := by
  rw [putOps, List.foldl_append, List.foldl_append, foldl_removals]
  unfold put
  dsimp only
  rw [hr]
  cases hadded : r.added with
  | none => simp only [bind, Except.bind, hadded]; rfl
  | some row =>
    rw [Option.elim_some, foldl_writeOps]
    simp only [bind, Except.bind, hadded]
    rfl

/-! ## What is read -/

theorem readRow_eq_some {s : WorkerStates} {entry : Json × Json} {row : StateRow} :
    s.readRow entry = some row ↔ ∃ m raw, s.metadata.get? (keyOf entry.1 entry.2) = some m ∧
      s.readText (keyOf entry.1 entry.2) m.chunks = some raw ∧
      row = { m.row with raw := raw } := by
  unfold readRow
  constructor
  · intro h
    obtain ⟨m, hm, h⟩ := Option.bind_eq_some_iff.1 h
    obtain ⟨raw, hraw, h⟩ := Option.bind_eq_some_iff.1 h
    cases h
    exact ⟨m, raw, hm, hraw, rfl⟩
  · rintro ⟨m, raw, hm, hraw, rfl⟩
    simp only [bind, hm, Option.bind_some, hraw]
    rfl

/-- The chunks that are read are stored. -/
theorem readText_eq_some {s : WorkerStates} {slot : Slot} {n : ℕ} {raw : Str} :
    s.readText slot n = some raw ↔ ∃ text : ℕ → Str, raw = ((List.range n).map text).flatten ∧
      ∀ i < n, s.chunks.get? (chunkKey slot i) = some (text i) := by
  unfold readText
  constructor
  · intro h
    obtain ⟨l, hl, rfl⟩ := Option.map_eq_some_iff.1 h
    obtain ⟨rfl, hread⟩ := Chunks.mapM_eq_some hl []
    exact ⟨_, rfl, fun i hi => hread i (List.mem_range.2 hi)⟩
  · rintro ⟨text, rfl, htext⟩
    rw [Chunks.mapM_some fun i hi => htext i (List.mem_range.1 hi)]
    rfl

/-- A row is read from its metadata and its chunks. -/
theorem readRow_congr {s t : WorkerStates} {entry : Json × Json}
    (hmetadata : s.metadata.get? (keyOf entry.1 entry.2) = t.metadata.get? (keyOf entry.1 entry.2))
    (hchunks : ∀ i, s.chunks.get? (chunkKey (keyOf entry.1 entry.2) i) =
      t.chunks.get? (chunkKey (keyOf entry.1 entry.2) i)) :
    s.readRow entry = t.readRow entry := by
  unfold readRow readText
  simp only [hmetadata, hchunks]

/-- The chunks of a slot are not those of another. -/
theorem get?_writeChunks_of_ne (s : WorkerStates) {row : StateRow} {slot : Slot}
    (h : slot ≠ keyOf row.recipient row.key) (k i : ℕ) :
    (s.writeChunks row k).chunks.get? (chunkKey slot i) = s.chunks.get? (chunkKey slot i) := by
  refine Table.get?_putAll_of_notMem s.chunks _ fun hin => ?_
  obtain ⟨j, -, hj⟩ := List.mem_map.1 hin
  simp only [chunkKey, Prod.mk.injEq] at hj
  exact h (Prod.ext hj.1.symm hj.2.1.symm)

theorem get?_writeChunks_of_le (s : WorkerStates) (row : StateRow) {k i : ℕ} (h : k ≤ i) :
    (s.writeChunks row k).chunks.get? (chunkKey (keyOf row.recipient row.key) i) =
      s.chunks.get? (chunkKey (keyOf row.recipient row.key) i) := by
  refine Table.get?_putAll_of_notMem s.chunks _ fun hin => ?_
  obtain ⟨j, hj, he⟩ := List.mem_map.1 hin
  rw [chunkKey_injective _ he] at hj
  exact absurd (List.mem_range.1 hj) h.not_gt

theorem get?_writeChunks (s : WorkerStates) (row : StateRow) {k i : ℕ} (h : i < k) :
    (s.writeChunks row k).chunks.get? (chunkKey (keyOf row.recipient row.key) i) =
      some (stateChunk row.raw i) :=
  Table.get?_putAll_of_mem _ (chunkKey_injective _) _ (List.mem_range.2 h)

/-- A complete row is read back. -/
theorem readRow_write {s : WorkerStates} {row row' : StateRow} {entry : Json × Json}
    (h : (s.write row).readRow entry = some row')
    (hslot : keyOf entry.1 entry.2 = keyOf row.recipient row.key) : row' = row := by
  obtain ⟨m, raw, hm, hraw, rfl⟩ := readRow_eq_some.1 h
  rw [hslot] at hm hraw
  simp only [write, Table.get?_put, if_true] at hm
  cases hm
  obtain ⟨text, rfl, hread⟩ := readText_eq_some.1 hraw
  have htext : (List.range (chunkCount row.raw.length)).map text =
      (List.range (chunkCount row.raw.length)).map (stateChunk row.raw) := by
    refine List.map_congr_left fun i hi => ?_
    have hi := List.mem_range.1 hi
    exact Option.some_inj.1 ((hread i hi).symm.trans (get?_writeChunks s row hi))
  have hwhole : ((List.range (chunkCount row.raw.length)).map (stateChunk row.raw)).flatten =
      row.raw := Chunks.flatten_slices (by decide) row.raw
  rw [htext, hwhole]
  rfl

/-! ## Puts that stop -/

/-- The metadata of a slot that the index lists finds all of its chunks once the first `k` of them
are there. -/
def exposes (s : WorkerStates) (slot : Slot) (k : ℕ) : Bool :=
  (s.index.getD []).any (fun entry => keyOf entry.1 entry.2 = slot) &&
    (s.metadata.get? slot).any fun m => 0 < m.chunks &&
      (List.range m.chunks).all fun i => i < k || (s.chunks.get? (chunkKey slot i)).isSome

theorem exposes_iff {s : WorkerStates} {slot : Slot} {k : ℕ} : s.exposes slot k = true ↔
    (∃ entry ∈ s.index.getD [], keyOf entry.1 entry.2 = slot) ∧
      ∃ m, s.metadata.get? slot = some m ∧ 0 < m.chunks ∧
        ∀ i < m.chunks, i < k ∨ (s.chunks.get? (chunkKey slot i)).isSome = true := by
  simp [exposes, Option.any_eq_true]

end WorkerStates

/-- A put of which only the first `done` operations succeed; it removes rows in some order. -/
structure CutPut where
  put : StatePut
  done : ℕ
  order : List StateRow → List StateRow
  order_perm : ∀ rows, (order rows).Perm rows

namespace CutPut

/-- The storage after the put. What the policy refuses, and what fails while it is read, leaves the
storage as it is. -/
def stop (s : WorkerStates) (c : CutPut) : WorkerStates :=
  match c.put.retain s.rows with
  | .error _ => s
  | .ok r => ((WorkerStates.putOps r (c.order r.dropped)).take c.done).foldl WorkerStates.apply s

/-- The storage after some puts. -/
def stopAll (cuts : List CutPut) : WorkerStates := cuts.foldl stop .empty

/-- The put stops among the chunks of its row, where metadata that is still stored finds all of its
own chunks with them. -/
def mixes (c : CutPut) (s : WorkerStates) : Bool :=
  match c.put.retain s.rows with
  | .error _ => false
  | .ok r =>
    let removed := c.order r.dropped
    let removals := (removed.flatMap WorkerStates.removeOps).length
    r.added.any fun row => removals < c.done && c.done ≤ removals + chunkCount row.raw.length &&
      (removed.foldl WorkerStates.remove s).exposes (WorkerStates.keyOf row.recipient row.key)
        (c.done - removals)

variable {c : CutPut} {s : WorkerStates} {r : Retained}

/-- A put that goes on after what it removes. -/
theorem stop_eq (hr : c.put.retain s.rows = .ok r) {k : ℕ}
    (hk : c.done = ((c.order r.dropped).flatMap WorkerStates.removeOps).length + k) :
    c.stop s = ((r.added.elim [] WorkerStates.writeOps ++
        [StateOp.putIndex (r.rows.map fun row => (row.recipient, row.key))]).take k).foldl
      WorkerStates.apply ((c.order r.dropped).foldl WorkerStates.remove s) := by
  unfold stop
  rw [hr]
  dsimp only
  rw [WorkerStates.putOps, List.take_append, List.foldl_append, hk, Nat.add_sub_cancel_left,
    List.take_of_length_le (Nat.le_add_right _ _), WorkerStates.foldl_removals]

/-- The new row is that of the put. -/
theorem row_of_added (hr : c.put.retain s.rows = .ok r) {row : StateRow}
    (hadded : r.added = some row) : c.put.row = row := by
  rcases retainState_ok hr with ⟨⟨-, hnone⟩, -⟩ | ⟨-, -, -, hnew, -⟩
  · rw [hadded] at hnone
    cases hnone
  · exact (hnew row hadded).symm

theorem mixes_iff : c.mixes s = true ↔ ∃ r row k, c.put.retain s.rows = .ok r ∧
    r.added = some row ∧
    c.done = ((c.order r.dropped).flatMap WorkerStates.removeOps).length + k ∧ 0 < k ∧
    k ≤ chunkCount row.raw.length ∧ ((c.order r.dropped).foldl WorkerStates.remove s).exposes
      (WorkerStates.keyOf row.recipient row.key) k = true := by
  unfold mixes
  constructor
  · intro h
    cases hr : c.put.retain s.rows with
    | error => rw [hr] at h; cases h
    | ok r =>
      rw [hr] at h
      obtain ⟨row, hadded, h⟩ := (Option.any_eq_true _ _).1 h
      rw [Bool.and_eq_true, Bool.and_eq_true] at h
      have hlt := of_decide_eq_true h.1.1
      obtain ⟨k, hk⟩ := Nat.exists_eq_add_of_lt hlt
      have hle := of_decide_eq_true h.1.2
      have hexposes := h.2
      rw [hk, Nat.add_assoc] at hle hexposes
      rw [Nat.add_sub_cancel_left] at hexposes
      exact ⟨r, row, k + 1, rfl, hadded, hk, Nat.succ_pos k, Nat.le_of_add_le_add_left hle, hexposes⟩
  · rintro ⟨r, row, k, hr, hadded, hk, hpos, hle, hexposes⟩
    rw [hr]
    dsimp only
    rw [hadded, Option.any_some, hk, Nat.add_sub_cancel_left, hexposes,
      decide_eq_true (Nat.lt_add_of_pos_right hpos), decide_eq_true (Nat.add_le_add_left hle _)]
    rfl

end CutPut

namespace WorkerStates

/-! ## What is listed and complete was sent -/

/-- Every row that can be read is one of those that `P` holds of, and is stored in its slot. -/
structure Whole (P : StateRow → Prop) (s : WorkerStates) : Prop where
  named : ∀ slot m, s.metadata.get? slot = some m → keyOf m.row.recipient m.row.key = slot
  sent : ∀ entry ∈ s.index.getD [], ∀ row, s.readRow entry = some row → P row

namespace Whole

variable {P : StateRow → Prop} {s t : WorkerStates}

theorem empty (P : StateRow → Prop) : Whole P .empty where
  named _ _ h := by cases h
  sent _ h := absurd h List.not_mem_nil

/-- What is left after deletions is still what it was. -/
theorem of_le (h : Whole P s) (hindex : t.index = s.index)
    (hmetadata : ∀ slot m, t.metadata.get? slot = some m → s.metadata.get? slot = some m)
    (hchunks : ∀ key text, t.chunks.get? key = some text → s.chunks.get? key = some text) :
    Whole P t where
  named slot m hm := h.named slot m (hmetadata slot m hm)
  sent entry hentry row hrow := by
    rw [hindex] at hentry
    refine h.sent entry hentry row ?_
    obtain ⟨m, raw, hm, hraw, rfl⟩ := readRow_eq_some.1 hrow
    obtain ⟨text, htext, hread⟩ := readText_eq_some.1 hraw
    exact readRow_eq_some.2 ⟨m, raw, hmetadata _ m hm,
      readText_eq_some.2 ⟨text, htext, fun i hi => hchunks _ _ (hread i hi)⟩, rfl⟩

/-- A deletion. -/
theorem delete (h : Whole P s) {row : StateRow} {op : StateOp} (hop : op ∈ removeOps row) :
    Whole P (s.apply op) := by
  rcases List.mem_append.1 hop with hop | hop
  · obtain ⟨i, -, rfl⟩ := List.mem_map.1 hop
    refine h.of_le rfl (fun slot m hm => hm) fun key text htext => ?_
    simp only [apply, Table.get?_erase] at htext
    split_ifs at htext
    exact htext
  · obtain rfl := List.mem_singleton.1 hop
    refine h.of_le rfl (fun slot m hm => ?_) fun key text htext => htext
    simp only [apply, Table.get?_erase] at hm
    split_ifs at hm
    exact hm

theorem deletes (h : Whole P s) {ops : List StateOp} {removed : List StateRow}
    (hops : ∀ op ∈ ops, op ∈ removed.flatMap removeOps) : Whole P (ops.foldl apply s) :=
  List.foldlRecOn ops apply h fun v hv op hop => by
    obtain ⟨row, -, hop⟩ := List.mem_flatMap.1 (hops op hop)
    exact hv.delete hop

/-- Some chunks of a new row, over metadata that misses one of its own. -/
theorem writeChunks (h : Whole P s) {row : StateRow} {k : ℕ}
    (hk : 0 < k → s.exposes (keyOf row.recipient row.key) k = false) :
    Whole P (s.writeChunks row k) where
  named := h.named
  sent entry hentry row' hrow := by
    by_cases hslot : keyOf entry.1 entry.2 = keyOf row.recipient row.key
    · obtain ⟨m, raw, hm, hraw, rfl⟩ := readRow_eq_some.1 hrow
      obtain ⟨text, rfl, hread⟩ := readText_eq_some.1 hraw
      rw [hslot] at hread
      have hbefore : ∀ i < m.chunks, s.chunks.get? (chunkKey (keyOf row.recipient row.key) i) =
          some (text i) := by
        intro i hi
        rcases Nat.eq_zero_or_pos k with rfl | hpos
        · rw [← get?_writeChunks_of_le s row (Nat.zero_le i)]
          exact hread i hi
        · refine absurd ?_ (Bool.eq_false_iff.1 (hk hpos))
          refine exposes_iff.2
            ⟨⟨entry, hentry, hslot⟩, m, hslot ▸ hm, Nat.zero_lt_of_lt hi, fun j hj => ?_⟩
          rcases Nat.lt_or_ge j k with hlt | hge
          · exact .inl hlt
          · rw [← get?_writeChunks_of_le s row hge, hread j hj]
            exact .inr rfl
      refine h.sent entry hentry _ (readRow_eq_some.2 ⟨m, _, hm, ?_, rfl⟩)
      rw [hslot]
      exact readText_eq_some.2 ⟨text, rfl, hbefore⟩
    · have hread : (s.writeChunks row k).readRow entry = s.readRow entry :=
        readRow_congr rfl fun i => get?_writeChunks_of_ne s hslot k i
      exact h.sent entry hentry row' (hread ▸ hrow)

/-- A new row that is complete. -/
theorem write (h : Whole P s) {row : StateRow} (hrow : P row) : Whole P (s.write row) where
  named slot m hm := by
    simp only [WorkerStates.write, Table.get?_put] at hm
    split_ifs at hm with hslot
    · cases hm
      exact hslot.symm
    · exact h.named slot m hm
  sent entry hentry row' hrow' := by
    by_cases hslot : keyOf entry.1 entry.2 = keyOf row.recipient row.key
    · rw [readRow_write hrow' hslot]
      exact hrow
    · have hread : (s.write row).readRow entry = s.readRow entry := by
        refine readRow_congr ?_ fun i => get?_writeChunks_of_ne s hslot _ i
        simp only [WorkerStates.write, Table.get?_put]
        rw [if_neg hslot]
      exact h.sent entry hentry row' (hread ▸ hrow')

/-- A row that was read is read again under its own recipient and key. -/
theorem readRow_own (h : Whole P s) {entry : Json × Json} {row : StateRow}
    (hrow : s.readRow entry = some row) :
    keyOf row.recipient row.key = keyOf entry.1 entry.2 := by
  obtain ⟨m, raw, hm, -, rfl⟩ := readRow_eq_some.1 hrow
  exact h.named _ m hm

/-- An index of slots that were listed, or that hold rows of `P`. -/
theorem putIndex (h : Whole P t) (index : List (Json × Json))
    (hindex : ∀ entry ∈ index, (∃ listed ∈ t.index.getD [],
        keyOf entry.1 entry.2 = keyOf listed.1 listed.2) ∨
      ∀ row, t.readRow entry = some row → P row) :
    Whole P (t.apply (.putIndex index)) where
  named := h.named
  sent entry hentry row hrow := by
    have hread : (t.apply (.putIndex index)).readRow entry = t.readRow entry :=
      readRow_congr rfl fun _ => rfl
    rw [hread] at hrow
    rcases hindex entry hentry with ⟨listed, hlisted, hslot⟩ | hsent
    · refine h.sent listed hlisted row ?_
      rw [readRow_eq_some] at hrow ⊢
      rwa [hslot] at hrow
    · exact hsent row hrow

/-- The index of a put, once its other operations succeeded. -/
theorem indexed (h : Whole P s) (ht : Whole P t) (hindex : t.index = s.index) {c : CutPut}
    {r : Retained} (hr : c.put.retain s.rows = .ok r)
    (hadded : ∀ row, r.added = some row → ∀ row',
      t.readRow (row.recipient, row.key) = some row' → P row') :
    Whole P (t.apply (.putIndex (r.rows.map fun row => (row.recipient, row.key)))) := by
  refine ht.putIndex _ fun entry hentry => ?_
  obtain ⟨row, hrow, rfl⟩ := List.mem_map.1 hentry
  rcases List.mem_append.1 hrow with hkept | hnew
  · have hbefore : row ∈ s.rows :=
      (kept_append_dropped hr).mem_iff.1 (List.mem_append_left _ hkept)
    obtain ⟨listed, hlisted, hread⟩ := List.mem_filterMap.1 hbefore
    exact .inl ⟨listed, hindex ▸ hlisted, h.readRow_own hread⟩
  · exact .inr (hadded row (Option.mem_toList.1 hnew))

theorem index_removeAll (s : WorkerStates) (removed : List StateRow) :
    (removed.foldl remove s).index = s.index :=
  List.foldlRecOn (motive := fun t => t.index = s.index) removed remove rfl
    fun v hv row _ => show (v.remove row).index = s.index from hv

/-- **A put that may stop.** -/
theorem stop (h : Whole P s) {c : CutPut} (hclean : c.mixes s = false) (hsent : P c.put.row) :
    Whole P (c.stop s) := by
  cases hr : c.put.retain s.rows with
  | error =>
    unfold CutPut.stop
    rw [hr]
    exact h
  | ok r =>
    have hdeleted : ∀ n, Whole P ((((c.order r.dropped).flatMap removeOps).take n).foldl apply s) :=
      fun n => h.deletes fun op hop => List.mem_of_mem_take hop
    rcases Nat.le_total c.done ((c.order r.dropped).flatMap removeOps).length with hle | hle
    · unfold CutPut.stop
      rw [hr]
      dsimp only
      rw [putOps, List.take_append, Nat.sub_eq_zero_of_le hle, List.take_zero, List.append_nil]
      exact hdeleted c.done
    have hgone := hdeleted c.done
    rw [List.take_of_length_le hle, foldl_removals] at hgone
    obtain ⟨k, hk⟩ := Nat.exists_eq_add_of_le hle
    rw [CutPut.stop_eq hr hk]
    have hindex := index_removeAll s (c.order r.dropped)
    cases hadded : r.added with
    | none =>
      rw [Option.elim_none, List.nil_append]
      cases k with
      | zero => exact hgone
      | succ k =>
        rw [List.take_succ_cons, List.take_nil]
        exact h.indexed hgone hindex hr fun row hrow => by rw [hadded] at hrow; cases hrow
    | some row =>
      rw [Option.elim_some]
      have hrow : P row := CutPut.row_of_added hr hadded ▸ hsent
      have hwritten := hgone.write hrow
      rcases Nat.lt_or_ge (chunkCount row.raw.length) k with hlong | hshort
      · obtain ⟨j, rfl⟩ := Nat.exists_eq_add_of_lt hlong
        rw [foldl_take_writes]
        cases j with
        | zero => exact hwritten
        | succ j =>
          rw [List.take_succ_cons, List.take_nil]
          refine h.indexed hwritten hindex hr fun row' hrow' row'' hread => ?_
          obtain rfl : row = row' := Option.some_inj.1 (hadded.symm.trans hrow')
          rw [readRow_write hread rfl]
          exact hrow
      · rw [foldl_take_chunks _ _ _ hshort]
        refine hgone.writeChunks fun hpos => Bool.eq_false_iff.2 fun hexposes => ?_
        exact Bool.eq_false_iff.1 hclean
          (CutPut.mixes_iff.2 ⟨r, row, k, hr, hadded, hk, hpos, hshort, hexposes⟩)

theorem mono {Q : StateRow → Prop} (h : Whole P s) (hle : ∀ row, P row → Q row) : Whole Q s where
  named := h.named
  sent entry hentry row hrow := hle row (h.sent entry hentry row hrow)

end Whole

end WorkerStates

namespace CutPut

/-- The row is the one of some put. -/
def Sent (cuts : List CutPut) (row : StateRow) : Prop := ∃ c ∈ cuts, row = c.put.row

theorem stopAll_snoc (cuts : List CutPut) (c : CutPut) :
    stopAll (cuts ++ [c]) = c.stop (stopAll cuts) := by
  rw [stopAll, List.foldl_append]
  rfl

/-- **What the storage holds after some puts, each of which may stop.** -/
theorem whole_stopAll (cuts : List CutPut)
    (hclean : Each (fun before c => c.mixes (stopAll before) = false) cuts) :
    WorkerStates.Whole (Sent cuts) (stopAll cuts) := by
  induction cuts using List.reverseRecOn with
  | nil => exact .empty _
  | append_singleton cuts c ih =>
    rw [stopAll_snoc]
    have hlast := hclean cuts c [] rfl
    have hbefore := (ih hclean.of_snoc).mono (Q := Sent (cuts ++ [c])) fun row ⟨c', hc', hrow⟩ =>
      ⟨c', List.mem_append_left _ hc', hrow⟩
    exact hbefore.stop hlast ⟨c, by simp, rfl⟩

/-- A put that mixes frames leaves metadata that was there to be read with the first chunk of its
own text. -/
theorem mixed_row {c : CutPut} {s : WorkerStates} (h : c.mixes s = true) :
    ∃ row ∈ (c.stop s).rows, stateChunk c.put.raw 0 <+: row.raw ∧
      ∃ slot m, s.metadata.get? slot = some m ∧ row = { m.row with raw := row.raw } := by
  obtain ⟨r, new, k, hr, hadded, hk, hpos, hle, hexposes⟩ := mixes_iff.1 h
  obtain ⟨⟨entry, hentry, hslot⟩, m, hm, hchunks, hstored⟩ := WorkerStates.exposes_iff.1 hexposes
  rw [stop_eq hr hk, hadded, Option.elim_some, WorkerStates.foldl_take_chunks _ _ _ hle]
  obtain rfl := row_of_added hr hadded
  generalize hgone : (c.order r.dropped).foldl WorkerStates.remove s = u at hentry hm hstored ⊢
  -- the chunks that are read: those of the put, and then the ones that were there
  let text : ℕ → Str := fun i => if i < k then stateChunk c.put.raw i
    else (u.chunks.get? (WorkerStates.chunkKey (WorkerStates.keyOf entry.1 entry.2) i)).getD []
  have hread : (u.writeChunks c.put.row k).readText (WorkerStates.keyOf entry.1 entry.2) m.chunks =
      some ((List.range m.chunks).map text).flatten := by
    refine WorkerStates.readText_eq_some.2 ⟨text, rfl, fun i hi => ?_⟩
    rw [hslot]
    rcases Nat.lt_or_ge i k with hlt | hge
    · rw [WorkerStates.get?_writeChunks _ _ hlt]
      exact congrArg some (if_pos hlt).symm
    · rw [WorkerStates.get?_writeChunks_of_le _ _ hge]
      obtain ⟨old, hold⟩ := Option.isSome_iff_exists.1 ((hstored i hi).resolve_left hge.not_gt)
      rw [hold]
      refine congrArg some (Eq.symm ((if_neg hge.not_gt).trans ?_))
      rw [hslot, hold, Option.getD_some]
  refine ⟨_, List.mem_filterMap.2 ⟨entry, hentry,
    WorkerStates.readRow_eq_some.2 ⟨m, _, hslot ▸ hm, hread, rfl⟩⟩, ?_, _, m,
    WorkerStates.metadata_removeAll (hgone ▸ hm), rfl⟩
  obtain ⟨n, hn⟩ := Nat.exists_eq_succ_of_ne_zero hchunks.ne'
  dsimp only
  rw [hn, List.range_succ_eq_map, List.map_cons, List.flatten_cons]
  exact (if_pos hpos : text 0 = _) ▸ List.prefix_append _ _

end CutPut

/-- **What is replayed was sent**: after any puts, each of which may stop at any operation and none
of which stops over metadata that finds all of its chunks, a row of `list` is that of a put. -/
theorem replayed_frames_are_sent (cuts : List CutPut)
    (hclean : Each (fun before c => c.mixes (CutPut.stopAll before) = false) cuts)
    (recipient : Option Str) (now : ℤ) :
    ∀ row ∈ (CutPut.stopAll cuts).list recipient now, ∃ c ∈ cuts, row = c.put.row := by
  intro row hrow
  obtain ⟨hmem, -⟩ := mem_replayState hrow
  obtain ⟨entry, hentry, hread⟩ := List.mem_filterMap.1 hmem
  exact (CutPut.whole_stopAll cuts hclean).sent entry hentry row hread

/-- A put of the sample that stops after some operations. -/
def sampleCut (revision now : ℤ) (raw : String) (done : ℕ) : CutPut where
  put := { sampleStatePut revision now with raw := lit raw }
  done := done
  order rows := rows
  order_perm _ := .refl _

/-- A put that stopped while it removed the old row leaves nothing to replay, and the next one
stores its own. -/
theorem replayed_frames_are_sent_sample :
    ((CutPut.stopAll [sampleCut 5 1000 "first" 3, sampleCut 6 2000 "second" 1]).list
        (some (List.replicate 64 97)) 4000).length = 0 ∧
      ((CutPut.stopAll [sampleCut 5 1000 "first" 3, sampleCut 6 2000 "second" 1,
        sampleCut 7 3000 "third" 3]).list (some (List.replicate 64 97)) 4000).length = 1 ∧
      ∀ row ∈ (CutPut.stopAll [sampleCut 5 1000 "first" 3, sampleCut 6 2000 "second" 1,
        sampleCut 7 3000 "third" 3]).list (some (List.replicate 64 97)) 4000,
        ∃ c ∈ [sampleCut 5 1000 "first" 3, sampleCut 6 2000 "second" 1, sampleCut 7 3000 "third" 3],
          row = c.put.row := by
  refine ⟨by decide +kernel, by decide +kernel, replayed_frames_are_sent _ ?_ _ _⟩
  exact ((Each.nil.snoc (by decide +kernel)).snoc (e := sampleCut 6 2000 "second" 1)
    (by decide +kernel)).snoc (by decide +kernel)

/-- **Frames are mixed.** A put stops after it deleted the only chunk of the old row, and the next
put after it wrote its own: the metadata of the first frame is replayed with the third's text. -/
theorem interrupted_puts_mix_frames :
    ∃ row ∈ (CutPut.stopAll [sampleCut 5 1000 "first" 3, sampleCut 6 2000 "second" 1,
        sampleCut 7 3000 "third" 1]).list (some (List.replicate 64 97)) 4000,
      ∀ c ∈ [sampleCut 5 1000 "first" 3, sampleCut 6 2000 "second" 1, sampleCut 7 3000 "third" 1],
        ¬(c.put.row.revision = row.revision ∧ c.put.row.raw = row.raw) := by
  decide +kernel

end GrantTap
