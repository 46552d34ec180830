import GrantTapRelay.Relay.Presence
import GrantTapRelay.RetainedState.Validity

/-!
# The policy of retained state

`retainState` and `replayState` of `src/retainedState/policy.js`: which frames a room keeps for a
phone that reconnects. A frame replaces the older frame of its slot, and when the room is over its
bounds whole groups of rows are evicted.

The rows that stay, those that go and the new one are kept apart (`Retained`), because both stores
delete what goes, by the identity of its object, and write only the new row. A recipient or key that
is not a string is still a member of the envelope; it never equals another one.
-/

namespace GrantTap

open Js

def STATE_ROOM_BYTES : ℕ := 16 * 1024 * 1024

def STATE_ROOM_SLOTS : ℕ := 512

def STATE_FRAME_BYTES : ℕ := 1800000

/-- A retained frame. -/
structure StateRow where
  recipient : Json
  key : Json
  revision : ℤ
  priority : ℤ
  groupId : Value
  expiresAt : ℤ
  savedAt : ℤ
  bytes : ℕ
  raw : Str

/-- A row without its text. -/
def StateRow.metadata (row : StateRow) : StateRow := { row with raw := [] }

/-- `String(value)` for a value that a regular expression accepted. -/
def acceptedText (value : Json) : Str :=
  match value.toText with
  | .ok s => s
  | .error _ => []

/-- The sum of the row sizes. -/
def totalBytes (rows : List StateRow) : ℕ := (rows.map (·.bytes)).sum

/-! ## Eviction groups -/

structure EvictionGroup where
  id : Str
  rows : List StateRow
  priority : ℤ
  savedAt : ℤ
  seen : ℤ

/-- `${row.recipient}:${row.groupId ?? row.key}` -/
def groupOf (row : StateRow) : Str :=
  let group := if row.groupId.nullish then row.key else row.groupId.getD .null
  acceptedText row.recipient ++ lit ":" ++ acceptedText group

/-- `seen.get(row.recipient) ?? 0`: when the recipient's phone was last seen. -/
def seenAt (activity : List PresenceRow) (now : ℤ) (row : StateRow) : ℤ :=
  let phones := activity.filter fun p => p.role = .phone && now - STATE_TTL_MS < p.lastSeenAt
  ((phones.reverse.find? fun p => row.recipient.str? = some p.id).map (·.lastSeenAt)).getD 0

/-- `Math.max(...values)` -/
def largest (values : List ℤ) : ℤ := (values.max?).getD 0

/-- A group with one more row. -/
def EvictionGroup.push (group : EvictionGroup) (row : StateRow) : EvictionGroup :=
  let rows := group.rows ++ [row]
  let bodies := rows.filter fun item => item.priority ≠ 0
  { group with
    rows := rows
    priority := if bodies ≠ [] then largest (bodies.map (·.priority))
      else if row.groupId.truthy then 2 else 4
    savedAt := largest ((if bodies ≠ [] then bodies else rows).map (·.savedAt)) }

/-- The groups with one more row, in the order of their first rows. -/
def addToGroups (activity : List PresenceRow) (now : ℤ) (groups : List EvictionGroup)
    (row : StateRow) : List EvictionGroup :=
  let id := groupOf row
  if groups.any fun group => group.id = id then
    groups.map fun group => if group.id = id then group.push row else group
  else groups ++ [EvictionGroup.push ⟨id, [], 2, row.savedAt, seenAt activity now row⟩ row]

/-- The comparison of the sort: `a` is not evicted after `b`. Groups of priority 1 go last, then
those of recipients seen last, then the smaller priorities, then the ones saved last. -/
def evictsBefore (a b : EvictionGroup) : Bool :=
  if (a.priority = 1) ≠ (b.priority = 1) then b.priority = 1
  else if a.seen ≠ b.seen then a.seen < b.seen
  else if a.priority ≠ b.priority then b.priority < a.priority
  else a.savedAt ≤ b.savedAt

def evictionGroups (rows : List StateRow) (activity : List PresenceRow) (now : ℤ) :
    List EvictionGroup :=
  (rows.foldl (addToGroups activity now) []).insertionSort fun a b => evictsBefore a b

/-! ## Retention -/

/-- What becomes of the rows that were there, and the new row. -/
structure Retained where
  kept : List StateRow
  dropped : List StateRow
  added : Option StateRow

namespace Retained

/-- The rows after the put. -/
def rows (r : Retained) : List StateRow := r.kept ++ r.added.toList

/-- The room is within its bounds. -/
def fits (r : Retained) : Bool :=
  r.rows.length ≤ STATE_ROOM_SLOTS && totalBytes r.rows ≤ STATE_ROOM_BYTES

/-- Every row of a group removed. -/
def without (r : Retained) (group : Str) : Retained where
  kept := r.kept.filter fun row => groupOf row ≠ group
  dropped := r.dropped ++ r.kept.filter fun row => groupOf row = group
  added := r.added.filter fun row => groupOf row ≠ group

/-- Groups are evicted until the room is within its bounds. -/
def evict : List EvictionGroup → Retained → Retained
  | [], r => r
  | group :: groups, r => if r.fits then r else evict groups (r.without group.id)

end Retained

/-- The row of an envelope. -/
def stateRow (envelope : Json) (raw : Str) (now : ℤ) : StateRow where
  recipient := (envelope.get (lit "recipientKeyId")).getD .null
  key := (envelope.get (lit "stateKey")).getD .null
  revision := (envelope.get (lit "stateRevision")).int?.getD 0
  priority := (envelope.get (lit "statePriority")).int?.getD 0
  groupId := envelope.get (lit "stateGroup")
  expiresAt := (envelope.get (lit "expiresAt")).int?.getD 0
  savedAt := now
  bytes := utf8Length raw
  raw := raw

/-- `row.recipient === envelope.recipientKeyId && row.key === envelope.stateKey` -/
def inSlot (envelope : Json) (row : StateRow) : Bool :=
  Value.same (some row.recipient) (envelope.get (lit "recipientKeyId")) &&
    Value.same (some row.key) (envelope.get (lit "stateKey"))

/-- Whether an envelope may be retained at all: a valid header, unexpired, of the catalog or of a
group, and not too large. -/
def retainable (envelope : Json) (raw : Str) (now : ℤ) : Except Throw Bool :=
  if !(envelope.get (lit "stateKey")).truthy then .ok false
  else (validRetainedState envelope now).map fun valid =>
    valid && now < (stateRow envelope raw now).expiresAt &&
      ((envelope.get (lit "statePriority")).int? = some 1 ||
        (envelope.get (lit "stateGroup")).truthy) &&
      utf8Length raw ≤ STATE_FRAME_BYTES

def retainState (rows : List StateRow) (envelope : Json) (raw : Str) (now : ℤ)
    (activity : List PresenceRow) : Except Throw Retained := do
  let live := rows.filter fun row => now < row.expiresAt
  let expired := rows.filter fun row => row.expiresAt ≤ now
  if !(← retainable envelope raw now) then return ⟨live, expired, none⟩
  let row := stateRow envelope raw now
  let existing := live.find? (inSlot envelope)
  if existing.any fun existing => row.revision ≤ existing.revision then
    return ⟨live, expired, none⟩
  let result : Retained :=
    ⟨live.eraseP (inSlot envelope), expired ++ existing.toList, some row⟩
  return result.evict (evictionGroups result.rows activity now)

/-- What a recipient is sent when it reconnects. -/
def replayState (rows : List StateRow) (recipient : Option Str) (now : ℤ) : List StateRow :=
  match recipient with
  | none => []
  | some digest =>
    if isDigest digest then
      (rows.filter fun row => row.recipient.str? = some digest && now < row.expiresAt).insertionSort
        fun a b => a.priority < b.priority ∨ a.priority = b.priority ∧ a.revision ≤ b.revision
    else []

/-- What a phone with a key is sent of retained state. -/
theorem mem_replayState {rows : List StateRow} {recipient : Option Str} {now : ℤ} {row : StateRow}
    (h : row ∈ replayState rows recipient now) :
    row ∈ rows ∧ ∃ digest, recipient = some digest ∧ row.recipient.str? = some digest := by
  unfold replayState at h
  split at h
  · cases h
  · rename_i digest
    split_ifs at h
    · obtain ⟨hrow, h⟩ := List.mem_filter.1 ((List.mem_insertionSort _).1 h)
      exact ⟨hrow, digest, rfl, of_decide_eq_true ((Bool.and_eq_true _ _ ▸ h).1)⟩
    · cases h

/-! ## What the policy guarantees -/

namespace Retained

theorem fits_iff {r : Retained} : r.fits = true ↔
    r.rows.length ≤ STATE_ROOM_SLOTS ∧ totalBytes r.rows ≤ STATE_ROOM_BYTES := by
  simp [fits]

/-- A room without rows is within its bounds. -/
theorem fits_of_rows_eq_nil {r : Retained} (h : r.rows = []) : r.fits = true := by
  rw [fits_iff, h]
  exact ⟨Nat.zero_le _, Nat.zero_le _⟩

theorem mem_rows_without {r : Retained} {group : Str} {row : StateRow}
    (h : row ∈ (r.without group).rows) : row ∈ r.rows ∧ groupOf row ≠ group := by
  rcases List.mem_append.1 h with h | h
  · obtain ⟨hrow, hne⟩ := List.mem_filter.1 h
    exact ⟨List.mem_append_left _ hrow, of_decide_eq_true hne⟩
  · obtain ⟨hrow, hne⟩ := Option.filter_eq_some_iff.1 (Option.mem_toList.1 h)
    exact ⟨List.mem_append_right _ (Option.mem_toList.2 hrow), of_decide_eq_true hne⟩

/-- Evicting drops rows, and nothing else. -/
theorem evict_sub (groups : List EvictionGroup) (r : Retained) :
    (evict groups r).kept.Sublist r.kept ∧
      ((evict groups r).kept ++ (evict groups r).dropped).Perm (r.kept ++ r.dropped) ∧
      ∀ row, (evict groups r).added = some row → r.added = some row := by
  induction groups generalizing r with
  | nil => exact ⟨.refl _, .refl _, fun _ h => h⟩
  | cons group groups ih =>
    unfold evict
    split_ifs
    · exact ⟨.refl _, .refl _, fun _ h => h⟩
    · obtain ⟨hkept, hperm, hadded⟩ := ih (r.without group.id)
      refine ⟨hkept.trans List.filter_sublist, hperm.trans ?_,
        fun row h => (Option.filter_eq_some_iff.1 (hadded row h)).1⟩
      have hsplit := List.filter_append_perm (fun row => decide (groupOf row ≠ group.id)) r.kept
      have hnot : (r.kept.filter fun row => !decide (groupOf row ≠ group.id)) =
          r.kept.filter fun row => groupOf row = group.id :=
        List.filter_congr fun row _ => by simp
      rw [hnot] at hsplit
      change ((r.kept.filter fun row => groupOf row ≠ group.id) ++
        (r.dropped ++ r.kept.filter fun row => groupOf row = group.id)).Perm _
      refine (List.perm_append_comm.append_left _).trans ?_
      rw [← List.append_assoc]
      exact hsplit.append_right _

/-- Evicting ends within the bounds when every row belongs to one of the groups. -/
theorem evict_fits (groups : List EvictionGroup) (r : Retained)
    (h : ∀ row ∈ r.rows, ∃ group ∈ groups, group.id = groupOf row) :
    (evict groups r).fits = true := by
  induction groups generalizing r with
  | nil =>
    refine fits_of_rows_eq_nil (List.eq_nil_iff_forall_not_mem.2 fun row hrow => ?_)
    obtain ⟨group, hgroup, -⟩ := h row hrow
    cases hgroup
  | cons group groups ih =>
    unfold evict
    split_ifs with hfits
    · exact hfits
    · refine ih _ fun row hrow => ?_
      obtain ⟨hrow, hne⟩ := mem_rows_without hrow
      obtain ⟨group', hmem, hid⟩ := h row hrow
      rcases List.mem_cons.1 hmem with rfl | hmem
      · exact absurd hid.symm hne
      · exact ⟨group', hmem, hid⟩

end Retained

theorem mem_addToGroups (activity : List PresenceRow) (now : ℤ) (groups : List EvictionGroup)
    (row : StateRow) {id : Str} (h : (∃ group ∈ groups, group.id = id) ∨ groupOf row = id) :
    ∃ group ∈ addToGroups activity now groups row, group.id = id := by
  have hpush : ∀ group ∈ groups, group.id = id →
      ∃ group' ∈ groups.map (fun g => if g.id = groupOf row then g.push row else g),
        group'.id = id := fun group hgroup hid => by
    refine ⟨_, List.mem_map_of_mem hgroup, ?_⟩
    split_ifs
    · exact hid
    · exact hid
  unfold addToGroups
  dsimp only
  split_ifs with hany
  · rcases h with ⟨group, hgroup, hid⟩ | hid
    · exact hpush group hgroup hid
    · obtain ⟨group, hgroup, hg⟩ := List.any_eq_true.1 hany
      exact hpush group hgroup ((of_decide_eq_true hg).trans hid)
  · rcases h with ⟨group, hgroup, hid⟩ | hid
    · exact ⟨group, List.mem_append_left _ hgroup, hid⟩
    · exact ⟨_, List.mem_append_right _ (List.mem_singleton.2 rfl), hid⟩

/-- Every row belongs to a group. -/
theorem mem_evictionGroups {rows : List StateRow} (activity : List PresenceRow) (now : ℤ)
    {row : StateRow} (h : row ∈ rows) :
    ∃ group ∈ evictionGroups rows activity now, group.id = groupOf row := by
  have hfold : ∀ (rows : List StateRow) (groups : List EvictionGroup),
      (∃ group ∈ groups, group.id = groupOf row) ∨ row ∈ rows →
        ∃ group ∈ rows.foldl (addToGroups activity now) groups, group.id = groupOf row := by
    intro rows
    induction rows with
    | nil => exact fun groups h => h.resolve_right (List.not_mem_nil)
    | cons first rows ih =>
      intro groups h
      rcases h with h | h
      · exact ih _ (.inl (mem_addToGroups activity now groups first (.inl h)))
      · rcases List.mem_cons.1 h with rfl | h
        · exact ih _ (.inl (mem_addToGroups activity now groups row (.inr rfl)))
        · exact ih _ (.inr h)
  obtain ⟨group, hgroup, hid⟩ := hfold rows [] (.inr h)
  exact ⟨group, (List.mem_insertionSort _).2 hgroup, hid⟩

/-- The first row that satisfies `p`, and the others. -/
theorem find?_toList_append_eraseP {α : Type*} (p : α → Bool) (l : List α) :
    ((l.find? p).toList ++ l.eraseP p).Perm l := by
  induction l with
  | nil => exact .refl _
  | cons a l ih =>
    by_cases h : p a = true
    · rw [List.find?_cons_of_pos h, List.eraseP_cons_of_pos h]
      exact .refl _
    · rw [List.find?_cons_of_neg h, List.eraseP_cons_of_neg h]
      exact List.perm_middle.trans (ih.cons a)

/-- The rows that have not expired. -/
def liveRows (rows : List StateRow) (now : ℤ) : List StateRow :=
  rows.filter fun row => now < row.expiresAt

/-- **What a put does**: nothing but dropping expired rows, or the row of its slot is replaced by a
new one of a larger revision, and then rows are evicted until the room is within its bounds. -/
theorem retainState_ok {rows : List StateRow} {envelope : Json} {raw : Str} {now : ℤ}
    {activity : List PresenceRow} {r : Retained}
    (h : retainState rows envelope raw now activity = .ok r) :
    (r.kept = liveRows rows now ∧ r.added = none) ∧ (retainable envelope raw now = .ok false ∨
        ∃ existing ∈ liveRows rows now, inSlot envelope existing = true ∧
          (stateRow envelope raw now).revision ≤ existing.revision) ∨
      retainable envelope raw now = .ok true ∧
        (∀ existing, (liveRows rows now).find? (inSlot envelope) = some existing →
          existing.revision < (stateRow envelope raw now).revision) ∧
        r.kept.Sublist ((liveRows rows now).eraseP (inSlot envelope)) ∧
        (∀ row, r.added = some row → row = stateRow envelope raw now) ∧ r.fits = true := by
  obtain ⟨ok, hok, h⟩ := except_bind_ok.1 h
  cases ok with
  | false =>
    cases h
    exact .inl ⟨⟨rfl, rfl⟩, .inl hok⟩
  | true =>
    simp only [Bool.not_true, Bool.false_eq_true, if_false] at h
    split_ifs at h with hold
    · cases h
      obtain ⟨existing, hfind, hle⟩ := (Option.any_eq_true _ _).1 hold
      exact .inl ⟨⟨rfl, rfl⟩, .inr ⟨existing, List.mem_of_find?_eq_some hfind,
        List.find?_some hfind, of_decide_eq_true hle⟩⟩
    · cases h
      refine .inr ⟨hok, fun existing hfind => ?_, (Retained.evict_sub _ _).1, fun row hrow => ?_,
        Retained.evict_fits _ _ fun row hrow => mem_evictionGroups activity now hrow⟩
      · by_contra hle
        exact hold ((Option.any_eq_true _ _).2 ⟨existing, hfind, decide_eq_true (not_lt.1 hle)⟩)
      · exact (Option.some.inj ((Retained.evict_sub _ _).2.2 row hrow)).symm

/-- Every row that was there stays or goes. -/
theorem kept_append_dropped {rows : List StateRow} {envelope : Json} {raw : Str} {now : ℤ}
    {activity : List PresenceRow} {r : Retained}
    (h : retainState rows envelope raw now activity = .ok r) : (r.kept ++ r.dropped).Perm rows := by
  have hlive : (liveRows rows now ++ rows.filter fun row => row.expiresAt ≤ now).Perm rows := by
    have hsplit := List.filter_append_perm (fun row : StateRow => decide (now < row.expiresAt)) rows
    have hnot : (rows.filter fun row => !decide (now < row.expiresAt)) =
        rows.filter fun row => row.expiresAt ≤ now :=
      List.filter_congr fun row _ => by simp only [← decide_not, not_lt]
    rwa [hnot] at hsplit
  obtain ⟨ok, hok, h⟩ := except_bind_ok.1 h
  cases ok with
  | false =>
    cases h
    exact hlive
  | true =>
    simp only [Bool.not_true, Bool.false_eq_true, if_false] at h
    split_ifs at h
    · cases h
      exact hlive
    · cases h
      refine (Retained.evict_sub _ _).2.1.trans (List.Perm.trans ?_ hlive)
      change ((liveRows rows now).eraseP (inSlot envelope) ++ ((rows.filter fun row =>
        row.expiresAt ≤ now) ++ ((liveRows rows now).find? (inSlot envelope)).toList)).Perm _
      rw [← List.append_assoc]
      refine List.perm_append_comm.trans ?_
      rw [← List.append_assoc]
      refine List.Perm.append_right _ ?_
      exact find?_toList_append_eraseP _ _

/-! ## Slots

The policy replaces a row in its slot, so rows of different slots stay so. -/

/-- A recipient and a key. -/
abbrev Slot := Str × Str

namespace StateRow

/-- The row lies in a slot. -/
def At (row : StateRow) (slot : Slot) : Prop :=
  row.recipient = .str slot.1 ∧ row.key = .str slot.2

/-- The slot of a row whose recipient and key are strings. -/
def slot? (row : StateRow) : Option Slot :=
  match row.recipient.str?, row.key.str? with
  | some recipient, some key => some (recipient, key)
  | _, _ => none

theorem slot?_eq_some {row : StateRow} {slot : Slot} :
    row.slot? = some slot ↔ row.At slot := by
  have hstr : ∀ (j : Json) (t : Str), j.str? = some t ↔ j = .str t := fun j t => by
    cases j <;> simp [Json.str?]
  unfold slot? At
  rw [← hstr, ← hstr]
  cases row.recipient.str? with
  | none => simp
  | some recipient =>
    cases row.key.str? with
    | none => simp
    | some key => simp [Prod.ext_iff]

theorem slot?_metadata (row : StateRow) : row.metadata.slot? = row.slot? := rfl

/-- A row lies in one slot. -/
theorem At.unique {row : StateRow} {slot slot' : Slot} (h : row.At slot) (h' : row.At slot') :
    slot = slot' :=
  Prod.ext (Json.str.inj (h.1.symm.trans h'.1)) (Json.str.inj (h.2.symm.trans h'.2))

end StateRow

/-- The row of a slot. -/
def rowAt (rows : List StateRow) (slot : Slot) : Option StateRow :=
  rows.find? fun row => row.slot? = some slot

theorem rowAt_cons (row : StateRow) (rows : List StateRow) (slot : Slot) :
    rowAt (row :: rows) slot = if row.slot? = some slot then some row else rowAt rows slot := by
  unfold rowAt
  rw [List.find?_cons]
  split_ifs with h
  · simp only [h, decide_true]
  · simp only [h, decide_false]

/-- Every row has a slot, and no two the same one. -/
structure Slotted (rows : List StateRow) : Prop where
  texts : ∀ row ∈ rows, ∃ slot, row.At slot
  distinct : rows.Pairwise fun a b => ∀ slot, a.At slot → ¬b.At slot

/-- The envelope names a slot by two strings. -/
def Names (envelope : Json) (slot : Slot) : Prop :=
  envelope.get (lit "recipientKeyId") = some (.str slot.1) ∧
    envelope.get (lit "stateKey") = some (.str slot.2)

theorem inSlot_iff {envelope : Json} {slot : Slot} (h : Names envelope slot) (row : StateRow) :
    inSlot envelope row = true ↔ row.At slot := by
  have hsame : ∀ (j : Json) (t : Str),
      Value.same (some j) (some (.str t)) = true ↔ j = .str t := fun j t => by
    rw [Value.same_str, Option.some_inj]
  rw [inSlot, h.1, h.2, Bool.and_eq_true, hsame, hsame, StateRow.At]

theorem stateRow_at {envelope : Json} {slot : Slot} (h : Names envelope slot) (raw : Str)
    (now : ℤ) : (stateRow envelope raw now).At slot := by
  simp only [stateRow, StateRow.At, h.1, h.2, Option.getD_some, and_self]

namespace Slotted

variable {rows : List StateRow} {a b : StateRow} {slot : Slot}

theorem nil : Slotted [] := ⟨nofun, .nil⟩

theorem sublist {sub : List StateRow} (h : Slotted rows) (hsub : sub.Sublist rows) :
    Slotted sub :=
  ⟨fun row hrow => h.texts row (hsub.subset hrow), h.distinct.sublist hsub⟩

theorem perm {rows' : List StateRow} (h : Slotted rows) (hp : rows.Perm rows') : Slotted rows' :=
  ⟨fun row hrow => h.texts row (hp.mem_iff.2 hrow),
    hp.pairwise h.distinct fun hxy slot hy hx => hxy slot hx hy⟩

theorem metadata (h : Slotted rows) : Slotted (rows.map StateRow.metadata) := by
  refine ⟨fun row hrow => ?_, List.pairwise_map.2 h.distinct⟩
  obtain ⟨row', hrow', rfl⟩ := List.mem_map.1 hrow
  exact h.texts row' hrow'

/-- A slot holds one row. -/
theorem eq_of_at (h : Slotted rows) (ha : a ∈ rows) (hb : b ∈ rows) (hat : a.At slot)
    (hbt : b.At slot) : a = b := by
  by_contra hne
  have : Std.Symm fun x y : StateRow => ∀ slot, x.At slot → ¬y.At slot :=
    ⟨fun x y hxy slot hy hx => hxy slot hx hy⟩
  exact h.distinct.forall ha hb hne slot hat hbt

/-- The row of a slot is the one that is found there. -/
theorem rowAt_eq_some (h : Slotted rows) : rowAt rows slot = some a ↔ a ∈ rows ∧ a.At slot := by
  unfold rowAt
  constructor
  · intro hfind
    have hat := List.find?_some hfind
    exact ⟨List.mem_of_find?_eq_some hfind, StateRow.slot?_eq_some.1 (of_decide_eq_true hat)⟩
  · rintro ⟨ha, hat⟩
    cases hfind : rows.find? (fun row => row.slot? = some slot) with
    | none =>
      have hnot := List.find?_eq_none.1 hfind a ha
      exact absurd (decide_eq_true (StateRow.slot?_eq_some.2 hat)) hnot
    | some b =>
      have hb := List.find?_some hfind
      rw [h.eq_of_at (List.mem_of_find?_eq_some hfind) ha
        (StateRow.slot?_eq_some.1 (of_decide_eq_true hb)) hat]

/-- Deleting the row of a slot. -/
theorem not_at_of_mem_eraseP {envelope : Json} (h : Slotted rows) (hn : Names envelope slot)
    (ha : a ∈ rows.eraseP (inSlot envelope)) : ¬a.At slot := by
  intro hat
  induction rows with
  | nil => cases ha
  | cons row rows ih =>
    by_cases hrow : inSlot envelope row = true
    · rw [List.eraseP_cons_of_pos hrow] at ha
      exact (List.pairwise_cons.1 h.distinct).1 a ha slot ((inSlot_iff hn row).1 hrow) hat
    · rw [List.eraseP_cons_of_neg hrow] at ha
      rcases List.mem_cons.1 ha with rfl | ha
      · exact hrow ((inSlot_iff hn a).2 hat)
      · exact ih (h.sublist (List.sublist_cons_self row rows)) ha

end Slotted

theorem liveRows_sublist (rows : List StateRow) (now : ℤ) : (liveRows rows now).Sublist rows :=
  List.filter_sublist

/-- A put keeps the slots distinct. -/
theorem Slotted.retainState {rows : List StateRow} (hs : Slotted rows) {envelope : Json}
    {raw : Str} {now : ℤ} {activity : List PresenceRow} {slot : Slot} (hn : Names envelope slot)
    {r : Retained} (h : retainState rows envelope raw now activity = .ok r) : Slotted r.rows := by
  have hlive := hs.sublist (liveRows_sublist rows now)
  rcases retainState_ok h with ⟨⟨hkept, hadded⟩, -⟩ | ⟨-, -, hkept, hadded, -⟩
  · rw [Retained.rows, hkept, hadded, Option.toList_none, List.append_nil]
    exact hlive
  · have herase := hlive.sublist (List.eraseP_sublist (p := inSlot envelope))
    have hkeep := herase.sublist hkept
    refine ⟨fun row hrow => ?_, List.pairwise_append.2 ⟨hkeep.distinct, ?_, ?_⟩⟩
    · rcases List.mem_append.1 hrow with hrow | hrow
      · exact hkeep.texts row hrow
      · rw [hadded row (Option.mem_toList.1 hrow)]
        exact ⟨slot, stateRow_at hn raw now⟩
    · cases r.added with
      | none => exact .nil
      | some row => exact List.pairwise_singleton _ _
    · intro a ha b hb slot' hat hbt
      rw [hadded b (Option.mem_toList.1 hb)] at hbt
      have hslot : slot' = slot := hbt.unique (stateRow_at hn raw now)
      exact hlive.not_at_of_mem_eraseP hn (hkept.subset ha) (hslot ▸ hat)

/-- The put may be stored in a slot. -/
def Eligible (envelope : Json) (raw : Str) (now : ℤ) (slot : Slot) : Prop :=
  Names envelope slot ∧ retainable envelope raw now = .ok true

/-- **The row of a slot after a put** is the unexpired row it was, if the put is not eligible or not
newer, or else the new one. -/
theorem mem_rows_retainState {rows : List StateRow} (hs : Slotted rows) {envelope : Json}
    {raw : Str} {now : ℤ} {activity : List PresenceRow} {named : Slot} (hn : Names envelope named)
    {r : Retained} (h : retainState rows envelope raw now activity = .ok r) {row : StateRow}
    {slot : Slot} (hrow : row ∈ r.rows) (hat : row.At slot) :
    row ∈ liveRows rows now ∧ row ∈ r.kept ∧ (Eligible envelope raw now slot →
        (stateRow envelope raw now).revision ≤ row.revision) ∨
      Eligible envelope raw now slot ∧ row = stateRow envelope raw now ∧
        ∀ old ∈ liveRows rows now, old.At slot → old.revision < row.revision := by
  have hlive := hs.sublist (liveRows_sublist rows now)
  rcases retainState_ok h with ⟨⟨hkept, hadded⟩, hwhy⟩ | ⟨hok, hold, hkept, hadded, -⟩
  · rw [Retained.rows, hkept, hadded, Option.toList_none, List.append_nil] at hrow
    refine .inl ⟨hrow, hkept ▸ hrow, fun ⟨hslot, hok⟩ => ?_⟩
    rcases hwhy with hno | ⟨existing, hmem, hin, hle⟩
    · rw [hno] at hok
      cases hok
    · rwa [hlive.eq_of_at hrow hmem hat ((inSlot_iff hslot existing).1 hin)]
  · rcases List.mem_append.1 hrow with hmem | hmem
    · refine .inl ⟨(List.eraseP_sublist).subset (hkept.subset hmem), hmem, fun ⟨hslot, _⟩ => ?_⟩
      exact absurd hat (hlive.not_at_of_mem_eraseP hslot (hkept.subset hmem))
    · have heq := hadded row (Option.mem_toList.1 hmem)
      have hnamed : slot = named := StateRow.At.unique (heq ▸ hat) (stateRow_at hn raw now)
      subst hnamed
      refine .inr ⟨⟨hn, hok⟩, heq, fun old hmem' hat' => ?_⟩
      cases hfind : (liveRows rows now).find? (inSlot envelope) with
      | none => exact absurd ((inSlot_iff hn old).2 hat') (List.find?_eq_none.1 hfind old hmem')
      | some existing =>
        have hexisting := (inSlot_iff hn existing).1 (List.find?_some hfind)
        rw [heq, hlive.eq_of_at hmem' (List.mem_of_find?_eq_some hfind) hat' hexisting]
        exact hold existing hfind

end GrantTap
