import GrantTapRelay.RetainedState.Node
import GrantTapRelay.RetainedState.Worker
import Mathlib.Order.Bounds.Basic

/-!
# Retained state is the latest revision, within its bounds

Both stores apply the policy to the rows they read, whatever they write it to. `StateStore` says
so, and what follows from it over any sequence of puts is proved once: slots stay distinct, a room
stays within its bounds, and the row of a slot has the largest revision that was put into the slot
since the row appeared (`StateStore.latest`). The Worker's storage moreover holds the rows and
nothing else (`WorkerStates.Holds`).
-/

namespace GrantTap

open Js

/-- A put. -/
structure StatePut where
  room : Str
  envelope : Json
  raw : Str
  now : ℤ
  activity : List PresenceRow

namespace StatePut

/-- The recipient and the key are strings, and so is the group, if there is one. -/
def Texts (p : StatePut) : Prop :=
  (∃ slot, Names p.envelope slot) ∧ bindableGroup (p.envelope.get (lit "stateGroup")) = true

/-- The put may be stored in a slot: it is valid, unexpired, of the catalog or a group, and not too
large. -/
def Eligible (p : StatePut) (slot : Slot) : Prop := GrantTap.Eligible p.envelope p.raw p.now slot

def revision (p : StatePut) : ℤ := (stateRow p.envelope p.raw p.now).revision

/-- What the policy makes of some rows. -/
def retain (p : StatePut) (rows : List StateRow) : Except Throw Retained :=
  retainState rows p.envelope p.raw p.now p.activity

/-- A put of strings has a verdict. -/
theorem retain_total {p : StatePut} (h : p.Texts) (rows : List StateRow) :
    ∃ r, p.retain rows = .ok r := by
  obtain ⟨⟨slot, hn⟩, hgroup⟩ := h
  have hvalid : ∃ b, validRetainedState p.envelope p.now = .ok b := by
    have htest : ∃ b, testDigest (p.envelope.get (lit "stateGroup")) = .ok b := by
      rcases hg : p.envelope.get (lit "stateGroup") with _ | (_ | _ | _ | s | _ | _)
      · exact ⟨_, rfl⟩
      · exact ⟨_, rfl⟩
      · rw [hg] at hgroup; cases hgroup
      · rw [hg] at hgroup; cases hgroup
      · exact ⟨_, Value.test_str _ s⟩
      · rw [hg] at hgroup; cases hgroup
      · rw [hg] at hgroup; cases hgroup
    obtain ⟨b, hb⟩ := htest
    unfold validRetainedState
    dsimp only
    split_ifs
    · exact ⟨true, rfl⟩
    · have htext : ∀ text, testDigest (some (.str text)) = .ok (isDigest text) :=
        Value.test_str isDigest
      simp only [hn.1, hn.2, hb, htext, Value.orEmpty_str, Early.run_require_bind,
        Early.run_attempt_bind, Except.bind, Early.run_pure]
      split_ifs <;> exact ⟨_, rfl⟩
  obtain ⟨b, hb⟩ := hvalid
  have hretainable : ∃ b, retainable p.envelope p.raw p.now = .ok b := by
    unfold retainable
    split_ifs
    · exact ⟨_, rfl⟩
    · exact ⟨_, by rw [hb]; rfl⟩
  obtain ⟨ok, hok⟩ := hretainable
  unfold retain retainState
  simp only [hok, bind, Except.bind]
  split_ifs <;> exact ⟨_, rfl⟩

end StatePut

/-- A store of retained state. A put reads some rows, and leaves what the policy makes of them; the
rows that stay are unchanged, and those of other rooms too. -/
structure StateStore where
  State : Type
  Room : Type
  start : State
  roomOf : StatePut → Room
  rows : Room → State → List StateRow
  /-- The rows of a room as a put reads them, with or without their texts. -/
  read : Room → State → List StateRow
  put : State → StatePut → Except Throw State
  /-- What holds of every state that puts lead to. -/
  Sound : State → Prop
  sound_start : Sound start
  rows_start : ∀ room, rows room start = []
  slotted : ∀ {s}, Sound s → ∀ room, Slotted (rows room s)
  read_perm : ∀ {s}, Sound s → ∀ room,
    ((read room s).map StateRow.metadata).Perm ((rows room s).map StateRow.metadata)
  put_ok : ∀ {s p}, Sound s → p.Texts → ∃ t r, put s p = .ok t ∧ Sound t ∧
    p.retain (read (roomOf p) s) = .ok r ∧
    ((rows (roomOf p) t).map StateRow.metadata).Perm (r.rows.map StateRow.metadata) ∧
    (∀ row ∈ rows (roomOf p) t, row ∈ rows (roomOf p) s ∨ r.added = some row) ∧
    ∀ room, room ≠ roomOf p → (rows room t).Perm (rows room s)

namespace StateStore

variable (store : StateStore)

/-- The state after a put; one that throws changes nothing. -/
def apply (s : store.State) (p : StatePut) : store.State := (store.put s p).toOption.getD s

/-- The state after some puts. -/
def after (puts : List StatePut) : store.State := puts.foldl store.apply store.start

/-- A slot has a row that has not expired. -/
def LiveAt (s : store.State) (room : store.Room) (slot : Slot) (now : ℤ) : Prop :=
  ∃ row ∈ store.rows room s, row.At slot ∧ now < row.expiresAt

/-- Through some puts a slot keeps an unexpired row. -/
def Stays (room : store.Room) (slot : Slot) : store.State → List StatePut → Prop
  | s, [] => ∃ row ∈ store.rows room s, row.At slot
  | s, q :: later => store.LiveAt s room slot q.now ∧ Stays room slot (store.apply s q) later

/-- The revisions that eligible puts have for a slot. -/
def revisions (room : store.Room) (slot : Slot) (puts : List StatePut) : Set ℤ :=
  {n | ∃ q ∈ puts, store.roomOf q = room ∧ q.Eligible slot ∧ n = q.revision}

variable {store} {s : store.State} {p : StatePut} {room : store.Room} {slot : Slot}

/-- A row among rows with the same metadata. -/
theorem exists_of_perm {rows rows' : List StateRow}
    (h : (rows.map StateRow.metadata).Perm (rows'.map StateRow.metadata)) {row : StateRow}
    (hrow : row ∈ rows) : ∃ row' ∈ rows', row'.metadata = row.metadata := by
  obtain ⟨row', hrow', he⟩ := List.mem_map.1 (h.mem_iff.1 (List.mem_map_of_mem hrow))
  exact ⟨row', hrow', he⟩

theorem slotted_of_perm {rows rows' : List StateRow} (hs : Slotted rows)
    (h : (rows.map StateRow.metadata).Perm (rows'.map StateRow.metadata)) : Slotted rows' := by
  have hs' := hs.metadata.perm h
  refine ⟨fun row hrow => ?_, List.pairwise_map.1 hs'.distinct⟩
  exact hs'.texts row.metadata (List.mem_map_of_mem hrow)

/-- **Step lemma**: the row of a slot after a put is one that was there unexpired, of a revision
that the put does not exceed, or the put's, which exceeds what was there. -/
theorem apply_row (hs : store.Sound s) (hp : p.Texts) {row : StateRow}
    (hrow : row ∈ store.rows (store.roomOf p) (store.apply s p)) (hat : row.At slot) :
    (∃ old ∈ store.rows (store.roomOf p) s, old.At slot ∧ p.now < old.expiresAt ∧
        row.revision = old.revision ∧ (p.Eligible slot → p.revision ≤ old.revision)) ∨
      p.Eligible slot ∧ row.revision = p.revision ∧
        ∀ old ∈ store.rows (store.roomOf p) s, old.At slot → p.now < old.expiresAt →
          old.revision < p.revision := by
  obtain ⟨t, r, hput, -, hr, hperm, -, -⟩ := store.put_ok hs hp
  obtain ⟨⟨named, hn⟩, -⟩ := hp
  have happly : store.apply s p = t := by rw [apply, hput]; rfl
  rw [happly] at hrow
  have hread := store.read_perm hs (store.roomOf p)
  have hslotted := slotted_of_perm (store.slotted hs _) hread.symm
  obtain ⟨row', hrow', he⟩ := exists_of_perm hperm hrow
  have hat' : row'.At slot :=
    ⟨(congrArg StateRow.recipient he).trans hat.1, (congrArg StateRow.key he).trans hat.2⟩
  have hrevision : row'.revision = row.revision := congrArg (·.revision) he
  rcases mem_rows_retainState hslotted hn hr hrow' hat' with ⟨hlive, -, hle⟩ | ⟨hel, hnew, hlt⟩
  · obtain ⟨hmem, hexp⟩ := List.mem_filter.1 hlive
    obtain ⟨old, hold, heold⟩ := exists_of_perm hread hmem
    have hsame : old.revision = row'.revision := congrArg (·.revision) heold
    refine .inl ⟨old, hold, ⟨(congrArg StateRow.recipient heold).trans hat'.1,
      (congrArg StateRow.key heold).trans hat'.2⟩, ?_, hrevision.symm.trans hsame.symm,
      fun hel => (hle hel).trans hsame.ge⟩
    rw [show old.expiresAt = row'.expiresAt from congrArg (·.expiresAt) heold]
    exact of_decide_eq_true hexp
  · refine .inr ⟨hel, hrevision.symm.trans (congrArg (·.revision) hnew), fun old hold hatold hexp => ?_⟩
    obtain ⟨old', hold', heold⟩ := exists_of_perm hread.symm hold
    have hlt' := hlt old' (List.mem_filter.2 ⟨hold', decide_eq_true ?_⟩)
      ⟨(congrArg StateRow.recipient heold).trans hatold.1,
        (congrArg StateRow.key heold).trans hatold.2⟩
    · rw [show old'.revision = old.revision from congrArg (·.revision) heold, hnew] at hlt'
      exact hlt'
    · rw [show old'.expiresAt = old.expiresAt from congrArg (·.expiresAt) heold]
      exact hexp

/-- A put leaves the other rooms as they were. -/
theorem apply_frame (hs : store.Sound s) (hp : p.Texts) (hroom : room ≠ store.roomOf p) :
    (store.rows room (store.apply s p)).Perm (store.rows room s) := by
  obtain ⟨t, r, hput, -, -, -, -, hframe⟩ := store.put_ok hs hp
  have happly : store.apply s p = t := by rw [apply, hput]; rfl
  rw [happly]
  exact hframe room hroom

theorem sound_apply (hs : store.Sound s) (hp : p.Texts) : store.Sound (store.apply s p) := by
  obtain ⟨t, r, hput, ht, -⟩ := store.put_ok hs hp
  have happly : store.apply s p = t := by rw [apply, hput]; rfl
  rwa [happly]

theorem sound_foldl {puts : List StatePut} (hs : store.Sound s) (hp : ∀ p ∈ puts, p.Texts) :
    store.Sound (puts.foldl store.apply s) := by
  induction puts generalizing s with
  | nil => exact hs
  | cons p puts ih =>
    exact ih (sound_apply hs (hp p List.mem_cons_self)) fun q hq => hp q (List.mem_cons_of_mem _ hq)

/-- The bounds of a room. -/
def Bounded (rows : List StateRow) : Prop :=
  rows.length ≤ STATE_ROOM_SLOTS ∧ totalBytes rows ≤ STATE_ROOM_BYTES

theorem Bounded.of_perm {rows rows' : List StateRow} (h : Bounded rows)
    (hperm : (rows'.map StateRow.metadata).Perm (rows.map StateRow.metadata)) : Bounded rows' := by
  have hbytes : ∀ l : List StateRow, totalBytes (l.map StateRow.metadata) = totalBytes l :=
    fun l => by rw [totalBytes, List.map_map]; rfl
  have hsum := (hperm.map (·.bytes)).sum_eq
  have hlen := hperm.length_eq
  rw [List.length_map, List.length_map] at hlen
  rw [Bounded, hlen, ← hbytes rows', totalBytes, hsum, ← totalBytes, hbytes]
  exact h

theorem Bounded.sublist {rows rows' : List StateRow} (h : Bounded rows)
    (hsub : rows'.Sublist rows) : Bounded rows' :=
  ⟨hsub.length_le.trans h.1, (List.Sublist.sum_le_sum (hsub.map _)
    fun _ _ => Nat.zero_le _).trans h.2⟩

/-- A put leaves every room within its bounds. -/
theorem bounded_apply (hs : store.Sound s) (hp : p.Texts)
    (h : ∀ room, Bounded (store.rows room s)) (room : store.Room) :
    Bounded (store.rows room (store.apply s p)) := by
  by_cases hroom : room = store.roomOf p
  · subst hroom
    obtain ⟨t, r, hput, -, hr, hperm, -, -⟩ := store.put_ok hs hp
    have happly : store.apply s p = t := by rw [apply, hput]; rfl
    rw [happly]
    refine Bounded.of_perm ?_ hperm
    rcases retainState_ok hr with ⟨⟨hkept, hadded⟩, -⟩ | ⟨-, -, -, -, hfits⟩
    · rw [Retained.rows, hkept, hadded, Option.toList_none, List.append_nil]
      exact ((h _).of_perm (store.read_perm hs _)).sublist (liveRows_sublist _ _)
    · exact Retained.fits_iff.1 hfits
  · exact (h room).of_perm ((apply_frame hs hp hroom).map _)

theorem bounded_foldl {puts : List StatePut} (hs : store.Sound s) (hp : ∀ p ∈ puts, p.Texts)
    (h : ∀ room, Bounded (store.rows room s)) (room : store.Room) :
    Bounded (store.rows room (puts.foldl store.apply s)) := by
  induction puts generalizing s with
  | nil => exact h room
  | cons p puts ih =>
    exact ih (sound_apply hs (hp p List.mem_cons_self))
      (fun q hq => hp q (List.mem_cons_of_mem _ hq)) (bounded_apply hs (hp p List.mem_cons_self) h)

/-- **Run lemma**: a row that stays through some puts has the largest of its revision and the
eligible ones. -/
theorem isGreatest_foldl {puts : List StatePut} (hs : store.Sound s) (hp : ∀ p ∈ puts, p.Texts)
    (hstays : store.Stays room slot s puts) {old row : StateRow} (hold : old ∈ store.rows room s)
    (hatold : old.At slot) (hrow : row ∈ store.rows room (puts.foldl store.apply s))
    (hat : row.At slot) :
    IsGreatest (insert old.revision (store.revisions room slot puts)) row.revision := by
  induction puts generalizing s old with
  | nil =>
    have heq := (store.slotted hs room).eq_of_at hold hrow hatold hat
    refine ⟨.inl (by rw [heq]), fun n hn => ?_⟩
    rcases hn with rfl | ⟨q, hq, -⟩
    · rw [heq]
    · cases hq
  | cons q puts ih =>
    have hq := hp q List.mem_cons_self
    have htail : ∀ p ∈ puts, p.Texts := fun p h => hp p (List.mem_cons_of_mem _ h)
    obtain ⟨⟨live, hlive, hatlive, hexp⟩, hlater⟩ := hstays
    have hliveold : live = old := (store.slotted hs room).eq_of_at hlive hold hatlive hatold
    subst hliveold
    -- the row that the put leaves in the slot
    obtain ⟨mid, hmid, hatmid⟩ : ∃ mid ∈ store.rows room (store.apply s q), mid.At slot := by
      cases puts with
      | nil => exact hlater
      | cons q' puts =>
        obtain ⟨⟨mid, hmid, hatmid, -⟩, -⟩ := hlater
        exact ⟨mid, hmid, hatmid⟩
    have hrest := ih (sound_apply hs hq) htail hlater hmid hatmid hrow
    have hmax : IsGreatest (insert live.revision (store.revisions room slot [q])) mid.revision := by
      by_cases hroom : room = store.roomOf q
      · subst hroom
        rcases apply_row hs hq hmid hatmid with ⟨old, hold', hatold', -, heq, hle⟩ | ⟨hel, heq, hlt⟩
        · have hsame := (store.slotted hs _).eq_of_at hold' hold hatold' hatold
          subst hsame
          refine ⟨.inl heq, fun n hn => ?_⟩
          rcases hn with rfl | ⟨q', hq', -, hel, rfl⟩
          · exact heq.ge
          · rw [List.mem_singleton.1 hq'] at hel ⊢
            exact (hle hel).trans heq.ge
        · refine ⟨.inr ⟨q, List.mem_singleton.2 rfl, rfl, hel, heq⟩, fun n hn => ?_⟩
          rcases hn with rfl | ⟨q', hq', -, -, rfl⟩
          · exact (hlt live hold hatold hexp).le.trans heq.ge
          · rw [List.mem_singleton.1 hq']
            exact heq.ge
      · have hsame := (store.slotted hs room).eq_of_at
          ((apply_frame hs hq hroom).mem_iff.1 hmid) hold hatmid hatold
        subst hsame
        refine ⟨.inl rfl, fun n hn => ?_⟩
        rcases hn with rfl | ⟨q', hq', hroom', -⟩
        · exact le_rfl
        · rw [List.mem_singleton.1 hq'] at hroom'
          exact absurd hroom'.symm hroom
    refine ⟨?_, fun n hn => ?_⟩
    · rcases hrest.1 with heq | ⟨q', hq', h'⟩
      · rw [heq]
        rcases hmax.1 with heq | ⟨q', hq', h'⟩
        · exact .inl heq
        · exact .inr ⟨q', List.mem_cons.2 (.inl (List.mem_singleton.1 hq')), h'⟩
      · exact .inr ⟨q', List.mem_cons_of_mem _ hq', h'⟩
    · have hmid' : mid.revision ≤ row.revision := hrest.2 (.inl rfl)
      rcases hn with rfl | ⟨q', hq', h'⟩
      · exact (hmax.2 (.inl rfl)).trans hmid'
      · rcases List.mem_cons.1 hq' with rfl | hq'
        · exact (hmax.2 (.inr ⟨q', List.mem_singleton.2 rfl, h'⟩)).trans hmid'
        · exact hrest.2 (.inr ⟨q', hq', h'⟩)

/-- What a store keeps over a sequence of puts. -/
structure KeepsLatest (store : StateStore) (puts : List StatePut) : Prop where
  /-- A put leaves what the policy makes of the rows it reads; a row that stays is unchanged. -/
  retains : ∀ before p later, puts = before ++ p :: later →
    ∃ r, p.retain (store.read (store.roomOf p) (store.after before)) = .ok r ∧
      ((store.rows (store.roomOf p) (store.after (before ++ [p]))).map StateRow.metadata).Perm
        (r.rows.map StateRow.metadata) ∧
      (∀ row ∈ store.rows (store.roomOf p) (store.after (before ++ [p])),
        row ∈ store.rows (store.roomOf p) (store.after before) ∨ r.added = some row) ∧
      ∀ room, room ≠ store.roomOf p →
        (store.rows room (store.after (before ++ [p]))).Perm (store.rows room (store.after before))
  /-- What a put reads is what is stored. -/
  reads : ∀ room, ((store.read room (store.after puts)).map StateRow.metadata).Perm
    ((store.rows room (store.after puts)).map StateRow.metadata)
  /-- A recipient and a key have at most one row. -/
  slotted : ∀ room, Slotted (store.rows room (store.after puts))
  bounded : ∀ room, Bounded (store.rows room (store.after puts))
  /-- A row that has stayed since a put has the largest revision that was put since. -/
  latest : ∀ before p later, puts = before ++ p :: later → ∀ slot,
    ¬store.LiveAt (store.after before) (store.roomOf p) slot p.now →
      store.Stays (store.roomOf p) slot (store.after (before ++ [p])) later →
        ∀ row ∈ store.rows (store.roomOf p) (store.after puts), row.At slot →
          IsGreatest (store.revisions (store.roomOf p) slot (p :: later)) row.revision
  /-- The revision of a slot does not decrease while it has an unexpired row. -/
  monotone : ∀ before p later, puts = before ++ p :: later → ∀ room slot,
    store.Stays room slot (store.after before) (p :: later) →
      ∀ old ∈ store.rows room (store.after before), old.At slot →
        ∀ row ∈ store.rows room (store.after puts), row.At slot → old.revision ≤ row.revision

theorem after_append (before later : List StatePut) :
    store.after (before ++ later) = later.foldl store.apply (store.after before) :=
  List.foldl_append

theorem after_snoc (before : List StatePut) (p : StatePut) :
    store.after (before ++ [p]) = store.apply (store.after before) p :=
  after_append before [p]

/-- A row that appears in a slot has the revision of the put. -/
theorem appears (hs : store.Sound s) (hp : p.Texts)
    (hgone : ¬store.LiveAt s (store.roomOf p) slot p.now) {row : StateRow}
    (hrow : row ∈ store.rows (store.roomOf p) (store.apply s p)) (hat : row.At slot) :
    p.Eligible slot ∧ row.revision = p.revision := by
  rcases apply_row hs hp hrow hat with ⟨old, hold, hatold, hlive, -⟩ | ⟨hel, heq, -⟩
  · exact absurd ⟨old, hold, hatold, hlive⟩ hgone
  · exact ⟨hel, heq⟩

theorem Stays.exists_row {later : List StatePut} (h : store.Stays room slot s later) :
    ∃ row ∈ store.rows room s, row.At slot := by
  cases later with
  | nil => exact h
  | cons q later =>
    obtain ⟨⟨row, hrow, hat, -⟩, -⟩ := h
    exact ⟨row, hrow, hat⟩

theorem revisions_cons (room : store.Room) (slot : Slot) (p : StatePut) (later : List StatePut)
    (hroom : store.roomOf p = room) (hel : p.Eligible slot) :
    store.revisions room slot (p :: later) =
      insert p.revision (store.revisions room slot later) := by
  ext n
  constructor
  · rintro ⟨q, hq, h⟩
    rcases List.mem_cons.1 hq with rfl | hq
    · exact .inl h.2.2
    · exact .inr ⟨q, hq, h⟩
  · rintro (rfl | ⟨q, hq, h⟩)
    · exact ⟨p, List.mem_cons_self, hroom, hel, rfl⟩
    · exact ⟨q, List.mem_cons_of_mem _ hq, h⟩

/-- **Every store keeps the latest revisions** over any puts of strings. -/
theorem keepsLatest (store : StateStore) {puts : List StatePut} (h : ∀ p ∈ puts, p.Texts) :
    store.KeepsLatest puts := by
  have hempty : ∀ room, Bounded (store.rows room store.start) := fun room => by
    rw [store.rows_start]
    exact ⟨Nat.zero_le _, Nat.zero_le _⟩
  have hsound : store.Sound (store.after puts) := sound_foldl store.sound_start h
  have hsplit : ∀ before p later, puts = before ++ p :: later →
      store.Sound (store.after before) ∧ p.Texts ∧ ∀ q ∈ later, q.Texts := by
    rintro before p later rfl
    obtain ⟨hbefore, hrest⟩ := List.forall_mem_append.1 h
    exact ⟨sound_foldl store.sound_start hbefore, List.forall_mem_cons.1 hrest⟩
  refine ⟨fun before p later he => ?_, store.read_perm hsound, store.slotted hsound,
    bounded_foldl store.sound_start h hempty,
    fun before p later he slot hgone hstays row hrow hat => ?_,
    fun before p later he room slot hstays old hold hatold row hrow hat => ?_⟩
  · obtain ⟨hs, hp, -⟩ := hsplit before p later he
    obtain ⟨t, r, hput, -, hr, hperm, hraw, hframe⟩ := store.put_ok hs hp
    have happly : store.after (before ++ [p]) = t := by rw [after_snoc, apply, hput]; rfl
    rw [happly]
    exact ⟨r, hr, hperm, hraw, hframe⟩
  · obtain ⟨hs, hp, hlater⟩ := hsplit before p later he
    rw [after_snoc] at hstays
    rw [he, after_append, List.foldl_cons] at hrow
    obtain ⟨first, hfirst, hatfirst⟩ := hstays.exists_row
    obtain ⟨hel, hrev⟩ := appears hs hp hgone hfirst hatfirst
    have hgreatest := isGreatest_foldl (sound_apply hs hp) hlater hstays hfirst hatfirst hrow hat
    rwa [hrev, ← revisions_cons _ _ p later rfl hel] at hgreatest
  · obtain ⟨hs, hp, hlater⟩ := hsplit before p later he
    rw [he, after_append] at hrow
    have hall : ∀ q ∈ p :: later, q.Texts := List.forall_mem_cons.2 ⟨hp, hlater⟩
    exact (isGreatest_foldl hs hall hstays hold hatold hrow hat).2 (.inl rfl)

end StateStore

/-! ## The two stores -/

theorem Slotted.nodup {rows : List StateRow} (h : Slotted rows) : rows.Nodup := by
  refine h.distinct.imp_of_mem fun {a b} ha _ hne heq => ?_
  obtain ⟨slot, hat⟩ := h.texts a ha
  exact hne slot hat (heq ▸ hat)

/-- A put of strings into the table succeeds. -/
theorem NodeStates.put_total (s : NodeStates) {p : StatePut} (h : p.Texts) :
    ∃ t, s.put p.room p.envelope p.raw p.now p.activity = .ok t := by
  obtain ⟨r, hr⟩ := StatePut.retain_total h (s.metadata p.room)
  obtain ⟨⟨slot, hn⟩, hgroup⟩ := h
  unfold StatePut.retain at hr
  simp only [NodeStates.put, hr, bind, Except.bind]
  cases hadded : r.added with
  | none => exact ⟨_, rfl⟩
  | some row =>
    have hrow : row = stateRow p.envelope p.raw p.now := by
      rcases retainState_ok hr with ⟨⟨-, hnone⟩, -⟩ | ⟨-, -, -, hnew, -⟩
      · rw [hadded] at hnone
        cases hnone
      · exact hnew row hadded
    have hslot : row.slot? = some slot :=
      StateRow.slot?_eq_some.2 (hrow ▸ stateRow_at hn p.raw p.now)
    have hbind : bindableGroup row.groupId = true := by rw [hrow]; exact hgroup
    dsimp only
    unfold NodeStates.insert
    split
    · rename_i hnone
      rw [hslot] at hnone
      cases hnone
    · rw [if_pos hbind]
      exact ⟨_, rfl⟩

/-- The rows of the room after a put. -/
theorem NodeStates.mem_room_put {s t : NodeStates} {p : StatePut} {slot : Slot}
    (hn : Names p.envelope slot) (h : s.put p.room p.envelope p.raw p.now p.activity = .ok t) :
    ∃ r, p.retain (s.metadata p.room) = .ok r ∧
      (∀ row, row ∈ t.room p.room ↔
        r.added = some row ∨ row ∈ s.room p.room ∧ row.metadata ∈ r.kept) ∧
      ∀ room, room ≠ p.room → (t.room room).Perm (s.room room) := by
  obtain ⟨r, hr, hslot, hget⟩ := NodeStates.put_ok h
  refine ⟨r, hr, fun row => ⟨fun hrow => ?_, ?_⟩, fun room hroom => ?_⟩
  · obtain ⟨slot', hrow⟩ := mem_room.1 hrow
    rw [hget, if_neg (not_not.2 rfl)] at hrow
    split_ifs at hrow with hadded hkept
    · exact .inl hrow
    · refine .inr ⟨mem_room.2 ⟨slot', hrow⟩, ?_⟩
      have hat' : row.At slot' := s.named _ _ hrow
      obtain ⟨old, hold, hat⟩ := List.any_eq_true.1 hkept
      have hmem : old ∈ s.metadata p.room :=
        (kept_append_dropped hr).mem_iff.1 (List.mem_append_left _ hold)
      have hmem' : row.metadata ∈ s.metadata p.room := (metadata_perm s p.room).mem_iff.2
        (List.mem_map_of_mem (mem_room.2 ⟨slot', hrow⟩))
      rwa [(slotted_metadata s p.room).eq_of_at hmem' hmem hat'
        (StateRow.slot?_eq_some.1 (of_decide_eq_true hat))]
  · rintro (hadded | ⟨hrow, hkept⟩)
    · obtain ⟨slot', hat⟩ := hslot row hadded
      refine mem_room.2 ⟨slot', ?_⟩
      rw [hget, if_neg (not_not.2 rfl), hadded, Option.any_some, if_pos]
      exact decide_eq_true (StateRow.slot?_eq_some.2 hat)
    · obtain ⟨slot', hrow⟩ := mem_room.1 hrow
      have hat : row.At slot' := s.named _ _ hrow
      refine mem_room.2 ⟨slot', ?_⟩
      rw [hget, if_neg (not_not.2 rfl), if_neg, if_pos, hrow]
      · exact List.any_eq_true.2
          ⟨row.metadata, hkept, decide_eq_true (StateRow.slot?_eq_some.2 hat)⟩
      · intro hany
        obtain ⟨new, hnew, hat'⟩ := (Option.any_eq_true _ _).1 hany
        have hslotted := (slotted_metadata s p.room).retainState hn hr
        exact (List.pairwise_append.1 hslotted.distinct).2.2 _ hkept new
          (Option.mem_toList.2 hnew) slot' hat
          (StateRow.slot?_eq_some.1 (of_decide_eq_true hat'))
  · refine (List.perm_ext_iff_of_nodup (slotted_room t room).nodup
      (slotted_room s room).nodup).2 fun row => ?_
    rw [mem_room, mem_room]
    refine exists_congr fun slot' => ?_
    rw [hget, if_pos hroom]

/-- What a put leaves in the room of the table. -/
theorem NodeStates.room_put_perm {s t : NodeStates} {p : StatePut} {r : Retained} {slot : Slot}
    (hn : Names p.envelope slot) (hr : p.retain (s.metadata p.room) = .ok r)
    (hmem : ∀ row, row ∈ t.room p.room ↔
      r.added = some row ∨ row ∈ s.room p.room ∧ row.metadata ∈ r.kept) :
    ((t.room p.room).map StateRow.metadata).Perm (r.rows.map StateRow.metadata) := by
  have hslotted := (slotted_metadata s p.room).retainState hn hr
  refine (List.perm_ext_iff_of_nodup (slotted_room t p.room).metadata.nodup
    hslotted.metadata.nodup).2 fun x => ?_
  rw [List.mem_map, List.mem_map]
  constructor
  · rintro ⟨row, hrow, rfl⟩
    rcases (hmem row).1 hrow with hadded | ⟨-, hkept⟩
    · exact ⟨row, List.mem_append_right _ (Option.mem_toList.2 hadded), rfl⟩
    · exact ⟨row.metadata, List.mem_append_left _ hkept, rfl⟩
  · rintro ⟨row, hrow, rfl⟩
    rcases List.mem_append.1 hrow with hkept | hadded
    · obtain ⟨old, hold, rfl⟩ := List.mem_map.1 ((metadata_perm s p.room).mem_iff.1
        ((kept_append_dropped hr).mem_iff.1 (List.mem_append_left _ hkept)))
      exact ⟨old, (hmem old).2 (.inr ⟨hold, hkept⟩), rfl⟩
    · exact ⟨row, (hmem row).2 (.inl (Option.mem_toList.1 hadded)), rfl⟩

/-- The table of the Node relay. -/
def nodeStates : StateStore where
  State := NodeStates
  Room := Str
  start := .empty
  roomOf := StatePut.room
  rows := fun room s => s.room room
  read := fun room s => s.metadata room
  put := fun s p => s.put p.room p.envelope p.raw p.now p.activity
  Sound := fun _ => True
  sound_start := trivial
  rows_start := fun _ => rfl
  slotted := fun _ room => NodeStates.slotted_room _ room
  read_perm := fun {s} _ room => by
    have h := (NodeStates.metadata_perm s room).map StateRow.metadata
    rwa [List.map_map] at h
  put_ok := fun {s p} _ hp => by
    obtain ⟨t, ht⟩ := s.put_total hp
    obtain ⟨⟨slot, hn⟩, -⟩ := hp
    obtain ⟨r, hr, hmem, hframe⟩ := NodeStates.mem_room_put hn ht
    exact ⟨t, r, ht, trivial, hr, NodeStates.room_put_perm hn hr hmem,
      fun row hrow => ((hmem row).1 hrow).symm.imp_left And.left, hframe⟩

/-- A put of strings into a Durable Object succeeds. -/
theorem WorkerStates.put_total (s : WorkerStates) {p : StatePut} (h : p.Texts) :
    ∃ t, s.put p.envelope p.raw p.now p.activity = .ok t := by
  obtain ⟨r, hr⟩ := StatePut.retain_total h s.rows
  unfold StatePut.retain at hr
  simp only [WorkerStates.put, hr, bind, Except.bind]
  exact ⟨_, rfl⟩

/-- The storage of a Durable Object, whose puts are all for its room. -/
def workerStates : StateStore where
  State := WorkerStates
  Room := Unit
  start := .empty
  roomOf := fun _ => ()
  rows := fun _ s => s.rows
  read := fun _ s => s.rows
  put := fun s p => s.put p.envelope p.raw p.now p.activity
  Sound := fun s => ∃ rows, s.Holds rows
  sound_start := ⟨[], .empty⟩
  rows_start := fun _ => rfl
  slotted := fun {s} ⟨rows, h⟩ _ => by rw [h.rows_eq]; exact h.slotted
  read_perm := fun _ _ => .refl _
  put_ok := fun {s p} ⟨rows, h⟩ hp => by
    obtain ⟨t, ht⟩ := s.put_total hp
    obtain ⟨⟨slot, hn⟩, -⟩ := hp
    obtain ⟨r, hr, hholds⟩ := h.put hn ht
    rw [← h.rows_eq] at hr
    refine ⟨t, r, ht, ⟨_, hholds⟩, hr, by rw [hholds.rows_eq], fun row hrow => ?_,
      fun room hroom => absurd rfl hroom⟩
    rw [hholds.rows_eq] at hrow
    rcases List.mem_append.1 hrow with hkept | hadded
    · exact .inl ((kept_append_dropped hr).mem_iff.1 (List.mem_append_left _ hkept))
    · exact .inr (Option.mem_toList.1 hadded)

/-- **Retained state is the latest revision, within its bounds**: for any puts both stores keep
what the policy says, and the storage of the Worker is exactly that of its rows. -/
theorem retained_state_latest (puts : List StatePut) (h : ∀ p ∈ puts, p.Texts) :
    nodeStates.KeepsLatest puts ∧ workerStates.KeepsLatest puts ∧
      (workerStates.after puts).Holds (workerStates.after puts).rows := by
  refine ⟨nodeStates.keepsLatest h, workerStates.keepsLatest h, ?_⟩
  have hsound : workerStates.Sound (workerStates.after puts) :=
    StateStore.sound_foldl workerStates.sound_start h
  obtain ⟨rows, hrows⟩ := hsound
  exact hrows.rows_eq.symm ▸ hrows

/-- A put of the catalog with a revision. -/
def sampleStatePut (revision now : ℤ) : StatePut where
  room := lit "0123456789abcdef"
  envelope := .obj
    [(lit "from", .text "machine"), (lit "to", .text "phone"),
      (lit "recipientKeyId", .str (List.replicate 64 97)), (lit "expiresAt", .int 9000),
      (lit "stateKey", .str (List.replicate 64 98)), (lit "stateRevision", .int revision),
      (lit "statePriority", .int 1)]
  raw := lit "ciphertext"
  now := now
  activity := []

/-- An older revision after a newer one does not replace it. -/
theorem retained_state_latest_sample :
    ((workerStates.after [sampleStatePut 5 1000, sampleStatePut 3 2000]).rows.map (·.revision) = [5] ∧
      (NodeStates.room (nodeStates.after [sampleStatePut 5 1000, sampleStatePut 3 2000])
        (sampleStatePut 5 1000).room).map (·.revision) = [5]) ∧
      nodeStates.KeepsLatest [sampleStatePut 5 1000, sampleStatePut 3 2000] ∧
        workerStates.KeepsLatest [sampleStatePut 5 1000, sampleStatePut 3 2000] ∧
        (workerStates.after [sampleStatePut 5 1000, sampleStatePut 3 2000]).Holds
          (workerStates.after [sampleStatePut 5 1000, sampleStatePut 3 2000]).rows := by
  refine ⟨by decide +kernel, retained_state_latest _ fun p hp => ?_⟩
  have htexts : ∀ revision now, (sampleStatePut revision now).Texts := fun revision now =>
    ⟨⟨(List.replicate 64 97, List.replicate 64 98), rfl, rfl⟩, rfl⟩
  simp only [List.mem_cons, List.not_mem_nil, or_false] at hp
  rcases hp with rfl | rfl
  · exact htexts _ _
  · exact htexts _ _

end GrantTap
