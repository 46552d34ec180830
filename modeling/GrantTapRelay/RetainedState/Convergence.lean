import GrantTapRelay.Relay.WireGrammar
import GrantTapRelay.RetainedState.Pressure
import Mathlib.Data.List.Find

/-!
# Retained state converges

Frames that fit a room together leave it in the same rows, whatever order they arrive in: of each
slot the frame of the largest revision among those that may be stored. A slot is what the policy
compares with `===`, so a recipient or key inside an array is a slot of its own.

* `Latest`: a frame of the largest revision in its slot.
* `Holding`: the rows are those of the latest frames of the ones that arrived.
* `retained_state_converges`: **the rows do not depend on the order.**
-/

namespace GrantTap

open Js

namespace StatePut

/-- The row that a put inserts. -/
def row (p : StatePut) : StateRow := stateRow p.envelope p.raw p.now

/-- Two puts are for one slot. -/
def sameSlot (p q : StatePut) : Bool :=
  Value.same (p.envelope.get (lit "recipientKeyId")) (q.envelope.get (lit "recipientKeyId")) &&
    Value.same (p.envelope.get (lit "stateKey")) (q.envelope.get (lit "stateKey"))

/-- The put may be stored. -/
def Storable (p : StatePut) : Prop := retainable p.envelope p.raw p.now = .ok true

/-- A put that may be stored, of the largest revision of those for its slot. -/
def Latest (puts : List StatePut) (p : StatePut) : Prop :=
  p ∈ puts ∧ p.Storable ∧ ∀ q ∈ puts, q.Storable → q.sameSlot p = true → q.revision ≤ p.revision

/-- The rows after some puts into an empty room. -/
def retainAll (puts : List StatePut) : Except Throw (List StateRow) :=
  puts.foldlM (fun rows p => (p.retain rows).map Retained.rows) []

variable {p q : StatePut}

theorem sameSlot_comm (p q : StatePut) : p.sameSlot q = q.sameSlot p := by
  unfold sameSlot
  rw [Value.same_comm, Value.same_comm (p.envelope.get (lit "stateKey"))]

theorem sameSlot_trans {o : StatePut} (h : o.sameSlot p = true) (h' : p.sameSlot q = true) :
    o.sameSlot q = true := by
  unfold sameSlot at h h' ⊢
  rw [Bool.and_eq_true] at h h' ⊢
  exact ⟨Value.same_trans h.1 h'.1, Value.same_trans h.2 h'.2⟩

/-- A stored frame has a recipient, a key and an expiry that has not passed. -/
theorem Storable.members (h : p.Storable) :
    (∃ j, p.envelope.get (lit "recipientKeyId") = some j) ∧
      (∃ j, p.envelope.get (lit "stateKey") = some j) ∧ p.now < p.row.expiresAt := by
  unfold Storable retainable at h
  split_ifs at h with hkey
  · cases h
  obtain ⟨valid, hvalid, h⟩ := except_map_ok.1 h
  simp only [Bool.and_eq_true] at h
  obtain rfl := h.1.1.1
  rw [Bool.not_eq_true', Bool.not_eq_false] at hkey
  have hsome : ∀ {v : Value}, v.nullish ≠ true → ∃ j, v = some j := by
    rintro (_ | j) hv
    · exact absurd rfl hv
    · exact ⟨j, rfl⟩
  refine ⟨hsome fun hnullish => ?_, hsome ?_, of_decide_eq_true h.1.1.2⟩
  · rcases (validRetainedState_iff _ _).1 hvalid with hstate | hstate
    · have hnullish := hstate.1
      rw [Value.not_nullish_of_truthy hkey] at hnullish
      cases hnullish
    · exact not_digestLike_of_nullish hnullish hstate.recipient
  · rw [Value.not_nullish_of_truthy hkey]
    exact Bool.false_ne_true

/-- A stored row lies in the slot of a put when their puts are for one slot. -/
theorem Storable.inSlot_iff (h : p.Storable) (q : StatePut) :
    inSlot q.envelope p.row = p.sameSlot q := by
  obtain ⟨⟨recipient, hrecipient⟩, ⟨key, hkey⟩, -⟩ := h.members
  unfold inSlot sameSlot row stateRow
  rw [hrecipient, hkey]
  rfl

/-! ## One put -/

/-- The rows are those of the latest of some puts. -/
structure Holding (puts kept : List StatePut) : Prop where
  latest : ∀ p, p ∈ kept ↔ Latest puts p
  subperm : kept.Subperm puts
  apart : kept.Pairwise fun p q => p.sameSlot q = false
  /-- A slot of the puts has a row. -/
  covers : ∀ q ∈ puts, q.Storable → q.sameSlot q = true →
    ∃ p ∈ kept, p.sameSlot q = true ∧ q.revision ≤ p.revision

theorem holding_nil : Holding [] [] where
  latest _ := ⟨fun h => absurd h List.not_mem_nil, fun h => absurd h.1 List.not_mem_nil⟩
  subperm := .refl _
  apart := .nil
  covers _ h := absurd h List.not_mem_nil

variable {puts kept : List StatePut}

theorem Latest.of_snoc (h : Latest (puts ++ [q]) p) (hp : p ∈ puts) : Latest puts p :=
  ⟨hp, h.2.1, fun o ho => h.2.2 o (List.mem_append_left _ ho)⟩

theorem Latest.snoc (h : Latest puts p)
    (hq : q.Storable → q.sameSlot p = true → q.revision ≤ p.revision) :
    Latest (puts ++ [q]) p := by
  refine ⟨List.mem_append_left _ h.1, h.2.1, fun o ho hstorable hsame => ?_⟩
  rcases List.mem_append.1 ho with ho | ho
  · exact h.2.2 o ho hstorable hsame
  · rw [List.mem_singleton.1 ho] at hstorable hsame ⊢
    exact hq hstorable hsame

namespace Holding

/-- Puts in one slot that are kept are one put. -/
theorem eq_of_sameSlot (h : Holding puts kept) {o : StatePut} (hp : p ∈ kept) (ho : o ∈ kept)
    (hsame : p.sameSlot o = true) : p = o := by
  have : Std.Symm fun p q : StatePut => p.sameSlot q = false :=
    ⟨fun p q hpq => (sameSlot_comm q p).trans hpq⟩
  refine Classical.not_not.1 fun hne => ?_
  rw [h.apart.forall hp ho hne] at hsame
  cases hsame

/-- A put that is ignored: it may not be stored, or its slot has a newer row. -/
theorem ignore (h : Holding puts kept) (hq : q.Storable → ∃ o ∈ kept, o.sameSlot q = true ∧
    q.revision < o.revision) : Holding (puts ++ [q]) kept where
  latest p := by
    constructor
    · intro hp
      refine ((h.latest p).1 hp).snoc fun hstorable hsame => ?_
      obtain ⟨o, ho, hslot, hlt⟩ := hq hstorable
      rw [h.eq_of_sameSlot hp ho (sameSlot_trans (sameSlot_comm q p ▸ hsame)
        (sameSlot_comm o q ▸ hslot))]
      exact hlt.le
    · intro hp
      rcases List.mem_append.1 hp.1 with hin | hin
      · exact (h.latest p).2 (hp.of_snoc hin)
      · rw [List.mem_singleton.1 hin] at hp
        obtain ⟨o, ho, hslot, hlt⟩ := hq hp.2.1
        have hlatest := (h.latest o).1 ho
        exact absurd (hp.2.2 o (List.mem_append_left _ hlatest.1) hlatest.2.1 hslot) (not_le.2 hlt)
  subperm := h.subperm.trans (List.sublist_append_left ..).subperm
  apart := h.apart
  covers o ho hstorable hself := by
    rcases List.mem_append.1 ho with ho | ho
    · exact h.covers o ho hstorable hself
    · rw [List.mem_singleton.1 ho] at hstorable hself ⊢
      obtain ⟨p, hp, hslot, hlt⟩ := hq hstorable
      exact ⟨p, hp, hslot, hlt.le⟩

/-- A put that is inserted: it takes the place of the older one of its slot. -/
theorem insert (h : Holding puts kept) (hstorable : q.Storable)
    (hnewer : ∀ o ∈ kept, o.sameSlot q = true → o.revision < q.revision) :
    Holding (puts ++ [q]) (kept.eraseP (·.sameSlot q) ++ [q]) := by
  have hmem : ∀ o, o ∈ kept.eraseP (·.sameSlot q) ↔ o ∈ kept ∧ o.sameSlot q = false := by
    intro o
    refine ⟨fun ho => ⟨List.mem_of_mem_eraseP ho, ?_⟩, fun ho => ?_⟩
    · rw [← Bool.not_eq_true]
      intro hsame
      rcases List.exists_or_eq_self_of_eraseP (·.sameSlot q) kept with
        hself | ⟨old, before, after, hbefore, hold, hkept, herase⟩
      · exact List.eraseP_eq_self_iff.1 hself o (List.mem_of_mem_eraseP ho) hsame
      · rw [herase] at ho
        rcases List.mem_append.1 ho with ho | ho
        · exact hbefore o ho hsame
        · have hapart := h.apart
          rw [hkept, List.pairwise_append, List.pairwise_cons] at hapart
          have hslot := sameSlot_trans hold ((sameSlot_comm q o).trans hsame)
          rw [hapart.2.1.1 o ho] at hslot
          cases hslot
    · refine (List.mem_eraseP_of_neg ?_).2 ho.1
      rw [ho.2]
      exact Bool.false_ne_true
  have hcovered : ∀ o ∈ puts, o.Storable → o.sameSlot q = true → o.revision ≤ q.revision := by
    intro o ho hostorable hsame
    have hself := sameSlot_trans hsame ((sameSlot_comm q o).trans hsame)
    obtain ⟨p, hp, hslot, hle⟩ := h.covers o ho hostorable hself
    exact hle.trans (hnewer p hp (sameSlot_trans hslot hsame)).le
  have hlast : q ∈ puts ++ [q] := List.mem_append_right _ (List.mem_singleton_self q)
  refine ⟨fun p => ⟨fun hp => ?_, fun hp => ?_⟩, ?_, ?_, fun o ho hostorable hself => ?_⟩
  · rcases List.mem_append.1 hp with hp | hp
    · obtain ⟨hp, hslot⟩ := (hmem p).1 hp
      refine ((h.latest p).1 hp).snoc fun _ hsame => ?_
      rw [sameSlot_comm, hslot] at hsame
      cases hsame
    · rw [List.mem_singleton.1 hp]
      refine ⟨hlast, hstorable, fun o ho hostorable hsame => ?_⟩
      rcases List.mem_append.1 ho with ho | ho
      · exact hcovered o ho hostorable hsame
      · rw [List.mem_singleton.1 ho]
  · rcases List.mem_append.1 hp.1 with hin | hin
    · have hkept := (h.latest p).2 (hp.of_snoc hin)
      refine List.mem_append_left _ ((hmem p).2 ⟨hkept, ?_⟩)
      rw [← Bool.not_eq_true]
      intro hsame
      have hle := hp.2.2 q hlast hstorable ((sameSlot_comm q p).trans hsame)
      exact absurd hle (not_le.2 (hnewer p hkept hsame))
    · exact List.mem_append_right _ hin
  · exact (List.subperm_append_right [q]).2 (List.eraseP_sublist.subperm.trans h.subperm)
  · refine List.pairwise_append.2 ⟨h.apart.sublist List.eraseP_sublist, List.pairwise_singleton ..,
      fun o ho o' ho' => ?_⟩
    rw [List.mem_singleton.1 ho']
    exact ((hmem o).1 ho).2
  · rcases List.mem_append.1 ho with ho | ho
    · obtain ⟨p, hp, hslot, hle⟩ := h.covers o ho hostorable hself
      by_cases hsame : p.sameSlot q = true
      · refine ⟨q, List.mem_append_right _ (List.mem_singleton_self q),
          sameSlot_trans ((sameSlot_comm q p).trans hsame) hslot, ?_⟩
        exact hle.trans (hnewer p hp hsame).le
      · rw [Bool.not_eq_true] at hsame
        exact ⟨p, List.mem_append_left _ ((hmem p).2 ⟨hp, hsame⟩), hslot, hle⟩
    · rw [List.mem_singleton.1 ho] at hself ⊢
      exact ⟨q, List.mem_append_right _ (List.mem_singleton_self q), hself, le_rfl⟩

end Holding

/-! ## Any order -/

/-- The bytes of the frames. -/
def bytesOf (puts : List StatePut) : ℕ := (puts.map fun p => utf8Length p.raw).sum

theorem totalBytes_map_row (puts : List StatePut) : totalBytes (puts.map row) = bytesOf puts := by
  rw [totalBytes, List.map_map]
  rfl

/-- The rows of some of the puts that fit a room fit it. -/
theorem bounded_of_subperm (h : kept.Subperm puts) (hcount : puts.length ≤ STATE_ROOM_SLOTS)
    (hbytes : bytesOf puts ≤ STATE_ROOM_BYTES) : StateStore.Bounded (kept.map row) := by
  obtain ⟨kept', hperm, hsub⟩ := h
  refine ⟨?_, ?_⟩
  · rw [List.length_map, ← hperm.length_eq]
    exact hsub.length_le.trans hcount
  · rw [totalBytes_map_row, bytesOf, ← (hperm.map _).sum_eq]
    exact (List.Sublist.sum_le_sum (hsub.map _) fun _ _ => Nat.zero_le _).trans hbytes

/-- A put that is not newer than the row of its slot, or that may not be stored, leaves the rows. -/
theorem retain_ignored (rows : List StateRow)
    (h : retainable q.envelope q.raw q.now = .ok false ∨ q.Storable ∧
      ∃ existing, (liveRows rows q.now).find? (inSlot q.envelope) = some existing ∧
        q.revision ≤ existing.revision) :
    ∃ r, q.retain rows = .ok r ∧ r.rows = liveRows rows q.now := by
  refine ⟨⟨liveRows rows q.now, rows.filter fun row => row.expiresAt ≤ q.now, none⟩, ?_,
    List.append_nil _⟩
  unfold retain retainState
  rcases h with h | ⟨h, existing, hfind, hle⟩
  · simp only [h, bind, Except.bind]
    rfl
  · have hold : ((liveRows rows q.now).find? (inSlot q.envelope)).any
        (fun existing => (stateRow q.envelope q.raw q.now).revision ≤ existing.revision) = true :=
      (Option.any_eq_true ..).2 ⟨existing, hfind, decide_eq_true hle⟩
    unfold Storable at h
    simp only [h, bind, Except.bind, Bool.not_true, Bool.false_eq_true, if_false]
    exact if_pos hold

theorem eraseP_congr {α : Type*} {p₁ p₂ : α → Bool} :
    ∀ {l : List α}, (∀ a ∈ l, p₁ a = p₂ a) → l.eraseP p₁ = l.eraseP p₂
  | [], _ => rfl
  | a :: l, h => by
    rw [List.eraseP_cons, List.eraseP_cons, h a List.mem_cons_self,
      eraseP_congr fun b hb => h b (List.mem_cons_of_mem a hb)]

namespace Holding

theorem storable (h : Holding puts kept) (hp : p ∈ kept) : p.Storable := ((h.latest p).1 hp).2.1

/-- The row of the slot of a put. -/
theorem find?_inSlot (h : Holding puts kept) (q : StatePut) :
    (kept.map row).find? (inSlot q.envelope) = (kept.find? (·.sameSlot q)).map row := by
  rw [List.find?_map]
  congr 1
  exact List.find?_congr fun o ho => (h.storable ho).inSlot_iff q

theorem eraseP_inSlot (h : Holding puts kept) (q : StatePut) :
    (kept.map row).eraseP (inSlot q.envelope) = (kept.eraseP (·.sameSlot q)).map row := by
  rw [List.eraseP_map]
  congr 1
  exact eraseP_congr fun o ho => (h.storable ho).inSlot_iff q

end Holding

/-- **One put** into the rows of the latest puts. -/
theorem retain_holding (h : Holding puts kept)
    (hvalid : validRetainedState q.envelope q.now = .ok true) (hnow : ∀ p ∈ puts, p.now = q.now)
    (hdistinct : ∀ p ∈ puts, p.sameSlot q = true → p.revision ≠ q.revision)
    (hcount : (puts ++ [q]).length ≤ STATE_ROOM_SLOTS)
    (hbytes : bytesOf (puts ++ [q]) ≤ STATE_ROOM_BYTES) :
    ∃ r kept', q.retain (kept.map row) = .ok r ∧ r.rows = kept'.map row ∧
      Holding (puts ++ [q]) kept' := by
  have hlive : liveRows (kept.map row) q.now = kept.map row := by
    refine List.filter_eq_self.2 fun old hold => ?_
    obtain ⟨p, hp, rfl⟩ := List.mem_map.1 hold
    rw [← hnow p ((h.latest p).1 hp).1]
    exact decide_eq_true (h.storable hp).members.2.2
  have hverdict : ∃ b, retainable q.envelope q.raw q.now = .ok b := by
    unfold retainable
    rw [hvalid]
    split_ifs
    · exact ⟨_, rfl⟩
    · exact ⟨_, rfl⟩
  obtain ⟨b, hb⟩ := hverdict
  cases b with
  | false =>
    obtain ⟨r, hr, hrows⟩ := retain_ignored (kept.map row) (.inl hb)
    rw [hlive] at hrows
    refine ⟨r, kept, hr, hrows, h.ignore fun hstorable => ?_⟩
    rw [Storable, hb] at hstorable
    cases hstorable
  | true =>
    have hfind := h.find?_inSlot q
    have hinsert (hnewer : ∀ o ∈ kept, o.sameSlot q = true → o.revision < q.revision) :
        ∃ r kept', q.retain (kept.map row) = .ok r ∧ r.rows = kept'.map row ∧
          Holding (puts ++ [q]) kept' := by
      have hkept := h.insert hb hnewer
      have hinserted : insertedRows (kept.map row) q.envelope q.raw q.now =
          (kept.eraseP (·.sameSlot q) ++ [q]).map row := by
        rw [insertedRows, hlive, h.eraseP_inSlot, List.map_append]
        rfl
      have hinserts : Inserts (kept.map row) q.envelope q.raw q.now := by
        refine ⟨hb, fun existing hexisting => ?_⟩
        rw [hlive, hfind] at hexisting
        obtain ⟨o, ho, rfl⟩ := Option.map_eq_some_iff.1 hexisting
        exact hnewer o (List.mem_of_find?_eq_some ho) (List.find?_some (p := fun o : StatePut => o.sameSlot q) ho)
      obtain ⟨r, hr, -⟩ := retainState_inserts hinserts q.activity
      obtain ⟨evicted, rest, hrelieved⟩ := cache_pressure hinserts hr
      refine ⟨r, _, hr, ?_, hkept⟩
      rw [← hinserted]
      refine hrelieved.idle ?_
      rw [hinserted]
      exact bounded_of_subperm hkept.subperm hcount hbytes
    cases hexisting : kept.find? (·.sameSlot q) with
    | none =>
      refine hinsert fun o ho hslot => ?_
      exact absurd hslot (List.find?_eq_none.1 hexisting o ho)
    | some o =>
      have ho := List.mem_of_find?_eq_some hexisting
      have hslot : o.sameSlot q = true := by
        simpa using List.find?_some hexisting
      rcases lt_or_gt_of_ne (hdistinct o ((h.latest o).1 ho).1 hslot) with hlt | hgt
      · refine hinsert fun o' ho' hslot' => ?_
        have hsame : o' = o :=
          h.eq_of_sameSlot ho' ho (sameSlot_trans hslot' ((sameSlot_comm q o).trans hslot))
        rw [hsame]
        exact hlt
      · obtain ⟨r, hr, hrows⟩ := retain_ignored (kept.map row)
          (.inr ⟨hb, o.row, by rw [hlive, hfind, hexisting]; rfl, hgt.le⟩)
        rw [hlive] at hrows
        exact ⟨r, kept, hr, hrows, h.ignore fun _ => ⟨o, ho, hslot, hgt⟩⟩

/-- **After any order** of puts that fit a room together. -/
theorem retainAll_holding {now : ℤ} (hnow : ∀ p ∈ puts, p.now = now)
    (hvalid : ∀ p ∈ puts, validRetainedState p.envelope now = .ok true)
    (hdistinct : puts.Pairwise fun p q => p.sameSlot q = true → p.revision ≠ q.revision)
    (hcount : puts.length ≤ STATE_ROOM_SLOTS) (hbytes : bytesOf puts ≤ STATE_ROOM_BYTES) :
    ∃ kept, retainAll puts = .ok (kept.map row) ∧ Holding puts kept := by
  induction puts using List.reverseRecOn with
  | nil => exact ⟨[], rfl, holding_nil⟩
  | append_singleton puts q ih =>
    have hmem : ∀ p ∈ puts, p ∈ puts ++ [q] := fun p hp => List.mem_append_left _ hp
    have hlast : q ∈ puts ++ [q] := List.mem_append_right _ (List.mem_singleton_self q)
    obtain ⟨hbefore, -, hpairs⟩ := List.pairwise_append.1 hdistinct
    have hcount' : puts.length ≤ STATE_ROOM_SLOTS := by
      rw [List.length_append] at hcount
      omega
    have hbytes' : bytesOf puts ≤ STATE_ROOM_BYTES := by
      rw [bytesOf, List.map_append, List.sum_append] at hbytes
      exact (Nat.le_add_right ..).trans hbytes
    obtain ⟨kept, hkept, hholding⟩ := ih (fun p hp => hnow p (hmem p hp))
      (fun p hp => hvalid p (hmem p hp)) hbefore hcount' hbytes'
    have hq := hnow q hlast
    obtain ⟨r, kept', hr, hrows, hholding'⟩ := retain_holding hholding
      (by rw [hq]; exact hvalid q hlast)
      (fun p hp => (hnow p (hmem p hp)).trans hq.symm)
      (fun p hp => hpairs p hp q (List.mem_singleton_self q)) hcount hbytes
    refine ⟨kept', ?_, hholding'⟩
    have hfold : retainAll (puts ++ [q]) =
        retainAll puts >>= fun rows => (q.retain rows).map Retained.rows := by
      rw [retainAll, List.foldlM_append]
      simp only [List.foldlM_cons, List.foldlM_nil, bind_pure]
      rfl
    rw [hfold, hkept, ← hrows]
    change (q.retain (kept.map row)).map Retained.rows = _
    rw [hr]
    rfl

end StatePut

open StatePut in
/-- **Convergence.** Valid frames with different revisions in each slot, which fit a room together,
leave the same rows in any two orders: those of the latest frames that may be stored. -/
theorem retained_state_converges {now : ℤ} {puts : List StatePut} (hnow : ∀ p ∈ puts, p.now = now)
    (hvalid : ∀ p ∈ puts, validRetainedState p.envelope now = .ok true)
    (hdistinct : puts.Pairwise fun p q => p.sameSlot q = true → p.revision ≠ q.revision)
    (hcount : puts.length ≤ STATE_ROOM_SLOTS) (hbytes : bytesOf puts ≤ STATE_ROOM_BYTES)
    {order order' : List StatePut} (horder : order.Perm puts) (horder' : order'.Perm puts) :
    ∃ rows rows', retainAll order = .ok rows ∧ retainAll order' = .ok rows' ∧
      (∀ row, row ∈ rows ↔ row ∈ rows') ∧
      ∀ row, row ∈ rows ↔ ∃ p, Latest puts p ∧ row = p.row := by
  have hsymm : Std.Symm fun p q : StatePut => p.sameSlot q = true → p.revision ≠ q.revision :=
    ⟨fun p q h hsame => (h ((sameSlot_comm p q).trans hsame)).symm⟩
  have hrows : ∀ {order : List StatePut}, order.Perm puts → ∃ rows, retainAll order = .ok rows ∧
      ∀ row, row ∈ rows ↔ ∃ p, Latest puts p ∧ row = p.row := by
    intro order horder
    have hlatest : ∀ p, Latest order p ↔ Latest puts p := by
      intro p
      unfold Latest
      simp only [horder.mem_iff]
    obtain ⟨kept, hkept, hholding⟩ := retainAll_holding
      (fun p hp => hnow p (horder.mem_iff.1 hp)) (fun p hp => hvalid p (horder.mem_iff.1 hp))
      ((horder.pairwise_iff (fun h => hsymm.symm _ _ h)).2 hdistinct)
      (horder.length_eq ▸ hcount) (by rw [bytesOf, (horder.map _).sum_eq]; exact hbytes)
    refine ⟨_, hkept, fun row => ?_⟩
    rw [List.mem_map]
    simp only [hholding.latest, hlatest]
    exact exists_congr fun p => and_congr_right fun _ => eq_comm
  obtain ⟨rows, hok, hmem⟩ := hrows horder
  obtain ⟨rows', hok', hmem'⟩ := hrows horder'
  exact ⟨rows, rows', hok, hok', fun row => (hmem row).trans (hmem' row).symm, hmem⟩

/-- Of an older and a newer frame of one slot the newer one stays, whichever arrives first. -/
theorem retained_state_converges_sample :
    ∃ rows rows', StatePut.retainAll [sampleStatePut 5 1000, sampleStatePut 3 1000] = .ok rows ∧
      StatePut.retainAll [sampleStatePut 3 1000, sampleStatePut 5 1000] = .ok rows' ∧
      (∀ row, row ∈ rows ↔ row ∈ rows') ∧ ∀ row ∈ rows, row.revision = 5 := by
  have hmem : ∀ p ∈ [sampleStatePut 5 1000, sampleStatePut 3 1000],
      p = sampleStatePut 5 1000 ∨ p = sampleStatePut 3 1000 := fun p hp => by simpa using hp
  obtain ⟨rows, rows', hok, hok', hsame, hrows⟩ := @retained_state_converges 1000
    [sampleStatePut 5 1000, sampleStatePut 3 1000] (fun p hp => by rcases hmem p hp with rfl | rfl <;> rfl)
    (fun p hp => by rcases hmem p hp with rfl | rfl <;> decide +kernel)
    (by simp only [List.pairwise_pair]; decide +kernel) (by decide) (by decide +kernel)
    [sampleStatePut 5 1000, sampleStatePut 3 1000] [sampleStatePut 3 1000, sampleStatePut 5 1000]
    (.refl _) (.swap ..)
  refine ⟨rows, rows', hok, hok', hsame, fun row hrow => ?_⟩
  obtain ⟨p, hp, rfl⟩ := (hrows row).1 hrow
  rcases hmem p hp.1 with rfl | rfl
  · decide +kernel
  · have hle := hp.2.2 (sampleStatePut 5 1000) List.mem_cons_self (by
      unfold StatePut.Storable
      decide +kernel) (by decide +kernel)
    have hlt : ¬(sampleStatePut 5 1000).revision ≤ (sampleStatePut 3 1000).revision := by
      decide +kernel
    exact absurd hle hlt

end GrantTap
