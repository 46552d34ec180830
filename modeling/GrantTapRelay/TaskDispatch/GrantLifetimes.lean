import GrantTapRelay.TaskDispatch.Registries

/-!
# How long a grant lasts

A commit never replaces a grant that is there, and deletes those whose retention is over; a
revocation is recorded once. So a grant is the same from its commit on, but for its first revocation
(`WriterGrant.afterEvent`), until seven days after that or after its expiry.

* `Registry.grantsOf_ask`: one request.
* `grant_lasts`: **any run** of both runtimes.
-/

namespace GrantTap

open Js Expiring Loads

/-- What an event makes of the grant of an id: its first revocation is recorded. -/
def WriterGrant.afterEvent (room id : Str) (row : WriterGrant) (e : ℤ × RegistryEvent) :
    WriterGrant :=
  match e.2 with
  | .ask room' (.revoke id') =>
    if room' = room ∧ id' = id ∧ row.revokedAt = none then { row with revokedAt := some e.1 }
    else row
  | _ => row

/-- The grant after some events. -/
def WriterGrant.afterEvents (room id : Str) (row : WriterGrant)
    (events : List (ℤ × RegistryEvent)) : WriterGrant :=
  events.foldl (WriterGrant.afterEvent room id) row

variable {sha256 : Str → Str} {s : Registry} {p : Registries} {room room' id : Str} {now now' : ℤ}
  {row : WriterGrant}

/-- A revocation shortens the retention. -/
theorem WriterGrant.retained_afterEvent (row : WriterGrant) (e : ℤ × RegistryEvent) :
    writerRetainedUntil (row.afterEvent room id e) ≤ writerRetainedUntil row := by
  unfold afterEvent
  split
  · split_ifs with h
    · unfold writerRetainedUntil
      rw [h.2.2]
      exact Int.add_le_add_right (min_le_left _ _) _
    · exact le_rfl
  · exact le_rfl

theorem WriterGrant.retained_afterEvents (row : WriterGrant) (events : List (ℤ × RegistryEvent)) :
    writerRetainedUntil (row.afterEvents room id events) ≤ writerRetainedUntil row := by
  induction events generalizing row with
  | nil => exact le_rfl
  | cons e events ih => exact (ih (row.afterEvent room id e)).trans (retained_afterEvent row e)

namespace Registry

theorem writers_resourcesOf {body : Option Json} {r : Reply × Registry}
    (h : s.resourcesOf room id body now = .ok r) : r.2.writers = s.writers := by
  unfold resourcesOf at h
  repeat' split at h
  all_goals cases h
  all_goals rfl

/-- **A request** leaves a retained grant of its room, and records its first revocation. -/
theorem grantsOf_ask (hs : Within now room s) (hrow : s.grantsOf room id = some row)
    (hretained : now < writerRetainedUntil row) (op : RecordRequest) :
    (s.ask sha256 commitWriterGrant room now op).2.grantsOf room id =
      some (row.afterEvent room id (now, .ask room op)) := by
  cases op with
  | putWriter id' body =>
    unfold ask putWriter
    dsimp only
    cases hnew : writerRow id' body now with
    | none => exact hrow
    | some new =>
      dsimp only
      cases hprevious : s.grantsOf room new.id with
      | some previous =>
        rw [commitWriterGrant_some hprevious]
        exact hrow
      | none =>
        have hid : id ≠ new.id := by
          rintro rfl
          rw [hprevious] at hrow
          cases hrow
        have hkept : (s.dropped room now).grantsOf room id = some row := by
          rw [dropped, (dropRetired_all s room now).1]
          dsimp only
          rw [hrow, Option.filter_some, if_pos (show retained now row = true from
            decide_eq_true hretained)]
        rw [commitWriterGrant_none hs.grants hprevious]
        split_ifs
        · exact hkept
        · dsimp only [insertWriter]
          rw [grantsOf_putGrant, Function.update_of_ne hid]
          exact hkept
  | revoke id' =>
    unfold ask revoke WriterGrant.afterEvent
    dsimp only
    by_cases hid : id' = id
    · subst hid
      obtain rfl : row.id = id' := s.named _ _ hrow
      rw [show s.writers.get? (room, row.id) = some row from hrow]
      dsimp only
      cases hrevoked : row.revokedAt with
      | none =>
        simp only [Option.isNone_none, if_true, and_self]
        exact (congrFun (grantsOf_putGrant s { row with revokedAt := some now }) row.id).trans
          (Function.update_self ..)
      | some time =>
        simp only [Option.isNone_some, Bool.false_eq_true, if_false, reduceCtorEq, and_false]
        exact hrow
    · simp only [hid, false_and, and_false, if_false]
      cases hother : s.writers.get? (room, id') with
      | none => exact hrow
      | some other =>
        obtain rfl : other.id = id' := s.named _ _ hother
        dsimp only
        split_ifs
        · refine (congrFun (grantsOf_putGrant s { other with revokedAt := some now }) id).trans ?_
          exact (Function.update_of_ne (Ne.symm hid) ..).trans hrow
        · exact hrow
  | authorize credential retainedRead => exact hrow
  | resources id' body =>
    unfold ask
    dsimp only
    cases hanswer : s.resourcesOf room id' body now with
    | error t => exact hrow
    | ok r =>
      unfold grantsOf
      dsimp only
      rw [writers_resourcesOf hanswer]
      exact hrow
  | putConfiguration id' body =>
    unfold ask putConfiguration
    dsimp only
    cases configurationRow room id' body now with
    | error verdict => cases verdict <;> exact hrow
    | ok configuration =>
      dsimp only
      rw [commitConfiguration_eq hs]
      split_ifs
      · exact hrow
      · exact hrow
  | getConfiguration id' =>
    unfold ask getConfiguration
    dsimp only
    repeat' split
    all_goals exact hrow

end Registry

namespace Registries

theorem after_append (sha256 : Str → Str) (before after : List (ℤ × RegistryEvent)) :
    Registries.after sha256 (before ++ after) =
      after.foldl (Registries.next sha256) (Registries.after sha256 before) :=
  List.foldl_append

/-- **One event** on either runtime. -/
theorem Agreeing.keeps (h : Agreeing now p) (hrow : p.node.grantsOf room id = some row)
    (hretained : now < writerRetainedUntil row) (event : RegistryEvent) :
    (p.next sha256 (now, event)).node.grantsOf room id =
      some (row.afterEvent room id (now, event)) := by
  cases event with
  | ask room' op =>
    unfold Registries.next
    dsimp only
    rw [ask_node (h.node room')]
    by_cases hroom : room = room'
    · subst hroom
      exact Registry.grantsOf_ask (h.node room) hrow hretained op
    · have hmoves := Registry.ask_moves sha256 (h.node room') op
      rw [(Registry.moves_elsewhere (h.node room') hmoves hroom).1, hrow]
      unfold WriterGrant.afterEvent
      cases op with
      | revoke id' => simp [Ne.symm hroom]
      | _ => rfl
  | cleanNode => exact hrow
  | cleanObject room' => exact hrow

theorem Agreeing.keeps_all (h : Agreeing now p) (hrow : p.node.grantsOf room id = some row)
    {events : List (ℤ × RegistryEvent)} (hsorted : (events.map Prod.fst).Pairwise (· ≤ ·))
    (hstart : ∀ e ∈ events, now ≤ e.1)
    (hlast : ∀ e ∈ events, e.1 < writerRetainedUntil (row.afterEvents room id events)) :
    (events.foldl (Registries.next sha256) p).node.grantsOf room id =
      some (row.afterEvents room id events) := by
  induction events generalizing p now row with
  | nil => exact hrow
  | cons e events ih =>
    obtain ⟨time, event⟩ := e
    rw [List.map_cons, List.pairwise_cons] at hsorted
    have hlater : Agreeing time p := h.later (hstart _ List.mem_cons_self)
    have hretained : time < writerRetainedUntil row :=
      (hlast _ List.mem_cons_self).trans_le (WriterGrant.retained_afterEvents row _)
    refine ih (hlater.next event) (hlater.keeps hrow hretained event) hsorted.2
      (fun e he => hsorted.1 _ (List.mem_map_of_mem he)) fun e he => ?_
    exact hlast e (List.mem_cons_of_mem _ he)

end Registries

/-- **A grant lasts** on both runtimes until its retention is over: it stays as it was committed,
but for its first revocation. A revoked grant authorizes nothing but retained reads, and no other
grant takes its id. -/
theorem grant_lasts (sha256 : Str → Str) (before after : List (ℤ × RegistryEvent))
    (hsorted : ((before ++ after).map Prod.fst).Pairwise (· ≤ ·)) (now : ℤ)
    (hlast : ∀ e ∈ before ++ after, e.1 ≤ now) (room id : Str) (row : WriterGrant)
    (hrow : (Registries.after sha256 before).node.grantsOf room id = some row)
    (hretained : now < writerRetainedUntil (row.afterEvents room id after)) :
    let p := Registries.after sha256 (before ++ after)
    ∀ s ∈ [p.node, p.objects room],
      s.grantsOf room id = some (row.afterEvents room id after) ∧
        ((row.afterEvents room id after).revokedAt.isSome → ∀ credential token,
          parseCredential credential = some (id, token) →
            s.authorize sha256 room credential now false = none) := by
  intro p
  have hp : Registries.Agreeing now p := Registries.agreeing_after sha256 hsorted hlast
  rw [List.map_append, List.pairwise_append] at hsorted
  obtain ⟨hbefore, hafter, hcross⟩ := hsorted
  have hnode : p.node.grantsOf room id = some (row.afterEvents room id after) := by
    obtain ⟨time, hbefore', hstart⟩ : ∃ time : ℤ, (∀ e ∈ before, e.1 ≤ time) ∧
        ∀ e ∈ after, time ≤ e.1 := by
      cases after with
      | nil => exact ⟨now, fun e he => hlast e (by simpa using he), fun e he => by cases he⟩
      | cons e after =>
        rw [List.map_cons, List.pairwise_cons] at hafter
        refine ⟨e.1, fun e' he' => hcross _ (List.mem_map_of_mem he') _ (by simp), fun e' he' => ?_⟩
        rcases List.mem_cons.1 he' with rfl | he'
        · exact le_rfl
        · exact hafter.1 _ (List.mem_map_of_mem he')
    have hkept : (after.foldl (Registries.next sha256)
        (Registries.after sha256 before)).node.grantsOf room id =
          some (row.afterEvents room id after) :=
      (Registries.agreeing_after sha256 hbefore hbefore').keeps_all hrow
        hafter hstart fun e he => (hlast e (List.mem_append_right _ he)).trans_lt hretained
    rw [← Registries.after_append] at hkept
    exact hkept
  intro s hs
  have hgrant : s.grantsOf room id = some (row.afterEvents room id after) := by
    rcases List.mem_pair.1 hs with rfl | rfl
    · exact hnode
    · rw [← (hp.alike room).grants]
      exact hnode
  refine ⟨hgrant, fun hrevoked credential token hparsed => ?_⟩
  unfold Registry.authorize
  rw [hparsed, Option.bind_eq_bind, Option.bind_some]
  dsimp only
  rw [show s.writers.get? (room, id) = some (row.afterEvents room id after) from hgrant]
  have hnotnone := Option.isSome_iff_ne_none.1 hrevoked
  simp [hnotnone]

section Sample

/-- The grant of `sampleGranting`. -/
def sampleGranted : WriterGrant :=
  ⟨lit "writer-01", sampleDigest 'a', sampleDigest 'b', sampleDigest 'c', sampleDigest 'd', 9000,
    none⟩

/-- The grant is revoked, and its id is asked for again. -/
def sampleRevoking : List (ℤ × RegistryEvent) :=
  [(3000, .ask sampleRoom (.revoke (lit "writer-01"))),
    (4000, .ask sampleRoom (.putWriter (lit "writer-01") sampleGrantBody))]

/-- It stays revoked. -/
theorem grant_lasts_sample :
    (sampleGranted.afterEvents sampleRoom (lit "writer-01") sampleRevoking).revokedAt = some 3000 ∧
    (Registries.after (fun text => text) (sampleGranting ++ sampleRevoking)).node.authorize
      (fun text => text) sampleRoom (some (lit "writer:writer-01:" ++ sampleDigest 'd')) 5000
        false = none :=
  ⟨by decide, (grant_lasts (fun text => text) sampleGranting sampleRevoking (by decide) 5000
    (by decide) sampleRoom (lit "writer-01") sampleGranted (by decide +kernel) (by decide) _
      List.mem_cons_self).2 (by decide) _ (sampleDigest 'd') (by decide +kernel)⟩

end Sample

end GrantTap
