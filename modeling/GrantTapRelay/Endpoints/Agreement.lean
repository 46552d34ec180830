import GrantTapRelay.Endpoints.Directory
import GrantTapRelay.Library.Expiring
import GrantTapRelay.Library.Runs

/-!
# The two endpoint directories agree

What a client learns from an endpoint directory is what a map from keys to rows tells it
(`directoryAnswer`): a `PUT` writes a row if its room has a place, a `GET` reads a row that has not
expired. `Serves` says of the operations of a store that they keep what it holds in step with such a
map; those of the Worker, over the objects of all rooms, and those of the Node database do.

* `countEndpoints_eq`: `LIKE` counts the rows of a room, and no others.
* `Serves.respond`: a request to a store that serves.
* `run_agree`: a run of a server each of whose steps agrees with the map.
* `directories_agree`: **in every run of either server** the replies are those of the map, and no
  room has more than `ENDPOINT_RECIPIENT_LIMIT` rows.
-/

namespace GrantTap

open Js Expiring Runs

/-! ## Keys -/

/-- The room of a key. -/
def ownerOf (key : Str) : Str := key.takeWhile (· ≠ colon)

/-- The units of a key are lower-case hexadecimal digits and colons. -/
def EndpointKey (key : Str) : Prop := ∀ u ∈ key, isLowerHex u = true ∨ u = colon

theorem ne_colon_of_isLowerHex {u : UInt16} (h : isLowerHex u = true) : u ≠ colon := by
  rintro rfl
  revert h
  decide

@[simp] theorem ownerOf_nil : ownerOf [] = [] := rfl

@[simp] theorem ownerOf_colon (rest : Str) : ownerOf (colon :: rest) = [] := by simp [ownerOf]

theorem ownerOf_append {owner : Str} (h : ∀ u ∈ owner, isLowerHex u = true) (rest : Str) :
    ownerOf (owner ++ rest) = owner ++ ownerOf rest :=
  List.takeWhile_append_of_pos fun u hu => by simpa using ne_colon_of_isLowerHex (h u hu)

theorem ownerOf_self {owner : Str} (h : ∀ u ∈ owner, isLowerHex u = true) :
    ownerOf owner = owner := by
  have happend := ownerOf_append h []
  simpa using happend

/-- A key lies in a valid room. -/
theorem endpointStorageKey_owner {room recipient : Option Str} {key : Str}
    (h : endpointStorageKey room recipient = some key) :
    room.filter validRoom = some (ownerOf key) ∧ EndpointKey key := by
  unfold endpointStorageKey at h
  cases hroom : room.filter validRoom with
  | none => simp [hroom] at h
  | some owner =>
    have hvalid : validRoom owner = true := (Option.filter_eq_some_iff.1 hroom).2
    have hhex : ∀ u ∈ owner, isLowerHex u = true := by
      simp only [validRoom, ofClass, Bool.and_eq_true, List.all_eq_true] at hvalid
      exact hvalid.2
    cases recipient with
    | none =>
      simp only [hroom, Option.some.injEq] at h
      subst h
      rw [ownerOf_self hhex]
      exact ⟨rfl, fun u hu => .inl (hhex u hu)⟩
    | some recipient =>
      simp only [hroom, Option.ite_none_right_eq_some, Option.some.injEq] at h
      obtain ⟨hdigest, rfl⟩ := h
      rw [ownerOf_append hhex, ownerOf_colon, List.append_nil]
      refine ⟨rfl, fun u hu => ?_⟩
      simp only [isDigest, ofClass, Bool.and_eq_true, List.all_eq_true] at hdigest
      simp only [List.mem_append, List.mem_cons] at hu
      rcases hu with hu | rfl | hu
      · exact .inl (hhex u hu)
      · exact .inr rfl
      · exact .inl (hdigest.2 u hu)

theorem lowerUnit_key {u : UInt16} (h : isLowerHex u = true ∨ u = colon) : lowerUnit u = u := by
  unfold lowerUnit
  rw [if_neg]
  rcases h with h | rfl
  · intro hupper
    simp only [isLowerHex, Js.isDigit, unitIn, Bool.or_eq_true, Bool.and_eq_true,
      decide_eq_true_eq] at h hupper
    rcases h with ⟨hlow, -⟩ | ⟨-, hhigh⟩
    · exact absurd (UInt16.le_trans hlow hupper.2) (by decide)
    · exact absurd (UInt16.le_trans hupper.1 hhigh) (by decide)
  · decide

namespace NodeDatabase

theorem likeUnit_iff {p u : UInt16} (hp : isLowerHex p = true ∨ p = colon)
    (hu : isLowerHex u = true ∨ u = colon) : likeUnit p u = true ↔ p = u := by
  have hany : p ≠ '_'.toNat.toUInt16 := by
    rintro rfl
    revert hp
    decide
  simp only [likeUnit, lowerUnit_key hp, lowerUnit_key hu, Bool.or_eq_true, decide_eq_true_eq]
  exact or_iff_right hany

theorem likeOwned_iff {owner text : Str} (howner : ∀ p ∈ owner, isLowerHex p = true)
    (htext : EndpointKey text) :
    likeOwned owner text = true ↔ ∃ rest, text = owner ++ colon :: rest := by
  induction owner generalizing text with
  | nil =>
    cases text with
    | nil => simp [likeOwned]
    | cons u text =>
      have hu := htext u List.mem_cons_self
      simp only [likeOwned, likeUnit_iff (.inr rfl) hu, List.nil_append, List.cons.injEq]
      constructor
      · rintro rfl
        exact ⟨text, rfl, rfl⟩
      · rintro ⟨rest, rfl, -⟩
        rfl
  | cons p owner ih =>
    cases text with
    | nil => simp [likeOwned]
    | cons u text =>
      have hu := htext u List.mem_cons_self
      have hp := howner p List.mem_cons_self
      simp only [likeOwned, Bool.and_eq_true, likeUnit_iff (.inl hp) hu,
        ih (fun q hq => howner q (List.mem_cons_of_mem _ hq))
          fun v hv => htext v (List.mem_cons_of_mem _ hv), List.cons_append, List.cons.injEq]
      constructor
      · rintro ⟨rfl, rest, rfl⟩
        exact ⟨rest, rfl, rfl⟩
      · rintro ⟨rest, rfl, rfl⟩
        exact ⟨rfl, rest, rfl⟩

/-- `LIKE` tells the rows of a room from those of the others. -/
theorem owned_iff {key text : Str} (hkey : EndpointKey key) (htext : EndpointKey text) :
    (text = ownerOf key ∨ likeOwned (ownerOf key) text = true) ↔ ownerOf text = ownerOf key := by
  have hhex : ∀ p ∈ ownerOf key, isLowerHex p = true := by
    intro p hp
    have hne := List.mem_takeWhile_imp hp
    exact (hkey p ((List.takeWhile_sublist _).subset hp)).resolve_right (by simpa using hne)
  rw [likeOwned_iff hhex htext]
  constructor
  · rintro (rfl | ⟨rest, rfl⟩)
    · exact ownerOf_self hhex
    · rw [ownerOf_append hhex, ownerOf_colon, List.append_nil]
  · intro howner
    have hsplit : text = ownerOf text ++ text.dropWhile (· ≠ colon) :=
      (List.takeWhile_append_dropWhile).symm
    rw [howner] at hsplit
    cases hrest : text.dropWhile (· ≠ colon) with
    | nil =>
      rw [hrest, List.append_nil] at hsplit
      exact .inl hsplit
    | cons u rest =>
      have hhead := List.head?_dropWhile_not (fun u : UInt16 => decide (u ≠ colon)) text
      rw [hrest] at hhead hsplit
      have hu : u = colon := by simpa using hhead
      subst hu
      exact .inr ⟨rest, hsplit⟩

/-- The rows of a room, in a table. -/
def roomRows (rows : Table Str SealedRow) (room : Str) : ℕ :=
  (rows.rows.filter fun r => ownerOf r.1 = room).length

/-- `LIKE` counts the rows of a room, and no others. -/
theorem countEndpoints_eq {db : NodeDatabase} {key : Str} (hkey : EndpointKey key)
    (hkeys : ∀ k row, db.endpoints.get? k = some row → EndpointKey k) :
    db.countEndpoints (ownerOf key) = roomRows db.endpoints (ownerOf key) := by
  unfold countEndpoints roomRows
  refine congrArg List.length (List.filter_congr ?_)
  rintro ⟨k, row⟩ hrow
  have hiff := owned_iff hkey (hkeys k row (Table.mem_rows.1 hrow))
  rw [Bool.eq_iff_iff]
  simpa using hiff

end NodeDatabase

/-! ## What a directory is for -/

/-- The row at each key. -/
abbrev EndpointMap := Str → Option SealedRow

/-- The room of the key has a place for it. -/
def Place (now : ℤ) (m : EndpointMap) (key : Str) : Prop :=
  HasRoom SealedRow.expiresAt ownerOf ENDPOINT_RECIPIENT_LIMIT now m key

open Classical in
/-- The reply to a request for the row at a key, and the map after it. -/
noncomputable def answer (m : EndpointMap) (key : Str) (q : EndpointRequest) :
    EndpointReply × EndpointMap :=
  match q.method with
  | .PUT =>
    match endpointRecord? q.body q.checkedAt with
    | none => (.error 400 "bounded sealed endpoint required", m)
    | some record =>
      if !q.authorized then (.error 401 "invalid room credential", m)
      else if Place q.actedAt m key then (⟨200, .ok⟩, Function.update m key (some record))
      else (.error 409 "endpoint capacity", m)
  | .DELETE =>
    if !q.authorized then (.error 401 "invalid room credential", m)
    else (⟨200, .ok⟩, Function.update m key none)
  | .GET =>
    if !q.authorized then (.error 401 "invalid room credential", m)
    else
      match live SealedRow.expiresAt q.checkedAt m key with
      | none => (.error 404 "endpoint unavailable", m)
      | some row => (⟨200, .endpoint row⟩, m)
  | _ => (.error 405 "method not allowed", m)

noncomputable def directoryAnswer (m : EndpointMap) (q : EndpointRequest) :
    EndpointReply × EndpointMap :=
  match endpointStorageKey q.room q.recipient with
  | none => (.error 400 "invalid endpoint recipient", m)
  | some key => answer m key q

/-- The replies to requests in a row. -/
noncomputable def directoryAnswers (m : EndpointMap) :
    List EndpointRequest → List EndpointReply × EndpointMap
  | [] => ([], m)
  | q :: qs =>
    let (replies, last) := directoryAnswers (directoryAnswer m q).2 qs
    ((directoryAnswer m q).1 :: replies, last)

namespace EndpointRequest

/-- The clock of the request does not go back. -/
def Timely (q : EndpointRequest) : Prop :=
  match q.method with
  | .PUT => q.checkedAt ≤ q.actedAt
  | .GET => q.actedAt ≤ q.checkedAt
  | _ => True

/-- When the handler is done. -/
def finish (q : EndpointRequest) : ℤ :=
  match q.method with
  | .GET => q.checkedAt
  | _ => q.actedAt

end EndpointRequest

/-! ## A store that serves -/

section Serves

variable {σ : Type} {S : EndpointStore σ} {Holds : ℤ → σ → EndpointMap → Prop} {key : Str}
  {now now' : ℤ} {s : σ} {m m' : EndpointMap}

/-- `Holds now s m` says that from now on the store holds what the map does. The operations on the
row at a key keep the two in step. -/
structure EndpointStore.Serves (S : EndpointStore σ) (Holds : ℤ → σ → EndpointMap → Prop)
    (key : Str) : Prop where
  later : ∀ {now now' s m}, Holds now s m → now ≤ now' → Holds now' s m
  alike : ∀ {now s m m'}, Holds now s m → Alike SealedRow.expiresAt now m m' → Holds now s m'
  place : ∀ {now s m} {record : SealedRow}, Holds now s m →
    record.expiresAt ≤ now + ENDPOINT_TTL_MS → Place now m key →
    ∃ s', S.put s key record now = .ok (true, s') ∧
      Holds now s' (Function.update m key (some record))
  full : ∀ {now s m} (record : SealedRow), Holds now s m → ¬Place now m key →
    ∃ s', S.put s key record now = .ok (false, s') ∧ Holds now s' m
  get : ∀ {now s m}, Holds now s m → Holds now (S.get s key now).2 m ∧
    ((S.get s key now).1.filter fun row => now < row.expiresAt) =
      live SealedRow.expiresAt now m key ∧
    ∀ row ∈ (S.get s key now).1, row.expiresAt ≤ now + ENDPOINT_TTL_MS
  delete : ∀ {now s m}, Holds now s m → Holds now (S.delete s key) (Function.update m key none)

theorem endpointRecord?_bounds {body : Value} {record : SealedRow}
    (h : endpointRecord? body now = some record) :
    now < record.expiresAt ∧ record.expiresAt ≤ now + ENDPOINT_TTL_MS := by
  simp only [endpointRecord?, Option.bind_eq_bind, Option.bind_eq_some_iff, Option.guard_eq_some',
    Option.filter_eq_some_iff, Bool.and_eq_true, decide_eq_true_eq, Option.pure_def,
    Option.some.injEq] at h
  obtain ⟨-, -, -, -, nonce, -, -, -, box, -, expiresAt, ⟨-, hbounds⟩, rfl⟩ := h
  exact hbounds

/-- **A request** to a store that serves: the reply is that of the map. -/
theorem EndpointStore.Serves.respond (h : S.Serves Holds key) {q : EndpointRequest} (hq : q.Timely)
    (hs : Holds q.actedAt s m) :
    (endpointResponse S s key q).1 = .ok (answer m key q).1 ∧
      Holds q.finish (endpointResponse S s key q).2 (answer m key q).2 := by
  unfold endpointResponse answer EndpointRequest.finish
  unfold EndpointRequest.Timely at hq
  cases hmethod : q.method with
  | PUT =>
    simp only [hmethod] at hq ⊢
    cases hrecord : endpointRecord? q.body q.checkedAt with
    | none => exact ⟨rfl, hs⟩
    | some record =>
      have hbound : record.expiresAt ≤ q.actedAt + ENDPOINT_TTL_MS := by
        have hchecked := (endpointRecord?_bounds hrecord).2
        omega
      cases hauth : q.authorized with
      | false => exact ⟨rfl, hs⟩
      | true =>
        by_cases hplace : Place q.actedAt m key
        · obtain ⟨s', hput, hs'⟩ := h.place hs hbound hplace
          simpa only [hput, hplace, Bool.not_true, Bool.false_eq_true, if_false, if_true,
            true_and] using hs'
        · obtain ⟨s', hput, hs'⟩ := h.full record hs hplace
          simpa only [hput, hplace, Bool.not_true, Bool.false_eq_true, if_false,
            true_and] using hs'
  | DELETE =>
    cases hauth : q.authorized with
    | false => exact ⟨rfl, hs⟩
    | true => exact ⟨rfl, h.delete hs⟩
  | GET =>
    simp only [hmethod] at hq ⊢
    cases hauth : q.authorized with
    | false => exact ⟨rfl, h.later hs hq⟩
    | true =>
      obtain ⟨hs', hlive, hbound⟩ := h.get hs
      have hread (row : SealedRow) : live SealedRow.expiresAt q.checkedAt m key = some row ↔
          (S.get s key q.actedAt).1 = some row ∧ q.checkedAt < row.expiresAt := by
        rw [← live_live hq m, live_eq_some, ← hlive, Option.filter_eq_some_iff, decide_eq_true_eq]
        constructor
        · rintro ⟨⟨hrow, -⟩, hlater⟩
          exact ⟨hrow, hlater⟩
        · rintro ⟨hrow, hlater⟩
          exact ⟨⟨hrow, lt_of_le_of_lt hq hlater⟩, hlater⟩
      cases hget : S.get s key q.actedAt with
      | mk found s' =>
        rw [hget] at hs' hbound hread
        have hs' := h.later hs' hq
        simp only [Bool.not_true, Bool.false_eq_true, if_false]
        cases found with
        | none =>
          have hnone : live SealedRow.expiresAt q.checkedAt m key = none :=
            Option.eq_none_iff_forall_ne_some.2 fun row hrow => by cases ((hread row).1 hrow).1
          rw [hnone]
          exact ⟨rfl, hs'⟩
        | some row =>
          have hupper := hbound row rfl
          by_cases hadmitted : row.admitted q.checkedAt = true
          · have hlater : q.checkedAt < row.expiresAt := by
              simp only [SealedRow.admitted, Bool.and_eq_true, decide_eq_true_eq] at hadmitted
              exact hadmitted.1
            rw [(hread row).2 ⟨rfl, hlater⟩]
            simpa only [hadmitted, if_true, true_and] using hs'
          · have hnone : live SealedRow.expiresAt q.checkedAt m key = none := by
              refine Option.eq_none_iff_forall_ne_some.2 fun row' hrow' => hadmitted ?_
              obtain ⟨hsame, hlater⟩ := (hread row').1 hrow'
              cases hsame
              simp only [SealedRow.admitted, Bool.and_eq_true, decide_eq_true_eq]
              omega
            rw [hnone]
            simp only [hadmitted]
            exact ⟨rfl, h.alike (h.delete hs') (Alike.erase hnone)⟩
  | POST | other => exact ⟨rfl, hs⟩

end Serves

/-! ## Worker -/

/-- A store in each room, of which a request reaches that of its own room. -/
def EndpointStore.atRoom {σ : Type} (S : EndpointStore σ) (room : Str) :
    EndpointStore (Str → σ) where
  put w key record now :=
    (S.put (w room) key record now).map fun r => (r.1, Function.update w room r.2)
  get w key now :=
    ((S.get (w room) key now).1, Function.update w room (S.get (w room) key now).2)
  delete w key := Function.update w room (S.delete (w room) key)

/-- The directories in the objects of all rooms. -/
abbrev WorkerDirectories := Str → EndpointStorage

namespace WorkerDirectories

variable {w : WorkerDirectories} {m : EndpointMap} {now : ℤ} {key room : Str}

/-- The rows of all rooms. -/
def rows (w : WorkerDirectories) (key : Str) : Option SealedRow := (w (ownerOf key)).rows.get? key

/-- From now on the objects hold what the map does, each the rows of its own room. -/
structure Holds (now : ℤ) (w : WorkerDirectories) (m : EndpointMap) : Prop where
  alike : Alike SealedRow.expiresAt now w.rows m
  owned : ∀ room key row, (w room).rows.get? key = some row → ownerOf key = room
  bounded : ∀ room key row, (w room).rows.get? key = some row →
    row.expiresAt ≤ now + ENDPOINT_TTL_MS
  few : ∀ room, (w room).rows.size ≤ ENDPOINT_RECIPIENT_LIMIT

theorem Holds.later {now' : ℤ} (h : Holds now w m) (hle : now ≤ now') : Holds now' w m where
  alike := h.alike.later hle
  owned := h.owned
  bounded room key row hrow := by
    have hbound := h.bounded room key row hrow
    omega
  few := h.few

/-- The object of one room changes. -/
theorem Holds.update {m' : EndpointMap} {d : EndpointStorage} (h : Holds now w m)
    (halike : Alike SealedRow.expiresAt now (rows (Function.update w room d)) m')
    (howned : ∀ key row, d.rows.get? key = some row → ownerOf key = room)
    (hbounded : ∀ key row, d.rows.get? key = some row → row.expiresAt ≤ now + ENDPOINT_TTL_MS)
    (hfew : d.rows.size ≤ ENDPOINT_RECIPIENT_LIMIT) : Holds now (Function.update w room d) m' where
  alike := halike
  owned room' key row hrow := by
    by_cases hroom : room' = room
    · subst hroom
      rw [Function.update_self] at hrow
      exact howned key row hrow
    · rw [Function.update_of_ne hroom] at hrow
      exact h.owned room' key row hrow
  bounded room' key row hrow := by
    by_cases hroom : room' = room
    · subst hroom
      rw [Function.update_self] at hrow
      exact hbounded key row hrow
    · rw [Function.update_of_ne hroom] at hrow
      exact h.bounded room' key row hrow
  few room' := by
    by_cases hroom : room' = room
    · subst hroom
      rw [Function.update_self]
      exact hfew
    · rw [Function.update_of_ne hroom]
      exact h.few room'

/-- The rows after the object of one room changed. -/
theorem rows_update (w : WorkerDirectories) (room : Str) (d : EndpointStorage) (key : Str) :
    rows (Function.update w room d) key =
      if ownerOf key = room then d.rows.get? key else w.rows key := by
  unfold rows
  by_cases hroom : ownerOf key = room
  · rw [if_pos hroom, hroom, Function.update_self]
  · rw [if_neg hroom, Function.update_of_ne hroom]

/-- A clean-up of a room. -/
theorem Holds.purge (h : Holds now w m) (room : Str) :
    Holds now (Function.update w room ((w room).purgeEndpointDirectory now)) m := by
  have hget (key : Str) : ((w room).purgeEndpointDirectory now).rows.get? key =
      ((w room).rows.get? key).filter fun row => now < row.expiresAt := Table.get?_filter _ _ key
  refine h.update ?_ (fun key row hrow => ?_) (fun key row hrow => ?_) ?_
  · refine Alike.trans (Alike.of_live fun key => ?_) h.alike
    ext row
    rw [live_eq_some, live_eq_some, rows_update]
    by_cases hroom : ownerOf key = room
    · rw [if_pos hroom, hget, rows, hroom]
      simp [Option.filter_eq_some_iff]
    · rw [if_neg hroom]
  · rw [hget, Option.filter_eq_some_iff] at hrow
    exact h.owned room key row hrow.1
  · rw [hget, Option.filter_eq_some_iff] at hrow
    exact h.bounded room key row hrow.1
  · exact (List.length_filter_le _ _).trans (h.few room)

/-- A row of the room is deleted. -/
theorem Holds.erase (h : Holds now w m) (hkey : ownerOf key = room) (alarm : Option ℤ) :
    Holds now (Function.update w room ⟨(w room).rows.erase key, alarm⟩)
      (Function.update m key none) := by
  refine h.update ?_ (fun k row hrow => ?_) (fun k row hrow => ?_) ?_
  · have hrows : rows (Function.update w room ⟨(w room).rows.erase key, alarm⟩) =
        Function.update w.rows key none := by
      funext k
      rw [rows_update, Table.get?_erase]
      by_cases hk : k = key
      · subst hk
        simp [hkey]
      · by_cases hroom : ownerOf k = room
        · simp [hk, hroom, rows]
        · simp [hk, hroom]
    rw [hrows]
    exact h.alike.update key none
  · simp only [Table.get?_erase, ite_eq_iff] at hrow
    rcases hrow with ⟨-, hnone⟩ | ⟨-, hrow⟩
    · cases hnone
    · exact h.owned room k row hrow
  · simp only [Table.get?_erase, ite_eq_iff] at hrow
    rcases hrow with ⟨-, hnone⟩ | ⟨-, hrow⟩
    · cases hnone
    · exact h.bounded room k row hrow
  · exact (List.length_filter_le _ _).trans (h.few room)

/-- A row of the room is written. -/
theorem Holds.put (record : SealedRow) (h : Holds now w m) (hkey : ownerOf key = room)
    (hbound : record.expiresAt ≤ now + ENDPOINT_TTL_MS)
    (hplace : ((w room).rows.get? key).isSome ∨ (w room).rows.size < ENDPOINT_RECIPIENT_LIMIT)
    (alarm : Option ℤ) :
    Holds now (Function.update w room ⟨(w room).rows.put key record, alarm⟩)
      (Function.update m key (some record)) := by
  refine h.update ?_ (fun k row hrow => ?_) (fun k row hrow => ?_) ?_
  · have hrows : rows (Function.update w room ⟨(w room).rows.put key record, alarm⟩) =
        Function.update w.rows key (some record) := by
      funext k
      rw [rows_update, Table.get?_put]
      by_cases hk : k = key
      · subst hk
        simp [hkey]
      · by_cases hroom : ownerOf k = room
        · simp [hk, hroom, rows]
        · simp [hk, hroom]
    rw [hrows]
    exact h.alike.update key _
  · simp only [Table.get?_put, ite_eq_iff] at hrow
    rcases hrow with ⟨rfl, -⟩ | ⟨-, hrow⟩
    · exact hkey
    · exact h.owned room k row hrow
  · simp only [Table.get?_put, ite_eq_iff] at hrow
    rcases hrow with ⟨-, hrow⟩ | ⟨-, hrow⟩
    · cases hrow
      exact hbound
    · exact h.bounded room k row hrow
  · rcases hplace with hthere | hfree
    · rw [Table.size_put_of_isSome hthere]
      exact h.few room
    · exact (Table.size_put_le _ _ _).trans hfree

/-- The rows of a room after a clean-up are its live entries. -/
theorem place_iff (h : Holds now w m) (hkey : ownerOf key = room) :
    Place now m key ↔ (((w room).purgeEndpointDirectory now).rows.get? key).isSome ∨
      ((w room).purgeEndpointDirectory now).rows.size < ENDPOINT_RECIPIENT_LIMIT := by
  have hget : ((w room).purgeEndpointDirectory now).rows.get? key =
      live SealedRow.expiresAt now w.rows key := by
    subst hkey
    exact Table.get?_filter _ _ key
  have hsize : ((w room).purgeEndpointDirectory now).rows.size =
      occupied SealedRow.expiresAt ownerOf now w.rows (ownerOf key) := by
    have htable : occupied SealedRow.expiresAt ownerOf now w.rows (ownerOf key) =
        occupied SealedRow.expiresAt ownerOf now (w room).rows.get? (ownerOf key) := by
      unfold occupied
      refine congrArg Set.ncard (Set.ext fun k => and_congr_right fun hk => ?_)
      unfold live rows
      rw [hk, hkey]
    rw [htable, occupied_rows]
    refine congrArg List.length (List.filter_congr ?_)
    rintro ⟨k, row⟩ hrow
    have howner := h.owned room k row (Table.mem_rows.1 hrow)
    simp [howner, hkey]
  rw [hget, hsize]
  exact (h.alike.hasRoom key).symm

/-- The operations on the rows of the Worker. -/
theorem serves (hkey : ownerOf key = room) :
    (EndpointStorage.store.atRoom room).Serves Holds key where
  later h hle := h.later hle
  alike h halike := ⟨h.alike.trans halike, h.owned, h.bounded, h.few⟩
  place := by
    intro now w m record h hbound hplace
    have hroom := (place_iff h hkey).1 hplace
    have hpurged := h.purge room
    have hput := hpurged.put record hkey hbound (by rwa [Function.update_self])
      (some ((EndpointStorage.firstExpiry
        ((w room).purgeEndpointDirectory now).rows.rows).elim record.expiresAt
          (min record.expiresAt)))
    rw [Function.update_self, Function.update_idem] at hput
    refine ⟨_, ?_, hput⟩
    have hnot : ¬((((w room).purgeEndpointDirectory now).rows.get? key).isNone = true ∧
        ENDPOINT_RECIPIENT_LIMIT ≤ ((w room).purgeEndpointDirectory now).rows.size) := by
      rintro ⟨hnone, hle⟩
      rcases hroom with hsome | hlt
      · simp [Option.isNone_iff_eq_none.1 hnone] at hsome
      · omega
    simp only [EndpointStore.atRoom, EndpointStorage.store, EndpointStorage.putDirectoryEndpoint,
      Bool.and_eq_true, decide_eq_true_eq, if_neg hnot, Except.map]
  full := by
    intro now w m record h hfull
    have hroom := mt (place_iff h hkey).2 hfull
    refine ⟨_, ?_, h.purge room⟩
    have hnot : (((w room).purgeEndpointDirectory now).rows.get? key).isNone = true ∧
        ENDPOINT_RECIPIENT_LIMIT ≤ ((w room).purgeEndpointDirectory now).rows.size := by
      rw [not_or, Option.not_isSome_iff_eq_none, not_lt] at hroom
      exact ⟨by rw [hroom.1]; rfl, hroom.2⟩
    simp only [EndpointStore.atRoom, EndpointStorage.store, EndpointStorage.putDirectoryEndpoint,
      Bool.and_eq_true, decide_eq_true_eq, if_pos hnot, Except.map]
  get := by
    intro now w m h
    have hsame : Function.update w room (w room) = w := Function.update_eq_self ..
    refine ⟨?_, ?_, fun row hrow => ?_⟩
    · show Holds now (Function.update w room (w room)) m
      rw [hsame]
      exact h
    · have hlive := h.alike.live_eq key
      rw [← hlive]
      subst hkey
      rfl
    · exact h.bounded room key row hrow
  delete h := h.erase hkey _

end WorkerDirectories

/-! ## Node -/

namespace NodeDatabase

variable {db db' : NodeDatabase} {m : EndpointMap} {now : ℤ} {key : Str}

/-- A clean-up leaves no record that does not parse. -/
theorem Sane.purged (h : db.Sane) (hp : Purged db db' now) : db'.Sane := by
  intro k record hk
  cases hrow : db.tasks.jobs.get? k with
  | none => exact absurd (hk.symm.trans (hp.absent k hrow)) (by simp)
  | some row =>
    cases row with
    | corrupt record' => exact h k record' hrow
    | saved row =>
      by_cases hpast : PastRetention row.job now
      · exact absurd (hk.symm.trans (hp.retired k row hrow hpast)) (by simp)
      · rcases hp.jobs k row hrow hpast with hsame | ⟨-, -, hexpired⟩
        · exact absurd (hk.symm.trans hsame) (by simp)
        · exact absurd (hk.symm.trans hexpired) (by simp [TaskRow.expire])

/-- Rows that count until they are deleted. -/
def standing (_ : SealedRow) : ℤ := 1

/-- From now on the table holds what the map does, at keys of the directory. -/
structure Holds (now : ℤ) (db : NodeDatabase) (m : EndpointMap) : Prop where
  sane : db.Sane
  alike : Alike SealedRow.expiresAt now db.endpoints.get? m
  keyed : ∀ key row, db.endpoints.get? key = some row → EndpointKey key
  bounded : ∀ key row, db.endpoints.get? key = some row → row.expiresAt ≤ now + ENDPOINT_TTL_MS
  few : Within ownerOf ENDPOINT_RECIPIENT_LIMIT 0 standing db.endpoints.get?

theorem Holds.later {now' : ℤ} (h : Holds now db m) (hle : now ≤ now') : Holds now' db m where
  sane := h.sane
  alike := h.alike.later hle
  keyed := h.keyed
  bounded key row hrow := by
    have hbound := h.bounded key row hrow
    omega
  few := h.few

theorem Holds.congr {m' : EndpointMap} (h : Holds now db m)
    (halike : Alike SealedRow.expiresAt now m m') : Holds now db m' :=
  ⟨h.sane, h.alike.trans halike, h.keyed, h.bounded, h.few⟩

/-- Rows go that the map does not hold. -/
theorem Holds.shrink (h : Holds now db m) (hsane : db'.Sane) {m' : EndpointMap}
    (halike : Alike SealedRow.expiresAt now db'.endpoints.get? m')
    (hsub : ∀ key row, db'.endpoints.get? key = some row → db.endpoints.get? key = some row) :
    Holds now db' m' where
  sane := hsane
  alike := halike
  keyed key row hrow := h.keyed key row (hsub key row hrow)
  bounded key row hrow := h.bounded key row (hsub key row hrow)
  few := h.few.mono fun key hkey => by
    obtain ⟨row, hrow⟩ := Option.isSome_iff_exists.1 hkey
    rw [live_eq_some] at hrow
    exact Option.isSome_iff_exists.2 ⟨row, live_eq_some.2 ⟨hsub key row hrow.1, hrow.2⟩⟩

/-- The rows of a clean-up are the live ones. -/
theorem Holds.purge (h : Holds now db m) :
    ∃ db', db.purgeExpiredPairings now = .ok db' ∧ Holds now db' m ∧
      ∀ key row, db'.endpoints.get? key = some row → now < row.expiresAt := by
  obtain ⟨db', hdb', hp⟩ := purge_completes h.sane now
  have hlive : db'.endpoints.get? = live SealedRow.expiresAt now db.endpoints.get? :=
    funext hp.endpoints
  refine ⟨db', hdb', h.shrink (h.sane.purged hp) ?_ fun key row hrow => ?_, fun key row hrow => ?_⟩
  · rw [hlive]
    exact (Alike.sweep le_rfl _).trans h.alike
  · rw [hlive, live_eq_some] at hrow
    exact hrow.1
  · rw [hlive, live_eq_some] at hrow
    exact hrow.2

theorem get?_deleteEndpoint (db : NodeDatabase) (key : Str) :
    (db.deleteEndpoint key).endpoints.get? = Function.update db.endpoints.get? key none := by
  funext k
  rw [Function.update_apply]
  exact Table.get?_erase _ _ k

theorem Holds.delete (h : Holds now db m) (key : Str) :
    Holds now (db.deleteEndpoint key) (Function.update m key none) := by
  have hsane : (db.deleteEndpoint key).Sane := h.sane
  refine h.shrink hsane ?_ fun k row hrow => ?_
  · rw [get?_deleteEndpoint]
    exact h.alike.update key none
  · rw [get?_deleteEndpoint, Function.update_apply] at hrow
    split_ifs at hrow
    exact hrow

/-- A read finds the live row; the key of an expired one is deleted. -/
theorem Holds.endpoint (h : Holds now db m) (key : Str) :
    (db.endpoint key now).1 = live SealedRow.expiresAt now m key ∧
      Holds now (db.endpoint key now).2 m := by
  have hlive := h.alike.live_eq key
  unfold NodeDatabase.endpoint
  cases hrow : db.endpoints.get? key with
  | none =>
    have hnone : live SealedRow.expiresAt now m key = none := by
      rw [← hlive, live, hrow]
      rfl
    exact ⟨hnone.symm, (h.delete key).congr (Alike.erase hnone)⟩
  | some row =>
    dsimp only
    split_ifs with hexpired
    · have hnone : live SealedRow.expiresAt now m key = none := by
        rw [← hlive, live, hrow, Option.filter_some, if_neg (by simpa using hexpired)]
      exact ⟨hnone.symm, (h.delete key).congr (Alike.erase hnone)⟩
    · refine ⟨?_, h⟩
      rw [← hlive, live, hrow, Option.filter_some, if_pos (by simpa using hexpired)]

theorem get?_putRow (db : NodeDatabase) (key : Str) (record : SealedRow) :
    (db.endpoints.put key record).get? = Function.update db.endpoints.get? key (some record) := by
  funext k
  rw [Function.update_apply]
  exact Table.get?_put _ _ k _

/-- When all rows are live, the rows of a room are the live ones. -/
theorem live_standing (hall : ∀ key row, db.endpoints.get? key = some row → now < row.expiresAt) :
    live standing 0 db.endpoints.get? = live SealedRow.expiresAt now db.endpoints.get? := by
  funext key
  cases hrow : db.endpoints.get? key with
  | none => simp [live, hrow]
  | some row =>
    simp only [live, hrow, standing, Option.filter_some]
    simp [hall key row hrow]

/-- What `putEndpoint` asks after its clean-up. -/
theorem Holds.place_iff (h : Holds now db m) (hkey : EndpointKey key)
    (hall : ∀ key row, db.endpoints.get? key = some row → now < row.expiresAt) :
    (Place now m key ↔ ¬((live SealedRow.expiresAt now m key).isNone = true ∧
      ENDPOINT_RECIPIENT_LIMIT ≤ db.countEndpoints (ownerOf key))) ∧
    (Place now m key ↔
      HasRoom standing ownerOf ENDPOINT_RECIPIENT_LIMIT 0 db.endpoints.get? key) := by
  have hsame := live_standing hall
  have hoccupied (room : Str) : occupied standing ownerOf 0 db.endpoints.get? room =
      occupied SealedRow.expiresAt ownerOf now db.endpoints.get? room := by
    unfold occupied
    rw [hsame]
  have hcount : db.countEndpoints (ownerOf key) =
      occupied SealedRow.expiresAt ownerOf now m (ownerOf key) := by
    rw [countEndpoints_eq hkey h.keyed, ← h.alike.occupied_eq, occupied_rows]
    refine congrArg List.length (List.filter_congr ?_)
    rintro ⟨k, row⟩ hrow
    simp [hall k row (Table.mem_rows.1 hrow)]
  constructor
  · rw [hcount, Place, HasRoom, not_and_or, Bool.not_eq_true, not_le]
    cases live SealedRow.expiresAt now m key <;> simp
  · rw [Place, ← h.alike.hasRoom, HasRoom, HasRoom, hsame, hoccupied]

/-- A row is written. -/
theorem Holds.put {record : SealedRow} (h : Holds now db m) (hkey : EndpointKey key)
    (hbound : record.expiresAt ≤ now + ENDPOINT_TTL_MS)
    (hroom : HasRoom standing ownerOf ENDPOINT_RECIPIENT_LIMIT 0 db.endpoints.get? key) :
    Holds now { db with endpoints := db.endpoints.put key record }
      (Function.update m key (some record)) where
  sane := h.sane
  alike := by
    rw [get?_putRow]
    exact h.alike.update key _
  keyed k row hrow := by
    rw [get?_putRow, Function.update_apply] at hrow
    split_ifs at hrow with hk
    · exact hk ▸ hkey
    · exact h.keyed k row hrow
  bounded k row hrow := by
    rw [get?_putRow, Function.update_apply] at hrow
    split_ifs at hrow with hk
    · cases hrow
      exact hbound
    · exact h.bounded k row hrow
  few := by
    rw [get?_putRow]
    exact h.few.update hroom _

/-- A read of rows that are all live changes none. -/
theorem get?_endpoint (hall : ∀ key row, db.endpoints.get? key = some row → now < row.expiresAt)
    (key : Str) : (db.endpoint key now).2.endpoints.get? = db.endpoints.get? := by
  unfold NodeDatabase.endpoint
  cases hrow : db.endpoints.get? key with
  | none =>
    dsimp only
    rw [get?_deleteEndpoint, Function.update_eq_self_iff]
    exact hrow.symm
  | some row =>
    dsimp only
    rw [if_neg (by simpa using hall key row hrow)]

/-- The operations on the table of the Node database. -/
theorem serves (hkey : EndpointKey key) : endpointStore.Serves Holds key where
  later h hle := h.later hle
  alike h halike := h.congr halike
  place := by
    intro now db m record h hbound hplace
    obtain ⟨purged, hpurge, hpurged, hall⟩ := h.purge
    obtain ⟨hask, hroom⟩ := hpurged.place_iff hkey hall
    obtain ⟨hcurrent, hread⟩ := hpurged.endpoint key
    have hplaced := hread.put hkey hbound (by
      rw [get?_endpoint hall]
      exact hroom.1 hplace)
    refine ⟨_, ?_, hplaced⟩
    show putEndpoint db key record now = _
    unfold putEndpoint
    rw [hpurge]
    simp only [bind, Except.bind, pure, Except.pure]
    rw [hcurrent, if_neg (by simpa [ownerOf] using hask.1 hplace)]
  full := by
    intro now db m record h hfull
    obtain ⟨purged, hpurge, hpurged, hall⟩ := h.purge
    obtain ⟨hask, -⟩ := hpurged.place_iff hkey hall
    obtain ⟨hcurrent, hread⟩ := hpurged.endpoint key
    refine ⟨_, ?_, hread⟩
    show putEndpoint db key record now = _
    unfold putEndpoint
    rw [hpurge]
    simp only [bind, Except.bind, pure, Except.pure]
    rw [hcurrent, if_pos (by simpa [ownerOf] using not_not.1 (mt hask.2 hfull))]
  get := by
    intro now db m h
    obtain ⟨hfound, hread⟩ := h.endpoint key
    refine ⟨hread, ?_, fun row hrow => ?_⟩
    · show ((db.endpoint key now).1.filter fun row => now < row.expiresAt) = _
      rw [hfound]
      ext row
      rw [Option.filter_eq_some_iff, live_eq_some]
      simp
    · have hrow : (db.endpoint key now).1 = some row := hrow
      rw [hfound, ← h.alike.live_eq, live_eq_some] at hrow
      exact h.bounded key row hrow.1
  delete h := h.delete key

end NodeDatabase

/-! ## Runs -/

/-- A step of a server: a request with its reply, or a clean-up at some time. -/
inductive DirectoryLabel
  | request (q : EndpointRequest) (reply : Except Throw EndpointReply)
  | upkeep (now : ℤ)

namespace DirectoryLabel

def start : DirectoryLabel → ℤ
  | request q _ => q.actedAt
  | upkeep now => now

def finish : DirectoryLabel → ℤ
  | request q _ => q.finish
  | upkeep now => now

def Timely : DirectoryLabel → Prop
  | request q _ => q.Timely
  | upkeep _ => True

def request? : DirectoryLabel → Option EndpointRequest
  | request q _ => some q
  | upkeep _ => none

def reply? : DirectoryLabel → Option (Except Throw EndpointReply)
  | request _ reply => some reply
  | upkeep _ => none

/-- No step begins before the one before it is done. -/
def Ordered : ℤ → List DirectoryLabel → Prop
  | _, [] => True
  | now, l :: ls => now ≤ l.start ∧ l.Timely ∧ Ordered l.finish ls

end DirectoryLabel

open DirectoryLabel

/-- The replies of a run are those of the map, and the server holds what the map does at the end. -/
def DirectoryAgrees {σ : Type} (Holds : ℤ → σ → EndpointMap → Prop) (ls : List DirectoryLabel)
    (m : EndpointMap) (s : σ) : Prop :=
  ls.filterMap reply? = (directoryAnswers m (ls.filterMap request?)).1.map .ok ∧
    ∃ now, Holds now s (directoryAnswers m (ls.filterMap request?)).2

/-- **A run** of a server each of whose steps agrees with the map. -/
theorem run_agree {σ : Type} {Holds : ℤ → σ → EndpointMap → Prop}
    {Step : σ → DirectoryLabel → σ → Prop}
    (hrequest : ∀ {now s m q reply s'}, Holds now s m → now ≤ q.actedAt → q.Timely →
      Step s (.request q reply) s' →
        reply = .ok (directoryAnswer m q).1 ∧ Holds q.finish s' (directoryAnswer m q).2)
    (hupkeep : ∀ {now s m now' s'}, Holds now s m → now ≤ now' → Step s (.upkeep now') s' →
      Holds now' s' m)
    {s s' : σ} {ls : List DirectoryLabel} (hrun : Run Step s ls s') {now : ℤ} {m : EndpointMap}
    (hs : Holds now s m) (hordered : Ordered now ls) : DirectoryAgrees Holds ls m s' := by
  induction hrun generalizing now m with
  | nil s => exact ⟨rfl, now, hs⟩
  | @cons s t u l ls hstep _ ih =>
    obtain ⟨hstart, htimely, hrest⟩ := hordered
    cases l with
    | request q reply =>
      obtain ⟨rfl, ht⟩ := hrequest hs hstart htimely hstep
      obtain ⟨hreplies, hlast⟩ := ih ht hrest
      exact ⟨congrArg (_ :: ·) hreplies, hlast⟩
    | upkeep now' => exact ih (hupkeep hs hstart hstep) hrest

/-- A request to a server whose store serves, at the key that it names. -/
theorem EndpointStore.Serves.handle {σ : Type} {S : EndpointStore σ}
    {Holds : ℤ → σ → EndpointMap → Prop}
    {q : EndpointRequest} {now : ℤ} {s : σ} {m : EndpointMap}
    (h : ∀ key, endpointStorageKey q.room q.recipient = some key → S.Serves Holds key)
    (hlater : ∀ {now now' s m}, Holds now s m → now ≤ now' → Holds now' s m)
    (hs : Holds now s m) (hnow : now ≤ q.actedAt) (hq : q.Timely) :
    (handleEndpoint S s q).1 = .ok (directoryAnswer m q).1 ∧
      Holds q.finish (handleEndpoint S s q).2 (directoryAnswer m q).2 := by
  have hfinish : q.actedAt ≤ q.finish := by
    unfold EndpointRequest.finish
    unfold EndpointRequest.Timely at hq
    cases hmethod : q.method <;> simp_all
  unfold handleEndpoint directoryAnswer
  cases hkey : endpointStorageKey q.room q.recipient with
  | none => exact ⟨rfl, hlater hs (hnow.trans hfinish)⟩
  | some key => exact (h key hkey).respond hq (hlater hs hnow)

/-- The Worker routes a request by its room, which is valid; an alarm cleans up one room. -/
def WorkerDirectories.Step (w : WorkerDirectories) (l : DirectoryLabel) (w' : WorkerDirectories) :
    Prop :=
  match l with
  | .request q reply => ∃ room, q.room = some room ∧ validRoom room = true ∧
      handleEndpoint (EndpointStorage.store.atRoom room) w q = (reply, w')
  | .upkeep now => ∃ room,
      w' = Function.update w room ((w room).purgeEndpointDirectory now)

/-- A clean-up of the Node database, or work on its other tables. -/
def NodeDatabase.Step (db : NodeDatabase) (l : DirectoryLabel) (db' : NodeDatabase) : Prop :=
  match l with
  | .request q reply => handleEndpoint NodeDatabase.endpointStore db q = (reply, db')
  | .upkeep now => db.purgeExpiredPairings now = .ok db' ∨
      db'.endpoints = db.endpoints ∧ db'.Sane

theorem WorkerDirectories.run_agrees {w : WorkerDirectories} {ls : List DirectoryLabel} {now : ℤ}
    (hrun : Run WorkerDirectories.Step (fun _ => ⟨.empty, none⟩) ls w) (hordered : Ordered now ls) :
    DirectoryAgrees WorkerDirectories.Holds ls (fun _ => none) w := by
  have hstart : WorkerDirectories.Holds now (fun _ => ⟨.empty, none⟩) fun _ => none :=
    { alike := Alike.refl _ _
      owned := fun room key row h => by cases h
      bounded := fun room key row h => by cases h
      few := fun room => Nat.zero_le _ }
  refine run_agree (fun hs hnow hq hstep => ?_) (fun hs hnow hstep => ?_) hrun hstart hordered
  · obtain ⟨room, hroom, hvalid, hreply⟩ := hstep
    have hanswer := EndpointStore.Serves.handle (fun key hkey => WorkerDirectories.serves (by
      have howner := (endpointStorageKey_owner hkey).1
      rw [hroom, Option.filter_some, if_pos hvalid, Option.some.injEq] at howner
      exact howner.symm)) (fun h hle => h.later hle) hs hnow hq
    rwa [hreply] at hanswer
  · obtain ⟨room, rfl⟩ := hstep
    exact (hs.later hnow).purge room

theorem NodeDatabase.run_agrees {db db' : NodeDatabase} {ls : List DirectoryLabel} {now : ℤ}
    (hsane : db.Sane) (hempty : db.endpoints = .empty) (hrun : Run NodeDatabase.Step db ls db')
    (hordered : Ordered now ls) : DirectoryAgrees NodeDatabase.Holds ls (fun _ => none) db' := by
  have hnone (key : Str) : db.endpoints.get? key = none := by rw [hempty, Table.get?_empty]
  have hstart : NodeDatabase.Holds now db fun _ => none :=
    { sane := hsane
      alike := by
        rw [show db.endpoints.get? = fun _ => none from funext hnone]
        exact Alike.refl _ _
      keyed := fun key row h => absurd (h.symm.trans (hnone key)) (by simp)
      bounded := fun key row h => absurd (h.symm.trans (hnone key)) (by simp)
      few := by
        rw [show db.endpoints.get? = fun _ => none from funext hnone]
        exact ⟨by simp [live], fun g => by simp [occupied, live]⟩ }
  refine run_agree (fun hs hnow hq hstep => ?_) (fun hs hnow hstep => ?_) hrun hstart hordered
  · have hanswer := EndpointStore.Serves.handle
      (fun key hkey => NodeDatabase.serves (endpointStorageKey_owner hkey).2)
      (fun h hle => h.later hle) hs hnow hq
    rwa [show handleEndpoint _ _ _ = _ from hstep] at hanswer
  · rcases hstep with hpurge | ⟨hsame, hsane'⟩
    · obtain ⟨purged, hpurged, hholds, -⟩ := (hs.later hnow).purge
      rw [hpurge] at hpurged
      cases hpurged
      exact hholds
    · have hlater := hs.later hnow
      refine hlater.shrink hsane' ?_ fun key row hrow => ?_
      · rw [hsame]
        exact hlater.alike
      · rwa [hsame] at hrow

/-- **Both servers are one directory**: in every run whose times do not decrease, every reply is
that of a map from keys to rows that expire, and no room has more than `ENDPOINT_RECIPIENT_LIMIT`
rows. -/
theorem directories_agree :
    (∀ (ls : List DirectoryLabel) (w : WorkerDirectories) (now : ℤ),
      Run WorkerDirectories.Step (fun _ => ⟨.empty, none⟩) ls w → Ordered now ls →
        ls.filterMap reply? =
            (directoryAnswers (fun _ => none) (ls.filterMap request?)).1.map .ok ∧
          ∀ room, (w room).rows.size ≤ ENDPOINT_RECIPIENT_LIMIT) ∧
    ∀ (ls : List DirectoryLabel) (db db' : NodeDatabase) (now : ℤ), db.Sane →
      db.endpoints = .empty → Run NodeDatabase.Step db ls db' → Ordered now ls →
        ls.filterMap reply? =
            (directoryAnswers (fun _ => none) (ls.filterMap request?)).1.map .ok ∧
          ∀ room, NodeDatabase.roomRows db'.endpoints room ≤ ENDPOINT_RECIPIENT_LIMIT := by
  refine ⟨fun ls w now hrun hordered => ?_, fun ls db db' now hsane hempty hrun hordered => ?_⟩
  · obtain ⟨hreplies, last, hholds⟩ := WorkerDirectories.run_agrees hrun hordered
    exact ⟨hreplies, hholds.few⟩
  · obtain ⟨hreplies, last, hholds⟩ := NodeDatabase.run_agrees hsane hempty hrun hordered
    refine ⟨hreplies, fun room => ?_⟩
    have hfew := hholds.few.le room
    rw [occupied_rows] at hfew
    simpa [NodeDatabase.roomRows, NodeDatabase.standing] using hfew

/-! ### An endpoint that expires while it is read -/

section Sample

/-- Requests in a row, with their replies. -/
def servedLabels {σ : Type} (S : EndpointStore σ) :
    σ → List EndpointRequest → List DirectoryLabel × σ
  | s, [] => ([], s)
  | s, q :: qs =>
    let (reply, s) := handleEndpoint S s q
    let (ls, last) := servedLabels S s qs
    (.request q reply :: ls, last)

theorem servedLabels_run {σ : Type} {S : EndpointStore σ} {Step : σ → DirectoryLabel → σ → Prop}
    (qs : List EndpointRequest)
    (hstep : ∀ s, ∀ q ∈ qs, Step s (.request q (handleEndpoint S s q).1) (handleEndpoint S s q).2)
    (s : σ) : Run Step s (servedLabels S s qs).1 (servedLabels S s qs).2 := by
  induction qs generalizing s with
  | nil => exact .nil s
  | cons q qs ih =>
    exact .cons (hstep s q List.mem_cons_self) (ih (fun s q hq =>
      hstep s q (List.mem_cons_of_mem _ hq)) _)

def sampleEndpointRoom : Str := List.replicate 32 97

def sampleEndpointBody : Value := some <| .obj
  [(lit "nonce", .str (List.replicate 32 65)), (lit "box", .str (List.replicate 24 65)),
    (lit "expiresAt", .num (.finite 1000 0))]

def sampleEndpointRequest (method : Method) (checkedAt actedAt : ℤ) : EndpointRequest where
  method := method
  room := some sampleEndpointRoom
  recipient := some (List.replicate 64 98)
  authorized := true
  body := sampleEndpointBody
  checkedAt := checkedAt
  actedAt := actedAt

/-- The second `GET` reads a row that expires before it is checked. -/
def sampleEndpointRequests : List EndpointRequest :=
  [sampleEndpointRequest .PUT 0 1, sampleEndpointRequest .GET 3 2,
    sampleEndpointRequest .GET 1000 999, sampleEndpointRequest .DELETE 1000 1001]

def sampleStatuses (ls : List DirectoryLabel) : List (Option ℕ) :=
  (ls.filterMap reply?).map fun reply => reply.toOption.map (·.status)

def sampleWorkerLabels : List DirectoryLabel × WorkerDirectories :=
  servedLabels (EndpointStorage.store.atRoom sampleEndpointRoom) (fun _ => ⟨.empty, none⟩)
    sampleEndpointRequests

def sampleNodeLabels : List DirectoryLabel × NodeDatabase :=
  servedLabels NodeDatabase.endpointStore .empty sampleEndpointRequests

theorem directories_agree_sample :
    (sampleStatuses sampleWorkerLabels.1 = [some 200, some 200, some 404, some 200] ∧
      sampleStatuses sampleNodeLabels.1 = sampleStatuses sampleWorkerLabels.1) ∧
    sampleNodeLabels.1.filterMap reply? = sampleWorkerLabels.1.filterMap reply? := by
  refine ⟨by decide +kernel, ?_⟩
  have hroom : ∀ q ∈ sampleEndpointRequests, q.room = some sampleEndpointRoom := by
    simp [sampleEndpointRequests, sampleEndpointRequest]
  have hworkerRun : Run WorkerDirectories.Step _ sampleWorkerLabels.1 sampleWorkerLabels.2 :=
    servedLabels_run _ (fun s q hq => ⟨sampleEndpointRoom, hroom q hq, by decide, rfl⟩) _
  have hnodeRun : Run NodeDatabase.Step _ sampleNodeLabels.1 sampleNodeLabels.2 :=
    servedLabels_run _ (fun s q hq => rfl) _
  have hworkerOrdered : Ordered 0 sampleWorkerLabels.1 := by
    simp [sampleWorkerLabels, servedLabels, sampleEndpointRequests, Ordered, start, finish, Timely,
      EndpointRequest.finish, EndpointRequest.Timely, sampleEndpointRequest]
  have hnodeOrdered : Ordered 0 sampleNodeLabels.1 := by
    simp [sampleNodeLabels, servedLabels, sampleEndpointRequests, Ordered, start, finish, Timely,
      EndpointRequest.finish, EndpointRequest.Timely, sampleEndpointRequest]
  rw [(directories_agree.1 _ _ 0 hworkerRun hworkerOrdered).1,
    (directories_agree.2 _ .empty _ 0 (fun k record h => by cases h) rfl hnodeRun hnodeOrdered).1]
  rfl

end Sample

end GrantTap
