import GrantTapRelay.Library.Table
import GrantTapRelay.Relay.Validation

/-!
# Task activities: policy and registries

`src/taskActivities/policy.js` and the two registries of `src/taskActivities/registry/`. The SQLite
registry keeps a row for each activity, with its last delivery in columns of their own; the Worker
registry keeps the rows of a room as one list, which every operation reads and writes in one
transaction. An operation gets the time at which its caller read the clock.

`ActivityRegistry` is what the endpoint uses of a registry. The identities of a Worker list are
distinct (`WorkerTaskActivities.Distinct`), which `WorkerActivities` carries.
-/

namespace GrantTap

open Js

/-! ## Policy -/

def ACTIVITY_TTL_MS : ℤ := 8 * 60 * 60 * 1000

def ACTIVITY_LIMIT : ℕ := 8

/-- `fields`: an object with these members and no others. -/
def fields (value : Value) (names : List String) : Bool :=
  match value with
  | some (.obj members) => members.length = names.length &&
    members.all fun member => (names.map lit).contains member.1
  | _ => false

/-- An identity that `validActivityId` accepts. -/
def activityId? (value : Value) : Option Str := value.str?.filter (ofClass isWord 1 180)

/-- A registration; the registries store its token in lower case. -/
structure ActivityRecord where
  activityId : Str
  token : Str
  environment : Str
  bundleId : Str
  expiresAt : ℤ
  nonce : Str
  box : Str
  deriving DecidableEq

/-- `validActivityRegistration`, and what it accepts. -/
def activityRegistration? (body : Value) (now : ℤ) : Option ActivityRecord := do
  guard (fields body
    ["activityId", "token", "environment", "bundleId", "expiresAt", "nonce", "box"])
  let activityId ← activityId? (body.get (lit "activityId"))
  let token ← (body.get (lit "token")).str?.filter fun s =>
    ofClass isHex 32 512 s && s.length % 2 = 0
  let environment ← (body.get (lit "environment")).str?.filter fun s =>
    s = lit "sandbox" || s = lit "production"
  let bundleId ← (body.get (lit "bundleId")).str?.filter (· = lit "com.ziborov.granttap")
  let expiresAt ← (body.get (lit "expiresAt")).int?.filter fun t =>
    now < t && t ≤ now + ACTIVITY_TTL_MS
  guard (validBase64 (body.get (lit "nonce")) 32 32)
  let nonce ← (body.get (lit "nonce")).str?
  guard (validBase64 (body.get (lit "box")) 24 2048)
  let box ← (body.get (lit "box")).str?
  return ⟨activityId, token, environment, bundleId, expiresAt, nonce, box⟩

inductive ActivityEvent
  | update
  | finish
  deriving DecidableEq

/-- An update for an activity. -/
structure ActivityUpdate where
  activityId : Str
  deliveryId : Str
  event : ActivityEvent
  staleDate : ℤ
  nonce : Str
  box : Str

/-- `validActivityUpdate`, and what it accepts. -/
def activityUpdate? (body : Value) (now : ℤ) : Option ActivityUpdate := do
  guard (fields body ["activityId", "deliveryId", "event", "staleDate", "contentState"])
  let activityId ← activityId? (body.get (lit "activityId"))
  let deliveryId ← activityId? (body.get (lit "deliveryId"))
  let event ← if (body.get (lit "event")).is (lit "update") then some .update
    else if (body.get (lit "event")).is (lit "end") then some .finish else none
  let staleDate ← (body.get (lit "staleDate")).int?.filter fun t =>
    now / 1000 - 300 ≤ t && t ≤ now / 1000 + 120
  let content := body.get (lit "contentState")
  guard (fields content ["nonce", "box"])
  guard (validBase64 (content.get (lit "nonce")) 32 32)
  let nonce ← (content.get (lit "nonce")).str?
  guard (validBase64 (content.get (lit "box")) 24 3072)
  let box ← (content.get (lit "box")).str?
  return ⟨activityId, deliveryId, event, staleDate, nonce, box⟩

/-! ## Rows -/

/-- A stored registration with its last delivery. -/
structure ActivityRow where
  record : ActivityRecord
  lastDeliveryId : Option Str
  lastDeliveredAt : ℤ

namespace ActivityRow

/-- The row of a registration in place of another. -/
def renew (existing : Option ActivityRow) (record : ActivityRecord) : ActivityRow where
  record := { record with token := record.token.map lowerUnit }
  lastDeliveryId := existing.bind (·.lastDeliveryId)
  lastDeliveredAt := (existing.map (·.lastDeliveredAt)).getD 0

/-- `expires_at > now` -/
def live (now : ℤ) (row : ActivityRow) : Bool := now < row.record.expiresAt

def mark (row : ActivityRow) (deliveryId : Str) (now : ℤ) : ActivityRow :=
  { row with lastDeliveryId := some deliveryId, lastDeliveredAt := now }

end ActivityRow

/-- The members of a registration that a subscriber sees. -/
structure Subscription where
  activityId : Str
  expiresAt : ℤ
  nonce : Str
  box : Str

def ActivityRow.subscription (row : ActivityRow) : Subscription :=
  ⟨row.record.activityId, row.record.expiresAt, row.record.nonce, row.record.box⟩

/-- An activity of a room. -/
structure ActivityKey where
  room : Str
  activityId : Str
  deriving DecidableEq

/-! ## SQLite -/

/-- The `task_activities` table. -/
abbrev SqliteTaskActivities := Table ActivityKey ActivityRow

namespace SqliteTaskActivities

def purge (s : SqliteTaskActivities) (now : ℤ) : SqliteTaskActivities :=
  s.filter fun _ row => row.live now

def get (s : SqliteTaskActivities) (k : ActivityKey) (now : ℤ) :
    Option ActivityRow × SqliteTaskActivities :=
  let s := s.purge now
  (s.get? k, s)

/-- `SELECT COUNT(*) … WHERE room=?` -/
def count (s : SqliteTaskActivities) (room : Str) : ℕ := s.rows.countP fun r => r.1.room = room

def register (s : SqliteTaskActivities) (room : Str) (body : Value) (now : ℤ) :
    Bool × SqliteTaskActivities :=
  match activityRegistration? body now with
  | none => (false, s)
  | some record =>
    let (existing, s) := get (s.purge now) ⟨room, record.activityId⟩ now
    if existing.isNone && ACTIVITY_LIMIT ≤ s.count room then (false, s)
    -- a conflict leaves the columns of the last delivery
    else (true, s.put ⟨room, record.activityId⟩ (.renew existing record))

/-- `list`, but for the order of its answer. -/
def list (s : SqliteTaskActivities) (room : Str) (now : ℤ) :
    List Subscription × SqliteTaskActivities :=
  let s := s.purge now
  ((s.rows.filter fun r => r.1.room = room).map fun r => r.2.subscription, s)

def remove (s : SqliteTaskActivities) (k : ActivityKey) : SqliteTaskActivities := s.erase k

def delivered (s : SqliteTaskActivities) (k : ActivityKey) (deliveryId : Str) (now : ℤ) :
    SqliteTaskActivities :=
  match s.get? k with
  | none => s
  | some row => if row.live now then s.put k (row.mark deliveryId now) else s

end SqliteTaskActivities

/-! ## Worker -/

/-- The lists under `task-activities:v1:`, by room. -/
abbrev WorkerTaskActivities := Table Str (List ActivityRow)

namespace WorkerTaskActivities

/-- `change`: a transaction on the live rows of a room. -/
def change {α : Type} (s : WorkerTaskActivities) (room : Str) (now : ℤ)
    (update : List ActivityRow → α × List ActivityRow) : α × WorkerTaskActivities :=
  let r := update (((s.get? room).getD []).filter (·.live now))
  (r.1, if r.2 = [] then s.erase room else s.put room r.2)

/-- `rows.find(row => row.activityId === id)` -/
def find (rows : List ActivityRow) (id : Str) : Option ActivityRow :=
  rows.find? fun row => row.record.activityId = id

/-- `rows.splice(rows.indexOf(existing), 1, …replacement)` -/
def splice (rows : List ActivityRow) (id : Str) (replacement : List ActivityRow) :
    List ActivityRow :=
  match rows with
  | [] => []
  | row :: rest =>
    if row.record.activityId = id then replacement ++ rest else row :: splice rest id replacement

def register (s : WorkerTaskActivities) (room : Str) (body : Value) (now : ℤ) :
    Bool × WorkerTaskActivities :=
  match activityRegistration? body now with
  | none => (false, s)
  | some record => s.change room now fun rows =>
    match find rows record.activityId with
    | some existing => (true, splice rows record.activityId [.renew (some existing) record])
    | none =>
      if ACTIVITY_LIMIT ≤ rows.length then (false, rows) else (true, rows ++ [.renew none record])

/-- `list`, but for the order of its answer. -/
def list (s : WorkerTaskActivities) (room : Str) (now : ℤ) :
    List Subscription × WorkerTaskActivities :=
  s.change room now fun rows => (rows.map (·.subscription), rows)

def get (s : WorkerTaskActivities) (k : ActivityKey) (now : ℤ) :
    Option ActivityRow × WorkerTaskActivities :=
  s.change k.room now fun rows => (find rows k.activityId, rows)

def remove (s : WorkerTaskActivities) (k : ActivityKey) (now : ℤ) : WorkerTaskActivities :=
  (s.change k.room now fun rows => ((), splice rows k.activityId [])).2

def delivered (s : WorkerTaskActivities) (k : ActivityKey) (deliveryId : Str) (now : ℤ) :
    WorkerTaskActivities :=
  (s.change k.room now fun rows =>
    ((), match find rows k.activityId with
      | none => rows
      | some row => splice rows k.activityId [row.mark deliveryId now])).2

end WorkerTaskActivities

/-! ### Distinct identities -/

namespace WorkerTaskActivities

/-- The identities of the activities. -/
def ids (rows : List ActivityRow) : List Str := rows.map (·.record.activityId)

/-- No activity of a room has two rows. -/
def Distinct (s : WorkerTaskActivities) : Prop :=
  ∀ room rows, s.get? room = some rows → (ids rows).Nodup

theorem Distinct.change {α : Type} {s : WorkerTaskActivities} (h : s.Distinct) (room : Str)
    (now : ℤ) {update : List ActivityRow → α × List ActivityRow}
    (hupdate : ∀ rows, (ids rows).Nodup → (ids (update rows).2).Nodup) :
    (s.change room now update).2.Distinct := by
  have hlive : (ids (((s.get? room).getD []).filter (·.live now))).Nodup := by
    refine List.Nodup.sublist (List.filter_sublist.map _) ?_
    cases hrows : s.get? room with
    | none => exact List.nodup_nil
    | some rows => exact h room rows hrows
  intro room' rows hrows
  unfold WorkerTaskActivities.change at hrows
  dsimp only at hrows
  split_ifs at hrows
  · rw [Table.get?_erase] at hrows
    split_ifs at hrows
    exact h room' rows hrows
  · rw [Table.get?_put] at hrows
    split_ifs at hrows
    · cases hrows
      exact hupdate _ hlive
    · exact h room' rows hrows

theorem ids_splice (rows : List ActivityRow) (id : Str) (row : ActivityRow)
    (hrow : row.record.activityId = id) : ids (splice rows id [row]) = ids rows := by
  induction rows with
  | nil => rfl
  | cons first rest ih =>
    unfold splice
    split_ifs with hfirst
    · simp only [ids, List.singleton_append, List.map_cons, hrow, hfirst]
    · simp only [ids, List.map_cons] at ih ⊢
      rw [ih]

theorem ids_splice_nil (rows : List ActivityRow) (id : Str) :
    (ids (splice rows id [])).Sublist (ids rows) := by
  induction rows with
  | nil => exact .refl _
  | cons first rest ih =>
    unfold splice
    split_ifs
    · exact List.sublist_cons_self _ _
    · exact ih.cons_cons _

theorem find_some {rows : List ActivityRow} {id : Str} {row : ActivityRow}
    (h : find rows id = some row) : row.record.activityId = id := by
  simpa using List.find?_some h

theorem find_none {rows : List ActivityRow} {id : Str} : find rows id = none ↔ id ∉ ids rows := by
  simp only [find, ids, List.find?_eq_none, List.mem_map, decide_eq_true_eq, not_exists, not_and]

theorem Distinct.register {s : WorkerTaskActivities} (h : s.Distinct) (room : Str) (body : Value)
    (now : ℤ) : (s.register room body now).2.Distinct := by
  unfold WorkerTaskActivities.register
  cases activityRegistration? body now with
  | none => exact h
  | some record =>
    refine h.change room now fun rows hrows => ?_
    cases hfind : find rows record.activityId with
    | some existing =>
      dsimp only
      rwa [ids_splice rows record.activityId _ (find_some hfind ▸ rfl)]
    | none =>
      dsimp only
      split_ifs
      · exact hrows
      · simp only [ids, List.map_append, List.map_cons, List.map_nil]
        exact List.Nodup.append hrows (List.nodup_singleton _)
          (List.disjoint_singleton.2 (find_none.1 hfind))

theorem Distinct.delivered {s : WorkerTaskActivities} (h : s.Distinct) (k : ActivityKey)
    (deliveryId : Str) (now : ℤ) : (s.delivered k deliveryId now).Distinct := by
  refine h.change k.room now fun rows hrows => ?_
  cases hfind : find rows k.activityId with
  | none => exact hrows
  | some row =>
    have hid := find_some hfind
    dsimp only
    rwa [ids_splice rows k.activityId (row.mark deliveryId now) hid]

theorem Distinct.remove {s : WorkerTaskActivities} (h : s.Distinct) (k : ActivityKey) (now : ℤ) :
    (s.remove k now).Distinct :=
  h.change k.room now fun rows hrows => List.Nodup.sublist (ids_splice_nil rows k.activityId) hrows

end WorkerTaskActivities

/-- The lists of a Worker. -/
abbrev WorkerActivities := { s : WorkerTaskActivities // s.Distinct }

/-! ## What the endpoint uses -/

/-- A registry. -/
structure ActivityRegistry (σ : Type) where
  empty : σ
  register : σ → Str → Value → ℤ → Bool × σ
  list : σ → Str → ℤ → List Subscription × σ
  get : σ → ActivityKey → ℤ → Option ActivityRow × σ
  remove : σ → ActivityKey → ℤ → σ
  delivered : σ → ActivityKey → Str → ℤ → σ

def sqliteRegistry : ActivityRegistry SqliteTaskActivities where
  empty := .empty
  register := SqliteTaskActivities.register
  list := SqliteTaskActivities.list
  get := SqliteTaskActivities.get
  remove s k _ := s.remove k
  delivered := SqliteTaskActivities.delivered

def workerRegistry : ActivityRegistry WorkerActivities where
  empty := ⟨.empty, nofun⟩
  register s room body now := ((s.1.register room body now).1, ⟨_, s.2.register room body now⟩)
  list s room now := ((s.1.list room now).1, ⟨(s.1.list room now).2, s.2.change room now fun _ h => h⟩)
  get s k now := ((s.1.get k now).1, ⟨(s.1.get k now).2, s.2.change k.room now fun _ h => h⟩)
  remove s k now := ⟨_, s.2.remove k now⟩
  delivered s k deliveryId now := ⟨_, s.2.delivered k deliveryId now⟩

end GrantTap
