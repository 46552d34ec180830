import GrantTapRelay.TaskDispatch.Policy
import GrantTapRelay.Library.Table

/-!
# The records around the jobs

Writer grants, resource reports and Project configurations are stored the same way by both
runtimes: one row for each room and id. `Reply` is what an operation on any of them answers.
-/

namespace GrantTap

open Js

/-- A room and an id in it. -/
abbrev RoomKey := Str × Str

structure WriterGrant where
  id : Str
  sourceKeyId : Str
  recipientKeyId : Str
  scopeHash : Str
  tokenHash : Str
  expiresAt : ℤ
  revokedAt : Option ℤ
  deriving DecidableEq

/-- A grant without its token hash. -/
structure PublicWriter where
  id : Str
  sourceKeyId : Str
  recipientKeyId : Str
  scopeHash : Str
  expiresAt : ℤ
  revokedAt : Option ℤ

structure ResourceReport where
  envelope : Json
  updatedAt : ℤ

structure Configuration where
  id : Str
  issuerKeyId : Str
  expiresAt : ℤ
  envelope : Json
  bytes : ℕ
  updatedAt : ℤ

/-- What a configuration shows. -/
structure VisibleConfiguration where
  id : Str
  issuerKeyId : Str
  expiresAt : ℤ
  envelope : Json
  updatedAt : ℤ

/-- The body of a reply. -/
inductive ReplyBody
  | error (text : String)
  | job (job : PublicJob)
  | jobs (jobs : List PublicJob)
  | configuration (configuration : Option VisibleConfiguration)
  | writer (writer : PublicWriter)
  | resources (report : ResourceReport)
  | ok
  | revoked

structure Reply where
  status : ℕ
  body : ReplyBody

def Reply.error (status : ℕ) (text : String) : Reply := ⟨status, .error text⟩

/-- The tables both runtimes keep next to the jobs; a grant lies at its own id. -/
structure Registry where
  writers : Table RoomKey WriterGrant
  resources : Table RoomKey ResourceReport
  configurations : Table RoomKey Configuration
  named : ∀ k row, writers.get? k = some row → row.id = k.2

def Registry.empty : Registry := ⟨.empty, .empty, .empty, fun _ _ h => nomatch h⟩

/-- The rows of one room in the order of their ids. -/
def roomRows {ν : Type} (t : Table RoomKey ν) (room : Str) : List (RoomKey × ν) :=
  (t.rows.filter fun r => r.1.1 = room).insertionSort fun a b => unitsLe a.1.2 b.1.2

theorem mem_roomRows {ν : Type} {t : Table RoomKey ν} {room : Str} {r : RoomKey × ν} :
    r ∈ roomRows t room ↔ t.get? r.1 = some r.2 ∧ r.1.1 = room := by
  rw [roomRows, (List.perm_insertionSort _ _).mem_iff, List.mem_filter, decide_eq_true_eq,
    ← Table.mem_rows]

theorem sorted_roomRows {ν : Type} (t : Table RoomKey ν) (room : Str) :
    (roomRows t room).Pairwise fun a b => unitsLe a.1.2 b.1.2 = true := by
  have : Std.Total fun a b : RoomKey × ν => unitsLe a.1.2 b.1.2 = true :=
    ⟨fun a b => unitsLe_total a.1.2 b.1.2⟩
  have : IsTrans (RoomKey × ν) fun a b => unitsLe a.1.2 b.1.2 = true :=
    ⟨fun _ _ _ => unitsLe_trans⟩
  exact List.pairwise_insertionSort (fun a b : RoomKey × ν => unitsLe a.1.2 b.1.2 = true) _

/-- The rows of a table rewritten in place. -/
theorem roomRows_map {ν : Type} (t : Table RoomKey ν) (f : RoomKey → ν → ν) (room : Str) :
    roomRows (t.map f) room = (roomRows t room).map fun r => (r.1, f r.1 r.2) := by
  rw [roomRows, roomRows, Table.map, List.filter_map]
  exact (List.map_insertionSort (fun a b : RoomKey × ν => unitsLe a.1.2 b.1.2 = true)
    (fun a b : RoomKey × ν => unitsLe a.1.2 b.1.2 = true) (fun r => (r.1, f r.1 r.2)) _
    fun _ _ _ _ => Iff.rfl).symm

end GrantTap
