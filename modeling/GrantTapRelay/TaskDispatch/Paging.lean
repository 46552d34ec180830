import GrantTapRelay.Library.Pages
import GrantTapRelay.TaskDispatch.Worker

/-!
# The pages of the job records

`src/taskDispatch/worker-records.js`: a Durable Object lists at most 1,000 keys at once, so the
records under a prefix are read page by page, each after the last key of the page before.

* `job_paging_complete`: **the loop ends with every record once**, or throws when there are more
  than the store may hold. Eleven pages are enough.
* `listTaskJobRecords_room`: the records of a room are the rows that the store reads.
-/

namespace GrantTap

open Js

variable {ν : Type}

/-- `a < b` for strings -/
def unitsLt (a b : Str) : Bool := !unitsLe b a

/-- The records under a prefix, in the order of their keys. -/
def recordsUnder (t : Table Str ν) (under : Str) : List (Str × ν) :=
  (t.rows.filter fun r => under.isPrefixOf r.1).insertionSort fun a b => unitsLe a.1 b.1

def LIST_LIMIT : ℕ := 1000

/-- `storage.list({ prefix, startAfter, limit: 1000 })` -/
def listPage (t : Table Str ν) (under : Str) (startAfter : Option Str) : List (Str × ν) :=
  (Pages.after unitsLt Prod.fst startAfter (recordsUnder t under)).take LIST_LIMIT

/-- The loop of `listTaskJobRecords`, for some pages. -/
def readPages (t : Table Str ν) (under : Str) :
    ℕ → Table Str ν → Option Str → Option (Except Throw (Table Str ν))
  | 0, _, _ => none
  | fuel + 1, records, startAfter =>
    let page := listPage t under startAfter
    let records := records.collect page
    if ROOM_RECEIPT_LIMIT + ROOM_JOB_LIMIT < records.size then
      some (.error (.error "task history exceeds storage bounds"))
    else if page.length < LIST_LIMIT then some (.ok records)
    else
      match page.getLast?.map Prod.fst with
      | none => some (.error (.error "task history cursor did not advance"))
      | some last =>
        -- an empty text is as good as no key
        if last = [] ∨ startAfter.any fun c => c ≠ [] && unitsLe last c then
          some (.error (.error "task history cursor did not advance"))
        else readPages t under fuel records (some last)

def listTaskJobRecords (t : Table Str ν) (under : Str) (fuel : ℕ) :
    Option (Except Throw (Table Str ν)) := readPages t under fuel .empty none

/-! ## The records in order -/

theorem unitsLt_irrefl (a : Str) : unitsLt a a = false := by
  rw [unitsLt, unitsLe_refl]
  rfl

theorem unitsLt_asymm (a b : Str) (h : unitsLt a b = true) : unitsLt b a = false := by
  have hba : unitsLe b a = false := by simpa [unitsLt] using h
  have hab := (unitsLe_total a b).resolve_right (Bool.eq_false_iff.1 hba)
  rw [unitsLt, hab]
  rfl

theorem unitsLt_of_ne {a b : Str} (h : unitsLe a b = true) (hne : a ≠ b) : unitsLt a b = true := by
  rw [unitsLt, Bool.not_eq_true']
  exact Bool.eq_false_iff.2 fun h' => hne (unitsLe_antisymm h h')

theorem nodup_recordsUnder (t : Table Str ν) (under : Str) :
    ((recordsUnder t under).map Prod.fst).Nodup :=
  ((List.perm_insertionSort _ _).map Prod.fst).nodup_iff.2
    (t.nodup.sublist (List.filter_sublist.map Prod.fst))

theorem sorted_recordsUnder (t : Table Str ν) (under : Str) :
    (recordsUnder t under).Pairwise fun a b => unitsLt a.1 b.1 = true := by
  have : Std.Total fun a b : Str × ν => unitsLe a.1 b.1 = true := ⟨fun a b => unitsLe_total a.1 b.1⟩
  have : IsTrans (Str × ν) fun a b => unitsLe a.1 b.1 = true := ⟨fun _ _ _ => unitsLe_trans⟩
  have hle : (recordsUnder t under).Pairwise fun a b => unitsLe a.1 b.1 = true :=
    List.pairwise_insertionSort (fun a b : Str × ν => unitsLe a.1 b.1 = true) _
  have hne := List.pairwise_map.1 (nodup_recordsUnder t under)
  exact hle.imp₂ (fun _ _ => unitsLt_of_ne) hne

/-- The page after the first `m` records. -/
theorem listPage_take (t : Table Str ν) (under : Str) (m : ℕ) :
    listPage t under (((recordsUnder t under).take m).getLast?.map Prod.fst) =
      ((recordsUnder t under).drop m).take LIST_LIMIT := by
  have hsorted := sorted_recordsUnder t under
  rw [← List.take_append_drop m (recordsUnder t under)] at hsorted
  have hrest := Pages.after_getLast? unitsLt_irrefl unitsLt_asymm hsorted
  rw [List.take_append_drop] at hrest
  rw [listPage, hrest]

/-- A page of several records ends with a key that is not empty. -/
theorem last_ne_nil {init : List (Str × ν)} {last : Str × ν} (hinit : init ≠ [])
    (hsorted : (init ++ [last]).Pairwise fun a b => unitsLt a.1 b.1 = true) : last.1 ≠ [] := by
  obtain ⟨first, hfirst⟩ := List.exists_mem_of_ne_nil init hinit
  have hlt := (List.pairwise_append.1 hsorted).2.2 first hfirst last (List.mem_singleton.2 rfl)
  intro hnil
  rw [hnil] at hlt
  cases hlt

/-! ## The loop -/

/-- **The loop from its `i`-th page on**, when the first pages were full. -/
theorem readPages_from {t records : Table Str ν} {under : Str} {i fuel : ℕ} (hi : i ≤ 10)
    (hfuel : 11 ≤ fuel + i) (hfull : i * LIST_LIMIT ≤ (recordsUnder t under).length)
    (hrecords : records.rows = (recordsUnder t under).take (i * LIST_LIMIT))
    {all : Table Str ν} (hall : all.rows = recordsUnder t under) :
    readPages t under fuel records
        (((recordsUnder t under).take (i * LIST_LIMIT)).getLast?.map Prod.fst) =
      some (if all.size ≤ ROOM_RECEIPT_LIMIT + ROOM_JOB_LIMIT then .ok all
        else .error (.error "task history exceeds storage bounds")) := by
  have hnodup := nodup_recordsUnder t under
  have hsorted := sorted_recordsUnder t under
  have hsize : all.size = (recordsUnder t under).length := congrArg List.length hall
  induction fuel generalizing i records with
  | zero => omega
  | succ fuel ih =>
    set l := recordsUnder t under with hl
    have hnext : l.take (i * LIST_LIMIT) ++ (l.drop (i * LIST_LIMIT)).take LIST_LIMIT =
        l.take ((i + 1) * LIST_LIMIT) := by
      rw [Nat.succ_mul, List.take_add]
    have hcollect : (records.collect ((l.drop (i * LIST_LIMIT)).take LIST_LIMIT)).rows =
        l.take ((i + 1) * LIST_LIMIT) := by
      rw [Table.rows_collect, hrecords, hnext]
      rw [hrecords, hnext]
      exact hnodup.sublist ((List.take_sublist _ _).map Prod.fst)
    have hcount : (records.collect ((l.drop (i * LIST_LIMIT)).take LIST_LIMIT)).size =
        min ((i + 1) * LIST_LIMIT) l.length :=
      (congrArg List.length hcollect).trans List.length_take
    have hpage : ((l.drop (i * LIST_LIMIT)).take LIST_LIMIT).length =
        min LIST_LIMIT (l.length - i * LIST_LIMIT) := by
      rw [List.length_take, List.length_drop]
    have hlimits : ROOM_RECEIPT_LIMIT + ROOM_JOB_LIMIT = 10100 := rfl
    have hlimit : LIST_LIMIT = 1000 := rfl
    have hsucc : (i + 1) * LIST_LIMIT = i * LIST_LIMIT + LIST_LIMIT := Nat.succ_mul _ _
    rw [readPages, listPage_take, ← hl, hcount, hpage]
    by_cases hover : ROOM_RECEIPT_LIMIT + ROOM_JOB_LIMIT < min ((i + 1) * LIST_LIMIT) l.length
    · rw [if_pos hover, if_neg (by omega)]
    rw [if_neg hover]
    by_cases hshort : min LIST_LIMIT (l.length - i * LIST_LIMIT) < LIST_LIMIT
    · -- the last page
      have hend : l.length ≤ (i + 1) * LIST_LIMIT := by omega
      have hwhole : records.collect ((l.drop (i * LIST_LIMIT)).take LIST_LIMIT) = all :=
        Table.ext_rows (by rw [hcollect, List.take_of_length_le hend, hall])
      rw [if_pos hshort, hwhole, if_pos (by omega)]
    · rw [if_neg hshort]
      have hlong : (i + 1) * LIST_LIMIT ≤ l.length := by omega
      obtain ⟨init, last, hlast⟩ := List.eq_nil_or_concat' ((l.drop (i * LIST_LIMIT)).take LIST_LIMIT)
        |>.resolve_left fun hnil => by rw [hnil, List.length_nil] at hpage; omega
      have hinit : init.length = 999 := by
        have hlength := congrArg List.length hlast
        rw [List.length_append, List.length_singleton, hpage] at hlength
        omega
      rw [hlast] at hnext hcollect ⊢
      -- the cursor advances
      have hne : last.1 ≠ [] := by
        have hpairs := hsorted.sublist
          ((List.take_sublist LIST_LIMIT _).trans (List.drop_sublist (i * LIST_LIMIT) l))
        rw [hlast] at hpairs
        exact last_ne_nil (by rintro rfl; cases hinit) hpairs
      have hcross : ∀ c, ((l.take (i * LIST_LIMIT)).getLast?.map Prod.fst) = some c →
          unitsLe last.1 c = false := by
        intro c hc
        obtain ⟨r, hr, rfl⟩ := Option.map_eq_some_iff.1 hc
        rw [← List.take_append_drop (i * LIST_LIMIT) l] at hsorted
        have hmem : last ∈ l.drop (i * LIST_LIMIT) := by
          refine List.mem_of_mem_take (i := LIST_LIMIT) ?_
          rw [hlast]
          simp
        have hlt := (List.pairwise_append.1 hsorted).2.2 r (List.mem_of_getLast? hr) last hmem
        simpa [unitsLt] using hlt
      have hcursor : some last.1 = (l.take ((i + 1) * LIST_LIMIT)).getLast?.map Prod.fst := by
        rw [← hnext, ← List.append_assoc, List.getLast?_append, List.getLast?_singleton]
        rfl
      rw [List.getLast?_append, List.getLast?_singleton, Option.some_or, Option.map_some]
      dsimp only
      have hten : (i + 1) * LIST_LIMIT ≤ 10100 := by omega
      rw [hlimit] at hten
      rw [if_neg, hcursor]
      · exact ih (by omega) (by omega) hlong hcollect
      · rintro (hnil | hback)
        · exact hne hnil
        · obtain ⟨c, hc, hback⟩ := (Option.any_eq_true _ _).1 hback
          rw [hcross c hc, Bool.and_false] at hback
          cases hback

/-- The loop ends after at most eleven pages. -/
theorem listTaskJobRecords_eq {t all : Table Str ν} {under : Str}
    (hall : all.rows = recordsUnder t under) (more : ℕ) :
    listTaskJobRecords t under (11 + more) =
      some (if all.size ≤ ROOM_RECEIPT_LIMIT + ROOM_JOB_LIMIT then .ok all
        else .error (.error "task history exceeds storage bounds")) := by
  have hrecords : (Table.empty : Table Str ν).rows =
      (recordsUnder t under).take (0 * LIST_LIMIT) := by
    rw [Nat.zero_mul, List.take_zero]
    rfl
  have hread := readPages_from (Nat.zero_le 10) (Nat.le_add_right 11 more)
    (by rw [Nat.zero_mul]; exact Nat.zero_le _) hrecords hall
  rw [Nat.zero_mul, List.take_zero] at hread
  exact hread

/-- **Paging is complete and terminates**: the loop ends with every record under the prefix, once,
unless they are too many, and then it throws. -/
theorem job_paging_complete (t : Table Str ν) (under : Str) : ∃ records : Table Str ν,
    records.rows.Perm (t.rows.filter fun r => under.isPrefixOf r.1) ∧
      ∀ more, listTaskJobRecords t under (11 + more) =
        some (if records.size ≤ ROOM_RECEIPT_LIMIT + ROOM_JOB_LIMIT then .ok records
          else .error (.error "task history exceeds storage bounds")) :=
  ⟨⟨recordsUnder t under, nodup_recordsUnder t under⟩, List.perm_insertionSort _ _,
    listTaskJobRecords_eq rfl⟩

/-! ## The rows of a room -/

/-- `task-job:${room}:` -/
def roomPrefix (room : Str) : Str := lit "task-job:" ++ room ++ lit ":"

/-- `task-job:${room}:${id}` -/
def taskJobKey (room id : Str) : Str := roomPrefix room ++ id

/-- The storage under the keys of a room is the rows of the room. -/
def HoldsRoom (t : Table Str Job) (s : WorkerTasks) (room : Str) : Prop :=
  ∀ id row, t.get? (taskJobKey room id) = some row ↔ s.jobs.get? (room, id) = some row

theorem unitsLe_append (pre s t : Str) : unitsLe (pre ++ s) (pre ++ t) = unitsLe s t := by
  induction pre with
  | nil => rfl
  | cons u pre ih => simp [unitsLe, ih]

/-- The records of a room, in the order of the rows of the store. -/
theorem recordsUnder_room {t : Table Str Job} {s : WorkerTasks} {room : Str}
    (h : HoldsRoom t s room) : recordsUnder t (roomPrefix room) =
      (roomRows s.jobs room).map fun r => (taskJobKey room r.1.2, r.2) := by
  have hnodup : ((roomRows s.jobs room).map Prod.fst).Nodup :=
    WorkerTasks.nodup_roomRows s.jobs room
  have hroom : ∀ r ∈ roomRows s.jobs room, r.1 = (room, r.1.2) := fun r hr =>
    Prod.ext (mem_roomRows.1 hr).2 rfl
  have hkeys : ((roomRows s.jobs room).map fun r => (taskJobKey room r.1.2, r.2)).Pairwise
      fun a b => unitsLt a.1 b.1 = true := by
    rw [List.pairwise_map]
    refine ((sorted_roomRows s.jobs room).and (List.pairwise_map.1 hnodup)).imp_of_mem fun {a b} ha hb hab => ?_
    refine unitsLt_of_ne ((unitsLe_append _ _ _).trans hab.1) fun he => hab.2 ?_
    rw [hroom a ha, hroom b hb, List.append_cancel_left he]
  refine List.Perm.eq_of_pairwise (fun a b _ _ hab hba => ?_) (sorted_recordsUnder _ _) hkeys ?_
  · rw [unitsLt_asymm _ _ hab] at hba
    cases hba
  · refine (List.perm_ext_iff_of_nodup (.of_map _ (nodup_recordsUnder _ _))
      (hkeys.imp fun {a b} hlt he => ?_)).2 fun r => ?_
    · rw [he, unitsLt_irrefl] at hlt
      cases hlt
    · rw [recordsUnder, List.mem_insertionSort, List.mem_filter, List.isPrefixOf_iff_prefix,
        List.mem_map]
      constructor
      · rintro ⟨hrow, id, hid⟩
        obtain ⟨key, row⟩ := r
        obtain rfl := hid
        exact ⟨((room, id), row), mem_roomRows.2 ⟨(h id row).1 (Table.mem_rows.1 hrow), rfl⟩, rfl⟩
      · rintro ⟨r', hr', rfl⟩
        have hget := (mem_roomRows.1 hr').1
        rw [hroom r' hr'] at hget
        exact ⟨Table.mem_rows.2 ((h _ _).2 hget), List.prefix_append _ _⟩

/-- **The records of a room are the rows that the store reads.** -/
theorem listTaskJobRecords_room {t : Table Str Job} {s : WorkerTasks} {room : Str}
    (h : HoldsRoom t s room) (more : ℕ) :
    (listTaskJobRecords t (roomPrefix room) (11 + more)).map (Except.map Table.values) =
      some ((WorkerTasks.boundedRecords (roomRows s.jobs room)).map (List.map Prod.snd)) := by
  let all : Table Str Job := ⟨recordsUnder t (roomPrefix room), nodup_recordsUnder _ _⟩
  have hvalues : all.values = (roomRows s.jobs room).map Prod.snd := by
    rw [Table.values, show all.rows = _ from recordsUnder_room h, List.map_map]
    rfl
  have hsize : all.size = (roomRows s.jobs room).length := by
    rw [Table.size, show all.rows = _ from recordsUnder_room h, List.length_map]
  rw [listTaskJobRecords_eq (show all.rows = _ from rfl) more, hsize]
  unfold WorkerTasks.boundedRecords
  by_cases hle : (roomRows s.jobs room).length ≤ ROOM_RECEIPT_LIMIT + ROOM_JOB_LIMIT
  · rw [if_pos hle, if_neg (not_lt.2 hle)]
    exact congrArg (fun rows => some (Except.ok rows)) hvalues
  · rw [if_neg hle, if_pos (not_le.1 hle)]
    rfl

end GrantTap
