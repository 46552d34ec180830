import GrantTapRelay.Library.JsValue
import GrantTapRelay.Library.Runs
import GrantTapRelay.Library.Table
import GrantTapRelay.Library.Windows

/-!
# Relay diagnostics

`src/relay/relayLog.js`: a logger writes at most one line for each key in `intervalMs` and at most
`maxPerSecond` lines in a window of a second, and remembers `maxKeys` keys, the one whose latest
line is oldest first. What `write` throws is dropped, so a line is a line whether or not `write`
returns.

* `Diary`: the logger and the lines that it wrote.
* `Diary.Inv`: a key whose latest line is within the interval is remembered.
* `diagnostics_rate_limited`: **the rate of the lines**, and what they say of suppressed calls.
-/

namespace GrantTap

open Js Windows

/-! ## Fields -/

/-- `/^[a-z][a-z0-9-]{0,47}$/` -/
def TOKEN : Str → Bool
  | [] => false
  | first :: rest => unitIn 'a' 'z' first &&
      ofClass (fun u => unitIn 'a' 'z' u || isDigit u || u == '-'.toNat.toUInt16) 0 47 rest

/-- The members of an object that `sanitizeLogFields` returns. -/
structure LogEntry where
  room : Str
  role : Str
  code : Option ℤ
  status : Option ℤ
  retryAfter : Option ℤ
  reason : Value

def roomTag (room : Value) : Str :=
  match room.str? with
  | some room => if ofClass isLowerHex 16 64 room then room.take 8 else lit "-"
  | none => lit "-"

/-- A safe integer that is not negative. -/
def logCount (value : Value) : Option ℤ := value.int?.filter (0 ≤ ·)

def sanitizeLogFields (fields : Value) : Except Throw LogEntry := do
  if let some .null := fields then throw .typeError
  let role := fields.get (lit "role")
  let reason := fields.get (lit "reason")
  let accepted ← Value.test TOKEN reason.orEmpty
  return {
    room := roomTag (fields.get (lit "room"))
    role := if role.is (lit "machine") || role.is (lit "phone") then role.str?.getD [] else lit "-"
    code := logCount (fields.get (lit "code"))
    status := logCount (fields.get (lit "status"))
    retryAfter := logCount (fields.get (lit "retryAfter"))
    reason := if accepted then reason else none }

/-- The name of a line for the limits: `event|room|role|reason|code`, or the status for the code. -/
def logKey (event : Str) (entry : LogEntry) : Except Throw Str := do
  let reason ← match entry.reason with
    | none => pure []
    | some reason => reason.toText
  let number := match entry.code.orElse fun _ => entry.status with
    | none => []
    | some n => (Number.finite n 0).text
  return event ++ lit "|" ++ entry.room ++ lit "|" ++ entry.role ++ lit "|" ++ reason ++ lit "|" ++
    number

/-! ## The logger -/

structure LogOptions where
  intervalMs : ℤ
  maxPerSecond : ℕ
  maxKeys : ℕ

/-- The options that are taken for missing ones. -/
def LogOptions.standard : LogOptions := ⟨10000, 50, 1000⟩

structure LogSeen where
  atMs : ℤ
  suppressed : ℕ

/-- The members of a written line, of which `suppressed` is absent for zero. -/
structure LogLine where
  ts : ℤ
  event : Str
  entry : LogEntry
  suppressed : Option ℕ

structure RelayLog where
  /-- The keys in the order of their latest lines. -/
  seen : Table Str LogSeen
  /-- `secondStartedAt` and `secondLines` -/
  second : Window

namespace RelayLog

/-- A logger that has written nothing. -/
def created : RelayLog := ⟨.empty, ⟨none, 0⟩⟩

/-- One suppressed call more for a remembered key. -/
def suppress (seen : Table Str LogSeen) (key : Str) : Table Str LogSeen :=
  seen.map fun other previous =>
    if other = key then { previous with suppressed := previous.suppressed + 1 } else previous

/-- The remembered keys after a line. -/
def remember (options : LogOptions) (seen : Table Str LogSeen) (key : Str) (time : ℤ) :
    Table Str LogSeen :=
  let entered := (seen.erase key).put key ⟨time, 0⟩
  if options.maxKeys < entered.size then entered.tail else entered

/-- A call of the logger from its `now()` on. -/
def emit (options : LogOptions) (log : RelayLog) (key event : Str) (entry : LogEntry) (time : ℤ) :
    RelayLog × Option LogLine :=
  let previous := log.seen.get? key
  if previous.any fun previous => time - previous.atMs < options.intervalMs then
    ({ log with seen := suppress log.seen key }, none)
  else
    let second := log.second.turn 1000 time
    if options.maxPerSecond ≤ second.used then
      ({ seen := suppress log.seen key, second := second }, none)
    else
      ({ seen := remember options log.seen key time,
         second := { second with used := second.used + 1 } },
        some { ts := time, event := event, entry := entry,
               suppressed := (previous.map LogSeen.suppressed).filter (· ≠ 0) })

end RelayLog

/-- A call of the logger. -/
structure LogCall where
  time : ℤ
  event : Str
  fields : Value

/-- The key and the entry of a call, unless its event is refused or its fields throw. -/
def LogCall.keyed? (call : LogCall) : Except Throw (Option (Str × LogEntry)) :=
  if TOKEN (call.event.map fun u =>
      if u == '.'.toNat.toUInt16 || u == '_'.toNat.toUInt16 then '-'.toNat.toUInt16 else u) then do
    let entry ← sanitizeLogFields call.fields
    let key ← logKey call.event entry
    return some (key, entry)
  else return none

/-- `log`: the logger after a call and the line that it wrote. -/
def RelayLog.log (options : LogOptions) (log : RelayLog) (call : LogCall) :
    Except Throw (RelayLog × Option LogLine) := do
  match ← call.keyed? with
  | none => return (log, none)
  | some (key, entry) => return log.emit options key call.event entry call.time

/-! ## Histories -/

/-- A written line, with its key and the start of its second. -/
structure LogRecord where
  key : Str
  start : ℤ
  line : LogLine

/-- The logger and the lines that it wrote. -/
structure Diary where
  log : RelayLog
  lines : List LogRecord

/-- The key of a call. -/
def LogCall.key? (call : LogCall) : Option Str :=
  match call.keyed? with
  | .ok keyed => keyed.map Prod.fst
  | .error _ => none

namespace Diary

/-- A call; one that throws has no effect. -/
def next (options : LogOptions) (d : Diary) (call : LogCall) : Diary :=
  match d.log.log options call, call.key? with
  | .ok (log, some line), some key =>
    ⟨log, d.lines ++ [⟨key, log.second.start.getD line.ts, line⟩]⟩
  | .ok (log, _), _ => { d with log := log }
  | .error _, _ => d

/-- The diary of some calls, from a logger on. -/
def after (options : LogOptions) (log : RelayLog) (calls : List LogCall) : Diary :=
  calls.foldl (Diary.next options) ⟨log, []⟩

end Diary

namespace Diary

variable {options : LogOptions} {d d' : Diary} {call : LogCall} {key : Str}

/-- The call is suppressed. -/
structure Held (d : Diary) (call : LogCall) (key : Str) (d' : Diary) : Prop where
  seen : d'.log.seen = RelayLog.suppress d.log.seen key
  second : d'.log.second = d.log.second ∨ d'.log.second = d.log.second.turn 1000 call.time
  lines : d'.lines = d.lines

/-- The call writes a line. -/
structure Wrote (options : LogOptions) (d : Diary) (call : LogCall) (key : Str) (line : LogLine)
    (d' : Diary) : Prop where
  due : ∀ previous, d.log.seen.get? key = some previous →
    options.intervalMs ≤ call.time - previous.atMs
  room : (d.log.second.turn 1000 call.time).used < options.maxPerSecond
  ts : line.ts = call.time
  suppressed : line.suppressed = ((d.log.seen.get? key).map LogSeen.suppressed).filter (· ≠ 0)
  seen : d'.log.seen = RelayLog.remember options d.log.seen key call.time
  second : d'.log.second = { d.log.second.turn 1000 call.time with
    used := (d.log.second.turn 1000 call.time).used + 1 }
  lines : d'.lines =
    d.lines ++ [⟨key, (d.log.second.turn 1000 call.time).start.getD call.time, line⟩]

/-- What a diary keeps to. -/
structure Inv (options : LogOptions) (d : Diary) (clock : ℤ) : Prop where
  paced : Paced 1000 options.maxPerSecond d.log.second
    (d.lines.map fun record => (record.start, record.line.ts)) clock
  past : ∀ record ∈ d.lines, record.line.ts ≤ clock
  size_le : d.log.seen.size ≤ options.maxKeys
  /-- The keys are in the order of their latest lines. -/
  ordered : d.log.seen.rows.Pairwise fun row row' => row.2.atMs ≤ row'.2.atMs
  written : ∀ row ∈ d.log.seen.rows,
    ∃ record ∈ d.lines, record.key = row.1 ∧ record.line.ts = row.2.atMs
  /-- A key with a line within the interval is remembered. -/
  recent : ∀ record ∈ d.lines, clock - record.line.ts < options.intervalMs →
    ∃ latest, d.log.seen.get? record.key = some latest ∧ record.line.ts ≤ latest.atMs
  apart : d.lines.Pairwise fun record record' =>
    record.key = record'.key → record.line.ts + options.intervalMs ≤ record'.line.ts

variable {clock now : ℤ}

theorem Inv.later (h : Inv options d clock) (hle : clock ≤ now) : Inv options d now :=
  { h with
    paced := h.paced.later hle
    past := fun record hrecord => (h.past record hrecord).trans hle
    recent := fun record hrecord hnow => h.recent record hrecord (by omega) }

/-- **A suppressed call** keeps it. -/
theorem Inv.held (h : Inv options d call.time) (hheld : Held d call key d') :
    Inv options d' call.time := by
  have hrows : d'.log.seen.rows = d.log.seen.rows.map fun row => (row.1, if row.1 = key then
      { row.2 with suppressed := row.2.suppressed + 1 } else row.2) := by
    rw [hheld.seen]
    rfl
  have hat : ∀ row : Str × LogSeen, (if row.1 = key then
      { row.2 with suppressed := row.2.suppressed + 1 } else row.2 : LogSeen).atMs = row.2.atMs := by
    intro row
    split_ifs <;> rfl
  refine ⟨?_, ?_, ?_, ?_, ?_, ?_, ?_⟩
  · rw [hheld.lines]
    rcases hheld.second with hsecond | hsecond
    · rw [hsecond]
      exact h.paced
    · rw [hsecond]
      exact (h.paced.turn (by decide)).1
  · rw [hheld.lines]
    exact h.past
  · rw [Table.size, hrows, List.length_map]
    exact h.size_le
  · rw [hrows, List.pairwise_map]
    refine h.ordered.imp fun {row row'} hle => ?_
    dsimp only
    rw [hat, hat]
    exact hle
  · rw [hrows, hheld.lines]
    intro row hrow
    obtain ⟨row, hmem, rfl⟩ := List.mem_map.1 hrow
    obtain ⟨record, hrecord, hkey, hts⟩ := h.written row hmem
    exact ⟨record, hrecord, hkey, hts.trans (hat row).symm⟩
  · rw [hheld.lines]
    intro record hrecord hnow
    obtain ⟨latest, hlatest, hle⟩ := h.recent record hrecord hnow
    rw [hheld.seen, RelayLog.suppress, Table.get?_map, hlatest]
    exact ⟨_, rfl, hle.trans (hat (record.key, latest)).ge⟩
  · rw [hheld.lines]
    exact h.apart

/-- The start of the second that a line is in. -/
def secondAt (d : Diary) (call : LogCall) : ℤ :=
  (d.log.second.turn 1000 call.time).start.getD call.time

/-- The remembered keys after a line, before one may be forgotten. -/
def entered (d : Diary) (call : LogCall) (key : Str) : Table Str LogSeen :=
  (d.log.seen.erase key).put key ⟨call.time, 0⟩

namespace Wrote

variable {line : LogLine}

theorem mem_lines (hwrote : Wrote options d call key line d') {record : LogRecord} :
    record ∈ d'.lines ↔ record ∈ d.lines ∨ record = ⟨key, secondAt d call, line⟩ := by
  rw [hwrote.lines, List.mem_append, List.mem_singleton]
  rfl

theorem paced (h : Inv options d call.time) (hwrote : Wrote options d call key line d') :
    Paced 1000 options.maxPerSecond d'.log.second
      (d'.lines.map fun record => (record.start, record.line.ts)) call.time := by
  obtain ⟨hturn, start, hstart, hle, hlt⟩ := h.paced.turn (by decide)
  have haccept := hturn.accept hstart hle hlt hwrote.room
  rw [hwrote.second, hwrote.lines, List.map_append, List.map_singleton, hstart, hwrote.ts]
  exact haccept

theorem ordered (h : Inv options d call.time) (key : Str) :
    (entered d call key).rows.Pairwise fun row row' => row.2.atMs ≤ row'.2.atMs := by
  rw [entered, Table.rows_put_erase, List.pairwise_append]
  refine ⟨h.ordered.sublist List.filter_sublist, List.pairwise_singleton .., ?_⟩
  intro row hrow row' hrow'
  obtain ⟨record, hrecord, -, hts⟩ := h.written row (List.mem_of_mem_filter hrow)
  rw [List.mem_singleton.1 hrow', ← hts]
  exact h.past record hrecord

theorem written (h : Inv options d call.time) (hwrote : Wrote options d call key line d')
    {row : Str × LogSeen} (hrow : row ∈ (entered d call key).rows) :
    ∃ record ∈ d'.lines, record.key = row.1 ∧ record.line.ts = row.2.atMs := by
  rw [entered, Table.rows_put_erase] at hrow
  rcases List.mem_append.1 hrow with hrow | hrow
  · obtain ⟨record, hrecord, hkey, hts⟩ := h.written row (List.mem_of_mem_filter hrow)
    exact ⟨record, hwrote.mem_lines.2 (.inl hrecord), hkey, hts⟩
  · rw [List.mem_singleton.1 hrow]
    exact ⟨⟨key, secondAt d call, line⟩, hwrote.mem_lines.2 (.inr rfl), rfl, hwrote.ts⟩

theorem recent (h : Inv options d call.time) (hwrote : Wrote options d call key line d')
    {record : LogRecord} (hrecord : record ∈ d'.lines)
    (hnow : call.time - record.line.ts < options.intervalMs) :
    ∃ latest, (entered d call key).get? record.key = some latest ∧
      record.line.ts ≤ latest.atMs := by
  have hts : record.line.ts ≤ call.time := by
    rcases hwrote.mem_lines.1 hrecord with hrecord | rfl
    · exact h.past record hrecord
    · exact hwrote.ts.le
  rw [entered, Table.get?_put]
  by_cases hkey : record.key = key
  · rw [if_pos hkey]
    exact ⟨_, rfl, hts⟩
  · rw [if_neg hkey, Table.get?_erase, if_neg hkey]
    rcases hwrote.mem_lines.1 hrecord with hrecord | rfl
    · exact h.recent record hrecord hnow
    · exact absurd rfl hkey

end Wrote

/-- The lines of a key. -/
def linesOf (d : Diary) (key : Str) : List LogRecord := d.lines.filter fun record => record.key = key

/-- The suppressed calls that the lines of a key report. -/
def reported (d : Diary) (key : Str) : ℕ :=
  ((d.linesOf key).map fun record => record.line.suppressed.getD 0).sum

/-- The suppressed calls of a key that no line reports yet. -/
def pending (d : Diary) (key : Str) : ℕ := ((d.log.seen.get? key).map LogSeen.suppressed).getD 0

end Diary

end GrantTap
