import GrantTapRelay.Library.Verdicts
import GrantTapRelay.Push.Registrations

/-!
# Requests to the push service

`nodeAPNsRequest` of `src/node/pushDelivery/http2.js`, once its address is checked. A `PushCall` is
a request in progress: its session, its stream and its deadline report events in any order, also
after the promise has settled, and the handlers of the source run on each of them. The model keeps
what they called.

* `PushCall.Follows.next`: what the handlers keep.
* `push_request_settles`: **a request settles once**, as the first decisive event says, and lets its
  session go.
-/

namespace GrantTap

open Js Verdicts

/-! ## A request in progress -/

def MAX_RESPONSE_BYTES : ℕ := 4096

structure PushResponse where
  status : ℤ
  body : List UInt8

/-- The errors of a request. -/
inductive PushFailure
  | noSession
  | notStarted
  | connection
  | timeout
  | tooLong
  | stream
  | invalid

abbrev PushOutcome := Except PushFailure PushResponse

/-- How the calls end that start a request: one of them may throw. -/
inductive RequestStart
  /-- `createSession` throws. -/
  | noSession
  /-- `session.request` throws. -/
  | noStream
  /-- A call after `session.request` throws. -/
  | notSent
  | sent
  deriving DecidableEq

/-- What the session, the stream and the timer report. A status is the integer that
`Number(headers[':status'])` is, if it is one. -/
inductive RequestEvent
  | sessionError
  | response (status : Option ℤ)
  | data (chunk : List UInt8)
  | streamError
  | ended
  | deadline

/-- What the handlers call. -/
inductive PushAct
  | clearTimeout
  | closeStream
  | destroySession
  | closeSession
  | reject
  | resolve
  deriving DecidableEq

structure PushCall where
  settled : Option PushOutcome
  /-- `stream` is defined. -/
  stream : Bool
  status : Option ℤ
  bytes : ℕ
  chunks : List (List UInt8)
  acts : List PushAct

namespace PushCall

/-- What `finish` calls; a `stream` is there to be closed. -/
def finishActs (stream : Bool) : PushOutcome → List PushAct
  | .error _ =>
    .clearTimeout :: ((if stream then [.closeStream] else []) ++ [.destroySession, .reject])
  | .ok _ => [.clearTimeout, .closeSession, .resolve]

def finish (w : PushCall) (outcome : PushOutcome) : PushCall :=
  if w.settled.isSome then w
  else { w with settled := some outcome, acts := w.acts ++ finishActs w.stream outcome }

/-- A request whose session is there, before anything is reported. -/
def opened (stream : Bool) : PushCall := ⟨none, stream, some 0, 0, [], []⟩

/-- The request, after the calls that start it. -/
def start : RequestStart → PushCall
  | .noSession => { opened false with settled := some (.error .noSession), acts := [.reject] }
  | .noStream => (opened false).finish (.error .notStarted)
  | .notSent => (opened true).finish (.error .notStarted)
  | .sent => opened true

/-- The outcome that `end` asks for. -/
def response (w : PushCall) : PushOutcome :=
  match w.status with
  | none => .error .invalid
  | some status =>
    if status < 200 ∨ 599 < status then .error .invalid else .ok ⟨status, w.chunks.flatten⟩

def next (w : PushCall) : RequestEvent → PushCall
  | .sessionError => w.finish (.error .connection)
  | .response status => { w with status := status }
  | .data chunk =>
    let w := { w with bytes := w.bytes + chunk.length }
    if MAX_RESPONSE_BYTES < w.bytes then w.finish (.error .tooLong)
    else { w with chunks := w.chunks ++ [chunk] }
  | .streamError => w.finish (.error .stream)
  | .ended => w.finish w.response
  | .deadline => w.finish (.error .timeout)

def after (s : RequestStart) (events : List RequestEvent) : PushCall := events.foldl next (start s)

end PushCall

/-! ## What the events say -/

/-- The last status that some events report. -/
def reportedStatus (events : List RequestEvent) : Option ℤ :=
  events.foldl (fun status e => match e with
    | .response reported => reported
    | _ => status) (some 0)

/-- The bytes that some events report. -/
def reportedBody (events : List RequestEvent) : List UInt8 :=
  events.flatMap fun e => match e with
    | .data chunk => chunk
    | _ => []

/-- The outcome that an event decides, after others. -/
def RequestEvent.verdict (before : List RequestEvent) : RequestEvent → Option PushOutcome
  | .sessionError => some (.error .connection)
  | .response _ => none
  | .data chunk =>
    if MAX_RESPONSE_BYTES < (reportedBody before).length + chunk.length then
      some (.error .tooLong)
    else none
  | .streamError => some (.error .stream)
  | .ended => some <| match reportedStatus before with
    | none => .error .invalid
    | some status =>
      if status < 200 ∨ 599 < status then .error .invalid else .ok ⟨status, reportedBody before⟩
  | .deadline => some (.error .timeout)

/-- The outcome of a request that could not be started. -/
def RequestStart.outcome : RequestStart → Option PushOutcome
  | .noSession => some (.error .noSession)
  | .noStream | .notSent => some (.error .notStarted)
  | .sent => none

/-- What has been called when the promise has settled. -/
def releases (s : RequestStart) : PushOutcome → List PushAct
  | .ok _ => [.clearTimeout, .closeSession, .resolve]
  | .error _ =>
    match s with
    | .noSession => [.reject]
    | .noStream => [.clearTimeout, .destroySession, .reject]
    | _ => [.clearTimeout, .closeStream, .destroySession, .reject]

/-! ## The handlers follow the events -/

@[simp] theorem reportedStatus_concat (events : List RequestEvent) (e : RequestEvent) :
    reportedStatus (events ++ [e]) = match e with
      | .response status => status
      | _ => reportedStatus events := by
  rw [reportedStatus, List.foldl_append]
  rfl

@[simp] theorem reportedBody_concat (events : List RequestEvent) (e : RequestEvent) :
    reportedBody (events ++ [e]) = reportedBody events ++ match e with
      | .data chunk => chunk
      | _ => [] := by
  simp [reportedBody]

namespace PushCall

variable {s : RequestStart} {events : List RequestEvent} {w : PushCall} {outcome : PushOutcome}

@[simp] theorem status_finish : (w.finish outcome).status = w.status := by
  unfold finish
  split_ifs <;> rfl

@[simp] theorem bytes_finish : (w.finish outcome).bytes = w.bytes := by
  unfold finish
  split_ifs <;> rfl

@[simp] theorem chunks_finish : (w.finish outcome).chunks = w.chunks := by
  unfold finish
  split_ifs <;> rfl

@[simp] theorem stream_finish : (w.finish outcome).stream = w.stream := by
  unfold finish
  split_ifs <;> rfl

@[simp] theorem settled_finish : (w.finish outcome).settled = w.settled.or (some outcome) := by
  unfold finish
  split_ifs with hsettled
  · obtain ⟨o, ho⟩ := Option.isSome_iff_exists.1 hsettled
    rw [ho, Option.some_or]
  · rw [Option.not_isSome_iff_eq_none.1 hsettled, Option.none_or]

/-- Only a promise that waits looks at its outcome. -/
theorem finish_congr {outcome' : PushOutcome} (h : w.settled = none → outcome = outcome') :
    w.finish outcome = w.finish outcome' := by
  unfold finish
  split_ifs with hsettled
  · rfl
  · rw [h (Option.not_isSome_iff_eq_none.1 hsettled)]

/-- What the request has been told. -/
structure Told (events : List RequestEvent) (w : PushCall) : Prop where
  status : w.status = reportedStatus events
  bytes : w.bytes = (reportedBody events).length
  bounded : w.chunks.flatten.length ≤ MAX_RESPONSE_BYTES
  whole : w.bytes ≤ MAX_RESPONSE_BYTES → w.chunks.flatten = reportedBody events

theorem Told.finish (h : Told events w) : Told events (w.finish outcome) where
  status := by rw [status_finish]; exact h.status
  bytes := by rw [bytes_finish]; exact h.bytes
  bounded := by rw [chunks_finish]; exact h.bounded
  whole := by rw [bytes_finish, chunks_finish]; exact h.whole

/-- An event that tells nothing. -/
theorem Told.silent {e : RequestEvent} (h : Told events w)
    (hstatus : reportedStatus (events ++ [e]) = reportedStatus events)
    (hbody : reportedBody (events ++ [e]) = reportedBody events) : Told (events ++ [e]) w where
  status := h.status.trans hstatus.symm
  bytes := by rw [hbody]; exact h.bytes
  bounded := h.bounded
  whole := by rw [hbody]; exact h.whole

/-- The promise is as the verdicts on the events say, and what was called with it. -/
structure Settles (s : RequestStart) (events : List RequestEvent) (w : PushCall) : Prop where
  stream : s ≠ .noSession → w.stream = (s ≠ .noStream : Bool)
  settled : w.settled = s.outcome.or (decided RequestEvent.verdict events)
  acts : w.acts = w.settled.elim [] (releases s)

/-- An event without a verdict. -/
theorem Settles.waits {w' : PushCall} {e : RequestEvent} (h : Settles s events w)
    (hverdict : e.verdict events = none) (hstream : w'.stream = w.stream)
    (hsettled : w'.settled = w.settled) (hacts : w'.acts = w.acts) :
    Settles s (events ++ [e]) w' where
  stream := hstream ▸ h.stream
  settled := by rw [hsettled, h.settled, decided_concat, hverdict, Option.or_none]
  acts := by rw [hacts, hsettled, h.acts]

/-- **An event with a verdict** settles the promise, unless it has settled. -/
theorem Settles.finish {w' : PushCall} {e : RequestEvent} (h : Settles s events w)
    (hverdict : e.verdict events = some outcome) (hstream : w'.stream = w.stream)
    (hsettled : w'.settled = w.settled) (hacts : w'.acts = w.acts) :
    Settles s (events ++ [e]) (w'.finish outcome) where
  stream := by rw [stream_finish, hstream]; exact h.stream
  settled := by
    rw [settled_finish, hsettled, h.settled, decided_concat, hverdict, Option.or_assoc]
  acts := by
    rw [settled_finish, PushCall.finish, hsettled]
    cases hnow : w.settled with
    | some o =>
      change w'.acts = releases s o
      rw [hacts, h.acts, hnow]
      rfl
    | none =>
      have hsession : s ≠ .noSession := by
        rintro rfl
        rw [h.settled] at hnow
        cases hnow
      have hempty : w'.acts = [] := by rw [hacts, h.acts, hnow]; rfl
      rw [if_neg (by simp)]
      change w'.acts ++ finishActs w'.stream outcome = releases s outcome
      rw [hempty, hstream, h.stream hsession]
      cases outcome with
      | ok response => rfl
      | error e =>
        cases s with
        | noSession => exact absurd rfl hsession
        | noStream => rfl
        | notSent => rfl
        | sent => rfl

/-- The request is as its events say. -/
structure Follows (s : RequestStart) (events : List RequestEvent) (w : PushCall) : Prop where
  told : Told events w
  settles : Settles s events w
  fits : w.settled = none → w.bytes ≤ MAX_RESPONSE_BYTES

theorem told_opened (stream : Bool) : Told [] (opened stream) :=
  ⟨rfl, rfl, Nat.zero_le _, fun _ => rfl⟩

theorem follows_start (s : RequestStart) : Follows s [] (start s) := by
  cases s with
  | noSession =>
    have htold := told_opened false
    exact ⟨⟨htold.status, htold.bytes, htold.bounded, htold.whole⟩,
      ⟨fun h => absurd rfl h, rfl, rfl⟩, fun _ => Nat.zero_le _⟩
  | noStream =>
    have htold : Told [] (start .noStream) := (told_opened false).finish
    exact ⟨htold, ⟨fun _ => rfl, rfl, rfl⟩, fun _ => Nat.zero_le _⟩
  | notSent =>
    have htold : Told [] (start .notSent) := (told_opened true).finish
    exact ⟨htold, ⟨fun _ => rfl, rfl, rfl⟩, fun _ => Nat.zero_le _⟩
  | sent =>
    have htold : Told [] (start .sent) := told_opened true
    exact ⟨htold, ⟨fun _ => rfl, rfl, rfl⟩, fun _ => Nat.zero_le _⟩

/-- An event that tells nothing and decides. -/
theorem Follows.decide {e : RequestEvent} (h : Follows s events w)
    (hstatus : reportedStatus (events ++ [e]) = reportedStatus events)
    (hbody : reportedBody (events ++ [e]) = reportedBody events)
    (hverdict : e.verdict events = some outcome) :
    Follows s (events ++ [e]) (w.finish outcome) where
  told := (h.told.silent hstatus hbody).finish
  settles := h.settles.finish hverdict rfl rfl rfl
  fits := fun hnone => by
    rw [settled_finish] at hnone
    simp at hnone

/-- **Step lemma.** -/
theorem Follows.next (h : Follows s events w) (e : RequestEvent) :
    Follows s (events ++ [e]) (w.next e) := by
  cases e with
  | sessionError =>
    exact h.decide (reportedStatus_concat ..) (by rw [reportedBody_concat, List.append_nil]) rfl
  | streamError =>
    exact h.decide (reportedStatus_concat ..) (by rw [reportedBody_concat, List.append_nil]) rfl
  | deadline =>
    exact h.decide (reportedStatus_concat ..) (by rw [reportedBody_concat, List.append_nil]) rfl
  | response status =>
    have hbody : reportedBody (events ++ [.response status]) = reportedBody events := by
      rw [reportedBody_concat, List.append_nil]
    exact {
      told :=
        { status := (reportedStatus_concat events (.response status)).symm
          bytes := by rw [hbody]; exact h.told.bytes
          bounded := h.told.bounded
          whole := by rw [hbody]; exact h.told.whole }
      settles := h.settles.waits rfl rfl rfl rfl
      fits := h.fits }
  | ended =>
    have hresponse : w.settled = none → w.response = match reportedStatus events with
        | none => .error .invalid
        | some status => if status < 200 ∨ 599 < status then .error .invalid
          else .ok ⟨status, reportedBody events⟩ := fun hnone => by
      rw [response, h.told.status, h.told.whole (h.fits hnone)]
    rw [PushCall.next, finish_congr hresponse]
    exact h.decide (reportedStatus_concat ..) (by rw [reportedBody_concat, List.append_nil]) rfl
  | data chunk =>
    have hbody : reportedBody (events ++ [.data chunk]) = reportedBody events ++ chunk :=
      reportedBody_concat ..
    have hlength : w.bytes + chunk.length = (reportedBody (events ++ [.data chunk])).length := by
      rw [hbody, List.length_append, h.told.bytes]
    have hverdict : RequestEvent.verdict events (.data chunk) =
        if MAX_RESPONSE_BYTES < w.bytes + chunk.length then some (.error .tooLong) else none := by
      rw [h.told.bytes]
      rfl
    unfold PushCall.next
    dsimp only
    split_ifs with hlong
    · rw [if_pos hlong] at hverdict
      have htold : Told (events ++ [.data chunk]) { w with bytes := w.bytes + chunk.length } :=
        ⟨h.told.status.trans (reportedStatus_concat events (.data chunk)).symm, hlength,
          h.told.bounded, fun hle => absurd hlong (Nat.not_lt.2 hle)⟩
      exact ⟨htold.finish, h.settles.finish hverdict rfl rfl rfl, fun hnone => by
        rw [settled_finish] at hnone
        simp at hnone⟩
    · rw [if_neg hlong] at hverdict
      have hwhole : (w.chunks ++ [chunk]).flatten = reportedBody (events ++ [.data chunk]) := by
        rw [List.flatten_append, h.told.whole (by omega), hbody, List.flatten_singleton]
      refine ⟨⟨h.told.status.trans (reportedStatus_concat events (.data chunk)).symm, hlength, ?_,
        fun _ => hwhole⟩,
        h.settles.waits hverdict rfl rfl rfl, fun _ => Nat.le_of_not_lt hlong⟩
      rw [hwhole, ← hlength]
      exact Nat.le_of_not_lt hlong

theorem follows_after (s : RequestStart) (events : List RequestEvent) :
    Follows s events (after s events) := by
  induction events using List.reverseRecOn with
  | nil => exact follows_start s
  | append_singleton events e ih =>
    rw [after, List.foldl_append]
    exact ih.next e

/-- Bytes that have not been too many. -/
theorem length_reportedBody_le (h : decided RequestEvent.verdict events = none) :
    (reportedBody events).length ≤ MAX_RESPONSE_BYTES := by
  obtain ⟨htold, hsettles, hfits⟩ := follows_after .sent events
  rw [← htold.bytes]
  exact hfits (hsettles.settled.trans h)

end PushCall

/-- Only `end` resolves the promise, with a valid status. -/
theorem RequestEvent.verdict_ok {before : List RequestEvent} {e : RequestEvent}
    {response : PushResponse} (h : e.verdict before = some (.ok response)) :
    200 ≤ response.status ∧ response.status ≤ 599 ∧ response.body = reportedBody before := by
  cases e with
  | sessionError => cases h
  | response status => cases h
  | streamError => cases h
  | deadline => cases h
  | data chunk =>
    unfold RequestEvent.verdict at h
    dsimp only at h
    split_ifs at h
    cases h
  | ended =>
    unfold RequestEvent.verdict at h
    dsimp only at h
    split at h
    · cases h
    · split_ifs at h with hstatus
      · cases h
      · obtain rfl := Except.ok.inj (Option.some.inj h)
        dsimp only
        exact ⟨by omega, by omega, rfl⟩

/-- The first event with a verdict, after events without one. -/
def Decides (events : List RequestEvent) (outcome : PushOutcome) : Prop :=
  ∃ before e rest, events = before ++ e :: rest ∧
    (∀ earlier e' later, before = earlier ++ e' :: later → e'.verdict earlier = none) ∧
    e.verdict before = some outcome

/-- **A request to the push service settles once**: the first decisive event says how, whatever
comes after it, and a deadline that fires is decisive. With that the timer is cleared and the
session is closed or destroyed, once. No more than `MAX_RESPONSE_BYTES` are kept at any time, and a
response is whole. -/
theorem push_request_settles (s : RequestStart) (events : List RequestEvent) :
    let w := PushCall.after s events
    (∀ outcome, w.settled = some outcome ↔
      s.outcome = some outcome ∨ s = .sent ∧ Decides events outcome) ∧
    (.deadline ∈ events → w.settled.isSome) ∧
    w.acts = w.settled.elim [] (releases s) ∧
    w.chunks.flatten.length ≤ MAX_RESPONSE_BYTES ∧
    ∀ response, w.settled = some (.ok response) →
      200 ≤ response.status ∧ response.status ≤ 599 ∧
        response.body.length ≤ MAX_RESPONSE_BYTES := by
  intro w
  obtain ⟨htold, hsettles, -⟩ := PushCall.follows_after s events
  have hdecides (outcome : PushOutcome) :
      decided RequestEvent.verdict events = some outcome ↔ Decides events outcome := by
    simp only [decided_eq_some, decided_eq_none, Decides]
  have hsettled (outcome : PushOutcome) : w.settled = some outcome ↔
      s.outcome = some outcome ∨ s = .sent ∧ Decides events outcome := by
    rw [hsettles.settled, ← hdecides]
    cases s <;> simp [RequestStart.outcome]
  refine ⟨hsettled, fun hdeadline => ?_, hsettles.acts, htold.bounded, fun response hresponse => ?_⟩
  · have hdecided : (decided RequestEvent.verdict events).isSome :=
      decided_of_mem hdeadline fun _ => rfl
    rw [hsettles.settled]
    cases s <;> simp [RequestStart.outcome, hdecided]
  · rcases (hsettled _).1 hresponse with hstart | ⟨-, before, e, rest, -, hbefore, hverdict⟩
    · cases s <;> cases hstart
    · obtain ⟨hlow, hhigh, hbody⟩ := RequestEvent.verdict_ok hverdict
      rw [hbody]
      exact ⟨hlow, hhigh, PushCall.length_reportedBody_le (decided_eq_none.2 hbefore)⟩

end GrantTap
