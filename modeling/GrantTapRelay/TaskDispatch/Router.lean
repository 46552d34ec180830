import Mathlib.Data.List.TakeWhile
import GrantTapRelay.TaskDispatch.Calls
import GrantTapRelay.TaskDispatch.Configurations
import GrantTapRelay.TaskDispatch.Writers

/-!
# The task dispatch router

`src/taskDispatch/index.js`: `taskDispatchResponse` serves five families of paths to the owner of a
room and to scoped writers. It is written once over the store of either runtime (`TaskBackend`).
The request carries what the handler reads from its surroundings: the owner check, the body and
the clock.
-/

namespace GrantTap

open Js

inductive Method
  | GET
  | PUT
  | POST
  | DELETE
  | other
  deriving DecidableEq

/-! ## Paths -/

/-- The rest of a text after a literal prefix. -/
def afterPrefix (p s : Str) : Option Str := if p.isPrefixOf s then some (s.drop p.length) else none

def slash : UInt16 := 47

/-- `/^\/task-job-configurations\/([a-f0-9]{64})$/` -/
def configurationPath (pathname : Str) : Option Str :=
  (afterPrefix (lit "/task-job-configurations/") pathname).filter isDigest

/-- `/^\/task-resources\/([A-Za-z0-9][A-Za-z0-9_-]{7,119})$/` -/
def resourcePath (pathname : Str) : Option Str :=
  (afterPrefix (lit "/task-resources/") pathname).filter validJobId

/-- `/^\/task-job-writers\/([A-Za-z0-9][A-Za-z0-9_-]{7,119})$/` -/
def grantPath (pathname : Str) : Option Str :=
  (afterPrefix (lit "/task-job-writers/") pathname).filter validJobId

/-- `/^\/task-jobs\/[A-Za-z0-9][A-Za-z0-9_-]{7,119}$/` -/
def retainedPath (pathname : Str) : Option Str :=
  (afterPrefix (lit "/task-jobs/") pathname).filter validJobId

/-- `claim|finish` -/
def pathAction (s : Str) : Option TaskAction :=
  if s = lit "claim" then some .claim else if s = lit "finish" then some .finish else none

/-- `/^\/task-jobs(?:\/([^/]+)(?:\/(claim|finish))?)?$/` -/
def jobPath (pathname : Str) : Option (Option Str × Option TaskAction) :=
  match afterPrefix (lit "/task-jobs") pathname with
  | none => none
  | some [] => some (none, none)
  | some (first :: rest) =>
    if first = slash then
      let id := rest.takeWhile (· ≠ slash)
      if id = [] then none
      else match rest.drop id.length with
        | [] => some (some id, none)
        | _ :: tail => (pathAction tail).map fun action => (some id, some action)
    else none

theorem ne_slash_of_validJobId {id : Str} (h : validJobId id = true) : ∀ c ∈ id, c ≠ slash := by
  have hword : ∀ c : UInt16, isWord c = true → c ≠ slash := fun c hc e => by
    rw [e] at hc
    exact absurd hc (by decide)
  cases id with
  | nil => nofun
  | cons first rest =>
    simp only [validJobId, ofClass, Bool.and_eq_true, List.all_eq_true] at h
    rintro c (_ | ⟨_, hc⟩)
    · refine hword first ?_
      simp only [isWord, h.1, Bool.true_or]
    · exact hword c (h.2.2 c hc)

/-- A retained path is one of the job routes. -/
theorem routes_of_retainedPath {pathname id : Str} (h : retainedPath pathname = some id) :
    configurationPath pathname = none ∧ resourcePath pathname = none ∧ grantPath pathname = none ∧
      jobPath pathname = some (some id, none) ∧ validJobId id = true := by
  obtain ⟨hrest, hid⟩ := Option.filter_eq_some_iff.1 h
  have hpath : pathname = lit "/task-jobs/" ++ id := by
    unfold afterPrefix at hrest
    split_ifs at hrest with hp
    obtain ⟨rest, rfl⟩ := List.isPrefixOf_iff_prefix.1 hp
    rw [List.drop_left] at hrest
    rw [Option.some.inj hrest]
  subst hpath
  have hconfiguration :
      afterPrefix (lit "/task-job-configurations/") (lit "/task-jobs/" ++ id) = none := rfl
  have hresource : afterPrefix (lit "/task-resources/") (lit "/task-jobs/" ++ id) = none := rfl
  have hgrant : afterPrefix (lit "/task-job-writers/") (lit "/task-jobs/" ++ id) = none := rfl
  have hjob : afterPrefix (lit "/task-jobs") (lit "/task-jobs/" ++ id) = some (slash :: id) := rfl
  have hslash := ne_slash_of_validJobId hid
  have htake : id.takeWhile (· ≠ slash) = id :=
    List.takeWhile_eq_self_iff.2 fun c hc => decide_eq_true (hslash c hc)
  have hne : id ≠ [] := by
    rintro rfl
    cases hid
  refine ⟨?_, ?_, ?_, ?_, hid⟩
  · rw [configurationPath, hconfiguration, Option.filter_none]
  · rw [resourcePath, hresource, Option.filter_none]
  · rw [grantPath, hgrant, Option.filter_none]
  · unfold jobPath
    rw [hjob]
    simp only [if_true, htake, hne, if_false, List.drop_length]

/-! ## Requests -/

/-- A request and the surroundings it is handled in: whether `authorize()` resolves to the owner,
what `read` gives, and the clock readings of the handler, in order. -/
structure TaskRequest where
  method : Method
  pathname : Str
  room : Value
  credential : Option Str
  metadataOnly : Bool
  owner : Bool
  read : ℕ → Except Throw Value
  authorizedAt : ℤ
  existingAt : ℤ
  actedAt : ℤ

/-- The store of a runtime. `toNumber` is the language's conversion of a string, where `none` is
`NaN`. -/
structure TaskBackend where
  State : Type
  registry : State → Registry
  withRegistry : State → Registry → State
  call : State → ℤ → TaskCall → Except Throw TaskAnswer × State
  commitWriter : Registry → Str → WriterGrant → ℤ → Reply × Registry
  sha256 : Str → Str
  toNumber : Str → Option Number

/-- `value > bound` -/
def greater (toNumber : Str → Option Number) (value : Value) (bound : ℤ) : Except Throw Bool :=
  match value with
  | none => .ok false
  | some .null => .ok (bound < 0)
  | some (.bool b) => .ok (bound < if b then 1 else 0)
  | some (.num x) => .ok (Number.lt (.finite bound 0) x)
  | some j => j.toText.map fun s => (toNumber s).any (Number.lt (.finite bound 0))

/-- `{ ...body, writerId: writer.id, writerSourceKeyId: writer.sourceKeyId }` -/
def signBody (body : Value) (writer : WriterGrant) : Value :=
  body.map fun j =>
    (j.set (lit "writerId") (.str writer.id)).set (lit "writerSourceKeyId") (.str writer.sourceKeyId)

namespace TaskBackend

variable (B : TaskBackend)

/-- The outcome of a handler, with the state it left. -/
abbrev Handled := Except Throw Reply × B.State

/-- An operation on the registry. -/
def onRegistry (s : B.State) (r : Except Throw (Reply × Registry)) : B.Handled :=
  match r with
  | .ok (reply, registry) => (.ok reply, B.withRegistry s registry)
  | .error t => (.error t, s)

def handleConfiguration (s : B.State) (q : TaskRequest) (room id : Str) : B.Handled :=
  if !q.owner then (.ok (.error 403 "room owner required"), s)
  else match q.method with
    | .GET =>
      let r := (B.registry s).getConfiguration room id q.actedAt
      (.ok ⟨200, .configuration r.1⟩, B.withRegistry s r.2)
    | .PUT =>
      match q.read CONFIGURATION_BYTES with
      | .error t => (.error t, s)
      | .ok body => B.onRegistry s ((B.registry s).putConfiguration room id body q.actedAt)
    | _ => (.ok (.error 405 "method not allowed"), s)

def handleResources (s : B.State) (q : TaskRequest) (room id : Str)
    (writer : Option WriterGrant) : B.Handled :=
  if !q.owner && (writer.all (·.id ≠ id) || q.method ≠ .GET) then
    (.ok (.error 403 "resource report scope refused"), s)
  else match q.method with
    | .GET => B.onRegistry s ((B.registry s).resourcesOf room id none q.actedAt)
    | .PUT =>
      match q.read 32000 with
      | .error t => (.error t, s)
      | .ok body =>
        B.onRegistry s ((B.registry s).resourcesOf room id (some (body.getD .null)) q.actedAt)
    | _ => (.ok (.error 405 "method not allowed"), s)

def handleGrant (s : B.State) (q : TaskRequest) (room id : Str) : B.Handled :=
  if !q.owner then (.ok (.error 403 "room owner required"), s)
  else match q.method with
    | .PUT =>
      match q.read 4096 with
      | .error t => (.error t, s)
      | .ok body => B.onRegistry s (.ok ((B.registry s).putWriter B.commitWriter room id body q.actedAt))
    | .DELETE => B.onRegistry s (.ok ((B.registry s).revoke room id q.actedAt))
    | _ => (.ok (.error 405 "method not allowed"), s)

/-- The reply of a call that answers with one. -/
def replyOf (r : Except Throw TaskAnswer × B.State) : B.Handled :=
  (r.1.map fun answer =>
    match answer with
    | .reply ⟨status, .job job⟩ => ⟨status, .job (taskJobMetadata job)⟩
    | .reply reply => reply
    | .jobs jobs => ⟨200, .jobs (jobs.map taskJobMetadata)⟩
    | .found (some job) => ⟨200, .job job⟩
    | .found none => .error 404 "unknown task job"
    | .deadline _ => .error 405 "method not allowed", r.2)

/-- The writer's part of `PUT`: the recipient and the lifetime of the grant bound the job. -/
def writerBody (writer : WriterGrant) (body : Value) : Except Throw (Option Value) :=
  if !((body.get (lit "envelope")).get (lit "recipientKeyId")).is writer.recipientKeyId then .ok none
  else (greater B.toNumber (body.get (lit "expiresAt")) writer.expiresAt).map fun late =>
    if late then none else some (signBody body writer)

/-- `PUT /task-jobs/:id` once its body arrived. -/
def putJob (s : B.State) (q : TaskRequest) (room id : Str) (writer : Option WriterGrant)
    (body : Value) : B.Handled :=
  match writer with
  | none => B.replyOf (B.call s q.actedAt (.put room id body))
  | some writer =>
    match B.writerBody writer body with
    | .error t => (.error t, s)
    | .ok none => (.ok (.error 403 "writer recipient or lifetime refused"), s)
    | .ok (some body) => B.replyOf (B.call s q.actedAt (.put room id body))

/-- The part of the job routes after the ownership check. -/
def actOnJobs (s : B.State) (q : TaskRequest) (room : Str) (writer : Option WriterGrant)
    (id : Option Str) (action : Option TaskAction) : B.Handled :=
  match q.method, id, action with
  | .GET, none, _ => B.replyOf (B.call s q.actedAt (.listActive room))
  | .GET, some id, none => B.replyOf (B.call s q.actedAt (.getPublic room id q.metadataOnly))
  | .PUT, some id, none =>
    match q.read JOB_BYTES with
    | .error t => (.error t, s)
    | .ok body => B.putJob s q room id writer body
  | .POST, some id, some action =>
    match q.read (if action = .finish then 34000 else 1024) with
    | .error t => (.error t, s)
    | .ok body => B.replyOf (B.call s q.actedAt (.transition room id action body))
  | .DELETE, some id, none => B.replyOf (B.call s q.actedAt (.transition room id .cancel none))
  | _, _, _ => (.ok (.error 405 "method not allowed"), s)

/-- `existing?.writerId !== writer.id` -/
def foreign (writer : WriterGrant) (existing : Option PublicJob) : Bool :=
  existing.bind (·.writerId) ≠ some writer.id

/-- The job that `getPublic` found. -/
def existingOf : TaskAnswer → Option PublicJob
  | .found existing => existing
  | _ => none

/-- A writer reaches its own jobs only, and new ids with `PUT`. -/
def handleJobs (s : B.State) (q : TaskRequest) (room : Str) (writer : Option WriterGrant)
    (id : Option Str) (action : Option TaskAction) : B.Handled :=
  match writer with
  | none => B.actOnJobs s q room none id action
  | some writer =>
    match id with
    | none => (.ok (.error 403 "writer scope refused"), s)
    | some id =>
      if action.isSome || (q.method ≠ .GET && q.method ≠ .PUT && q.method ≠ .DELETE) then
        (.ok (.error 403 "writer scope refused"), s)
      else
        let r := B.call s q.existingAt (.getPublic room id true)
        match r.1 with
        | .error t => (.error t, r.2)
        | .ok answer =>
          let existing := existingOf answer
          if (q.method ≠ .PUT || existing.isSome) && foreign writer existing then
            (.ok (.error 404 "unknown task job"), r.2)
          else B.actOnJobs r.2 q room (some writer) (some id) none

/-- `store.writers?.authorize(…)` for a request that does not come from the owner. -/
def writerOf (s : B.State) (q : TaskRequest) (room : Str) : Option WriterGrant :=
  if q.owner then none
  else (B.registry s).authorize B.sha256 room q.credential q.authorizedAt
    (q.method = .GET && q.metadataOnly && (retainedPath q.pathname).isSome)

/-- `taskDispatchResponse` -/
def taskDispatchResponse (s : B.State) (q : TaskRequest) : B.Handled :=
  match q.room.str?.filter validRoom with
  | none => (.ok (.error 400 "invalid room"), s)
  | some room =>
    let writer := B.writerOf s q room
    if !q.owner && writer.isNone then (.ok (.error 401 "invalid room credential"), s)
    else match configurationPath q.pathname with
      | some id => B.handleConfiguration s q room id
      | none =>
        match resourcePath q.pathname with
        | some id => B.handleResources s q room id writer
        | none =>
          match grantPath q.pathname with
          | some id => B.handleGrant s q room id
          | none =>
            match jobPath q.pathname with
            | none => (.ok (.error 400 "invalid job path"), s)
            | some (id, action) =>
              if id.all validJobId then B.handleJobs s q room writer id action
              else (.ok (.error 400 "invalid job path"), s)

end TaskBackend

end GrantTap
