import GrantTapRelay.Library.Chains
import GrantTapRelay.Library.Runs
import GrantTapRelay.TaskActivities.Registry

/-!
# Task activities: the endpoint

`TaskActivityEndpoint` of `src/taskActivities/delivery/endpoint.js`, over a registry. The updates of
an activity are jobs of a chain (`inFlight`); a delivery reads the clock and the registration when
it starts, waits for the provider, and then uses the registry with the time it started at. A
request reads the clock before it reads its body, so that a registration may come with an earlier
time than the clock shows (`asOf`). The registry calls after a reply of the provider are one step.

`ActivityRelay` is an endpoint between these steps, with the log of what happened, newest first. A
storage that fails is left out.
-/

namespace GrantTap

open Js Runs

/-! ## Requests and replies -/

/-- The coalescing window. -/
def ACTIVITY_WINDOW_MS : ℤ := 10_000

inductive ActivityPath
  | register
  | subscriptions
  | update
  | other
  deriving DecidableEq

inductive ActivityMethod
  | get
  | put
  | post
  | delete
  | other
  deriving DecidableEq

/-- A request: what `authorize` answered, where an exception is a refusal, and the body, unless
reading it failed. -/
structure ActivityRequest where
  room : Str
  path : ActivityPath
  method : ActivityMethod
  authorized : Bool
  body : Option Value

/-- The members of a reply besides `ok: true`. -/
inductive ActivityBody
  | error (text : String)
  | subscriptions (list : List Subscription)
  | registered (registered : Bool) (enabled : Option Bool)
  | closed (accepted closed : Bool)
  | duplicate
  | retry (retryAfterSeconds : ℤ)

structure ActivityReply where
  status : ℕ
  body : ActivityBody

def ActivityReply.refuse (status : ℕ) (error : String) : ActivityReply := ⟨status, .error error⟩

/-- The identity that a `DELETE` names. -/
def deletedActivity? (body : Value) : Option Str :=
  match body with
  | some (.obj members) =>
    if members.length = 1 then activityId? (body.get (lit "activityId")) else none
  | _ => none

/-- What a request comes to before any delivery. -/
inductive ActivityOutcome
  | reply (reply : ActivityReply)
  | list
  | remove (activityId : Str)
  | register (record : ActivityRecord) (body : Value)
  | enqueue (update : ActivityUpdate)

/-- The checks of `registration`. -/
def registrationOutcome (method : ActivityMethod) (body : Value) (now : ℤ) : ActivityOutcome :=
  if method = .delete then
    match deletedActivity? body with
    | none => .reply (.refuse 400 "valid activity identity required")
    | some id => .remove id
  else match activityRegistration? body now with
    | none => .reply (.refuse 400 "bounded encrypted enrollment required")
    | some record => .register record body

/-- The checks of `handle`. -/
def ActivityRequest.outcome (q : ActivityRequest) (now : ℤ) : ActivityOutcome :=
  if !validRoom q.room then .reply (.refuse 400 "valid room required")
  else if q.path = .other then .reply (.refuse 404 "not found")
  else if !q.authorized then .reply (.refuse 401 "invalid room credential")
  else if q.path = .subscriptions then
    if q.method = .get then .list else .reply (.refuse 405 "method not allowed")
  else if !((if q.path = .register then [.put, .post, .delete] else [.post]).contains q.method) then
    .reply (.refuse 405 "method not allowed")
  else match q.body with
    | none => .reply (.refuse 400 "bounded JSON body required")
    | some body =>
      if q.path = .register then registrationOutcome q.method body now
      else match activityUpdate? body now with
        | none => .reply (.refuse 400 "bounded encrypted activity update required")
        | some update => .enqueue update

/-! ## Deliveries -/

/-- What `sendTaskActivityAPNs` returns: 410 is a refusal, and a reason is read of refusals only. -/
structure ActivitySent where
  ok : Bool
  stale : Bool
  refused : stale = true → ok = false

/-- The answer of the provider; `failed` is an exception. -/
inductive ActivityAnswer
  | failed
  | answered (sent : ActivitySent)

/-- The provider took the update. -/
def ActivityAnswer.ok : ActivityAnswer → Bool
  | failed => false
  | answered sent => sent.ok

@[simp] theorem ActivityAnswer.ok_answered (sent : ActivitySent) : (answered sent).ok = sent.ok :=
  rfl

/-- A delivery that waits for the provider: the registration it read, and when. -/
structure ActivitySend where
  route : ActivityRow
  startedAt : ℤ

/-- `deliver` up to the provider: a reply, or the registration to send to. -/
def startDelivery (route : Option ActivityRow) (update : ActivityUpdate) (now : ℤ)
    (configured : Str → Bool) : ActivityReply ⊕ ActivityRow :=
  match route with
  | none => .inl ⟨200, .closed false true⟩
  | some route =>
    if route.lastDeliveryId = some update.deliveryId then .inl ⟨200, .duplicate⟩
    else if !configured route.record.environment then
      .inl (.refuse 503 "activity delivery unavailable")
    else if update.event ≠ .finish ∧ 0 < route.lastDeliveredAt ∧
        now - route.lastDeliveredAt < ACTIVITY_WINDOW_MS then
      -- `Math.ceil`
      .inl ⟨202, .retry ((ACTIVITY_WINDOW_MS - (now - route.lastDeliveredAt) + 999) / 1000)⟩
    else .inr route

variable {σ : Type} (R : ActivityRegistry σ)

/-- `deliver` from the answer of the provider. -/
def finishDelivery (s : σ) (k : ActivityKey) (update : ActivityUpdate) (sent : ActivitySend)
    (answer : ActivityAnswer) : ActivityReply × σ :=
  match answer with
  | .failed => (.refuse 502 "activity delivery unavailable", s)
  | .answered result =>
    if result.stale then
      let (current, s) := R.get s k sent.startedAt
      if current.map (·.record.token) = some sent.route.record.token then
        (⟨200, .closed false true⟩, R.remove s k sent.startedAt)
      else (⟨200, .closed false false⟩, s)
    else if !result.ok then (.refuse 502 "activity delivery unavailable", s)
    else
      let s := R.delivered s k update.deliveryId sent.startedAt
      if update.event = .finish then (⟨200, .closed true true⟩, R.remove s k sent.startedAt)
      else (⟨200, .closed true false⟩, s)

/-! ## The endpoint over time -/

/-- What the log records: a registration, which is fresh when the activity had none that was
unexpired, and a delivery that the provider accepted. -/
inductive ActivityEntry
  | registered (k : ActivityKey) (fresh : Bool)
  | accepted (k : ActivityKey) (deliveryId : Str) (event : ActivityEvent) (startedAt : ℤ)

/-- The chains of `inFlight`. -/
abbrev ActivityChains := Chains ActivityKey ActivityUpdate ActivitySend ActivityReply

/-- An endpoint, with the time of the clock. -/
structure ActivityRelay (σ : Type) where
  registry : σ
  inFlight : ActivityChains
  clock : ℤ
  log : List ActivityEntry

/-- What may happen next; `configured` is the answer of the option at that moment. -/
inductive ActivityLabel
  | tick (now : ℤ)
  | request (q : ActivityRequest) (asOf : ℤ) (configured : Str → Bool)
  | start (n : ℕ) (configured : Str → Bool)
  | answer (n : ℕ) (answer : ActivityAnswer)
  | finish (n : ℕ)

namespace ActivityRelay

/-- An endpoint without requests, at a time. -/
def start (clock : ℤ) : ActivityRelay σ := ⟨R.empty, .empty, clock, []⟩

/-- The activity has an unexpired registration. -/
def registered (s : ActivityRelay σ) (k : ActivityKey) : Bool :=
  (R.get s.registry k s.clock).1.isSome

/-- `handle` up to its reply, which an update has when its delivery settles; `configured` is the
option at that moment. -/
def request (s : ActivityRelay σ) (q : ActivityRequest) (asOf : ℤ) (configured : Str → Bool) :
    Option ActivityReply × ActivityRelay σ :=
  match q.outcome asOf with
  | .reply reply => (some reply, s)
  | .list =>
    let (subscriptions, registry) := R.list s.registry q.room asOf
    (some ⟨200, .subscriptions subscriptions⟩, { s with registry := registry })
  | .remove id =>
    (some ⟨200, .registered false none⟩,
      { s with registry := R.remove s.registry ⟨q.room, id⟩ asOf })
  | .register record body =>
    let (done, registry) := R.register s.registry q.room body asOf
    if done then
      (some ⟨200, .registered true (some (configured record.environment))⟩,
        { s with
          registry := registry
          log := .registered ⟨q.room, record.activityId⟩
            (!s.registered R ⟨q.room, record.activityId⟩) :: s.log })
    else
      (some (.refuse 409 "active activity capacity reached"), { s with registry := registry })
  | .enqueue update =>
    (none, { s with inFlight := s.inFlight.enqueue ⟨q.room, update.activityId⟩ update })

/-- The delivery `n` of an activity starts. -/
def deliver (s : ActivityRelay σ) (n : ℕ) (k : ActivityKey) (update : ActivityUpdate)
    (configured : Str → Bool) : ActivityRelay σ :=
  let (route, registry) := R.get s.registry k s.clock
  { s with
    registry := registry
    inFlight := s.inFlight.advance n <|
      match startDelivery route update s.clock configured with
      | .inl reply => .settled reply
      | .inr route => .running ⟨route, s.clock⟩ }

/-- The provider answers the delivery `n` of an activity. -/
def answered (s : ActivityRelay σ) (n : ℕ) (k : ActivityKey) (update : ActivityUpdate)
    (sent : ActivitySend) (answer : ActivityAnswer) : ActivityRelay σ :=
  let (reply, registry) := finishDelivery R s.registry k update sent answer
  { s with
    registry := registry
    inFlight := s.inFlight.advance n (.settled reply)
    log := if answer.ok then .accepted k update.deliveryId update.event sent.startedAt :: s.log
      else s.log }

/-- The endpoint after what happens next, if it may happen. -/
def next (s : ActivityRelay σ) : ActivityLabel → Option (ActivityRelay σ)
  | .tick now => if s.clock ≤ now then some { s with clock := now } else none
  | .request q asOf configured =>
    if asOf ≤ s.clock then some (s.request R q asOf configured).2 else none
  | .start n configured =>
    match s.inFlight.links[n]? with
    | none => none
    | some link =>
      if s.inFlight.Ready n then some (s.deliver R n link.key link.job configured) else none
  | .answer n answer =>
    match s.inFlight.links[n]? with
    | some ⟨k, update, _, .running sent⟩ => some (s.answered R n k update sent answer)
    | _ => none
  | .finish n =>
    match s.inFlight.links[n]? with
    | some ⟨k, _, _, .settled _⟩ => some { s with inFlight := s.inFlight.finish k n }
    | _ => none

/-- One step of the endpoint. -/
def Step (s : ActivityRelay σ) (a : ActivityLabel) (t : ActivityRelay σ) : Prop :=
  s.next R a = some t

end ActivityRelay

end GrantTap
