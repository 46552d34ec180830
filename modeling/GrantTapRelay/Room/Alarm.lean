import GrantTapRelay.Endpoints.Agreement
import GrantTapRelay.Room.Sockets
import GrantTapRelay.TaskDispatch.Backends
import GrantTapRelay.Wake.Delivery

/-!
# The alarm of a Worker room

A Durable Object has one alarm. `src/relay/room.js`, `src/taskDispatch/worker-room.js` and
`src/relay/endpointRetention.js` share it between the endpoint directory, the Project
configurations, the task jobs and the wakes of a room: `scheduleRoomTaskAlarm` cleans up and sets it
to the first of their deadlines, and `purgeEndpointDirectory` and `putDirectoryEndpoint` set it on
their own.

An `AlarmedRoom` is what these functions use of the object. An event is one handler from its first
step to its last one, with the clock readings of its parts.
-/

namespace GrantTap

open Js

/-! ## Wakes -/

namespace WakeRecord

/-- `sendDue` from its read to its last write; `sent` says whether the push succeeds. -/
def sendDue (record : Option WakeRecord) (now : ℤ) (sent : Bool) : Option WakeRecord :=
  match wakeDecision record now with
  | .rest => record
  | .close r => some r.close
  | .claim r pending =>
    let claimed := r.claim pending now
    if sent ∨ MAX_ATTEMPTS ≤ pending.attempts + 1 then some claimed.close else some claimed

/-- `request`, which reads the clock once more before it sends. -/
def request (sha256 : Str → Str) (record : Option WakeRecord) (envelope : Json) (now dueAt : ℤ)
    (sent : Bool) : Option WakeRecord :=
  let expiresAt := wakeExpiry envelope now
  if expiresAt ≤ now then record
  else
    let receipt : WakeReceipt := ⟨wakeKey sha256 (wakeIdentity envelope), expiresAt⟩
    sendDue (((record.getD .empty).accept now receipt).or record) dueAt sent

/-- `nextAt('room')` -/
def nextWake (record : Option WakeRecord) : Option ℤ := record.bind wakeAt

end WakeRecord

/-! ## State -/

/-- What a room is started with. -/
structure AlarmConfig where
  room : Str
  sha256 : Str → Str
  toNumber : Str → Option Number

/-- The storage that the alarm depends on, and the sockets of `getWebSockets()`; the alarm is that
of `directory`. -/
structure AlarmedRoom where
  directory : EndpointStorage
  tasks : { s : WorkerTasks // s.Named }
  wake : Option WakeRecord
  sockets : List RoomSocket
  clock : ℤ

/-- What the last parts of a handler find: the clock at the offers to each socket, whether `send`
returns, and the clock at the two parts of `scheduleRoomTaskAlarm`. -/
structure AlarmReadings where
  offeredAt : ℕ → ℤ
  sends : ℕ → PublicJob → Bool
  purgedAt : ℤ
  maintainedAt : ℤ

/-- A machine that takes task jobs. -/
def RoomSocket.dispatches (peer : RoomSocket) : Bool :=
  peer.role = some .machine && peer.taskDispatch

namespace AlarmedRoom

variable (cfg : AlarmConfig)

def start (clock : ℤ) : AlarmedRoom where
  directory := ⟨.empty, none⟩
  tasks := ⟨.empty, WorkerTasks.named_empty⟩
  wake := none
  sockets := []
  clock := clock

def alarm (s : AlarmedRoom) : Option ℤ := s.directory.alarm

def setAlarm (s : AlarmedRoom) (alarm : Option ℤ) : AlarmedRoom :=
  { s with directory := { s.directory with alarm := alarm } }

/-- The recipients of the sockets that take task jobs. -/
def connected (s : AlarmedRoom) : List (Option Str) :=
  (s.sockets.filter RoomSocket.dispatches).map (·.recipientKeyId)

/-! ## The parts of the handlers -/

/-- `scheduleRoomTaskAlarm`; when `maintain` throws, the alarm stays as the clean-up left it. -/
def scheduleRoomTaskAlarm (s : AlarmedRoom) (r : AlarmReadings) : AlarmedRoom :=
  let s := { s with directory := s.directory.purgeEndpointDirectory r.purgedAt }
  match (WorkerTasks.store cfg.sha256).call s.tasks r.maintainedAt (.clean (some s.connected)) with
  | (.ok (.deadline taskAlarm), tasks) =>
    { s with tasks := tasks }.setAlarm
      (WorkerTasks.earlier (WorkerTasks.earlier s.alarm taskAlarm) (WakeRecord.nextWake s.wake))
  | (_, tasks) => { s with tasks := tasks }

/-- The offers to one socket; `false` when `due` throws. -/
def offerSocket (peer : RoomSocket) (tasks : { s : WorkerTasks // s.Named }) (now : ℤ)
    (send : PublicJob → Bool) : Bool × RoomSocket × { s : WorkerTasks // s.Named } :=
  if !peer.dispatches then (true, peer, tasks)
  else
    match peer.recipientKeyId with
    | none => (true, peer, tasks)
    | some [] => (true, peer, tasks)
    | some (unit :: units) =>
      let offered := dropLapsed peer.offered now
      match (WorkerTasks.store cfg.sha256).call tasks now
          (.due cfg.room (unit :: units) offered.ids) with
      | (.ok (.jobs jobs), tasks) =>
        (true, { peer with offered := (offerLoop send now offered jobs).1 }, tasks)
      | (_, tasks) => (false, { peer with offered := offered }, tasks)

/-- The offers to the sockets from the `i`-th on, up to the first that throws. -/
def offerSockets (r : AlarmReadings) : ℕ → List RoomSocket → { s : WorkerTasks // s.Named } →
    Bool × List RoomSocket × { s : WorkerTasks // s.Named }
  | _, [], tasks => (true, [], tasks)
  | i, peer :: peers, tasks =>
    match offerSocket cfg peer tasks (r.offeredAt i) (r.sends i) with
    | (false, peer, tasks) => (false, peer :: peers, tasks)
    | (true, peer, tasks) =>
      let (ok, peers, tasks) := offerSockets r (i + 1) peers tasks
      (ok, peer :: peers, tasks)

/-- `await offerRoomTaskJobs(room); await scheduleRoomTaskAlarm(room)` -/
def offerAndSchedule (s : AlarmedRoom) (r : AlarmReadings) : AlarmedRoom :=
  let (ok, sockets, tasks) := offerSockets cfg r 0 s.sockets s.tasks
  let s := { s with sockets := sockets, tasks := tasks }
  if ok then s.scheduleRoomTaskAlarm cfg r else s

/-! ## Handlers -/

def handleEndpoint (s : AlarmedRoom) (q : EndpointRequest) (r : AlarmReadings) : AlarmedRoom :=
  let (reply, directory) := GrantTap.handleEndpoint EndpointStorage.store s.directory q
  let s := { s with directory := directory }
  match reply with
  | .ok ⟨status, _⟩ => if status < 300 then s.scheduleRoomTaskAlarm cfg r else s
  | .error _ => s

def handleRoomTaskDispatch (s : AlarmedRoom) (q : TaskRequest) (r : AlarmReadings) : AlarmedRoom :=
  let (reply, tasks) := (workerBackend cfg.sha256 cfg.toNumber).taskDispatchResponse s.tasks q
  let s := { s with tasks := tasks }
  match reply with
  | .ok ⟨status, _⟩ =>
    if status < 300 ∧ q.method ≠ .GET then
      if q.method = .PUT then s.offerAndSchedule cfg r else s.scheduleRoomTaskAlarm cfg r
    else s
  | .error _ => s

/-- The part of `webSocketMessage` that registers the role of the `i`-th socket. -/
def register (s : AlarmedRoom) (i : ℕ) (role : Role) (r : AlarmReadings) : AlarmedRoom :=
  match s.sockets[i]? with
  | none => s
  | some peer =>
    if peer.role.isSome then s
    else
      let s := { s with sockets := s.sockets.set i { peer with role := some role } }
      if role = .machine ∧ peer.taskDispatch then s.offerAndSchedule cfg r else s

/-- The part of `webSocketMessage` that wakes the phone. -/
def requestWake (s : AlarmedRoom) (envelope : Json) (now dueAt : ℤ) (sent : Bool)
    (r : AlarmReadings) : AlarmedRoom :=
  let s := { s with wake := WakeRecord.request cfg.sha256 s.wake envelope now dueAt sent }
  if (WakeRecord.nextWake s.wake).isSome then s.scheduleRoomTaskAlarm cfg r else s

/-- `alarm`, once the alarm that fired is gone. -/
def runAlarm (s : AlarmedRoom) (now : ℤ) (sent : Bool) (r : AlarmReadings) : AlarmedRoom :=
  { s.setAlarm none with wake := WakeRecord.sendDue s.wake now sent }.offerAndSchedule cfg r

end AlarmedRoom

/-! ## Events -/

/-- One handler, or what happens to the sockets between two of them. -/
inductive AlarmEvent
  | endpoint (q : EndpointRequest)
  | tasks (q : TaskRequest)
  | connect (peer : RoomSocket)
  | register (i : ℕ) (role : Role)
  | leave (i : ℕ)
  | wake (envelope : Json) (requestedAt dueAt : ℤ) (sent : Bool)
  | alarm (firedAt : ℤ) (sent : Bool)
  /-- The memory of the object is gone. -/
  | restart

namespace AlarmEvent

/-- When the own work of a handler that begins at `clock` is done. -/
def done (clock : ℤ) : AlarmEvent → ℤ
  | endpoint q => q.finish
  | tasks q => q.actedAt
  | wake _ _ dueAt _ => dueAt
  | alarm firedAt _ => firedAt
  | _ => clock

/-- What a room receives: requests for it whose clock does not go back, sockets without a role, and
its alarm once it is due. -/
def Allowed (cfg : AlarmConfig) (s : AlarmedRoom) : AlarmEvent → Prop
  | endpoint q => q.room = some cfg.room ∧ s.clock ≤ q.actedAt ∧ q.Timely
  | tasks q => q.room = some (.str cfg.room) ∧ s.clock ≤ q.existingAt ∧ q.existingAt ≤ q.actedAt
  | connect peer => peer.role = none
  | wake _ requestedAt dueAt _ => s.clock ≤ requestedAt ∧ requestedAt ≤ dueAt
  | alarm firedAt _ => s.clock ≤ firedAt ∧ ∃ time, s.alarm = some time ∧ time ≤ firedAt
  | _ => True

end AlarmEvent

/-- The offers and the two parts of the schedule follow the own work of a handler. -/
structure AlarmReadings.After (r : AlarmReadings) (done : ℤ) : Prop where
  offered : ∀ i, done ≤ r.offeredAt i ∧ r.offeredAt i ≤ r.purgedAt
  purged : done ≤ r.purgedAt
  maintained : r.purgedAt ≤ r.maintainedAt

namespace AlarmedRoom

def next (cfg : AlarmConfig) (s : AlarmedRoom) (e : AlarmEvent) (r : AlarmReadings) : AlarmedRoom :=
  { (match e with
    | .endpoint q => s.handleEndpoint cfg q r
    | .tasks q => s.handleRoomTaskDispatch cfg q r
    | .connect peer => { s with sockets := s.sockets ++ [peer] }
    | .register i role => s.register cfg i role r
    | .leave i => { s with sockets := s.sockets.eraseIdx i }
    | .wake envelope requestedAt dueAt sent => s.requestWake cfg envelope requestedAt dueAt sent r
    | .alarm firedAt sent => s.runAlarm cfg firedAt sent r
    | .restart => { s with sockets := s.sockets.map RoomSocket.forget }) with
    clock := r.maintainedAt }

/-- Events lead from one state to the next. -/
def Step (cfg : AlarmConfig) (s : AlarmedRoom) (l : AlarmEvent × AlarmReadings) (s' : AlarmedRoom) :
    Prop :=
  l.1.Allowed cfg s ∧ l.2.After (l.1.done s.clock) ∧ s' = s.next cfg l.1 l.2

end AlarmedRoom

end GrantTap
