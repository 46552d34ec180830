import GrantTapRelay.Node.ManagedAdmission
import GrantTapRelay.Node.Store
import GrantTapRelay.Node.UpgradeGate
import GrantTapRelay.Relay.Frames
import GrantTapRelay.RetainedState.Node
import GrantTapRelay.TaskDispatch.Offers

/-!
# The sockets of the Node relay

What the Node relay keeps of its sockets, and how it sends: `src/node/socketDelivery/index.js`,
`src/responseAcknowledgements/index.js`, `src/retainedState/socketReplay.js` and
`src/node/socket-policy.js`. A `NodeRelay` is the whole process with the tables its handlers use and
a trace of what it did.

A send that was accepted is a flight until the library reports its end. A replay sends one row, and
the rows that wait behind it are part of its flight. What the library finds in its buffers is a
`SendChoice` of the environment.

`Quiet` is what every one of these operations does: it sends frames and may close sockets, and
leaves the mailboxes, the retained state and all that identifies a socket as they were.
-/

namespace GrantTap

open Js

/-! ## State -/

/-- `ws.relayState` and `ws.readyState` of a socket, with what the relay keeps beside them. -/
structure NodeSocket where
  room : Str
  role : Option Role
  identity : Option Str
  commercial : Bool
  ticket : Option ManagedTicket
  relayControl : Bool
  ingressFlow : Bool
  ingressReceived : ℕ
  window : FrameWindow
  recipientKeyId : Option Str
  presenceEnabled : Bool
  presenceAt : Option ℤ
  taskDispatch : Bool
  /-- `readyState === OPEN` -/
  isOpen : Bool
  /-- A member of the set of its room. -/
  joined : Bool
  /-- The response allowances. -/
  allowances : Table Str ℤ
  /-- The task offers. -/
  offered : Offered

/-- A row that a replay sends: of retained state, or of a mailbox. -/
structure ReplayRow where
  retained : Bool
  raw : Str
  deliveryId : Option Str

def ReplayRow.frame (row : ReplayRow) : SocketFrame :=
  if row.retained then .retained row.raw else .mailbox row.raw

theorem ReplayRow.frame_cases (row : ReplayRow) :
    row.frame = .retained row.raw ∨ row.frame = .mailbox row.raw := by
  unfold ReplayRow.frame
  split_ifs
  · exact .inl rfl
  · exact .inr rfl

/-- A send that has not ended; `rest` are the rows that a replay sends after it. -/
structure Flight where
  socket : ℕ
  bytes : ℕ
  rest : Option (List ReplayRow)

/-- What the relay does, in the order it does it; `mail` are the mailboxes at that moment. -/
inductive NodeEvent
  /-- A frame is passed to `delivery.send`. -/
  | handed (id : ℕ) (frame : SocketFrame) (mail : RelayStore)
  /-- A frame is passed to `send` of the socket. -/
  | sent (id : ℕ) (socket : NodeSocket) (frame : SocketFrame) (mail : RelayStore)
  /-- An envelope passed every check. -/
  | accepted (id : ℕ) (socket : NodeSocket) (raw : Str) (envelope : Json) (now : ℤ)
  /-- An envelope was offered to a mailbox. -/
  | queued (id : ℕ) (raw : Str) (envelope : Json) (result : QueueResult)
  | acknowledged (id : ℕ) (deliveryId : Str)
  | renewed (id : ℕ) (before after : ManagedTicket)
  | struck (id : ℕ) (key : Str)
  | closed (id : ℕ) (close : SocketClose)
  | woken (room : Str) (envelope : Json) (mail : RelayStore)

/-- The tables that the handlers of sockets use. -/
structure NodeDisk where
  store : RelayStore
  retained : NodeStates
  presence : Table Str (List PresenceRow)
  tasks : NodeTasks

structure NodeRelay where
  disk : NodeDisk
  coolDowns : CoolDownRegistry
  sockets : Table ℕ NodeSocket
  flights : Table ℕ Flight
  trace : List NodeEvent

/-- What the relay is started with. -/
structure NodeConfig where
  parse : Str → Option Json
  sha256 : Str → Str
  /-- `managedAdmission(env)` -/
  admission : Option TicketAuthority
  limits : CoolDownLimits

/-- What the library finds at a send, which the length of the trace names: the amount it has buffered
for the socket, and whether it throws. -/
structure SendChoice where
  buffered : ℕ → ℕ
  throws : ℕ → Bool

namespace NodeRelay

def empty : NodeRelay where
  disk := ⟨.empty, .empty, .empty, .empty⟩
  coolDowns := .empty
  sockets := .empty
  flights := .empty
  trace := []

/-! ## Sending -/

def record (w : NodeRelay) (e : NodeEvent) : NodeRelay := { w with trace := w.trace ++ [e] }

def setSocket (w : NodeRelay) (id : ℕ) (s : NodeSocket) : NodeRelay :=
  { w with sockets := w.sockets.put id s }

/-- A change of what is kept of a socket. -/
def update (w : NodeRelay) (id : ℕ) (f : NodeSocket → NodeSocket) : NodeRelay :=
  match w.sockets.get? id with
  | none => w
  | some s => w.setSocket id (f s)

/-- `ws.close(code, reason)`, after which the socket is not open. -/
def shut (w : NodeRelay) (id : ℕ) (close : SocketClose) : NodeRelay :=
  (w.update id fun s => { s with isOpen := false }).record (.closed id close)

/-- `ws.send(text)` -/
def emit (w : NodeRelay) (id : ℕ) (frame : ControlFrame) : NodeRelay :=
  match w.sockets.get? id with
  | none => w
  | some s => w.record (.sent id s (.control frame) w.disk.store)

def MAX_OUTSTANDING : ℕ := 512

def RESPONSE_LIFETIME_MS : ℤ := 30000

/-- `responses.issue` -/
def issue (allowances : Table Str ℤ) (deliveryId : Option Str) (now : ℤ) : Table Str ℤ :=
  match deliveryId with
  | none => allowances
  | some id =>
    if 1 ≤ id.length ∧ id.length ≤ 180 then
      let pending := (allowances.erase id).put id (now + RESPONSE_LIFETIME_MS)
      match pending.rows with
      | first :: _ => if MAX_OUTSTANDING < pending.size then pending.erase first.1 else pending
      | [] => pending
    else allowances

def MAX_BUFFERED_BYTES : ℕ := 4 * 1024 ^ 2

def MAX_PENDING_BYTES : ℕ := 64 * 1024 ^ 2

/-- The bytes of the sends that have not ended. -/
def pendingBytes (w : NodeRelay) : ℕ := (w.flights.values.map Flight.bytes).sum

/-- The refusal of one more frame for a slow receiver. -/
def backpressure : SocketClose := ⟨1013, lit "backpressure; retry-after=5"⟩

/-- `delivery.send`: whether the send was accepted, and the relay after it. -/
def deliver (w : NodeRelay) (choice : SendChoice) (id : ℕ) (frame : SocketFrame)
    (rest : Option (List ReplayRow)) (deliveryId : Option Str) (now : ℤ) : Bool × NodeRelay :=
  match w.sockets.get? id with
  | none => (false, w)
  | some s =>
    let w := w.record (.handed id frame w.disk.store)
    if !s.isOpen then (false, w)
    else
      let bytes := utf8Length frame.text
      let buffered := choice.buffered w.trace.length
      if (0 < buffered ∧ max MAX_BUFFERED_BYTES bytes < buffered + bytes) ∨
          MAX_PENDING_BYTES < w.pendingBytes + bytes then
        (false, w.shut id backpressure)
      else
        let s := { s with allowances := issue s.allowances deliveryId now }
        let w := (w.setSocket id s).record (.sent id s frame w.disk.store)
        if choice.throws w.trace.length then
          (false, w.update id fun s => { s with isOpen := false })
        else (true, { w with flights := w.flights.put w.trace.length ⟨id, bytes, rest⟩ })

/-- `JSON.parse(item.raw)?.deliveryId` for a row without a delivery id. -/
def replayId (parse : Str → Option Json) (row : ReplayRow) : Option Str :=
  match row.deliveryId with
  | some id => some id
  | none => ((parse row.raw).bind (·.get (lit "deliveryId"))).bind Json.str?

/-- `replayNodeFrames`, up to the end of its next send. -/
def replay (w : NodeRelay) (parse : Str → Option Json) (choice : SendChoice) (id : ℕ)
    (rows : List ReplayRow) (now : ℤ) : NodeRelay :=
  match rows, w.sockets.get? id with
  | row :: rest, some s =>
    if s.isOpen then (w.deliver choice id row.frame (some rest) (replayId parse row) now).2 else w
  | _, _ => w

/-- A send ends, and the replay it belongs to goes on if it succeeded. -/
def complete (w : NodeRelay) (parse : Str → Option Json) (choice : SendChoice) (number : ℕ)
    (failed : Bool) (now : ℤ) : NodeRelay :=
  match w.flights.get? number with
  | none => w
  | some flight =>
    let w := { w with flights := w.flights.erase number }
    match flight.rest with
    | none => w
    | some rows => if failed then w else w.replay parse choice flight.socket rows now

/-! ## Presence -/

/-- The sockets of a room, in the order they joined it. -/
def members (w : NodeRelay) (room : Str) : List (ℕ × NodeSocket) :=
  w.sockets.rows.filter fun r => r.2.joined && r.2.room = room

def notePresence (w : NodeRelay) (room : Str) (role : Option Role) (id : Option Str) (now : ℤ) :
    NodeRelay :=
  let rows := updatePresence ((w.disk.presence.get? room).getD []) role id now
  { w with disk := { w.disk with presence := w.disk.presence.put room rows } }

/-- The turn of one socket in `publishNodePresence`. -/
def presentTo (choice : SendChoice) (message : ControlFrame) (now : ℤ) (w : NodeRelay)
    (peer : ℕ × NodeSocket) : NodeRelay :=
  if peer.2.presenceEnabled && peer.2.role = some .phone then
    (w.deliver choice peer.1 (.control message) none none now).2
  else w

def publishNodePresence (w : NodeRelay) (choice : SendChoice) (room : Str) (now : ℤ) : NodeRelay :=
  let peers := (w.members room).filter fun peer => peer.2.isOpen
  let message := presenceMessage room ((w.disk.presence.get? room).getD [])
    (peers.map fun peer => (peer.2.role, peer.2.recipientKeyId)) now
  peers.foldl (presentTo choice message now) w

/-! ## Policy -/

/-- Identity of a live socket; before its first frame the frame's own role and sender are used. -/
def identityOf (s : NodeSocket) (envelope : Value) : Option Str :=
  match s.identity with
  | some key => some key
  | none => socketIdentity s.room s.recipientKeyId
      (match s.role with
        | some role => some role
        | none => roleOf? (envelope.get (lit "from")))
      (envelope.get (lit "senderId")).str?

def closeForPolicy (w : NodeRelay) (limits : CoolDownLimits) (id : ℕ) (token : CloseToken)
    (envelope : Value) (now : ℤ) : NodeRelay :=
  match w.sockets.get? id with
  | none => w
  | some s =>
    if s.isOpen then
      let identity := identityOf s envelope
      let r := applyPolicyClose token identity w.coolDowns limits now
      let w := match struckKey token identity with
        | some key => w.record (.struck id key)
        | none => w
      ({ w with coolDowns := r.2 }).shut id r.1
    else w

/-- `refuseCoolingSocket`: whether the frame is refused, and the relay after it. -/
def refuseCooling (w : NodeRelay) (limits : CoolDownLimits) (id : ℕ) (s : NodeSocket)
    (envelope : Json) (now : ℤ) : Bool × NodeRelay :=
  let r := w.coolDowns.remaining limits (identityOf s (some envelope))
    (admittedSocket s.ticket now) now
  let w := { w with coolDowns := r.2 }
  if r.1 ≤ 0 then (false, w) else (true, w.shut id (refuseCoolingFrame r.1))

end NodeRelay

/-! ## What sending and closing do -/

/-- What identifies a socket, and what it may do. -/
structure SocketCard where
  room : Str
  role : Option Role
  identity : Option Str
  commercial : Bool
  ticket : Option ManagedTicket
  recipientKeyId : Option Str
  joined : Bool

def NodeSocket.card (s : NodeSocket) : SocketCard :=
  ⟨s.room, s.role, s.identity, s.commercial, s.ticket, s.recipientKeyId, s.joined⟩

namespace NodeRelay

/-- The card of a socket. -/
def card? (w : NodeRelay) (id : ℕ) : Option SocketCard := (w.sockets.get? id).map (·.card)

/-- A socket that is open. -/
def opened (w : NodeRelay) (id : ℕ) : Bool := (w.sockets.get? id).any (·.isOpen)

/-- The events of sends and closes: frames that satisfy `F`, strikes of sockets of `P`. -/
def QuietEvent (F : ℕ → SocketFrame → Prop) (P : ℕ → Prop) (w : NodeRelay) : NodeEvent → Prop
  | .handed id frame mail => F id frame ∧ mail = w.disk.store
  | .sent id s frame mail => F id frame ∧ w.card? id = some s.card ∧ mail = w.disk.store
  | .closed _ _ => True
  | .struck id _ => P id
  | _ => False

/-- The step sends frames that satisfy `F`, or may send them after others, may close sockets and
may strike those of `P`; the mailboxes, the retained state and the cards stay as they were. -/
structure Quiet (F : ℕ → SocketFrame → Prop) (P : ℕ → Prop) (w w' : NodeRelay) : Prop where
  store : w'.disk.store = w.disk.store
  retained : w'.disk.retained = w.disk.retained
  cards : ∀ id, w'.card? id = w.card? id
  opened : ∀ id, w'.opened id = true → w.opened id = true
  closes : ∀ id close, NodeEvent.closed id close ∈ w'.trace →
    NodeEvent.closed id close ∈ w.trace ∨ w'.opened id = false ∧ (w'.card? id).isSome
  flights : ∀ n f, w'.flights.get? n = some f → w.flights.get? n = some f ∨
    n ≤ w'.trace.length ∧ ∀ rows, f.rest = some rows → ∀ row ∈ rows, F f.socket row.frame
  kept : ∀ n f, n ≤ w.trace.length → w.flights.get? n = some f → w'.flights.get? n = some f
  trace : ∃ new, w'.trace = w.trace ++ new ∧ ∀ e ∈ new, QuietEvent F P w e

namespace Quiet

variable {F G : ℕ → SocketFrame → Prop} {P Q : ℕ → Prop} {w w' w'' : NodeRelay}

/-- A step that sends and closes nothing. -/
theorem silent (hstore : w'.disk.store = w.disk.store)
    (hretained : w'.disk.retained = w.disk.retained) (hcards : ∀ id, w'.card? id = w.card? id)
    (hopened : ∀ id, w'.opened id = true → w.opened id = true) (hflights : w'.flights = w.flights)
    (htrace : w'.trace = w.trace) : Quiet F P w w' where
  store := hstore
  retained := hretained
  cards := hcards
  opened := hopened
  closes _ _ h := .inl (htrace ▸ h)
  flights _ _ h := .inl (hflights ▸ h)
  kept _ _ _ h := hflights ▸ h
  trace := ⟨[], by rw [htrace, List.append_nil], fun _ h => absurd h List.not_mem_nil⟩

theorem refl (w : NodeRelay) : Quiet F P w w :=
  silent rfl rfl (fun _ => rfl) (fun _ h => h) rfl rfl

theorem event_mono (hF : ∀ id frame, F id frame → G id frame) (hP : ∀ id, P id → Q id)
    {e : NodeEvent} (h : QuietEvent F P w e) : QuietEvent G Q w e := by
  cases e with
  | handed => exact ⟨hF _ _ h.1, h.2⟩
  | sent => exact ⟨hF _ _ h.1, h.2⟩
  | closed => trivial
  | struck id key => exact hP _ h
  | accepted | queued | acknowledged | renewed | woken => exact h.elim

theorem mono (h : Quiet F P w w') (hF : ∀ id frame, F id frame → G id frame)
    (hP : ∀ id, P id → Q id) : Quiet G Q w w' where
  store := h.store
  retained := h.retained
  cards := h.cards
  opened := h.opened
  closes := h.closes
  flights n f hf := (h.flights n f hf).imp_right fun hnew => ⟨hnew.1, fun rows hrows row hrow =>
    hF _ _ (hnew.2 rows hrows row hrow)⟩
  kept := h.kept
  trace := by
    obtain ⟨new, hnew, hevents⟩ := h.trace
    exact ⟨new, hnew, fun e he => event_mono hF hP (hevents e he)⟩

theorem mem_trace (h : Quiet F P w w') {e : NodeEvent} (he : e ∈ w.trace) : e ∈ w'.trace := by
  obtain ⟨new, hnew, -⟩ := h.trace
  exact hnew ▸ List.mem_append_left _ he

theorem length_le (h : Quiet F P w w') : w.trace.length ≤ w'.trace.length := by
  obtain ⟨new, hnew, -⟩ := h.trace
  rw [hnew, List.length_append]
  exact Nat.le_add_right _ _

theorem trans (h : Quiet F P w w') (h' : Quiet F P w' w'') : Quiet F P w w'' where
  store := h'.store.trans h.store
  retained := h'.retained.trans h.retained
  cards id := (h'.cards id).trans (h.cards id)
  opened id hid := h.opened id (h'.opened id hid)
  closes id close hc := by
    refine (h'.closes id close hc).elim (fun hc => ?_) .inr
    refine (h.closes id close hc).imp_right fun hshut => ⟨?_, by rw [h'.cards]; exact hshut.2⟩
    exact Bool.eq_false_iff.2 fun hopen => Bool.eq_false_iff.1 hshut.1 (h'.opened id hopen)
  flights n f hf := (h'.flights n f hf).elim
    (fun hf => (h.flights n f hf).imp_right fun hnew => ⟨hnew.1.trans h'.length_le, hnew.2⟩) .inr
  kept n f hn hf := h'.kept n f (hn.trans h.length_le) (h.kept n f hn hf)
  trace := by
    obtain ⟨new, hnew, hevents⟩ := h.trace
    obtain ⟨more, hmore, hevents'⟩ := h'.trace
    refine ⟨new ++ more, by rw [hmore, hnew, List.append_assoc], fun e he => ?_⟩
    rcases List.mem_append.1 he with he | he
    · exact hevents e he
    · have hevent := hevents' e he
      cases e with
      | handed => exact ⟨hevent.1, hevent.2.trans h.store⟩
      | sent id => exact ⟨hevent.1, h.cards id ▸ hevent.2.1, hevent.2.2.trans h.store⟩
      | closed | struck => exact hevent
      | accepted | queued | acknowledged | renewed | woken => exact hevent.elim

/-- A send that was accepted is under way, under a number of its own. -/
theorem launch (h : Quiet F P w w') (hlt : w.trace.length < w'.trace.length) {f : Flight}
    (hrest : ∀ rows, f.rest = some rows → ∀ row ∈ rows, F f.socket row.frame) :
    Quiet F P w { w' with flights := w'.flights.put w'.trace.length f } where
  store := h.store
  retained := h.retained
  cards := h.cards
  opened := h.opened
  closes := h.closes
  flights n f' hf := by
    rw [Table.get?_put] at hf
    split_ifs at hf with hn
    · cases hf
      exact .inr ⟨hn.le, hrest⟩
    · exact h.flights n f' hf
  kept n f' hn hf := by
    rw [Table.get?_put, if_neg (hn.trans_lt hlt).ne]
    exact h.kept n f' hn hf
  trace := h.trace

/-- The turns of a loop. -/
theorem foldl {α : Type*} {f : NodeRelay → α → NodeRelay} {l : List α}
    (h : ∀ v : NodeRelay, (∀ id, v.card? id = w.card? id) → ∀ a ∈ l, Quiet F P v (f v a)) :
    Quiet F P w (l.foldl f w) := by
  induction l generalizing w with
  | nil => exact refl w
  | cons a l ih =>
    have hfirst := h w (fun _ => rfl) a List.mem_cons_self
    exact hfirst.trans (ih fun v hv b hb =>
      h v (fun id => (hv id).trans (hfirst.cards id)) b (List.mem_cons_of_mem _ hb))

end Quiet

theorem card?_setSocket (w : NodeRelay) (id : ℕ) (s : NodeSocket) (id' : ℕ) :
    (w.setSocket id s).card? id' = if id' = id then some s.card else w.card? id' := by
  unfold card? setSocket
  rw [Table.get?_put]
  split_ifs <;> rfl

theorem opened_setSocket (w : NodeRelay) (id : ℕ) (s : NodeSocket) (id' : ℕ) :
    (w.setSocket id s).opened id' = if id' = id then s.isOpen else w.opened id' := by
  unfold opened setSocket
  rw [Table.get?_put]
  split_ifs <;> rfl

section Operations

variable {F : ℕ → SocketFrame → Prop} {P : ℕ → Prop} {w : NodeRelay} {id : ℕ} {s s' : NodeSocket}

/-- A change that leaves the card of a socket and opens nothing. -/
theorem setSocket_quiet (hs : w.sockets.get? id = some s) (hcard : s'.card = s.card)
    (hopen : s'.isOpen = true → s.isOpen = true) : Quiet F P w (w.setSocket id s') := by
  refine .silent rfl rfl (fun id' => ?_) (fun id' => ?_) rfl rfl
  · rw [card?_setSocket]
    split_ifs with h
    · rw [h, card?, hs, hcard]
      rfl
    · rfl
  · rw [opened_setSocket]
    split_ifs with h
    · rw [h, opened, hs]
      exact hopen
    · exact fun h => h

theorem update_quiet (w : NodeRelay) (id : ℕ) {f : NodeSocket → NodeSocket}
    (hcard : ∀ s, (f s).card = s.card) (hopen : ∀ s, (f s).isOpen = true → s.isOpen = true) :
    Quiet F P w (w.update id f) := by
  unfold update
  cases hs : w.sockets.get? id with
  | none => exact .refl w
  | some s => exact setSocket_quiet hs (hcard s) (hopen s)

theorem unopen_quiet (w : NodeRelay) (id : ℕ) :
    Quiet F P w (w.update id fun s => { s with isOpen := false }) :=
  update_quiet w id (fun _ => rfl) fun _ h => absurd h Bool.false_ne_true

theorem record_quiet {e : NodeEvent} (h : QuietEvent F P w e)
    (hshut : ∀ id close, e = .closed id close → w.opened id = false ∧ (w.card? id).isSome) :
    Quiet F P w (w.record e) where
  store := rfl
  retained := rfl
  cards _ := rfl
  opened _ h := h
  closes id close hc := (List.mem_append.1 hc).imp_right fun hc =>
    hshut id close (List.mem_singleton.1 hc).symm
  flights _ _ h := .inl h
  kept _ _ _ h := h
  trace := ⟨[e], rfl, fun e' he' => by
    rw [List.mem_singleton.1 he']
    exact h⟩

theorem opened_unopen (w : NodeRelay) (id : ℕ) :
    (w.update id fun s => { s with isOpen := false }).opened id = false := by
  unfold update
  split
  · rename_i h
    rw [opened, h]
    rfl
  · rw [opened_setSocket, if_pos rfl]

theorem shut_quiet {w : NodeRelay} {id : ℕ} (hcard : (w.card? id).isSome) (close : SocketClose) :
    Quiet F P w (w.shut id close) := by
  have hunopened : Quiet F P w (w.update id fun s => { s with isOpen := false }) :=
    unopen_quiet w id
  refine hunopened.trans (record_quiet trivial ?_)
  rintro _ _ ⟨⟩
  exact ⟨opened_unopen w id, by rw [hunopened.cards]; exact hcard⟩

theorem emit_quiet (w : NodeRelay) (id : ℕ) (frame : ControlFrame)
    (h : F id (.control frame)) : Quiet F P w (w.emit id frame) := by
  unfold emit
  cases hs : w.sockets.get? id with
  | none => exact .refl w
  | some s =>
    refine record_quiet ⟨h, ?_, rfl⟩ nofun
    rw [card?, hs]
    rfl

/-- **A delivery** sends its frame, or later the rows behind it. -/
theorem deliver_quiet (w : NodeRelay) (choice : SendChoice) (id : ℕ)
    {frame : SocketFrame} {rest : Option (List ReplayRow)} (deliveryId : Option Str) (now : ℤ)
    (hframe : F id frame) (hrest : ∀ rows, rest = some rows → ∀ row ∈ rows, F id row.frame) :
    Quiet F P w (w.deliver choice id frame rest deliveryId now).2 := by
  unfold deliver
  cases hs : w.sockets.get? id with
  | none => exact .refl w
  | some s =>
    have hhanded : Quiet F P w (w.record (.handed id frame w.disk.store)) :=
      record_quiet ⟨hframe, rfl⟩ nofun
    have hcard : ((w.record (.handed id frame w.disk.store)).card? id).isSome := by
      rw [hhanded.cards, card?, hs]
      rfl
    dsimp only
    split_ifs with hclosed hslow hthrows
    · exact hhanded
    · exact hhanded.trans (shut_quiet hcard _)
    all_goals
      have hissued : Quiet F P (w.record (.handed id frame w.disk.store))
          ((w.record (.handed id frame w.disk.store)).setSocket id
            { s with allowances := issue s.allowances deliveryId now }) :=
        setSocket_quiet hs rfl fun h => h
      have hsent := (hhanded.trans hissued).trans (record_quiet
        (e := .sent id { s with allowances := issue s.allowances deliveryId now } frame w.disk.store)
        ⟨hframe, by rw [card?_setSocket, if_pos rfl], rfl⟩ nofun)
    · exact hsent.trans (unopen_quiet _ id)
    · refine hsent.launch ?_ hrest
      rw [record, setSocket, record, List.length_append, List.length_append]
      exact (Nat.lt_succ_self _).trans (Nat.lt_succ_self _)

theorem replay_quiet (w : NodeRelay) (parse : Str → Option Json) (choice : SendChoice) (id : ℕ)
    (rows : List ReplayRow) (now : ℤ) (h : ∀ row ∈ rows, F id row.frame) :
    Quiet F P w (w.replay parse choice id rows now) := by
  unfold replay
  split
  · rename_i row rest s hs
    split_ifs
    · refine deliver_quiet w choice id _ now (h row List.mem_cons_self) ?_
      rintro rows ⟨⟩ row' hrow'
      exact h row' (List.mem_cons_of_mem _ hrow')
    · exact .refl w
  · exact .refl w

theorem publishNodePresence_quiet (w : NodeRelay) (choice : SendChoice) (room : Str) (now : ℤ)
    (h : ∀ id room now devices, F id (.control (.presence room now devices))) :
    Quiet F P w (w.publishNodePresence choice room now) := by
  unfold publishNodePresence
  refine Quiet.foldl fun v _ peer _ => ?_
  unfold presentTo
  split_ifs
  · exact deliver_quiet v choice peer.1 none now (h _ _ _ _) nofun
  · exact .refl v

theorem coolDowns_quiet (w : NodeRelay) (coolDowns : CoolDownRegistry) :
    Quiet F P w { w with coolDowns := coolDowns } :=
  .silent rfl rfl (fun _ => rfl) (fun _ h => h) rfl rfl

theorem notePresence_quiet (w : NodeRelay) (room : Str) (role : Option Role) (id : Option Str)
    (now : ℤ) : Quiet F P w (w.notePresence room role id now) :=
  .silent rfl rfl (fun _ => rfl) (fun _ h => h) rfl rfl

theorem closeForPolicy_quiet (w : NodeRelay) (limits : CoolDownLimits) (id : ℕ)
    (token : CloseToken) (envelope : Value) (now : ℤ) (h : P id) :
    Quiet F P w (w.closeForPolicy limits id token envelope now) := by
  unfold closeForPolicy
  cases hs : w.sockets.get? id with
  | none => exact .refl w
  | some s =>
    have hcard : (w.card? id).isSome := by rw [card?, hs]; rfl
    dsimp only
    split_ifs
    · cases struckKey token (identityOf s envelope) with
      | none =>
        refine (coolDowns_quiet w _).trans (shut_quiet ?_ _)
        exact hcard
      | some key =>
        have hstruck : Quiet F P w (w.record (.struck id key)) := record_quiet h nofun
        refine (hstruck.trans (coolDowns_quiet _ _)).trans (shut_quiet ?_ _)
        exact hcard
    · exact .refl w

theorem refuseCooling_quiet (hcard : (w.card? id).isSome) (limits : CoolDownLimits)
    (s : NodeSocket) (envelope : Json) (now : ℤ) : Quiet F P w (w.refuseCooling limits id s envelope now).2 := by
  unfold refuseCooling
  dsimp only
  split_ifs
  · exact coolDowns_quiet w _
  · refine (coolDowns_quiet w _).trans (shut_quiet ?_ _)
    exact hcard

end Operations

end NodeRelay

end GrantTap
