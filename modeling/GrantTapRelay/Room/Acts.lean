import GrantTapRelay.Room.Messages
import Mathlib.Logic.Relation

/-!
# What a Worker room can do

The handlers of a room taken apart, once. A `RoomAct` changes one thing, with what the handler has
checked before it; `RoomRelay.next_acts` says that every event is a sequence of acts.

* `Passed` are the checks that an envelope has passed before the room takes it.
* `Sent` lists why a frame may be passed to the `send` of a socket.
* `Told` are the parts of a handler that only send.
-/

namespace GrantTap

open Js Relation

/-- What routing knows of a socket. -/
structure RoomCard where
  role : Option Role
  recipientKeyId : Option Str

def RoomSocket.card (s : RoomSocket) : RoomCard := ⟨s.role, s.recipientKeyId⟩

namespace RoomRelay

/-- The card of a socket. -/
def card? (w : RoomRelay) (id : ℕ) : Option RoomCard := (w.sockets.get? id).map (·.card)

/-- A control frame that is no receipt. -/
def Notice : SocketFrame → Prop
  | .control (.stored _) => False
  | .control _ => True
  | _ => False

/-- The checks that the envelope of a message has passed. -/
structure Passed (cfg : RoomConfig) (i : RoomInput) (w : RoomRelay) (id : ℕ) (s : RoomSocket)
    (role : Role) (raw : Str) (envelope : Json) : Prop where
  label : i.label = .message id raw
  parsed : cfg.parse raw = some envelope
  ordinary : relayAck? envelope = none
  valid : envelopeProblem (some envelope) (some (.str cfg.room)) i.now none = .ok none
  sender : roleOf? (envelope.get (lit "from")) = some role
  card : w.card? id = some s.card

/-- The mailbox took the envelope, or had its delivery id already. -/
structure Taken (w : RoomRelay) (raw : Str) (envelope : Json) (role : Role) (deliveryId : Str)
    (before : RoomQueues) (now : ℤ) : Prop where
  addressed : roleOf? (envelope.get (lit "to")) = some role
  identified : deliveryId? envelope = some deliveryId
  mail : w.disk.mail =
    (before.queue role raw (some deliveryId) (envelope.get (lit "expiresAt")).int? now).1
  result : (before.queue role raw (some deliveryId)
      (envelope.get (lit "expiresAt")).int? now).2 = .stored ∨
    (before.queue role raw (some deliveryId) (envelope.get (lit "expiresAt")).int? now).2 =
      .duplicate

/-- Why a frame is passed to the `send` of a socket. -/
inductive Sent (cfg : RoomConfig) (i : RoomInput) (w : RoomRelay) (id : ℕ) : SocketFrame → Prop
  | notice {frame : SocketFrame} (h : Notice frame) : Sent cfg i w id frame
  | receipt (s : RoomSocket) (raw : Str) (envelope : Json) (deliveryId : Str)
      (before : RoomQueues) (h : Passed cfg i w id s .phone raw envelope)
      (ht : Taken w raw envelope .machine deliveryId before (i.choice.clock .queue))
      (hdurable : isDurableSubmission (some deliveryId) = true) :
      Sent cfg i w id (.control (.stored deliveryId))
  | job (s : RoomSocket) (job : PublicJob) (key : Str) (hcard : w.card? id = some s.card)
      (hkey : s.recipientKeyId = some key)
      (hjob : job.envelope.get (lit "recipientKeyId") = some (.str key)) :
      Sent cfg i w id (.task job)
  | live (sender : ℕ) (s target : RoomSocket) (role : Role) (raw : Str) (envelope : Json)
      (h : Passed cfg i w sender s role raw envelope)
      (haccepted : RoomEvent.accepted sender s raw envelope ∈ w.trace) (hne : id ≠ sender)
      (hcard : w.card? id = some target.card) (hto : addresses envelope target.role = true)
      (hmatches : matchesRecipient envelope target.recipientKeyId = true) :
      Sent cfg i w id (.live raw)
  | state (s : RoomSocket) (row : StateRow) (now : ℤ) (hcard : w.card? id = some s.card)
      (hrole : s.role = some .phone) (hrow : row ∈ w.disk.retained.list s.recipientKeyId now) :
      Sent cfg i w id (.retained row.raw)
  | mailbox (s : RoomSocket) (role : Role) (row : QueueRow) (hcard : w.card? id = some s.card)
      (hrole : s.role = some role) (hrow : row ∈ w.disk.mail.rows role)
      (hmatches : matchesQueuedRecipient cfg.parse row.raw s.recipientKeyId = true) :
      Sent cfg i w id (.mailbox row.raw)

/-- The socket has not been closed since the handler found the object in `w₀`. -/
def Unclosed (w₀ w : RoomRelay) (id : ℕ) : Prop :=
  ∀ close, RoomEvent.closed id close ∈ w.trace → RoomEvent.closed id close ∈ w₀.trace

/-- One part of a handler, which found the object in `w₀`. -/
inductive RoomAct (cfg : RoomConfig) (i : RoomInput) (w₀ : RoomRelay) :
    RoomRelay → RoomRelay → Prop
  | silent {w w' : RoomRelay} (hmail : w'.disk.mail = w.disk.mail)
      (hretained : w'.disk.retained = w.disk.retained) (hcards : ∀ id, w'.card? id = w.card? id)
      (htrace : w'.trace = w.trace) : RoomAct cfg i w₀ w w'
  | sent (w : RoomRelay) (id : ℕ) (s : RoomSocket) (frame : SocketFrame)
      (hcard : w.card? id = some s.card) (h : Sent cfg i w id frame) :
      RoomAct cfg i w₀ w (w.record (.sent id s frame w.disk.mail))
  | policy (w : RoomRelay) (id : ℕ) (raw : Str) (s : RoomSocket) (token : CloseToken)
      (envelope : Value) (now : ℤ) (hlabel : i.label = .message id raw)
      (hopen : Unclosed w₀ w id) :
      RoomAct cfg i w₀ w (w.closeRoomSocket cfg id s token envelope now)
  | refused (w : RoomRelay) (id : ℕ) (raw : Str) (close : SocketClose)
      (hlabel : i.label = .message id raw) (hopen : Unclosed w₀ w id) :
      RoomAct cfg i w₀ w (w.record (.closed id close))
  | register (w : RoomRelay) (id : ℕ) (s : RoomSocket) (role : Role) (raw : Str)
      (envelope : Json) (h : Passed cfg i w id s role raw envelope) (hrole : s.role = none) :
      RoomAct cfg i w₀ w (w.setSocket id (registered cfg s role envelope))
  | flush {w w' : RoomRelay} (role : Role) (socket : FlushSocket) (now : ℤ)
      (hmail : w'.disk.mail = (w.disk.mail.flushTo cfg.parse role socket now).1)
      (hretained : w'.disk.retained = w.disk.retained) (hcards : ∀ id, w'.card? id = w.card? id)
      (htrace : w'.trace = w.trace) (hnow : now = i.choice.clock .mailbox) : RoomAct cfg i w₀ w w'
  | accept (w : RoomRelay) (id : ℕ) (s : RoomSocket) (role : Role) (raw : Str) (envelope : Json)
      (h : Passed cfg i w id s role raw envelope) (hrole : s.role = some role)
      (hopen : Unclosed w₀ w id) : RoomAct cfg i w₀ w (w.record (.accepted id s raw envelope))
  | retain (w : RoomRelay) (id : ℕ) (s : RoomSocket) (role : Role) (raw : Str) (envelope : Json)
      (retained : WorkerStates) (now : ℤ) (activity : List PresenceRow)
      (h : Passed cfg i w id s role raw envelope)
      (haccepted : RoomEvent.accepted id s raw envelope ∈ w.trace)
      (hput : w.disk.retained.put envelope raw now activity = .ok retained) :
      RoomAct cfg i w₀ w { w with disk := { w.disk with retained := retained } }
  | queue (w : RoomRelay) (id : ℕ) (s : RoomSocket) (role dest : Role) (raw : Str)
      (envelope : Json) (deliveryId : Str) (h : Passed cfg i w id s role raw envelope)
      (haccepted : RoomEvent.accepted id s raw envelope ∈ w.trace)
      (hto : roleOf? (envelope.get (lit "to")) = some dest)
      (hid : deliveryId? envelope = some deliveryId) :
      RoomAct cfg i w₀ w (({ w with disk := { w.disk with mail := (w.disk.mail.queue dest raw
          (some deliveryId) (envelope.get (lit "expiresAt")).int? (i.choice.clock .queue)).1 } }).record
        (.queued id raw envelope (w.disk.mail.queue dest raw (some deliveryId)
          (envelope.get (lit "expiresAt")).int? (i.choice.clock .queue)).2))
  | acknowledge (w : RoomRelay) (id : ℕ) (s : RoomSocket) (role : Role) (raw : Str) (frame : Json)
      (deliveryId : Str) (hlabel : i.label = .message id raw) (hparsed : cfg.parse raw = some frame)
      (hack : relayAck? frame = some deliveryId) (hcard : w.card? id = some s.card)
      (hrole : s.role = some role) (hopen : Unclosed w₀ w id) :
      RoomAct cfg i w₀ w (({ w with disk := { w.disk with
        mail := w.disk.mail.acknowledge role deliveryId } }).record (.acknowledged id deliveryId))
  | woken (w : RoomRelay) (id : ℕ) (s : RoomSocket) (role : Role) (raw : Str) (envelope : Json)
      (h : Passed cfg i w id s role raw envelope) : RoomAct cfg i w₀ w (w.record (.woken envelope))
  | opens (w : RoomRelay) (id : ℕ) (q : RoomUpgrade) (hfresh : w.sockets.get? id = none) :
      RoomAct cfg i w₀ w (w.setSocket id (newSocket q))

/-- A sequence of acts. -/
abbrev RoomActs (cfg : RoomConfig) (i : RoomInput) (w₀ : RoomRelay) :
    RoomRelay → RoomRelay → Prop := ReflTransGen (RoomAct cfg i w₀)

variable {cfg : RoomConfig} {i : RoomInput} {w₀ w w' w'' : RoomRelay} {id : ℕ} {s : RoomSocket}
  {role : Role} {raw : Str} {envelope : Json} {frame : SocketFrame}

/-! ## Sending -/

/-- The sockets keep their cards, none is closed, and the trace may be longer. -/
structure Kept (w w' : RoomRelay) : Prop where
  cards : ∀ id, w'.card? id = w.card? id
  grew : w.trace <+: w'.trace
  unclosed : ∀ id, Unclosed w w' id

/-- The mailboxes and the retained state are as they were, too. -/
structure Told (w w' : RoomRelay) : Prop extends Kept w w' where
  mail : w'.disk.mail = w.disk.mail
  retained : w'.disk.retained = w.disk.retained

theorem Kept.refl (w : RoomRelay) : Kept w w :=
  ⟨fun _ => rfl, List.prefix_refl _, fun _ _ h => h⟩

theorem Kept.trans (h : Kept w w') (h' : Kept w' w'') : Kept w w'' :=
  ⟨fun id => (h'.cards id).trans (h.cards id), h.grew.trans h'.grew,
    fun id close hc => h.unclosed id close (h'.unclosed id close hc)⟩

theorem Kept.of_trace (hcards : ∀ id, w'.card? id = w.card? id) (htrace : w'.trace = w.trace) :
    Kept w w' :=
  ⟨hcards, htrace ▸ List.prefix_refl _, fun _ _ h => htrace ▸ h⟩

theorem Kept.record (w : RoomRelay) {e : RoomEvent} (he : ∀ id close, e ≠ .closed id close) :
    Kept w (w.record e) := by
  refine ⟨fun _ => rfl, ⟨[e], rfl⟩, fun id close hc => ?_⟩
  exact (List.mem_append.1 hc).resolve_right fun hc =>
    he id close (List.mem_singleton.1 hc).symm

theorem Told.refl (w : RoomRelay) : Told w w := ⟨.refl w, rfl, rfl⟩

theorem Told.trans (h : Told w w') (h' : Told w' w'') : Told w w'' :=
  ⟨h.toKept.trans h'.toKept, h'.mail.trans h.mail, h'.retained.trans h.retained⟩

theorem Unclosed.trans (h : Unclosed w₀ w id) (h' : Kept w w') : Unclosed w₀ w' id :=
  fun close hc => h close (h'.unclosed id close hc)

theorem Passed.kept (h : Passed cfg i w id s role raw envelope) (hk : Kept w w') :
    Passed cfg i w' id s role raw envelope :=
  { h with card := (hk.cards id).trans h.card }

/-- What justifies a frame justifies it after other sends as well. -/
theorem Sent.told (h : Sent cfg i w id frame) (ht : Told w w') : Sent cfg i w' id frame := by
  cases h with
  | notice h => exact .notice h
  | receipt s raw envelope deliveryId before h htaken hdurable =>
    refine .receipt s raw envelope deliveryId before (h.kept ht.toKept) ?_ hdurable
    exact { htaken with mail := ht.mail.trans htaken.mail }
  | job s job key hcard hkey hjob => exact .job s job key ((ht.cards id).trans hcard) hkey hjob
  | live sender s target role raw envelope h haccepted hne hcard hto hmatches =>
    exact .live sender s target role raw envelope (h.kept ht.toKept) (ht.grew.subset haccepted)
      hne ((ht.cards id).trans hcard) hto hmatches
  | state s row now hcard hrole hrow =>
    exact .state s row now ((ht.cards id).trans hcard) hrole (ht.retained ▸ hrow)
  | mailbox s role row hcard hrole hrow hmatches =>
    exact .mailbox s role row ((ht.cards id).trans hcard) hrole (ht.mail ▸ hrow) hmatches

/-- A part of a handler that sends, and changes nothing that routing rests on. -/
structure Tells (cfg : RoomConfig) (i : RoomInput) (w₀ w w' : RoomRelay) : Prop where
  acts : RoomActs cfg i w₀ w w'
  told : Told w w'

namespace Tells

theorem refl (w : RoomRelay) : Tells cfg i w₀ w w := ⟨.refl, .refl w⟩

theorem trans (h : Tells cfg i w₀ w w') (h' : Tells cfg i w₀ w' w'') : Tells cfg i w₀ w w'' :=
  ⟨h.acts.trans h'.acts, h.told.trans h'.told⟩

theorem silent (hmail : w'.disk.mail = w.disk.mail)
    (hretained : w'.disk.retained = w.disk.retained) (hcards : ∀ id, w'.card? id = w.card? id)
    (htrace : w'.trace = w.trace) : Tells cfg i w₀ w w' :=
  ⟨.single (.silent hmail hretained hcards htrace), ⟨.of_trace hcards htrace, hmail, hretained⟩⟩

theorem emit (h : Sent cfg i w id frame) : Tells cfg i w₀ w (w.emit id frame) := by
  unfold RoomRelay.emit
  split
  · exact refl w
  · rename_i s hs
    have hcard : w.card? id = some s.card := by rw [card?, hs]; rfl
    exact ⟨.single (.sent w id s frame hcard h), ⟨.record w nofun, rfl, rfl⟩⟩

/-- The turns of a loop. -/
theorem foldl {α : Type*} {f : RoomRelay → α → RoomRelay} {l : List α}
    (h : ∀ v, Told w v → ∀ a ∈ l, Tells cfg i w₀ v (f v a)) : Tells cfg i w₀ w (l.foldl f w) := by
  induction l generalizing w with
  | nil => exact refl w
  | cons a l ih =>
    have hfirst := h w (.refl w) a List.mem_cons_self
    exact hfirst.trans (ih fun v hv b hb =>
      h v (hfirst.told.trans hv) b (List.mem_cons_of_mem _ hb))

/-- Frames that may all be sent. -/
theorem foldl_emit {α : Type*} (target : α → ℕ) (f : α → SocketFrame) {l : List α}
    (h : ∀ a ∈ l, Sent cfg i w (target a) (f a)) :
    Tells cfg i w₀ w (l.foldl (fun w a => w.emit (target a) (f a)) w) :=
  foldl fun _ hv a ha => emit ((h a ha).told hv)

theorem emitAll {frames : List SocketFrame} (choice : RoomChoice) (id : ℕ)
    (h : ∀ frame ∈ frames, Sent cfg i w id frame) :
    Tells cfg i w₀ w (emitAll choice id w frames).2 := by
  induction frames generalizing w with
  | nil => exact refl w
  | cons frame frames ih =>
    have hfirst : Tells cfg i w₀ w (w.emit id frame) := emit (h frame List.mem_cons_self)
    unfold RoomRelay.emitAll
    split_ifs
    · exact hfirst
    · exact hfirst.trans (ih fun frame' hframe =>
        (h frame' (List.mem_cons_of_mem _ hframe)).told hfirst.told)

end Tells

theorem card?_setSocket (w : RoomRelay) (id : ℕ) (s : RoomSocket) (id' : ℕ) :
    (w.setSocket id s).card? id' = if id' = id then some s.card else w.card? id' := by
  unfold card? setSocket
  rw [Table.get?_put]
  split_ifs <;> rfl

/-- A change of a socket that leaves its card. -/
theorem setSocket_tells (hs : w.card? id = some s.card) : Tells cfg i w₀ w (w.setSocket id s) := by
  refine .silent rfl rfl (fun id' => ?_) rfl
  rw [card?_setSocket]
  split_ifs with h
  · rw [h, hs]
  · rfl

/-! ## The parts of a greeting -/

theorem noteWorkerPresence_tells (w : RoomRelay) (id : ℕ) (closed : Bool) (now : ℤ) :
    Tells cfg i w₀ w (w.noteWorkerPresence cfg id closed now) := by
  unfold noteWorkerPresence
  split
  · exact .refl w
  · rename_i s hs
    dsimp only
    have hnoted : Tells cfg i w₀ w { w with disk := { w.disk with
        presence := some (updatePresence (w.disk.presence.getD []) s.role s.recipientKeyId now) } } :=
      .silent rfl rfl (fun _ => rfl) rfl
    refine hnoted.trans (.foldl fun v _ peer _ => ?_)
    unfold presentTo
    split_ifs
    · exact .emit (.notice trivial)
    · exact .refl v

theorem dropRoomMessage_tells (w : RoomRelay) (id : ℕ) (s : RoomSocket) (envelope : Json)
    (reason : DropReason) : Tells cfg i w₀ w (w.dropRoomMessage id s envelope reason) := by
  unfold dropRoomMessage
  split
  · split_ifs
    · exact .emit (.notice trivial)
    · exact .refl w
  · exact .refl w

theorem replayStates_tells (hcard : w.card? id = some s.card) (hrole : s.role = some role) :
    Tells cfg i w₀ w (w.replayStates i.choice id s role).2 := by
  unfold replayStates
  split_ifs with hphone hstops
  · exact .refl w
  · exact .refl w
  · refine .emitAll i.choice id fun frame hframe => ?_
    obtain ⟨row, hrow, rfl⟩ := List.mem_map.1 hframe
    exact .state s row _ hcard (hrole.trans (congrArg some (not_not.1 hphone))) hrow

theorem offerTo_tells (w : RoomRelay) (peer : ℕ × RoomSocket) :
    Tells cfg i w₀ w (offerTo cfg i.choice w peer) := by
  unfold offerTo
  split
  · exact .refl w
  · rename_i s hs
    have hcard : w.card? peer.1 = some s.card := by rw [card?, hs]; rfl
    split_ifs
    · dsimp only
      refine Tells.trans ?_ (Tells.foldl_emit (fun _ => peer.1) SocketFrame.task fun job hjob => ?_)
      · refine .silent rfl rfl (fun id' => ?_) rfl
        rw [card?_setSocket]
        split_ifs with h
        · rw [h, hcard]
          rfl
        · rfl
      · obtain ⟨key, hkey, hrecipient⟩ :=
          offerTaskJobs_addressed (WorkerTasks.dueAddressed cfg.sha256) hjob
        refine .job s job key ?_ hkey hrecipient
        rw [card?_setSocket, if_pos rfl]
        rfl
    · exact .refl w

theorem offerRoomTaskJobs_tells (w : RoomRelay) :
    Tells cfg i w₀ w (w.offerRoomTaskJobs cfg i.choice) :=
  .foldl fun v _ peer _ => offerTo_tells v peer

/-- A part of a handler that closes nothing and leaves the cards. -/
structure Moves (cfg : RoomConfig) (i : RoomInput) (w₀ w w' : RoomRelay) : Prop where
  acts : RoomActs cfg i w₀ w w'
  kept : Kept w w'

theorem Tells.moves (h : Tells cfg i w₀ w w') : Moves cfg i w₀ w w' := ⟨h.acts, h.told.toKept⟩

theorem Moves.trans (h : Moves cfg i w₀ w w') (h' : Moves cfg i w₀ w' w'') :
    Moves cfg i w₀ w w'' := ⟨h.acts.trans h'.acts, h.kept.trans h'.kept⟩

theorem flushMailbox_moves (hcard : w.card? id = some s.card) (hrole : s.role = some role) :
    Moves cfg i w₀ w (w.flushMailbox cfg i.choice id s role).2 := by
  unfold flushMailbox
  split_ifs
  · exact (Tells.refl w).moves
  · dsimp only
    generalize hr : w.disk.mail.flushTo cfg.parse role _ _ = r
    have hsends : Tells cfg i w₀ w (r.2.foldl (fun w raw => w.emit id (.mailbox raw)) w) := by
      refine .foldl_emit (fun _ => id) SocketFrame.mailbox fun raw hraw => ?_
      obtain ⟨row, hrow, rfl, hmatches⟩ := RoomQueues.mem_flushTo cfg.parse (hr ▸ hraw)
      exact .mailbox s role row hcard hrole hrow hmatches
    refine hsends.moves.trans ⟨.single ?_, .of_trace (fun _ => rfl) rfl⟩
    refine .flush role ⟨s.recipientKeyId, fun k => !i.choice.throws (w.trace.length + k)⟩
      (i.choice.clock .mailbox) ?_ rfl (fun _ => rfl) rfl rfl
    rw [hsends.told.mail, hr]

/-- **A greeting** closes nothing and leaves the cards. -/
theorem greet_moves (hcard : w.card? id = some s.card) (hrole : s.role = some role) :
    Moves cfg i w₀ w (w.greet cfg i.choice id s role).2 := by
  unfold greet
  split
  · exact (Tells.refl w).moves
  · have hnoted : Tells cfg i w₀ w (w.noteWorkerPresence cfg id false (i.choice.clock .presence)) :=
      noteWorkerPresence_tells w id false _
    have hstates := hnoted.trans (replayStates_tells (s := s) ((hnoted.told.cards id).trans hcard) hrole)
    split
    · rename_i v hv
      rw [hv] at hstates
      exact hstates.moves
    · rename_i v hv
      rw [hv] at hstates
      have hflush := hstates.moves.trans
        (flushMailbox_moves ((hstates.told.cards id).trans hcard) hrole)
      split
      · rename_i u hu
        rw [hu] at hflush
        exact hflush
      · rename_i u hu
        rw [hu] at hflush
        split_ifs
        · exact hflush
        · exact hflush.trans (offerRoomTaskJobs_tells u).moves
        · exact hflush

/-! ## The parts of an accepted envelope -/

/-- The sockets that an envelope is forwarded to. -/
def Targeted (w : RoomRelay) (id : ℕ) (envelope : Json) (target : ℕ × RoomSocket) : Prop :=
  target.1 ≠ id ∧ w.card? target.1 = some target.2.card ∧
    addresses envelope target.2.role = true ∧
    matchesRecipient envelope target.2.recipientKeyId = true

theorem mem_targetsFor {target : ℕ × RoomSocket} (h : target ∈ w.targetsFor id envelope) :
    Targeted w id envelope target := by
  obtain ⟨h, hmatches⟩ := List.mem_filter.1 h
  obtain ⟨h, hne⟩ := List.mem_filter.1 h
  obtain ⟨h, -⟩ := List.mem_filter.1 h
  refine ⟨of_decide_eq_true hne, ?_, (Bool.and_eq_true _ _ ▸ hmatches).1,
    (Bool.and_eq_true _ _ ▸ hmatches).2⟩
  rw [card?, Table.mem_rows.1 h]
  rfl

theorem forward_moves {targets : List (ℕ × RoomSocket)} (h : Passed cfg i w id s role raw envelope)
    (haccepted : RoomEvent.accepted id s raw envelope ∈ w.trace)
    (htargets : ∀ target ∈ targets, Targeted w id envelope target) :
    Moves cfg i w₀ w (w.forward targets raw envelope) := by
  have hsends : Tells cfg i w₀ w (targets.foldl (fun w target => w.emit target.1 (.live raw)) w) :=
    .foldl_emit Prod.fst (fun _ => .live raw) fun target htarget => by
      obtain ⟨hne, hcard, hto, hmatches⟩ := htargets target htarget
      exact .live id s target.2 role raw envelope h haccepted hne hcard hto hmatches
  unfold forward
  dsimp only
  split_ifs
  · exact hsends.moves.trans ⟨.single (.woken _ id s role raw envelope (h.kept hsends.told.toKept)),
      .record _ nofun⟩
  · exact hsends.moves

theorem settleEnvelope_acts {targets : List (ℕ × RoomSocket)} {dest : Role} {deliveryId : Str}
    {before : RoomQueues} (hopen : Unclosed w₀ w id) (h : Passed cfg i w id s role raw envelope)
    (haccepted : RoomEvent.accepted id s raw envelope ∈ w.trace)
    (htargets : ∀ target ∈ targets, Targeted w id envelope target)
    (hto : roleOf? (envelope.get (lit "to")) = some dest)
    (hid : deliveryId? envelope = some deliveryId)
    (hmail : w.disk.mail = (before.queue dest raw (some deliveryId)
      (envelope.get (lit "expiresAt")).int? (i.choice.clock .queue)).1) :
    RoomActs cfg i w₀ w (w.settleEnvelope cfg i.choice id s raw envelope targets deliveryId
      (before.queue dest raw (some deliveryId) (envelope.get (lit "expiresAt")).int?
        (i.choice.clock .queue)).2) := by
  unfold settleEnvelope
  split
  · exact .single (.policy w id raw s _ _ _ h.label hopen)
  · exact (dropRoomMessage_tells w id s envelope _).acts
  · rename_i hforward
    have hreceipt : Tells cfg i w₀ w (w.sendReceipt i.choice id s envelope deliveryId).2 := by
      unfold sendReceipt
      split_ifs with hdurable
      · refine .emitAll i.choice id fun frame hframe => ?_
        obtain rfl := List.mem_singleton.1 hframe
        simp only [Bool.and_eq_true] at hdurable
        obtain ⟨⟨⟨-, hphone⟩, hmachine⟩, hdurable⟩ := hdurable
        obtain rfl := Option.some_inj.1 (h.sender.symm.trans (roleOf?_phone hphone))
        obtain rfl := Option.some_inj.1 (hto.symm.trans (roleOf?_machine hmachine))
        exact .receipt s raw envelope deliveryId before h
          ⟨hto, hid, hmail, queueOutcome_forward.1 hforward⟩ hdurable
      · exact .refl w
    split
    · rename_i v hv
      rw [hv] at hreceipt
      exact hreceipt.acts
    · rename_i v hv
      rw [hv] at hreceipt
      have hkept := hreceipt.told.toKept
      refine hreceipt.acts.trans (forward_moves (h.kept hkept) (hkept.grew.subset haccepted)
        fun target htarget => ?_).acts
      obtain ⟨hne, hcard, hmatches⟩ := htargets target htarget
      exact ⟨hne, (hkept.cards _).trans hcard, hmatches⟩

theorem queueEnvelope_acts (hopen : Unclosed w₀ w id) (h : Passed cfg i w id s role raw envelope)
    (haccepted : RoomEvent.accepted id s raw envelope ∈ w.trace) :
    RoomActs cfg i w₀ w (w.queueEnvelope cfg i.choice id s raw envelope) := by
  unfold queueEnvelope
  dsimp only
  split
  · rename_i dest deliveryId hto hid
    split_ifs
    · exact (dropRoomMessage_tells w id s envelope _).acts
    · refine .head (.queue w id s role dest raw envelope deliveryId h haccepted hto hid) ?_
      refine settleEnvelope_acts (fun close hc => hopen close ?_) (h.kept ?_)
        (List.mem_append_left _ haccepted) (fun target htarget => mem_targetsFor htarget) hto hid rfl
      · exact (List.mem_append.1 hc).resolve_right fun hc => by cases List.mem_singleton.1 hc
      · exact ⟨fun _ => rfl, ⟨_, rfl⟩, fun id close hc => (List.mem_append.1 hc).resolve_right
          fun hc => by cases List.mem_singleton.1 hc⟩
  · exact (forward_moves h haccepted fun target htarget => mem_targetsFor htarget).acts

theorem retainEnvelope_acts (hopen : Unclosed w₀ w id) (h : Passed cfg i w id s role raw envelope)
    (hrole : s.role = some role) :
    RoomActs cfg i w₀ w (w.retainEnvelope cfg i.choice id s raw envelope) := by
  have hkept : Kept w (w.record (.accepted id s raw envelope)) := .record w nofun
  have hpassed := h.kept hkept
  have haccepted : RoomEvent.accepted id s raw envelope ∈
      (w.record (.accepted id s raw envelope)).trace :=
    List.mem_append_right _ List.mem_cons_self
  refine .head (.accept w id s role raw envelope h hrole hopen) ?_
  unfold retainEnvelope
  dsimp only
  split_ifs
  · exact .refl
  · split
    · exact .refl
    · rename_i retained hput
      refine .head (.retain _ id s role raw envelope retained _ _ hpassed haccepted hput) ?_
      exact queueEnvelope_acts (fun close hc => hopen.trans hkept close hc)
        (hpassed.kept (.of_trace (fun _ => rfl) rfl)) haccepted
  · exact queueEnvelope_acts (hopen.trans hkept) hpassed haccepted

/-! ## The handlers are sequences of acts -/

theorem refuseCoolingRoomSocket_acts (hopen : Unclosed w₀ w id) (hlabel : i.label = .message id raw)
    (s : RoomSocket) (envelope : Json) (now : ℤ) :
    RoomActs cfg i w₀ w (w.refuseCoolingRoomSocket cfg id s envelope now).2 ∧
      ((w.refuseCoolingRoomSocket cfg id s envelope now).1 = false →
        Kept w (w.refuseCoolingRoomSocket cfg id s envelope now).2) := by
  have hcooled (coolDowns : CoolDownRegistry) : Tells cfg i w₀ w { w with coolDowns := coolDowns } :=
    .silent rfl rfl (fun _ => rfl) rfl
  unfold refuseCoolingRoomSocket
  dsimp only
  split_ifs
  · exact ⟨(hcooled _).acts, fun _ => (hcooled _).told.toKept⟩
  · exact ⟨(hcooled _).acts.tail (.refused _ id raw _ hlabel hopen), nofun⟩

theorem routeEnvelope_acts (hopen : Unclosed w₀ w id) (hlabel : i.label = .message id raw)
    (hparsed : cfg.parse raw = some envelope) (hordinary : relayAck? envelope = none)
    (hvalid : envelopeProblem (some envelope) (some (.str cfg.room)) i.now none = .ok none)
    (hcard : w.card? id = some s.card) :
    RoomActs cfg i w₀ w (w.routeEnvelope cfg i.choice id s raw envelope i.now) := by
  unfold routeEnvelope
  split
  · exact .refl
  · rename_i role hsender hrole
    obtain ⟨hacts, hkept⟩ : RoomActs cfg i w₀ w
        (w.refuseCoolingRoomSocket cfg id s envelope i.now).2 ∧ _ :=
      refuseCoolingRoomSocket_acts hopen hlabel s envelope i.now
    split
    · rename_i v hv
      rw [hv] at hacts
      exact hacts
    · rename_i v hv
      rw [hv] at hacts hkept
      have hkept := hkept rfl
      have hpassed : Passed cfg i v id s role raw envelope :=
        ⟨hlabel, hparsed, hordinary, hvalid, hsender, (hkept.cards id).trans hcard⟩
      have hregistered := hacts.tail (.register v id s role raw envelope hpassed hrole)
      have hnew : (v.setSocket id (registered cfg s role envelope)).card? id =
          some (registered cfg s role envelope).card := by rw [card?_setSocket, if_pos rfl]
      have hopen' : Unclosed w₀ (v.setSocket id (registered cfg s role envelope)) id :=
        fun close hc => hopen.trans hkept close hc
      have hgreet : Moves cfg i w₀ (v.setSocket id (registered cfg s role envelope))
          ((v.setSocket id (registered cfg s role envelope)).greet cfg i.choice id
            (registered cfg s role envelope) role).2 := greet_moves hnew rfl
      dsimp only
      split
      · rename_i u hu
        rw [hu] at hgreet
        exact hregistered.trans hgreet.acts
      · rename_i u hu
        rw [hu] at hgreet
        refine (hregistered.trans hgreet.acts).trans
          (retainEnvelope_acts (hopen'.trans hgreet.kept) ?_ rfl)
        exact ⟨hlabel, hparsed, hordinary, hvalid, hsender, (hgreet.kept.cards id).trans hnew⟩
  · rename_i role current hsender hrole
    split_ifs with hsame
    · exact retainEnvelope_acts hopen ⟨hlabel, hparsed, hordinary, hvalid, hsender, hcard⟩
        (hsame ▸ hrole)
    · exact .refl

theorem noteIngressFrame_tells (hcard : w.card? id = some s.card) :
    Tells cfg i w₀ w (w.noteIngressFrame id s).2 ∧ (w.noteIngressFrame id s).1.card = s.card := by
  have hcounted : Tells cfg i w₀ w (w.setSocket id
      { s with ingressReceived := s.ingressReceived + 1 }) := setSocket_tells hcard
  unfold noteIngressFrame
  dsimp only
  split_ifs
  · exact ⟨hcounted.trans (.emit (.notice trivial)), rfl⟩
  · exact ⟨hcounted, rfl⟩
  · exact ⟨.refl w, rfl⟩

/-- A frame that its room has counted. -/
theorem routeFrame_acts (hopen : Unclosed w₀ w id) (hlabel : i.label = .message id raw)
    (hparsed : cfg.parse raw = some envelope) (hcard : w.card? id = some s.card) :
    RoomActs cfg i w₀ w (match relayAck? envelope with
      | some deliveryId => w.acknowledgeFrame i.choice id s deliveryId
      | none =>
        match envelopeProblem (some envelope) (some (.str cfg.room)) i.now none with
        | .error _ => w
        | .ok (some .expired) => w.dropRoomMessage id s envelope .expired
        | .ok (some .invalid) => w
        | .ok none => w.routeEnvelope cfg i.choice id s raw envelope i.now) := by
  split
  · rename_i deliveryId hack
    unfold acknowledgeFrame
    split
    · exact .refl
    · rename_i role hrole
      split_ifs
      · exact .refl
      · exact .single (.acknowledge w id s role raw envelope deliveryId hlabel hparsed hack hcard
          hrole hopen)
  · rename_i hordinary
    split
    · exact .refl
    · exact (dropRoomMessage_tells w id s envelope _).acts
    · exact .refl
    · rename_i hvalid
      exact routeEnvelope_acts hopen hlabel hparsed hordinary hvalid hcard

theorem handleFrame_acts (hopen : Unclosed w₀ w id) (hlabel : i.label = .message id raw)
    (hparsed : cfg.parse raw = some envelope) (hcard : w.card? id = some s.card) :
    RoomActs cfg i w₀ w (w.handleFrame cfg i.choice id s raw envelope i.now) := by
  unfold handleFrame
  split_ifs
  · exact routeFrame_acts hopen hlabel hparsed hcard
  · obtain ⟨hnoted, hsame⟩ : Tells cfg i w₀ w (w.noteIngressFrame id s).2 ∧
        (w.noteIngressFrame id s).1.card = s.card := noteIngressFrame_tells hcard
    refine hnoted.acts.trans (routeFrame_acts (hopen.trans hnoted.told.toKept) hlabel hparsed ?_)
    exact (hnoted.told.cards id).trans (hcard.trans (congrArg some hsame.symm))

theorem webSocketMessage_acts (hlabel : i.label = .message id raw) :
    RoomActs cfg i w w (w.webSocketMessage cfg i.choice id raw i.now) := by
  have hopen : Unclosed w w id := fun _ h => h
  unfold webSocketMessage
  split
  · exact .refl
  · rename_i s hs
    have hcard : w.card? id = some s.card := by rw [card?, hs]; rfl
    split_ifs with hsize
    · exact .single (.policy w id raw s _ _ _ hlabel hopen)
    · have hcounted : Tells cfg i w w (w.setSocket id
          { s with window := (acceptSocketFrame s.window i.now).2 }) := setSocket_tells hcard
      have hopen' := hopen.trans hcounted.told.toKept
      dsimp only
      split_ifs
      · exact hcounted.acts.tail (.policy _ id raw _ _ _ _ hlabel hopen')
      · split
        · exact hcounted.acts
        · rename_i envelope hparsed
          refine hcounted.acts.trans (handleFrame_acts hopen' hlabel hparsed ?_)
          rw [hcounted.told.cards, hcard]
          rfl

theorem acceptWebSocket_acts (w : RoomRelay) (id : ℕ) (q : RoomUpgrade) (now : ℤ) :
    RoomActs cfg i w₀ w (w.acceptWebSocket cfg id q now) := by
  unfold acceptWebSocket
  split_ifs
  · exact .refl
  · dsimp only
    generalize w.coolDowns.remaining cfg.limits _ false now = r
    have hcooled : RoomActs cfg i w₀ w { w with coolDowns := r.2 } :=
      .single (.silent rfl rfl (fun _ => rfl) rfl)
    have hnotice (v : RoomRelay) (flow : Bool) :
        Tells cfg i w₀ v (v.emit id (.control (.capabilities flow))) := .emit (.notice trivial)
    split_ifs with hrefused
    · exact hcooled
    · refine hcooled.trans (.head (.opens { w with coolDowns := r.2 } id q ?_) (hnotice _ _).acts)
      simpa using (not_or.1 hrefused).2
    · refine hcooled.trans (.single (.opens { w with coolDowns := r.2 } id q ?_))
      simpa using (not_or.1 hrefused).2

/-- **Every event of a room is a sequence of acts.** -/
theorem next_acts (w : RoomRelay) (i : RoomInput) : RoomActs cfg i w w (w.next cfg i) := by
  unfold next
  split
  · exact acceptWebSocket_acts w _ _ _
  · rename_i id raw hlabel
    exact webSocketMessage_acts hlabel
  · exact (noteWorkerPresence_tells w _ true _).acts
  · rename_i id _
    unfold leave
    split
    · exact .refl
    · rename_i s hs
      refine (setSocket_tells ?_).acts
      rw [card?, hs]
      rfl
  · exact (offerRoomTaskJobs_tells w).acts
  · exact .single (.silent rfl rfl (fun _ => rfl) rfl)
  · refine .single (.silent rfl rfl (fun id => ?_) rfl)
    unfold card? restart
    dsimp only
    rw [Table.get?_map]
    cases w.sockets.get? id <;> rfl

theorem Step.acts (h : Step cfg w i w') : RoomActs cfg i w w w' := by
  rw [h]
  exact next_acts w i

end RoomRelay

end GrantTap
