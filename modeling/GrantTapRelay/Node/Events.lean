import GrantTapRelay.Node.Acts

/-!
# What the Node relay records

`Act.happens`: every event that an act adds to the trace, with the facts that its handler had
established when it came. `Sent` lists why a frame may be passed to the `send` of a socket.

* `Taken`: the mailbox stored the envelope of the frame, or had its delivery id already.
* `Happens`: the facts behind an event.
* `mem_since`: an event of a step is an event of one of its acts.
-/

namespace GrantTap

open Js Relation

namespace NodeRelay

variable {cfg : NodeConfig} {i : NodeInput} {w₀ w w' w'' : NodeRelay} {id : ℕ} {s : NodeSocket}
  {role : Role} {raw : Str} {envelope : Json}

/-! ## The events between two states -/

/-- Events that satisfy `E` lead from one trace to the other. -/
def Emits (E : NodeEvent → Prop) (w w' : NodeRelay) : Prop :=
  ∃ new, w'.trace = w.trace ++ new ∧ ∀ e ∈ new, E e

/-- The events between two states. -/
def since (w w' : NodeRelay) : List NodeEvent := w'.trace.drop w.trace.length

namespace Emits

variable {E E' : NodeEvent → Prop}

theorem refl (w : NodeRelay) : Emits E w w :=
  ⟨[], (List.append_nil _).symm, fun _ h => absurd h List.not_mem_nil⟩

theorem of_trace (h : w'.trace = w.trace) : Emits E w w' :=
  ⟨[], by rw [h, List.append_nil], fun _ h => absurd h List.not_mem_nil⟩

theorem trans (h : Emits E w w') (h' : Emits E w' w'') : Emits E w w'' := by
  obtain ⟨new, hnew, hE⟩ := h
  obtain ⟨more, hmore, hE'⟩ := h'
  refine ⟨new ++ more, by rw [hmore, hnew, List.append_assoc], fun e he => ?_⟩
  exact (List.mem_append.1 he).elim (hE e) (hE' e)

theorem mono (h : Emits E w w') (hle : ∀ e, E e → E' e) : Emits E' w w' := by
  obtain ⟨new, hnew, hE⟩ := h
  exact ⟨new, hnew, fun e he => hle e (hE e he)⟩

theorem record {e : NodeEvent} (h : E e) : Emits E w (w.record e) :=
  ⟨[e], rfl, fun _ he => List.mem_singleton.1 he ▸ h⟩

theorem since (h : Emits E w w') : w'.trace = w.trace ++ w.since w' ∧ ∀ e ∈ w.since w', E e := by
  obtain ⟨new, hnew, hE⟩ := h
  have hsince : w.since w' = new := by rw [NodeRelay.since, hnew, List.drop_left]
  exact hsince ▸ ⟨hnew, hE⟩

end Emits

theorem Quiet.emits {F : ℕ → SocketFrame → Prop} {P : ℕ → Prop} (h : Quiet F P w w') :
    Emits (QuietEvent F P w) w w' := h.trace

/-! ## Why a frame is sent -/

/-- The mailbox stored the envelope, or had its delivery id already. -/
structure Taken (w w' : NodeRelay) (s : NodeSocket) (raw : Str) (envelope : Json) (role : Role)
    (deliveryId : Str) (now : ℤ) (r : RelayStore × QueueResult) : Prop where
  addressed : roleOf? (envelope.get (lit "to")) = some role
  identified : deliveryId? envelope = some deliveryId
  queued : r = w.disk.store.enqueue s.room role raw (some deliveryId)
    (envelope.get (lit "expiresAt")).int? now
  result : r.2 = .stored ∨ r.2 = .duplicate
  store : w'.disk.store = r.1

/-- Why a frame is passed to the `send` of a socket. -/
inductive Sent (cfg : NodeConfig) (i : NodeInput) (w w' : NodeRelay) (id : ℕ) :
    SocketFrame → Prop
  | notice {frame : SocketFrame} (h : Notice frame) : Sent cfg i w w' id frame
  | receipt (s : NodeSocket) (raw : Str) (envelope : Json) (deliveryId : Str)
      (r : RelayStore × QueueResult) (h : Passed cfg i w id s .phone raw envelope)
      (ht : Taken w w' s raw envelope .machine deliveryId i.now r)
      (hdurable : isDurableSubmission (some deliveryId) = true) :
      Sent cfg i w w' id (.control (.stored deliveryId))
  | job (s : NodeSocket) (job : PublicJob) (key : Str) (hcard : w.card? id = some s.card)
      (hkey : s.recipientKeyId = some key)
      (hjob : job.envelope.get (lit "recipientKeyId") = some (.str key)) :
      Sent cfg i w w' id (.task job)
  | live (sender : ℕ) (s target : NodeSocket) (role : Role) (raw : Str) (envelope : Json)
      (h : Passed cfg i w sender s role raw envelope)
      (haccepted : NodeEvent.accepted sender s raw envelope i.now ∈ w.trace) (hne : id ≠ sender)
      (hcard : w.card? id = some target.card) (hjoined : target.joined = true)
      (hroom : target.room = s.room) (hto : addresses envelope target.role = true)
      (hmatches : matchesRecipient envelope target.recipientKeyId = true)
      (htaken : ∀ role deliveryId, roleOf? (envelope.get (lit "to")) = some role →
        deliveryId? envelope = some deliveryId →
          ∃ r, Taken w w' s raw envelope role deliveryId i.now r) : Sent cfg i w w' id (.live raw)
  | registered (s : NodeSocket) (role : Role) (raw : Str) (envelope : Json) (row : ReplayRow)
      (h : Passed cfg i w id s role raw envelope) (hrole : s.role = none)
      (hrow : row ∈ w.replayRows cfg.parse s role i.now)
      (hcard : w'.card? id = some (registered s role envelope).card) :
      Sent cfg i w w' id row.frame
  | waiting (n : ℕ) (f : Flight) (rows : List ReplayRow) (row : ReplayRow)
      (hflight : w.flights.get? n = some f) (hsocket : f.socket = id) (hrest : f.rest = some rows)
      (hrow : row ∈ rows) : Sent cfg i w w' id row.frame

theorem Sent.of_live {frame : SocketFrame} (h : Sent cfg i w w' id frame)
    (hframe : frame = .live raw) :
    ∃ sender s target role envelope, Passed cfg i w sender s role raw envelope ∧
      w.card? id = some (NodeSocket.card target) ∧ target.room = s.room ∧
      ∀ role deliveryId, roleOf? (envelope.get (lit "to")) = some role →
        deliveryId? envelope = some deliveryId →
          ∃ r, Taken w w' s raw envelope role deliveryId i.now r := by
  cases h with
  | notice h =>
    rw [hframe] at h
    exact h.elim
  | receipt | job => cases hframe
  | live sender s target role raw' envelope h haccepted hne hcard hjoined hroom hto hmatches htaken =>
    cases hframe
    exact ⟨sender, s, target, role, envelope, h, hcard, hroom, htaken⟩
  | registered s role raw envelope row =>
    rcases row.frame_cases with h | h
    · cases h.symm.trans hframe
    · cases h.symm.trans hframe
  | waiting n f rows row =>
    rcases row.frame_cases with h | h
    · cases h.symm.trans hframe
    · cases h.symm.trans hframe

/-- The facts behind an event. -/
inductive Happens (cfg : NodeConfig) (i : NodeInput) (w w' : NodeRelay) : NodeEvent → Prop
  | handed {id : ℕ} {frame : SocketFrame} (h : Sent cfg i w w' id frame) :
      Happens cfg i w w' (.handed id frame w'.disk.store)
  | sent {id : ℕ} {s : NodeSocket} {frame : SocketFrame} (h : Sent cfg i w w' id frame)
      (hcard : w'.card? id = some s.card) : Happens cfg i w w' (.sent id s frame w'.disk.store)
  | accepted {id : ℕ} {s : NodeSocket} {role : Role} {raw : Str} {envelope : Json}
      (h : Passed cfg i w id s role raw envelope) (hrole : s.role = some role) :
      Happens cfg i w w' (.accepted id s raw envelope i.now)
  | queued {id : ℕ} {s : NodeSocket} {role dest : Role} {raw deliveryId : Str} {envelope : Json}
      (h : Passed cfg i w id s role raw envelope) (hrole : s.role = some role)
      (hto : roleOf? (envelope.get (lit "to")) = some dest)
      (hid : deliveryId? envelope = some deliveryId) (hfails : i.choice.enqueueFails = none)
      (hact : w' = w.enqueueEnvelope cfg i.choice id s raw envelope i.now) :
      Happens cfg i w w' (.queued id raw envelope
        (w.disk.store.enqueue s.room dest raw (some deliveryId)
          (envelope.get (lit "expiresAt")).int? i.now).2)
  | acknowledged {id : ℕ} {s : NodeSocket} {role : Role} {raw deliveryId : Str} {frame : Json}
      (hlabel : i.label = .message id raw) (hparsed : cfg.parse raw = some frame)
      (hack : relayAck? frame = some deliveryId) (hcard : w.card? id = some s.card)
      (hrole : s.role = some role) : Happens cfg i w w' (.acknowledged id deliveryId)
  | renewed {id : ℕ} {s : NodeSocket} {current next : ManagedTicket}
      (hcard : w.card? id = some s.card) (hcurrent : s.ticket = some current)
      (hrenewable : renewable s current next = true) :
      Happens cfg i w w' (.renewed id current next)
  | struck {id : ℕ} {key : Str} (hopened : w.opened id = true) (hshut : w'.opened id = false) :
      Happens cfg i w w' (.struck id key)
  | closed {id : ℕ} {close : SocketClose} : Happens cfg i w w' (.closed id close)
  | woken {id : ℕ} {s : NodeSocket} {role : Role} {raw : Str} {envelope : Json}
      (h : Passed cfg i w id s role raw envelope)
      (htaken : ∀ role deliveryId, roleOf? (envelope.get (lit "to")) = some role →
        deliveryId? envelope = some deliveryId →
          ∃ r, Taken w w' s raw envelope role deliveryId i.now r) :
      Happens cfg i w w' (.woken s.room envelope w'.disk.store)

theorem Happens.of_quiet {F : ℕ → SocketFrame → Prop} {v : NodeRelay} {e : NodeEvent}
    (h : QuietEvent F (fun _ => False) v e) (hF : ∀ id frame, F id frame → Sent cfg i w w' id frame)
    (hcards : ∀ id, w'.card? id = v.card? id) (hstore : w'.disk.store = v.disk.store) :
    Happens cfg i w w' e := by
  cases e with
  | handed =>
    obtain ⟨hframe, rfl⟩ := h
    exact hstore ▸ .handed (hF _ _ hframe)
  | sent id =>
    obtain ⟨hframe, hcard, rfl⟩ := h
    exact hstore ▸ .sent (hF _ _ hframe) ((hcards id).trans hcard)
  | closed => exact .closed
  | struck | accepted | queued | acknowledged | renewed | woken => exact h.elim

/-! ## The events of each act -/

theorem disk_update (w : NodeRelay) (id : ℕ) (f : NodeSocket → NodeSocket) :
    (w.update id f).disk = w.disk := by
  unfold update
  split <;> rfl

theorem trace_update (w : NodeRelay) (id : ℕ) (f : NodeSocket → NodeSocket) :
    (w.update id f).trace = w.trace := by
  unfold update
  split <;> rfl

theorem flights_update (w : NodeRelay) (id : ℕ) (f : NodeSocket → NodeSocket) :
    (w.update id f).flights = w.flights := by
  unfold update
  split <;> rfl

theorem replayRows_update (w : NodeRelay) (id : ℕ) (f : NodeSocket → NodeSocket)
    (parse : Str → Option Json) (s : NodeSocket) (role : Role) (now : ℤ) :
    (w.update id f).replayRows parse s role now = w.replayRows parse s role now := by
  unfold replayRows
  rw [disk_update]

theorem opened_shut (w : NodeRelay) (id : ℕ) (close : SocketClose) :
    (w.shut id close).opened id = false := opened_unopen w id

theorem trace_shut (w : NodeRelay) (id : ℕ) (close : SocketClose) :
    (w.shut id close).trace = w.trace ++ [.closed id close] :=
  congrArg (· ++ [_]) (trace_update w id _)

/-- A strike closes its socket. -/
theorem closeForPolicy_happens {v : NodeRelay} (hsame : v.opened id = w.opened id)
    (token : CloseToken) (envelope : Value) :
    Emits (Happens cfg i w (v.closeForPolicy cfg.limits id token envelope i.now)) v
      (v.closeForPolicy cfg.limits id token envelope i.now) := by
  unfold closeForPolicy
  split
  · exact .refl v
  · rename_i s hs
    dsimp only
    split_ifs with hopen
    · have hopened : w.opened id = true := by rw [← hsame, opened, hs]; exact hopen
      cases struckKey token (identityOf s envelope) with
      | none =>
        refine ⟨[_], trace_shut _ id _, fun e he => ?_⟩
        exact List.mem_singleton.1 he ▸ .closed
      | some key =>
        refine ⟨[.struck id key, _], (trace_shut _ id _).trans (List.append_assoc _ [_] [_]),
          fun e he => ?_⟩
        rcases List.mem_cons.1 he with rfl | he
        · exact .struck hopened (opened_shut _ id _)
        · exact List.mem_singleton.1 he ▸ .closed
    · exact .refl v

theorem registerRole_happens (h : Passed cfg i w id s role raw envelope) (hrole : s.role = none) :
    Emits (Happens cfg i w (w.registerRole cfg i.choice.toSendChoice id s role envelope i.now)) w
      (w.registerRole cfg i.choice.toSendChoice id s role envelope i.now) := by
  have hquiet := registerRole_quiet (P := fun _ => False)
    (F := fun target frame => target = id ∧ ∃ row ∈ w.replayRows cfg.parse s role i.now,
      frame = row.frame) w cfg i.choice.toSendChoice id s role envelope i.now
    fun row hrow => ⟨rfl, row, replayRows_update w id _ cfg.parse s role i.now ▸ hrow, rfl⟩
  have hstart : Emits (Happens cfg i w
      (w.registerRole cfg i.choice.toSendChoice id s role envelope i.now)) w
      { w.update id fun s => registered s role envelope with
        disk := { (w.update id fun s => registered s role envelope).disk with
          store := (w.disk.store.queue s.room role i.now).1 } } :=
    .of_trace (trace_update w id _)
  refine hstart.trans (hquiet.emits.mono fun e he => .of_quiet he ?_ hquiet.cards hquiet.store)
  rintro target frame ⟨rfl, row, hrow, rfl⟩
  exact .registered s role raw envelope row h hrole hrow (card?_registerRole h)

theorem complete_happens (w : NodeRelay) (number : ℕ) (failed : Bool) :
    Emits (Happens cfg i w (w.complete cfg.parse i.choice.toSendChoice number failed i.now)) w
      (w.complete cfg.parse i.choice.toSendChoice number failed i.now) := by
  unfold complete
  split
  · exact .refl w
  · rename_i flight hflight
    have herased : Emits (Happens cfg i w { w with flights := w.flights.erase number }) w
        { w with flights := w.flights.erase number } := .of_trace rfl
    dsimp only
    split
    · exact herased
    · rename_i rows hrows
      split_ifs
      · exact herased
      · have hquiet := replay_quiet (P := fun _ => False)
          (F := fun target frame => target = flight.socket ∧ ∃ row ∈ rows, frame = row.frame)
          { w with flights := w.flights.erase number } cfg.parse i.choice.toSendChoice
          flight.socket rows i.now fun row hrow => ⟨rfl, row, hrow, rfl⟩
        refine hquiet.emits.mono fun e he => .of_quiet he ?_ hquiet.cards hquiet.store
        rintro target frame ⟨rfl, row, hrow, rfl⟩
        exact .waiting number flight rows row hflight rfl hrows hrow

/-! ### An accepted envelope -/

/-- The forwarding loop sends the frame to the sockets of the room that it matches. -/
theorem forwardLoop_quiet (w : NodeRelay) (choice : SendChoice) (id : ℕ) (room raw : Str)
    (envelope : Json) (now : ℤ) :
    Quiet (fun target frame => frame = .live raw ∧ target ≠ id ∧ ∃ s : NodeSocket,
        w.card? target = some s.card ∧ s.joined = true ∧ s.room = room ∧
        addresses envelope s.role = true ∧ matchesRecipient envelope s.recipientKeyId = true)
      (fun _ => False) w ((w.members room).foldl (forwardTo choice id raw envelope now) w) := by
  refine Quiet.foldl fun v hv peer hpeer => ?_
  unfold forwardTo
  split_ifs with h
  · obtain ⟨hmem, hroom⟩ := List.mem_filter.1 hpeer
    obtain ⟨hjoined, hroom⟩ := (Bool.and_eq_true _ _ ▸ hroom)
    refine deliver_quiet v choice peer.1 _ now ⟨rfl, h.1, peer.2, ?_, hjoined,
      of_decide_eq_true hroom, h.2.2.1, h.2.2.2⟩ nofun
    rw [card?, Table.mem_rows.1 hmem]
    rfl
  · exact .refl v

/-- A receipt goes to the phone that submitted the frame. -/
theorem sendReceipt_quiet (w : NodeRelay) (choice : SendChoice) (id : ℕ) (s : NodeSocket)
    (envelope : Json) (deliveryId : Str) (now : ℤ) :
    Quiet (fun target frame => target = id ∧ frame = .control (.stored deliveryId) ∧
        (envelope.get (lit "from")).is (lit "phone") = true ∧
        (envelope.get (lit "to")).is (lit "machine") = true ∧
        isDurableSubmission (some deliveryId) = true)
      (fun _ => False) w (w.sendReceipt choice id s envelope deliveryId now) := by
  unfold sendReceipt
  split_ifs with h
  · simp only [Bool.and_eq_true] at h
    exact deliver_quiet w choice id none now ⟨rfl, rfl, h.1.1.1.2, h.1.1.2, h.1.2⟩ nofun
  · exact .refl w

/-- What forwarding leaves as it was. -/
theorem forward_kept (w : NodeRelay) (choice : SendChoice) (id : ℕ) (room raw : Str)
    (envelope : Json) (now : ℤ) :
    (w.forward choice id room raw envelope now).disk.store = w.disk.store ∧
      ∀ id', (w.forward choice id room raw envelope now).card? id' = w.card? id' := by
  have hloop := forwardLoop_quiet w choice id room raw envelope now
  unfold forward
  dsimp only
  split_ifs
  · exact ⟨hloop.store, hloop.cards⟩
  · exact ⟨hloop.store, hloop.cards⟩

/-- Forwarding, after the mailbox took the frame if it is a reliable one. -/
theorem forward_happens {v : NodeRelay} (h : Passed cfg i w id s role raw envelope)
    (haccepted : NodeEvent.accepted id s raw envelope i.now ∈ w.trace)
    (hcards : ∀ id, v.card? id = w.card? id)
    (hw' : w' = v.forward i.choice.toSendChoice id s.room raw envelope i.now)
    (htaken : ∀ role deliveryId, roleOf? (envelope.get (lit "to")) = some role →
      deliveryId? envelope = some deliveryId →
        ∃ r, Taken w w' s raw envelope role deliveryId i.now r) :
    Emits (Happens cfg i w w') v w' := by
  have hloop := forwardLoop_quiet v i.choice.toSendChoice id s.room raw envelope i.now
  have hkept := forward_kept v i.choice.toSendChoice id s.room raw envelope i.now
  rw [← hw'] at hkept
  have hsends : Emits (Happens cfg i w w') v ((v.members s.room).foldl
      (forwardTo i.choice.toSendChoice id raw envelope i.now) v) := by
    refine hloop.emits.mono fun e he => .of_quiet he ?_ hkept.2 hkept.1
    rintro target frame ⟨rfl, hne, t, ht, hjoined, hroom, hto, hmatches⟩
    exact .live id s t role raw envelope h haccepted hne ((hcards target).symm.trans ht) hjoined
      hroom hto hmatches htaken
  have hforward : Emits (Happens cfg i w w') v
      (v.forward i.choice.toSendChoice id s.room raw envelope i.now) := by
    unfold forward
    dsimp only
    split_ifs
    · refine hsends.trans (.record ?_)
      rw [hloop.store, ← hkept.1]
      exact .woken h htaken
    · exact hsends
  rwa [← hw'] at hforward

theorem settleEnvelope_happens {v : NodeRelay} {dest : Role} {deliveryId : Str}
    {r : RelayStore × QueueResult} (h : Passed cfg i w id s role raw envelope)
    (haccepted : NodeEvent.accepted id s raw envelope i.now ∈ w.trace)
    (hto : roleOf? (envelope.get (lit "to")) = some dest)
    (hid : deliveryId? envelope = some deliveryId)
    (hr : r = w.disk.store.enqueue s.room dest raw (some deliveryId)
      (envelope.get (lit "expiresAt")).int? i.now)
    (hstore : v.disk.store = r.1) (hcards : ∀ id, v.card? id = w.card? id)
    (hopened : v.opened id = w.opened id)
    (hw' : w' = v.settleEnvelope cfg i.choice.toSendChoice id s raw envelope deliveryId r.2 i.now) :
    Emits (Happens cfg i w w') v w' := by
  unfold settleEnvelope at hw'
  split at hw'
  · rw [hw']
    exact closeForPolicy_happens hopened _ _
  · rename_i reason _
    have hdropped := dropMessage_still v id envelope reason
    rw [← hw'] at hdropped
    exact hdropped.emits.mono fun e he => .of_quiet he (fun _ _ => .notice)
        hdropped.cards hdropped.store
  · rename_i hforward
    have hreceipt := sendReceipt_quiet v i.choice.toSendChoice id s envelope deliveryId i.now
    have hkept := forward_kept (v.sendReceipt i.choice.toSendChoice id s envelope deliveryId i.now)
      i.choice.toSendChoice id s.room raw envelope i.now
    rw [← hw'] at hkept
    have htaken : Taken w w' s raw envelope dest deliveryId i.now r :=
      ⟨hto, hid, hr, queueOutcome_forward.1 hforward,
        hkept.1.trans (hreceipt.store.trans hstore)⟩
    have hsent : Emits (Happens cfg i w w') v
        (v.sendReceipt i.choice.toSendChoice id s envelope deliveryId i.now) := by
      refine hreceipt.emits.mono fun e he => .of_quiet he ?_
        (fun target => (hkept.2 target).trans (hreceipt.cards target))
        (hkept.1.trans hreceipt.store)
      rintro target frame ⟨rfl, rfl, hphone, hmachine, hdurable⟩
      obtain rfl := Option.some_inj.1 (h.sender.symm.trans (roleOf?_phone hphone))
      obtain rfl := Option.some_inj.1 (hto.symm.trans (roleOf?_machine hmachine))
      exact .receipt s raw envelope deliveryId r h htaken hdurable
    refine hsent.trans (forward_happens h haccepted (fun target =>
      (hreceipt.cards target).trans (hcards target)) hw' fun role' deliveryId' hto' hid' => ?_)
    obtain rfl := Option.some_inj.1 (hto.symm.trans hto')
    obtain rfl := Option.some_inj.1 (hid.symm.trans hid')
    exact ⟨r, htaken⟩

/-- **The mailbox and the other sockets**: what the events of an envelope rest on. -/
theorem enqueueEnvelope_happens (h : Passed cfg i w id s role raw envelope)
    (hrole : s.role = some role)
    (haccepted : NodeEvent.accepted id s raw envelope i.now ∈ w.trace) :
    Emits (Happens cfg i w (w.enqueueEnvelope cfg i.choice id s raw envelope i.now)) w
      (w.enqueueEnvelope cfg i.choice id s raw envelope i.now) := by
  generalize hw' : w.enqueueEnvelope cfg i.choice id s raw envelope i.now = w'
  have hact := hw'.symm
  unfold enqueueEnvelope at hw'
  split at hw'
  · rename_i dest deliveryId hto hid
    split at hw'
    · rename_i cleaned _
      have hdropped := dropMessage_still { w with disk := { w.disk with
        store := if cleaned then (w.disk.store.queue s.room dest i.now).1 else w.disk.store } }
        id envelope .storageUnavailable
      rw [hw'] at hdropped
      exact hdropped.emits.mono fun e he => .of_quiet he (fun _ _ => .notice)
        hdropped.cards hdropped.store
    · rename_i hfails
      generalize hr : w.disk.store.enqueue s.room dest raw (some deliveryId)
        (envelope.get (lit "expiresAt")).int? i.now = r at hw'
      have hqueued : Emits (Happens cfg i w w') { w with disk := { w.disk with store := r.1 } }
          (({ w with disk := { w.disk with store := r.1 } }).record
            (.queued id raw envelope r.2)) := .record (hr ▸ .queued h hrole hto hid hfails hact)
      exact (Emits.of_trace rfl).trans (hqueued.trans (settleEnvelope_happens h haccepted hto hid
        hr.symm rfl (fun _ => rfl) rfl hw'.symm))
  · rename_i hnone
    exact forward_happens h haccepted (fun _ => rfl) hw'.symm fun role deliveryId hto hid =>
      absurd hid (hnone role deliveryId hto)

theorem trace_foldl_record {α : Type*} (f : α → NodeEvent) :
    ∀ (l : List α) (w : NodeRelay), (l.foldl (fun w a => w.record (f a)) w).trace =
      w.trace ++ l.map f
  | [], w => (List.append_nil _).symm
  | a :: l, w => by
    rw [List.foldl_cons, trace_foldl_record f l, List.map_cons]
    exact List.append_assoc _ [_] _

theorem disk_foldl_record {α : Type*} (f : α → NodeEvent) :
    ∀ (l : List α) (w : NodeRelay), (l.foldl (fun w a => w.record (f a)) w).disk = w.disk
  | [], _ => rfl
  | _ :: l, _ => (disk_foldl_record f l _).trans rfl

theorem card?_foldl_record {α : Type*} (f : α → NodeEvent) (id : ℕ) :
    ∀ (l : List α) (w : NodeRelay), (l.foldl (fun w a => w.record (f a)) w).card? id = w.card? id
  | [], _ => rfl
  | _ :: l, _ => (card?_foldl_record f id l _).trans rfl

theorem offerTo_happens (w : NodeRelay) (id : ℕ) :
    Emits (Happens cfg i w (w.offerTo cfg id i.now)) w (w.offerTo cfg id i.now) := by
  unfold offerTo
  split
  · exact .refl w
  · rename_i s hs
    have hcard : w.card? id = some s.card := by rw [card?, hs]; rfl
    dsimp only
    split_ifs
    · refine ⟨_, trace_foldl_record _ _ _, fun e he => ?_⟩
      obtain ⟨job, hjob, rfl⟩ := List.mem_map.1 he
      obtain ⟨key, hkey, hrecipient⟩ :=
        offerTaskJobs_addressed (NodeTasks.dueAddressed cfg.sha256) hjob
      generalize hw' : List.foldl _ _ _ = w'
      have hstore : w'.disk.store = w.disk.store := by
        rw [← hw', disk_foldl_record]
        rfl
      have hcard' : w'.card? id = some s.card := by
        rw [← hw', card?_foldl_record, card?_setSocket, if_pos rfl]
        rfl
      exact hstore ▸ .sent (.job s job key hcard hkey hrecipient) hcard'
    · exact .refl w

/-- **The events of every act.** -/
theorem Act.happens (h : Act cfg i w₀ w w') : Emits (Happens cfg i w w') w w' := by
  cases h with
  | quiet h =>
    exact h.emits.mono fun e he => .of_quiet he (fun _ _ => .notice) h.cards h.store
  | policy id token envelope => exact closeForPolicy_happens rfl token envelope
  | renew id s raw frame authority current next hlabel hparsed htype hcard hcommercial hauthority
      hread hcurrent hrenewable =>
    exact (Emits.of_trace (trace_update w id _)).trans
      (.record (.renewed hcard hcurrent hrenewable))
  | register id s role raw envelope h hrole hstart => exact registerRole_happens h hrole
  | accept id s role raw envelope h hrole => exact .record (.accepted h hrole)
  | retain => exact .of_trace rfl
  | enqueue id s role raw envelope h hrole haccepted =>
    exact enqueueEnvelope_happens h hrole haccepted
  | acknowledge id s raw frame deliveryId hlabel hparsed hack hcard =>
    unfold acknowledgeFrame
    split
    · exact .refl w
    · rename_i role hrole
      exact (Emits.of_trace rfl).trans (.record (.acknowledged hlabel hparsed hack hcard hrole))
  | complete number failed => exact complete_happens w number failed
  | opens => exact .of_trace rfl
  | closed id => exact .of_trace (trace_update _ id _)
  | offer id => exact offerTo_happens w id
  | tables => exact .of_trace rfl
  | restart => exact .of_trace rfl

/-- An event of a step is an event of one of its acts. -/
theorem Acts.happens (h : Acts cfg i w₀ w w') :
    Emits (fun e => ∃ v v', Acts cfg i w₀ w v ∧ Act cfg i w₀ v v' ∧ Acts cfg i w₀ v' w' ∧
      Happens cfg i v v' e) w w' := by
  induction h with
  | refl => exact .refl w
  | @tail v v' hbefore hact ih =>
    refine (ih.mono ?_).trans (hact.happens.mono fun e he => ⟨v, v', hbefore, hact, .refl, he⟩)
    rintro e ⟨u, u', hu, hact', hu', he⟩
    exact ⟨u, u', hu, hact', hu'.tail hact, he⟩

end NodeRelay

end GrantTap
