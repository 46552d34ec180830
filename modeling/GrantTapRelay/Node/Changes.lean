import GrantTapRelay.Node.Events

/-!
# What the acts of the Node relay change

* `Act.card`: the card of a socket changes when it connects, registers its role, renews its ticket
  or leaves its room.
* `Act.mail`: the mailboxes change by the operations of the store.
* `Act.states`: retained state changes by a put of an accepted envelope, or a purge.
* `Act.waiting`: a flight is new, or was there before; it ends by its completion or its socket.
-/

namespace GrantTap

open Js Relation

namespace NodeRelay

variable {cfg : NodeConfig} {i : NodeInput} {w₀ w w' w'' : NodeRelay} {id : ℕ} {s : NodeSocket}
  {role : Role} {raw : Str} {envelope : Json}

/-! ## What the last stage of an envelope changes -/

/-- What sending and closing changes, whatever else is recorded or stored. -/
structure Settles (w w' : NodeRelay) : Prop where
  retained : w'.disk.retained = w.disk.retained
  cards : ∀ id, w'.card? id = w.card? id
  opened : ∀ id, w'.opened id = true → w.opened id = true
  flights : ∀ n f, w'.flights.get? n = some f → w.flights.get? n = some f ∨
    n ≤ w'.trace.length ∧ ∀ rows, f.rest = some rows → rows = []
  kept : ∀ n f, n ≤ w.trace.length → w.flights.get? n = some f → w'.flights.get? n = some f
  grows : w.trace.length ≤ w'.trace.length

namespace Settles

theorem silent (hretained : w'.disk.retained = w.disk.retained) (hsockets : w'.sockets = w.sockets)
    (hflights : w'.flights = w.flights) (hgrows : w.trace.length ≤ w'.trace.length) :
    Settles w w' where
  retained := hretained
  cards id := by rw [card?, card?, hsockets]
  opened id h := by rwa [NodeRelay.opened, hsockets] at h
  flights n f h := .inl (hflights ▸ h)
  kept n f _ h := hflights ▸ h
  grows := hgrows

theorem trans (h : Settles w w') (h' : Settles w' w'') : Settles w w'' where
  retained := h'.retained.trans h.retained
  cards id := (h'.cards id).trans (h.cards id)
  opened id hid := h.opened id (h'.opened id hid)
  flights n f hf := (h'.flights n f hf).elim
    (fun hf => (h.flights n f hf).imp_right fun hnew => ⟨hnew.1.trans h'.grows, hnew.2⟩) .inr
  kept n f hn hf := h'.kept n f (hn.trans h.grows) (h.kept n f hn hf)
  grows := h.grows.trans h'.grows

end Settles

theorem length_le_record {e : NodeEvent} : w.trace.length ≤ (w.record e).trace.length := by
  rw [record, List.length_append]
  exact Nat.le_add_right _ _

/-- A step without replayed rows. -/
theorem Quiet.settles {F : ℕ → SocketFrame → Prop} {P : ℕ → Prop} (h : Quiet F P w w')
    (hrows : ∀ id (row : ReplayRow), ¬F id row.frame) : Settles w w' where
  retained := h.retained
  cards := h.cards
  opened := h.opened
  flights n f hf := (h.flights n f hf).imp_right fun hnew => ⟨hnew.1, fun rows hrest =>
    List.eq_nil_iff_forall_not_mem.2 fun row hrow => hrows _ row (hnew.2 rows hrest row hrow)⟩
  kept := h.kept
  grows := h.length_le

theorem closeForPolicy_settles (w : NodeRelay) (limits : CoolDownLimits) (id : ℕ)
    (token : CloseToken) (envelope : Value) (now : ℤ) :
    Settles w (w.closeForPolicy limits id token envelope now) :=
  (closeForPolicy_quiet (F := fun _ _ => False) (P := fun _ => True) w limits id token envelope now
    trivial).settles fun _ _ => not_false

theorem forward_settles (w : NodeRelay) (choice : SendChoice) (id : ℕ) (room raw : Str)
    (envelope : Json) (now : ℤ) : Settles w (w.forward choice id room raw envelope now) := by
  have hloop := (forwardLoop_quiet w choice id room raw envelope now).settles fun target row h => by
    rcases row.frame_cases with he | he
    · exact absurd (he.symm.trans h.1) (by simp)
    · exact absurd (he.symm.trans h.1) (by simp)
  unfold forward
  dsimp only
  split_ifs
  · exact hloop.trans (.silent rfl rfl rfl length_le_record)
  · exact hloop

theorem settleEnvelope_settles (w : NodeRelay) (cfg : NodeConfig) (choice : SendChoice) (id : ℕ)
    (s : NodeSocket) (raw : Str) (envelope : Json) (deliveryId : Str) (result : QueueResult)
    (now : ℤ) :
    Settles w (w.settleEnvelope cfg choice id s raw envelope deliveryId result now) ∧
      (w.settleEnvelope cfg choice id s raw envelope deliveryId result now).disk.store =
        w.disk.store := by
  unfold settleEnvelope
  split
  · exact ⟨closeForPolicy_settles .., (closeForPolicy_quiet (F := fun _ _ => False)
      (P := fun _ => True) w cfg.limits id _ none now trivial).store⟩
  · have hdropped := dropMessage_still w id envelope ‹_›
    exact ⟨hdropped.settles fun _ => not_notice_frame, hdropped.store⟩
  · have hreceipt := sendReceipt_quiet w choice id s envelope deliveryId now
    have hforward := forward_settles (w.sendReceipt choice id s envelope deliveryId now) choice id
      s.room raw envelope now
    refine ⟨(hreceipt.settles fun target row h => ?_).trans hforward,
      (forward_kept ..).1.trans hreceipt.store⟩
    rcases row.frame_cases with he | he
    · exact absurd (he.symm.trans h.2.1) (by simp)
    · exact absurd (he.symm.trans h.2.1) (by simp)

/-- How an act changes the mailboxes. -/
inductive MailAct (cfg : NodeConfig) (i : NodeInput) (w : NodeRelay) : RelayStore → Prop
  | same {store : RelayStore} (h : ∀ room role, store.rows room role = w.disk.store.rows room role) :
      MailAct cfg i w store
  | read (room : Str) (role : Role) : MailAct cfg i w (w.disk.store.queue room role i.now).1
  | enqueue {id : ℕ} {s : NodeSocket} {role dest : Role} {raw deliveryId : Str} {envelope : Json}
      (h : Passed cfg i w id s role raw envelope)
      (haccepted : NodeEvent.accepted id s raw envelope i.now ∈ w.trace)
      (hto : roleOf? (envelope.get (lit "to")) = some dest)
      (hid : deliveryId? envelope = some deliveryId) :
      MailAct cfg i w (w.disk.store.enqueue s.room dest raw (some deliveryId)
        (envelope.get (lit "expiresAt")).int? i.now).1
  | acknowledge {id : ℕ} {s : NodeSocket} {role : Role} {raw deliveryId : Str} {frame : Json}
      (hlabel : i.label = .message id raw) (hparsed : cfg.parse raw = some frame)
      (hack : relayAck? frame = some deliveryId) (hcard : w.card? id = some s.card)
      (hrole : s.role = some role) :
      MailAct cfg i w (w.disk.store.acknowledge s.room role deliveryId i.now)

theorem enqueueEnvelope_settles (w : NodeRelay) (cfg : NodeConfig) (choice : NodeChoice) (id : ℕ)
    (s : NodeSocket) (raw : Str) (envelope : Json) (now : ℤ) :
    Settles w (w.enqueueEnvelope cfg choice id s raw envelope now) ∧
      ((w.enqueueEnvelope cfg choice id s raw envelope now).disk.store = w.disk.store ∨
        ∃ role deliveryId, roleOf? (envelope.get (lit "to")) = some role ∧
          deliveryId? envelope = some deliveryId ∧
          ((w.enqueueEnvelope cfg choice id s raw envelope now).disk.store =
              (w.disk.store.queue s.room role now).1 ∨
            (w.enqueueEnvelope cfg choice id s raw envelope now).disk.store =
              (w.disk.store.enqueue s.room role raw (some deliveryId)
                (envelope.get (lit "expiresAt")).int? now).1)) := by
  unfold enqueueEnvelope
  split
  · rename_i role deliveryId hto hid
    split
    · rename_i cleaned _
      have hdropped := dropMessage_still { w with disk := { w.disk with
        store := if cleaned then (w.disk.store.queue s.room role now).1 else w.disk.store } }
        id envelope .storageUnavailable
      have hread : Settles w { w with disk := { w.disk with
        store := if cleaned then (w.disk.store.queue s.room role now).1 else w.disk.store } } :=
        .silent rfl rfl rfl le_rfl
      refine ⟨hread.trans (hdropped.settles fun _ => not_notice_frame), ?_⟩
      dsimp only at hdropped ⊢
      rw [hdropped.store]
      split_ifs
      · exact .inr ⟨role, deliveryId, hto, hid, .inl rfl⟩
      · exact .inl rfl
    · dsimp only
      generalize hr : w.disk.store.enqueue s.room role raw (some deliveryId)
        (envelope.get (lit "expiresAt")).int? now = r
      have hsettled := settleEnvelope_settles (({ w with disk := { w.disk with
        store := r.1 } }).record (.queued id raw envelope r.2)) cfg choice.toSendChoice id s raw
        envelope deliveryId r.2 now
      have hrecorded : Settles w (({ w with disk := { w.disk with store := r.1 } }).record
          (.queued id raw envelope r.2)) := .silent rfl rfl rfl length_le_record
      refine ⟨hrecorded.trans hsettled.1, .inr ⟨role, deliveryId, hto, hid, .inr ?_⟩⟩
      rw [hsettled.2, hr]
      rfl
  · exact ⟨forward_settles .., .inl (forward_kept ..).1⟩

/-! ## Cards -/

/-- What an act may do to the card of a socket. -/
inductive CardAct (cfg : NodeConfig) (i : NodeInput) (w₀ w w' : NodeRelay) (id : ℕ) :
    Option SocketCard → Option SocketCard → Prop
  | same (c : Option SocketCard) : CardAct cfg i w₀ w w' id c c
  | opened (q : NodeUpgrade) : CardAct cfg i w₀ w w' id none (some (newSocket cfg q
      (cfg.admission.bind fun authority =>
        readManagedTicket authority (q.ticketHeader.map Json.str) q.room q.checkedAt) i.now).card)
  | registered {s : NodeSocket} {role : Role} {raw : Str} {envelope : Json}
      (h : Passed cfg i w id s role raw envelope) (hrole : s.role = none) (hstart : Still w₀ w)
      (hact : w' = w.registerRole cfg i.choice.toSendChoice id s role envelope i.now) :
      CardAct cfg i w₀ w w' id (some s.card) (some (registered s role envelope).card)
  | renewed {s : NodeSocket} {raw : Str} {frame : Json} {authority : TicketAuthority}
      {current next : ManagedTicket} (hlabel : i.label = .message id raw)
      (hparsed : cfg.parse raw = some frame)
      (htype : (frame.get (lit "type")).is (lit "relay.admission") = true)
      (hauthority : cfg.admission = some authority)
      (hread : readManagedTicket authority (frame.get (lit "ticket")) s.room i.now = some next)
      (hcurrent : s.ticket = some current) (hrenewable : renewable s current next = true) :
      CardAct cfg i w₀ w w' id (some s.card) (some ({ s with ticket := some next } : NodeSocket).card)
  | left (c : SocketCard) (hshut : w'.opened id = false) :
      CardAct cfg i w₀ w w' id (some c) (some { c with joined := false })

theorem CardAct.of_eq {c c' : Option SocketCard} (h : c' = c) : CardAct cfg i w₀ w w' id c c' := by
  rw [h]
  exact .same c

/-- Past the end of its flight, a completion sends and closes. -/
theorem complete_quiet {F : ℕ → SocketFrame → Prop} (w : NodeRelay) (parse : Str → Option Json)
    (choice : SendChoice) (number : ℕ) (failed : Bool) (now : ℤ)
    (h : ∀ f rows, w.flights.get? number = some f → f.rest = some rows →
      ∀ row ∈ rows, F f.socket row.frame) :
    w.complete parse choice number failed now = w ∨
      Quiet F (fun _ => False) { w with flights := w.flights.erase number }
        (w.complete parse choice number failed now) := by
  unfold complete
  split
  · exact .inl rfl
  · rename_i flight hflight
    refine .inr ?_
    dsimp only
    split
    · exact .refl _
    · rename_i rows hrows
      split_ifs
      · exact .refl _
      · exact replay_quiet _ parse choice flight.socket rows now (h flight rows hflight hrows)

theorem card?_complete (w : NodeRelay) (parse : Str → Option Json) (choice : SendChoice)
    (number : ℕ) (failed : Bool) (now : ℤ) (id : ℕ) :
    (w.complete parse choice number failed now).card? id = w.card? id := by
  rcases complete_quiet (F := fun _ _ => True) w parse choice number failed now
    fun _ _ _ _ _ _ => trivial with h | h
  · rw [h]
  · exact h.cards id

theorem card?_offerTo (w : NodeRelay) (cfg : NodeConfig) (id : ℕ) (now : ℤ) (id' : ℕ) :
    (w.offerTo cfg id now).card? id' = w.card? id' := by
  unfold offerTo
  split
  · rfl
  · rename_i s hs
    dsimp only
    split_ifs
    · rw [card?_foldl_record, card?_setSocket]
      split_ifs with h
      · rw [h, card?, hs]
        rfl
      · rfl
    · rfl

theorem flights_foldl_record {α : Type*} (f : α → NodeEvent) :
    ∀ (l : List α) (w : NodeRelay), (l.foldl (fun w a => w.record (f a)) w).flights = w.flights
  | [], _ => rfl
  | _ :: l, _ => (flights_foldl_record f l _).trans rfl

theorem opened_foldl_record {α : Type*} (f : α → NodeEvent) (id : ℕ) :
    ∀ (l : List α) (w : NodeRelay),
      (l.foldl (fun w a => w.record (f a)) w).opened id = w.opened id
  | [], _ => rfl
  | _ :: l, _ => (opened_foldl_record f id l _).trans rfl

/-- An offer leaves everything but the jobs, the offers of the socket and the trace. -/
theorem offerTo_kept (w : NodeRelay) (cfg : NodeConfig) (id : ℕ) (now : ℤ) :
    (w.offerTo cfg id now).disk.store = w.disk.store ∧
      (w.offerTo cfg id now).disk.retained = w.disk.retained ∧
      (w.offerTo cfg id now).flights = w.flights ∧
      ∀ id', (w.offerTo cfg id now).opened id' = w.opened id' := by
  unfold offerTo
  split
  · exact ⟨rfl, rfl, rfl, fun _ => rfl⟩
  · rename_i s hs
    dsimp only
    split_ifs
    · rw [disk_foldl_record, flights_foldl_record]
      refine ⟨rfl, rfl, rfl, fun id' => ?_⟩
      rw [opened_foldl_record, opened_setSocket]
      split_ifs with h
      · rw [h, opened, hs]
        rfl
      · rfl
    · exact ⟨rfl, rfl, rfl, fun _ => rfl⟩

theorem Act.card (h : Act cfg i w₀ w w') (id : ℕ) : CardAct cfg i w₀ w w' id (w.card? id) (w'.card? id) := by
  cases h with
  | quiet h => exact .of_eq (h.cards id)
  | policy id' token envelope => exact .of_eq ((closeForPolicy_settles ..).cards id)
  | renew id' s raw frame authority current next hlabel hparsed htype hcard hcommercial hauthority
      hread hcurrent hrenewable =>
    change CardAct cfg i w₀ w _ id (w.card? id) ((w.update id' _).card? id)
    rw [card?_update w id' hcard fun t ht => by
      simp only [NodeSocket.card, SocketCard.mk.injEq] at ht ⊢
      simp only [ht, and_self]]
    split_ifs with h
    · rw [h, hcard]
      exact .renewed hlabel hparsed htype hauthority hread hcurrent hrenewable
    · exact .same _
  | register id' s role raw envelope h hrole hstart =>
    have hcards := (registerRole_quiet (F := fun _ _ => True) (P := fun _ => True) w cfg
      i.choice.toSendChoice id' s role envelope i.now fun _ _ => trivial).cards id
    rw [hcards]
    change CardAct cfg i w₀ w _ id (w.card? id) ((w.update id' _).card? id)
    rw [card?_update w id' h.card fun t ht => card_registered ht role envelope]
    split_ifs with hid
    · subst hid
      rw [h.card]
      exact .registered h hrole hstart rfl
    · exact .same _
  | accept => exact .same _
  | retain => exact .same _
  | enqueue id' s role raw envelope h hrole haccepted =>
    exact .of_eq ((enqueueEnvelope_settles ..).1.cards id)
  | acknowledge id' s raw frame deliveryId =>
    unfold acknowledgeFrame
    split
    · exact .same _
    · exact .same _
  | complete number failed => exact .of_eq (card?_complete ..)
  | opens id' q hfresh =>
    rw [card?_setSocket]
    split_ifs with hid
    · rw [hid, card?, hfresh]
      exact .opened q
    · exact .same _
  | closed id' hlabel =>
    unfold update
    split
    · exact .same _
    · rename_i t ht
      rw [card?_setSocket]
      split_ifs with hid
      · rw [hid, card?, show w.sockets.get? id' = some t from ht]
        refine .left t.card ?_
        rw [opened_setSocket, if_pos rfl]
      · exact .same _
  | offer id' => exact .of_eq (card?_offerTo ..)
  | tables => exact .same _
  | restart =>
    unfold card? NodeRelay.restart
    dsimp only
    rw [Table.get?_map]
    cases hs : w.sockets.get? id with
    | none => exact .same _
    | some t =>
      refine .left t.card ?_
      unfold NodeRelay.opened
      dsimp only
      rw [Table.get?_map, hs]
      rfl

/-- What a socket is known by does not change. -/
structure SameSocket (c c' : SocketCard) : Prop where
  room : c'.room = c.room
  key : c'.recipientKeyId = c.recipientKeyId
  role : ∀ role, c.role = some role → c'.role = some role

theorem SameSocket.refl (c : SocketCard) : SameSocket c c := ⟨rfl, rfl, fun _ h => h⟩

theorem SameSocket.trans {c c' c'' : SocketCard} (h : SameSocket c c') (h' : SameSocket c' c'') :
    SameSocket c c'' :=
  ⟨h'.room.trans h.room, h'.key.trans h.key, fun role hrole => h'.role role (h.role role hrole)⟩

/-- A socket stays, and what routing knows of it is settled. -/
theorem Act.known (h : Act cfg i w₀ w w') {c : SocketCard} (hc : w.card? id = some c) :
    ∃ c', w'.card? id = some c' ∧ SameSocket c c' := by
  have hcard := h.card id
  rw [hc] at hcard
  generalize NodeRelay.card? _ id = x at hcard
  cases hcard with
  | same => exact ⟨c, rfl, .refl c⟩
  | @registered s _ _ _ _ hnone =>
    refine ⟨_, rfl, rfl, rfl, fun role hrole => ?_⟩
    exact absurd (hnone.symm.trans hrole) (Option.some_ne_none _).symm
  | renewed => exact ⟨_, rfl, rfl, rfl, fun _ h => h⟩
  | left => exact ⟨_, rfl, rfl, rfl, fun _ h => h⟩

/-! ## Tables -/

/-- The operation of the store in an act, and the event of an acknowledgement. -/
inductive Mailed (cfg : NodeConfig) (i : NodeInput) (w w' : NodeRelay) : Prop
  | same (h : ∀ room role, w'.disk.store.rows room role = w.disk.store.rows room role)
  | read (room : Str) (role : Role) (h : w'.disk.store = (w.disk.store.queue room role i.now).1)
  | enqueue {id : ℕ} {s : NodeSocket} {role dest : Role} {raw deliveryId : Str} {envelope : Json}
      (h : Passed cfg i w id s role raw envelope)
      (haccepted : NodeEvent.accepted id s raw envelope i.now ∈ w.trace)
      (hto : roleOf? (envelope.get (lit "to")) = some dest)
      (hid : deliveryId? envelope = some deliveryId)
      (hstore : w'.disk.store = (w.disk.store.enqueue s.room dest raw (some deliveryId)
        (envelope.get (lit "expiresAt")).int? i.now).1)
  | acknowledge {id : ℕ} {s : NodeSocket} {role : Role} {raw deliveryId : Str} {frame : Json}
      (hlabel : i.label = .message id raw) (hparsed : cfg.parse raw = some frame)
      (hack : relayAck? frame = some deliveryId) (hcard : w.card? id = some s.card)
      (hrole : s.role = some role)
      (hstore : w'.disk.store = w.disk.store.acknowledge s.room role deliveryId i.now)
      (htrace : w'.trace = w.trace ++ [.acknowledged id deliveryId])

theorem Act.mailed (h : Act cfg i w₀ w w') : Mailed cfg i w w' := by
  have hsame (hstore : w'.disk.store = w.disk.store) : Mailed cfg i w w' :=
    .same fun room role => congrArg (RelayStore.rows · room role) hstore
  cases h with
  | quiet h => exact hsame h.store
  | policy id' token envelope =>
    exact hsame (closeForPolicy_quiet (F := fun _ _ => True) (P := fun _ => True) w cfg.limits id'
      token envelope i.now trivial).store
  | renew id' => exact hsame (congrArg (·.store) (disk_update w id' _))
  | register id' s role raw envelope h hrole hstart =>
    exact .read s.room role (registerRole_quiet (F := fun _ _ => True) (P := fun _ => True) w cfg
      i.choice.toSendChoice id' s role envelope i.now fun _ _ => trivial).store
  | accept => exact hsame rfl
  | retain => exact hsame rfl
  | enqueue id' s role raw envelope h hrole haccepted =>
    rcases (enqueueEnvelope_settles w cfg i.choice id' s raw envelope i.now).2 with
      hstore | ⟨dest, deliveryId, hto, hid, hstore | hstore⟩
    · exact hsame hstore
    · exact .read s.room dest hstore
    · exact .enqueue h haccepted hto hid hstore
  | acknowledge id' s raw frame deliveryId hlabel hparsed hack hcard =>
    cases hrole : s.role with
    | none =>
      refine hsame ?_
      unfold acknowledgeFrame
      rw [hrole]
    | some role =>
      have hframe : w.acknowledgeFrame id' s deliveryId i.now = ({ w with disk := { w.disk with
          store := w.disk.store.acknowledge s.room role deliveryId i.now } }).record
            (.acknowledged id' deliveryId) := by
        unfold acknowledgeFrame
        rw [hrole]
      exact .acknowledge hlabel hparsed hack hcard hrole (congrArg (·.disk.store) hframe)
        (congrArg (·.trace) hframe)
  | complete number failed =>
    rcases complete_quiet (F := fun _ _ => True) w cfg.parse i.choice.toSendChoice number failed
      i.now fun _ _ _ _ _ _ => trivial with h | h
    · refine hsame ?_
      rw [h]
    · exact hsame h.store
  | opens => exact hsame rfl
  | closed id' => exact hsame (congrArg (·.store) (disk_update _ id' _))
  | offer id' => exact hsame (offerTo_kept ..).1
  | tables disk hrows => exact .same hrows
  | restart => exact hsame rfl

theorem Act.mail (h : Act cfg i w₀ w w') : MailAct cfg i w w'.disk.store := by
  cases h.mailed with
  | same h => exact .same h
  | read room role h => exact h ▸ .read room role
  | enqueue h haccepted hto hid hstore => exact hstore ▸ .enqueue h haccepted hto hid
  | acknowledge hlabel hparsed hack hcard hrole hstore =>
    exact hstore ▸ .acknowledge hlabel hparsed hack hcard hrole

/-- How an act changes retained state. -/
inductive StatesAct (cfg : NodeConfig) (i : NodeInput) (w : NodeRelay) : NodeStates → Prop
  | same : StatesAct cfg i w w.disk.retained
  | purge (hlabel : i.label = .cleanUp) : StatesAct cfg i w (w.disk.retained.purge i.now)
  | put {id : ℕ} {s : NodeSocket} {role : Role} {raw : Str} {envelope : Json}
      {activity : List PresenceRow} {retained : NodeStates}
      (h : Passed cfg i w id s role raw envelope) (hrole : s.role = some role)
      (haccepted : NodeEvent.accepted id s raw envelope i.now ∈ w.trace)
      (hput : w.disk.retained.put s.room envelope raw i.now activity = .ok retained) :
      StatesAct cfg i w retained

theorem StatesAct.of_eq {retained : NodeStates} (h : retained = w.disk.retained) :
    StatesAct cfg i w retained := h ▸ .same

theorem Act.states (h : Act cfg i w₀ w w') : StatesAct cfg i w w'.disk.retained := by
  cases h with
  | quiet h => exact .of_eq h.retained
  | policy id' token envelope => exact .of_eq (closeForPolicy_settles ..).retained
  | renew id' => exact .of_eq (congrArg (·.retained) (disk_update w id' _))
  | register id' s role raw envelope h hrole hstart =>
    have hquiet := registerRole_quiet (F := fun _ _ => True) (P := fun _ => True) w cfg
      i.choice.toSendChoice id' s role envelope i.now fun _ _ => trivial
    exact .of_eq (hquiet.retained.trans (congrArg (·.retained) (disk_update w id' _)))
  | accept => exact .same
  | retain id' s role raw envelope activity retained h hrole haccepted hput =>
    exact .put h hrole haccepted hput
  | enqueue => exact .of_eq (enqueueEnvelope_settles ..).1.retained
  | acknowledge id' s raw frame deliveryId hlabel hparsed hack hcard =>
    unfold acknowledgeFrame
    split
    · exact .same
    · exact .same
  | complete number failed =>
    rcases complete_quiet (F := fun _ _ => True) w cfg.parse i.choice.toSendChoice number failed
      i.now fun _ _ _ _ _ _ => trivial with h | h
    · rw [h]
      exact .same
    · exact .of_eq h.retained
  | opens => exact .same
  | closed id' => exact .of_eq (congrArg (·.retained) (disk_update _ id' _))
  | offer id' => exact .of_eq (offerTo_kept ..).2.1
  | tables disk hrows hretained =>
    rcases hretained with h | ⟨hlabel, h⟩
    · exact .of_eq h
    · dsimp only
      rw [h]
      exact .purge hlabel
  | restart => exact .same

/-! ## Flights -/

/-- A flight of a step that sends no rows. -/
theorem Settles.waiting (h : Settles w w') {n : ℕ} {f : Flight}
    (hf : w'.flights.get? n = some f) {rows : List ReplayRow} (hrest : f.rest = some rows)
    {row : ReplayRow} (hrow : row ∈ rows) : Sent cfg i w w' f.socket row.frame := by
  rcases h.flights n f hf with hold | hnew
  · exact .waiting n f rows row hold rfl hrest hrow
  · rw [hnew.2 rows hrest] at hrow
    cases hrow

/-- **The rows that wait** waited before, or their socket registers its role. -/
theorem Act.waiting (h : Act cfg i w₀ w w') {n : ℕ} {f : Flight} (hf : w'.flights.get? n = some f)
    {rows : List ReplayRow} (hrest : f.rest = some rows) {row : ReplayRow} (hrow : row ∈ rows) :
    Sent cfg i w w' f.socket row.frame := by
  have hsame (hflight : w.flights.get? n = some f) : Sent cfg i w w' f.socket row.frame :=
    .waiting n f rows row hflight rfl hrest hrow
  cases h with
  | quiet h => exact (h.settles fun _ => not_notice_frame).waiting hf hrest hrow
  | policy id' token envelope => exact (closeForPolicy_settles ..).waiting hf hrest hrow
  | renew id' =>
    change (w.update id' _).flights.get? n = some f at hf
    exact hsame (flights_update w id' _ ▸ hf)
  | register id' s role raw envelope h hrole hstart =>
    have hquiet := registerRole_quiet (P := fun _ => False)
      (F := fun target frame => target = id' ∧ ∃ row ∈ w.replayRows cfg.parse s role i.now,
        frame = row.frame) w cfg i.choice.toSendChoice id' s role envelope i.now
      fun row hrow => ⟨rfl, row, replayRows_update w id' _ cfg.parse s role i.now ▸ hrow, rfl⟩
    rcases hquiet.flights n f hf with hold | hnew
    · exact hsame (flights_update w id' _ ▸ hold)
    · obtain ⟨hsocket, row', hrow', he⟩ := hnew.2 rows hrest row hrow
      rw [hsocket, he]
      exact .registered s role raw envelope row' h hrole hrow' (card?_registerRole h)
  | accept => exact hsame hf
  | retain => exact hsame hf
  | enqueue => exact (enqueueEnvelope_settles ..).1.waiting hf hrest hrow
  | acknowledge id' s raw frame deliveryId =>
    unfold acknowledgeFrame at hf
    split at hf
    · exact hsame hf
    · exact hsame hf
  | complete number failed =>
    rcases complete_quiet (F := fun target frame => ∃ f rows, w.flights.get? number = some f ∧
      f.rest = some rows ∧ f.socket = target ∧ ∃ row ∈ rows, frame = row.frame) w cfg.parse
      i.choice.toSendChoice number failed i.now
      (fun f rows hf hrows row hrow => ⟨f, rows, hf, hrows, rfl, row, hrow, rfl⟩) with h | h
    · exact hsame (h ▸ hf)
    · rcases h.flights n f hf with hold | hnew
      · rw [Table.get?_erase] at hold
        split_ifs at hold
        exact hsame hold
      · obtain ⟨f', rows', hf', hrows', hsocket, row', hrow', he⟩ := hnew.2 rows hrest row hrow
        rw [he]
        exact .waiting number f' rows' row' hf' hsocket hrows' hrow'
  | opens => exact hsame hf
  | closed id' =>
    rw [flights_update, Table.get?_filter, Option.filter_eq_some_iff] at hf
    exact hsame hf.1
  | offer id' => exact hsame ((offerTo_kept ..).2.2.1 ▸ hf)
  | tables => exact hsame hf
  | restart => cases hf

/-- A flight that a step found under way goes on, ends by its completion, or its socket is not open
any more. -/
theorem Act.kept (h : Act cfg i w₀ w w') {n : ℕ} {f : Flight} (hn : n ≤ w.trace.length)
    (hf : w.flights.get? n = some f) :
    w'.flights.get? n = some f ∨ w'.opened f.socket = false ∨
      ∃ failed, i.label = .complete n failed := by
  cases h with
  | quiet h => exact .inl (h.kept n f hn hf)
  | policy id' token envelope => exact .inl ((closeForPolicy_settles ..).kept n f hn hf)
  | renew id' =>
    exact .inl ((congrArg (·.get? n) (flights_update w id' _)).trans hf)
  | register id' s role raw envelope h hrole hstart =>
    have hquiet := registerRole_quiet (F := fun _ _ => True) (P := fun _ => True) w cfg
      i.choice.toSendChoice id' s role envelope i.now fun _ _ => trivial
    refine .inl (hquiet.kept n f ?_ ((congrArg (·.get? n) (flights_update w id' _)).trans hf))
    exact hn.trans (congrArg List.length (trace_update w id' _)).ge
  | accept => exact .inl hf
  | retain => exact .inl hf
  | enqueue => exact .inl ((enqueueEnvelope_settles ..).1.kept n f hn hf)
  | acknowledge id' s raw frame deliveryId =>
    refine .inl ?_
    unfold acknowledgeFrame
    split
    · exact hf
    · exact hf
  | complete number failed hlabel =>
    by_cases hnumber : n = number
    · exact .inr (.inr ⟨failed, hnumber ▸ hlabel⟩)
    · rcases complete_quiet (F := fun _ _ => True) w cfg.parse i.choice.toSendChoice number failed
        i.now fun _ _ _ _ _ _ => trivial with h | h
      · rw [h]
        exact .inl hf
      · refine .inl (h.kept n f hn ?_)
        rw [Table.get?_erase, if_neg hnumber]
        exact hf
  | opens => exact .inl hf
  | closed id' =>
    by_cases hsocket : f.socket = id'
    · refine .inr (.inl ?_)
      rw [hsocket]
      unfold update
      split
      · rename_i hs
        rw [opened, hs]
        rfl
      · rw [opened_setSocket, if_pos rfl]
    · refine .inl ?_
      rw [flights_update, Table.get?_filter, hf]
      simp [hsocket]
  | offer id' => exact .inl ((congrArg (·.get? n) (offerTo_kept ..).2.2.1).trans hf)
  | tables => exact .inl hf
  | restart =>
    refine .inr (.inl ?_)
    unfold opened NodeRelay.restart
    dsimp only
    rw [Table.get?_map]
    cases w.sockets.get? f.socket <;> rfl

/-- The flights have numbers up to the length of the trace, so a new one has a new number. -/
def Numbered (w : NodeRelay) : Prop := ∀ n f, w.flights.get? n = some f → n ≤ w.trace.length

theorem Act.grows (h : Act cfg i w₀ w w') : w.trace.length ≤ w'.trace.length := by
  obtain ⟨new, hnew, -⟩ := h.happens
  rw [hnew, List.length_append]
  exact Nat.le_add_right _ _

theorem Act.numbered (h : Act cfg i w₀ w w') (hw : Numbered w) : Numbered w' := by
  have hgrows := h.grows
  intro n f hf
  have hsame (hflight : w.flights.get? n = some f) : n ≤ w'.trace.length :=
    (hw n f hflight).trans hgrows
  cases h with
  | quiet h => exact (h.flights n f hf).elim hsame fun hnew => hnew.1
  | policy id' token envelope =>
    exact ((closeForPolicy_settles ..).flights n f hf).elim hsame fun hnew => hnew.1
  | renew id' => exact hsame ((congrArg (·.get? n) (flights_update w id' _)).symm.trans hf)
  | register id' s role raw envelope h hrole hstart =>
    have hquiet := registerRole_quiet (F := fun _ _ => True) (P := fun _ => True) w cfg
      i.choice.toSendChoice id' s role envelope i.now fun _ _ => trivial
    exact (hquiet.flights n f hf).elim (fun hold => hsame
      ((congrArg (·.get? n) (flights_update w id' _)).symm.trans hold)) fun hnew => hnew.1
  | accept => exact hsame hf
  | retain => exact hsame hf
  | enqueue => exact ((enqueueEnvelope_settles ..).1.flights n f hf).elim hsame fun hnew => hnew.1
  | acknowledge id' s raw frame deliveryId =>
    unfold acknowledgeFrame at hf
    split at hf
    · exact hsame hf
    · exact hsame hf
  | complete number failed =>
    rcases complete_quiet (F := fun _ _ => True) w cfg.parse i.choice.toSendChoice number failed
      i.now fun _ _ _ _ _ _ => trivial with h | h
    · exact hsame (h ▸ hf)
    · refine (h.flights n f hf).elim (fun hold => ?_) fun hnew => hnew.1
      rw [Table.get?_erase] at hold
      split_ifs at hold
      exact hsame hold
  | opens => exact hsame hf
  | closed id' =>
    rw [flights_update, Table.get?_filter, Option.filter_eq_some_iff] at hf
    exact hsame hf.1
  | offer id' => exact hsame ((congrArg (·.get? n) (offerTo_kept ..).2.2.1).symm.trans hf)
  | tables => exact hsame hf
  | restart => cases hf

/-! ## Open sockets -/

theorem opened_update (w : NodeRelay) (id : ℕ) {f : NodeSocket → NodeSocket}
    (hf : ∀ s, (f s).isOpen = true → s.isOpen = true) {id' : ℕ}
    (h : (w.update id f).opened id' = true) : w.opened id' = true := by
  unfold update at h
  split at h
  · exact h
  · rename_i s hs
    rw [opened_setSocket] at h
    split_ifs at h with heq
    · rw [heq, opened, hs]
      exact hf s h
    · exact h

/-- A socket opens when it connects only. -/
theorem Act.opened (h : Act cfg i w₀ w w') {id : ℕ} (hopen : w'.opened id = true) :
    w.opened id = true ∨ w.card? id = none := by
  cases h with
  | quiet h => exact .inl (h.opened id hopen)
  | policy => exact .inl ((closeForPolicy_settles ..).opened id hopen)
  | renew id' s raw frame authority current next =>
    exact .inl (opened_update (f := fun s => { s with ticket := some next }) w id' (fun _ h => h)
      hopen)
  | register id' s role raw envelope h hrole hstart =>
    have hquiet := registerRole_quiet (F := fun _ _ => True) (P := fun _ => True) w cfg
      i.choice.toSendChoice id' s role envelope i.now fun _ _ => trivial
    exact .inl (opened_update (f := fun s => registered s role envelope) w id' (fun _ h => h)
      (hquiet.opened id hopen))
  | accept => exact .inl hopen
  | retain => exact .inl hopen
  | enqueue => exact .inl ((enqueueEnvelope_settles ..).1.opened id hopen)
  | acknowledge id' s raw frame deliveryId =>
    unfold acknowledgeFrame at hopen
    split at hopen
    · exact .inl hopen
    · exact .inl hopen
  | complete number failed =>
    rcases complete_quiet (F := fun _ _ => True) w cfg.parse i.choice.toSendChoice number failed
      i.now fun _ _ _ _ _ _ => trivial with h | h
    · exact .inl (h ▸ hopen)
    · exact .inl (h.opened id hopen)
  | opens id' q hfresh =>
    rw [opened_setSocket] at hopen
    split_ifs at hopen with heq
    · exact .inr (by rw [card?, heq, hfresh]; rfl)
    · exact .inl hopen
  | closed id' =>
    exact .inl (opened_update (f := fun s => { s with isOpen := false, joined := false })
      { w with flights := w.flights.filter fun _ f => f.socket ≠ id' } id'
      (fun _ h => absurd h Bool.false_ne_true) hopen)
  | offer id' => exact .inl ((offerTo_kept ..).2.2.2 id ▸ hopen)
  | tables => exact .inl hopen
  | restart =>
    unfold NodeRelay.opened NodeRelay.restart at hopen
    dsimp only at hopen
    rw [Table.get?_map] at hopen
    cases hs : w.sockets.get? id with
    | none => rw [hs] at hopen; cases hopen
    | some s => rw [hs] at hopen; cases hopen

/-- An open socket is a member of its room. -/
def OpenJoined (w : NodeRelay) : Prop :=
  ∀ id c, w.opened id = true → w.card? id = some c → c.joined = true

theorem Act.openJoined (h : Act cfg i w₀ w w') (hw : OpenJoined w) : OpenJoined w' := by
  intro id c hopen hc
  have hcard := h.card id
  have hold : ∀ c, w.card? id = some c → c.joined = true := fun c hc =>
    hw id c ((h.opened hopen).resolve_right fun hnone => by rw [hnone] at hc; cases hc) hc
  rw [hc] at hcard
  generalize w.card? id = x at hcard hold
  cases hcard with
  | same => exact hold c rfl
  | opened q => rfl
  | @registered s => exact hold s.card rfl
  | @renewed s => exact hold s.card rfl
  | left c hshut => exact absurd hopen (by rw [hshut]; exact Bool.false_ne_true)

/-! ## Sequences of acts -/

theorem mem_since_mono {e : NodeEvent} (h : w.trace <+: w'.trace) (h' : w'.trace <+: w''.trace)
    (he : e ∈ w.since w') : e ∈ w.since w'' := by
  obtain ⟨new, hnew⟩ := h'
  unfold since at he ⊢
  rw [← hnew, List.drop_append_of_le_length h.length_le]
  exact List.mem_append_left _ he

theorem mem_since_later {e : NodeEvent} (h : w.trace <+: w'.trace) (he : e ∈ w'.since w'') :
    e ∈ w.since w'' := by
  obtain ⟨new, hnew⟩ := h
  unfold since at he ⊢
  rw [← hnew, List.length_append, ← List.drop_drop] at he
  exact List.mem_of_mem_drop he

theorem Acts.grew (h : Acts cfg i w₀ w w') : w.trace <+: w'.trace := by
  obtain ⟨new, hnew, -⟩ := Acts.happens h
  exact ⟨new, hnew.symm⟩

theorem Acts.known (h : Acts cfg i w₀ w w') {c : SocketCard} (hc : w.card? id = some c) :
    ∃ c', w'.card? id = some c' ∧ SameSocket c c' := by
  induction h with
  | refl => exact ⟨c, hc, .refl c⟩
  | tail _ hact ih =>
    obtain ⟨c', hc', hsame⟩ := ih
    obtain ⟨c'', hc'', hsame'⟩ := hact.known hc'
    exact ⟨c'', hc'', hsame.trans hsame'⟩

end NodeRelay

end GrantTap
