import GrantTapRelay.Node.Messages
import Mathlib.Logic.Relation

/-!
# What the Node relay can do

The handlers of the Node relay taken apart, once. An `Act` is a stretch of a handler that changes
one thing, with what the handler has checked before it; `next_acts` says that every event is a
sequence of acts.

* `Passed` are the checks that an envelope has passed before the relay takes it.
* `Act.quiet` covers the notices, closes and counters, in the sense of `Quiet`.
* `Act.register`, `Act.accept`, `Act.retain` and `Act.enqueue` are the stages of an envelope.
-/

namespace GrantTap

open Js Relation

namespace NodeRelay

/-! ## Stages -/

/-- A control frame that is no receipt. -/
def Notice : SocketFrame → Prop
  | .control (.stored _) => False
  | .control _ => True
  | _ => False

theorem not_notice_frame (row : ReplayRow) : ¬Notice row.frame := by
  rcases row.frame_cases with h | h
  · exact h ▸ not_false
  · exact h ▸ not_false

/-- Sends of notices, closes that strike nobody, and changes that no claim reads. -/
abbrev Still : NodeRelay → NodeRelay → Prop := Quiet (fun _ => Notice) fun _ => False

/-- The checks that the envelope of a message has passed. -/
structure Passed (cfg : NodeConfig) (i : NodeInput) (w : NodeRelay) (id : ℕ) (s : NodeSocket)
    (role : Role) (raw : Str) (envelope : Json) : Prop where
  label : i.label = .message id raw
  parsed : cfg.parse raw = some envelope
  ordinary : (envelope.get (lit "type")).is (lit "relay.admission") = false
  unacknowledging : relayAck? envelope = none
  valid : envelopeProblem (some envelope) (some (.str s.room)) i.now none = .ok none
  sender : roleOf? (envelope.get (lit "from")) = some role
  kind : s.commercial = true → ∀ t, s.ticket = some t → t.kind.role = role
  lease : s.commercial = true → role = .machine → admittedSocket s.ticket i.now = true
  card : w.card? id = some s.card

variable {cfg : NodeConfig} {i : NodeInput} {w₀ w w' : NodeRelay} {id : ℕ} {s : NodeSocket}
  {role : Role} {raw : Str} {envelope : Json}

theorem Passed.of_cards (h : Passed cfg i w id s role raw envelope)
    (hcards : ∀ id, w'.card? id = w.card? id) : Passed cfg i w' id s role raw envelope :=
  { h with card := (hcards id).trans h.card }

/-- One stretch of a handler, which found the relay in `w₀`. -/
inductive Act (cfg : NodeConfig) (i : NodeInput) (w₀ : NodeRelay) : NodeRelay → NodeRelay → Prop
  | quiet {w w' : NodeRelay} (h : Still w w') : Act cfg i w₀ w w'
  | policy (w : NodeRelay) (id : ℕ) (token : CloseToken) (envelope : Value) :
      Act cfg i w₀ w (w.closeForPolicy cfg.limits id token envelope i.now)
  | renew (w : NodeRelay) (id : ℕ) (s : NodeSocket) (raw : Str) (frame : Json)
      (authority : TicketAuthority) (current next : ManagedTicket)
      (hlabel : i.label = .message id raw) (hparsed : cfg.parse raw = some frame)
      (htype : (frame.get (lit "type")).is (lit "relay.admission") = true)
      (hcard : w.card? id = some s.card) (hcommercial : s.commercial = true)
      (hauthority : cfg.admission = some authority)
      (hread : readManagedTicket authority (frame.get (lit "ticket")) s.room i.now = some next)
      (hcurrent : s.ticket = some current) (hrenewable : renewable s current next = true) :
      Act cfg i w₀ w
        ((w.update id fun s => { s with ticket := some next }).record (.renewed id current next))
  | register (w : NodeRelay) (id : ℕ) (s : NodeSocket) (role : Role) (raw : Str) (envelope : Json)
      (h : Passed cfg i w id s role raw envelope) (hrole : s.role = none) (hstart : Still w₀ w) :
      Act cfg i w₀ w (w.registerRole cfg i.choice.toSendChoice id s role envelope i.now)
  | accept (w : NodeRelay) (id : ℕ) (s : NodeSocket) (role : Role) (raw : Str) (envelope : Json)
      (h : Passed cfg i w id s role raw envelope) (hrole : s.role = some role) :
      Act cfg i w₀ w (w.record (.accepted id s raw envelope i.now))
  | retain (w : NodeRelay) (id : ℕ) (s : NodeSocket) (role : Role) (raw : Str) (envelope : Json)
      (activity : List PresenceRow) (retained : NodeStates)
      (h : Passed cfg i w id s role raw envelope) (hrole : s.role = some role)
      (haccepted : NodeEvent.accepted id s raw envelope i.now ∈ w.trace)
      (hput : w.disk.retained.put s.room envelope raw i.now activity = .ok retained) :
      Act cfg i w₀ w { w with disk := { w.disk with retained := retained } }
  | enqueue (w : NodeRelay) (id : ℕ) (s : NodeSocket) (role : Role) (raw : Str) (envelope : Json)
      (h : Passed cfg i w id s role raw envelope) (hrole : s.role = some role)
      (haccepted : NodeEvent.accepted id s raw envelope i.now ∈ w.trace) :
      Act cfg i w₀ w (w.enqueueEnvelope cfg i.choice id s raw envelope i.now)
  | acknowledge (w : NodeRelay) (id : ℕ) (s : NodeSocket) (raw : Str) (frame : Json)
      (deliveryId : Str) (hlabel : i.label = .message id raw) (hparsed : cfg.parse raw = some frame)
      (hack : relayAck? frame = some deliveryId) (hcard : w.card? id = some s.card) :
      Act cfg i w₀ w (w.acknowledgeFrame id s deliveryId i.now)
  | complete (w : NodeRelay) (number : ℕ) (failed : Bool)
      (hlabel : i.label = .complete number failed) :
      Act cfg i w₀ w (w.complete cfg.parse i.choice.toSendChoice number failed i.now)
  | opens (w : NodeRelay) (id : ℕ) (q : NodeUpgrade) (hfresh : w.sockets.get? id = none) :
      Act cfg i w₀ w (w.setSocket id (newSocket cfg q (cfg.admission.bind fun authority =>
        readManagedTicket authority (q.ticketHeader.map Json.str) q.room q.checkedAt) i.now))
  | closed (w : NodeRelay) (id : ℕ) (hlabel : i.label = .closed id) :
      Act cfg i w₀ w (({ w with flights := w.flights.filter fun _ f => f.socket ≠ id }).update id
        fun s => { s with isOpen := false, joined := false })
  | offer (w : NodeRelay) (id : ℕ) : Act cfg i w₀ w (w.offerTo cfg id i.now)
  | tables (w : NodeRelay) (disk : NodeDisk)
      (hrows : ∀ room role, disk.store.rows room role = w.disk.store.rows room role)
      (hretained : disk.retained = w.disk.retained ∨
        i.label = .cleanUp ∧ disk.retained = w.disk.retained.purge i.now) : Act cfg i w₀ w { w with disk := disk }
  | restart (w : NodeRelay) : Act cfg i w₀ w w.restart

/-- A sequence of acts. -/
abbrev Acts (cfg : NodeConfig) (i : NodeInput) (w₀ : NodeRelay) :
    NodeRelay → NodeRelay → Prop := ReflTransGen (Act cfg i w₀)

theorem Acts.still (h : Still w w') : Acts cfg i w₀ w w' := .single (.quiet h)

/-! ## The handlers are sequences of acts -/

theorem setSocket_still (hs : w.card? id = some s.card)
    (hopen : s.isOpen = true → w.opened id = true) : Still w (w.setSocket id s) := by
  obtain ⟨s', hs', hcard⟩ := Option.map_eq_some_iff.1 hs
  refine setSocket_quiet hs' hcard.symm fun h => ?_
  simpa [opened, hs'] using hopen h

theorem emit_still (w : NodeRelay) (id : ℕ) {frame : ControlFrame} (h : Notice (.control frame)) :
    Still w (w.emit id frame) := emit_quiet w id frame h

theorem dropMessage_still (w : NodeRelay) (id : ℕ) (envelope : Json) (reason : DropReason) :
    Still w (w.dropMessage id envelope reason) := by
  unfold dropMessage
  split
  · exact .refl w
  · split
    · split_ifs
      · exact emit_still w id trivial
      · exact .refl w
    · exact .refl w

theorem noteIngressFrame_still (w : NodeRelay) (id : ℕ) (s : NodeSocket) :
    Still w (w.noteIngressFrame id s) := by
  have hcounted : Still w (w.update id fun t =>
      { t with ingressReceived := s.ingressReceived + 1 }) :=
    update_quiet w id (fun _ => rfl) fun _ h => h
  unfold noteIngressFrame
  dsimp only
  split_ifs
  · exact hcounted.trans (emit_still _ id trivial)
  · exact hcounted
  · exact .refl w

theorem publishNodePresence_still (w : NodeRelay) (choice : SendChoice) (room : Str) (now : ℤ) :
    Still w (w.publishNodePresence choice room now) :=
  publishNodePresence_quiet w choice room now fun _ _ _ _ => trivial

theorem refuseCooling_still (hcard : w.card? id = some s.card) (limits : CoolDownLimits)
    (envelope : Json) (now : ℤ) : Still w (w.refuseCooling limits id s envelope now).2 :=
  refuseCooling_quiet (by rw [hcard]; rfl) limits s envelope now

/-- The counters of a socket are no part of its card. -/
theorem card_countFrame (parse : Str → Option Json) (s : NodeSocket) (raw : Str) (now : ℤ) :
    (countFrame parse s raw now).2.card = s.card := by
  unfold countFrame
  dsimp only
  split_ifs <;> rfl

theorem isOpen_countFrame (parse : Str → Option Json) (s : NodeSocket) (raw : Str) (now : ℤ) :
    (countFrame parse s raw now).2.isOpen = s.isOpen := by
  unfold countFrame
  dsimp only
  split_ifs <;> rfl

theorem card_registered {s t : NodeSocket} (h : s.card = t.card) (role : Role) (envelope : Json) :
    (registered s role envelope).card = (registered t role envelope).card := by
  simp only [NodeSocket.card, SocketCard.mk.injEq] at h
  simp only [NodeSocket.card, registered, identityOf, h]

theorem noteDevice_still (w : NodeRelay) (id : ℕ) (s : NodeSocket) (now : ℤ) :
    Still w (w.noteDevice id s now) := by
  unfold noteDevice
  split_ifs
  · exact (notePresence_quiet w s.room s.role s.recipientKeyId now).trans
      (update_quiet _ id (fun _ => rfl) fun _ h => h)
  · exact .refl w

theorem retainEnvelope_acts (h : Passed cfg i w id s role raw envelope)
    (hrole : s.role = some role) :
    Acts cfg i w₀ w (w.retainEnvelope cfg i.choice id s raw envelope i.now) := by
  have haccept : Acts cfg i w₀ w (w.record (.accepted id s raw envelope i.now)) :=
    .single (.accept w id s role raw envelope h hrole)
  have hnoted := noteDevice_still (w.record (.accepted id s raw envelope i.now)) id s i.now
  have hmem := hnoted.mem_trace (List.mem_append_right w.trace (List.mem_cons_self (l := [])))
  have haccepted : Passed cfg i (w.record (.accepted id s raw envelope i.now)) id s role raw
      envelope := h.of_cards fun _ => rfl
  have hpassed := haccepted.of_cards hnoted.cards
  refine haccept.trans ((Acts.still hnoted).trans ?_)
  unfold retainEnvelope
  dsimp only
  split_ifs with hstate hfails
  · exact Acts.still (dropMessage_still _ id envelope _)
  · split
    · exact Acts.still (dropMessage_still _ id envelope _)
    · rename_i retained hput
      refine .head (.retain _ id s role raw envelope _ retained hpassed hrole hmem hput) ?_
      exact .single (.enqueue _ id s role raw envelope
        (hpassed.of_cards fun _ => rfl) hrole hmem)
  · exact .single (.enqueue _ id s role raw envelope hpassed hrole hmem)

/-- Past its new role, a registration reads the mailbox and sends. -/
theorem registerRole_quiet {F : ℕ → SocketFrame → Prop} {P : ℕ → Prop} (w : NodeRelay)
    (cfg : NodeConfig) (choice : SendChoice) (id : ℕ) (s : NodeSocket) (role : Role)
    (envelope : Json) (now : ℤ)
    (h : ∀ row ∈ (w.update id fun s => registered s role envelope).replayRows cfg.parse s role now,
      F id row.frame) :
    Quiet F P
      { w.update id fun s => registered s role envelope with
        disk := { (w.update id fun s => registered s role envelope).disk with
          store := (w.disk.store.queue s.room role now).1 } }
      (w.registerRole cfg choice id s role envelope now) := by
  have hstore : (w.update id fun s => registered s role envelope).disk = w.disk := by
    unfold update
    split <;> rfl
  unfold registerRole
  dsimp only
  rw [hstore]
  exact replay_quiet _ cfg.parse choice id _ now h

theorem card?_update (w : NodeRelay) (id : ℕ) {f : NodeSocket → NodeSocket} (hs : w.card? id = some s.card)
    (hf : ∀ t, t.card = s.card → (f t).card = (f s).card) (id' : ℕ) :
    (w.update id f).card? id' = if id' = id then some (f s).card else w.card? id' := by
  obtain ⟨t, ht, hcard⟩ := Option.map_eq_some_iff.1 hs
  unfold update
  rw [ht]
  dsimp only
  rw [card?_setSocket, hf t hcard]

theorem card?_registerRole {choice : SendChoice} (h : Passed cfg i w id s role raw envelope) :
    (w.registerRole cfg choice id s role envelope i.now).card? id =
      some (registered s role envelope).card := by
  have hcards := (registerRole_quiet (F := fun _ _ => True) (P := fun _ => True) w cfg choice id s
    role envelope i.now fun _ _ => trivial).cards id
  refine hcards.trans ?_
  refine (card?_update w id h.card (fun t ht => card_registered ht role envelope) id).trans ?_
  rw [if_pos rfl]

theorem Passed.register (h : Passed cfg i w id s role raw envelope) (choice : SendChoice) :
    Passed cfg i (w.registerRole cfg choice id s role envelope i.now) id (registered s role envelope)
      role raw envelope :=
  ⟨h.label, h.parsed, h.ordinary, h.unacknowledging, h.valid, h.sender, h.kind, h.lease, card?_registerRole h⟩

theorem acceptEnvelope_acts (hstart : Still w₀ w) (h : Passed cfg i w id s role raw envelope) :
    Acts cfg i w₀ w (w.acceptEnvelope cfg i.choice id s role raw envelope i.now) := by
  unfold acceptEnvelope
  split
  · rename_i hrole
    refine .head (.register w id s role raw envelope h hrole hstart) ?_
    have hnoted := (notePresence_quiet (F := fun _ => Notice) (P := fun _ => False)
      (w.registerRole cfg i.choice.toSendChoice id s role envelope i.now) s.room (some role)
      s.recipientKeyId i.now).trans
        (publishNodePresence_still _ i.choice.toSendChoice s.room i.now)
    have hpassed := (h.register i.choice.toSendChoice).of_cards hnoted.cards
    exact (Acts.still hnoted).trans (retainEnvelope_acts hpassed rfl)
  · split_ifs
    · rename_i current hrole hcurrent
      exact retainEnvelope_acts h (hcurrent ▸ hrole)
    · exact .refl

/-- An envelope without a problem, on its way to the checks of its socket. -/
theorem admitEnvelope_acts (hstart : Still w₀ w) (hlabel : i.label = .message id raw) 
    (hparsed : cfg.parse raw = some envelope)
    (hordinary : (envelope.get (lit "type")).is (lit "relay.admission") = false)
    (hack : relayAck? envelope = none)
    (hvalid : envelopeProblem (some envelope) (some (.str s.room)) i.now none = .ok none)
    (hsender : roleOf? (envelope.get (lit "from")) = some role) (hcard : w.card? id = some s.card) :
    Acts cfg i w₀ w (w.admitEnvelope cfg i.choice id s role raw envelope i.now) := by
  unfold admitEnvelope
  split_ifs with hkind hlease
  · exact .single (.policy w id _ _)
  · exact .single (.policy w id _ _)
  · refine acceptEnvelope_acts hstart ⟨hlabel, hparsed, hordinary, hack, hvalid, hsender,
      fun hcommercial t ht => ?_,
      fun hcommercial hrole => ?_, hcard⟩
    · simpa [hcommercial, ht] using hkind
    · simpa [hcommercial, hrole] using hlease

theorem routeEnvelope_acts (hstart : Still w₀ w) (hlabel : i.label = .message id raw) 
    (hparsed : cfg.parse raw = some envelope)
    (hordinary : (envelope.get (lit "type")).is (lit "relay.admission") = false)
    (hack : relayAck? envelope = none)
    (hvalid : envelopeProblem (some envelope) (some (.str s.room)) i.now none = .ok none)
    (hcard : w.card? id = some s.card) :
    Acts cfg i w₀ w (w.routeEnvelope cfg i.choice id s raw envelope i.now) := by
  unfold routeEnvelope
  split
  · exact .refl
  · rename_i role hsender
    have hcool := refuseCooling_still hcard cfg.limits envelope i.now
    dsimp only
    split_ifs
    · exact Acts.still hcool
    · exact (Acts.still hcool).trans
        (admitEnvelope_acts (hstart.trans hcool) hlabel hparsed hordinary hack hvalid hsender
          ((hcool.cards id).trans hcard))
    · exact admitEnvelope_acts hstart hlabel hparsed hordinary hack hvalid hsender hcard

theorem renewManagedConnection_acts (hlabel : i.label = .message id raw)
    (hparsed : cfg.parse raw = some envelope)
    (htype : (envelope.get (lit "type")).is (lit "relay.admission") = true)
    (hcard : w.card? id = some s.card) :
    Acts cfg i w₀ w (w.renewManagedConnection cfg id s envelope i.now) := by
  unfold renewManagedConnection
  dsimp only
  split_ifs with hcommercial
  · exact .refl
  · split
    · rename_i next current hnext hcurrent
      split_ifs with hrenewable
      · obtain ⟨authority, hauthority, hread⟩ := Option.bind_eq_some_iff.1 hnext
        refine .head (.renew w id s raw envelope authority current next hlabel hparsed htype
          hcard (by simpa using hcommercial) hauthority hread hcurrent hrenewable) ?_
        exact Acts.still (emit_still _ id trivial)
      · exact .single (.policy w id _ _)
    · exact .single (.policy w id _ _)

theorem handleFrame_acts (hstart : Still w₀ w) (hlabel : i.label = .message id raw)
    (hparsed : cfg.parse raw = some envelope) (hcard : w.card? id = some s.card) :
    Acts cfg i w₀ w (w.handleFrame cfg i.choice id s raw envelope i.now) := by
  have hnoted := noteIngressFrame_still w id s
  have hcard' := (hnoted.cards id).trans hcard
  unfold handleFrame
  split_ifs with htype
  · exact renewManagedConnection_acts hlabel hparsed htype hcard
  · refine (Acts.still hnoted).trans ?_
    dsimp only
    split
    · rename_i deliveryId hack
      exact .single (.acknowledge _ id s raw envelope deliveryId hlabel hparsed hack hcard')
    · rename_i hack
      split
      · exact .single (.restart _)
      · exact Acts.still (dropMessage_still _ id envelope _)
      · exact .refl
      · rename_i hvalid
        exact routeEnvelope_acts (hstart.trans hnoted) hlabel hparsed (by simpa using htype) hack
          hvalid hcard'

theorem handleSocketMessage_acts (hlabel : i.label = .message id raw) :
    Acts cfg i w w (w.handleSocketMessage cfg i.choice id raw i.now) := by
  unfold handleSocketMessage
  split
  · exact .refl
  · rename_i s hs
    have hcard : w.card? id = some s.card := by rw [card?, hs]; rfl
    have hopened : w.opened id = s.isOpen := by rw [opened, hs]; rfl
    have hcounted : Still w (w.setSocket id (countFrame cfg.parse s raw i.now).2) := by
      refine setSocket_quiet hs (card_countFrame ..) fun h => ?_
      rwa [isOpen_countFrame] at h
    have hcard' : (w.setSocket id (countFrame cfg.parse s raw i.now).2).card? id =
        some (countFrame cfg.parse s raw i.now).2.card := by
      rw [card?_setSocket, if_pos rfl]
    dsimp only
    split_ifs
    · exact .refl
    · exact .single (.policy w id _ _)
    · exact (Acts.still hcounted).tail (.policy _ id _ _)
    · refine (Acts.still hcounted).trans ?_
      split
      · exact .refl
      · rename_i envelope hparsed
        exact handleFrame_acts hcounted hlabel hparsed hcard'

theorem rows_pinAuth (store : RelayStore) (room digest : Str) (now : ℤ) (room' : Str) (role : Role) :
    (pinAuth store room digest now).rows room' role = store.rows room' role := by
  unfold pinAuth
  split
  · rename_i h
    unfold RelayStore.rows
    rw [Table.get?_put]
    split_ifs with heq
    · rw [heq, h]
      cases role <;> rfl
    · rfl
  · rename_i row h
    unfold RelayStore.rows
    rw [Table.get?_put]
    split_ifs with heq
    · rw [heq, h]
      cases role <;> rfl
    · rfl

theorem connect_acts (q : NodeUpgrade) : Acts cfg i w₀ w (w.connect cfg id q i.now) := by
  unfold connect
  dsimp only
  generalize upgradeRefusal cfg.sha256 cfg.limits _ w.coolDowns q.checkedAt = r
  have hcooled : Acts cfg i w₀ w { w with coolDowns := r.2 } := .single (.quiet (coolDowns_quiet w r.2))
  split_ifs with hrefused hcontrol
  · exact hcooled
  all_goals
    rw [not_or, Bool.not_eq_true, Bool.not_eq_true, Option.isSome_eq_false_iff,
      Option.isSome_eq_false_iff, Option.isNone_iff_eq_none, Option.isNone_iff_eq_none] at hrefused
    have hpinned : Act cfg i w₀ { w with coolDowns := r.2 } { w with
        coolDowns := r.2
        disk := { w.disk with store := pinAuth w.disk.store q.room q.digest i.now } } :=
      .tables _ { w.disk with store := pinAuth w.disk.store q.room q.digest i.now }
        (rows_pinAuth _ _ _ _) (.inl rfl)
    have hopened := (hcooled.tail hpinned).tail (.opens _ id q hrefused.2)
  · exact hopened.tail (.quiet (emit_still _ id trivial))
  · exact hopened

theorem closeNodeSocket_acts (hlabel : i.label = .closed id) :
    Acts cfg i w₀ w (w.closeNodeSocket i.choice.toSendChoice id i.now) := by
  unfold closeNodeSocket
  split
  · exact .refl
  · refine .head (.closed w id hlabel) ?_
    dsimp only
    split_ifs
    · exact Acts.still ((notePresence_quiet _ _ _ _ _).trans (publishNodePresence_still _ _ _ _))
    · exact .refl

theorem cleanUp_acts (hlabel : i.label = .cleanUp) : Acts cfg i w₀ w (w.cleanUp cfg i.now) := by
  unfold cleanUp
  split
  · exact .single (.restart w)
  · exact .single (.tables w _ (fun _ _ => rfl) (.inr ⟨hlabel, rfl⟩))

/-- **Every event is a sequence of acts.** -/
theorem next_acts (w : NodeRelay) : Acts cfg i w w (w.next cfg i) := by
  unfold next
  split
  · exact connect_acts _
  · rename_i hlabel
    exact handleSocketMessage_acts hlabel
  · rename_i hlabel
    exact .single (.complete w _ _ hlabel)
  · split_ifs
    · exact .single (.policy w _ _ _)
    · exact .refl
  · exact Acts.still (unopen_quiet w _)
  · rename_i hlabel
    exact closeNodeSocket_acts hlabel
  · exact .single (.offer w _)
  · exact .single (.tables w _ (fun _ _ => rfl) (.inl rfl))
  · exact .single (.tables w _ (rows_pinAuth _ _ _ _) (.inl rfl))
  · rename_i hlabel
    exact cleanUp_acts hlabel
  · exact .single (.restart w)

theorem Step.acts (h : Step cfg w i w') : Acts cfg i w w w' := by
  rw [show w' = w.next cfg i from h]
  exact next_acts w

end NodeRelay

end GrantTap
