import GrantTapRelay.Laws.Routing
import GrantTapRelay.Node.Changes
import GrantTapRelay.Room.Changes

/-!
# One strike per connection

A policy close strikes the identity behind its socket, and frames that were under way still arrive
after it.

* `NodeRelay.Orderly`: a socket that the Node relay closed is not open, and its handler returns at
  once; so every socket is struck once at most.
* `RoomRelay.Ignored`: the frames that a Worker room, which does not ask whether it closed the
  socket, ignores all the same.
* `one_strike`: both runtimes, the room as long as closed sockets deliver such frames only.
* `struck_twice`: a Worker socket whose buffered frames are too many is struck for each of them.
-/

namespace GrantTap

open Js Relation Runs

/-! ## The Node relay -/

/-- The socket that an event strikes. -/
def NodeEvent.struck? : NodeEvent → Option ℕ
  | .struck id _ => some id
  | _ => none

namespace NodeRelay

variable {cfg : NodeConfig} {i : NodeInput} {w₀ w w' : NodeRelay} {id : ℕ}

/-- The sockets that were struck, in order. -/
def strikes (w : NodeRelay) : List ℕ := w.trace.filterMap NodeEvent.struck?

/-- The relay has called `close` for the socket. -/
def Closed (w : NodeRelay) (id : ℕ) : Prop := ∃ close, NodeEvent.closed id close ∈ w.trace

/-- A socket that was open once. -/
def Gone (w : NodeRelay) (id : ℕ) : Prop := w.opened id = false ∧ (w.card? id).isSome

/-- A closed socket is gone, and a strike closes its socket. -/
structure Orderly (w : NodeRelay) : Prop where
  closed : ∀ id, w.Closed id → w.Gone id
  struck : ∀ id ∈ w.strikes, w.Gone id
  once : w.strikes.Nodup

/-- An event that neither strikes nor closes. -/
def Harmless (e : NodeEvent) : Prop := e.struck? = none ∧ ∀ id close, e ≠ .closed id close

theorem strikes_append {new : List NodeEvent} (h : w'.trace = w.trace ++ new) :
    w'.strikes = w.strikes ++ new.filterMap NodeEvent.struck? := by
  rw [strikes, h, List.filterMap_append, strikes]

theorem Orderly.next (hw : w.Orderly) (hgone : ∀ id, w.Gone id → w'.Gone id)
    (hclosed : ∀ id, w'.Closed id → w.Closed id ∨ w'.Gone id)
    (hstrikes : w'.strikes = w.strikes ∨
      ∃ id, w'.strikes = w.strikes ++ [id] ∧ w.opened id = true ∧ w'.Gone id) : w'.Orderly where
  closed id h := (hclosed id h).elim (fun h => hgone id (hw.closed id h)) fun h => h
  struck id h := by
    rcases hstrikes with hsame | ⟨new, hmore, -, hnew⟩
    · exact hgone id (hw.struck id (hsame ▸ h))
    · rw [hmore, List.mem_append, List.mem_singleton] at h
      rcases h with h | rfl
      · exact hgone id (hw.struck id h)
      · exact hnew
  once := by
    rcases hstrikes with hsame | ⟨new, hmore, hopen, -⟩
    · exact hsame ▸ hw.once
    · rw [hmore]
      refine hw.once.append (List.nodup_singleton new) (List.disjoint_singleton.2 fun h => ?_)
      rw [(hw.struck new h).1] at hopen
      cases hopen

theorem Orderly.of_trace {new : List NodeEvent} (hw : w.Orderly)
    (hgone : ∀ id, w.Gone id → w'.Gone id) (hnew : w'.trace = w.trace ++ new)
    (hharmless : ∀ e ∈ new, Harmless e) : w'.Orderly := by
  refine hw.next hgone (fun id h => .inl ?_) (.inl ?_)
  · obtain ⟨close, hclose⟩ := h
    rw [hnew] at hclose
    exact ⟨close, (List.mem_append.1 hclose).resolve_right fun h => (hharmless _ h).2 id close rfl⟩
  · rw [strikes_append hnew, List.filterMap_eq_nil_iff.2 fun e he => (hharmless e he).1,
      List.append_nil]

theorem Orderly.record {e : NodeEvent} (hw : w.Orderly) (he : Harmless e) :
    (w.record e).Orderly :=
  hw.of_trace (fun _ h => h) rfl fun _ h => List.mem_singleton.1 h ▸ he

theorem gone_of_kept (hcards : ∀ id, w'.card? id = w.card? id)
    (hopened : ∀ id, w'.opened id = true → w.opened id = true) (h : w.Gone id) : w'.Gone id := by
  refine ⟨?_, by rw [hcards]; exact h.2⟩
  cases hopen : w'.opened id with
  | false => rfl
  | true => exact absurd (hopened id hopen) (by rw [h.1]; exact Bool.false_ne_true)

theorem Quiet.gone {F : ℕ → SocketFrame → Prop} {P : ℕ → Prop} (h : Quiet F P w w')
    (hgone : w.Gone id) : w'.Gone id := gone_of_kept h.cards h.opened hgone

theorem Quiet.closed {F : ℕ → SocketFrame → Prop} {P : ℕ → Prop} (h : Quiet F P w w')
    (hclosed : w'.Closed id) : w.Closed id ∨ w'.Gone id := by
  obtain ⟨close, hclose⟩ := hclosed
  exact (h.closes id close hclose).imp_left fun h => ⟨close, h⟩

theorem Quiet.orderly {F : ℕ → SocketFrame → Prop} (h : Quiet F (fun _ => False) w w')
    (hw : w.Orderly) : w'.Orderly := by
  refine hw.next (fun _ => h.gone) (fun _ => h.closed) (.inl ?_)
  obtain ⟨new, hnew, hevents⟩ := h.trace
  rw [strikes_append hnew, List.filterMap_eq_nil_iff.2 fun e he => ?_, List.append_nil]
  have hevent := hevents e he
  cases e with
  | struck => exact hevent.elim
  | _ => rfl

theorem closeForPolicy_cases (w : NodeRelay) (limits : CoolDownLimits) (id : ℕ)
    (token : CloseToken) (envelope : Value) (now : ℤ) :
    w.closeForPolicy limits id token envelope now = w ∨
      w.opened id = true ∧ (w.closeForPolicy limits id token envelope now).opened id = false ∧
        ∃ (key : Option Str) (close : SocketClose),
          (w.closeForPolicy limits id token envelope now).trace =
            w.trace ++ (key.toList.map (NodeEvent.struck id) ++ [.closed id close]) := by
  unfold closeForPolicy
  split
  · exact .inl rfl
  · rename_i s hs
    dsimp only
    split_ifs with hopen
    · have hopened : w.opened id = true := by rw [opened, hs]; exact hopen
      refine .inr ⟨hopened, opened_shut _ id _, struckKey token (identityOf s envelope),
        (applyPolicyClose token (identityOf s envelope) w.coolDowns limits now).1, ?_⟩
      refine (trace_shut _ id _).trans ?_
      cases struckKey token (identityOf s envelope) with
      | none => rfl
      | some key => exact List.append_assoc _ [_] [_]
    · exact .inl rfl

/-- **A policy close** strikes a socket that was open, which is gone after it. -/
theorem closeForPolicy_orderly (hw : w.Orderly) (limits : CoolDownLimits) (id : ℕ)
    (token : CloseToken) (envelope : Value) (now : ℤ) :
    (w.closeForPolicy limits id token envelope now).Orderly := by
  have hquiet : Quiet (fun _ _ => False) (fun _ => True) w
      (w.closeForPolicy limits id token envelope now) :=
    closeForPolicy_quiet w limits id token envelope now trivial
  refine hw.next (fun _ => hquiet.gone) (fun _ => hquiet.closed) ?_
  rcases closeForPolicy_cases w limits id token envelope now with
    hsame | ⟨hopened, hshut, key, close, htrace⟩
  · exact .inl (by rw [hsame])
  · have hstrikes := strikes_append htrace
    cases key with
    | none => exact .inl (hstrikes.trans (List.append_nil _))
    | some key =>
      refine .inr ⟨id, hstrikes, hopened, hshut, ?_⟩
      rw [hquiet.cards, card?, Option.isSome_map]
      exact Option.isSome_of_any hopened

theorem Orderly.of_disk (hw : w.Orderly) (disk : NodeDisk) :
    Orderly { w with disk := disk } :=
  hw.of_trace (fun _ h => h) (List.append_nil _).symm fun _ h => absurd h List.not_mem_nil

theorem forward_orderly (hw : w.Orderly) (choice : SendChoice) (id : ℕ) (room raw : Str)
    (envelope : Json) (now : ℤ) : (w.forward choice id room raw envelope now).Orderly := by
  have hloop := (forwardLoop_quiet w choice id room raw envelope now).orderly hw
  unfold forward
  dsimp only
  split_ifs
  · exact hloop.record ⟨rfl, nofun⟩
  · exact hloop

theorem settleEnvelope_orderly (hw : w.Orderly) (cfg : NodeConfig) (choice : SendChoice) (id : ℕ)
    (s : NodeSocket) (raw : Str) (envelope : Json) (deliveryId : Str) (result : QueueResult)
    (now : ℤ) : (w.settleEnvelope cfg choice id s raw envelope deliveryId result now).Orderly := by
  unfold settleEnvelope
  split
  · exact closeForPolicy_orderly hw ..
  · exact (dropMessage_still w id envelope _).orderly hw
  · exact forward_orderly ((sendReceipt_quiet w choice id s envelope deliveryId now).orderly hw) ..

theorem enqueueEnvelope_orderly (hw : w.Orderly) (cfg : NodeConfig) (choice : NodeChoice) (id : ℕ)
    (s : NodeSocket) (raw : Str) (envelope : Json) (now : ℤ) :
    (w.enqueueEnvelope cfg choice id s raw envelope now).Orderly := by
  unfold enqueueEnvelope
  split
  · split
    · exact (dropMessage_still _ id envelope _).orderly (hw.of_disk _)
    · exact settleEnvelope_orderly ((hw.of_disk _).record ⟨rfl, by rintro _ _ ⟨⟩⟩) ..
  · exact forward_orderly hw ..

theorem gone_update {id' : ℕ} (id : ℕ) {f : NodeSocket → NodeSocket}
    (hf : ∀ s, (f s).isOpen = true → s.isOpen = true) (h : w.Gone id') :
    (w.update id f).Gone id' := by
  constructor
  · cases hopen : (w.update id f).opened id' with
    | false => rfl
    | true => exact absurd (opened_update w id hf hopen) (by rw [h.1]; exact Bool.false_ne_true)
  · unfold update
    split
    · exact h.2
    · rw [card?_setSocket]
      split_ifs
      · rfl
      · exact h.2

theorem offerTo_trace (w : NodeRelay) (cfg : NodeConfig) (id : ℕ) (now : ℤ) :
    ∃ new, (w.offerTo cfg id now).trace = w.trace ++ new ∧ ∀ e ∈ new, Harmless e := by
  have hnone : ∃ new, w.trace = w.trace ++ new ∧ ∀ e ∈ new, Harmless e :=
    ⟨[], (List.append_nil _).symm, fun _ h => absurd h List.not_mem_nil⟩
  unfold offerTo
  split
  · exact hnone
  · dsimp only
    split_ifs
    · refine ⟨_, trace_foldl_record _ _ _, fun e he => ?_⟩
      obtain ⟨job, -, rfl⟩ := List.mem_map.1 he
      exact ⟨rfl, nofun⟩
    · exact hnone

theorem Act.gone (h : Act cfg i w₀ w w') (hgone : w.Gone id) : w'.Gone id := by
  obtain ⟨c, hc⟩ := Option.isSome_iff_exists.1 hgone.2
  obtain ⟨c', hc', -⟩ := h.known hc
  refine ⟨?_, by rw [hc']; rfl⟩
  cases hopen : w'.opened id with
  | false => rfl
  | true =>
    rcases h.opened hopen with hold | hnone
    · exact absurd hold (by rw [hgone.1]; exact Bool.false_ne_true)
    · exact absurd hnone (by rw [hc]; exact Option.some_ne_none c)

/-- What every act keeps. -/
theorem Act.orderly (h : Act cfg i w₀ w w') (hw : w.Orderly) : w'.Orderly := by
  have hgone : ∀ id, w.Gone id → w'.Gone id := fun _ => h.gone
  have hsilent (htrace : w'.trace = w.trace) : w'.Orderly :=
    hw.of_trace hgone (htrace.trans (List.append_nil _).symm) fun _ h => absurd h List.not_mem_nil
  have hrecord {e : NodeEvent} (htrace : w'.trace = w.trace ++ [e]) (he : Harmless e) :
      w'.Orderly := hw.of_trace hgone htrace fun _ h => List.mem_singleton.1 h ▸ he
  cases h with
  | quiet h => exact h.orderly hw
  | policy id token envelope => exact closeForPolicy_orderly hw ..
  | renew id => exact hrecord (congrArg (· ++ [_]) (trace_update w id _)) ⟨rfl, nofun⟩
  | register id s role raw envelope h =>
    have hregistered : (w.update id fun s => registered s role envelope).Orderly :=
      hw.of_trace (fun _ => gone_update id fun _ h => h)
        ((trace_update w id _).trans (List.append_nil _).symm) fun _ h => absurd h List.not_mem_nil
    exact (registerRole_quiet (F := fun _ _ => True) w cfg i.choice.toSendChoice id s role envelope
      i.now fun _ _ => trivial).orderly (hregistered.of_disk _)
  | accept => exact hrecord rfl ⟨rfl, nofun⟩
  | retain => exact hsilent rfl
  | enqueue id s role raw envelope => exact enqueueEnvelope_orderly hw ..
  | acknowledge id s raw frame deliveryId =>
    unfold acknowledgeFrame at hsilent hrecord ⊢
    split
    · exact hw
    · exact (hw.of_disk _).record ⟨rfl, nofun⟩
  | complete number failed =>
    rcases complete_quiet (F := fun _ _ => True) w cfg.parse i.choice.toSendChoice number failed
      i.now fun _ _ _ _ _ _ => trivial with h | h
    · rw [h]
      exact hw
    · exact h.orderly (hw.of_trace (fun _ h => h) (List.append_nil _).symm fun _ h =>
        absurd h List.not_mem_nil)
  | opens => exact hsilent rfl
  | closed id => exact hsilent (trace_update _ id _)
  | offer id =>
    obtain ⟨new, htrace, hnew⟩ := offerTo_trace w cfg id i.now
    exact hw.of_trace hgone htrace hnew
  | tables => exact hsilent rfl
  | restart => exact hsilent rfl

theorem Step.orderly (h : Step cfg w i w') (hw : w.Orderly) : w'.Orderly := by
  have hacts := h.acts
  clear h
  induction hacts with
  | refl => exact hw
  | tail _ hact ih => exact hact.orderly ih

theorem orderly_empty : empty.Orderly where
  closed _ h := absurd h.choose_spec List.not_mem_nil
  struck _ h := absurd h List.not_mem_nil
  once := List.nodup_nil

theorem run_orderly {is : List NodeInput} (h : Run (Step cfg) .empty is w) : w.Orderly :=
  h.invariant (fun _ _ _ hv hstep => hstep.orderly hv) orderly_empty

/-- A socket that is not open: its frames are not looked at. -/
theorem handleSocketMessage_gone (hgone : w.Gone id) (choice : NodeChoice) (raw : Str) (now : ℤ) :
    w.handleSocketMessage cfg choice id raw now = w := by
  unfold handleSocketMessage
  split
  · rfl
  · rename_i s hs
    have hshut : s.isOpen = false := by simpa [opened, hs] using hgone.1
    rw [hshut]
    rfl

end NodeRelay

/-! ## A Worker room -/

/-- The socket that an event strikes. -/
def RoomEvent.struck? : RoomEvent → Option ℕ
  | .struck id _ => some id
  | _ => none

namespace RoomRelay

variable {cfg : RoomConfig} {i : RoomInput} {w₀ w w' : RoomRelay} {id : ℕ} {s : RoomSocket}
  {raw : Str} {envelope : Json} {now : ℤ}

/-- The sockets that were struck, in order. -/
def strikes (w : RoomRelay) : List ℕ := w.trace.filterMap RoomEvent.struck?

/-- The room has called `close` for the socket. -/
def Closed (w : RoomRelay) (id : ℕ) : Prop := ∃ close, RoomEvent.closed id close ∈ w.trace

/-! ### Frames that a closed socket may deliver -/

/-- No receipt is due for the envelope, and it is neither acknowledged nor accepted. -/
structure Unheeded (cfg : RoomConfig) (w : RoomRelay) (s : RoomSocket) (envelope : Json) (now : ℤ) :
    Prop where
  uncounted : (envelope.get (lit "type")).is (lit "relay.admission") = true ∨
    s.ingressFlow = false ∨ (s.ingressReceived + 1) % RECEIPT_EVERY ≠ 0
  unacknowledging : (relayAck? envelope).isSome → s.role = none
  unaccepted : relayAck? envelope = none →
    envelopeProblem (some envelope) (some (.str cfg.room)) now none = .ok none →
    ∀ role, roleOf? (envelope.get (lit "from")) = some role → s.role ≠ some role ∧
      (s.role = none →
        0 < (w.coolDowns.remaining cfg.limits (frameIdentity cfg s (some envelope)) false now).1)

/-- The frame is neither too large nor one too many. -/
def Admissible (s : RoomSocket) (raw : Str) (now : ℤ) : Prop :=
  utf8Length raw ≤ MAX_WEBSOCKET_MESSAGE_BYTES ∧ (acceptSocketFrame s.window now).1 = true

/-- A frame that the room ignores though it does not ask whether it closed the socket: a second
close strikes nobody, or its envelope is unheeded. -/
structure Ignored (cfg : RoomConfig) (w : RoomRelay) (id : ℕ) (s : RoomSocket) (raw : Str)
    (now : ℤ) : Prop where
  refused : ¬Admissible s raw now →
    id ∉ w.strikes ∨ struckKey .rateLimit (closeIdentity cfg s none) = none
  unheeded : Admissible s raw now → ∀ envelope, cfg.parse raw = some envelope →
    Unheeded cfg w s envelope now

/-- A step; frames of closed sockets are ignored ones. -/
def Mindful (cfg : RoomConfig) (w : RoomRelay) (i : RoomInput) (w' : RoomRelay) : Prop :=
  Step cfg w i w' ∧ ∀ id raw s, i.label = .message id raw → w.Closed id →
    w.sockets.get? id = some s → Ignored cfg w id s raw i.now

/-- An event that stores, acknowledges and forwards nothing. -/
def Inert : RoomEvent → Prop
  | .sent _ _ (.control (.dropped _ _)) _ => True
  | .closed _ _ => True
  | .struck _ _ => True
  | _ => False

/-- A step that leaves the storage as it was, and stores, acknowledges and forwards nothing. -/
structure Idle (w w' : RoomRelay) : Prop where
  disk : w'.disk = w.disk
  trace : ∃ new, w'.trace = w.trace ++ new ∧ ∀ e ∈ new, Inert e

theorem Idle.of_trace (hdisk : w'.disk = w.disk) (htrace : w'.trace = w.trace) : Idle w w' :=
  ⟨hdisk, [], htrace.trans (List.append_nil _).symm, fun _ h => absurd h List.not_mem_nil⟩

theorem strikes_append {new : List RoomEvent} (h : w'.trace = w.trace ++ new) :
    w'.strikes = w.strikes ++ new.filterMap RoomEvent.struck? := by
  rw [strikes, h, List.filterMap_append, strikes]

theorem strikes_of_trace (h : w'.trace = w.trace) : w'.strikes = w.strikes := by
  rw [strikes, h, strikes]

/-- A frame that is dropped, in a state that differs from the first one in its sockets only. -/
theorem dropRoomMessage_idle {v : RoomRelay} (hdisk : v.disk = w.disk) (htrace : v.trace = w.trace)
    (id : ℕ) (s : RoomSocket) (envelope : Json) (reason : DropReason) :
    Idle w (v.dropRoomMessage id s envelope reason) ∧
      (v.dropRoomMessage id s envelope reason).strikes = w.strikes := by
  unfold dropRoomMessage emit
  split
  · split_ifs
    · split
      · exact ⟨.of_trace hdisk htrace, strikes_of_trace htrace⟩
      · refine ⟨⟨hdisk, _, congrArg (· ++ [_]) htrace, fun e he => ?_⟩,
          (strikes_append (w := w) (congrArg (· ++ [_]) htrace)).trans (List.append_nil _)⟩
        rw [List.mem_singleton.1 he]
        trivial
    · exact ⟨.of_trace hdisk htrace, strikes_of_trace htrace⟩
  · exact ⟨.of_trace hdisk htrace, strikes_of_trace htrace⟩

theorem noteIngressFrame_uncounted (w : RoomRelay) (id : ℕ)
    (h : s.ingressFlow = false ∨ (s.ingressReceived + 1) % RECEIPT_EVERY ≠ 0) :
    (w.noteIngressFrame id s).2.disk = w.disk ∧ (w.noteIngressFrame id s).2.trace = w.trace ∧
      (w.noteIngressFrame id s).2.coolDowns = w.coolDowns ∧
      (w.noteIngressFrame id s).1.card = s.card := by
  unfold noteIngressFrame
  dsimp only
  split_ifs with hflow hdue
  · rcases h with h | h
    · exact absurd hflow (by rw [h]; exact Bool.false_ne_true)
    · exact absurd hdue h
  · exact ⟨rfl, rfl, rfl, rfl⟩
  · exact ⟨rfl, rfl, rfl, rfl⟩

/-- **An unheeded envelope** changes the counter of its socket and the cool-downs that were read. -/
theorem handleFrame_unheeded (h : Unheeded cfg w s envelope now) (choice : RoomChoice) (id : ℕ)
    (raw : Str) :
    Idle w (w.handleFrame cfg choice id s raw envelope now) ∧
      (w.handleFrame cfg choice id s raw envelope now).strikes = w.strikes := by
  unfold handleFrame
  generalize hr : (if (envelope.get (lit "type")).is (lit "relay.admission") = true then (s, w)
    else w.noteIngressFrame id s) = r
  obtain ⟨hdisk, htrace, hcool, hcard⟩ : r.2.disk = w.disk ∧ r.2.trace = w.trace ∧
      r.2.coolDowns = w.coolDowns ∧ r.1.card = s.card := by
    rw [← hr]
    split_ifs with hadmission
    · exact ⟨rfl, rfl, rfl, rfl⟩
    · exact noteIngressFrame_uncounted w id (h.uncounted.resolve_left hadmission)
  clear hr
  obtain ⟨known, v⟩ := r
  obtain ⟨hrole, hkey⟩ : known.role = s.role ∧ known.recipientKeyId = s.recipientKeyId := by
    simpa [RoomSocket.card] using hcard
  dsimp only at hdisk htrace hcool ⊢
  have hsame : Idle w v ∧ v.strikes = w.strikes :=
    ⟨.of_trace hdisk htrace, strikes_of_trace htrace⟩
  split
  · rename_i deliveryId hack
    unfold acknowledgeFrame
    rw [hrole, h.unacknowledging (by rw [hack]; rfl)]
    exact hsame
  · rename_i hordinary
    split
    · exact hsame
    · exact dropRoomMessage_idle hdisk htrace id known envelope .expired
    · exact hsame
    · rename_i hvalid
      have hunaccepted := h.unaccepted hordinary hvalid
      unfold routeEnvelope
      split
      · exact hsame
      · rename_i role hsender hnone
        have hcooling := (hunaccepted role hsender).2 (hrole ▸ hnone)
        have hidentity : frameIdentity cfg known (some envelope) =
            frameIdentity cfg s (some envelope) := by
          unfold frameIdentity
          rw [hrole, hkey]
        unfold refuseCoolingRoomSocket
        rw [hidentity, hcool]
        dsimp only
        rw [if_neg (not_le.2 hcooling)]
        refine ⟨⟨hdisk, _, congrArg (· ++ [_]) htrace, fun e he => ?_⟩,
          (strikes_append (w := w) (congrArg (· ++ [_]) htrace)).trans (List.append_nil _)⟩
        rw [List.mem_singleton.1 he]
        trivial
      · rename_i role current hsender hcurrent
        rw [if_neg fun hsame => (hunaccepted role hsender).1 (by rw [← hrole, hcurrent, hsame])]
        exact hsame

/-- The strikes of a step on a socket: none, or its first. -/
def Lenient (w w' : RoomRelay) : Prop :=
  w'.strikes = w.strikes ∨
    ∃ id, id ∉ w.strikes ∧ w'.strikes = w.strikes ++ [id] ∧ w'.Closed id

/-- A close that strikes nobody, or for the first time. -/
theorem closeRoomSocket_idle (v : RoomRelay) (s : RoomSocket) (hdisk : v.disk = w.disk)
    (htrace : v.trace = w.trace) {token : CloseToken} (hstruck : id ∉ w.strikes ∨
      struckKey token (closeIdentity cfg s none) = none) :
    Idle w (v.closeRoomSocket cfg id s token none now) ∧
      Lenient w (v.closeRoomSocket cfg id s token none now) := by
  obtain ⟨close, hclose⟩ := closeRoomSocket_eq v cfg id s token none now
  rw [hclose, htrace]
  refine ⟨⟨hdisk, _, rfl, fun e he => ?_⟩, ?_⟩
  · rcases List.mem_append.1 he with he | he
    · obtain ⟨key, -, rfl⟩ := List.mem_map.1 he
      trivial
    · rw [List.mem_singleton.1 he]
      trivial
  · cases hkey : struckKey token (closeIdentity cfg s none) with
    | none => exact .inl ((strikes_append (w := w) rfl).trans (List.append_nil _))
    | some key =>
      refine .inr ⟨id, hstruck.resolve_right (by rw [hkey]; exact Option.some_ne_none key),
        (strikes_append (w := w) rfl).trans rfl, close, ?_⟩
      exact List.mem_append_right _ (List.mem_append_right _ List.mem_cons_self)

theorem webSocketMessage_ignored (hs : w.sockets.get? id = some s)
    (h : Ignored cfg w id s raw now) (choice : RoomChoice) :
    Idle w (w.webSocketMessage cfg choice id raw now) ∧
      Lenient w (w.webSocketMessage cfg choice id raw now) := by
  unfold webSocketMessage
  rw [hs]
  dsimp only
  split_ifs with hsize hrate
  · exact closeRoomSocket_idle w s rfl rfl (h.refused fun hadmissible => not_le.2 hsize hadmissible.1)
  · have hrefused := h.refused fun hadmissible => by
      rw [hadmissible.2] at hrate
      cases hrate
    exact closeRoomSocket_idle (w := w) (w.setSocket id _) { s with window := _ } rfl rfl hrefused
  · split
    · exact ⟨.of_trace rfl rfl, .inl (strikes_of_trace rfl)⟩
    · rename_i envelope hparsed
      have hunheeded := h.unheeded ⟨not_lt.1 hsize, by simpa using hrate⟩ envelope hparsed
      have hidle := handleFrame_unheeded (w := w.setSocket id
        { s with window := (acceptSocketFrame s.window now).2 }) (s := { s with window :=
          (acceptSocketFrame s.window now).2 }) ⟨hunheeded.uncounted, hunheeded.unacknowledging,
          hunheeded.unaccepted⟩ choice id raw
      exact ⟨⟨hidle.1.disk, hidle.1.trace⟩, .inl hidle.2⟩

/-! ### Runs -/

theorem Closed.mono (h : w.Closed id) (hgrew : w.trace <+: w'.trace) : w'.Closed id :=
  ⟨h.choose, hgrew.subset h.choose_spec⟩

/-- An act strikes the socket of its message, which the handler has not closed before. -/
theorem RoomAct.strikes (h : RoomAct cfg i w₀ w w') : w'.strikes = w.strikes ∨
    ∃ id raw, i.label = .message id raw ∧ Unclosed w₀ w id ∧ w'.strikes = w.strikes ++ [id] ∧
      w'.Closed id := by
  cases h with
  | silent _ _ _ htrace => exact .inl (strikes_of_trace htrace)
  | flush _ _ _ _ _ _ htrace => exact .inl (strikes_of_trace htrace)
  | policy id raw s token envelope now hlabel hopen =>
    obtain ⟨close, hclose⟩ := closeRoomSocket_eq w cfg id s token envelope now
    rw [hclose]
    cases struckKey token (closeIdentity cfg s envelope) with
    | none => exact .inl ((strikes_append (w := w) rfl).trans (List.append_nil _))
    | some key =>
      refine .inr ⟨id, raw, hlabel, hopen, (strikes_append (w := w) rfl).trans rfl, close, ?_⟩
      exact List.mem_append_right _ (List.mem_append_right _ List.mem_cons_self)
  | register | retain | opens => exact .inl rfl
  | sent | refused | accept | queue | acknowledge | woken =>
    exact .inl ((strikes_append rfl).trans (List.append_nil _))

/-- The handler of a socket that was not closed strikes it once at most. -/
theorem RoomActs.strikes (h : RoomActs cfg i w₀ w₀ w)
    (hopen : ∀ id raw, i.label = .message id raw → ¬w₀.Closed id) :
    w.strikes = w₀.strikes ∨ ∃ id raw, i.label = .message id raw ∧
      w.strikes = w₀.strikes ++ [id] ∧ w.Closed id := by
  induction h with
  | refl => exact .inl rfl
  | @tail v v' hacts hact ih =>
    have hgrew : v.trace <+: v'.trace := RoomActs.grew (.single hact)
    rcases hact.strikes with hsame | ⟨id, raw, hlabel, hunclosed, hmore, hclosed⟩
    · rw [hsame]
      exact ih.imp_right fun ⟨id, raw, hlabel, hmore, hclosed⟩ =>
        ⟨id, raw, hlabel, hmore, hclosed.mono hgrew⟩
    · rcases ih with hold | ⟨id', raw', hlabel', -, close, hclose⟩
      · exact .inr ⟨id, raw, hlabel, hmore.trans (by rw [hold]), hclosed⟩
      · cases hlabel.symm.trans hlabel'
        exact absurd ⟨close, hunclosed close hclose⟩ (hopen id raw hlabel)

/-- A struck socket is closed, and is struck once. -/
structure Orderly (w : RoomRelay) : Prop where
  struck : ∀ id ∈ w.strikes, w.Closed id
  once : w.strikes.Nodup

theorem orderly_empty : empty.Orderly where
  struck _ h := absurd h List.not_mem_nil
  once := List.nodup_nil

theorem Orderly.next (hw : w.Orderly) (hgrew : w.trace <+: w'.trace) (h : Lenient w w') :
    w'.Orderly := by
  rcases h with hsame | ⟨id, hfresh, hmore, hclosed⟩
  · exact ⟨fun id h => (hw.struck id (hsame ▸ h)).mono hgrew, hsame ▸ hw.once⟩
  · refine ⟨fun id' h => ?_, ?_⟩
    · rw [hmore, List.mem_append, List.mem_singleton] at h
      rcases h with h | rfl
      · exact (hw.struck id' h).mono hgrew
      · exact hclosed
    · rw [hmore]
      exact hw.once.append (List.nodup_singleton id) (List.disjoint_singleton.2 hfresh)

/-- A frame that a closed socket delivers. -/
theorem Mindful.idle (h : Mindful cfg w i w') (hlabel : i.label = .message id raw)
    (hclosed : w.Closed id) : Idle w w' ∧ Lenient w w' := by
  have hnext : w' = w.webSocketMessage cfg i.choice id raw i.now := by
    rw [h.1, RoomRelay.next, hlabel]
  cases hs : w.sockets.get? id with
  | none =>
    have hsame : w' = w := by rw [hnext, webSocketMessage, hs]
    rw [hsame]
    exact ⟨.of_trace rfl rfl, .inl rfl⟩
  | some s =>
    rw [hnext]
    exact webSocketMessage_ignored hs (h.2 id raw s hlabel hclosed hs) i.choice

theorem Mindful.orderly (h : Mindful cfg w i w') (hw : w.Orderly) : w'.Orderly := by
  have hacts := h.1.acts
  refine hw.next hacts.grew ?_
  by_cases hlate : ∃ id raw, i.label = .message id raw ∧ w.Closed id
  · obtain ⟨id, raw, hlabel, hclosed⟩ := hlate
    exact (h.idle hlabel hclosed).2
  · have hopen : ∀ id raw, i.label = .message id raw → ¬w.Closed id :=
      fun id raw hlabel hclosed => hlate ⟨id, raw, hlabel, hclosed⟩
    rcases hacts.strikes hopen with hsame | ⟨id, raw, hlabel, hmore, hclosed⟩
    · exact .inl hsame
    · exact .inr ⟨id, fun h => hopen id raw hlabel (hw.struck id h), hmore, hclosed⟩

theorem run_orderly {is : List RoomInput} (h : Run (Mindful cfg) .empty is w) : w.Orderly :=
  h.invariant (fun _ _ _ hv hstep => hstep.orderly hv) orderly_empty

end RoomRelay

/-- **One connection, at most one strike.** In every run of the Node relay a socket is struck once
at most, and a frame that arrives after the relay called `close` changes nothing. In every run of a
Worker room whose closed sockets deliver ignored frames only, a socket is struck once at most, and
such a frame is neither stored nor acknowledged nor forwarded. -/
theorem one_strike (nodeCfg : NodeConfig) (roomCfg : RoomConfig) :
    (∀ (is : List NodeInput) (w : NodeRelay), Run (NodeRelay.Step nodeCfg) .empty is w →
      (∀ id, w.strikes.count id ≤ 1) ∧
        ∀ i w' id raw, NodeRelay.Step nodeCfg w i w' → i.label = .message id raw → w.Closed id →
          w' = w) ∧
    ∀ (is : List RoomInput) (w : RoomRelay), Run (RoomRelay.Mindful roomCfg) .empty is w →
      (∀ id, w.strikes.count id ≤ 1) ∧
        ∀ i w' id raw, RoomRelay.Mindful roomCfg w i w' → i.label = .message id raw →
          w.Closed id → RoomRelay.Idle w w' := by
  refine ⟨fun is w h => ?_, fun is w h => ?_⟩
  · have hw := NodeRelay.run_orderly h
    refine ⟨fun id => List.nodup_iff_count_le_one.1 hw.once id,
      fun i w' id raw hstep hlabel hclosed => ?_⟩
    rw [hstep, NodeRelay.next, hlabel]
    exact NodeRelay.handleSocketMessage_gone (hw.closed id hclosed) i.choice raw i.now
  · have hw := RoomRelay.run_orderly h
    exact ⟨fun id => List.nodup_iff_count_le_one.1 hw.once id,
      fun i w' id raw hstep hlabel hclosed => (hstep.idle hlabel hclosed).1⟩

/-! ### A burst of frames -/

/-- A run that has closed no socket yet. -/
theorem RoomRelay.run_mindful {cfg : RoomConfig} {is : List RoomInput} {w w' : RoomRelay}
    (h : Run (RoomRelay.Step cfg) w is w') (hopen : ∀ id, ¬w'.Closed id) :
    Run (RoomRelay.Mindful cfg) w is w' := by
  induction h with
  | nil => exact .nil _
  | @cons w v w' i is hstep hrun ih =>
    have hgrew : w.trace <+: w'.trace :=
      (Run.cons hstep hrun).rel (R := fun w w' : RoomRelay => w.trace <+: w'.trace)
        (fun _ => List.prefix_refl _) (fun _ _ _ => List.IsPrefix.trans)
        fun _ _ _ hstep => RoomRelay.RoomActs.grew hstep.acts
    exact .cons ⟨hstep, fun id _ _ _ hclosed => absurd (hclosed.mono hgrew) (hopen id)⟩ (ih hopen)

section Sample

/-- A phone connects and sends frames within one second. -/
def burst (frames : ℕ) : List RoomInput :=
  roomConnect 0 (some (sampleDigest 'a')) :: List.replicate frames (roomMessage 0 "noise")

/-- A frame of the phone that arrives two seconds later. -/
def lateNoise : RoomInput := ⟨3000, calmRoom 3000, .message 0 (lit "noise")⟩

def RoomEvent.closes : RoomEvent → Bool
  | .closed _ _ => true
  | _ => false

/-- The room closes the phone at its 301st frame and ignores the one that comes later. -/
theorem one_strike_sample :
    ((RoomRelay.after sampleConfig (burst 300)).next sampleConfig
        (roomMessage 0 "noise")).strikes = [0] ∧
      (∀ id, (NodeRelay.after sampleNodeConfig [nodeConnect 0 none]).strikes.count id ≤ 1) ∧
      RoomRelay.Idle
        ((RoomRelay.after sampleConfig (burst 300)).next sampleConfig (roomMessage 0 "noise"))
        (((RoomRelay.after sampleConfig (burst 300)).next sampleConfig
          (roomMessage 0 "noise")).next sampleConfig lateNoise) := by
  have hopen : ∀ id, ¬(RoomRelay.after sampleConfig (burst 300)).Closed id := by
    rintro id ⟨close, hclose⟩
    have hall : ((RoomRelay.after sampleConfig (burst 300)).trace.all fun e => !e.closes) = true := by
      decide +kernel
    exact absurd (List.all_eq_true.1 hall _ hclose) Bool.false_ne_true
  have hburst : Run (RoomRelay.Mindful sampleConfig) .empty
      (burst 300 ++ [roomMessage 0 "noise"])
      ((RoomRelay.after sampleConfig (burst 300)).next sampleConfig (roomMessage 0 "noise")) :=
    (RoomRelay.run_mindful (RoomRelay.run_after sampleConfig (burst 300)) hopen).snoc
      ⟨rfl, fun id _ _ _ hclosed => absurd hclosed (hopen id)⟩
  have hclosed : ((RoomRelay.after sampleConfig (burst 300)).next sampleConfig
      (roomMessage 0 "noise")).Closed 0 := by
    have hstruck : 0 ∈ ((RoomRelay.after sampleConfig (burst 300)).next sampleConfig
      (roomMessage 0 "noise")).strikes := by decide +kernel
    exact (RoomRelay.run_orderly hburst).struck 0 hstruck
  have hlate : RoomRelay.Mindful sampleConfig
      ((RoomRelay.after sampleConfig (burst 300)).next sampleConfig (roomMessage 0 "noise"))
      lateNoise (((RoomRelay.after sampleConfig (burst 300)).next sampleConfig
          (roomMessage 0 "noise")).next sampleConfig lateNoise) := by
    refine ⟨rfl, ?_⟩
    rintro id raw s ⟨⟩ - hs
    have hwindow : ((((RoomRelay.after sampleConfig (burst 300)).next sampleConfig
        (roomMessage 0 "noise")).sockets.get? 0).all
          fun s => (acceptSocketFrame s.window 3000).1) = true := by decide +kernel
    rw [hs] at hwindow
    exact ⟨fun hrefused => absurd ⟨by decide, hwindow⟩ hrefused, nofun⟩
  refine ⟨by decide +kernel, ?_, ?_⟩
  · exact ((one_strike sampleNodeConfig sampleConfig).1 _ _ (NodeRelay.run_after sampleNodeConfig
      [nodeConnect 0 none])).1
  · exact ((one_strike sampleNodeConfig sampleConfig).2 _ _ hburst).2 lateNoise _ 0 _ hlate rfl
      hclosed

/-- The 301st and the 302nd frame of one second strike the same socket of a Worker room. -/
theorem struck_twice :
    Run (RoomRelay.Step sampleConfig) .empty (burst 302)
        (RoomRelay.after sampleConfig (burst 302)) ∧
      (RoomRelay.after sampleConfig (burst 302)).strikes.count 0 = 2 :=
  ⟨RoomRelay.run_after sampleConfig (burst 302), by decide +kernel⟩

end Sample

end GrantTap
