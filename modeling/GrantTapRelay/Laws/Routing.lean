import GrantTapRelay.Library.Runs
import GrantTapRelay.Node.Changes
import GrantTapRelay.Room.Acts

/-!
# Routing confinement

What both relays pass to the `send` of a socket. A `RouteEvent` is what routing knows of a run: the
envelopes that a room accepted, and the frames that its sockets were sent. A frame is `Routed` when
the events before it justify it.

Rows outlive the handlers that stored them, so each runtime keeps an invariant that relates its
rows to accepted envelopes (`Filed`, `Kept state`), and the rows that wait in a replay to the
socket they wait for.

* `routing_confined`: every frame of every run of either runtime is routed.
-/

namespace GrantTap

open Js Runs

/-! ## What routing promises -/

/-- What routing knows of a run. -/
inductive RouteEvent
  | accepted (room raw : Str)
  | sent (room : Str) (role : Option Role) (recipientKeyId : Option Str) (frame : SocketFrame)

/-- The text is of an envelope that the room accepted. -/
def Accepted (parse : Str → Option Json) (events : List RouteEvent) (room raw : Str)
    (envelope : Json) : Prop := .accepted room raw ∈ events ∧ parse raw = some envelope

/-- The frame is one of the relay, a job that is encrypted to the socket, or the text of an envelope
that the room of the socket accepted and that reaches the socket; retained state goes to the phone
with the recipient's key. -/
def Routed (parse : Str → Option Json) (before : List RouteEvent) : RouteEvent → Prop
  | .accepted _ _ => True
  | .sent room role recipientKeyId frame =>
    match frame with
    | .control _ => True
    | .task job => ∃ key, recipientKeyId = some key ∧
        job.envelope.get (lit "recipientKeyId") = some (.str key)
    | .live raw => ∃ envelope, Accepted parse before room raw envelope ∧
        Reaches envelope role recipientKeyId
    | .mailbox raw => ∃ envelope, Accepted parse before room raw envelope ∧
        Reaches envelope role recipientKeyId
    | .retained raw => ∃ envelope key, Accepted parse before room raw envelope ∧
        Reaches envelope role recipientKeyId ∧ role = some .phone ∧ recipientKeyId = some key ∧
        envelope.get (lit "recipientKeyId") = some (.str key)

section Routed

variable {parse : Str → Option Json} {before more : List RouteEvent} {room raw : Str}
  {role role' : Option Role} {key : Option Str} {envelope : Json} {x : RouteEvent}

theorem Accepted.append (h : Accepted parse before room raw envelope) (more : List RouteEvent) :
    Accepted parse (before ++ more) room raw envelope :=
  ⟨List.mem_append_left _ h.1, h.2⟩

theorem Routed.append (h : Routed parse before x) (more : List RouteEvent) :
    Routed parse (before ++ more) x := by
  cases x with
  | accepted => trivial
  | sent room role key frame =>
    cases frame with
    | control => trivial
    | task => exact h
    | live raw =>
      obtain ⟨envelope, hin, h⟩ := h
      exact ⟨envelope, hin.append more, h⟩
    | mailbox raw =>
      obtain ⟨envelope, hin, h⟩ := h
      exact ⟨envelope, hin.append more, h⟩
    | retained raw =>
      obtain ⟨envelope, key, hin, h⟩ := h
      exact ⟨envelope, key, hin.append more, h⟩

/-- An envelope that reaches a socket without a role is for everyone. -/
theorem Reaches.later (h : Reaches envelope role key)
    (hrole : ∀ r, role = some r → role' = some r) : Reaches envelope role' key := by
  refine ⟨?_, h.2⟩
  have hto := h.1
  unfold addresses at hto ⊢
  cases role with
  | none =>
    rw [Option.any_none, Bool.or_false] at hto
    rw [hto, Bool.true_or]
  | some r => rwa [hrole r rfl]

/-- The role of a socket settles. -/
theorem Routed.later {frame : SocketFrame} (h : Routed parse before (.sent room role key frame))
    (hrole : ∀ r, role = some r → role' = some r) :
    Routed parse before (.sent room role' key frame) := by
  cases frame with
  | control => trivial
  | task => exact h
  | live raw =>
    obtain ⟨envelope, hin, h⟩ := h
    exact ⟨envelope, hin, h.later hrole⟩
  | mailbox raw =>
    obtain ⟨envelope, hin, h⟩ := h
    exact ⟨envelope, hin, h.later hrole⟩
  | retained raw =>
    obtain ⟨envelope, key, hin, h, hphone, hkey⟩ := h
    exact ⟨envelope, key, hin, h.later hrole, hrole _ hphone, hkey⟩

/-! ### Rows -/

/-- A row of a mailbox comes from an envelope that the room accepted for the role. -/
def Filed (parse : Str → Option Json) (events : List RouteEvent) (room : Str) (role : Role)
    (row : QueueRow) : Prop :=
  ∃ envelope, Accepted parse events room row.raw envelope ∧ addresses envelope (some role) = true

/-- A retained row comes from an envelope that the room accepted for its recipient's phone. -/
def Retains (parse : Str → Option Json) (events : List RouteEvent) (room : Str) (row : StateRow) :
    Prop :=
  ∃ envelope, Accepted parse events room row.raw envelope ∧
    addresses envelope (some .phone) = true ∧
    row.recipient = (envelope.get (lit "recipientKeyId")).getD .null

theorem Filed.append {r : Role} {row : QueueRow} (h : Filed parse before room r row)
    (more : List RouteEvent) : Filed parse (before ++ more) room r row := by
  obtain ⟨envelope, hin, h⟩ := h
  exact ⟨envelope, hin.append more, h⟩

theorem Retains.append {row : StateRow} (h : Retains parse before room row)
    (more : List RouteEvent) : Retains parse (before ++ more) room row := by
  obtain ⟨envelope, hin, h⟩ := h
  exact ⟨envelope, hin.append more, h⟩

/-- A row of a mailbox may be sent to a socket that it matches. -/
theorem Filed.routed {r : Role} {row : QueueRow} (h : Filed parse before room r row)
    (hmatches : matchesQueuedRecipient parse row.raw key = true) :
    Routed parse before (.sent room (some r) key (.mailbox row.raw)) := by
  obtain ⟨envelope, hin, hto⟩ := h
  refine ⟨envelope, hin, reaches_of_matches hto ?_⟩
  unfold matchesQueuedRecipient at hmatches
  cases key with
  | none => rfl
  | some key =>
    rw [hin.2] at hmatches
    rcases Bool.or_eq_true_iff.1 hmatches with hempty | hmatches
    · rw [matchesRecipient, hempty, Bool.true_or, Bool.true_or]
    · exact hmatches

/-- A retained row may be sent to its recipient. -/
theorem Retains.routed {row : StateRow} {digest : Str} (h : Retains parse before room row)
    (hrecipient : row.recipient.str? = some digest) :
    Routed parse before (.sent room (some .phone) (some digest) (.retained row.raw)) := by
  obtain ⟨envelope, hin, hto, hrow⟩ := h
  have hkey : envelope.get (lit "recipientKeyId") = some (.str digest) := by
    have hstr : some row.recipient = some (Json.str digest) := Value.str?_eq_some.1 hrecipient
    rw [Option.some_inj.1 hstr] at hrow
    cases hget : envelope.get (lit "recipientKeyId") with
    | none =>
      rw [hget] at hrow
      cases hrow
    | some value =>
      rw [hget] at hrow
      rw [hrow]
      rfl
  refine ⟨envelope, digest, hin, ⟨hto, ?_⟩, rfl, rfl, hkey⟩
  rintro key' ⟨⟩ - -
  exact hkey

/-- A frame that may be retained is for a phone. -/
theorem retainable_phone {now : ℤ} (h : retainable envelope raw now = .ok true) :
    addresses envelope (some .phone) = true := by
  unfold retainable at h
  split_ifs at h with hkey
  · cases h
  obtain ⟨valid, hvalid, h⟩ := except_map_ok.1 h
  simp only [Bool.and_eq_true] at h
  obtain rfl := h.1.1.1
  unfold validRetainedState at hvalid
  dsimp only at hvalid
  split_ifs at hvalid with hnone
  · simp only [Bool.and_eq_true] at hnone
    rw [Bool.not_eq_true', Bool.not_eq_false] at hkey
    rw [Value.not_nullish_of_truthy hkey] at hnone
    exact absurd hnone.1.1.1 Bool.false_ne_true
  · obtain ⟨hto, -⟩ := Early.require_run (by simp) hvalid
    unfold addresses
    rw [Option.any_some, Bool.or_eq_true_iff]
    exact .inr (Bool.and_eq_true _ _ ▸ hto).2

end Routed

/-! ## Node -/

namespace NodeRelay

variable {cfg : NodeConfig} {i : NodeInput} {w₀ w w' : NodeRelay}

/-- What routing knows of an event. -/
def route : NodeEvent → Option RouteEvent
  | .accepted _ s raw _ _ => some (.accepted s.room raw)
  | .sent _ s frame _ => some (.sent s.room s.role s.recipientKeyId frame)
  | _ => none

def routes (w : NodeRelay) : List RouteEvent := w.trace.filterMap route

/-- What is stored comes from accepted envelopes, what waits may be sent to its socket, and what was
sent was justified. -/
structure Routes (cfg : NodeConfig) (w : NodeRelay) : Prop where
  filed : ∀ room role, ∀ row ∈ w.disk.store.rows room role, Filed cfg.parse w.routes room role row
  retains : ∀ room, ∀ row ∈ w.disk.retained.room room, Retains cfg.parse w.routes room row
  waiting : ∀ n f rows, w.flights.get? n = some f → f.rest = some rows → ∀ row ∈ rows, ∃ c,
    w.card? f.socket = some c ∧
      Routed cfg.parse w.routes (.sent c.room c.role c.recipientKeyId row.frame)
  causal : Causal (Routed cfg.parse) w.routes

theorem routes_empty (cfg : NodeConfig) : Routes cfg empty where
  filed _ _ _ h := by cases h
  retains _ _ h := by cases h
  waiting _ _ _ h := by cases h
  causal := .nil

theorem accepted_of_mem {id : ℕ} {s : NodeSocket} {raw : Str} {envelope : Json} {now : ℤ}
    (h : NodeEvent.accepted id s raw envelope now ∈ w.trace)
    (hparsed : cfg.parse raw = some envelope) :
    Accepted cfg.parse w.routes s.room raw envelope :=
  ⟨List.mem_filterMap.2 ⟨_, h, rfl⟩, hparsed⟩

/-- **Every frame that is sent is routed**, and so is every frame that waits. -/
theorem Sent.routed {id : ℕ} {frame : SocketFrame} {c : SocketCard} (hw : Routes cfg w)
    (h : Sent cfg i w w' id frame) (hact : Act cfg i w₀ w w') (hc : w'.card? id = some c) :
    Routed cfg.parse w.routes (.sent c.room c.role c.recipientKeyId frame) := by
  have hsettled {b : SocketCard} (hb : w.card? id = some b)
      (h : Routed cfg.parse w.routes (.sent b.room b.role b.recipientKeyId frame)) :
      Routed cfg.parse w.routes (.sent c.room c.role c.recipientKeyId frame) := by
    obtain ⟨c', hc', hsame⟩ := hact.known hb
    obtain rfl := Option.some_inj.1 (hc'.symm.trans hc)
    rw [hsame.room, hsame.key]
    exact h.later hsame.role
  cases h with
  | notice h =>
    cases frame with
    | control => trivial
    | task | live | mailbox | retained => exact h.elim
  | receipt => trivial
  | job s job key hcard hkey hjob => exact hsettled hcard ⟨key, hkey, hjob⟩
  | live sender s target role raw envelope h haccepted hne hcard hjoined hroom hto hmatches =>
    have haccepted : Accepted cfg.parse w.routes target.room raw envelope :=
      hroom ▸ accepted_of_mem haccepted h.parsed
    exact hsettled hcard ⟨envelope, haccepted, reaches_of_matches hto hmatches⟩
  | registered s role raw envelope row h hrole hrow hcard =>
    obtain rfl := Option.some_inj.1 (hcard.symm.trans hc)
    obtain ⟨hrow, hmatches⟩ := List.mem_filter.1 hrow
    rcases List.mem_append.1 hrow with hrow | hrow
    · obtain ⟨text, htext, rfl⟩ := List.mem_map.1 hrow
      split_ifs at htext with hphone
      · obtain ⟨state, hstate, rfl⟩ := List.mem_map.1 htext
        obtain ⟨hmem, digest, hkey, hrecipient⟩ := mem_replayState hstate
        have hrouted := (hw.retains s.room state hmem).routed hrecipient
        rw [← hkey, ← hphone] at hrouted
        exact hrouted
      · cases htext
    · obtain ⟨item, hitem, rfl⟩ := List.mem_map.1 hrow
      rw [RelayStore.snd_queue] at hitem
      exact (hw.filed s.room role item (List.mem_of_mem_filter hitem)).routed hmatches
  | waiting n f rows row hflight hsocket hrest hrow =>
    obtain ⟨b, hb, hrouted⟩ := hw.waiting n f rows hflight hrest row hrow
    exact hsettled (hsocket ▸ hb) hrouted

/-- A frame that is no notice is sent to a socket that connected. -/
theorem Sent.carded {id : ℕ} {frame : SocketFrame} (hw : Routes cfg w)
    (h : Sent cfg i w w' id frame) (hact : Act cfg i w₀ w w') (hframe : ¬Notice frame) :
    ∃ c, w'.card? id = some c := by
  have hknown {b : SocketCard} (hb : w.card? id = some b) : ∃ c, w'.card? id = some c := by
    obtain ⟨c, hc, -⟩ := hact.known hb
    exact ⟨c, hc⟩
  cases h with
  | notice h => exact absurd h hframe
  | receipt s raw envelope deliveryId r h => exact hknown h.card
  | job s job key hcard => exact hknown hcard
  | live sender s target role raw envelope h haccepted hne hcard => exact hknown hcard
  | registered s role raw envelope row h hrole hrow hcard => exact ⟨_, hcard⟩
  | waiting n f rows row hflight hsocket hrest hrow =>
    obtain ⟨b, hb, -⟩ := hw.waiting n f rows hflight hrest row hrow
    exact hknown (hsocket ▸ hb)

theorem Happens.routed {e : NodeEvent} {x : RouteEvent} (hw : Routes cfg w)
    (h : Happens cfg i w w' e) (hact : Act cfg i w₀ w w') (hx : route e = some x) :
    Routed cfg.parse w.routes x := by
  cases h with
  | accepted =>
    cases hx
    trivial
  | sent h hcard =>
    cases hx
    exact h.routed hw hact hcard
  | handed | queued | acknowledged | renewed | struck | closed | woken => cases hx

/-- The mailboxes after an act. -/
theorem Act.filed (h : Act cfg i w₀ w w') (hw : Routes cfg w) (room : Str) (role : Role) :
    ∀ row ∈ w'.disk.store.rows room role, Filed cfg.parse w.routes room role row := by
  have hold := hw.filed room role
  have hmail := h.mail
  generalize w'.disk.store = store at hmail
  cases hmail with
  | same hrows => rwa [hrows]
  | read room' role' =>
    rw [RelayStore.rows_queue]
    intro row hrow
    split_ifs at hrow with heq
    · rw [← heq.1, ← heq.2] at hrow
      exact hold row (List.mem_of_mem_filter hrow)
    · exact hold row hrow
  | @enqueue id s role' dest raw deliveryId envelope hpassed haccepted hto hid =>
    intro row hrow
    rcases RelayStore.enqueue_cases w.disk.store s.room dest raw (some deliveryId)
        (envelope.get (lit "expiresAt")).int? i.now with
      ⟨hsame, -⟩ | ⟨hread, -⟩ | ⟨rows, hretain, -, hrows⟩
    · exact hold row (hsame ▸ hrow)
    · rw [hread, RelayStore.rows_queue] at hrow
      split_ifs at hrow with heq
      · rw [← heq.1, ← heq.2] at hrow
        exact hold row (List.mem_of_mem_filter hrow)
      · exact hold row hrow
    · rw [hrows] at hrow
      split_ifs at hrow with heq
      · obtain ⟨rfl, rfl⟩ := heq
        obtain ⟨front, rfl, -⟩ := retainSubmission_stored hretain
        rcases List.mem_append.1 hrow with hrow | hrow
        · exact hold row (List.mem_of_mem_filter ((retainSubmission_front hretain).subset hrow))
        · rw [List.mem_singleton.1 hrow]
          exact ⟨envelope, accepted_of_mem haccepted hpassed.parsed, addresses_of_roleOf? hto⟩
      · exact hold row hrow
  | @acknowledge id s role' raw deliveryId =>
    intro row hrow
    rw [RelayStore.rows_acknowledge] at hrow
    split_ifs at hrow with heq
    · rw [← heq.1, ← heq.2] at hrow
      exact hold row (List.mem_of_mem_filter (List.mem_of_mem_filter hrow))
    · exact hold row hrow

/-- The retained state after an act. -/
theorem Act.retains (h : Act cfg i w₀ w w') (hw : Routes cfg w) (room : Str) :
    ∀ row ∈ w'.disk.retained.room room, Retains cfg.parse w.routes room row := by
  have hold := hw.retains room
  have hstates := h.states
  generalize w'.disk.retained = retained at hstates
  cases hstates with
  | same => exact hold
  | purge =>
    intro row hrow
    obtain ⟨slot, hrow⟩ := NodeStates.mem_room.1 hrow
    refine hold row (NodeStates.mem_room.2 ⟨slot, ?_⟩)
    unfold NodeStates.purge at hrow
    rw [Table.get?_filter, Option.filter_eq_some_iff] at hrow
    exact hrow.1
  | @put id s role raw envelope activity _ hpassed hrole haccepted hput =>
    intro row hrow
    obtain ⟨slot, hslot⟩ := NodeStates.mem_room.1 hrow
    obtain ⟨r, hr, -, hget⟩ := NodeStates.put_ok hput
    rw [hget] at hslot
    split_ifs at hslot with hroom hadded hkept
    · exact hold row (NodeStates.mem_room.2 ⟨slot, hslot⟩)
    · obtain rfl := not_not.1 hroom
      rcases retainState_ok hr with ⟨⟨-, hnone⟩, -⟩ | ⟨hok, -, -, hnew, -⟩
      · rw [hnone] at hslot
        cases hslot
      · rw [hnew row hslot]
        exact ⟨envelope, accepted_of_mem haccepted hpassed.parsed, retainable_phone hok, rfl⟩
    · obtain rfl := not_not.1 hroom
      exact hold row (NodeStates.mem_room.2 ⟨slot, hslot⟩)

theorem Act.routes (h : Act cfg i w₀ w w') (hw : Routes cfg w) : Routes cfg w' := by
  obtain ⟨new, hnew, hevents⟩ := h.happens
  have happend : w'.routes = w.routes ++ new.filterMap route := by
    rw [NodeRelay.routes, hnew, List.filterMap_append]
    rfl
  refine ⟨fun room role row hrow => ?_, fun room row hrow => ?_,
    fun n f rows hf hrest row hrow => ?_, ?_⟩
  · exact happend ▸ (h.filed hw room role row hrow).append _
  · exact happend ▸ (h.retains hw room row hrow).append _
  · have hsent := h.waiting hf hrest hrow
    obtain ⟨c, hc⟩ := hsent.carded hw h (not_notice_frame row)
    exact ⟨c, hc, happend ▸ (hsent.routed hw h hc).append _⟩
  · rw [happend]
    refine hw.causal.append (fun before more x hx => hx.append more) fun x hx => ?_
    obtain ⟨e, he, hx⟩ := List.mem_filterMap.1 hx
    exact (hevents e he).routed hw h hx

/-- Every reachable state is so. -/
theorem run_routes {is : List NodeInput} (h : Run (Step cfg) empty is w) : Routes cfg w :=
  h.invariant (fun v i v' hv hstep => by
    have hacts := hstep.acts
    clear hstep
    induction hacts with
    | refl => exact hv
    | tail _ hact ih => exact hact.routes ih) (routes_empty cfg)

end NodeRelay

/-! ## The Worker room -/

namespace RoomRelay

variable {cfg : RoomConfig} {i : RoomInput} {w₀ w w' : RoomRelay}

/-- What routing knows of an event of a room. -/
def route (room : Str) : RoomEvent → Option RouteEvent
  | .accepted _ _ raw _ => some (.accepted room raw)
  | .sent _ s frame _ => some (.sent room s.role s.recipientKeyId frame)
  | _ => none

def routes (cfg : RoomConfig) (w : RoomRelay) : List RouteEvent := w.trace.filterMap (route cfg.room)

/-- What is stored comes from accepted envelopes, and what was sent was justified. -/
structure Routes (cfg : RoomConfig) (w : RoomRelay) : Prop where
  filed : ∀ role, ∀ row ∈ w.disk.mail.rows role,
    Filed cfg.parse (w.routes cfg) cfg.room role row
  written : w.disk.retained.Written (Retains cfg.parse (w.routes cfg) cfg.room)
  causal : Causal (Routed cfg.parse) (w.routes cfg)

theorem routes_empty (cfg : RoomConfig) : Routes cfg empty where
  filed role row h := by
    cases role with
    | machine => cases h
    | phone => cases h
  written := .empty _
  causal := .nil

theorem accepted_of_mem {id : ℕ} {s : RoomSocket} {raw : Str} {envelope : Json}
    (h : RoomEvent.accepted id s raw envelope ∈ w.trace)
    (hparsed : cfg.parse raw = some envelope) :
    Accepted cfg.parse (w.routes cfg) cfg.room raw envelope :=
  ⟨List.mem_filterMap.2 ⟨_, h, rfl⟩, hparsed⟩

/-- **Every frame that is sent is routed.** -/
theorem Sent.routed {id : ℕ} {frame : SocketFrame} {c : RoomCard} (hw : Routes cfg w)
    (h : Sent cfg i w id frame) (hc : w.card? id = some c) :
    Routed cfg.parse (w.routes cfg) (.sent cfg.room c.role c.recipientKeyId frame) := by
  cases h with
  | notice h =>
    cases frame with
    | control => trivial
    | task | live | mailbox | retained => exact h.elim
  | receipt => trivial
  | job s job key hcard hkey hjob =>
    obtain rfl := Option.some_inj.1 (hcard.symm.trans hc)
    exact ⟨key, hkey, hjob⟩
  | live sender s target role raw envelope h haccepted hne hcard hto hmatches =>
    obtain rfl := Option.some_inj.1 (hcard.symm.trans hc)
    exact ⟨envelope, accepted_of_mem haccepted h.parsed, reaches_of_matches hto hmatches⟩
  | state s row now hcard hrole hrow =>
    obtain rfl := Option.some_inj.1 (hcard.symm.trans hc)
    obtain ⟨hmem, digest, hkey, hrecipient⟩ := mem_replayState hrow
    have hrouted := (hw.written.of_mem_rows hmem).routed hrecipient
    rw [← hkey, ← hrole] at hrouted
    exact hrouted
  | mailbox s role row hcard hrole hrow hmatches =>
    obtain rfl := Option.some_inj.1 (hcard.symm.trans hc)
    have hrouted := (hw.filed role row hrow).routed hmatches
    rw [← hrole] at hrouted
    exact hrouted

/-- The mailboxes after an act. -/
theorem RoomAct.filed (h : RoomAct cfg i w₀ w w') (hw : Routes cfg w) (role : Role) :
    ∀ row ∈ w'.disk.mail.rows role, Filed cfg.parse (w.routes cfg) cfg.room role row := by
  have hold := hw.filed role
  cases h with
  | silent hmail => rwa [hmail]
  | policy id raw s token envelope now =>
    obtain ⟨close, hclose⟩ := closeRoomSocket_eq w cfg id s token envelope now
    rwa [hclose]
  | flush role' socket now hmail =>
    rw [hmail]
    exact fun row hrow => hold row ((RoomQueues.flushTo_sublist _ _ _ _ _ role).subset hrow)
  | queue id s role' dest raw envelope deliveryId h haccepted hto hid =>
    intro row hrow
    change row ∈ (w.disk.mail.queue dest raw (some deliveryId) _ _).1.rows role at hrow
    rcases w.disk.mail.queue_cases dest raw (some deliveryId) (envelope.get (lit "expiresAt")).int?
        (i.choice.clock .queue) with ⟨hsame, -⟩ | ⟨rows, hretain, hqueue⟩
    · exact hold row (hsame ▸ hrow)
    · rw [hqueue, RoomQueues.rows_set] at hrow
      split_ifs at hrow with heq
      · subst heq
        obtain ⟨front, rfl, -⟩ := retainSubmission_stored hretain
        rcases List.mem_append.1 hrow with hrow | hrow
        · exact hold row (List.mem_of_mem_filter ((retainSubmission_front hretain).subset hrow))
        · rw [List.mem_singleton.1 hrow]
          exact ⟨envelope, accepted_of_mem haccepted h.parsed, addresses_of_roleOf? hto⟩
      · exact hold row hrow
  | acknowledge id s role' raw frame deliveryId =>
    intro row hrow
    change row ∈ (w.disk.mail.acknowledge role' deliveryId).rows role at hrow
    rw [RoomQueues.rows_acknowledge] at hrow
    split_ifs at hrow with heq
    · exact hold row (heq ▸ List.mem_of_mem_filter hrow)
    · exact hold row hrow
  | sent | refused | register | accept | retain | woken | opens => exact hold

theorem routes_record (w : RoomRelay) (e : RoomEvent) :
    (w.record e).routes cfg = w.routes cfg ++ (route cfg.room e).toList := by
  rw [routes, record, List.filterMap_append]
  cases he : route cfg.room e with
  | none => rw [List.filterMap_cons_none he]; rfl
  | some x => rw [List.filterMap_cons_some he]; rfl

/-- The events of an act that routing knows. -/
theorem RoomAct.events (h : RoomAct cfg i w₀ w w') (hw : Routes cfg w) :
    ∃ new, w'.routes cfg = w.routes cfg ++ new ∧
      ∀ x ∈ new, Routed cfg.parse (w.routes cfg) x := by
  have hnone (hsame : w'.routes cfg = w.routes cfg) : ∃ new,
      w'.routes cfg = w.routes cfg ++ new ∧ ∀ x ∈ new, Routed cfg.parse (w.routes cfg) x :=
    ⟨[], by rw [hsame, List.append_nil], nofun⟩
  cases h with
  | silent hmail hretained hcards htrace => exact hnone (by rw [routes, htrace]; rfl)
  | flush role socket now hmail hretained hcards htrace =>
    exact hnone (by rw [routes, htrace]; rfl)
  | sent id s frame hcard h =>
    refine ⟨_, routes_record w _, fun x hx => ?_⟩
    obtain rfl := List.mem_singleton.1 hx
    exact h.routed hw hcard
  | accept id s role raw envelope =>
    refine ⟨_, routes_record w _, fun x hx => ?_⟩
    obtain rfl := List.mem_singleton.1 hx
    trivial
  | policy id raw s token envelope now =>
    obtain ⟨close, hclose⟩ := closeRoomSocket_eq w cfg id s token envelope now
    refine hnone ?_
    rw [hclose, routes, List.filterMap_append, List.filterMap_append]
    cases struckKey token (closeIdentity cfg s envelope) with
    | none => exact List.append_nil _
    | some key => exact List.append_nil _
  | refused => exact hnone ((routes_record w _).trans (List.append_nil _))
  | queue => exact hnone ((routes_record _ _).trans (List.append_nil _))
  | acknowledge => exact hnone ((routes_record _ _).trans (List.append_nil _))
  | woken => exact hnone ((routes_record w _).trans (List.append_nil _))
  | register | retain | opens => exact hnone rfl

theorem RoomAct.routes (h : RoomAct cfg i w₀ w w') (hw : Routes cfg w) : Routes cfg w' := by
  obtain ⟨new, hnew, hrouted⟩ := h.events hw
  refine ⟨fun role row hrow => ?_, ?_, ?_⟩
  · rw [hnew]
    exact (h.filed hw role row hrow).append _
  · have hlater : ∀ row, Retains cfg.parse (w.routes cfg) cfg.room row →
        Retains cfg.parse (w'.routes cfg) cfg.room row := fun row hrow => hnew ▸ hrow.append _
    have hold := hw.written.mono hlater
    cases h with
    | silent hmail hretained => rwa [hretained]
    | flush role socket now hmail hretained => rwa [hretained]
    | policy id raw s token envelope now =>
      obtain ⟨close, hclose⟩ := closeRoomSocket_eq w cfg id s token envelope now
      rw [hclose] at hold ⊢
      exact hold
    | retain id s role raw envelope retained now activity h haccepted hput =>
      refine hold.put hput fun hok => ?_
      exact ⟨envelope, accepted_of_mem haccepted h.parsed, retainable_phone hok, rfl⟩
    | sent | refused | register | accept | queue | acknowledge | woken | opens => exact hold
  · rw [hnew]
    exact hw.causal.append (fun before more x hx => hx.append more) hrouted

/-- Every reachable state is so. -/
theorem run_routes {is : List RoomInput} (h : Run (Step cfg) empty is w) : Routes cfg w :=
  h.invariant (fun v i v' hv hstep => by
    have hacts := hstep.acts
    clear hstep
    induction hacts with
    | refl => exact hv
    | tail _ hact ih => exact hact.routes ih) (routes_empty cfg)

end RoomRelay

/-- **Routing confinement**: in every run of either runtime that starts with empty storage, every
frame that is passed to `send` is routed. -/
theorem routing_confined :
    (∀ (cfg : NodeConfig) (is : List NodeInput) (w : NodeRelay),
      Run (NodeRelay.Step cfg) .empty is w → Causal (Routed cfg.parse) w.routes) ∧
    ∀ (cfg : RoomConfig) (is : List RoomInput) (w : RoomRelay),
      Run (RoomRelay.Step cfg) .empty is w → Causal (Routed cfg.parse) (w.routes cfg) :=
  ⟨fun _ _ _ h => (NodeRelay.run_routes h).causal, fun _ _ _ h => (RoomRelay.run_routes h).causal⟩

/-! ### A reply that waits for its phone -/

section Sample

/-- `recipientKeyId` of an envelope. -/
def addressedTo (key : Str) : Json → Json
  | .obj members => .obj (members ++ [(lit "recipientKeyId", .str key)])
  | value => value

/-- The frames of the sample runs, by the text that stands for each. -/
def sampleFrames : List (Str × Json) :=
  [(lit "reply", addressedTo (sampleDigest 'a') (sampleEnvelope "machine" "phone" "reply-1" 65)),
    (lit "hello", sampleEnvelope "phone" "machine" "hello-1" 65),
    (lit "submit", sampleEnvelope "phone" "machine" "user-message-1" 65),
    (lit "resubmit", sampleEnvelope "phone" "machine" "user-message-1" 66),
    (lit "ack", .obj [(lit "type", .text "relay.ack"), (lit "deliveryId", .text "reply-1")])]

def sampleParse (raw : Str) : Option Json := sampleFrames.lookup raw


def sampleConfig : RoomConfig where
  room := sampleRoom
  parse := sampleParse
  sha256 text := text
  limits := .standard

def sampleNodeConfig : NodeConfig where
  parse := sampleParse
  sha256 text := text
  admission := none
  limits := .standard

/-- The state of the Node relay after a list of events. -/
def NodeRelay.after (cfg : NodeConfig) (is : List NodeInput) : NodeRelay :=
  is.foldl (fun w i => w.next cfg i) NodeRelay.empty

theorem NodeRelay.run_after (cfg : NodeConfig) (is : List NodeInput) :
    Run (NodeRelay.Step cfg) .empty is (NodeRelay.after cfg is) :=
  (foldl_run (fun (w : NodeRelay) i => w.next cfg i) NodeRelay.empty is).mono fun _ _ _ h => h.symm

/-- The state of a Worker room after a list of events. -/
def RoomRelay.after (cfg : RoomConfig) (is : List RoomInput) : RoomRelay :=
  is.foldl (fun w i => w.next cfg i) RoomRelay.empty

theorem RoomRelay.run_after (cfg : RoomConfig) (is : List RoomInput) :
    Run (RoomRelay.Step cfg) .empty is (RoomRelay.after cfg is) :=
  (foldl_run (fun (w : RoomRelay) i => w.next cfg i) RoomRelay.empty is).mono fun _ _ _ h => h.symm

def nodeConnect (id : ℕ) (key : Option Str) : NodeInput :=
  ⟨1000, calm, .connect id (sampleUpgrade key)⟩

def nodeMessage (id : ℕ) (text : String) : NodeInput := ⟨1000, calm, .message id (lit text)⟩

def roomConnect (id : ℕ) (key : Option Str) : RoomInput :=
  ⟨1000, calmRoom 1000, .connect id (sampleRequest key)⟩

def roomMessage (id : ℕ) (text : String) : RoomInput :=
  ⟨1000, calmRoom 1000, .message id (lit text)⟩

/-- A computer stores a reply, its phone says hello and is sent the reply, which its room accepted
before. -/
theorem routing_confined_sample :
    ((NodeRelay.after sampleNodeConfig [nodeConnect 0 none, nodeMessage 0 "reply",
        nodeConnect 1 (some (sampleDigest 'a')), nodeMessage 1 "hello"]).routes.length = 6 ∧
      ((RoomRelay.after sampleConfig [roomConnect 0 none, roomMessage 0 "reply",
        roomConnect 1 (some (sampleDigest 'a')), roomMessage 1 "hello"]).routes
          sampleConfig).length = 6) ∧
      Causal (Routed sampleParse) (NodeRelay.after sampleNodeConfig [nodeConnect 0 none,
        nodeMessage 0 "reply", nodeConnect 1 (some (sampleDigest 'a')),
        nodeMessage 1 "hello"]).routes ∧
      Causal (Routed sampleParse) ((RoomRelay.after sampleConfig [roomConnect 0 none,
        roomMessage 0 "reply", roomConnect 1 (some (sampleDigest 'a')),
        roomMessage 1 "hello"]).routes sampleConfig) :=
  ⟨⟨by decide +kernel, by decide +kernel⟩,
    routing_confined.1 _ _ _ (NodeRelay.run_after sampleNodeConfig _),
    routing_confined.2 _ _ _ (RoomRelay.run_after sampleConfig _)⟩

end Sample

end GrantTap
