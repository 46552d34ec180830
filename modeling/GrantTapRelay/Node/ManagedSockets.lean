import GrantTapRelay.Library.Runs
import GrantTapRelay.Node.Changes

/-!
# Managed sockets

A relay with managed admission takes an envelope of a computer only from a socket with a ticket.
`Verified` says that every ticket was signed for the room of its socket, `Renews` what frames may
do to it. Both hold across every act, hence over every run.

* `managed_admission`: who gets an envelope of a computer through, and what renewals change.
-/

namespace GrantTap

open Js Runs Relation

namespace NodeRelay

variable {cfg : NodeConfig} {i : NodeInput} {w₀ w w' : NodeRelay} {id : ℕ} {s : NodeSocket}
  {role : Role} {raw : Str} {envelope : Json}

/-! ## Tickets of a socket -/

/-- The tickets were signed for the room of their socket. -/
def VerifiedCard (cfg : NodeConfig) (c : SocketCard) : Prop :=
  c.commercial = cfg.admission.isSome ∧ ∀ t, c.ticket = some t → ∃ authority value time,
    cfg.admission = some authority ∧ readManagedTicket authority value c.room time = some t

def Verified (cfg : NodeConfig) (w : NodeRelay) : Prop :=
  ∀ id c, w.card? id = some c → VerifiedCard cfg c

/-- What frames may do to the ticket of a socket. -/
structure Renews (c c' : SocketCard) : Prop where
  room : c'.room = c.room
  commercial : c'.commercial = c.commercial
  lacks : c.ticket = none → c'.ticket = none
  ticket : ∀ t, c.ticket = some t → ∃ t', c'.ticket = some t' ∧ t'.holder = t.holder ∧
    (t' = t ∨ t.expiresAt < t'.expiresAt)

theorem Renews.of_same {c c' : SocketCard} (hroom : c'.room = c.room)
    (hcommercial : c'.commercial = c.commercial) (hticket : c'.ticket = c.ticket) : Renews c c' :=
  ⟨hroom, hcommercial, fun h => hticket.trans h, fun t h => ⟨t, hticket.trans h, rfl, .inl rfl⟩⟩

theorem Renews.trans {c c' c'' : SocketCard} (h : Renews c c') (h' : Renews c' c'') :
    Renews c c'' where
  room := h'.room.trans h.room
  commercial := h'.commercial.trans h.commercial
  lacks ht := h'.lacks (h.lacks ht)
  ticket t ht := by
    obtain ⟨t', ht', hholder, hle⟩ := h.ticket t ht
    obtain ⟨t'', ht'', hholder', hle'⟩ := h'.ticket t' ht'
    refine ⟨t'', ht'', hholder'.trans hholder, ?_⟩
    rcases hle with rfl | hlt
    · exact hle'
    · rcases hle' with rfl | hlt'
      · exact .inr hlt
      · exact .inr (hlt.trans hlt')

/-- Equal ids of a ticket are equal texts. -/
theorem eq_of_same_uuid {j k : Json} (hj : testUuid j = true) (hk : testUuid k = true)
    (h : Value.same (some j) (some k) = true) : j = k := by
  obtain ⟨n, a, -, rfl⟩ := nest_of_testUuid hj
  obtain ⟨m, b, -, rfl⟩ := nest_of_testUuid hk
  cases n with
  | zero =>
    cases m with
    | zero =>
      obtain rfl : a = b := by simpa [Json.nest, Value.same] using h
      rfl
    | succ m => exact absurd h (by simp [Json.nest, Value.same])
  | succ n => exact absurd h (by simp [Json.nest, Value.same])

/-- **A renewal** keeps the holder and moves the expiry on. -/
theorem renewable_spec {current next : ManagedTicket} (h : renewable s current next = true) :
    next.holder = current.holder ∧ current.expiresAt < next.expiresAt := by
  simp only [renewable, Bool.and_eq_true, decide_eq_true_eq] at h
  obtain ⟨⟨⟨⟨⟨hkind, -⟩, haccount⟩, hcomputer⟩, hkey⟩, hlt⟩ := h
  refine ⟨?_, hlt⟩
  rw [ManagedTicket.holder, ManagedTicket.holder, hkind, hkey,
    eq_of_same_uuid next.account_uuid current.account_uuid haccount,
    eq_of_same_uuid next.computer_uuid current.computer_uuid hcomputer]

theorem CardAct.renews {c c' : Option SocketCard} (h : CardAct cfg i w₀ w w' id c c') {x : SocketCard}
    (hx : c = some x) : ∃ y, c' = some y ∧ Renews x y := by
  cases h with
  | same => exact ⟨x, hx, .of_same rfl rfl rfl⟩
  | opened => cases hx
  | registered =>
    cases hx
    exact ⟨_, rfl, .of_same rfl rfl rfl⟩
  | renewed _ _ _ _ _ hcurrent hrenewable =>
    cases hx
    obtain ⟨hholder, hlt⟩ := renewable_spec hrenewable
    refine ⟨_, rfl, rfl, rfl, fun h => ?_, fun t ht => ?_⟩
    · exact absurd (hcurrent.symm.trans h) (Option.some_ne_none _)
    · obtain rfl := Option.some_inj.1 (hcurrent.symm.trans ht)
      exact ⟨_, rfl, hholder, .inr hlt⟩
  | left =>
    cases hx
    exact ⟨_, rfl, .of_same rfl rfl rfl⟩

theorem CardAct.verified {c c' : Option SocketCard} (h : CardAct cfg i w₀ w w' id c c')
    (hc : ∀ x, c = some x → VerifiedCard cfg x) {y : SocketCard} (hy : c' = some y) :
    VerifiedCard cfg y := by
  cases h with
  | same => exact hc y hy
  | opened q =>
    cases hy
    refine ⟨rfl, fun t ht => ?_⟩
    obtain ⟨authority, hauthority, hread⟩ := Option.bind_eq_some_iff.1 ht
    exact ⟨authority, _, _, hauthority, hread⟩
  | @registered s =>
    cases hy
    exact hc s.card rfl
  | renewed _ _ _ hauthority hread =>
    cases hy
    refine ⟨(hc _ rfl).1, fun t ht => ?_⟩
    cases ht
    exact ⟨_, _, _, hauthority, hread⟩
  | left x =>
    cases hy
    exact hc x rfl

theorem Acts.verified (h : Acts cfg i w₀ w w') (hw : Verified cfg w) : Verified cfg w' := by
  induction h with
  | refl => exact hw
  | tail _ hact ih => exact fun id y hy => (hact.card id).verified (ih id) hy

theorem Acts.renews (h : Acts cfg i w₀ w w') {c : SocketCard} (hc : w.card? id = some c) :
    ∃ c', w'.card? id = some c' ∧ Renews c c' := by
  induction h with
  | refl => exact ⟨c, hc, .of_same rfl rfl rfl⟩
  | tail _ hact ih =>
    obtain ⟨c', hc', hrenews⟩ := ih
    obtain ⟨c'', hc'', hrenews'⟩ := (hact.card id).renews hc'
    exact ⟨c'', hc'', hrenews.trans hrenews'⟩

theorem run_verified {is : List NodeInput} (h : Run (Step cfg) w is w') (hw : Verified cfg w) :
    Verified cfg w' :=
  h.invariant (fun _ _ _ hv hstep => hstep.acts.verified hv) hw

theorem run_renews {is : List NodeInput} (h : Run (Step cfg) w is w') {c : SocketCard}
    (hc : w.card? id = some c) : ∃ c', w'.card? id = some c' ∧ Renews c c' := by
  induction h generalizing c with
  | nil => exact ⟨c, hc, .of_same rfl rfl rfl⟩
  | cons hstep _ ih =>
    obtain ⟨c', hc', hrenews⟩ := hstep.acts.renews hc
    obtain ⟨c'', hc'', hrenews'⟩ := ih hc'
    exact ⟨c'', hc'', hrenews.trans hrenews'⟩

theorem verified_empty (cfg : NodeConfig) : Verified cfg empty := fun _ _ h => by cases h

/-! ## What a message may do -/

/-- The step of a message keeps its text: as retained state, in a mailbox, or on other sockets. -/
def Carries (w w' : NodeRelay) (raw : Str) : Prop :=
  w'.disk.retained ≠ w.disk.retained ∨
    (∃ id envelope result, NodeEvent.queued id raw envelope result ∈ w.since w') ∨
    ∃ target mail, NodeEvent.handed target (.live raw) mail ∈ w.since w'

/-- A text is kept only once its envelope has passed every check. -/
theorem passed_of_carries (hlabel : i.label = .message id raw) (h : Carries w (w.next cfg i) raw) :
    ∃ v id s role envelope, Acts cfg i w w v ∧ Passed cfg i v id s role raw envelope := by
  have hacts : Acts cfg i w w (w.next cfg i) := next_acts w
  have hevents := hacts.happens.since.2
  rcases h with hretained | ⟨id', envelope, result, he⟩ | ⟨target, mail, he⟩
  · generalize w.next cfg i = w' at hacts hretained
    induction hacts with
    | refl => exact absurd rfl hretained
    | @tail v v' hbefore hact ih =>
      by_cases hv : v.disk.retained = w.disk.retained
      · have hstates := hact.states
        generalize hr : v'.disk.retained = retained at hstates
        cases hstates with
        | same => exact absurd (hr.trans hv) hretained
        | purge hclean => cases hlabel.symm.trans hclean
        | @put id s role raw' envelope _ _ h =>
          obtain ⟨-, rfl⟩ := NodeLabel.message.inj (hlabel.symm.trans h.label)
          exact ⟨v, id, s, role, envelope, hbefore, h⟩
      · exact ih hv
  · obtain ⟨v, v', hbefore, -, -, hhappens⟩ := hevents _ he
    cases hhappens with
    | queued h => exact ⟨v, _, _, _, _, hbefore, h⟩
  · obtain ⟨v, v', hbefore, -, -, hhappens⟩ := hevents _ he
    cases hhappens with
    | handed h =>
      obtain ⟨sender, s, _, role, envelope, h, -⟩ := h.of_live rfl
      exact ⟨v, sender, s, role, envelope, hbefore, h⟩

/-- Before an envelope passes, its message leaves the ticket of its socket. -/
theorem Acts.steady {v : NodeRelay} (h : Acts cfg i w₀ w v) (hlabel : i.label = .message id raw)
    (hparsed : cfg.parse raw = some envelope)
    (hordinary : (envelope.get (lit "type")).is (lit "relay.admission") = false)
    {c : SocketCard} (hc : w.card? id = some c) :
    ∃ c', v.card? id = some c' ∧ c'.room = c.room ∧ c'.ticket = c.ticket := by
  induction h with
  | refl => exact ⟨c, hc, rfl, rfl⟩
  | tail _ hact ih =>
    obtain ⟨c', hc', hroom, hticket⟩ := ih
    have hcard := hact.card id
    rw [hc'] at hcard
    generalize hx : NodeRelay.card? _ id = x at hcard
    cases hcard with
    | same => exact ⟨c', rfl, hroom, hticket⟩
    | registered => exact ⟨_, rfl, hroom, hticket⟩
    | renewed hlabel' hparsed' htype =>
      obtain ⟨-, rfl⟩ := NodeLabel.message.inj (hlabel.symm.trans hlabel')
      obtain rfl := Option.some_inj.1 (hparsed.symm.trans hparsed')
      exact absurd htype (by rw [hordinary]; exact Bool.false_ne_true)
    | left => exact ⟨_, rfl, hroom, hticket⟩

theorem renewed_spec {is : List NodeInput} (hrun : Run (Step cfg) w is w')
    {before after : ManagedTicket} (he : NodeEvent.renewed id before after ∈ w'.trace) :
    NodeEvent.renewed id before after ∈ w.trace ∨
      after.holder = before.holder ∧ before.expiresAt < after.expiresAt := by
  induction hrun with
  | nil => exact .inl he
  | @cons v v' _ i _ hstep _ ih =>
    rcases ih he with he | he
    · obtain ⟨htrace, hevents⟩ := hstep.acts.happens.since
      rw [htrace] at he
      refine (List.mem_append.1 he).imp_right fun he => ?_
      obtain ⟨u, u', -, -, -, hhappens⟩ := hevents _ he
      cases hhappens with
      | renewed _ _ hrenewable => exact renewable_spec hrenewable
    · exact .inr he

/-- **Managed admission**: only a socket whose ticket of a computer was signed for its room and has
not expired gets an envelope of a computer through; no frame changes the holder of the ticket of a
socket, and an accepted renewal moves its expiry on. -/
theorem managed_admission {authority : TicketAuthority} (hmanaged : cfg.admission = some authority)
    {is : List NodeInput} (hrun : Run (Step cfg) empty is w) (hs : w.sockets.get? id = some s) :
    (∀ i raw envelope, i.label = .message id raw → cfg.parse raw = some envelope →
      (envelope.get (lit "from")).is (lit "machine") = true → Carries w (w.next cfg i) raw →
        ∃ t value time, s.ticket = some t ∧
          readManagedTicket authority value s.room time = some t ∧ t.kind = .computer ∧
          i.now < t.expiresAt) ∧
      (∀ t, s.ticket = some t → t.kind = .phone → ∀ i raw envelope, i.label = .message id raw →
        cfg.parse raw = some envelope → (envelope.get (lit "from")).is (lit "machine") = true →
          ¬Carries w (w.next cfg i) raw) ∧
      (∀ js w' s', Run (Step cfg) w js w' → w'.sockets.get? id = some s' →
        s'.ticket.map (·.holder) = s.ticket.map (·.holder) ∧
          ∀ t t', s.ticket = some t → s'.ticket = some t' → t' = t ∨ t.expiresAt < t'.expiresAt) ∧
      ∀ before after, NodeEvent.renewed id before after ∈ w.trace →
        after.holder = before.holder ∧ before.expiresAt < after.expiresAt := by
  have hcard : w.card? id = some s.card := by
    rw [card?, hs]
    rfl
  have hverified := run_verified hrun (verified_empty cfg)
  have hcarries : ∀ i raw envelope, i.label = .message id raw → cfg.parse raw = some envelope →
      (envelope.get (lit "from")).is (lit "machine") = true → Carries w (w.next cfg i) raw →
        ∃ t value time, s.ticket = some t ∧
          readManagedTicket authority value s.room time = some t ∧ t.kind = .computer ∧
          i.now < t.expiresAt := by
    intro i raw envelope hlabel hparsed hmachine hcarries
    obtain ⟨v, id', s', role, envelope', hbefore, hpassed⟩ := passed_of_carries hlabel hcarries
    obtain ⟨rfl, -⟩ := NodeLabel.message.inj (hlabel.symm.trans hpassed.label)
    obtain rfl := Option.some_inj.1 (hparsed.symm.trans hpassed.parsed)
    obtain rfl := Option.some_inj.1 ((roleOf?_machine hmachine).symm.trans hpassed.sender)
    obtain ⟨c, hc, hroom, hticket⟩ :=
      Acts.steady hbefore hlabel hparsed hpassed.ordinary hcard
    obtain rfl := Option.some_inj.1 (hpassed.card.symm.trans hc)
    obtain ⟨hcommercial, hsigned⟩ := Acts.verified hbefore hverified id _ hc
    have hcommercial : s'.commercial = true := hcommercial.trans (by rw [hmanaged]; rfl)
    obtain ⟨t, ht, hlive⟩ := (Option.any_eq_true _ _).1 (hpassed.lease hcommercial rfl)
    obtain ⟨authority', value, time, hauthority, hread⟩ := hsigned t ht
    obtain rfl := Option.some_inj.1 (hmanaged.symm.trans hauthority)
    have hread : readManagedTicket authority value s.room time = some t :=
      congrArg (readManagedTicket authority value · time) hroom ▸ hread
    refine ⟨t, value, time, hticket.symm.trans ht, hread, ?_, of_decide_eq_true hlive⟩
    have hkind := hpassed.kind hcommercial t ht
    cases h : t.kind with
    | computer => rfl
    | phone =>
      rw [h] at hkind
      cases hkind
  refine ⟨hcarries, fun t ht hphone i raw envelope hlabel hparsed hmachine hcarried => ?_,
    fun js w' s' hlater hs' => ?_, fun before after he => ?_⟩
  · obtain ⟨t', -, -, ht', -, hkind, -⟩ := hcarries i raw envelope hlabel hparsed hmachine hcarried
    obtain rfl := Option.some_inj.1 (ht.symm.trans ht')
    cases hphone.symm.trans hkind
  · obtain ⟨c', hc', hrenews⟩ := run_renews hlater hcard
    obtain rfl : s'.card = c' := Option.some_inj.1 (by rw [← hc', card?, hs']; rfl)
    cases hticket : s.ticket with
    | none => exact ⟨congrArg (Option.map _) (hrenews.lacks hticket), fun _ _ ht _ => by cases ht⟩
    | some t =>
      obtain ⟨t', ht', hholder, hlater⟩ := hrenews.ticket t hticket
      refine ⟨(congrArg (Option.map _) ht').trans (congrArg some hholder), ?_⟩
      rintro _ t'' ⟨⟩ ht''
      obtain rfl := Option.some_inj.1 (ht'.symm.trans ht'')
      exact hlater
  · exact (renewed_spec hrun he).resolve_left List.not_mem_nil

/-! ### A computer with a lease -/

section Sample

def leaseValue : Json := .obj
  [(lit "version", .int 1), (lit "room", .str sampleRoom), (lit "expiresAt", .int 9000),
    (lit "accountId", .text "11111111-1111-4111-8111-111111111111"),
    (lit "computerId", .text "33333333-3333-4333-8333-333333333333"),
    (lit "publicKey", .str (List.replicate 43 65 ++ lit "="))]

/-- The key of the authority has signed one text. -/
def leaseAuthority : TicketAuthority where
  signs payload signature := payload = lit "lease" && signature = List.replicate 43 97
  payload text := if text = lit "lease" then some leaseValue else none

def leaseConfig : NodeConfig where
  parse raw := if raw = lit "reply" then some (sampleEnvelope "machine" "phone" "reply-1" 65) else none
  sha256 text := text
  admission := some leaseAuthority
  limits := .standard

def leaseUpgrade : NodeUpgrade :=
  { sampleUpgrade none with ticketHeader := some (lit "lease." ++ List.replicate 43 97) }

def leaseRelay : NodeRelay := empty.next leaseConfig ⟨1000, calm, .connect 0 leaseUpgrade⟩

/-- The reply that an event stored. -/
def queuedText : NodeEvent → Option Str
  | .queued _ raw _ .stored => some raw
  | _ => none

theorem exists_queued {events : List NodeEvent} {raw : Str}
    (h : events.any (fun e => queuedText e = some raw) = true) :
    ∃ id envelope result, NodeEvent.queued id raw envelope result ∈ events := by
  obtain ⟨e, he, htext⟩ := List.any_eq_true.1 h
  have htext := of_decide_eq_true htext
  unfold queuedText at htext
  split at htext
  · cases htext
    exact ⟨_, _, _, he⟩
  · cases htext

/-- The reply of a computer is stored while its lease lasts. -/
theorem managed_admission_sample :
    ∃ t value time, ((leaseRelay.sockets.get? 0).bind (·.ticket)) = some t ∧
      readManagedTicket leaseAuthority value sampleRoom time = some t ∧ t.kind = .computer ∧
      2000 < t.expiresAt := by
  have hrun : Run (Step leaseConfig) empty [⟨1000, calm, .connect 0 leaseUpgrade⟩] leaseRelay :=
    .single rfl
  have hsome : (leaseRelay.sockets.get? 0).isSome = true := by decide +kernel
  obtain ⟨s, hs⟩ := Option.isSome_iff_exists.1 hsome
  have hroom : (leaseRelay.sockets.get? 0).map (·.room) = some sampleRoom := by decide +kernel
  have hqueued : ∃ id envelope result, NodeEvent.queued id (lit "reply") envelope result ∈
      leaseRelay.since (leaseRelay.next leaseConfig ⟨2000, calm, .message 0 (lit "reply")⟩) :=
    exists_queued (by decide +kernel)
  obtain ⟨t, value, time, ht, hread, hkind, hlive⟩ := (managed_admission rfl hrun hs).1
    ⟨2000, calm, .message 0 (lit "reply")⟩ (lit "reply") _ rfl rfl (by decide)
    (.inr (.inl hqueued))
  rw [hs] at hroom ⊢
  exact ⟨t, value, time, ht, Option.some_inj.1 hroom ▸ hread, hkind, hlive⟩

end Sample

end NodeRelay

end GrantTap
