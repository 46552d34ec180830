import GrantTapRelay.Library.Runs
import GrantTapRelay.Node.Changes

/-!
# No delivery gap around a hello

A socket that registers a role is sent the rows of the mailbox one by one, and the frames that come
meanwhile directly. A row is `Owed` to it while the row waits in a flight. The end of a flight
hands the next row over or shortens the wait, so on a `FairRun`, where every send ends, each row of
the registration is handed over (`handed_of_owed`, by induction on the rows before it). A frame that
the mailbox takes goes to every socket that is open and matches (`enqueue_hands`).

* `no_delivery_gap`: the rows of a hello, the frames after it, and what is forwarded at all.
-/

namespace GrantTap

open Js Runs Relation

namespace NodeRelay

variable {cfg : NodeConfig} {i : NodeInput} {w₀ w w' w'' : NodeRelay} {id : ℕ} {s : NodeSocket}
  {role : Role} {raw : Str} {envelope : Json}

/-! ## Fair runs -/

/-- An infinite run in which every send ends, and with an error only on a socket that is not
open. -/
structure FairRun (cfg : NodeConfig) where
  state : ℕ → NodeRelay
  input : ℕ → NodeInput
  start : state 0 = empty
  step : ∀ t, Step cfg (state t) (input t) (state (t + 1))
  completes : ∀ t n f, (state t).flights.get? n = some f →
    ∃ t' ≥ t, (state t').flights.get? n = none
  failures : ∀ t n f, (input t).label = .complete n true → (state t).flights.get? n = some f →
    (state t).opened f.socket = false

/-! ## Handed and owed frames -/

/-- A frame is passed to the delivery of a socket between two states. -/
def Handed (w w' : NodeRelay) (id : ℕ) (frame : SocketFrame) : Prop :=
  ∃ mail, NodeEvent.handed id frame mail ∈ w.since w'

/-- A row waits for a socket behind fewer than `k` others. -/
def Owed (w : NodeRelay) (id : ℕ) (row : ReplayRow) (k : ℕ) : Prop :=
  ∃ n f rows, w.flights.get? n = some f ∧ f.socket = id ∧ f.rest = some rows ∧ row ∈ rows ∧
    rows.length < k

/-- A delivery to a socket that is open after it. -/
theorem deliver_hands (w : NodeRelay) (choice : SendChoice) (id : ℕ) (frame : SocketFrame)
    (rest : Option (List ReplayRow)) (deliveryId : Option Str) (now : ℤ)
    (hopen : (w.deliver choice id frame rest deliveryId now).2.opened id = true) :
    Handed w (w.deliver choice id frame rest deliveryId now).2 id frame ∧
      ∃ n f, (w.deliver choice id frame rest deliveryId now).2.flights.get? n = some f ∧
        f.socket = id ∧ f.rest = rest := by
  unfold deliver at hopen ⊢
  split at hopen
  · rename_i hs
    rw [opened, hs] at hopen
    cases hopen
  · rename_i s hs
    dsimp only at hopen ⊢
    have hhanded : NodeEvent.handed id frame w.disk.store ∈
        w.since (w.record (.handed id frame w.disk.store)) := by
      rw [since, record, List.drop_left]
      exact List.mem_cons_self
    split_ifs at hopen ⊢ with hclosed hslow hthrows
    · rw [show (w.record (.handed id frame w.disk.store)).opened id = s.isOpen by
        rw [opened, record, hs]; rfl] at hopen
      simp [hopen] at hclosed
    · rw [opened_shut] at hopen
      cases hopen
    · unfold update opened at hopen
      simp [record, setSocket] at hopen
    · refine ⟨⟨w.disk.store, ?_⟩, _, _, (Table.get?_put ..).trans (if_pos rfl), rfl, rfl⟩
      exact mem_since_mono ⟨_, rfl⟩ ⟨_, rfl⟩ hhanded

theorem replay_hands (w : NodeRelay) (parse : Str → Option Json) (choice : SendChoice) (id : ℕ)
    (rows : List ReplayRow) (now : ℤ)
    (hopen : (w.replay parse choice id rows now).opened id = true) {row : ReplayRow}
    (hrow : row ∈ rows) :
    Handed w (w.replay parse choice id rows now) id row.frame ∨
      Owed (w.replay parse choice id rows now) id row rows.length := by
  unfold replay at hopen ⊢
  cases rows with
  | nil => cases hrow
  | cons first rest =>
    cases hs : w.sockets.get? id with
    | none =>
      rw [hs] at hopen
      dsimp only at hopen
      rw [opened, hs] at hopen
      cases hopen
    | some s =>
      rw [hs] at hopen
      dsimp only at hopen ⊢
      split_ifs at hopen ⊢ with hsocket
      · obtain ⟨hhanded, n, f, hf, hid, hrest⟩ := deliver_hands _ _ _ _ _ _ _ hopen
        rcases List.mem_cons.1 hrow with rfl | hrow
        · exact .inl hhanded
        · exact .inr ⟨n, f, rest, hf, hid, hrest, hrow, Nat.lt_succ_self _⟩
      · rw [opened, hs] at hopen
        exact absurd hopen hsocket

/-! ## Forwarded frames -/

theorem forwardTo_quiet (choice : SendChoice) (id : ℕ) (raw : Str) (envelope : Json) (now : ℤ)
    (w : NodeRelay) (target : ℕ × NodeSocket) :
    Quiet (fun _ _ => True) (fun _ => True) w (forwardTo choice id raw envelope now w target) := by
  unfold forwardTo
  split_ifs
  · exact deliver_quiet w choice target.1 _ now trivial fun _ _ _ _ => trivial
  · exact .refl w

theorem forwardTo_hands (choice : SendChoice) (id : ℕ) (raw : Str) (envelope : Json) (now : ℤ)
    (w : NodeRelay) (target : ℕ × NodeSocket) (hne : target.1 ≠ id)
    (hto : addresses envelope target.2.role = true)
    (hmatches : matchesRecipient envelope target.2.recipientKeyId = true)
    (hopen : (forwardTo choice id raw envelope now w target).opened target.1 = true) :
    Handed w (forwardTo choice id raw envelope now w target) target.1 (.live raw) := by
  have hbefore := (forwardTo_quiet choice id raw envelope now w target).opened _ hopen
  unfold forwardTo at hopen ⊢
  rw [if_pos ⟨hne, hbefore, hto, hmatches⟩] at hopen ⊢
  exact (deliver_hands _ _ _ _ _ _ _ hopen).1

theorem Quiet.grew {F : ℕ → SocketFrame → Prop} {P : ℕ → Prop} (h : Quiet F P w w') :
    w.trace <+: w'.trace := by
  obtain ⟨new, hnew, -⟩ := h.trace
  exact ⟨new, hnew.symm⟩

theorem forwardLoop_hands (choice : SendChoice) (id : ℕ) (raw : Str) (envelope : Json) (now : ℤ)
    (target : ℕ × NodeSocket) (hne : target.1 ≠ id)
    (hto : addresses envelope target.2.role = true)
    (hmatches : matchesRecipient envelope target.2.recipientKeyId = true) :
    ∀ (l : List (ℕ × NodeSocket)) (w : NodeRelay), target ∈ l →
      (l.foldl (forwardTo choice id raw envelope now) w).opened target.1 = true →
        Handed w (l.foldl (forwardTo choice id raw envelope now) w) target.1 (.live raw)
  | peer :: l, w, hmem, hopen => by
    have hfirst := forwardTo_quiet choice id raw envelope now w peer
    have hrest : Quiet (fun _ _ => True) (fun _ => True) (forwardTo choice id raw envelope now w peer)
        (l.foldl (forwardTo choice id raw envelope now)
          (forwardTo choice id raw envelope now w peer)) :=
      Quiet.foldl fun v _ a _ => forwardTo_quiet choice id raw envelope now v a
    rcases List.mem_cons.1 hmem with rfl | hmem
    · obtain ⟨mail, hmail⟩ := forwardTo_hands choice id raw envelope now w target hne hto hmatches
        (hrest.opened _ hopen)
      exact ⟨mail, mem_since_mono hfirst.grew hrest.grew hmail⟩
    · obtain ⟨mail, hmail⟩ := forwardLoop_hands choice id raw envelope now target hne hto hmatches l
        _ hmem hopen
      exact ⟨mail, mem_since_later hfirst.grew hmail⟩

theorem forward_hands (w : NodeRelay) (choice : SendChoice) (id : ℕ) (room raw : Str)
    (envelope : Json) (now : ℤ) {target : ℕ} {t : NodeSocket} (hne : target ≠ id)
    (ht : w.card? target = some t.card) (hjoined : t.joined = true) (hroom : t.room = room)
    (hto : addresses envelope t.role = true)
    (hmatches : matchesRecipient envelope t.recipientKeyId = true)
    (hopen : (w.forward choice id room raw envelope now).opened target = true) :
    Handed w (w.forward choice id room raw envelope now) target (.live raw) := by
  obtain ⟨t', hs, hcard⟩ := Option.map_eq_some_iff.1 ht
  simp only [NodeSocket.card, SocketCard.mk.injEq] at hcard
  obtain ⟨hroom', hrole', -, -, -, hkey', hjoined'⟩ := hcard
  have hmem : (target, t') ∈ w.members room := List.mem_filter.2 ⟨Table.mem_rows.2 hs, by
    rw [hjoined', hjoined, hroom', hroom]
    exact decide_eq_true rfl⟩
  have hloop := forwardLoop_hands choice id raw envelope now (target, t') hne
    (hrole' ▸ hto) (hkey' ▸ hmatches) (w.members room) w hmem
  unfold forward at hopen ⊢
  dsimp only at hopen ⊢
  split_ifs at hopen ⊢
  · obtain ⟨mail, hmail⟩ := hloop hopen
    exact ⟨mail, mem_since_mono (forwardLoop_quiet ..).grew ⟨_, rfl⟩ hmail⟩
  · exact hloop hopen

/-- **A frame that the mailbox took** goes to every socket that is open and matches. -/
theorem enqueue_hands {dest : Role} {deliveryId : Str} {r : RelayStore × QueueResult}
    (hto : roleOf? (envelope.get (lit "to")) = some dest)
    (hid : deliveryId? envelope = some deliveryId) {choice : NodeChoice}
    (hfails : choice.enqueueFails = none) {now : ℤ}
    (hr : r = w.disk.store.enqueue s.room dest raw (some deliveryId)
      (envelope.get (lit "expiresAt")).int? now) (htook : r.2 = .stored ∨ r.2 = .duplicate)
    {target : ℕ} {t : NodeSocket} (hne : target ≠ id) (ht : w.card? target = some t.card)
    (hjoined : t.joined = true) (hroom : t.room = s.room) (hrole : t.role = some dest)
    (hmatches : matchesRecipient envelope t.recipientKeyId = true)
    (hopen : (w.enqueueEnvelope cfg choice id s raw envelope now).opened target = true) :
    Handed w (w.enqueueEnvelope cfg choice id s raw envelope now) target (.live raw) := by
  have hqueued : w.trace <+: (({ w with disk := { w.disk with store := r.1 } }).record
      (.queued id raw envelope r.2)).trace := ⟨_, rfl⟩
  have hreceipt := sendReceipt_quiet (({ w with disk := { w.disk with store := r.1 } }).record
    (.queued id raw envelope r.2)) choice.toSendChoice id s envelope deliveryId now
  have hforward := forward_hands ((({ w with disk := { w.disk with store := r.1 } }).record
    (.queued id raw envelope r.2)).sendReceipt choice.toSendChoice id s envelope deliveryId now)
    choice.toSendChoice id s.room raw envelope now hne ((hreceipt.cards target).trans ht) hjoined
    hroom (hrole ▸ addresses_of_roleOf? hto) hmatches
  simp only [enqueueEnvelope, hto, hid, hfails, ← hr, settleEnvelope,
    queueOutcome_forward.2 htook] at hopen ⊢
  obtain ⟨mail, hmail⟩ := hforward hopen
  exact ⟨mail, mem_since_later (hqueued.trans hreceipt.grew) hmail⟩

/-! ## Steps -/

theorem Acts.numbered (h : Acts cfg i w₀ w w') (hw : Numbered w) : Numbered w' := by
  induction h with
  | refl => exact hw
  | tail _ hact ih => exact hact.numbered ih

theorem Acts.openJoined (h : Acts cfg i w₀ w w') (hw : OpenJoined w) : OpenJoined w' := by
  induction h with
  | refl => exact hw
  | tail _ hact ih => exact hact.openJoined ih

theorem Acts.opened (h : Acts cfg i w₀ w w') {c : SocketCard} (hc : w.card? id = some c)
    (hopen : w'.opened id = true) : w.opened id = true := by
  induction h with
  | refl => exact hopen
  | tail hbefore hact ih =>
    obtain ⟨c', hc', -⟩ := Acts.known hbefore hc
    exact ih ((hact.opened hopen).resolve_right fun hnone => by rw [hc'] at hnone; cases hnone)

theorem Acts.kept (h : Acts cfg i w₀ w w') (hw : Numbered w) {n : ℕ} {f : Flight}
    (hf : w.flights.get? n = some f) {c : SocketCard} (hc : w.card? f.socket = some c)
    (hopen : w'.opened f.socket = true) :
    w'.flights.get? n = some f ∨ ∃ failed, i.label = .complete n failed := by
  induction h with
  | refl => exact .inl hf
  | tail hbefore hact ih =>
    obtain ⟨c', hc', -⟩ := Acts.known hbefore hc
    have hopen' := (hact.opened hopen).resolve_right fun hnone => by rw [hc'] at hnone; cases hnone
    rcases ih hopen' with hf' | hlabel
    · rcases hact.kept (Acts.numbered hbefore hw n f hf') hf' with h | h | h
      · exact .inl h
      · rw [h] at hopen
        cases hopen
      · exact .inr h
    · exact .inr hlabel

namespace FairRun

variable (r : FairRun cfg)

theorem acts (t : ℕ) : Acts cfg (r.input t) (r.state t) (r.state t) (r.state (t + 1)) :=
  (r.step t).acts

theorem numbered : ∀ t, Numbered (r.state t)
  | 0 => fun n f h => by
    rw [r.start] at h
    cases h
  | t + 1 => Acts.numbered (r.acts t) (numbered t)

theorem openJoined : ∀ t, OpenJoined (r.state t)
  | 0 => fun id c _ h => by
    rw [r.start] at h
    cases h
  | t + 1 => Acts.openJoined (r.acts t) (openJoined t)

theorem grew {t t' : ℕ} (h : t ≤ t') : (r.state t).trace <+: (r.state t').trace := by
  induction t', h using Nat.le_induction with
  | base => exact ⟨[], List.append_nil _⟩
  | succ m _ ih => exact ih.trans (Acts.grew (r.acts m))

theorem known {t t' : ℕ} (h : t ≤ t') {c : SocketCard} (hc : (r.state t).card? id = some c) :
    ∃ c', (r.state t').card? id = some c' ∧ SameSocket c c' := by
  induction t', h using Nat.le_induction with
  | base => exact ⟨c, hc, .refl c⟩
  | succ m _ ih =>
    obtain ⟨c', hc', hsame⟩ := ih
    obtain ⟨c'', hc'', hsame'⟩ := Acts.known (r.acts m) hc'
    exact ⟨c'', hc'', hsame.trans hsame'⟩

/-- **What waits is handed over**, by induction on the rows that wait before it. -/
theorem handed_of_owed {id : ℕ} {row : ReplayRow} {c : SocketCard} (k : ℕ) :
    ∀ t, Owed (r.state t) id row k → (r.state t).card? id = some c →
      (∀ t' ≥ t, (r.state t').opened id = true) →
        ∃ t' ≥ t, Handed (r.state t) (r.state t') id row.frame := by
  induction k using Nat.strong_induction_on generalizing c with
  | _ k ih =>
    rintro t ⟨n, f, rows, hf, rfl, hrest, hrow, hk⟩ hc hopen
    obtain ⟨t', hle, hgone⟩ := r.completes t n f hf
    obtain ⟨m, hm, hflight, hfell⟩ := exists_last (P := fun m =>
      (r.state m).flights.get? n = some f) hle hf fun h => by
        rw [hgone] at h
        cases h
    obtain ⟨c', hc', -⟩ := r.known hm hc
    have hopened := hopen (m + 1) (hm.trans (Nat.le_succ m))
    obtain ⟨failed, hlabel⟩ := (Acts.kept (r.acts m) (r.numbered m) hflight hc'
      hopened).resolve_left hfell
    have hdone : failed = false := by
      cases failed with
      | false => rfl
      | true => exact absurd (hopen m hm) (by rw [r.failures m n f hlabel hflight]; decide)
    have hstep : r.state (m + 1) = ({ r.state m with
        flights := (r.state m).flights.erase n }).replay cfg.parse
          (r.input m).choice.toSendChoice f.socket rows (r.input m).now := by
      rw [show r.state (m + 1) = (r.state m).next cfg (r.input m) from r.step m, next, hlabel]
      dsimp only
      rw [complete, hflight, hdone]
      dsimp only
      rw [hrest]
      rfl
    rw [hstep] at hopened
    rcases replay_hands _ _ _ _ _ _ hopened hrow with ⟨mail, hmail⟩ | howed
    · rw [← hstep] at hmail
      exact ⟨m + 1, hm.trans (Nat.le_succ m), mail, mem_since_later (r.grew hm) hmail⟩
    · rw [← hstep] at howed
      obtain ⟨c'', hc'', -⟩ := r.known (hm.trans (Nat.le_succ m)) hc
      obtain ⟨t'', hle'', mail, hmail⟩ := ih rows.length hk (m + 1) howed hc''
        fun t' ht' => hopen t' (hm.trans ((Nat.le_succ m).trans ht'))
      have hlater := hm.trans (Nat.le_succ m)
      exact ⟨t'', hlater.trans hle'', mail, mem_since_later (r.grew hlater) hmail⟩

end FairRun

/-! ## The hello -/

/-- **A hello**: a step in which a socket gets its role replays the mailbox it found to it. -/
theorem Acts.registered (h : Acts cfg i w₀ w w') {c c' : SocketCard} (hc : w.card? id = some c)
    (hrole : c.role = none) (hc' : w'.card? id = some c') (hrole' : c'.role = some role) :
    ∃ v s raw envelope, Passed cfg i v id s role raw envelope ∧ Still w₀ v ∧
      w.trace <+: v.trace ∧
      Acts cfg i w₀ w (v.registerRole cfg i.choice.toSendChoice id s role envelope i.now) ∧
      Acts cfg i w₀ (v.registerRole cfg i.choice.toSendChoice id s role envelope i.now) w' := by
  induction h generalizing c' with
  | refl =>
    obtain rfl := Option.some_inj.1 (hc.symm.trans hc')
    cases hrole.symm.trans hrole'
  | @tail v v' hbefore hact ih =>
    have hcard := hact.card id
    obtain ⟨x, hx, -⟩ := Acts.known hbefore hc
    rw [hc', hx] at hcard
    have hearlier (hsame : x.role = c'.role) := ih hx (hsame.trans hrole')
    generalize he : some x = before at hcard
    generalize he' : some c' = after at hcard
    cases hcard with
    | same =>
      cases he'
      cases he
      obtain ⟨u, s, raw, envelope, h, hstill, hle, hu, hacts⟩ := hearlier rfl
      exact ⟨u, s, raw, envelope, h, hstill, hle, hu, hacts.tail hact⟩
    | opened => cases he
    | @registered s role' raw envelope h hnone hstart hregister =>
      cases he'
      obtain rfl := Option.some_inj.1 (show some role' = some role from hrole')
      refine ⟨v, s, raw, envelope, h, hstart, Acts.grew hbefore, ?_⟩
      rw [← hregister]
      exact ⟨hbefore.tail hact, .refl⟩
    | @renewed s raw frame authority current next =>
      cases he
      cases he'
      obtain ⟨u, s, raw, envelope, h, hstill, hle, hu, hacts⟩ := hearlier rfl
      exact ⟨u, s, raw, envelope, h, hstill, hle, hu, hacts.tail hact⟩
    | left =>
      cases he
      cases he'
      obtain ⟨u, s, raw, envelope, h, hstill, hle, hu, hacts⟩ := hearlier rfl
      exact ⟨u, s, raw, envelope, h, hstill, hle, hu, hacts.tail hact⟩

/-- The rows of the mailbox that a hello replays. -/
theorem mem_replayRows (parse : Str → Option Json) (now : ℤ) {item : QueueRow}
    (hitem : item ∈ (w.disk.store.queue s.room role now).2)
    (hmatches : matchesQueuedRecipient parse item.raw s.recipientKeyId = true) :
    (⟨false, item.raw, item.deliveryId⟩ : ReplayRow) ∈ w.replayRows parse s role now :=
  List.mem_filter.2 ⟨List.mem_append_right _ (List.mem_map_of_mem hitem), hmatches⟩

theorem registerRole_hands (w : NodeRelay) (cfg : NodeConfig) (choice : SendChoice) (id : ℕ)
    (s : NodeSocket) (role : Role) (envelope : Json) (now : ℤ)
    (hopen : (w.registerRole cfg choice id s role envelope now).opened id = true)
    {row : ReplayRow} (hrow : row ∈ w.replayRows cfg.parse s role now) :
    Handed w (w.registerRole cfg choice id s role envelope now) id row.frame ∨
      ∃ k, Owed (w.registerRole cfg choice id s role envelope now) id row k := by
  have htrace := trace_update w id fun s => registered s role envelope
  rw [← replayRows_update w id fun s => registered s role envelope] at hrow
  rcases replay_hands _ _ _ _ _ _ hopen hrow with ⟨mail, hmail⟩ | howed
  · exact .inl ⟨mail, mem_since_later ⟨[], (List.append_nil _).trans htrace.symm⟩ hmail⟩
  · exact .inr ⟨_, howed⟩

/-- After the step of a hello, a row of the mailbox is handed over or owed. -/
theorem hello_hands (h : Acts cfg i w w w') (hw : Numbered w) {c c' : SocketCard}
    (hc : w.card? id = some c) (hnone : c.role = none) (hc' : w'.card? id = some c')
    (hrole : c'.role = some role) (hopen : w'.opened id = true) {item : QueueRow}
    (hitem : item ∈ (w.disk.store.queue c.room role i.now).2)
    (hmatches : matchesQueuedRecipient cfg.parse item.raw c.recipientKeyId = true) :
    Handed w w' id (.mailbox item.raw) ∨
      ∃ k row, row.frame = .mailbox item.raw ∧ Owed w' id row k := by
  obtain ⟨v, s, raw, envelope, hpassed, hstill, hle, hbefore, hafter⟩ :=
    Acts.registered h hc hnone hc' hrole
  obtain rfl : s.card = c := Option.some_inj.1 (hpassed.card.symm.trans ((hstill.cards id).trans hc))
  have hrow : ⟨false, item.raw, item.deliveryId⟩ ∈ v.replayRows cfg.parse s role i.now :=
    mem_replayRows cfg.parse i.now (by rw [hstill.store]; exact hitem) hmatches
  obtain ⟨x, hx, -⟩ := Acts.known hbefore hc
  rcases registerRole_hands v cfg _ id s role envelope i.now (Acts.opened hafter hx hopen) hrow with
    ⟨mail, hmail⟩ | ⟨k, n, f, rows, hf, rfl, hrest, hmem, hlt⟩
  · exact .inl ⟨mail, mem_since_mono (Acts.grew hbefore) (Acts.grew hafter)
      (mem_since_later hle hmail)⟩
  · rcases Acts.kept hafter (Acts.numbered hbefore hw) hf hx hopen with hf' | ⟨failed, hlabel⟩
    · exact .inr ⟨k, _, rfl, n, f, rows, hf', rfl, hrest, hmem, hlt⟩
    · cases hpassed.label.symm.trans hlabel

/-- A frame that the mailbox takes in a step goes to every socket that is open and matches. -/
theorem queued_hands (h : Acts cfg i w w w') (hw : OpenJoined w) {c : SocketCard}
    (hc : w.card? id = some c) (hrole : c.role = some role) (hopen : w'.opened id = true)
    {sender : ℕ} {x : SocketCard} (hne : sender ≠ id) {result : QueueResult}
    (he : NodeEvent.queued sender raw envelope result ∈ w.since w')
    (htook : result = .stored ∨ result = .duplicate) (hx : w.card? sender = some x)
    (hroom : x.room = c.room) (hto : roleOf? (envelope.get (lit "to")) = some role)
    (hmatches : matchesRecipient envelope c.recipientKeyId = true) :
    Handed w w' id (.live raw) := by
  obtain ⟨v, v', hbefore, hact, hafter, hhappens⟩ := (Acts.happens h).since.2 _ he
  cases hhappens with
  | @queued _ s _ dest _ deliveryId _ hpassed _ hdest hid hfails hact' =>
    obtain rfl := Option.some_inj.1 (hto.symm.trans hdest)
    obtain ⟨y, hy, hsame⟩ := Acts.known hbefore hc
    obtain ⟨z, hz, hsame'⟩ := Acts.known hbefore hx
    obtain ⟨t, -, hcard⟩ := Option.map_eq_some_iff.1 hy
    obtain rfl : s.card = z := Option.some_inj.1 (hpassed.card.symm.trans hz)
    obtain ⟨y', hy', -⟩ := Acts.known (hbefore.tail hact) hc
    have hopen' := Acts.opened hafter hy' hopen
    have hjoined : y.joined = true := Acts.openJoined hbefore hw id y
      (Acts.opened (.single hact) hy hopen') hy
    subst hcard
    rw [hact'] at hopen'
    obtain ⟨mail, hmail⟩ := enqueue_hands (s := s) hto hid hfails rfl htook hne.symm hy hjoined
      (hsame.room.trans (hroom.symm.trans hsame'.room.symm)) (hsame.role _ hrole)
      ((show c.recipientKeyId = t.recipientKeyId from hsame.key.symm) ▸ hmatches) hopen'
    rw [← hact'] at hmail
    exact ⟨mail, mem_since_mono (Acts.grew (hbefore.tail hact)) (Acts.grew hafter)
      (mem_since_later (Acts.grew hbefore) hmail)⟩

/-- What is forwarded, or wakes a device, lies in the mailbox of its role. -/
theorem forwarded_stored (h : Acts cfg i w w w') (raw : Str) {deliveryId : Str}
    (hto : roleOf? (envelope.get (lit "to")) = some role)
    (hid : deliveryId? envelope = some deliveryId) :
    (∀ target mail, cfg.parse raw = some envelope →
      NodeEvent.handed target (.live raw) mail ∈ w.since w' → ∃ x, w'.card? target = some x ∧
        ∃ row ∈ (mail.queue x.room role i.now).2, row.deliveryId = some deliveryId) ∧
      ∀ room mail, NodeEvent.woken room envelope mail ∈ w.since w' →
        ∃ row ∈ (mail.queue room role i.now).2, row.deliveryId = some deliveryId := by
  have hqueued : ∀ {v v' : NodeRelay} {s : NodeSocket} {text : Str} {r : RelayStore × QueueResult},
      Taken v v' s text envelope role deliveryId i.now r →
        ∃ row ∈ (v'.disk.store.queue s.room role i.now).2, row.deliveryId = some deliveryId := by
    intro v v' s text r ht
    rw [ht.store]
    have hresult := ht.result
    rw [ht.queued] at hresult ⊢
    exact RelayStore.exists_queued hresult
  refine ⟨fun target mail hparsed he => ?_, fun room mail he => ?_⟩
  · obtain ⟨v, v', hbefore, hact, hafter, hhappens⟩ := (Acts.happens h).since.2 _ he
    cases hhappens with
    | handed hsent =>
      obtain ⟨sender, s, t, role', envelope', hpassed, hcard, hroom, htaken⟩ := hsent.of_live rfl
      obtain rfl := Option.some_inj.1 (hpassed.parsed.symm.trans hparsed)
      obtain ⟨r, ht⟩ := htaken role deliveryId hto hid
      obtain ⟨x, hx, hsame⟩ := Acts.known ((ReflTransGen.single hact).trans hafter) hcard
      refine ⟨x, hx, ?_⟩
      rw [hsame.room.trans hroom]
      exact hqueued ht
  · obtain ⟨v, v', hbefore, hact, hafter, hhappens⟩ := (Acts.happens h).since.2 _ he
    cases hhappens with
    | woken hpassed htaken =>
      obtain ⟨r, ht⟩ := htaken role deliveryId hto hid
      exact hqueued ht

/-- **No delivery gap around a hello.** A socket that registers a role, and stays open, is handed
every row of its mailbox that matches it, and every frame that another socket of its room gets
stored, or reported as a duplicate, afterwards; and only what the mailbox holds is forwarded or
wakes a device. -/
theorem no_delivery_gap (r : FairRun cfg) :
    (∀ t id c c' role, (r.state t).card? id = some c → c.role = none →
      (r.state (t + 1)).card? id = some c' → c'.role = some role →
      (∀ t' > t, (r.state t').opened id = true) →
        (∀ item ∈ ((r.state t).disk.store.queue c.room role (r.input t).now).2,
          matchesQueuedRecipient cfg.parse item.raw c.recipientKeyId = true →
            ∃ t' > t, Handed (r.state t) (r.state t') id (.mailbox item.raw)) ∧
        ∀ t' > t, ∀ sender raw envelope result x, sender ≠ id →
          NodeEvent.queued sender raw envelope result ∈ (r.state t').since (r.state (t' + 1)) →
          result = .stored ∨ result = .duplicate → (r.state t').card? sender = some x →
          x.room = c.room → roleOf? (envelope.get (lit "to")) = some role →
          matchesRecipient envelope c.recipientKeyId = true →
            Handed (r.state t') (r.state (t' + 1)) id (.live raw)) ∧
      ∀ t envelope role deliveryId, roleOf? (envelope.get (lit "to")) = some role →
        deliveryId? envelope = some deliveryId →
          (∀ raw target mail, cfg.parse raw = some envelope →
            NodeEvent.handed target (.live raw) mail ∈ (r.state t).since (r.state (t + 1)) →
              ∃ x, (r.state (t + 1)).card? target = some x ∧
                ∃ row ∈ (mail.queue x.room role (r.input t).now).2,
                  row.deliveryId = some deliveryId) ∧
          ∀ room mail, NodeEvent.woken room envelope mail ∈
            (r.state t).since (r.state (t + 1)) →
              ∃ row ∈ (mail.queue room role (r.input t).now).2,
                row.deliveryId = some deliveryId := by
  refine ⟨fun t id c c' role hc hnone hc' hrole hopen => ⟨fun item hitem hmatches => ?_,
    fun t' ht' sender raw envelope result x hne he htook hx hroom hto hmatches => ?_⟩,
    fun t envelope role deliveryId hto hid => ⟨fun raw => (forwarded_stored (r.acts t) raw hto hid).1,
      (forwarded_stored (r.acts t) [] hto hid).2⟩⟩
  · rcases hello_hands (r.acts t) (r.numbered t) hc hnone hc' hrole (hopen _ (Nat.lt_succ_self t))
      hitem hmatches with hhanded | ⟨k, row, hframe, howed⟩
    · exact ⟨t + 1, Nat.lt_succ_self t, hhanded⟩
    · obtain ⟨t', ht', mail, hmail⟩ := r.handed_of_owed k (t + 1) howed hc' fun t' ht' =>
        hopen t' ht'
      exact ⟨t', ht', mail, hframe ▸ mem_since_later (r.grew (Nat.le_succ t)) hmail⟩
  · obtain ⟨c'', hc'', hsame⟩ := r.known ht' hc'
    have hsame' : SameSocket c c' := by
      obtain ⟨y, hy, hsame⟩ := Acts.known (r.acts t) hc
      rwa [Option.some_inj.1 (hc'.symm.trans hy)]
    refine queued_hands (r.acts t') (r.openJoined t') hc'' (hsame.role role hrole)
      (hopen (t' + 1) (ht'.trans (Nat.lt_succ_self t'))) hne he htook hx ?_ hto ?_
    · exact hroom.trans (hsame'.trans hsame).room.symm
    · exact (hsame'.trans hsame).key.symm ▸ hmatches

/-! ### A reply that waits for its phone -/

section Sample

def replyConfig : NodeConfig where
  parse raw :=
    if raw = lit "reply" then some (sampleEnvelope "machine" "phone" "reply-1" 65)
    else if raw = lit "hello" then some (sampleEnvelope "phone" "machine" "hello-1" 65)
    else none
  sha256 text := text
  admission := none
  limits := .standard

/-- A computer stores a reply, a phone says hello, and the sends end. -/
def replyInput : ℕ → NodeInput
  | 0 => ⟨1000, calm, .connect 0 (sampleUpgrade none)⟩
  | 1 => ⟨1000, calm, .message 0 (lit "reply")⟩
  | 2 => ⟨1000, calm, .connect 1 (sampleUpgrade none)⟩
  | 3 => ⟨1000, calm, .message 1 (lit "hello")⟩
  | 4 => ⟨1000, calm, .complete 6 false⟩
  | 5 => ⟨1000, calm, .complete 10 false⟩
  | _ => ⟨1000, calm, .closing 2⟩

def replyState : ℕ → NodeRelay
  | 0 => empty
  | t + 1 => (replyState t).next replyConfig (replyInput t)

/-- Nothing happens after the sends. -/
theorem replyState_late (k : ℕ) : replyState (6 + k) = replyState 6 := by
  induction k with
  | zero => rfl
  | succ k ih =>
    have hstep : replyState (6 + k + 1) = (replyState (6 + k)).next replyConfig
        ⟨1000, calm, .closing 2⟩ := by
      rw [replyState, Nat.add_comm 6 k]
      rfl
    have hgone : ((replyState 6).sockets.get? 2).isNone = true := by decide +kernel
    rw [← Nat.add_assoc, hstep, ih, next]
    dsimp only
    rw [update, Option.isNone_iff_eq_none.1 hgone]

theorem flights_late {t : ℕ} (h : 6 ≤ t) (n : ℕ) : (replyState t).flights.get? n = none := by
  obtain ⟨k, rfl⟩ := Nat.exists_eq_add_of_le h
  rw [replyState_late, Table.get?_eq_none, List.eq_nil_of_length_eq_zero
    (show (replyState 6).flights.rows.length = 0 by decide +kernel)]
  exact List.not_mem_nil

def replyRun : FairRun replyConfig where
  state := replyState
  input := replyInput
  start := rfl
  step _ := rfl
  completes t n f h := ⟨t + 6, Nat.le_add_right t 6, flights_late (Nat.le_add_left 6 t) n⟩
  failures t n f h := by
    match t with
    | 0 | 1 | 2 | 3 | 4 | 5 => cases h
    | t + 6 => cases h

/-- The phone is handed the reply that waited for it. -/
theorem no_delivery_gap_sample : ∃ t' > 3, Handed (replyState 3) (replyState t') 1
    (.mailbox (lit "reply")) := by
  have hopen : ∀ t' > 3, (replyState t').opened 1 = true := by
    have hsoon : ∀ t' < 7, 3 < t' → (replyState t').opened 1 = true := by decide +kernel
    intro t' ht'
    rcases Nat.lt_or_ge t' 7 with hlt | hge
    · exact hsoon t' hlt ht'
    · obtain ⟨k, rfl⟩ := Nat.exists_eq_add_of_le (Nat.le_of_succ_le hge)
      rw [replyState_late]
      exact hsoon 6 (by decide) (by decide)
  have hrole : ((replyState 3).card? 1).map (·.role) = some none := by decide +kernel
  have hrole' : ((replyState 4).card? 1).map (·.role) = some (some .phone) := by decide +kernel
  have hkey : ((replyState 3).card? 1).map (·.recipientKeyId) = some none := by decide +kernel
  have hrows : ((replyState 3).card? 1).all (fun c =>
      ((replyState 3).disk.store.queue c.room .phone 1000).2.any fun item =>
        item.raw = lit "reply") = true := by decide +kernel
  obtain ⟨c, hc, hnone⟩ := Option.map_eq_some_iff.1 hrole
  obtain ⟨c', hc', hphone⟩ := Option.map_eq_some_iff.1 hrole'
  rw [hc] at hrows hkey
  obtain ⟨item, hitem, hraw⟩ := List.any_eq_true.1 hrows
  have hhanded := ((no_delivery_gap replyRun).1 3 1 c c' .phone hc hnone hc' hphone hopen).1 item
    hitem (by rw [show c.recipientKeyId = none from Option.some_inj.1 hkey]; rfl)
  rwa [of_decide_eq_true hraw] at hhanded

end Sample

end NodeRelay

end GrantTap
