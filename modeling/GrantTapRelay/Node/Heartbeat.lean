import GrantTapRelay.Library.Watchdog
import GrantTapRelay.Node.HelloReplay

/-!
# The heartbeat of the Node relay

`src/node/heartbeat.js`: every interval the relay pings its sockets, and terminates those that have
not answered the ping before. A `HeartbeatRelay` is the Node relay with what the heartbeat keeps of
its sockets. Besides the source's `awaitingPong` it notes when each socket was heard last, and when
the heartbeat terminated it.

A terminated socket stays in its room until the library reports that it closed, as one that closes
for another reason does. `setInterval` counts from the last sweep, or from the start of the process;
a process that ends leaves no socket in any room.

* `Next.run`: **the heartbeat only closes sockets**: its relay runs as the relay of `Node.Messages`.
* `next_watch`: what happens to one socket is what happens to a peer of a watchdog.
* `silent_sockets_leave`: **sockets that stay in their rooms** were heard within two intervals, and
  those that a sweep terminates were silent for one.
-/

namespace GrantTap

open Js Runs Watchdogs

/-! ## The interval -/

def HEARTBEAT_INTERVAL_MS : ℤ := 30000

def MIN_INTERVAL_MS : ℤ := 1000

def MAX_INTERVAL_MS : ℤ := 120000

/-- `heartbeatIntervalFrom`; `number` is the integer that `Number(text)` is, if it is one. -/
def heartbeatIntervalFrom (number : Str → Option ℤ) (value : Option Str) : ℤ :=
  match value with
  | none => HEARTBEAT_INTERVAL_MS
  | some text =>
    if text = [] then HEARTBEAT_INTERVAL_MS
    else
      match number text with
      | none => HEARTBEAT_INTERVAL_MS
      | some parsed =>
        if parsed = 0 then 0
        else if MIN_INTERVAL_MS ≤ parsed ∧ parsed ≤ MAX_INTERVAL_MS then parsed
        else HEARTBEAT_INTERVAL_MS

theorem heartbeatIntervalFrom_bounds (number : Str → Option ℤ) (value : Option Str) :
    heartbeatIntervalFrom number value = 0 ∨
      MIN_INTERVAL_MS ≤ heartbeatIntervalFrom number value ∧
        heartbeatIntervalFrom number value ≤ MAX_INTERVAL_MS := by
  unfold heartbeatIntervalFrom
  split
  · exact .inr (by decide)
  · split_ifs
    · exact .inr (by decide)
    · split
      · exact .inr (by decide)
      · split_ifs with hzero hbounds
        · exact .inl rfl
        · exact .inr hbounds
        · exact .inr (by decide)

/-! ## State -/

structure HeartbeatRelay where
  relay : NodeRelay
  /-- `ws.relayState.awaitingPong` -/
  awaitingPong : ℕ → Bool
  /-- The time of the next sweep, if the timer is not late. -/
  due : ℤ
  /-- The last sign of life of a socket. -/
  heard : ℕ → ℤ
  /-- When the heartbeat terminated a socket first. -/
  terminated : ℕ → Option ℤ

/-- A socket is in the set of its room. -/
def NodeRelay.joined (w : NodeRelay) (id : ℕ) : Bool := (w.sockets.get? id).any (·.joined)

/-- What happens to the relay and its heartbeat. -/
inductive HeartbeatLabel
  /-- An event of the relay; a process that starts `anew` sets its timer. -/
  | relay (label : NodeLabel) (anew : Bool)
  /-- A pong, a ping or a binary frame. -/
  | alive (id : ℕ)
  /-- The timer fires, and the pings of some sockets throw. -/
  | sweep (throws : ℕ → Bool)

structure HeartbeatInput where
  now : ℤ
  choice : NodeChoice
  label : HeartbeatLabel

namespace HeartbeatRelay

/-- The process has started, and its timer is set. -/
def start (relay : NodeRelay) (interval now : ℤ) : HeartbeatRelay :=
  ⟨relay, fun _ => false, now + interval, fun _ => now, fun _ => none⟩

/-! ## Steps -/

def markAlive (w : HeartbeatRelay) (id : ℕ) (now : ℤ) : HeartbeatRelay :=
  { w with
    awaitingPong := Function.update w.awaitingPong id false
    heard := Function.update w.heard id now }

/-- `ws.terminate()` -/
def terminate (w : HeartbeatRelay) (id : ℕ) (now : ℤ) : HeartbeatRelay :=
  { w with
    relay := w.relay.update id fun s => { s with isOpen := false }
    terminated := Function.update w.terminated id (some ((w.terminated id).getD now)) }

/-- The turn of one socket in `heartbeatSweep`. -/
def ping (throws : ℕ → Bool) (now : ℤ) (w : HeartbeatRelay) (peer : ℕ × NodeSocket) :
    HeartbeatRelay :=
  if w.awaitingPong peer.1 then w.terminate peer.1 now
  else
    let w := { w with awaitingPong := Function.update w.awaitingPong peer.1 true }
    if throws peer.1 then w.terminate peer.1 now else w

/-- The sockets of all rooms. -/
def sockets (w : HeartbeatRelay) : List (ℕ × NodeSocket) :=
  w.relay.sockets.rows.filter fun r => r.2.joined

def heartbeatSweep (w : HeartbeatRelay) (throws : ℕ → Bool) (now : ℤ) : HeartbeatRelay :=
  w.sockets.foldl (ping throws now) w

/-- A frame is a sign of life. -/
def markFrame (w : HeartbeatRelay) (now : ℤ) : NodeLabel → HeartbeatRelay
  | .message id _ => w.markAlive id now
  | _ => w

/-- An event of the relay. A socket that joins a room starts with `awaitingPong: false`. -/
def relayEvent (w : HeartbeatRelay) (cfg : NodeConfig) (interval : ℤ) (now : ℤ)
    (choice : NodeChoice) (label : NodeLabel) (anew : Bool) : HeartbeatRelay :=
  let relay := w.relay.next cfg ⟨now, choice, label⟩
  let w := w.markFrame now label
  let fresh (id : ℕ) : Bool := relay.joined id && !w.relay.joined id
  { relay := relay
    awaitingPong := fun id => if fresh id then false else w.awaitingPong id
    due := if anew && relay.sockets.rows.all (fun r => !r.2.joined) then now + interval else w.due
    heard := fun id => if fresh id then now else w.heard id
    terminated := fun id => if fresh id then none else w.terminated id }

def next (w : HeartbeatRelay) (cfg : NodeConfig) (interval : ℤ) (i : HeartbeatInput) :
    HeartbeatRelay :=
  match i.label with
  | .relay label anew => w.relayEvent cfg interval i.now i.choice label anew
  | .alive id => w.markAlive id i.now
  | .sweep throws =>
    if w.due ≤ i.now then { w.heartbeatSweep throws i.now with due := i.now + interval } else w

/-- The timer is late by `late` at most, and a terminated socket leaves within `lag`. -/
def Timely (late lag now : ℤ) (w : HeartbeatRelay) : Prop :=
  now ≤ w.due + late ∧ ∀ r ∈ w.sockets, (w.terminated r.1).all (fun t => now ≤ t + lag) = true

instance (w : HeartbeatRelay) (late lag now : ℤ) : Decidable (w.Timely late lag now) :=
  inferInstanceAs (Decidable (_ ∧ _))

/-- Timely events lead from one state to the next. -/
def Next (cfg : NodeConfig) (interval late lag : ℤ) (w : HeartbeatRelay) (i : HeartbeatInput)
    (w' : HeartbeatRelay) : Prop :=
  w.Timely late lag i.now ∧ w' = w.next cfg interval i

variable {cfg : NodeConfig} {interval late lag now : ℤ} {w w' : HeartbeatRelay} {id : ℕ}
  {throws : ℕ → Bool}

/-! ## The relay below -/

/-- **The heartbeat only closes sockets.** -/
theorem ping_run (w : HeartbeatRelay) (cfg : NodeConfig) (choice : NodeChoice)
    (throws : ℕ → Bool) (now : ℤ) (peer : ℕ × NodeSocket) :
    ∃ events, Run (NodeRelay.Step cfg) w.relay events (ping throws now w peer).relay := by
  have hclosing : Run (NodeRelay.Step cfg) w.relay [⟨now, choice, .closing peer.1⟩]
      (w.relay.update peer.1 fun s => { s with isOpen := false }) := .single rfl
  unfold ping
  dsimp only
  split_ifs
  · exact ⟨_, hclosing⟩
  · exact ⟨_, hclosing⟩
  · exact ⟨[], .nil _⟩

theorem foldl_ping_run (cfg : NodeConfig) (choice : NodeChoice) (throws : ℕ → Bool) (now : ℤ)
    (peers : List (ℕ × NodeSocket)) (w : HeartbeatRelay) :
    ∃ events, Run (NodeRelay.Step cfg) w.relay events
      (peers.foldl (ping throws now) w).relay := by
  induction peers generalizing w with
  | nil => exact ⟨[], .nil _⟩
  | cons peer peers ih =>
    obtain ⟨first, hfirst⟩ := ping_run w cfg choice throws now peer
    obtain ⟨rest, hrest⟩ := ih (ping throws now w peer)
    exact ⟨first ++ rest, hfirst.append hrest⟩

theorem next_run (w : HeartbeatRelay) (cfg : NodeConfig) (interval : ℤ) (i : HeartbeatInput) :
    ∃ events, Run (NodeRelay.Step cfg) w.relay events (w.next cfg interval i).relay := by
  unfold next
  split
  · exact ⟨[⟨i.now, i.choice, _⟩], .single rfl⟩
  · exact ⟨[], .nil _⟩
  · rename_i throws hlabel
    split_ifs
    · exact foldl_ping_run cfg i.choice throws i.now w.sockets w
    · exact ⟨[], .nil _⟩

theorem Next.run {inputs : List HeartbeatInput}
    (h : Run (Next cfg interval late lag) w inputs w') :
    ∃ events, Run (NodeRelay.Step cfg) w.relay events w'.relay := by
  induction h with
  | nil => exact ⟨[], .nil _⟩
  | @cons w _ _ i _ hstep _ ih =>
    obtain ⟨first, hfirst⟩ := w.next_run cfg interval i
    obtain ⟨rest, hrest⟩ := ih
    exact ⟨first ++ rest, hfirst.append (hstep.2 ▸ hrest)⟩

/-! ## One socket -/

/-- What the heartbeat knows of a socket, while it is in its room. -/
def watch (id : ℕ) (w : HeartbeatRelay) : Watch ℤ where
  due := w.due
  peer := if w.relay.joined id then some ⟨w.heard id, w.awaitingPong id, w.terminated id⟩ else none

theorem watch_of_joined (h : w.relay.joined id = true) :
    w.watch id = ⟨w.due, some ⟨w.heard id, w.awaitingPong id, w.terminated id⟩⟩ := by
  rw [watch, if_pos h]

theorem watch_of_gone (h : w.relay.joined id = false) : w.watch id = ⟨w.due, none⟩ := by
  rw [watch, if_neg (by rw [h]; exact Bool.false_ne_true)]

theorem joined_closing (w : NodeRelay) (id id' : ℕ) :
    (w.update id' fun s => { s with isOpen := false }).joined id = w.joined id := by
  unfold NodeRelay.update NodeRelay.joined
  split
  · rfl
  · rename_i s hs
    rw [NodeRelay.setSocket, Table.get?_put]
    split_ifs with hid
    · rw [hid, hs]
      rfl
    · rfl

theorem watch_ping_of_ne {peer : ℕ × NodeSocket} (hid : id ≠ peer.1) :
    (ping throws now w peer).watch id = w.watch id := by
  unfold ping
  dsimp only
  split_ifs <;> simp [watch, terminate, joined_closing, Function.update_of_ne hid]

theorem watch_ping (peer : ℕ × NodeSocket) :
    (ping throws now w peer).watch peer.1 =
      ⟨w.due, (w.watch peer.1).peer.map (Peer.visit (throws peer.1) now)⟩ := by
  unfold ping
  dsimp only
  cases hjoined : w.relay.joined peer.1 with
  | false => split_ifs <;> simp [watch, terminate, joined_closing, hjoined]
  | true =>
    split_ifs <;> simp [watch, terminate, joined_closing, Peer.visit, Peer.dismiss, *]

theorem mem_sockets {r : ℕ × NodeSocket} :
    r ∈ w.sockets ↔ w.relay.sockets.get? r.1 = some r.2 ∧ r.2.joined = true := by
  rw [sockets, List.mem_filter, Table.mem_rows]

theorem joined_iff : w.relay.joined id = true ↔ id ∈ w.sockets.map Prod.fst := by
  rw [NodeRelay.joined, Option.any_eq_true, List.mem_map]
  constructor
  · rintro ⟨s, hs, hjoined⟩
    exact ⟨(id, s), mem_sockets.2 ⟨hs, hjoined⟩, rfl⟩
  · rintro ⟨r, hr, rfl⟩
    exact ⟨r.2, mem_sockets.1 hr⟩

theorem nodup_sockets (w : HeartbeatRelay) : (w.sockets.map Prod.fst).Nodup :=
  w.relay.sockets.nodup.sublist (List.filter_sublist.map Prod.fst)

/-- A sweep comes to every socket once. -/
theorem watch_heartbeatSweep (w : HeartbeatRelay) (throws : ℕ → Bool) (now : ℤ) (id : ℕ) :
    ((w.heartbeatSweep throws now).watch id).peer =
      (w.watch id).peer.map (Peer.visit (throws id) now) := by
  have hother : ∀ s : HeartbeatRelay, ∀ r ∈ w.sockets, ∀ k, k ≠ r.1 →
      (ping throws now s r).watch k = s.watch k := fun s r _ k hk => watch_ping_of_ne hk
  unfold heartbeatSweep
  by_cases hid : id ∈ w.sockets.map Prod.fst
  · obtain ⟨r, hr, rfl⟩ := List.mem_map.1 hid
    obtain ⟨s, hs, hfold⟩ := Table.foldl_of_mem (fun s k => watch k s) w.nodup_sockets hother w hr
    rw [hfold, watch_ping, hs]
  · rw [Table.foldl_of_notMem (fun s k => watch k s) hother w hid, watch_of_gone (by
      rw [← Bool.not_eq_true, joined_iff]
      exact hid)]
    rfl

theorem markAlive_move (w : HeartbeatRelay) (interval now : ℤ) (id id' : ℕ) :
    Move interval (w.watch id) now ((w.markAlive id' now).watch id) := by
  cases hjoined : w.relay.joined id with
  | false =>
    rw [watch_of_gone hjoined, watch_of_gone (w := w.markAlive id' now) hjoined]
    exact .wait _ now
  | true =>
    rw [watch_of_joined hjoined, watch_of_joined (w := w.markAlive id' now) hjoined]
    by_cases hid : id = id'
    · simp only [markAlive, hid, Function.update_self]
      exact .hear _ now _
    · simp only [markAlive, Function.update_of_ne hid]
      exact .wait _ now

theorem markFrame_move (w : HeartbeatRelay) (interval now : ℤ) (label : NodeLabel) (id : ℕ) :
    Move interval (w.watch id) now ((w.markFrame now label).watch id) := by
  cases label with
  | message id' raw => exact w.markAlive_move interval now id id'
  | _ => exact .wait _ now

theorem relay_markFrame (w : HeartbeatRelay) (now : ℤ) (label : NodeLabel) :
    (w.markFrame now label).relay = w.relay := by
  cases label <;> rfl

theorem due_markFrame (w : HeartbeatRelay) (now : ℤ) (label : NodeLabel) :
    (w.markFrame now label).due = w.due := by
  cases label <;> rfl

theorem relayEvent_move (w : HeartbeatRelay) (cfg : NodeConfig) (interval now : ℤ)
    (choice : NodeChoice) (label : NodeLabel) (anew : Bool) (id : ℕ) :
    Move interval (w.watch id) now
      ((w.relayEvent cfg interval now choice label anew).watch id) := by
  cases hafter : (w.relay.next cfg ⟨now, choice, label⟩).joined id with
  | false =>
    rw [watch_of_gone (w := w.relayEvent ..) hafter]
    unfold relayEvent
    dsimp only
    split_ifs
    · exact .restart _ now
    · rw [due_markFrame]
      exact .leave _ now
  | true =>
    have hroom : (w.relay.next cfg ⟨now, choice, label⟩).sockets.rows.all
        (fun r => !r.2.joined) = false := by
      obtain ⟨s, hs, hjoined⟩ := (Option.any_eq_true ..).1 hafter
      rw [List.all_eq_false]
      exact ⟨(id, s), Table.mem_rows.2 hs, by simp [hjoined]⟩
    rw [watch_of_joined (w := w.relayEvent ..) hafter]
    cases hbefore : w.relay.joined id with
    | false =>
      rw [watch_of_gone hbefore]
      simp only [relayEvent, relay_markFrame, due_markFrame, hroom, hafter, hbefore, Bool.and_false,
        Bool.false_eq_true, if_false, Bool.not_false, Bool.and_true, if_true]
      exact .join _ now
    | true =>
      have hmove := w.markFrame_move interval now label id
      rw [watch_of_joined (w := w.markFrame now label) (by rw [relay_markFrame]; exact hbefore),
        due_markFrame] at hmove
      simp only [relayEvent, relay_markFrame, due_markFrame, hroom, hafter, hbefore, Bool.and_false,
        Bool.false_eq_true, if_false, Bool.not_true]
      exact hmove

/-- **One socket is one peer** of a watchdog. -/
theorem next_watch (w : HeartbeatRelay) (cfg : NodeConfig) (interval : ℤ) (i : HeartbeatInput)
    (id : ℕ) : Move interval (w.watch id) i.now ((w.next cfg interval i).watch id) := by
  unfold next
  split
  · exact w.relayEvent_move cfg interval i.now i.choice _ _ id
  · exact w.markAlive_move interval i.now id _
  · rename_i throws hlabel
    split_ifs with hdue
    · have hswept := w.watch_heartbeatSweep throws i.now id
      have hround : Move interval (w.watch id) i.now ⟨i.now + interval, _⟩ :=
        .round (w.watch id) i.now (throws id) hdue
      rw [← hswept] at hround
      exact hround
    · exact .wait _ i.now

/-- What a sweep does to a socket of a room. -/
theorem terminated_heartbeatSweep (hjoined : w.relay.joined id = true) :
    (w.heartbeatSweep throws now).terminated id = (Peer.visit (throws id) now
      ⟨w.heard id, w.awaitingPong id, w.terminated id⟩).dismissed := by
  have hswept := w.watch_heartbeatSweep throws now id
  rw [watch_of_joined hjoined, Option.map_some] at hswept
  cases hafter : (w.heartbeatSweep throws now).relay.joined id with
  | false => rw [watch_of_gone hafter] at hswept; cases hswept
  | true =>
    rw [watch_of_joined hafter] at hswept
    rw [← Option.some.inj hswept]

theorem Timely.watch (h : w.Timely late lag now) (id : ℕ) :
    Watchdogs.Timely late lag now (w.watch id) where
  round := h.1
  gone := fun p hp t ht => by
    cases hjoined : w.relay.joined id with
    | false => rw [watch_of_gone hjoined] at hp; cases hp
    | true =>
      rw [watch_of_joined hjoined] at hp
      obtain rfl := Option.some.inj hp
      obtain ⟨r, hr, rfl⟩ := List.mem_map.1 (joined_iff.1 hjoined)
      have hall := h.2 r hr
      dsimp only at ht
      rw [ht] at hall
      exact of_decide_eq_true hall

/-- A run of the relay is a run of each watchdog. -/
theorem Next.watches {inputs : List HeartbeatInput}
    (h : Run (Next cfg interval late lag) w inputs w') (id : ℕ) :
    Run (TimelyMove interval late lag) (w.watch id) (inputs.map (·.now)) (w'.watch id) := by
  induction h with
  | nil => exact .nil _
  | @cons w _ _ i _ hstep _ ih =>
    refine .cons ⟨hstep.1.watch id, ?_⟩ ih
    rw [hstep.2]
    exact w.next_watch cfg interval i id

/-! ## Runs -/

/-- **The sockets that stay in their rooms** were heard within two intervals, which are less than
the 300 seconds of the proxy, and a sweep terminates sockets that were silent for one, or cannot be
pinged. Apart from the sockets it closes the relay runs as one without a heartbeat. -/
theorem silent_sockets_leave (cfg : NodeConfig) (number : Str → Option ℤ) (value : Option Str)
    (hon : heartbeatIntervalFrom number value ≠ 0) {late lag : ℤ} (hlate : 0 ≤ late)
    (hlag : 0 ≤ lag) {relay : NodeRelay} (hempty : ∀ id, relay.joined id = false) (began : ℤ)
    {inputs : List HeartbeatInput} {w : HeartbeatRelay}
    (hrun : Run (Next cfg (heartbeatIntervalFrom number value) late lag)
      (start relay (heartbeatIntervalFrom number value) began) inputs w)
    (hsorted : (inputs.map (·.now)).Pairwise (· ≤ ·)) (hbegan : ∀ i ∈ inputs, began ≤ i.now)
    (now : ℤ) (hnow : began ≤ now) (hlast : ∀ i ∈ inputs, i.now ≤ now)
    (htimely : w.Timely late lag now) :
    let interval := heartbeatIntervalFrom number value
    2 * interval < 300000 ∧
      (∃ events, Run (NodeRelay.Step cfg) relay events w.relay) ∧
      ∀ id, w.relay.joined id = true →
        now ≤ w.heard id + 2 * (interval + late) + lag ∧
        ∀ choice throws, w.due ≤ now → w.terminated id = none →
          ((w.next cfg interval ⟨now, choice, .sweep throws⟩).terminated id).isSome →
            throws id = true ∨ w.heard id + interval ≤ now := by
  intro interval
  have hbounds := (heartbeatIntervalFrom_bounds number value).resolve_left hon
  simp only [MIN_INTERVAL_MS, MAX_INTERVAL_MS] at hbounds
  refine ⟨by omega, Next.run hrun, fun id hjoined => ?_⟩
  have hkept : Kept interval late now (w.watch id) := by
    have hfirst : Kept interval late began
        ((start relay (heartbeatIntervalFrom number value) began).watch id) := by
      rw [watch_of_gone (hempty id)]
      exact .of_none le_rfl
    refine Kept.run (by omega) hlate (Next.watches hrun id) hsorted hfirst ?_ hnow ?_
    · simpa using hbegan
    · simpa using hlast
  have hpeer : (w.watch id).peer = some ⟨w.heard id, w.awaitingPong id, w.terminated id⟩ := by
    rw [watch_of_joined hjoined]
  refine ⟨heard_recently hkept (htimely.watch id) hlag hpeer,
    fun choice throws hdue hstays hgone => ?_⟩
  have hswept : ((w.heartbeatSweep throws now).terminated id).isSome := by
    simpa only [next, if_pos hdue] using hgone
  rw [terminated_heartbeatSweep hjoined, Option.isSome_iff_ne_none] at hswept
  exact hkept.visit_dismissed hpeer hdue hstays hswept

section Sample

/-- A socket connects and answers the first ping. -/
def sampleBeats : List HeartbeatInput :=
  [⟨1000, calm, .relay (.connect 0 (sampleUpgrade none)) false⟩,
    ⟨30000, calm, .sweep fun _ => false⟩, ⟨30050, calm, .alive 0⟩,
    ⟨60000, calm, .sweep fun _ => false⟩]

def sampleBeating : HeartbeatRelay :=
  sampleBeats.foldl (fun w i => w.next NodeRelay.replyConfig 30000 i) (start .empty 30000 0)

/-- The third sweep terminates it: it was silent for an interval. -/
theorem silent_sockets_leave_sample :
    ((sampleBeating.next NodeRelay.replyConfig 30000
      ⟨90000, calm, .sweep fun _ => false⟩).terminated 0).isSome ∧
    sampleBeating.heard 0 + 30000 ≤ 90000 := by
  have hrun : Run (Next NodeRelay.replyConfig 30000 0 0) (start .empty 30000 0) sampleBeats
      sampleBeating :=
    .cons ⟨by decide +kernel, rfl⟩ (.cons ⟨by decide +kernel, rfl⟩
      (.cons ⟨by decide +kernel, rfl⟩ (.cons ⟨by decide +kernel, rfl⟩ (.nil _))))
  have hgone : ((sampleBeating.next NodeRelay.replyConfig 30000
      ⟨90000, calm, .sweep fun _ => false⟩).terminated 0).isSome := by decide +kernel
  refine ⟨hgone, ?_⟩
  have hleave := silent_sockets_leave NodeRelay.replyConfig (fun _ => none) none (by decide)
    le_rfl le_rfl (fun _ => rfl) 0 hrun (by decide) (by decide) 90000 (by decide)
    (by decide) (by decide +kernel)
  exact ((hleave.2.2 0 (by decide +kernel)).2 calm (fun _ => false) (by decide +kernel)
    (by decide +kernel) hgone).resolve_left (by decide)

end Sample

end HeartbeatRelay

end GrantTap
