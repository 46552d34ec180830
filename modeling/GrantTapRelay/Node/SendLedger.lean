import GrantTapRelay.Library.JsText
import GrantTapRelay.Library.Runs
import Mathlib.Algebra.BigOperators.Group.List.Basic
import Mathlib.Algebra.Order.Group.Int
import Mathlib.Data.List.Nodup
import Mathlib.Logic.Function.Basic

/-!
# The send ledger

`src/node/socketDelivery/index.js` with its counter, its sets of releases and its closures: the
bytes of a frame are reserved when it is handed to `socket.send`, and given back by whichever comes
first of the library's callback, an exception of `socket.send` and the close of the socket.

The library is the environment. It calls the callback of a frame at any time and any number of
times, throws before or after that, closes sockets, and makes them unfit to send; a socket that has
emitted `close` does not become open again. What it does inside `socket.send` is a step of its own,
and so is the exception that ends the call. Completion callbacks report only: the one that the relay
passes resolves a promise.

* `Conforms`: what the closures and sets of every reachable state satisfy.
* `send_ledger_balances`: **the counter is the sum of the frames that were not released**, within
  the limit, and every frame is released and every completion called once, when its time comes.
-/

namespace GrantTap

open Js Runs

/-! ## Sends -/

/-- One call of `send`: the variables of its closure, and what happened to it. -/
structure SendCall (σ : Type) where
  socket : σ
  bytes : ℕ
  /-- A completion callback was passed. -/
  notify : Bool
  /-- The frame was handed to `socket.send`. -/
  handed : Bool
  /-- The variable `pending` of the closure. -/
  pending : Bool
  /-- The callback was called, or `socket.send` threw. -/
  ended : Bool
  /-- How often the frame was released. -/
  released : ℕ
  /-- What the completion callback was called with. -/
  completions : List Bool

/-- The state of `createSocketDelivery`, and of the sockets. -/
structure SocketDelivery (σ : Type) where
  pendingBytes : ℤ
  /-- The set of the releases of a socket, in the order of its insertions. -/
  flights : σ → Option (List ℕ)
  /-- The listener for `close` of a socket is registered. -/
  listening : σ → Bool
  calls : List (SendCall σ)
  /-- `socket.readyState === WebSocket.OPEN` -/
  isOpen : σ → Bool
  /-- The socket has emitted `close`. -/
  closed : σ → Bool

structure DeliveryLimits where
  maxBufferedBytes : ℕ
  maxPendingBytes : ℕ

/-- The options that `createSocketDelivery` takes for the missing ones. -/
def DeliveryLimits.standard : DeliveryLimits := ⟨4 * 1024 ^ 2, 64 * 1024 ^ 2⟩

namespace SendCall

variable {σ : Type}

/-- `completed?.(sent)` -/
def complete (c : SendCall σ) (sent : Bool) : SendCall σ :=
  if c.notify then { c with completions := c.completions ++ [sent] } else c

/-- The call of a frame that is not sent. -/
def refused (socket : σ) (bytes : ℕ) (notify : Bool) : SendCall σ :=
  complete ⟨socket, bytes, notify, false, false, false, 0, []⟩ false

/-- What `release` does to its closure. -/
def release (c : SendCall σ) (sent : Bool) : SendCall σ :=
  complete { c with pending := false, released := c.released + 1 } sent

/-- The bytes that the call holds. -/
def held (c : SendCall σ) : ℤ := if c.handed && c.pending then c.bytes else 0

end SendCall

namespace SocketDelivery

variable {σ : Type} [DecidableEq σ]

/-- No frame was sent; the sockets are open or not yet. -/
def start (isOpen : σ → Bool) : SocketDelivery σ where
  pendingBytes := 0
  flights _ := none
  listening _ := false
  calls := []
  isOpen := isOpen
  closed _ := false

/-- `const release = error => ...` of a call. -/
def release (d : SocketDelivery σ) (n : ℕ) (failed : Bool) : SocketDelivery σ :=
  match d.calls[n]? with
  | none => d
  | some c =>
    if c.pending then
      { d with
        pendingBytes := d.pendingBytes - c.bytes
        flights := Function.update d.flights c.socket
          ((d.flights c.socket).map fun releases => releases.erase n)
        calls := d.calls.set n (c.release (!failed && d.isOpen c.socket)) }
    else d

/-- The frame is refused for a slow receiver. -/
def refuses (d : SocketDelivery σ) (limits : DeliveryLimits) (bytes buffered : ℕ) : Bool :=
  (0 < buffered ∧ max limits.maxBufferedBytes bytes < buffered + bytes) ∨
    limits.maxPendingBytes < d.pendingBytes + bytes

/-- `send`, up to the call of `socket.send`; `buffered` is `socket.bufferedAmount`. -/
def send (d : SocketDelivery σ) (limits : DeliveryLimits) (socket : σ) (raw : Str) (buffered : ℕ)
    (notify : Bool) : SocketDelivery σ :=
  let bytes := utf8Length raw
  if !d.isOpen socket || d.refuses limits bytes buffered then
    { d with calls := d.calls ++ [SendCall.refused socket bytes notify] }
  else
    -- the listener is registered with the set of the socket
    let listening := if (d.flights socket).isSome then d.listening
      else Function.update d.listening socket true
    let releases := (d.flights socket).getD []
    { d with
      pendingBytes := d.pendingBytes + bytes
      flights := Function.update d.flights socket (some (releases ++ [d.calls.length]))
      listening := listening
      calls := d.calls ++ [⟨socket, bytes, notify, true, true, false, 0, []⟩] }

/-- The library calls the callback of a frame, or `socket.send` throws, after which the socket is
terminated. -/
def finish (d : SocketDelivery σ) (n : ℕ) (failed : Bool) : SocketDelivery σ :=
  let d := d.release n failed
  { d with calls := d.calls.modify n fun c => { c with ended := true } }

/-- The turn of one release in the loop of the listener: one that was deleted from the set in the
meantime is skipped. -/
def visit (socket : σ) (d : SocketDelivery σ) (n : ℕ) : SocketDelivery σ :=
  if ((d.flights socket).getD []).contains n then d.release n false else d

/-- The socket emits `close`, to its listener at most once. -/
def close (d : SocketDelivery σ) (socket : σ) : SocketDelivery σ :=
  let heard := d.listening socket
  let d := { d with
    isOpen := Function.update d.isOpen socket false
    closed := Function.update d.closed socket true
    listening := Function.update d.listening socket false }
  if heard then ((d.flights socket).getD []).foldl (visit socket) d else d

end SocketDelivery

/-! ## Runs -/

/-- What happens to a delivery. -/
inductive DeliveryLabel (σ : Type)
  /-- The ready state of the socket changes. -/
  | ready (socket : σ) (isOpen : Bool)
  | send (socket : σ) (raw : Str) (buffered : ℕ) (notify : Bool)
  /-- The callback of a frame is called, or `socket.send` throws. -/
  | finish (n : ℕ) (failed : Bool)
  | close (socket : σ)

namespace SocketDelivery

variable {σ : Type} [DecidableEq σ]

/-- A step of the relay or of the library. Only a frame that was handed over has a callback. -/
inductive Step (limits : DeliveryLimits) (d : SocketDelivery σ) :
    DeliveryLabel σ → SocketDelivery σ → Prop
  | ready (socket : σ) (isOpen : Bool) (h : d.closed socket = true → isOpen = false) :
    Step limits d (.ready socket isOpen)
      { d with isOpen := Function.update d.isOpen socket isOpen }
  | send (socket : σ) (raw : Str) (buffered : ℕ) (notify : Bool) :
    Step limits d (.send socket raw buffered notify) (d.send limits socket raw buffered notify)
  | finish (n : ℕ) (failed : Bool) (c : SendCall σ) (hc : d.calls[n]? = some c)
      (hhanded : c.handed = true) : Step limits d (.finish n failed) (d.finish n failed)
  | close (socket : σ) : Step limits d (.close socket) (d.close socket)

end SocketDelivery

/-! ## Closures and counters -/

namespace SendCall

variable {σ : Type} {c : SendCall σ}

/-- The counters of a call. -/
structure Sound (c : SendCall σ) : Prop where
  pending : c.pending = true → c.handed = true
  released : c.released = if c.handed && !c.pending then 1 else 0
  completions : c.completions.length = if c.notify && !c.pending then 1 else 0

theorem sound_refused (socket : σ) (bytes : ℕ) (notify : Bool) :
    (refused socket bytes notify).Sound := by
  cases notify <;> exact ⟨by simp [refused, complete], rfl, rfl⟩

theorem sound_handed (socket : σ) (bytes : ℕ) (notify : Bool) :
    Sound ⟨socket, bytes, notify, true, true, false, 0, []⟩ :=
  ⟨fun _ => rfl, rfl, by cases notify <;> rfl⟩

/-- The end of a call changes no counter. -/
theorem Sound.end (h : c.Sound) : Sound { c with ended := true } :=
  ⟨h.pending, h.released, h.completions⟩

theorem release_eq (c : SendCall σ) (sent : Bool) :
    (c.release sent).socket = c.socket ∧ (c.release sent).bytes = c.bytes ∧
      (c.release sent).notify = c.notify ∧ (c.release sent).handed = c.handed ∧
      (c.release sent).pending = false ∧ (c.release sent).ended = c.ended := by
  unfold release complete
  split_ifs <;> exact ⟨rfl, rfl, rfl, rfl, rfl, rfl⟩

/-- **A release counts once**: it needs a pending closure and leaves none. -/
theorem Sound.release (h : c.Sound) (hpending : c.pending = true) (sent : Bool) :
    (c.release sent).Sound := by
  have hhanded := h.pending hpending
  have hreleased : c.released = 0 := by rw [h.released, hpending, Bool.not_true, Bool.and_false]; rfl
  have hnone : c.completions.length = 0 := by
    rw [h.completions, hpending, Bool.not_true, Bool.and_false]
    rfl
  obtain ⟨-, -, hnotify, hhanded', hpending', -⟩ := release_eq c sent
  refine ⟨fun hp => absurd (hpending'.symm.trans hp) (by decide), ?_, ?_⟩
  · have hcount : (c.release sent).released = c.released + 1 := by
      unfold SendCall.release complete
      split_ifs <;> rfl
    rw [hcount, hreleased, hhanded', hpending', hhanded]
    rfl
  · rw [hnotify, hpending', Bool.not_false, Bool.and_true]
    unfold SendCall.release complete
    by_cases hcallback : c.notify = true
    · simp [hnone, hcallback]
    · simp [hnone, hcallback]

theorem held_of_pending (h : c.Sound) (hpending : c.pending = true) : c.held = c.bytes := by
  rw [held, h.pending hpending, hpending]
  rfl

theorem held_of_not_pending (h : c.pending = false) : c.held = 0 := by
  rw [held, h, Bool.and_false]
  rfl

end SendCall

theorem sum_map_set {α : Type*} (w : α → ℤ) {l : List α} {n : ℕ} {a b : α} (h : l[n]? = some a) :
    ((l.set n b).map w).sum = (l.map w).sum - w a + w b := by
  induction l generalizing n with
  | nil => simp at h
  | cons x l ih =>
    cases n with
    | zero =>
      simp only [List.getElem?_cons_zero, Option.some.injEq] at h
      subst h
      simp only [List.set_cons_zero, List.map_cons, List.sum_cons]
      omega
    | succ n =>
      rw [List.getElem?_cons_succ] at h
      simp only [List.set_cons_succ, List.map_cons, List.sum_cons, ih h]
      omega

namespace SocketDelivery

variable {σ : Type} [DecidableEq σ] {limits : DeliveryLimits} {d : SocketDelivery σ}

/-- The releases in the set of a socket. -/
def releasesOf (d : SocketDelivery σ) (socket : σ) : List ℕ := (d.flights socket).getD []

/-- The sets and the counter agree with the closures. -/
structure Conforms (limits : DeliveryLimits) (d : SocketDelivery σ) : Prop where
  sound : ∀ (n : ℕ) (c : SendCall σ), d.calls[n]? = some c → c.Sound
  ledger : d.pendingBytes = (d.calls.map SendCall.held).sum
  within : d.pendingBytes ≤ limits.maxPendingBytes
  nodup : ∀ socket, (d.releasesOf socket).Nodup
  member : ∀ socket (n : ℕ), n ∈ d.releasesOf socket ↔
    ∃ c : SendCall σ, d.calls[n]? = some c ∧ c.socket = socket ∧ c.pending = true

theorem releasesOf_update (d : SocketDelivery σ) (socket : σ) (releases : Option (List ℕ)) (s : σ) :
    (Function.update d.flights socket releases s).getD [] =
      if s = socket then releases.getD [] else d.releasesOf s := by
  by_cases hs : s = socket
  · subst hs
    rw [Function.update_self, if_pos rfl]
  · rw [Function.update_of_ne hs, if_neg hs]
    rfl

/-! ### One release -/

/-- The calls after a release. -/
theorem calls_release (d : SocketDelivery σ) (n : ℕ) (failed : Bool) (m : ℕ) :
    (d.release n failed).calls[m]? = if m = n then (d.calls[n]?).map fun c =>
      if c.pending then c.release (!failed && d.isOpen c.socket) else c else d.calls[m]? := by
  unfold release
  cases hc : d.calls[n]? with
  | none =>
    dsimp only
    split_ifs with hm
    · rw [hm, hc]
      rfl
    · rfl
  | some c =>
    dsimp only
    by_cases hpending : c.pending = true
    · rw [if_pos hpending, Option.map_some, if_pos hpending, List.getElem?_set]
      obtain ⟨hlt, -⟩ := List.getElem?_eq_some_iff.1 hc
      by_cases hm : m = n
      · rw [if_pos hm, if_pos hm.symm, if_pos hlt]
      · rw [if_neg hm, if_neg (Ne.symm hm)]
    · rw [if_neg hpending, Option.map_some, if_neg hpending]
      split_ifs with hm
      · rw [hm, hc]
      · rfl

theorem release_of_not_pending {n : ℕ} {c : SendCall σ} (hc : d.calls[n]? = some c)
    (hpending : c.pending = false) (failed : Bool) : d.release n failed = d := by
  unfold release
  rw [hc]
  exact if_neg (by rw [hpending]; decide)

/-- What a release leaves alone. -/
theorem release_sockets (d : SocketDelivery σ) (n : ℕ) (failed : Bool) :
    (d.release n failed).isOpen = d.isOpen ∧ (d.release n failed).closed = d.closed ∧
      (d.release n failed).listening = d.listening ∧
      ∀ s, ((d.release n failed).flights s).isSome = (d.flights s).isSome := by
  unfold release
  split
  · exact ⟨rfl, rfl, rfl, fun _ => rfl⟩
  · rename_i c hc
    split_ifs
    · refine ⟨rfl, rfl, rfl, fun s => ?_⟩
      by_cases hs : s = c.socket
      · subst hs
        simp
      · simp [Function.update_of_ne hs]
    · exact ⟨rfl, rfl, rfl, fun _ => rfl⟩

/-- **A release keeps the sets and the counter in step.** -/
theorem Conforms.release (h : d.Conforms limits) (n : ℕ) (failed : Bool) :
    (d.release n failed).Conforms limits := by
  cases hc : d.calls[n]? with
  | none =>
    have hsame : d.release n failed = d := by rw [SocketDelivery.release, hc]
    rw [hsame]
    exact h
  | some c =>
    cases hpending : c.pending with
    | false =>
      rw [release_of_not_pending hc hpending]
      exact h
    | true =>
      have hsound := h.sound n c hc
      obtain ⟨hsocket, -, -, -, hpending', -⟩ := c.release_eq (!failed && d.isOpen c.socket)
      have hcalls := calls_release d n failed
      have hrelease : d.release n failed = { d with
          pendingBytes := d.pendingBytes - c.bytes
          flights := Function.update d.flights c.socket
            ((d.flights c.socket).map fun releases => releases.erase n)
          calls := d.calls.set n (c.release (!failed && d.isOpen c.socket)) } := by
        rw [SocketDelivery.release, hc]
        exact if_pos hpending
      have hset (s : σ) : (d.release n failed).releasesOf s =
          if s = c.socket then (d.releasesOf s).erase n else d.releasesOf s := by
        rw [hrelease]
        refine (releasesOf_update d c.socket _ s).trans ?_
        split_ifs with hs
        · rw [hs, releasesOf]
          cases d.flights c.socket <;> rfl
        · rfl
      refine ⟨fun m b hm => ?_, ?_, ?_, fun s => ?_, fun s m => ?_⟩
      · rw [hcalls] at hm
        split_ifs at hm with hmn
        · rw [hc, Option.map_some, if_pos hpending] at hm
          cases hm
          exact hsound.release hpending _
        · exact h.sound m b hm
      · rw [hrelease]
        refine Eq.trans ?_ (sum_map_set SendCall.held hc).symm
        rw [SendCall.held_of_pending hsound hpending, SendCall.held_of_not_pending hpending',
          ← h.ledger, add_zero]
      · rw [hrelease]
        have hwithin := h.within
        dsimp only
        omega
      · rw [hset]
        split_ifs
        · exact (h.nodup s).erase n
        · exact h.nodup s
      · rw [hset, hcalls]
        by_cases hmn : m = n
        · subst hmn
          rw [if_pos rfl, hc, Option.map_some, if_pos hpending]
          refine iff_of_false ?_ ?_
          · split_ifs with hs
            · exact (h.nodup s).not_mem_erase
            · intro hmem
              obtain ⟨b, hb, hbs, -⟩ := (h.member s m).1 hmem
              rw [hc] at hb
              cases hb
              exact hs hbs.symm
          · rintro ⟨b, hb, -, hbp⟩
            cases hb
            exact absurd (hpending'.symm.trans hbp) (by decide)
        · rw [if_neg hmn, ← h.member s m]
          split_ifs
          · exact (h.nodup s).mem_erase_iff.trans (and_iff_right hmn)
          · rfl

/-! ### The operations -/

omit [DecidableEq σ] in
theorem conforms_start (limits : DeliveryLimits) (isOpen : σ → Bool) :
    (start isOpen).Conforms limits where
  sound n c h := by simp [start] at h
  ledger := rfl
  within := Int.natCast_nonneg _
  nodup _ := List.nodup_nil
  member socket n := iff_of_false (List.not_mem_nil) (by simp [start])

/-- A call that is appended. -/
theorem getElem?_snoc {α : Type*} {l : List α} {a : α} {n : ℕ} :
    (l ++ [a])[n]? = if n = l.length then some a else l[n]? := by
  rw [List.getElem?_append]
  split_ifs with h₁ h₂ h₂
  · omega
  · rfl
  · simp [h₂]
  · rw [List.getElem?_eq_none (by simp; omega), List.getElem?_eq_none (by omega)]

omit [DecidableEq σ] in
theorem Conforms.refuse (h : d.Conforms limits) (socket : σ) (bytes : ℕ) (notify : Bool) :
    Conforms limits { d with calls := d.calls ++ [SendCall.refused socket bytes notify] } := by
  have hpending : (SendCall.refused socket bytes notify).pending = false := by
    cases notify <;> rfl
  refine ⟨fun n c hc => ?_, ?_, h.within, h.nodup, fun s n => ?_⟩
  · rw [getElem?_snoc] at hc
    split_ifs at hc
    · cases hc
      exact SendCall.sound_refused socket bytes notify
    · exact h.sound n c hc
  · rw [List.map_append, List.sum_append, List.map_singleton, List.sum_singleton,
      SendCall.held_of_not_pending hpending, add_zero]
    exact h.ledger
  · refine (h.member s n).trans ?_
    simp only [getElem?_snoc]
    constructor
    · rintro ⟨c, hc, hcs, hcp⟩
      have hlt := (List.getElem?_eq_some_iff.1 hc).1
      exact ⟨c, by rw [if_neg (by omega), hc], hcs, hcp⟩
    · rintro ⟨c, hc, hcs, hcp⟩
      split_ifs at hc
      · cases hc
        exact absurd (hpending.symm.trans hcp) (by decide)
      · exact ⟨c, hc, hcs, hcp⟩

/-- A frame that is handed over. -/
theorem Conforms.hand (h : d.Conforms limits) (socket : σ) (bytes : ℕ) (notify : Bool)
    (listening : σ → Bool) (hfits : d.pendingBytes + bytes ≤ limits.maxPendingBytes) :
    Conforms limits { d with
      pendingBytes := d.pendingBytes + bytes
      flights := Function.update d.flights socket
        (some ((d.flights socket).getD [] ++ [d.calls.length]))
      listening := listening
      calls := d.calls ++ [⟨socket, bytes, notify, true, true, false, 0, []⟩] } := by
  have hnone : d.calls[d.calls.length]? = none := List.getElem?_eq_none le_rfl
  have hnot (s : σ) : d.calls.length ∉ d.releasesOf s := by
    intro hmem
    obtain ⟨c, hc, -⟩ := (h.member s _).1 hmem
    rw [hnone] at hc
    cases hc
  have hsets (s : σ) := releasesOf_update d socket
    (some ((d.flights socket).getD [] ++ [d.calls.length])) s
  refine ⟨fun n c hc => ?_, ?_, hfits, fun s => ?_, fun s n => ?_⟩
  · rw [getElem?_snoc] at hc
    split_ifs at hc
    · cases hc
      exact SendCall.sound_handed socket _ notify
    · exact h.sound n c hc
  · rw [List.map_append, List.sum_append, List.map_singleton, List.sum_singleton, ← h.ledger]
    rfl
  · rw [releasesOf, hsets]
    split_ifs
    · refine List.nodup_append.2 ⟨h.nodup socket, List.pairwise_singleton _ _, ?_⟩
      intro a ha b hb hab
      rw [List.mem_singleton.1 hb] at hab
      exact hnot socket (hab ▸ ha)
    · exact h.nodup s
  · rw [releasesOf, hsets]
    simp only [getElem?_snoc]
    by_cases hn : n = d.calls.length
    · subst hn
      simp only [if_true]
      by_cases hs : s = socket
      · subst hs
        exact iff_of_true (by simp) ⟨_, rfl, rfl, rfl⟩
      · rw [if_neg hs]
        refine iff_of_false (hnot s) ?_
        rintro ⟨c, hc, hcs, -⟩
        rw [← Option.some.inj hc] at hcs
        exact hs hcs.symm
    · simp only [hn, if_false]
      rw [← h.member s n]
      split_ifs with hs
      · subst hs
        simp [hn, releasesOf]
      · rfl

/-- **A send keeps the limit**, and its release joins the set of its socket. -/
theorem Conforms.send (h : d.Conforms limits) (socket : σ) (raw : Str) (buffered : ℕ)
    (notify : Bool) : (d.send limits socket raw buffered notify).Conforms limits := by
  unfold SocketDelivery.send
  dsimp only
  split_ifs with hrefused hset
  · exact h.refuse socket _ notify
  all_goals
    rw [Bool.or_eq_true, not_or] at hrefused
    have hfits := hrefused.2
    simp only [refuses, decide_eq_true_eq, not_or, not_lt] at hfits
    exact h.hand socket _ notify _ hfits.2

theorem Conforms.finish (h : d.Conforms limits) (n : ℕ) (failed : Bool) :
    (d.finish n failed).Conforms limits := by
  have hr := h.release n failed
  have hcalls (m : ℕ) : ((d.release n failed).calls.modify n fun c =>
      { c with ended := true })[m]? = ((d.release n failed).calls[m]?).map fun c =>
        if m = n then { c with ended := true } else c := by
    rw [List.getElem?_modify]
    by_cases hm : n = m
    · subst hm
      simp
    · simp [hm, Ne.symm hm]
  refine ⟨fun m c hc => ?_, ?_, hr.within, hr.nodup, fun s m => ?_⟩
  · rw [SocketDelivery.finish, hcalls] at hc
    obtain ⟨b, hb, rfl⟩ := Option.map_eq_some_iff.1 hc
    split_ifs
    · exact (hr.sound m b hb).end
    · exact hr.sound m b hb
  · refine hr.ledger.trans (congrArg List.sum (List.ext_getElem? fun m => ?_))
    rw [SocketDelivery.finish, List.getElem?_map, List.getElem?_map, hcalls]
    cases (d.release n failed).calls[m]? with
    | none => rfl
    | some c =>
      simp only [Option.map_some]
      split_ifs <;> rfl
  · refine (hr.member s m).trans ?_
    rw [SocketDelivery.finish, hcalls]
    cases (d.release n failed).calls[m]? with
    | none => simp
    | some c =>
      simp only [Option.map_some, Option.some.injEq, exists_eq_left']
      split_ifs <;> rfl

/-! ### The close of a socket -/

/-- The releases of a socket that is closed: those of `l` are no longer pending, and everything else
is as it was. -/
structure Emptied (l : List ℕ) (d d' : SocketDelivery σ) : Prop where
  isOpen : d'.isOpen = d.isOpen
  closed : d'.closed = d.closed
  listening : d'.listening = d.listening
  flights : ∀ s, (d'.flights s).isSome = (d.flights s).isSome
  calls : ∀ n : ℕ, (d'.calls[n]?).map (fun c => (c.socket, c.handed, c.ended, c.pending)) =
    (d.calls[n]?).map fun c => (c.socket, c.handed, c.ended, c.pending && !l.contains n)

/-- A turn of the loop releases the frame, whether or not the set still has it. -/
theorem visit_eq (h : d.Conforms limits) {socket : σ} {n : ℕ}
    (hn : ∀ c, d.calls[n]? = some c → c.socket = socket) : visit socket d n = d.release n false := by
  unfold visit
  split_ifs with hmem
  · rfl
  · cases hc : d.calls[n]? with
    | none => rw [release, hc]
    | some c =>
      refine (release_of_not_pending hc ?_ false).symm
      rw [← Bool.not_eq_true]
      intro hpending
      refine hmem (List.contains_iff_mem.2 ?_)
      exact (h.member socket n).2 ⟨c, hc, hn c hc, hpending⟩

theorem emptied_release (d : SocketDelivery σ) (n : ℕ) : Emptied [n] d (d.release n false) := by
  obtain ⟨hopen, hclosed, hlistening, hflights⟩ := release_sockets d n false
  refine ⟨hopen, hclosed, hlistening, hflights, fun m => ?_⟩
  rw [calls_release]
  by_cases hm : m = n
  · subst hm
    rw [if_pos rfl, Option.map_map]
    cases d.calls[m]? with
    | none => rfl
    | some c =>
      obtain ⟨hsocket, -, -, hhanded, hpending, hended⟩ :=
        c.release_eq (!false && d.isOpen c.socket)
      simp only [Option.map_some, Function.comp_apply, List.contains_cons, beq_self_eq_true,
        Bool.true_or, Bool.not_true, Bool.and_false]
      split_ifs with hp
      · rw [hsocket, hhanded, hpending, hended]
      · rw [Bool.not_eq_true] at hp
        rw [hp]
  · rw [if_neg hm]
    simp [hm]

/-- **The loop of the listener** releases every frame of its list. -/
theorem emptied_foldl (socket : σ) : ∀ (l : List ℕ) (d : SocketDelivery σ), d.Conforms limits →
    (∀ n ∈ l, ∀ c, d.calls[n]? = some c → c.socket = socket) →
      (l.foldl (visit socket) d).Conforms limits ∧ Emptied l d (l.foldl (visit socket) d)
  | [], d, h, _ => ⟨h, rfl, rfl, rfl, fun _ => rfl, fun n => by simp⟩
  | n :: l, d, h, hl => by
    have hvisit := visit_eq h (hl n List.mem_cons_self)
    have hfirst := emptied_release d n
    rw [List.foldl_cons, hvisit]
    have hsockets : ∀ m ∈ l, ∀ c, (d.release n false).calls[m]? = some c → c.socket = socket := by
      intro m hm c hc
      have hsame := hfirst.calls m
      rw [hc] at hsame
      cases hb : d.calls[m]? with
      | none => simp [hb] at hsame
      | some b =>
        simp only [hb, Option.map_some, Option.some.injEq, Prod.mk.injEq] at hsame
        exact hsame.1.trans (hl m (List.mem_cons_of_mem _ hm) b hb)
    obtain ⟨hconforms, hrest⟩ := emptied_foldl socket l _ (h.release n false) hsockets
    refine ⟨hconforms, hrest.isOpen.trans hfirst.isOpen, hrest.closed.trans hfirst.closed,
      hrest.listening.trans hfirst.listening, fun s => (hrest.flights s).trans (hfirst.flights s),
      fun m => (hrest.calls m).trans ?_⟩
    have hsame := hfirst.calls m
    cases hb : d.calls[m]? with
    | none =>
      cases hc : (d.release n false).calls[m]? with
      | none => rfl
      | some c => simp [hb, hc] at hsame
    | some b =>
      cases hc : (d.release n false).calls[m]? with
      | none => simp [hb, hc] at hsame
      | some c =>
        simp only [hb, hc, Option.map_some, Option.some.injEq, Prod.mk.injEq] at hsame ⊢
        obtain ⟨hs, hh, he, hp⟩ := hsame
        refine ⟨hs, hh, he, ?_⟩
        rw [hp, List.contains_cons, List.contains_cons, Bool.and_assoc]
        simp

/-! ### When a frame is released -/

/-- A closure is spent exactly when its call has ended or its socket has closed, and every socket
that may still close is listened to. -/
structure Timely (d : SocketDelivery σ) : Prop where
  due : ∀ (n : ℕ) (c : SendCall σ), d.calls[n]? = some c → c.handed = true →
    (c.pending = false ↔ c.ended = true ∨ d.closed c.socket = true)
  heard : ∀ s, (d.flights s).isSome = true → d.closed s = false → d.listening s = true
  shut : ∀ s, d.closed s = true → d.isOpen s = false

omit [DecidableEq σ] in
theorem timely_start (isOpen : σ → Bool) : (start isOpen).Timely where
  due n c h := by simp [start] at h
  heard _ h := absurd h (by simp [start])
  shut _ h := absurd h (by simp [start])

theorem Timely.send (h : d.Timely) (socket : σ) (raw : Str) (buffered : ℕ) (notify : Bool) :
    (d.send limits socket raw buffered notify).Timely := by
  have hrefusedHanded (bytes : ℕ) : (SendCall.refused socket bytes notify).handed = false := by
    cases notify <;> rfl
  unfold SocketDelivery.send
  dsimp only
  split_ifs with hrefused hset
  · refine ⟨fun n c hc hhanded => ?_, h.heard, h.shut⟩
    rw [getElem?_snoc] at hc
    split_ifs at hc
    · cases hc
      exact absurd ((hrefusedHanded _).symm.trans hhanded) (by decide)
    · exact h.due n c hc hhanded
  all_goals
    have hopen : d.isOpen socket = true := by
      rw [Bool.or_eq_true, not_or] at hrefused
      simpa using hrefused.1
    have hclosed : d.closed socket = false := by
      rw [Bool.eq_false_iff]
      intro hclosed
      exact absurd ((h.shut socket hclosed).symm.trans hopen) (by decide)
    refine ⟨fun n c hc hhanded => ?_, fun s hs hsc => ?_, h.shut⟩
    · rw [getElem?_snoc] at hc
      split_ifs at hc
      · cases hc
        exact iff_of_false (by simp) (by simp [hclosed])
      · exact h.due n c hc hhanded
    · dsimp only at hs hsc ⊢
      by_cases he : s = socket
      · subst he
        first
          | exact h.heard s hset hsc
          | exact Function.update_self ..
      · rw [Function.update_of_ne he] at hs
        have hbefore := h.heard s hs hsc
        first
          | exact hbefore
          | exact (Function.update_of_ne he ..).trans hbefore

theorem Timely.finish (h : d.Timely) {n : ℕ} (failed : Bool) : (d.finish n failed).Timely := by
  obtain ⟨hopen, hclosed, hlistening, hflights⟩ := release_sockets d n failed
  have hcalls (m : ℕ) : (d.finish n failed).calls[m]? = if m = n then (d.calls[n]?).map fun c =>
      { (if c.pending then c.release (!failed && d.isOpen c.socket) else c) with ended := true }
      else d.calls[m]? := by
    rw [SocketDelivery.finish, List.getElem?_modify, calls_release]
    by_cases hm : m = n
    · subst hm
      simp [Option.map_map, Function.comp_def]
    · simp [hm, Ne.symm hm]
  refine ⟨fun m c hc hhanded => ?_, fun s hs hsc => ?_, fun s hs => ?_⟩
  · change c.pending = false ↔ c.ended = true ∨ (d.release n failed).closed c.socket = true
    rw [hclosed]
    rw [hcalls] at hc
    split_ifs at hc with hm
    · obtain ⟨b, hb, rfl⟩ := Option.map_eq_some_iff.1 hc
      refine iff_of_true ?_ (.inl rfl)
      split_ifs with hp
      · exact (b.release_eq _).2.2.2.2.1
      · exact Bool.eq_false_iff.2 hp
    · exact h.due m c hc hhanded
  · change (d.release n failed).listening s = true
    rw [hlistening]
    exact h.heard s ((hflights s).symm.trans hs) ((congrFun hclosed s).symm.trans hsc)
  · change (d.release n failed).isOpen s = false
    rw [hopen]
    exact h.shut s ((congrFun hclosed s).symm.trans hs)

omit [DecidableEq σ] in
/-- A socket without a listener holds nothing. -/
theorem Timely.unheard (h : d.Timely) (hc : d.Conforms limits) {socket : σ}
    (hnot : d.listening socket = false) {n : ℕ} {c : SendCall σ} (hn : d.calls[n]? = some c)
    (hs : c.socket = socket) : c.pending = false := by
  rw [Bool.eq_false_iff]
  intro hpending
  have hmem := (hc.member socket n).2 ⟨c, hn, hs, hpending⟩
  have hset : (d.flights socket).isSome = true := by
    unfold releasesOf at hmem
    cases hf : d.flights socket with
    | none => simp [hf] at hmem
    | some l => rfl
  have hclosed : d.closed socket = true := by
    by_contra hclosed
    rw [Bool.not_eq_true] at hclosed
    exact absurd (hnot.symm.trans (h.heard socket hset hclosed)) (by decide)
  have hspent := (h.due n c hn ((hc.sound n c hn).pending hpending)).2 (.inr (hs ▸ hclosed))
  exact absurd (hspent.symm.trans hpending) (by decide)

/-- **The close of a socket** releases its frames. -/
theorem close_spec (h : d.Timely) (hc : d.Conforms limits) (socket : σ) :
    (d.close socket).Conforms limits ∧ (d.close socket).Timely := by
  unfold close
  dsimp only
  have hconforms : Conforms limits { d with
      isOpen := Function.update d.isOpen socket false
      closed := Function.update d.closed socket true
      listening := Function.update d.listening socket false } :=
    ⟨hc.sound, hc.ledger, hc.within, hc.nodup, hc.member⟩
  have hshut (s : σ) (hs : Function.update d.closed socket true s = true) :
      Function.update d.isOpen socket false s = false := by
    by_cases he : s = socket
    · rw [he, Function.update_self]
    · rw [Function.update_of_ne he] at hs ⊢
      exact h.shut s hs
  have hheard (s : σ) (hs : (d.flights s).isSome = true)
      (hsc : Function.update d.closed socket true s = false) :
      Function.update d.listening socket false s = true := by
    by_cases he : s = socket
    · rw [he, Function.update_self] at hsc
      cases hsc
    · rw [Function.update_of_ne he] at hsc ⊢
      exact h.heard s hs hsc
  have hother {c : SendCall σ} (he : c.socket ≠ socket) :
      Function.update d.closed socket true c.socket = d.closed c.socket :=
    Function.update_of_ne he ..
  split_ifs with hlistening
  · obtain ⟨hafter, hempty⟩ := emptied_foldl socket (d.releasesOf socket) _ hconforms
      fun n hn c hnc => by
        obtain ⟨b, hb, hbs, -⟩ := (hc.member socket n).1 hn
        cases hnc.symm.trans hb
        exact hbs
    refine ⟨hafter, fun n c hnc hhanded => ?_, fun s hs hsc => ?_, fun s hs => ?_⟩
    · have hsame := hempty.calls n
      have hclosed := congrFun hempty.closed c.socket
      refine Iff.trans ?_ (or_congr_right (Eq.congr_left hclosed)).symm
      rw [releasesOf, hnc] at hsame
      cases hb : d.calls[n]? with
      | none => simp [hb] at hsame
      | some b =>
        simp only [hb, Option.map_some, Option.some.injEq, Prod.mk.injEq] at hsame
        obtain ⟨hs, hh, hended, hpending⟩ := hsame
        rw [hpending, hended, hs]
        dsimp only
        have hmem := hc.member socket n
        rw [hb] at hmem
        by_cases he : b.socket = socket
        · refine iff_of_true ?_ (.inr (by rw [he, Function.update_self]))
          rw [Bool.and_eq_false_iff, Bool.not_eq_false_eq_eq_true, List.contains_iff_mem]
          by_cases hp : b.pending = true
          · exact .inr (hmem.2 ⟨b, rfl, he, hp⟩)
          · exact .inl (Bool.eq_false_iff.2 hp)
        · have hnot : n ∉ d.releasesOf socket := by
            intro hn
            obtain ⟨b', hb', hs', -⟩ := hmem.1 hn
            cases hb'
            exact he hs'
          have hcontains : ((d.flights socket).getD []).contains n = false := by
            simpa [releasesOf] using hnot
          rw [hcontains, Bool.not_false, Bool.and_true, Function.update_of_ne he]
          exact h.due n b hb (hh.symm.trans hhanded)
    · have hl := congrFun hempty.listening s
      refine Eq.trans hl (hheard s ((hempty.flights s).symm.trans hs) ?_)
      exact (congrFun hempty.closed s).symm.trans hsc
    · exact (congrFun hempty.isOpen s).trans (hshut s ((congrFun hempty.closed s).symm.trans hs))
  · refine ⟨hconforms, fun n c hnc hhanded => ?_, hheard, hshut⟩
    by_cases he : c.socket = socket
    · refine iff_of_true (h.unheard hc (Bool.eq_false_iff.2 hlistening) hnc he) (.inr ?_)
      dsimp only
      rw [he, Function.update_self]
    · refine (h.due n c hnc hhanded).trans ?_
      dsimp only
      rw [hother he]

/-- What every reachable delivery satisfies. -/
theorem run_conforms {isOpen : σ → Bool} {labels : List (DeliveryLabel σ)}
    (hrun : Run (Step limits) (start isOpen) labels d) : d.Conforms limits ∧ d.Timely := by
  refine hrun.invariant (I := fun d => d.Conforms limits ∧ d.Timely) ?_
    ⟨conforms_start limits isOpen, timely_start isOpen⟩
  rintro d l d' ⟨hc, ht⟩ hstep
  cases hstep with
  | ready socket isOpen hready =>
    refine ⟨⟨hc.sound, hc.ledger, hc.within, hc.nodup, hc.member⟩, ht.due, ht.heard, ?_⟩
    intro s hs
    dsimp only
    by_cases he : s = socket
    · rw [he, Function.update_self]
      exact hready (he ▸ hs)
    · rw [Function.update_of_ne he]
      exact ht.shut s hs
  | send socket raw buffered notify =>
    exact ⟨hc.send socket raw buffered notify, ht.send socket raw buffered notify⟩
  | finish n failed => exact ⟨hc.finish n failed, ht.finish failed⟩
  | close socket => exact close_spec ht hc socket

end SocketDelivery

/-! ## The ledger -/

namespace SendCall

variable {σ : Type}

/-- The frame was handed over and not released. -/
def outstanding (c : SendCall σ) : Bool := c.handed && c.released = 0

/-- The frame was handed over, and it has finished or failed, or its socket has closed. -/
def settled (closed : σ → Bool) (c : SendCall σ) : Bool := c.handed && (c.ended || closed c.socket)

end SendCall

/-- The bytes of the frames that were handed over and not released, on some sockets. -/
def outstandingBytes {σ : Type} (calls : List (SendCall σ)) (on : σ → Bool) : ℕ :=
  ((calls.filter fun c => c.outstanding && on c.socket).map (·.bytes)).sum

/-- The ledger of a delivery balances. -/
structure Balances {σ : Type} [DecidableEq σ] (limits : DeliveryLimits) (d : SocketDelivery σ) :
    Prop where
  counter : d.pendingBytes = outstandingBytes d.calls fun _ => true
  bounded : 0 ≤ d.pendingBytes ∧ d.pendingBytes ≤ limits.maxPendingBytes
  /-- A frame is released once it is settled, and once. -/
  released : ∀ c ∈ d.calls, c.released = if c.settled d.closed then 1 else 0
  /-- A completion callback is called once its frame is refused or settled, and once. -/
  completed : ∀ c ∈ d.calls, c.completions.length =
    if c.notify && (!c.handed || c.settled d.closed) then 1 else 0
  drained : ∀ socket, d.closed socket = true → outstandingBytes d.calls (· = socket) = 0

section Balance

variable {σ : Type}

theorem SendCall.Sound.outstanding {c : SendCall σ} (h : c.Sound) :
    c.outstanding = c.pending := by
  cases hpending : c.pending with
  | true => simp [SendCall.outstanding, h.released, h.pending hpending, hpending]
  | false =>
    cases hhanded : c.handed <;>
      simp [SendCall.outstanding, h.released, hhanded, hpending]

theorem sum_held {l : List (SendCall σ)} (h : ∀ c ∈ l, c.Sound) :
    (l.map SendCall.held).sum = outstandingBytes l fun _ => true := by
  induction l with
  | nil => rfl
  | cons c l ih =>
    have hc := h c List.mem_cons_self
    rw [List.map_cons, List.sum_cons, ih fun b hb => h b (List.mem_cons_of_mem _ hb)]
    unfold outstandingBytes
    rw [List.filter_cons, hc.outstanding, Bool.and_true]
    cases hpending : c.pending with
    | true =>
      rw [if_pos rfl, List.map_cons, List.sum_cons, SendCall.held_of_pending hc hpending,
        Nat.cast_add]
    | false => rw [if_neg Bool.false_ne_true, SendCall.held_of_not_pending hpending, zero_add]

/-- **The send ledger balances** in every state that a delivery reaches. -/
theorem send_ledger_balances (σ : Type) [DecidableEq σ] (limits : DeliveryLimits)
    (isOpen : σ → Bool) (labels : List (DeliveryLabel σ)) (d : SocketDelivery σ)
    (hrun : Run (SocketDelivery.Step limits) (.start isOpen) labels d) : Balances limits d := by
  obtain ⟨hc, ht⟩ := SocketDelivery.run_conforms hrun
  have hsound : ∀ c ∈ d.calls, c.Sound := fun c hmem => by
    obtain ⟨n, hn⟩ := List.mem_iff_getElem?.1 hmem
    exact hc.sound n c hn
  have hspent : ∀ c ∈ d.calls, c.handed = true → (!c.pending) = c.settled d.closed := by
    intro c hmem hhanded
    obtain ⟨n, hn⟩ := List.mem_iff_getElem?.1 hmem
    have hdue := ht.due n c hn hhanded
    rw [← Bool.or_eq_true] at hdue
    rw [SendCall.settled, hhanded, Bool.true_and, Bool.eq_iff_iff, Bool.not_eq_true', hdue]
  have hcounter : d.pendingBytes = outstandingBytes d.calls fun _ => true := by
    rw [hc.ledger, sum_held hsound]
  refine ⟨hcounter, ⟨hcounter ▸ Int.natCast_nonneg _, hc.within⟩, fun c hmem => ?_,
    fun c hmem => ?_, fun socket hclosed => ?_⟩
  · rw [(hsound c hmem).released]
    cases hhanded : c.handed with
    | false => simp [SendCall.settled, hhanded]
    | true => rw [Bool.true_and, hspent c hmem hhanded]
  · rw [(hsound c hmem).completions]
    cases hhanded : c.handed with
    | false =>
      have hpending : c.pending = false := by
        rw [Bool.eq_false_iff]
        intro hpending
        exact absurd (hhanded.symm.trans ((hsound c hmem).pending hpending)) (by decide)
      simp [hpending]
    | true => rw [hspent c hmem hhanded, Bool.not_true, Bool.false_or]
  · have hnone : (d.calls.filter fun c => c.outstanding && (c.socket = socket)) = [] := by
      rw [List.filter_eq_nil_iff]
      intro c hmem hout
      rw [Bool.and_eq_true, decide_eq_true_eq, (hsound c hmem).outstanding] at hout
      obtain ⟨hpending, rfl⟩ := hout
      have hsettled := hspent c hmem ((hsound c hmem).pending hpending)
      rw [hpending, SendCall.settled, (hsound c hmem).pending hpending, hclosed] at hsettled
      simp at hsettled
    rw [outstandingBytes, hnone]
    rfl

end Balance

/-! ### A run -/

/-- Two frames are handed over, the first one ends, and the socket closes before the second does. -/
def sampleDelivery : SocketDelivery ℕ :=
  ((((SocketDelivery.start fun _ => true).send .standard 0 (lit "opaque") 0 true).send .standard 0
    (lit "ciphertext") 6 true).finish 0 false).close 0

/-- Each callback is called once, and nothing stays reserved. -/
theorem send_ledger_balances_sample :
    (sampleDelivery.pendingBytes = 0 ∧
      sampleDelivery.calls.map SendCall.completions = [[true], [false]]) ∧
      Balances .standard sampleDelivery :=
  ⟨by decide, send_ledger_balances ℕ .standard (fun _ => true)
    [.send 0 (lit "opaque") 0 true, .send 0 (lit "ciphertext") 6 true, .finish 0 false, .close 0]
    sampleDelivery <|
      .cons (.send ..) <| .cons (.send ..) <| .cons (.finish 0 false _ rfl rfl) <|
        .cons (.close 0) <| .nil _⟩

end GrantTap
