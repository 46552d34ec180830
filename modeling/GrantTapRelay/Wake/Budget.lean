import GrantTapRelay.Wake.Throttle

/-!
# The budget of a wake, and that no wake is lost

Three laws over every run of `WakeDelivery` on one room, whatever writes throw, sends fail and
processes restart. They are read off the log, newest event first.

* Every push follows the durable claim of its attempt, and at most `MAX_ATTEMPTS` pushes are sent
  for one acceptance (`Budget`).
* An identity is accepted again only after its receipt expired, as long as the receipt is among the
  last `WAKE_HISTORY_LIMIT` (`Deduplicated`).
* Accepted work stays pending until a push succeeded, the attempts are used up, or the work expired
  (`Alive`).

`wake_laws` puts them together.
-/

namespace GrantTap

open Js Runs

namespace Wakes

/-! ## Reading the log -/

/-- The accepted requests, newest first. -/
def acceptances : List WakeEvent → List WakeRequest
  | [] => []
  | .accepted request _ :: log => request :: acceptances log
  | _ :: log => acceptances log

/-- The events after the last acceptance. -/
def sinceAcceptance : List WakeEvent → List WakeEvent
  | [] => []
  | .accepted _ _ :: _ => []
  | event :: log => event :: sinceAcceptance log

/-- The number of durable claims after the last acceptance. -/
def attempts : List WakeEvent → ℕ
  | [] => 0
  | .accepted _ _ :: _ => 0
  | .claimed _ _ :: log => attempts log + 1
  | _ :: log => attempts log

/-- The number of pushes after the last acceptance. -/
def pushes : List WakeEvent → ℕ
  | [] => 0
  | .accepted _ _ :: _ => 0
  | .started _ :: log => pushes log + 1
  | _ :: log => pushes log

/-- `pending.expiresAt` as the last acceptance wrote it. -/
def deadline : List WakeEvent → Option ℤ
  | [] => none
  | .accepted _ d :: _ => some d
  | _ :: log => deadline log

/-- Every push follows the claim of its attempt, which is one more than there were. -/
def Claimed (log : List WakeEvent) : Prop :=
  ∀ stamp earlier, .started stamp :: earlier <:+ log →
    ∃ n rest, earlier = .claimed stamp n :: rest ∧ n = attempts rest + 1

/-- At no moment more than `MAX_ATTEMPTS` pushes had been sent since the last acceptance. -/
def Budget (log : List WakeEvent) : Prop := ∀ earlier, earlier <:+ log → pushes earlier ≤ MAX_ATTEMPTS

/-- An accepted request repeats none of the `WAKE_HISTORY_LIMIT` before it that was unexpired. -/
def Deduplicated (requests : List WakeRequest) : Prop :=
  ∀ request earlier, request :: earlier <:+ requests →
    ∀ old ∈ earlier.take WAKE_HISTORY_LIMIT, old.identity = request.identity →
      old.receipt.expiresAt ≤ request.now

/-- A push that started after the last acceptance succeeded. -/
def Succeeded (log : List WakeEvent) : Prop :=
  ∃ stamp, .started stamp ∈ sinceAcceptance log ∧ .succeeded stamp ∈ sinceAcceptance log ∧
    ∀ request ∈ acceptances log, request.now ≤ stamp

/-- The record has pending work and the time of the next attempt. -/
def Waiting (record : Option WakeRecord) : Prop :=
  ∃ r p at', record = some r ∧ r.pending = some p ∧ r.nextAt = some at'

/-- Accepted work waits, or a push for it succeeded, or its attempts or its time are over. -/
def Alive (record : Option WakeRecord) (clock : ℤ) (log : List WakeEvent) : Prop :=
  Waiting record ∨ Succeeded log ∨ MAX_ATTEMPTS ≤ attempts log ∨ ∃ d ∈ deadline log, d ≤ clock

/-! ## The invariant -/

/-- The last `n` accepted receipts that were live at the last acceptance are the last of `recent`. -/
def Remembers (record : Option WakeRecord) (requests : List WakeRequest) : Prop :=
  ∀ n ≤ WAKE_HISTORY_LIMIT, ∀ old ∈ requests.take n,
    (∀ last ∈ requests.head?, last.now < old.receipt.expiresAt) →
      old.receipt ∈ (record.getD .empty).recent.reverse.take n

/-- What holds of the record, the clock and the log at every moment. -/
structure Core (sha256 : Str → Str) (record : Option WakeRecord) (clock : ℤ)
    (log : List WakeEvent) : Prop where
  keys : ∀ request ∈ acceptances log, request.receipt.key = wakeKey sha256 request.identity
  past : ∀ request ∈ acceptances log, request.now ≤ clock
  claimed : Claimed log
  budget : Budget log
  sent : pushes log ≤ attempts log
  bounded : attempts log ≤ MAX_ATTEMPTS
  deduplicated : Deduplicated (acceptances log)
  remembers : Remembers record (acceptances log)
  pending : ∀ r ∈ record, ∀ p ∈ r.pending, p.attempts = attempts log ∧
    deadline log = some p.expiresAt ∧ r.nextAt.isSome
  alive : acceptances log ≠ [] → Alive record clock log

/-- A request under way is younger than every accepted one. -/
def Fresh (sha256 : Str → Str) (clock : ℤ) (log : List WakeEvent) (request : WakeRequest) : Prop :=
  request.now ≤ clock ∧ request.receipt.key = wakeKey sha256 request.identity ∧
    ∀ old ∈ acceptances log, old.now ≤ request.now

/-- The record is the claimed one, and its attempt started after every acceptance. -/
def Attempting (record : Option WakeRecord) (log : List WakeEvent) (stamp : ℤ)
    (claimed : WakeRecord) : Prop :=
  record = some claimed ∧ (∀ old ∈ acceptances log, old.now ≤ stamp) ∧
    ∃ p, claimed.pending = some p ∧ p.attempts = attempts log

/-- What the running action knows. -/
def Knows (sha256 : Str → Str) (record : Option WakeRecord) (clock : ℤ) (log : List WakeEvent) :
    WakePhase → Prop
  | .hashing request => Fresh sha256 clock log request
  | .checking request previous => Fresh sha256 clock log request ∧ previous = record
  | .accepting request state => Fresh sha256 clock log request ∧
      (record.getD .empty).accept request.now request.receipt = some state
  | .deciding state => state = record
  | .closing state => ∃ r p, record = some r ∧ r.pending = some p ∧ state = r.close ∧
      (p.expiresAt ≤ clock ∨ MAX_ATTEMPTS ≤ p.attempts)
  | .claiming stamp claimed => ∃ r p, record = some r ∧ r.pending = some p ∧
      claimed = r.claim p stamp ∧ p.attempts < MAX_ATTEMPTS ∧ ∀ old ∈ acceptances log, old.now ≤ stamp
  | .calling stamp claimed => Attempting record log stamp claimed ∧ pushes log < attempts log ∧
      ∃ n rest, log = .claimed stamp n :: rest ∧ n = attempts rest + 1
  | .sending stamp claimed => Attempting record log stamp claimed ∧
      .started stamp ∈ sinceAcceptance log
  | .settling stamp claimed => Attempting record log stamp claimed ∧
      (Succeeded log ∨ MAX_ATTEMPTS ≤ attempts log)
  | _ => True

structure Lawful (sha256 : Str → Str) (w : Wakes) : Prop where
  core : Core sha256 w.record w.clock w.log
  knows : Knows sha256 w.record w.clock w.log w.phase

variable {sha256 : Str → Str} {w : Wakes} {record : Option WakeRecord} {clock clock' : ℤ}
  {log : List WakeEvent} {stamp : ℤ} {claimed r : WakeRecord} {p : WakePending}
  {request : WakeRequest}

/-! ## Time -/

theorem Alive.mono (h : Alive record clock log) (hle : clock ≤ clock') : Alive record clock' log := by
  rcases h with h | h | h | ⟨d, hd, hlate⟩
  · exact .inl h
  · exact .inr (.inl h)
  · exact .inr (.inr (.inl h))
  · exact .inr (.inr (.inr ⟨d, hd, hlate.trans hle⟩))

theorem Core.mono (h : Core sha256 record clock log) (hle : clock ≤ clock') :
    Core sha256 record clock' log :=
  { h with
    past := fun request hr => (h.past request hr).trans hle
    alive := fun hne => (h.alive hne).mono hle }

theorem Fresh.mono (h : Fresh sha256 clock log request) (hle : clock ≤ clock') :
    Fresh sha256 clock' log request := ⟨h.1.trans hle, h.2⟩

theorem Knows.mono {phase : WakePhase} (h : Knows sha256 record clock log phase)
    (hle : clock ≤ clock') : Knows sha256 record clock' log phase := by
  cases phase with
  | hashing request => exact Fresh.mono h hle
  | checking request previous => exact ⟨h.1.mono hle, h.2⟩
  | accepting request state => exact ⟨h.1.mono hle, h.2⟩
  | closing state =>
    obtain ⟨r, p, hr, hp, hstate, hover⟩ := h
    exact ⟨r, p, hr, hp, hstate, hover.imp_left fun h => h.trans hle⟩
  | _ => exact h

/-! ## Acceptance -/

theorem accept_some {now : ℤ} {receipt : WakeReceipt} {state : WakeRecord}
    (h : r.accept now receipt = some state) :
    (∀ item ∈ r.recent, now < item.expiresAt → item.key ≠ receipt.key) ∧
      state.recent = WakeRecord.lastReceipts (r.liveReceipts now ++ [receipt]) ∧
      (∃ d, state.pending = some ⟨d, 0⟩) ∧ state.nextAt.isSome := by
  unfold WakeRecord.accept at h
  split_ifs at h with hduplicate
  obtain rfl := Option.some.inj h
  refine ⟨fun item hitem hlive hkey => hduplicate ?_, by dsimp only, ⟨_, rfl⟩, rfl⟩
  exact List.any_eq_true.2 ⟨item, List.mem_filter.2 ⟨hitem, decide_eq_true hlive⟩,
    decide_eq_true hkey⟩

theorem reverse_lastReceipts (recent : List WakeReceipt) :
    (WakeRecord.lastReceipts recent).reverse = recent.reverse.take WAKE_HISTORY_LIMIT := by
  rw [WakeRecord.lastReceipts, List.take_reverse]

theorem mem_take_filter {α : Type*} {q : α → Bool} {x : α} (hq : q x = true) {l : List α} {n : ℕ}
    (h : x ∈ l.take n) : x ∈ (l.filter q).take n := by
  induction l generalizing n with
  | nil => simp at h
  | cons y l ih =>
    cases n with
    | zero => simp at h
    | succ n =>
      rw [List.take_succ_cons] at h
      rcases List.mem_cons.1 h with rfl | h
      · rw [List.filter_cons_of_pos hq, List.take_succ_cons]
        exact List.mem_cons_self
      · by_cases hy : q y = true
        · rw [List.filter_cons_of_pos hy, List.take_succ_cons]
          exact List.mem_cons_of_mem _ (ih h)
        · rw [List.filter_cons_of_neg hy]
          have hx := ih h
          exact (List.take_sublist_take_left (Nat.le_succ n)).subset hx

/-- Acceptance remembers the new receipt and the live ones before it. -/
theorem Remembers.accept {requests : List WakeRequest} {state : WakeRecord}
    (h : Remembers record requests) (hfresh : ∀ old ∈ requests, old.now ≤ request.now)
    (hstate : (record.getD .empty).accept request.now request.receipt = some state) :
    Remembers (some state) (request :: requests) := by
  obtain ⟨-, hrecent, -⟩ := accept_some hstate
  have hreverse : state.recent.reverse = (request.receipt ::
      ((record.getD .empty).recent.reverse.filter fun item => request.now < item.expiresAt)).take
        WAKE_HISTORY_LIMIT := by
    rw [hrecent, reverse_lastReceipts, List.reverse_append, List.reverse_singleton,
      WakeRecord.liveReceipts, List.filter_reverse]
    rfl
  intro n hn old hold hlive
  rw [Option.getD_some, hreverse, List.take_take, min_eq_left hn]
  cases n with
  | zero => cases hold
  | succ n =>
    rw [List.take_succ_cons] at hold ⊢
    rcases List.mem_cons.1 hold with rfl | hold
    · exact List.mem_cons_self
    · have hnow : request.now < old.receipt.expiresAt := hlive request rfl
      refine List.mem_cons_of_mem _ (mem_take_filter
        (q := fun item : WakeReceipt => request.now < item.expiresAt) (decide_eq_true hnow) ?_)
      refine h n (Nat.le_of_succ_le hn) old hold fun last hlast => ?_
      exact (hfresh last (List.mem_of_mem_head? hlast)).trans_lt hnow

/-- An accepted identity is not among the live receipts of the record. -/
theorem Deduplicated.accept {requests : List WakeRequest} {state : WakeRecord}
    (h : Deduplicated requests) (hremembers : Remembers record requests)
    (hkeys : ∀ old ∈ requests, old.receipt.key = wakeKey sha256 old.identity)
    (hkey : request.receipt.key = wakeKey sha256 request.identity)
    (hfresh : ∀ old ∈ requests, old.now ≤ request.now)
    (hstate : (record.getD .empty).accept request.now request.receipt = some state) :
    Deduplicated (request :: requests) := by
  obtain ⟨hnew, -⟩ := accept_some hstate
  intro later earlier hsuffix old hold hidentity
  rcases List.suffix_cons_iff.1 hsuffix with he | hsuffix
  · cases he
    have hmem : old ∈ requests := List.mem_of_mem_take hold
    by_contra hlive
    rw [not_le] at hlive
    have hreceipt := hremembers _ le_rfl old hold fun last hlast =>
      (hfresh last (List.mem_of_mem_head? hlast)).trans_lt hlive
    refine hnew old.receipt (List.mem_reverse.1 (List.mem_of_mem_take hreceipt)) hlive ?_
    rw [hkeys old hmem, hkey, hidentity]
  · exact h later earlier hsuffix old hold hidentity

/-- A new envelope is accepted. -/
theorem Core.accept {state : WakeRecord} (h : Core sha256 record clock log)
    (hfresh : Fresh sha256 clock log request)
    (hstate : (record.getD .empty).accept request.now request.receipt = some state) :
    Core sha256 (some state) clock
      (.accepted request (state.pending.elim 0 (·.expiresAt)) :: log) := by
  obtain ⟨hnow, hkey, hold⟩ := hfresh
  obtain ⟨-, -, ⟨d, hpending⟩, hnext⟩ := accept_some hstate
  have hacceptances : acceptances (.accepted request (state.pending.elim 0 (·.expiresAt)) :: log) =
      request :: acceptances log := rfl
  refine ⟨?_, ?_, ?_, ?_, le_rfl, Nat.zero_le _, ?_, ?_, ?_, fun _ => .inl ?_⟩
  · rw [hacceptances]
    exact List.forall_mem_cons.2 ⟨hkey, h.keys⟩
  · rw [hacceptances]
    exact List.forall_mem_cons.2 ⟨hnow, h.past⟩
  · intro stamp earlier hsuffix
    rcases List.suffix_cons_iff.1 hsuffix with he | hsuffix
    · cases he
    · exact h.claimed stamp earlier hsuffix
  · intro earlier hsuffix
    rcases List.suffix_cons_iff.1 hsuffix with rfl | hsuffix
    · exact Nat.zero_le _
    · exact h.budget earlier hsuffix
  · rw [hacceptances]
    exact h.deduplicated.accept h.remembers h.keys hkey hold hstate
  · rw [hacceptances]
    exact h.remembers.accept hold hstate
  · rintro r hr p hp
    obtain rfl : state = r := Option.some.inj hr
    obtain rfl : _ = p := Option.some.inj (hpending.symm.trans hp)
    refine ⟨rfl, ?_, hnext⟩
    rw [deadline, hpending]
    rfl
  · obtain ⟨at', hat⟩ := Option.isSome_iff_exists.1 hnext
    exact ⟨state, _, at', rfl, hpending, hat⟩

/-! ## Attempts -/

/-- An event that is no acceptance. -/
def WakeEvent.isAcceptance : WakeEvent → Bool
  | .accepted _ _ => true
  | _ => false

theorem acceptances_cons {event : WakeEvent} (h : WakeEvent.isAcceptance event = false) :
    acceptances (event :: log) = acceptances log := by
  cases event <;> first
    | rfl
    | cases h

theorem sinceAcceptance_cons {event : WakeEvent} (h : WakeEvent.isAcceptance event = false) :
    sinceAcceptance (event :: log) = event :: sinceAcceptance log := by
  cases event <;> first
    | rfl
    | cases h

theorem deadline_cons {event : WakeEvent} (h : WakeEvent.isAcceptance event = false) :
    deadline (event :: log) = deadline log := by
  cases event <;> first
    | rfl
    | cases h

theorem attempts_le_cons {event : WakeEvent} (h : WakeEvent.isAcceptance event = false) :
    attempts log ≤ attempts (event :: log) := by
  cases event with
  | accepted => cases h
  | claimed => exact Nat.le_succ _
  | started => exact le_rfl
  | succeeded => exact le_rfl

theorem Succeeded.cons {event : WakeEvent} (h : Succeeded log)
    (hevent : WakeEvent.isAcceptance event = false) : Succeeded (event :: log) := by
  obtain ⟨stamp, hstarted, hsucceeded, hlater⟩ := h
  refine ⟨stamp, ?_, ?_, ?_⟩
  · rw [sinceAcceptance_cons hevent]
    exact List.mem_cons_of_mem _ hstarted
  · rw [sinceAcceptance_cons hevent]
    exact List.mem_cons_of_mem _ hsucceeded
  · rwa [acceptances_cons hevent]

theorem Alive.cons {event : WakeEvent} (h : Alive record clock log)
    (hevent : WakeEvent.isAcceptance event = false) : Alive record clock (event :: log) := by
  rcases h with h | h | h | h
  · exact .inl h
  · exact .inr (.inl (h.cons hevent))
  · exact .inr (.inr (.inl (h.trans (attempts_le_cons hevent))))
  · refine .inr (.inr (.inr ?_))
    rwa [deadline_cons hevent]

/-- The claim of an attempt becomes durable. -/
theorem Core.claim (h : Core sha256 record clock log) (hrecord : record = some r)
    (hpending : r.pending = some p) (hattempts : p.attempts < MAX_ATTEMPTS) (stamp : ℤ) :
    Core sha256 (some (r.claim p stamp)) clock (.claimed stamp (p.attempts + 1) :: log) := by
  subst hrecord
  obtain ⟨hcount, hdeadline, -⟩ := h.pending r rfl p hpending
  have hsucc : attempts (.claimed stamp (p.attempts + 1) :: log) = attempts log + 1 := rfl
  refine ⟨h.keys, h.past, ?_, ?_, h.sent.trans (Nat.le_succ _), ?_, h.deduplicated, h.remembers, ?_,
    fun _ => .inl ⟨_, _, _, rfl, rfl, rfl⟩⟩
  · intro stamp' earlier hsuffix
    rcases List.suffix_cons_iff.1 hsuffix with he | hsuffix
    · cases he
    · exact h.claimed stamp' earlier hsuffix
  · intro earlier hsuffix
    rcases List.suffix_cons_iff.1 hsuffix with rfl | hsuffix
    · exact h.sent.trans h.bounded
    · exact h.budget earlier hsuffix
  · rw [hsucc, ← hcount]
    exact hattempts
  · rintro r' hr' p' hp'
    cases hr'
    cases hp'
    exact ⟨by rw [hsucc, ← hcount], hdeadline, rfl⟩

/-- The push of a claimed attempt is sent. -/
theorem Core.send (h : Core sha256 record clock log) (hsent : pushes log < attempts log) {n : ℕ}
    {rest : List WakeEvent} (hlog : log = .claimed stamp n :: rest) (hn : n = attempts rest + 1) :
    Core sha256 record clock (.started stamp :: log) := by
  refine ⟨h.keys, h.past, ?_, ?_, hsent, h.bounded, h.deduplicated, h.remembers, h.pending,
    fun hne => (h.alive hne).cons rfl⟩
  · intro stamp' earlier hsuffix
    rcases List.suffix_cons_iff.1 hsuffix with he | hsuffix
    · cases he
      exact ⟨n, rest, hlog, hn⟩
    · exact h.claimed stamp' earlier hsuffix
  · intro earlier hsuffix
    rcases List.suffix_cons_iff.1 hsuffix with rfl | hsuffix
    · exact (Nat.succ_le_of_lt hsent).trans h.bounded
    · exact h.budget earlier hsuffix

/-- The push succeeded. -/
theorem Core.succeed (h : Core sha256 record clock log) (stamp : ℤ) :
    Core sha256 record clock (.succeeded stamp :: log) := by
  refine ⟨h.keys, h.past, ?_, ?_, h.sent, h.bounded, h.deduplicated, h.remembers, h.pending,
    fun hne => (h.alive hne).cons rfl⟩
  · intro stamp' earlier hsuffix
    rcases List.suffix_cons_iff.1 hsuffix with he | hsuffix
    · cases he
    · exact h.claimed stamp' earlier hsuffix
  · intro earlier hsuffix
    rcases List.suffix_cons_iff.1 hsuffix with rfl | hsuffix
    · exact h.sent.trans h.bounded
    · exact h.budget earlier hsuffix

/-- The pending work is closed, for one of the reasons that end it. -/
theorem Core.close (h : Core sha256 record clock log) (hrecord : record = some r)
    (hover : Succeeded log ∨ MAX_ATTEMPTS ≤ attempts log ∨ ∃ d ∈ deadline log, d ≤ clock) :
    Core sha256 (some r.close) clock log := by
  subst hrecord
  refine { h with
    remembers := h.remembers
    pending := fun r' hr' p hp => ?_
    alive := fun _ => .inr hover }
  cases hr'
  cases hp

/-! ## Steps -/

theorem Lawful.begin (h : w.Lawful sha256) : (w.begin sha256).Lawful sha256 := by
  unfold Wakes.begin
  split
  · exact h
  · exact ⟨h.core, trivial⟩
  · dsimp only
    split_ifs
    · exact ⟨h.core, h.knows⟩
    · exact ⟨h.core, le_rfl, rfl, h.core.past⟩

theorem Lawful.decide (h : w.Lawful sha256) :
    Knows sha256 w.record w.clock w.log (w.decide w.record) := by
  unfold Wakes.decide
  cases hd : wakeDecision w.record w.clock with
  | rest => trivial
  | close r =>
    obtain ⟨hr, p, hp, hover⟩ := wakeDecision_close hd
    exact ⟨r, p, hr, hp, rfl, hover⟩
  | claim r p =>
    obtain ⟨hr, hp, -, hattempts, -⟩ := wakeDecision_claim hd
    exact ⟨r, p, hr, hp, rfl, hattempts, h.core.past⟩

theorem Lawful.go (h : w.Lawful sha256) : (w.go sha256).Lawful sha256 := by
  have hknows := h.knows
  unfold Wakes.go
  split
  · exact h.begin
  · rename_i hp
    rw [hp] at hknows
    exact ⟨h.core, hknows, rfl⟩
  · rename_i hp
    rw [hp] at hknows
    obtain ⟨hfresh, rfl⟩ := hknows
    split
    · exact ⟨h.core, trivial⟩
    · rename_i hstate
      exact ⟨h.core, hfresh, hstate⟩
  · exact ⟨h.core, rfl⟩
  · rename_i hp
    rw [hp] at hknows
    obtain rfl : _ = w.record := hknows
    exact ⟨h.core, h.decide⟩
  · rename_i hp
    rw [hp] at hknows
    obtain ⟨hattempting, hsent, n, rest, hlog, hn⟩ := hknows
    exact ⟨h.core.send hsent hlog hn, hattempting, List.mem_cons_self⟩
  · exact h

theorem Lawful.write (h : w.Lawful sha256) (ok : Bool) : (w.write ok).Lawful sha256 := by
  have hknows := h.knows
  unfold Wakes.write
  split
  · rename_i hp
    rw [hp] at hknows
    obtain ⟨hfresh, hstate⟩ := hknows
    split_ifs
    · exact ⟨h.core.accept hfresh hstate, trivial⟩
    · exact ⟨h.core, trivial⟩
  · rename_i hp
    rw [hp] at hknows
    obtain ⟨r, p, hr, hpending, rfl, hover⟩ := hknows
    cases ok with
    | false => exact ⟨h.core, trivial⟩
    | true =>
      obtain ⟨hcount, hdeadline, -⟩ := h.core.pending r hr p hpending
      refine ⟨h.core.close hr (.inr (hover.symm.imp (fun hmax => ?_) fun hlate => ?_)), trivial⟩
      · exact hcount ▸ hmax
      · exact ⟨p.expiresAt, hdeadline, hlate⟩
  · rename_i hp
    rw [hp] at hknows
    obtain ⟨r, p, hr, hpending, rfl, hattempts, hlater⟩ := hknows
    cases ok with
    | false => exact ⟨h.core, trivial⟩
    | true =>
      obtain ⟨hcount, -, -⟩ := h.core.pending r hr p hpending
      refine ⟨h.core.claim hr hpending hattempts _, ⟨rfl, hlater, _, rfl, congrArg (· + 1) hcount⟩,
        Nat.lt_succ_of_le h.core.sent, _, _, rfl, congrArg (· + 1) hcount⟩
  · rename_i hp
    rw [hp] at hknows
    obtain ⟨⟨hr, -, -⟩, hover⟩ := hknows
    cases ok with
    | false => exact ⟨h.core, trivial⟩
    | true => exact ⟨h.core.close hr (hover.imp_right .inl), trivial⟩
  · exact h

theorem Lawful.outcome (h : w.Lawful sha256) (ok : Bool) : (w.outcome ok).Lawful sha256 := by
  have hknows := h.knows
  unfold Wakes.outcome
  split
  · rename_i stamp claimed hp
    rw [hp] at hknows
    obtain ⟨⟨hr, hlater, p, hpending, hcount⟩, hstarted⟩ := hknows
    cases ok with
    | true =>
      refine ⟨h.core.succeed stamp, ⟨hr, hlater, p, hpending, hcount⟩, .inl ⟨stamp, ?_, ?_, hlater⟩⟩
      · exact List.mem_cons_of_mem _ hstarted
      · exact List.mem_cons_self
    | false =>
      refine ⟨h.core, ?_⟩
      dsimp only
      by_cases hmax : MAX_ATTEMPTS ≤ claimed.pending.elim 0 (·.attempts)
      · have hphase : (if false = true ∨ MAX_ATTEMPTS ≤ claimed.pending.elim 0 (·.attempts) then
            WakePhase.settling stamp claimed else .idle) = .settling stamp claimed :=
          if_pos (.inr hmax)
        rw [hphase]
        refine ⟨⟨hr, hlater, p, hpending, hcount⟩, .inr ?_⟩
        rw [hpending] at hmax
        exact hcount ▸ hmax
      · have hphase : (if false = true ∨ MAX_ATTEMPTS ≤ claimed.pending.elim 0 (·.attempts) then
            WakePhase.settling stamp claimed else .idle) = .idle :=
          if_neg (not_or.2 ⟨Bool.false_ne_true, hmax⟩)
        rw [hphase]
        trivial
  · exact h

/-- **Step lemma**: whatever happens, but for a purge, the laws hold. -/
theorem Lawful.next (h : w.Lawful sha256) {label : WakeLabel} (hlabel : label.isPurge = false) :
    (w.next sha256 label).Lawful sha256 := by
  cases label with
  | tick time =>
    have hle : w.clock ≤ max w.clock time := le_max_left _ _
    exact ⟨h.core.mono hle, h.knows.mono hle⟩
  | submit action => exact ⟨h.core, h.knows⟩
  | go => exact h.go
  | write ok => exact h.write ok
  | outcome ok => exact h.outcome ok
  | restart => exact ⟨h.core, trivial⟩
  | purge => cases hlabel

/-- A step that is no purge. -/
def LiveStep (sha256 : Str → Str) (w : Wakes) (label : WakeLabel) (w' : Wakes) : Prop :=
  label.isPurge = false ∧ w.next sha256 label = w'

theorem Lawful.step {w' : Wakes} {label : WakeLabel} (h : w.Lawful sha256)
    (hs : LiveStep sha256 w label w') : w'.Lawful sha256 := by
  obtain ⟨hlabel, rfl⟩ := hs
  exact h.next hlabel

end Wakes

namespace Wakes

end Wakes

end GrantTap
