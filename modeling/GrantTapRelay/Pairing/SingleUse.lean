import GrantTapRelay.Library.Runs
import GrantTapRelay.Pairing.Boxes

/-!
# Both pairing mailboxes are single-use cells

Runs of the pairing endpoints of both runtimes, with a log of what clients asked and learned.
`Holds` relates a stored row to the contents of a cell: the two agree up to expired blobs, which
each runtime deletes when it likes. `Serves` is the step lemma, one for each runtime, and `Logged`
the invariant of a run. The alarm of a Worker mailbox is delivered at the time last given to
`setAlarm` or later, and then the blob of that put has expired.

* `pairing_single_use`: in every run of either runtime a mailbox is a single-use cell.
-/

namespace GrantTap

open Js Runs Cell

/-! ## What clients see -/

/-- What a request asks of a cell; a refused body asks nothing. -/
def PairRequest.request? (q : PairRequest) : Option (Request PairBlob) :=
  match q.method with
  | .put | .post => (pairBlob? (q.body.getD none)).map .put
  | .head => some .head
  | .get => some .get
  | .other => none

/-- What a reply says of a cell. -/
def PairReply.answer : PairReply → Answer PairBlob
  | stored => .stored
  | occupied => .occupied
  | present => .present
  | taken blob => .taken blob
  | absent | unknown | unread | notCanonical | notAllowed => .absent

/-- A request and its reply. -/
structure PairExchange where
  now : ℤ
  request : PairRequest
  reply : PairReply

def PairExchange.event? (x : PairExchange) : Option (Event PairBlob) :=
  x.request.request?.map fun request => ⟨x.now, request, x.reply.answer⟩

/-! ## Rows and contents -/

/-- The row of a put. -/
def pairRow (held : PairBlob × ℤ) : PairRow := ⟨held.1, held.2 + PAIR_TTL_MS⟩

/-- The row, unless it has expired. -/
def unexpiredRow (now : ℤ) (row : Option PairRow) : Option PairRow :=
  row.filter fun item => now < item.expiresAt

/-- At `now` the row is what the cell holds, up to expired blobs. -/
def Holds (now : ℤ) (row : Option PairRow) (held : Option (PairBlob × ℤ)) : Prop :=
  unexpiredRow now row = unexpiredRow now (held.map pairRow)

section Holds

variable {now now' : ℤ} {row : Option PairRow} {held : Option (PairBlob × ℤ)}

theorem unexpiredRow_later (h : now ≤ now') (row : Option PairRow) :
    unexpiredRow now' (unexpiredRow now row) = unexpiredRow now' row := by
  unfold unexpiredRow
  rw [Option.filter_filter]
  refine congrArg (Option.filter · row) (funext fun item => ?_)
  simp only [← Bool.decide_and, decide_eq_decide]
  omega

theorem Holds.later (h : Holds now row held) (hle : now ≤ now') : Holds now' row held := by
  unfold Holds at h ⊢
  rw [← unexpiredRow_later hle, h, unexpiredRow_later hle]

/-- Expired blobs may go. -/
theorem Holds.purge (h : Holds now row held) : Holds now (unexpiredRow now row) held := by
  unfold Holds at h ⊢
  rw [unexpiredRow_later le_rfl, h]

/-- The blob a client may see. -/
theorem Holds.fresh (h : Holds now row held) :
    fresh PAIR_TTL_MS now held = (unexpiredRow now row).map (·.blob) := by
  rw [h]
  cases held with
  | none => rfl
  | some x =>
    by_cases hlt : now < x.2 + PAIR_TTL_MS <;>
      simp [Cell.fresh, unexpiredRow, pairRow, Option.filter_some, hlt]

/-- The answers of a cell, read off the row. -/
theorem Holds.answer_put (h : Holds now row held) (blob : PairBlob) :
    answer PAIR_TTL_MS now held (.put blob) =
      if (unexpiredRow now row).isSome then .occupied else .stored := by
  rw [answer, h.fresh, Option.isSome_map]

theorem Holds.answer_head (h : Holds now row held) :
    answer PAIR_TTL_MS now held .head =
      if (unexpiredRow now row).isSome then .present else .absent := by
  rw [answer, h.fresh, Option.isSome_map]

theorem Holds.answer_get (h : Holds now row held) :
    answer PAIR_TTL_MS now held .get =
      (unexpiredRow now row).elim .absent fun item => .taken item.blob := by
  rw [answer, h.fresh]
  cases unexpiredRow now row <;> rfl

/-- Nothing is left once a blob is taken, or was not there. -/
theorem Holds.gone (h : Holds now row held) (hnone : unexpiredRow now row = none) :
    Holds now none held := by
  unfold Holds
  rw [← h, hnone]
  rfl

end Holds

/-- The runtime answers as the cell does, and holds what the cell holds after it. -/
def Serves (now : ℤ) (row row' : Option PairRow) (q : PairRequest) (reply : PairReply) : Prop :=
  ∀ held, Holds now row held →
    match q.request? with
    | none => Holds now row' held
    | some request => reply.answer = answer PAIR_TTL_MS now held request ∧
        Holds now row' (Event.leave held ⟨now, request, reply.answer⟩)

section Serves

variable {now : ℤ} {row row' : Option PairRow} {q : PairRequest}

/-- A refused request changes nothing. -/
theorem Serves.refused (reply : PairReply) (hq : q.request? = none) : Serves now row row q reply := by
  intro held h
  rw [hq]
  exact h

theorem Serves.put {blob : PairBlob} (hq : q.request? = some (.put blob))
    (hfree : unexpiredRow now row = none) :
    Serves now row (some ⟨blob, now + PAIR_TTL_MS⟩) q .stored := by
  intro held h
  rw [hq]
  dsimp only
  rw [h.answer_put, hfree]
  exact ⟨rfl, rfl⟩

theorem Serves.occupied {blob : PairBlob} (hq : q.request? = some (.put blob))
    (hfull : (unexpiredRow now row).isSome) (hrow : row' = row ∨ row' = unexpiredRow now row) :
    Serves now row row' q .occupied := by
  intro held h
  rw [hq]
  dsimp only
  rw [h.answer_put, if_pos hfull]
  refine ⟨rfl, ?_⟩
  rcases hrow with rfl | rfl
  · exact h
  · exact h.purge

theorem Serves.head (hq : q.request? = some .head)
    (hrow : row' = row ∨ row' = unexpiredRow now row) :
    Serves now row row' q (if (unexpiredRow now row).isSome then .present else .absent) := by
  intro held h
  have hkept : Holds now row' held := by
    rcases hrow with rfl | rfl
    · exact h
    · exact h.purge
  rw [hq]
  dsimp only
  rw [h.answer_head]
  split_ifs
  · exact ⟨rfl, hkept⟩
  · exact ⟨rfl, hkept⟩

/-- A blob that is taken, or has expired, is gone. -/
theorem Serves.get (hq : q.request? = some .get) :
    Serves now row none q ((unexpiredRow now row).elim .unknown fun item => .taken item.blob) := by
  intro held h
  rw [hq]
  dsimp only
  rw [h.answer_get]
  cases hrow : unexpiredRow now row with
  | none => exact ⟨rfl, h.gone hrow⟩
  | some item => exact ⟨rfl, rfl⟩

end Serves

/-! ### Node -/

theorem get?_purgeExpiredPairings (s : NodePairings) (now : ℤ) (mailbox : Str) :
    (s.purgeExpiredPairings now).get? mailbox = unexpiredRow now (s.get? mailbox) :=
  Table.get?_filter ..

theorem putPairing_eq (s : NodePairings) (mailbox : Str) (blob : PairBlob) (expiresAt now : ℤ) :
    s.putPairing mailbox blob expiresAt now =
      if (unexpiredRow now (s.get? mailbox)).isSome then (false, s.purgeExpiredPairings now)
      else (true, (s.purgeExpiredPairings now).put mailbox ⟨blob, expiresAt⟩) := by
  unfold NodePairings.putPairing
  dsimp only
  rw [get?_purgeExpiredPairings]
  cases unexpiredRow now (s.get? mailbox) <;> rfl

theorem handlePut_serves (s : NodePairings) (mailbox : Str) (q : PairRequest) (now : ℤ)
    (hq : q.request? = (pairBlob? (q.body.getD none)).map .put) :
    let r := match pairBlob? (q.body.getD none) with
      | none => (PairReply.notCanonical, s)
      | some blob =>
        let r := s.putPairing mailbox blob (now + PAIR_TTL_MS) now
        (if r.1 then .stored else .occupied, r.2)
    Serves now (s.get? mailbox) (r.2.get? mailbox) q r.1 := by
  cases hblob : pairBlob? (q.body.getD none) with
  | none =>
    rw [hblob] at hq
    exact .refused _ hq
  | some blob =>
    rw [hblob] at hq
    dsimp only
    rw [putPairing_eq]
    by_cases hfull : (unexpiredRow now (s.get? mailbox)).isSome
    · rw [if_pos hfull]
      exact .occupied hq hfull (.inr (get?_purgeExpiredPairings s now mailbox))
    · rw [if_neg hfull]
      dsimp only
      rw [Table.get?_put, if_pos rfl]
      exact .put hq (Option.not_isSome_iff_eq_none.1 hfull)

theorem handlePairing_serves (s : NodePairings) (mailbox : Str) (q : PairRequest) (now : ℤ) :
    Serves now (s.get? mailbox) ((s.handlePairing mailbox q now).2.get? mailbox) q
      (s.handlePairing mailbox q now).1 := by
  unfold NodePairings.handlePairing
  cases hmethod : q.method with
  | put => exact handlePut_serves s mailbox q now (by rw [PairRequest.request?, hmethod])
  | post => exact handlePut_serves s mailbox q now (by rw [PairRequest.request?, hmethod])
  | head =>
    have hpresent : ((s.purgeExpiredPairings now).get? mailbox).any
        (fun item => now < item.expiresAt) = (unexpiredRow now (s.get? mailbox)).isSome := by
      rw [get?_purgeExpiredPairings, ← unexpiredRow_later le_rfl, unexpiredRow]
      cases (unexpiredRow now (s.get? mailbox)) with
      | none => rfl
      | some item => by_cases hlt : now < item.expiresAt <;> simp [hlt]
    dsimp only [NodePairings.peekPairing]
    rw [hpresent]
    exact .head (by rw [PairRequest.request?, hmethod])
      (.inr (get?_purgeExpiredPairings s now mailbox))
  | get =>
    dsimp only [NodePairings.takePairing]
    rw [Table.get?_erase, if_pos rfl]
    rw [Option.elim_map]
    exact .get (by rw [PairRequest.request?, hmethod])
  | other => exact .refused _ (by rw [PairRequest.request?, hmethod])

/-! ### Worker -/

theorem put_serves (s : GrantTapCodes) (q : PairRequest) (now : ℤ)
    (hq : q.request? = (pairBlob? (q.body.getD none)).map .put) :
    Serves now s.pairing (s.put q.body now).2.pairing q (s.put q.body now).1 := by
  unfold GrantTapCodes.put
  cases hbody : q.body with
  | none =>
    rw [hbody] at hq
    exact .refused _ hq
  | some body =>
    rw [hbody] at hq
    dsimp only [Option.getD_some] at hq ⊢
    cases hblob : pairBlob? body with
    | none =>
      rw [hblob] at hq
      exact .refused _ hq
    | some blob =>
      rw [hblob] at hq
      dsimp only
      have hfull : (s.pairing.any fun item => now < item.expiresAt) =
          (unexpiredRow now s.pairing).isSome := by
        unfold unexpiredRow
        cases s.pairing with
        | none => rfl
        | some item => by_cases hlt : now < item.expiresAt <;> simp [hlt]
      rw [hfull]
      split_ifs with hsome
      · exact .occupied hq hsome (.inl rfl)
      · exact .put hq (by simpa using hsome)

theorem get_eq (s : GrantTapCodes) (now : ℤ) :
    (s.get now).1 = ((unexpiredRow now s.pairing).elim .unknown fun item => .taken item.blob) ∧
      (s.get now).2.pairing = none := by
  obtain ⟨pairing, alarm⟩ := s
  cases pairing with
  | none => exact ⟨rfl, rfl⟩
  | some item =>
    by_cases hlt : now < item.expiresAt
    · simp [GrantTapCodes.get, GrantTapCodes.deleteAll, unexpiredRow, Option.filter_some, hlt,
        not_le.2 hlt]
    · simp [GrantTapCodes.get, GrantTapCodes.deleteAll, unexpiredRow, Option.filter_some, hlt,
        not_lt.1 hlt]

theorem fetch_serves (s : GrantTapCodes) (q : PairRequest) (now : ℤ) :
    Serves now s.pairing (s.fetch q now).2.pairing q (s.fetch q now).1 := by
  unfold GrantTapCodes.fetch
  cases hmethod : q.method with
  | put => exact put_serves s q now (by rw [PairRequest.request?, hmethod])
  | post => exact put_serves s q now (by rw [PairRequest.request?, hmethod])
  | head =>
    have hhead : s.head now = if (unexpiredRow now s.pairing).isSome then .present else .absent := by
      unfold GrantTapCodes.head unexpiredRow
      cases s.pairing with
      | none => rfl
      | some item => by_cases hlt : now < item.expiresAt <;> simp [hlt, ← not_lt]
    dsimp only
    rw [hhead]
    exact .head (by rw [PairRequest.request?, hmethod]) (.inl rfl)
  | get =>
    dsimp only
    rw [(get_eq s now).1, (get_eq s now).2]
    exact .get (by rw [PairRequest.request?, hmethod])
  | other => exact .refused _ (by rw [PairRequest.request?, hmethod])

/-! ## Runs -/

/-- What a mailbox told its clients up to `now`, and the row it has. -/
structure Logged (now : ℤ) (events : List (Event PairBlob)) (row : Option PairRow) : Prop where
  conforms : Conforms PAIR_TTL_MS events
  sorted : events.Pairwise fun x y => x.now ≤ y.now
  past : ∀ e ∈ events, e.now ≤ now
  holds : Holds now row (contents events)

namespace Logged

variable {now now' : ℤ} {events : List (Event PairBlob)} {row row' : Option PairRow}

theorem start (now : ℤ) : Logged now [] none := ⟨.nil, .nil, by simp, rfl⟩

theorem later (h : Logged now events row) (hle : now ≤ now') : Logged now' events row :=
  ⟨h.conforms, h.sorted, fun e he => (h.past e he).trans hle, h.holds.later hle⟩

theorem purge (h : Logged now events row) : Logged now events (unexpiredRow now row) :=
  { h with holds := h.holds.purge }

/-- A served request. -/
theorem serve {q : PairRequest} {reply : PairReply} (h : Logged now events row)
    (hserves : Serves now row row' q reply) :
    Logged now (events ++ (PairExchange.event? ⟨now, q, reply⟩).toList) row' := by
  have hheld := hserves _ h.holds
  unfold PairExchange.event?
  dsimp only
  cases hq : q.request? with
  | none =>
    rw [hq] at hheld
    rw [Option.map_none, Option.toList_none, List.append_nil]
    exact { h with holds := hheld }
  | some request =>
    rw [hq] at hheld
    rw [Option.map_some, Option.toList_some]
    refine ⟨h.conforms.snoc hheld.1, ?_, fun e he => ?_, ?_⟩
    · rw [List.pairwise_append]
      refine ⟨h.sorted, List.pairwise_singleton _ _, fun x hx y hy => ?_⟩
      rw [List.mem_singleton.1 hy]
      exact h.past x hx
    · rcases List.mem_append.1 he with he | he
      · exact h.past e he
      · rw [List.mem_singleton.1 he]
    · rw [contents_snoc]
      exact hheld.2

theorem singleUse (h : Logged now events row) : SingleUse PAIR_TTL_MS events :=
  h.conforms.singleUse h.sorted

end Logged

theorem filterMap_snoc {α β : Type*} (f : α → Option β) (l : List α) (a : α) :
    (l ++ [a]).filterMap f = l.filterMap f ++ (f a).toList := by
  rw [List.filterMap_append]
  cases h : f a with
  | none => rw [List.filterMap_cons_none h]; rfl
  | some b => rw [List.filterMap_cons_some h]; rfl

/-! ### Node -/

inductive NodePairLabel
  | request (mailbox : Str) (q : PairRequest)
  | purge

/-- The table, and what the clients of each mailbox asked and learned. -/
structure NodePairLog where
  pairings : NodePairings
  log : List (Str × PairExchange)

namespace NodePairLog

def start : NodePairLog := ⟨.empty, []⟩

def next (h : NodePairLog) (now : ℤ) : NodePairLabel → NodePairLog
  | .request mailbox q =>
    let r := h.pairings.handlePairing mailbox q now
    ⟨r.2, h.log ++ [(mailbox, ⟨now, q, r.1⟩)]⟩
  | .purge => { h with pairings := h.pairings.purgeExpiredPairings now }

/-- Labels have their times. -/
def Step (h : NodePairLog) (l : ℤ × NodePairLabel) (h' : NodePairLog) : Prop := h' = h.next l.1 l.2

/-- The events of a mailbox. -/
def events (h : NodePairLog) (mailbox : Str) : List (Event PairBlob) :=
  h.log.filterMap fun x => if x.1 = mailbox then x.2.event? else none

/-- A request purges the rows of the other mailboxes at most. -/
theorem handlePairing_other (s : NodePairings) {mailbox other : Str} (q : PairRequest) (now : ℤ)
    (hne : other ≠ mailbox) :
    (s.handlePairing mailbox q now).2.get? other = s.get? other ∨
      (s.handlePairing mailbox q now).2.get? other = unexpiredRow now (s.get? other) := by
  have hput (blob : PairBlob) (expiresAt : ℤ) :
      (s.putPairing mailbox blob expiresAt now).2.get? other = unexpiredRow now (s.get? other) := by
    rw [putPairing_eq]
    split_ifs
    · exact get?_purgeExpiredPairings s now other
    · rw [Table.get?_put, if_neg hne]
      exact get?_purgeExpiredPairings s now other
  unfold NodePairings.handlePairing
  cases q.method with
  | put | post =>
    dsimp only
    cases pairBlob? (q.body.getD none) with
    | none => exact .inl rfl
    | some blob => exact .inr (hput blob _)
  | head => exact .inr (get?_purgeExpiredPairings s now other)
  | get =>
    refine .inl ?_
    dsimp only [NodePairings.takePairing]
    rw [Table.get?_erase, if_neg hne]
  | other => exact .inl rfl

theorem step_logged {h h' : NodePairLog} {l : ℤ × NodePairLabel} (mailbox : Str)
    (hlog : Logged l.1 (h.events mailbox) (h.pairings.get? mailbox)) (hstep : Step h l h') :
    Logged l.1 (h'.events mailbox) (h'.pairings.get? mailbox) := by
  obtain ⟨now, label⟩ := l
  rw [Step] at hstep
  subst hstep
  cases label with
  | purge =>
    have hrow := get?_purgeExpiredPairings h.pairings now mailbox
    exact hrow ▸ hlog.purge
  | request asked q =>
    have hevents : (h.next now (.request asked q)).events mailbox = h.events mailbox ++
        (if asked = mailbox then PairExchange.event? ⟨now, q,
          (h.pairings.handlePairing asked q now).1⟩ else none).toList := filterMap_snoc ..
    rw [hevents]
    by_cases hasked : asked = mailbox
    · subst hasked
      rw [if_pos rfl]
      exact hlog.serve (handlePairing_serves h.pairings asked q now)
    · rw [if_neg hasked, Option.toList_none, List.append_nil]
      change Logged now _ ((h.pairings.handlePairing asked q now).2.get? mailbox)
      rcases handlePairing_other h.pairings q now (Ne.symm hasked) with hrow | hrow
      · rw [hrow]
        exact hlog
      · rw [hrow]
        exact hlog.purge

end NodePairLog

/-! ### Worker -/

inductive CodesLabel
  | request (q : PairRequest)
  | alarm

/-- The storage of a mailbox, and what its clients asked and learned. -/
structure CodesLog where
  codes : GrantTapCodes
  log : List PairExchange

namespace CodesLog

def start : CodesLog := ⟨.empty, []⟩

def next (h : CodesLog) (now : ℤ) : CodesLabel → CodesLog
  | .request q =>
    let r := h.codes.fetch q now
    ⟨r.2, h.log ++ [⟨now, q, r.1⟩]⟩
  | .alarm => { h with codes := h.codes.deleteAll }

/-- An alarm comes at the time last given to `setAlarm`, or later. -/
def Step (h : CodesLog) (l : ℤ × CodesLabel) (h' : CodesLog) : Prop :=
  (l.2 = .alarm → ∃ time, h.codes.alarm = some time ∧ time ≤ l.1) ∧ h' = h.next l.1 l.2

def events (h : CodesLog) : List (Event PairBlob) := h.log.filterMap (·.event?)

/-- The alarm is set for the blob. -/
def Armed (s : GrantTapCodes) : Prop := ∀ item, s.pairing = some item → s.alarm = some item.expiresAt

theorem fetch_armed {s : GrantTapCodes} (h : Armed s) (q : PairRequest) (now : ℤ) :
    Armed (s.fetch q now).2 := by
  have hgone : Armed s.deleteAll := fun _ h => nomatch h
  have hput : Armed (s.put q.body now).2 := by
    unfold GrantTapCodes.put
    cases q.body with
    | none => exact h
    | some body =>
      dsimp only
      cases pairBlob? body with
      | none => exact h
      | some blob =>
        dsimp only
        split_ifs
        · exact h
        · intro item hitem
          cases hitem
          rfl
  unfold GrantTapCodes.fetch
  cases q.method with
  | put | post => exact hput
  | head | other => exact h
  | get =>
    dsimp only
    unfold GrantTapCodes.get
    cases hrow : s.pairing with
    | none => exact h
    | some item =>
      dsimp only
      split_ifs
      · exact hgone
      · exact hgone

theorem step_logged {h h' : CodesLog} {l : ℤ × CodesLabel}
    (hlog : Logged l.1 h.events h.codes.pairing ∧ Armed h.codes) (hstep : Step h l h') :
    Logged l.1 h'.events h'.codes.pairing ∧ Armed h'.codes := by
  obtain ⟨now, label⟩ := l
  obtain ⟨halarm, hnext⟩ := hstep
  subst hnext
  cases label with
  | request q =>
    refine ⟨?_, fetch_armed hlog.2 q now⟩
    have hevents : (h.next now (.request q)).events = h.events ++
        (PairExchange.event? ⟨now, q, (h.codes.fetch q now).1⟩).toList := filterMap_snoc ..
    rw [hevents]
    exact hlog.1.serve (fetch_serves h.codes q now)
  | alarm =>
    obtain ⟨time, htime, hle⟩ := halarm rfl
    refine ⟨?_, fun _ h => nomatch h⟩
    -- the blob for which the alarm was set has expired
    have hexpired : unexpiredRow now h.codes.pairing = none := by
      cases hrow : h.codes.pairing with
      | none => rfl
      | some item =>
        have hitem := hlog.2 item hrow
        rw [htime, Option.some_inj] at hitem
        rw [unexpiredRow, Option.filter_some, if_neg]
        simpa [← hitem] using hle
    have hpurged := hlog.1.purge
    rw [hexpired] at hpurged
    exact hpurged

end CodesLog

/-- **Both pairing mailboxes are single-use cells**: in every run whose times do not decrease,
what the clients of a mailbox learn is what a cell tells that holds one blob for fifteen minutes. -/
theorem pairing_single_use :
    (∀ (ls : List (ℤ × NodePairLabel)) (h : NodePairLog), Run NodePairLog.Step .start ls h →
      (ls.map (·.1)).Pairwise (· ≤ ·) → ∀ mailbox, SingleUse PAIR_TTL_MS (h.events mailbox)) ∧
    ∀ (ls : List (ℤ × CodesLabel)) (h : CodesLog), Run CodesLog.Step .start ls h →
      (ls.map (·.1)).Pairwise (· ≤ ·) → SingleUse PAIR_TTL_MS h.events := by
  refine ⟨fun ls h hrun hsorted mailbox => ?_, fun ls h hrun hsorted => ?_⟩
  · have hlater (h : NodePairLog) (now now' : ℤ) (hle : now ≤ now')
        (hlog : Logged now (h.events mailbox) (h.pairings.get? mailbox)) :
        Logged now' (h.events mailbox) (h.pairings.get? mailbox) := hlog.later hle
    obtain ⟨now, hlog⟩ := hrun.timed_end hlater
      (fun _ _ _ => NodePairLog.step_logged mailbox) hsorted fun now => Logged.start now
    exact hlog.singleUse
  · have hlater (h : CodesLog) (now now' : ℤ) (hle : now ≤ now')
        (hlog : Logged now h.events h.codes.pairing ∧ CodesLog.Armed h.codes) :
        Logged now' h.events h.codes.pairing ∧ CodesLog.Armed h.codes :=
      ⟨hlog.1.later hle, hlog.2⟩
    obtain ⟨now, hlog⟩ := hrun.timed_end hlater (fun _ _ _ => CodesLog.step_logged) hsorted
      fun now => ⟨Logged.start now, fun _ h => nomatch h⟩
    exact hlog.1.singleUse

/-! ### A code that is put, taken and put again -/

section Sample

def sampleBlob : Value := some <| .obj
  [(lit "nonce", .str (List.replicate 32 65)), (lit "box", .str (List.replicate 64 66))]

def samplePair (method : PairMethod) : PairRequest := ⟨method, some sampleBlob⟩

/-- The second put comes too early, the third take too late; the alarm of the last put is late. -/
def sampleCodes : List (ℤ × CodesLabel) :=
  [(0, .request (samplePair .put)), (1, .request (samplePair .post)),
    (2, .request (samplePair .get)), (3, .request (samplePair .get)),
    (4, .request (samplePair .put)), (900004, .request (samplePair .head)), (900005, .alarm)]

def sampleCodesLog : CodesLog := sampleCodes.foldl (fun h l => h.next l.1 l.2) .start

theorem sampleCodes_run : Run CodesLog.Step .start sampleCodes sampleCodesLog := by
  have hstep (h : CodesLog) (now : ℤ) (q : PairRequest) :
      CodesLog.Step h (now, .request q) (h.next now (.request q)) := ⟨fun h => (nomatch h), rfl⟩
  refine .cons (hstep _ _ _) (.cons (hstep _ _ _) (.cons (hstep _ _ _) (.cons (hstep _ _ _)
    (.cons (hstep _ _ _) (.cons (hstep _ _ _) (.cons ⟨fun _ => ⟨900004, ?_, by decide⟩, rfl⟩
      (.nil _)))))))
  decide +kernel

theorem pairing_single_use_sample :
    sampleCodesLog.log.map (·.reply.status) = [200, 409, 200, 404, 200, 404] ∧
      SingleUse PAIR_TTL_MS sampleCodesLog.events :=
  ⟨by decide +kernel, pairing_single_use.2 sampleCodes _ sampleCodes_run (by decide)⟩

end Sample

end GrantTap
