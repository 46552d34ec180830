import GrantTapRelay.Node.UpgradeGate

/-!
# The cool-down of a ticket holder

Two histories of one relay in which the holder of a ticket does the same. `Milder` relates what two
registries tell of one key. While no sweep evicts the holder's entry it sees what it would see alone
(`verdicts_eq_alone`), and in any history it is refused no more than alone (`verdicts_le_alone`);
so others cannot make a refusal of one that was not (`nobody_spends`).

Where the registry evicts the holder's entry for capacity, an event of another that makes room keeps
the entry, and with it the cool-down (`room_made_spends`).
-/

namespace GrantTap

open Js

/-! ## Two registries and one key -/

/-- What one registry tells of a key is no worse for it than what the other tells. -/
def Milder (x y : Option CoolDownEntry) : Prop :=
  ∀ a, x = some a → ∃ b, y = some b ∧ a.strikes ≤ b.strikes ∧ a.untilMs ≤ b.untilMs ∧
    (b.admissionOnly = true → a.admissionOnly = true)

/-- A check of a key alone: whether it refuses, and what is left of the entry. -/
def checkEntry (admitted : Bool) (now : ℤ) (x : Option CoolDownEntry) :
    Bool × Option CoolDownEntry :=
  match x with
  | none => (false, none)
  | some e =>
    if admitted && e.admissionOnly then (false, none) else (decide (0 < e.untilMs - now), some e)

namespace Milder

open CoolDownRegistry

variable {limits : CoolDownLimits} {x y : Option CoolDownEntry} {now : ℤ}

theorem none (y : Option CoolDownEntry) : Milder none y := nofun

theorem refl (x : Option CoolDownEntry) : Milder x x := fun a h => ⟨a, h, le_rfl, le_rfl, id⟩

/-- Time passes. -/
theorem later (h : Milder x y) :
    Milder (x.filter fun e => !stale limits now e) (y.filter fun e => !stale limits now e) := by
  intro a ha
  obtain ⟨hx, hlive⟩ := Option.filter_eq_some_iff.1 ha
  obtain ⟨b, rfl, hstrikes, huntil, hadm⟩ := h a hx
  refine ⟨b, Option.filter_eq_some_iff.2 ⟨rfl, ?_⟩, hstrikes, huntil, hadm⟩
  simp only [stale, Bool.not_eq_true', decide_eq_false_iff_not, not_lt] at hlive ⊢
  omega

/-- A check refuses whom the milder registry refuses, and keeps the relation. -/
theorem check (h : Milder x y) (admitted : Bool) (now : ℤ) :
    ((checkEntry admitted now x).1 = true → (checkEntry admitted now y).1 = true) ∧
      Milder (checkEntry admitted now x).2 (checkEntry admitted now y).2 := by
  unfold checkEntry
  cases x with
  | none => exact ⟨nofun, Milder.none _⟩
  | some a =>
    obtain ⟨b, rfl, hstrikes, huntil, hadm⟩ := h a rfl
    dsimp only
    by_cases ha : (admitted && a.admissionOnly) = true
    · rw [if_pos ha]
      exact ⟨nofun, Milder.none _⟩
    · have hb : ¬(admitted && b.admissionOnly) = true := fun hb => by
        rw [Bool.and_eq_true] at ha hb
        exact ha ⟨hb.1, hadm hb.2⟩
      rw [if_neg ha, if_neg hb]
      refine ⟨fun hlt => ?_, fun e he => ?_⟩
      · have hlt := of_decide_eq_true hlt
        exact decide_eq_true (by omega)
      · cases he
        exact ⟨b, rfl, hstrikes, huntil, hadm⟩

/-- A strike keeps the relation. -/
theorem struck (h : Milder x y) (hlive : ∀ b, y = some b → stale limits now b = false)
    (admission : Bool) :
    Milder (some (CoolDownRegistry.struck limits x admission now))
      (some (CoolDownRegistry.struck limits y admission now)) := by
  have hmono : ∀ {m n : ℕ}, m ≤ n → backoffMs limits m ≤ backoffMs limits n := fun {m n} hmn =>
    min_le_min_left _ (Nat.mul_le_mul_left _ (Nat.pow_le_pow_right (by decide) (by omega)))
  intro a ha
  rw [Option.some_inj] at ha
  subst ha
  refine ⟨_, rfl, ?_⟩
  unfold CoolDownRegistry.struck
  cases y with
  | none =>
    cases x with
    | none => exact ⟨le_rfl, le_rfl, id⟩
    | some a =>
      obtain ⟨b, hb, -⟩ := h a rfl
      cases hb
  | some b =>
    rw [Option.filter_some (a := b), hlive b rfl]
    cases x with
    | none =>
      refine ⟨Nat.le_add_left _ _, ?_, fun hadm => (Bool.and_eq_true _ _ ▸ hadm).1⟩
      exact add_le_add_right (Int.ofNat_le.2 (hmono (Nat.le_add_left _ _))) now
    | some a =>
      obtain ⟨b', hb', hstrikes, huntil, hadm⟩ := h a rfl
      cases hb'
      have hlive' : stale limits now a = false ∨ stale limits now a = true :=
        (Bool.eq_false_or_eq_true _).symm
      rcases hlive' with ha | ha
      · rw [Option.filter_some, ha]
        refine ⟨Nat.add_le_add_right hstrikes 1, ?_, fun hb => ?_⟩
        · exact add_le_add_right (Int.ofNat_le.2 (hmono (Nat.add_le_add_right hstrikes 1))) now
        · have hb := Bool.and_eq_true _ _ ▸ hb
          exact Bool.and_eq_true _ _ ▸ ⟨hb.1, hadm hb.2⟩
      · rw [Option.filter_some, ha]
        refine ⟨Nat.le_add_left _ _, ?_, fun hb => (Bool.and_eq_true _ _ ▸ hb).1⟩
        exact add_le_add_right (Int.ofNat_le.2 (hmono (Nat.le_add_left _ _))) now

end Milder

/-! ## The events of the holder -/

namespace GateEvent

open CoolDownRegistry

variable {sha256 : Str → Str} {limits : CoolDownLimits} {T : ManagedTicket} {now : ℤ}

/-- A check of the holder's key. -/
theorem remaining_eq_check (sha256 : Str → Str) (limits : CoolDownLimits) (T : ManagedTicket)
    (r : CoolDownRegistry) (admitted : Bool) (now : ℤ) :
    decide (0 < (r.remaining limits (some (holderKey sha256 T)) admitted now).1) =
        (checkEntry admitted now (r.view limits (holderKey sha256 T) now)).1 ∧
      (r.remaining limits (some (holderKey sha256 T)) admitted now).2.view limits
          (holderKey sha256 T) now =
        (checkEntry admitted now (r.view limits (holderKey sha256 T) now)).2 := by
  obtain ⟨hwait, hview⟩ := remaining_eq r limits holderKey_ne_nil admitted now
  rw [hwait, hview]
  unfold checkEntry
  cases r.view limits (holderKey sha256 T) now with
  | none => exact ⟨rfl, rfl⟩
  | some entry =>
    dsimp only
    rw [Option.filter_some]
    by_cases hcleared : (admitted && entry.admissionOnly) = true
    · simp [hcleared]
    · simp only [hcleared, if_false, Bool.not_false, if_true, and_true, Bool.false_eq_true]
      refine decide_eq_decide.2 ?_
      rw [lt_max_iff]
      exact or_iff_right (lt_irrefl 0)

/-- What an event of the holder does to an entry alone. -/
def alone (sha256 : Str → Str) (limits : CoolDownLimits) (now : ℤ) (x : Option CoolDownEntry) :
    GateEvent → Bool × Option CoolDownEntry
  | upgrade q => if reaches q then checkEntry q.ticket.isSome now x else (false, x)
  | firstFrame socket => checkEntry (admittedSocket socket.ticket now) now x
  | policyClose socket token =>
    match (policyClose socket token).strikes sha256 with
    | none => (false, x)
    | some (_, admission) => (false, some (CoolDownRegistry.struck limits x admission now))

/-- **The events of the holder** do in the registry what they do alone, up to the sweep of a
strike. -/
theorem step_own (limits : CoolDownLimits)
    (hsha : ∀ text, sha256 text = sha256 T.identityText → text = T.identityText) {e : GateEvent}
    (hown : e.own T = true) (r : CoolDownRegistry) (now : ℤ) :
    (e.step sha256 limits r now).1 =
        (e.alone sha256 limits now (r.view limits (holderKey sha256 T) now)).1 ∧
      (((e.step sha256 limits r now).2.view limits (holderKey sha256 T) now =
          (e.alone sha256 limits now (r.view limits (holderKey sha256 T) now)).2) ∨
        (e.step sha256 limits r now).2.view limits (holderKey sha256 T) now = none ∧
          ∃ key admission, e.strikes sha256 = some (key, admission) ∧
            ((r.enter limits key admission now).sweep limits now).view limits
              (holderKey sha256 T) now ≠
            (r.enter limits key admission now).view limits (holderKey sha256 T) now) := by
  cases e with
  | upgrade q =>
    have hmine : managedCooldownIdentity sha256 q.ticket = some (holderKey sha256 T) :=
      (managedCooldownIdentity_eq hsha).2 hown
    have hkey : upgradeKey sha256 q = some (holderKey sha256 T) := by
      rw [upgradeKey, hmine]
    rw [step_upgrade, alone]
    split_ifs with hreach
    · have hroom : validRoom q.room = true := q.room_valid
        (by simp only [reaches, Bool.and_eq_true] at hreach; exact hreach.1.1)
      have hlegacy : (legacyChecked limits q r now).view limits (holderKey sha256 T) now =
          r.view limits (holderKey sha256 T) now := by
        unfold legacyChecked
        split_ifs
        · exact view_remaining_of_ne (upgradeIdentity_ne hroom _) _ _ _
        · rfl
      dsimp only
      rw [hkey, ← hlegacy]
      obtain ⟨hwait, hview⟩ := remaining_eq_check sha256 limits T (legacyChecked limits q r now)
        q.ticket.isSome now
      exact ⟨hwait, .inl hview⟩
    · exact ⟨rfl, .inl rfl⟩
  | firstFrame socket =>
    have hkey := (identity_eq_holderKey hsha socket).2 hown
    simp only [step, refuseCoolingSocket, hkey, alone]
    obtain ⟨hwait, hview⟩ := remaining_eq_check sha256 limits T r
      (admittedSocket socket.ticket now) now
    exact ⟨hwait, .inl hview⟩
  | policyClose socket token =>
    have hkey := (identity_eq_holderKey hsha socket).2 hown
    rw [step_policyClose, alone]
    cases hstrike : (policyClose socket token).strikes sha256 with
    | none => exact ⟨rfl, .inl rfl⟩
    | some struck =>
      obtain ⟨key, admission⟩ := struck
      have hmine : key = holderKey sha256 T := by
        obtain ⟨key', hkey', he⟩ := Option.map_eq_some_iff.1 hstrike
        cases he
        unfold struckKey at hkey'
        split_ifs at hkey'
        have hid := (Option.filter_eq_some_iff.1 hkey').1
        exact Option.some.inj (hid.symm.trans hkey)
      subst hmine
      refine ⟨rfl, ?_⟩
      dsimp only
      rw [← view_enter]
      rcases view_sweep (r.enter limits (holderKey sha256 T) admission now) limits now
        (holderKey sha256 T) with hv | hv
      · exact .inl hv
      · refine .inr ⟨hv, _, _, rfl, ?_⟩
        rw [hv, view_enter]
        exact (Option.some_ne_none _).symm

/-- A milder entry is refused no more, and stays milder. -/
theorem alone_milder (sha256 : Str → Str) {x y : Option CoolDownEntry} (h : Milder x y)
    (hlive : ∀ b, y = some b → stale limits now b = false) (e : GateEvent) :
    ((e.alone sha256 limits now x).1 = true → (e.alone sha256 limits now y).1 = true) ∧
      Milder (e.alone sha256 limits now x).2 (e.alone sha256 limits now y).2 := by
  cases e with
  | upgrade q =>
    simp only [alone]
    split_ifs
    · exact h.check _ _
    · exact ⟨id, h⟩
  | firstFrame socket => exact h.check _ _
  | policyClose socket token =>
    simp only [alone]
    cases (policyClose socket token).strikes sha256 with
    | none => exact ⟨id, h⟩
    | some struck => exact ⟨id, h.struck hlive _⟩

end GateEvent

/-! ## Two histories -/

section Histories

open CoolDownRegistry

variable {sha256 : Str → Str} {limits : CoolDownLimits} {T : ManagedTicket}

/-- The events of a history are in the order of their times. -/
def InOrder (h : GateHistory) : Prop := h.Pairwise fun a b => a.1 ≤ b.1

/-- What is left of an entry at a time. -/
def liveEntry (limits : CoolDownLimits) (now : ℤ) (x : Option CoolDownEntry) :
    Option CoolDownEntry := x.filter fun e => !stale limits now e

/-- The refusals of the holder if nobody else were there. -/
def aloneVerdicts (sha256 : Str → Str) (limits : CoolDownLimits) :
    Option CoolDownEntry → GateHistory → List Bool
  | _, [] => []
  | x, (now, e) :: h =>
    let (refused, x) := e.alone sha256 limits now (liveEntry limits now x)
    refused :: aloneVerdicts sha256 limits x h

theorem liveEntry_live {now : ℤ} {x : Option CoolDownEntry} :
    ∀ b, liveEntry limits now x = some b → stale limits now b = false := fun b hb => by
  simpa using (Option.filter_eq_some_iff.1 hb).2

/-- **The base run**: while the sweeps spare the holder, it sees what it would see alone. -/
theorem verdicts_eq_alone
    (hsha : ∀ text, sha256 text = sha256 T.identityText → text = T.identityText)
    {h : GateHistory} {r : CoolDownRegistry} {x : Option CoolDownEntry} {now : ℤ}
    (hview : ∀ later, now ≤ later →
      r.view limits (holderKey sha256 T) later = liveEntry limits later x)
    (hlater : ∀ y ∈ h, now ≤ y.1) (hsorted : InOrder h) (hspares : Spares sha256 limits T r h) :
    verdicts sha256 limits T r h = aloneVerdicts sha256 limits x (ownEvents T h) := by
  induction h generalizing r x now with
  | nil => rfl
  | cons y h ih =>
    obtain ⟨t, e⟩ := y
    obtain ⟨hfirst, hrest⟩ := List.pairwise_cons.1 hsorted
    have ht : now ≤ t := hlater _ List.mem_cons_self
    rw [verdicts]
    dsimp only
    by_cases hmine : e.own T = true
    · obtain ⟨hrefused, hnext⟩ := GateEvent.step_own limits hsha hmine r t
      have hnext : (e.step sha256 limits r t).2.view limits (holderKey sha256 T) t =
          (e.alone sha256 limits t (r.view limits (holderKey sha256 T) t)).2 := by
        rcases hnext with heq | ⟨-, key, admission, hstrike, hne⟩
        · exact heq
        · exact absurd (hspares.1 key admission hstrike) hne
      rw [hview t ht] at hrefused hnext
      rw [if_pos hmine, ownEvents, List.filter_cons_of_pos (by simpa using hmine), aloneVerdicts,
        hrefused]
      dsimp only
      congr 1
      refine @ih _ _ t (fun later hle => ?_) hfirst hrest hspares.2
      rw [view_later hle, hnext]
      rfl
    · have hother : e.own T = false := Bool.eq_false_iff.2 hmine
      rw [if_neg hmine, ownEvents, List.filter_cons_of_neg (by simpa using hother)]
      refine @ih _ _ t (fun later hle => ?_) hfirst hrest hspares.2
      rw [GateEvent.view_step_spared hsha hother hspares.1 hle]
      exact hview later (ht.trans hle)

/-- **The other run**: whatever the others do, the holder is refused no more than alone. -/
theorem verdicts_le_alone
    (hsha : ∀ text, sha256 text = sha256 T.identityText → text = T.identityText)
    {h : GateHistory} {r : CoolDownRegistry} {x : Option CoolDownEntry} {now : ℤ}
    (hview : ∀ later, now ≤ later →
      Milder (r.view limits (holderKey sha256 T) later) (liveEntry limits later x))
    (hlater : ∀ y ∈ h, now ≤ y.1) (hsorted : InOrder h) :
    List.Forall₂ (fun v' v => v' = true → v = true) (verdicts sha256 limits T r h)
      (aloneVerdicts sha256 limits x (ownEvents T h)) := by
  induction h generalizing r x now with
  | nil => exact .nil
  | cons y h ih =>
    obtain ⟨t, e⟩ := y
    obtain ⟨hfirst, hrest⟩ := List.pairwise_cons.1 hsorted
    have ht : now ≤ t := hlater _ List.mem_cons_self
    rw [verdicts]
    dsimp only
    by_cases hmine : e.own T = true
    · obtain ⟨hrefused, hnext⟩ := GateEvent.step_own limits hsha hmine r t
      obtain ⟨hle, hmild⟩ := GateEvent.alone_milder sha256 (hview t ht) liveEntry_live e
      rw [if_pos hmine, ownEvents, List.filter_cons_of_pos (by simpa using hmine), aloneVerdicts,
        hrefused]
      refine .cons hle (@ih _ _ t (fun later hle => ?_) hfirst hrest)
      rw [view_later hle]
      rcases hnext with heq | ⟨hnone, -⟩
      · rw [heq]
        exact hmild.later
      · rw [hnone]
        exact Milder.none _
    · have hother : e.own T = false := Bool.eq_false_iff.2 hmine
      rw [if_neg hmine, ownEvents, List.filter_cons_of_neg (by simpa using hother)]
      refine @ih _ _ t (fun later hle => ?_) hfirst hrest
      rcases GateEvent.view_step_other hsha limits r hother hle with heq | hnone
      · rw [heq]
        exact hview later (ht.trans hle)
      · rw [hnone]
        exact Milder.none _

/-- **Nobody else can spend the cool-down of a ticket holder.** Of two histories in which the holder
does the same, at the same times, the holder is refused in one only where it is refused in the other,
whose sweeps spare its entry. -/
theorem nobody_spends (sha256 : Str → Str) (limits : CoolDownLimits) (T : ManagedTicket)
    (hsha : ∀ text, sha256 text = sha256 T.identityText → text = T.identityText)
    (base others : GateHistory) (hbase : InOrder base) (hothers : InOrder others)
    (hown : ownEvents T others = ownEvents T base)
    (hspares : Spares sha256 limits T Table.empty base) :
    List.Forall₂ (fun v' v => v' = true → v = true)
      (verdicts sha256 limits T Table.empty others)
      (verdicts sha256 limits T Table.empty base) := by
  have hstart : ∀ h : GateHistory, InOrder h →
      ∃ start, ∀ y ∈ h, start ≤ y.1 := fun h hsorted => by
    cases h with
    | nil => exact ⟨0, nofun⟩
    | cons y h => exact ⟨y.1, List.forall_mem_cons.2 ⟨le_rfl, (List.pairwise_cons.1 hsorted).1⟩⟩
  obtain ⟨start, hfirst⟩ := hstart base hbase
  obtain ⟨start', hfirst'⟩ := hstart others hothers
  rw [verdicts_eq_alone (x := none) hsha (fun later _ => rfl) hfirst hbase hspares, ← hown]
  exact verdicts_le_alone hsha (fun later _ => Milder.none _) hfirst' hothers

end Histories

/-! ## A full registry -/

section Full

open CoolDownRegistry

variable {limits : CoolDownLimits} {now : ℤ}

/-- A sweep within the capacity leaves entries that are not stale. -/
theorem sweepRows_eq_self : ∀ {checked size : ℕ} {rows : List (Str × CoolDownEntry)},
    size ≤ limits.maxEntries → (∀ row ∈ rows, stale limits now row.2 = false) →
      sweepRows limits now checked size rows = rows
  | _, _, [], _, _ => rfl
  | checked, size, row :: rows, hsize, hlive => by
    have hrow := hlive row List.mem_cons_self
    unfold sweepRows
    split_ifs with hstop hdelete
    · rfl
    · rw [hrow] at hdelete
      exact absurd hdelete (by simpa using hsize)
    · rw [sweepRows_eq_self hsize fun row h => hlive row (List.mem_cons_of_mem _ h)]

/-- A first strike of a key. -/
theorem enter_fresh (limits : CoolDownLimits) (now : ℤ) {r : CoolDownRegistry} {key : Str}
    (h : r.get? key = none) (admission : Bool) : (r.enter limits key admission now).rows =
      r.rows ++ [(key, ⟨1, now + backoffMs limits 1, admission⟩)] := by
  have hkeys := Table.get?_eq_none.1 h
  have herase : (r.erase key).rows = r.rows := by
    refine List.filter_eq_self.2 fun row hrow => decide_eq_true ?_
    rintro rfl
    exact hkeys (List.mem_map_of_mem hrow)
  have hnot : key ∉ (r.erase key).rows.map Prod.fst := by rwa [herase]
  unfold enter Table.put
  rw [h]
  dsimp only
  rw [if_neg hnot, herase]
  rfl

/-- No entry of the registry is stale. -/
def Live (limits : CoolDownLimits) (now : ℤ) (r : CoolDownRegistry) : Prop :=
  ∀ row ∈ r.rows, stale limits now row.2 = false

theorem live_enter_fresh {r : CoolDownRegistry} {key : Str} (hlive : Live limits now r)
    (h : r.get? key = none) (admission : Bool) :
    Live limits now (r.enter limits key admission now) := by
  intro row hrow
  rw [enter_fresh _ _ h, List.mem_append, List.mem_singleton] at hrow
  rcases hrow with hrow | rfl
  · exact hlive row hrow
  · exact decide_eq_false (by dsimp only; omega)

/-- The strike of a new key within the capacity adds its entry. -/
theorem strike_fits {r : CoolDownRegistry} {key : Str} (hlive : Live limits now r)
    (h : r.get? key = none) (hsize : r.size < limits.maxEntries) (admission : Bool) :
    (r.enter limits key admission now).sweep limits now = r.enter limits key admission now := by
  have hlen : (r.enter limits key admission now).size ≤ limits.maxEntries := by
    rw [Table.size, enter_fresh _ _ h, List.length_append, List.length_singleton]
    exact hsize
  have hrows : sweepRows limits now 0 _ _ = _ :=
    sweepRows_eq_self hlen (live_enter_fresh hlive h admission)
  unfold sweep
  simp only [hrows]

/-- The strike of a new key beyond the capacity evicts the oldest entry. -/
theorem strike_evicts {r : CoolDownRegistry} {key : Str} {first : Str × CoolDownEntry}
    {rest : List (Str × CoolDownEntry)} (hlive : Live limits now r) (h : r.get? key = none)
    (hrows : r.rows = first :: rest) (hsize : r.size = limits.maxEntries) (admission : Bool) :
    ((r.enter limits key admission now).sweep limits now).rows =
      rest ++ [(key, ⟨1, now + backoffMs limits 1, admission⟩)] := by
  have hlive' := live_enter_fresh hlive h admission
  have henter := enter_fresh limits now h admission
  rw [hrows, List.cons_append] at henter
  have hlen : (r.enter limits key admission now).size = limits.maxEntries + 1 := by
    rw [Table.size, enter_fresh _ _ h, List.length_append, List.length_singleton, ← hsize]
    rfl
  unfold sweep
  dsimp only
  rw [hlen, henter, sweepRows, if_neg (by simp), if_pos (.inl (Nat.lt_succ_self _)),
    Nat.add_sub_cancel]
  refine sweepRows_eq_self le_rfl fun row hrow => hlive' row ?_
  rw [henter]
  exact List.mem_cons_of_mem _ hrow

/-! The histories: the holder of a ticket is closed for its rate, one device for its admission, and as
many other devices as make the registry overflow. -/

def gateRoom : Str := lit "0123456789abcdef"

/-- The key digest of a device: its number in binary. -/
def deviceDigest (n : ℕ) : Str := (List.range 64).map fun i => if n.testBit i then 49 else 48

def deviceKey (n : ℕ) : Str := gateRoom.take 16 ++ lit "|k|" ++ (deviceDigest n).take 32

/-- A device without a ticket. -/
def deviceSocket (n : ℕ) : GateSocket where
  room := gateRoom
  recipientKeyId := some (deviceDigest n)
  ticket := none
  sender := none
  room_valid := by decide

def gateTicket (account : String)
    (h : testUuid (.text account) = true) : ManagedTicket where
  kind := .computer
  accountId := .text account
  computerId := .text "33333333-3333-4333-8333-333333333333"
  publicKey := List.replicate 43 65 ++ lit "="
  room := gateRoom
  expiresAt := 300000
  account_uuid := h
  computer_uuid := by decide
  key_valid := by decide

def holderTicket : ManagedTicket :=
  gateTicket "11111111-1111-4111-8111-111111111111" (by decide)

def otherTicket : ManagedTicket :=
  gateTicket "22222222-2222-4222-8222-222222222222" (by decide)

/-- SHA-256 on the identity texts of the two tickets. -/
def gateSha256 (text : Str) : Str :=
  if text = holderTicket.identityText then
    lit "aa58fcc1693dbd109ab5e15c85356aab40b865fd2e7448c353f0face51467d25"
  else if text = otherTicket.identityText then
    lit "0703336215ba7e7c1f086367123e347a75477dadcb78ce42fbaec60b2be384e6"
  else lit "x" ++ text

theorem gateSha256_free (text : Str) (h : gateSha256 text = gateSha256 holderTicket.identityText) :
    text = holderTicket.identityText := by
  by_contra hne
  unfold gateSha256 at h
  rw [if_neg hne, if_pos rfl] at h
  split_ifs at h
  · exact absurd h (by decide)
  · exact absurd (List.cons.inj h).1 (by decide)

/-- A socket with a ticket. -/
def ticketSocket (T : ManagedTicket) : GateSocket where
  room := gateRoom
  recipientKeyId := none
  ticket := some T
  sender := none
  room_valid := by decide

/-- An upgrade with a ticket. -/
def ticketUpgrade (T : ManagedTicket) (recipientKeyId : Option Str) : UpgradeRequest where
  authorized := true
  admissionRequired := true
  ticketHeader := true
  ticket := some T
  recipientKeyId := recipientKeyId
  room := gateRoom
  roomSize := 0
  maxRoomSockets := 32
  room_valid := fun _ => by decide

def holderClose : ℤ × GateEvent := (0, .policyClose (ticketSocket holderTicket) .rateLimit)

def holderUpgrade : ℤ × GateEvent := (0, .upgrade (ticketUpgrade holderTicket none))

def deviceClose (token : CloseToken) (n : ℕ) : ℤ × GateEvent :=
  (0, .policyClose (deviceSocket n) token)

/-- The registry fills up, overflows, and the holder comes back. -/
def fullHistory : GateHistory :=
  holderClose :: deviceClose .admissionRequired 10000 ::
    ((List.range 9998).map (deviceClose .rateLimit) ++ [deviceClose .rateLimit 9998, holderUpgrade])

/-- The same, but before the overflow another ticket clears the cool-down of a device. -/
def roomMadeHistory : GateHistory :=
  holderClose :: deviceClose .admissionRequired 10000 ::
    ((List.range 9998).map (deviceClose .rateLimit) ++
      [(0, .upgrade (ticketUpgrade otherTicket (some (deviceDigest 10000)))),
        deviceClose .rateLimit 9998, holderUpgrade])

theorem deviceKey_injective {n m : ℕ} (hn : n < 2 ^ 32) (hm : m < 2 ^ 32)
    (h : deviceKey n = deviceKey m) : n = m := by
  simp only [deviceKey, List.append_cancel_left_eq, deviceDigest, ← List.map_take,
    List.take_range] at h
  refine Nat.eq_of_testBit_eq fun i => ?_
  by_cases hi : i < 32
  · have hbit := List.map_inj_left.1 h i (List.mem_range.2 (lt_of_lt_of_le hi (by decide)))
    by_cases h₁ : n.testBit i = true <;> by_cases h₂ : m.testBit i = true <;> simp_all
  · have hle : 2 ^ 32 ≤ 2 ^ i := Nat.pow_le_pow_right (by decide) (not_lt.1 hi)
    rw [Nat.testBit_lt_two_pow (hn.trans_le hle), Nat.testBit_lt_two_pow (hm.trans_le hle)]

/-- The entry of a first close. -/
def firstEntry (admission : Bool) : CoolDownEntry := ⟨1, 5000, admission⟩

theorem verdicts_close {socket : GateSocket} {token : CloseToken} {key : Str} {admission : Bool}
    (hstrike : (GateEvent.policyClose socket token).strikes gateSha256 = some (key, admission))
    (r : CoolDownRegistry) (h : GateHistory) :
    verdicts gateSha256 limits holderTicket r ((now, .policyClose socket token) :: h) =
      (if (GateEvent.policyClose socket token).own holderTicket then [false] else []) ++
        verdicts gateSha256 limits holderTicket
          ((r.enter limits key admission now).sweep limits now) h := by
  rw [verdicts, GateEvent.step_policyClose, hstrike]
  dsimp only
  split_ifs <;> rfl

theorem deviceKey_ne (n : ℕ) : deviceKey n ≠ holderKey gateSha256 holderTicket := by
  rw [deviceKey, List.append_assoc]
  exact room_ne_holderKey (by decide)

theorem device_strikes (n : ℕ) :
    (GateEvent.policyClose (deviceSocket n) .rateLimit).strikes gateSha256 =
        some (deviceKey n, false) ∧
      (GateEvent.policyClose (deviceSocket n) .admissionRequired).strikes gateSha256 =
        some (deviceKey n, true) := ⟨rfl, rfl⟩

/-- The closes of new devices within the capacity. -/
theorem verdicts_fill (ns : List ℕ) (hnodup : ns.Nodup) (hlt : ∀ n ∈ ns, n < 2 ^ 32)
    (h : GateHistory) (r : CoolDownRegistry) (hlive : Live .standard 0 r)
    (hfresh : ∀ n ∈ ns, r.get? (deviceKey n) = none)
    (hsize : r.size + ns.length ≤ CoolDownLimits.standard.maxEntries) :
    ∃ t : CoolDownRegistry, Live .standard 0 t ∧
      t.rows = r.rows ++ ns.map (fun n => (deviceKey n, firstEntry false)) ∧
      verdicts gateSha256 .standard holderTicket r (ns.map (deviceClose .rateLimit) ++ h) =
        verdicts gateSha256 .standard holderTicket t h := by
  induction ns generalizing r with
  | nil => exact ⟨r, hlive, (List.append_nil _).symm, rfl⟩
  | cons n ns ih =>
    obtain ⟨hnot, hnodup⟩ := List.nodup_cons.1 hnodup
    obtain ⟨hltn, hlt⟩ := List.forall_mem_cons.1 hlt
    obtain ⟨hn, hfresh⟩ := List.forall_mem_cons.1 hfresh
    rw [List.length_cons] at hsize
    have hrows := enter_fresh .standard 0 hn false
    have hother : ∀ m ∈ ns,
        (r.enter .standard (deviceKey n) false 0).get? (deviceKey m) = none := fun m hm => by
      have hne : deviceKey m ≠ deviceKey n := fun he =>
        hnot (deviceKey_injective (hlt m hm) hltn he ▸ hm)
      rw [get?_enter, if_neg hne, hfresh m hm]
    have hlen : (r.enter .standard (deviceKey n) false 0).size = r.size + 1 := by
      rw [Table.size, hrows, List.length_append, List.length_singleton]
      rfl
    obtain ⟨t, ht, htrows, hverdicts⟩ := ih hnodup hlt _ (live_enter_fresh hlive hn false) hother
      (by omega)
    refine ⟨t, ht, by rw [htrows, hrows, List.append_assoc]; rfl, ?_⟩
    rw [List.map_cons, List.cons_append, deviceClose, verdicts_close (device_strikes n).1,
      strike_fits hlive hn (by omega), ← hverdicts]
    rfl

/-- The registry before the overflow. -/
theorem verdicts_filled (h : GateHistory) : ∃ t : CoolDownRegistry, Live .standard 0 t ∧
    t.rows = (holderKey gateSha256 holderTicket, firstEntry false) ::
      (deviceKey 10000, firstEntry true) ::
        (List.range 9998).map (fun n => (deviceKey n, firstEntry false)) ∧
    verdicts gateSha256 .standard holderTicket Table.empty (holderClose ::
      deviceClose .admissionRequired 10000 ::
        ((List.range 9998).map (deviceClose .rateLimit) ++ h)) =
      false :: verdicts gateSha256 .standard holderTicket t h := by
  let start : CoolDownRegistry := Table.empty
  let first := start.enter .standard (holderKey gateSha256 holderTicket) false 0
  let second := first.enter .standard (deviceKey 10000) true 0
  have hfresh₁ : start.get? (holderKey gateSha256 holderTicket) = none := rfl
  have hlive₀ : Live .standard 0 start := nofun
  have hrows₁ : first.rows = [(holderKey gateSha256 holderTicket, firstEntry false)] :=
    enter_fresh _ _ hfresh₁ false
  have hlive₁ : Live .standard 0 first := live_enter_fresh hlive₀ hfresh₁ false
  have hfresh₂ : first.get? (deviceKey 10000) = none := by
    rw [get?_enter, if_neg (deviceKey_ne 10000)]
    rfl
  have hrows₂ : second.rows = [(holderKey gateSha256 holderTicket, firstEntry false),
      (deviceKey 10000, firstEntry true)] := by
    rw [enter_fresh _ _ hfresh₂, hrows₁]
    rfl
  have hlive₂ : Live .standard 0 second := live_enter_fresh hlive₁ hfresh₂ true
  have hsize₁ : first.size = 1 := congrArg List.length hrows₁
  have hsize₂ : second.size = 2 := congrArg List.length hrows₂
  have hfits₁ : first.sweep .standard 0 = first := strike_fits hlive₀ hfresh₁ (by decide) false
  have hfits₂ : second.sweep .standard 0 = second :=
    strike_fits hlive₁ hfresh₂ (by rw [hsize₁]; decide) true
  have hfresh₃ : ∀ n ∈ List.range 9998, second.get? (deviceKey n) = none := fun n hn => by
    have hn : n < 9998 := List.mem_range.1 hn
    have hne : deviceKey n ≠ deviceKey 10000 := fun he => by
      have := deviceKey_injective (by omega) (by decide) he
      omega
    rw [get?_enter, if_neg hne, get?_enter, if_neg (deviceKey_ne n)]
    rfl
  obtain ⟨t, ht, htrows, hverdicts⟩ := verdicts_fill (List.range 9998) List.nodup_range
    (fun n hn => lt_trans (List.mem_range.1 hn) (by decide)) h second hlive₂ hfresh₃
    (by rw [hsize₂, List.length_range]; decide)
  have hown : (GateEvent.policyClose (ticketSocket holderTicket) .rateLimit).own holderTicket =
      true := GateEvent.own_iff.2 ⟨holderTicket, rfl, rfl⟩
  have hother : (GateEvent.policyClose (deviceSocket 10000) .admissionRequired).own holderTicket =
      false := rfl
  have hstrike : (GateEvent.policyClose (ticketSocket holderTicket) .rateLimit).strikes gateSha256 =
      some (holderKey gateSha256 holderTicket, false) := rfl
  have hstrike' := (device_strikes 10000).2
  refine ⟨t, ht, by rw [htrows, hrows₂]; rfl, ?_⟩
  rw [holderClose, verdicts_close hstrike, hfits₁, deviceClose, verdicts_close hstrike', hfits₂,
    hverdicts, hown, hother]
  rfl

/-- The upgrade of the holder, without a key digest. -/
theorem verdicts_holderUpgrade (r : CoolDownRegistry) :
    verdicts gateSha256 .standard holderTicket r [holderUpgrade] =
      [(checkEntry true 0 (r.view .standard (holderKey gateSha256 holderTicket) 0)).1] := by
  have hown : (GateEvent.upgrade (ticketUpgrade holderTicket none)).own holderTicket = true :=
    GateEvent.own_iff.2 ⟨holderTicket, rfl, rfl⟩
  have hstep := (GateEvent.step_own .standard gateSha256_free hown r 0).1
  have halone : (GateEvent.upgrade (ticketUpgrade holderTicket none)).alone gateSha256 .standard 0
      (r.view .standard (holderKey gateSha256 holderTicket) 0) =
        checkEntry true 0 (r.view .standard (holderKey gateSha256 holderTicket) 0) := rfl
  rw [halone] at hstep
  rw [holderUpgrade, verdicts]
  dsimp only
  rw [if_pos hown, hstep]
  rfl

/-- What the registry before the overflow tells of the keys that follow. -/
theorem get?_filled {t : CoolDownRegistry}
    (h : t.rows = (holderKey gateSha256 holderTicket, firstEntry false) ::
      (deviceKey 10000, firstEntry true) ::
        (List.range 9998).map (fun n => (deviceKey n, firstEntry false))) :
    t.get? (deviceKey 9998) = none ∧ t.get? (deviceKey 10000) = some (firstEntry true) ∧
      t.get? (holderKey gateSha256 otherTicket) = none ∧
      t.get? (holderKey gateSha256 holderTicket) = some (firstEntry false) := by
  have hother : ∀ n, deviceKey n ≠ holderKey gateSha256 otherTicket := fun n => by
    rw [deviceKey, List.append_assoc]
    exact room_ne_holderKey (by decide)
  have hholders : holderKey gateSha256 otherTicket ≠ holderKey gateSha256 holderTicket := by
    intro he
    have htext := gateSha256_free _ (List.append_cancel_left he)
    exact absurd htext (by decide)
  refine ⟨Table.get?_eq_none.2 ?_, ?_, Table.get?_eq_none.2 ?_, ?_⟩
  · rw [h]
    simp only [List.map_cons, List.map_map, List.mem_cons, List.mem_map, List.mem_range,
      Function.comp_apply, not_or, not_exists, not_and]
    refine ⟨deviceKey_ne 9998, fun he => ?_, fun n hn he => ?_⟩
    · have := deviceKey_injective (by decide) (by decide) he
      omega
    · have := deviceKey_injective (by omega) (by decide) he
      omega
  · refine Table.mem_rows.1 ?_
    rw [h]
    exact List.mem_cons_of_mem _ List.mem_cons_self
  · rw [h]
    simp only [List.map_cons, List.map_map, List.mem_cons, List.mem_map, List.mem_range,
      Function.comp_apply, not_or, not_exists, not_and]
    exact ⟨hholders, (hother 10000).symm, fun n _ => hother n⟩
  · refine Table.mem_rows.1 ?_
    rw [h]
    exact List.mem_cons_self

/-- The overflow evicts the entry of the holder, who is not refused. -/
theorem verdicts_full :
    verdicts gateSha256 .standard holderTicket Table.empty fullHistory = [false, false] := by
  obtain ⟨t, ht, htrows, hverdicts⟩ :=
    verdicts_filled [deviceClose .rateLimit 9998, holderUpgrade]
  obtain ⟨hfresh, -, -, -⟩ := get?_filled htrows
  have hsize : t.size = CoolDownLimits.standard.maxEntries := by
    rw [Table.size, htrows, List.length_cons, List.length_cons, List.length_map, List.length_range]
    rfl
  have hswept := strike_evicts ht hfresh htrows hsize false
  have hnone : ((t.enter .standard (deviceKey 9998) false 0).sweep .standard 0).get?
      (holderKey gateSha256 holderTicket) = none := by
    have hkeys := t.nodup
    rw [htrows, List.map_cons, List.nodup_cons] at hkeys
    refine Table.get?_eq_none.2 ?_
    rw [hswept, List.map_append, List.mem_append, not_or]
    refine ⟨hkeys.1, fun hmem => ?_⟩
    rw [List.map_singleton, List.mem_singleton] at hmem
    exact deviceKey_ne 9998 hmem.symm
  have hother : (GateEvent.policyClose (deviceSocket 9998) .rateLimit).own holderTicket = false :=
    rfl
  rw [fullHistory, hverdicts, deviceClose, verdicts_close (device_strikes 9998).1, hother,
    verdicts_holderUpgrade, view, hnone]
  rfl

theorem isDigest_deviceDigest (n : ℕ) : isDigest (deviceDigest n) = true := by
  have hall : (deviceDigest n).all isLowerHex = true := by
    refine List.all_eq_true.2 fun u hu => ?_
    obtain ⟨i, -, rfl⟩ := List.mem_map.1 hu
    split_ifs <;> decide
  rw [isDigest, ofClass, hall, deviceDigest, List.length_map, List.length_range]
  rfl

/-- A ticket clears the admission-only cool-down of a device, and waits for nothing itself. -/
theorem step_otherUpgrade {r : CoolDownRegistry} (n : ℕ)
    (hdevice : r.get? (deviceKey n) = some (firstEntry true))
    (hticket : r.get? (holderKey gateSha256 otherTicket) = none) :
    ((GateEvent.upgrade (ticketUpgrade otherTicket (some (deviceDigest n)))).step gateSha256
      .standard r 0).2 = r.erase (deviceKey n) := by
  have hreach : GateEvent.reaches (ticketUpgrade otherTicket (some (deviceDigest n))) = true := by
    simp only [GateEvent.reaches, ticketUpgrade, Option.any_some, isDigest_deviceDigest]
    rfl
  have hlegacy : GateEvent.legacyChecked .standard
      (ticketUpgrade otherTicket (some (deviceDigest n))) r 0 = r.erase (deviceKey n) := by
    change (r.remaining .standard (some (deviceKey n)) true 0).2 = _
    have hkey : (some (deviceKey n)).filter (· ≠ []) = some (deviceKey n) := rfl
    unfold remaining
    rw [hkey]
    dsimp only
    rw [hdevice]
    rfl
  have hnone : (r.erase (deviceKey n)).get? (holderKey gateSha256 otherTicket) = none := by
    rw [Table.get?_erase, hticket, ite_self]
  rw [GateEvent.step_upgrade, if_pos hreach, hlegacy]
  change (remaining (r.erase (deviceKey n)) .standard
    (some (holderKey gateSha256 otherTicket)) true 0).2 = _
  have hkey : (some (holderKey gateSha256 otherTicket)).filter (· ≠ []) =
      some (holderKey gateSha256 otherTicket) := rfl
  unfold remaining
  rw [hkey]
  dsimp only
  rw [hnone]

theorem otherUpgrade_not_own (n : ℕ) :
    (GateEvent.upgrade (ticketUpgrade otherTicket (some (deviceDigest n)))).own holderTicket =
      false := by
  refine Bool.eq_false_iff.2 fun hown => ?_
  obtain ⟨T, hT, hsame⟩ := GateEvent.own_iff.1 hown
  cases hT
  have haccount := Json.str.inj (ManagedTicket.Holder.mk.inj hsame).2.1
  exact absurd haccount (by decide)

/-- Room for the overflow keeps the entry of the holder, who is refused. -/
theorem verdicts_roomMade :
    verdicts gateSha256 .standard holderTicket Table.empty roomMadeHistory = [false, true] := by
  obtain ⟨t, ht, htrows, hverdicts⟩ := verdicts_filled
    [(0, .upgrade (ticketUpgrade otherTicket (some (deviceDigest 10000)))),
      deviceClose .rateLimit 9998, holderUpgrade]
  obtain ⟨hfresh, hdevice, hticket, hholder⟩ := get?_filled htrows
  have hother := otherUpgrade_not_own 10000
  have hdeviceClose : (GateEvent.policyClose (deviceSocket 9998) .rateLimit).own holderTicket =
      false := rfl
  have hlive : Live .standard 0 (t.erase (deviceKey 10000)) := fun row hrow =>
    ht row (List.mem_filter.1 hrow).1
  have hfresh' : (t.erase (deviceKey 10000)).get? (deviceKey 9998) = none := by
    rw [Table.get?_erase, hfresh, ite_self]
  have hholder' : (t.erase (deviceKey 10000)).get? (holderKey gateSha256 holderTicket) =
      some (firstEntry false) := by
    rw [Table.get?_erase, if_neg (deviceKey_ne 10000).symm, hholder]
  have hsize : (t.erase (deviceKey 10000)).size < CoolDownLimits.standard.maxEntries := by
    have hlen : t.rows.length = 10000 := by
      rw [htrows, List.length_cons, List.length_cons, List.length_map, List.length_range]
    have hlt : (t.erase (deviceKey 10000)).rows.length < t.rows.length :=
      List.length_filter_lt_length_iff_exists.2
        ⟨_, Table.mem_rows.2 hdevice, by simp⟩
    rw [hlen] at hlt
    exact hlt
  rw [roomMadeHistory, hverdicts, verdicts]
  dsimp only
  rw [hother, step_otherUpgrade 10000 hdevice hticket, deviceClose,
    verdicts_close (device_strikes 9998).1, strike_fits hlive hfresh' hsize, hdeviceClose,
    verdicts_holderUpgrade, view_enter_of_ne (deviceKey_ne 9998).symm, view, hholder']
  rfl

/-- **Making room spends a cool-down**: with the limits of the relay, an upgrade of another between
two closes turns an upgrade of the holder that was not refused into one that is. -/
theorem room_made_spends :
    ¬∀ (sha256 : Str → Str) (T : ManagedTicket) (base others : GateHistory),
      (∀ text, sha256 text = sha256 T.identityText → text = T.identityText) →
      InOrder base → InOrder others → base.Sublist others →
      ownEvents T others = ownEvents T base →
      List.Forall₂ (fun v' v => v' = true → v = true)
        (verdicts sha256 .standard T Table.empty others)
        (verdicts sha256 .standard T Table.empty base) := by
  intro hclaim
  have hother := otherUpgrade_not_own 10000
  have htimes : ∀ x ∈ roomMadeHistory, x.1 = 0 := by
    intro x hx
    simp only [roomMadeHistory, List.mem_cons, List.mem_append, List.mem_map, List.not_mem_nil,
      or_false] at hx
    rcases hx with rfl | rfl | ⟨n, -, rfl⟩ | rfl | rfl | rfl <;> rfl
  have hsorted : InOrder roomMadeHistory := List.pairwise_of_forall_mem_list fun a ha b hb => by
    rw [htimes a ha, htimes b hb]
  have hsub : fullHistory.Sublist roomMadeHistory :=
    ((List.Sublist.append_left (List.sublist_cons_self _ _) _).cons_cons _).cons_cons _
  have hown : ownEvents holderTicket roomMadeHistory = ownEvents holderTicket fullHistory := by
    have hskip : ∀ before after : GateHistory, ownEvents holderTicket (before ++
        (0, .upgrade (ticketUpgrade otherTicket (some (deviceDigest 10000)))) :: after) =
          ownEvents holderTicket (before ++ after) := fun before after => by
      rw [ownEvents, ownEvents, List.filter_append, List.filter_append,
        List.filter_cons_of_neg (by rw [hother]; decide)]
    exact hskip (holderClose :: deviceClose .admissionRequired 10000 ::
      (List.range 9998).map (deviceClose .rateLimit)) _
  have hle := hclaim gateSha256 holderTicket fullHistory roomMadeHistory gateSha256_free
    (hsorted.sublist hsub) hsorted hsub hown
  rw [verdicts_full, verdicts_roomMade] at hle
  cases hle with
  | cons _ hle =>
    cases hle with
    | cons hle _ => exact absurd (hle rfl) (by decide)

/-- The holder comes back after its cool-down, whatever a device does meanwhile. -/
theorem nobody_spends_sample :
    List.Forall₂ (fun v' v => v' = true → v = true)
        (verdicts gateSha256 .standard holderTicket Table.empty
          [holderClose, deviceClose .oversize 1, (6000, .upgrade (ticketUpgrade holderTicket none))])
        (verdicts gateSha256 .standard holderTicket Table.empty
          [holderClose, (6000, .upgrade (ticketUpgrade holderTicket none))]) := by
  refine nobody_spends gateSha256 .standard holderTicket gateSha256_free _ _ ?_ ?_ rfl ?_
  · simp [InOrder, holderClose]
  · simp [InOrder, holderClose, deviceClose]
  · refine ⟨fun key admission h => ?_, fun key admission h => ?_, trivial⟩
    · cases h
      rfl
    · cases h

end Full

end GrantTap
