import GrantTapRelay.Library.JsonText
import GrantTapRelay.Relay.CoolDown

/-!
# Managed admission tickets

`src/node/managed-admission.js`: the account authority signs a ticket for a room and a computer, or
for a phone. What `readManagedTicket` returns is a `ManagedTicket`, whose fields passed its checks.
The signature check and the decoding of the payload are parameters (`TicketAuthority`): what is
proved holds of every signature scheme.

The account and the computer are matched by a regular expression, which accepts an array of one
text too. Tickets with the same identity text still name the same accounts (`holder_eq`).
-/

namespace GrantTap

open Js

/-- The classes of the 36 units of a UUID. -/
def uuidClasses : List (UInt16 → Bool) :=
  let dash := fun u : UInt16 => u == '-'.toNat.toUInt16
  let variant := fun u : UInt16 => (lit "89abAB").contains u
  List.replicate 8 isHex ++ [dash] ++ (List.replicate 4 isHex ++ [dash] ++
    ([unitIn '1' '8'] ++ List.replicate 3 isHex ++ [dash] ++ ([variant] ++
      List.replicate 3 isHex ++ dash :: List.replicate 12 isHex)))

/-- Every unit lies in the class of its position. -/
def inClasses : List (UInt16 → Bool) → Str → Bool
  | [], [] => true
  | p :: classes, u :: s => p u && inClasses classes s
  | _, _ => false

/-- `UUID` -/
def isUuid (s : Str) : Bool := inClasses uuidClasses s

/-- `UUID.test(value)`, where a throw ends in `null`. -/
def testUuid (value : Json) : Bool :=
  match value.toText with
  | .ok s => isUuid s
  | .error _ => false

/-- `PUBLIC_KEY`, for a text that decoding and encoding again leaves as it is: its last unit but one
holds four bits. -/
def isPublicKey (s : Str) : Bool :=
  s.length = 44 && (s.take 43).all isBase64 && s[43]? = some '='.toNat.toUInt16 &&
    s[42]?.any (lit "AEIMQUYcgkosw048").contains

/-- The two kinds of tickets: version 1 without a role, and version 2 with the role `phone`. -/
inductive TicketKind
  | computer
  | phone
  deriving DecidableEq

/-- `ticket.role ?? 'machine'` -/
def TicketKind.role : TicketKind → Role
  | .computer => .machine
  | .phone => .phone

/-- A verified ticket. -/
structure ManagedTicket where
  kind : TicketKind
  accountId : Json
  computerId : Json
  publicKey : Str
  room : Str
  expiresAt : ℤ
  account_uuid : testUuid accountId = true
  computer_uuid : testUuid computerId = true
  key_valid : isPublicKey publicKey = true

/-- What the relay is given to verify a ticket with. -/
structure TicketAuthority where
  /-- The second part is the HMAC of the first part under the relay's key. -/
  signs : Str → Str → Bool
  /-- The JSON value that the first part encodes. -/
  payload : Str → Option Json

/-- `token.split(".")` in two parts. -/
def ticketParts (token : Str) : Option (Str × Str) :=
  let dot := '.'.toNat.toUInt16
  let parts := (token.takeWhile (· ≠ dot), (token.dropWhile (· ≠ dot)).drop 1)
  if dot ∈ token ∧ dot ∉ parts.2 then some parts else none

/-- `supported` -/
def ticketKind (value : Json) : Option TicketKind :=
  let version := value.get (lit "version")
  let role := value.get (lit "role")
  if version.same (some (.int 1)) ∧ role.same none then some .computer
  else if version.same (some (.int 2)) ∧ role.is (lit "phone") then some .phone
  else none

/-- The checks on a signed value. -/
def ticketOf (value : Json) (room : Str) (now : ℤ) : Option ManagedTicket := do
  let source := value.get (lit "source")
  let kind ← ticketKind value
  guard (source.same none || source.is (lit "subscription") || source.is (lit "beta"))
  let accountId ← value.get (lit "accountId")
  let computerId ← value.get (lit "computerId")
  let publicKey ← (value.get (lit "publicKey")).str?
  guard ((value.get (lit "room")).is room)
  let expiresAt ← (value.get (lit "expiresAt")).int?
  guard (now < expiresAt ∧ expiresAt ≤ now + 360000)
  if h : testUuid accountId = true ∧ testUuid computerId = true ∧ isPublicKey publicKey = true then
    some ⟨kind, accountId, computerId, publicKey, room, expiresAt, h.1, h.2.1, h.2.2⟩
  else none

def readManagedTicket (authority : TicketAuthority) (token : Value) (room : Str) (now : ℤ) :
    Option ManagedTicket := do
  let token ← token.str?
  guard (token.length ≤ 2048)
  let (payload, signature) ← ticketParts token
  let word := fun u : UInt16 => isWord u
  guard (payload ≠ [] ∧ payload.all word ∧ ofClass word 43 43 signature)
  guard (authority.signs payload signature)
  let value ← authority.payload payload
  ticketOf value room now

/-! ## Identities -/

namespace ManagedTicket

/-- What a renewal may not change. -/
structure Holder where
  kind : TicketKind
  accountId : Json
  computerId : Json
  publicKey : Str

def holder (t : ManagedTicket) : Holder := ⟨t.kind, t.accountId, t.computerId, t.publicKey⟩

/-- `JSON.stringify([accountId, computerId, role ?? 'machine', publicKey])` -/
def identityText (t : ManagedTicket) : Str :=
  Json.stringify (.arr [t.accountId, t.computerId, .str t.kind.role.text, .str t.publicKey])

end ManagedTicket

/-- The cool-down identity of a ticket holder; `sha256` gives hexadecimal digests. -/
def managedCooldownIdentity (sha256 : Str → Str) (ticket : Option ManagedTicket) : Option Str :=
  ticket.map fun t => lit "managed:" ++ sha256 t.identityText

/-! ## What an identity text determines -/

theorem inClasses_append : ∀ {p q : List (UInt16 → Bool)} {s : Str},
    inClasses (p ++ q) s = true →
      ∃ a b, s = a ++ b ∧ inClasses p a = true ∧ inClasses q b = true
  | [], _, s, h => ⟨[], s, rfl, rfl, h⟩
  | _ :: _, _, [], h => nomatch h
  | p :: ps, q, u :: s, h => by
    rw [List.cons_append, inClasses, Bool.and_eq_true] at h
    obtain ⟨a, b, rfl, ha, hb⟩ := inClasses_append h.2
    exact ⟨u :: a, b, rfl, by rw [inClasses, h.1, ha]; rfl, hb⟩

theorem mem_of_inClasses : ∀ {classes : List (UInt16 → Bool)} {s : Str},
    inClasses classes s = true → ∀ u ∈ s, ∃ p ∈ classes, p u = true
  | [], [], _, u, hu => nomatch hu
  | [], _ :: _, h, _, _ => nomatch h
  | _ :: _, [], _, u, hu => nomatch hu
  | p :: classes, v :: s, h, u, hu => by
    rw [inClasses, Bool.and_eq_true] at h
    rcases List.mem_cons.1 hu with rfl | hu
    · exact ⟨p, List.mem_cons_self, h.1⟩
    · obtain ⟨q, hq, hqu⟩ := mem_of_inClasses h.2 u hu
      exact ⟨q, List.mem_cons_of_mem _ hq, hqu⟩

/-- The units of a UUID are plain, and no commas. -/
def uuidUnit (u : UInt16) : Bool := plain u && u ≠ 44

theorem uuidUnit_of_unitIn {lo hi : Char} {u : UInt16}
    (h : unitIn lo hi u = true) (hlo : 44 < lo.toNat.toUInt16) (hhi : hi.toNat.toUInt16 < 127)
    (hslash : hi.toNat.toUInt16 < 92 ∨ 92 < lo.toNat.toUInt16) : uuidUnit u = true := by
  simp only [unitIn, Bool.and_eq_true, decide_eq_true_eq, UInt16.le_iff_toNat_le] at h
  rw [UInt16.lt_iff_toNat_lt] at hlo hhi
  rw [UInt16.lt_iff_toNat_lt, UInt16.lt_iff_toNat_lt] at hslash
  simp only [uuidUnit, plain, Bool.and_eq_true, decide_eq_true_eq, ne_eq, ← UInt16.toNat_inj,
    UInt16.le_iff_toNat_le, UInt16.lt_iff_toNat_lt]
  have h32 : (32 : UInt16).toNat = 32 := rfl
  have h34 : (34 : UInt16).toNat = 34 := rfl
  have h44 : (44 : UInt16).toNat = 44 := rfl
  have h92 : (92 : UInt16).toNat = 92 := rfl
  have h127 : (127 : UInt16).toNat = 127 := rfl
  omega

theorem uuidUnit_of_isHex {u : UInt16} (h : isHex u = true) : uuidUnit u = true := by
  simp only [isHex, isLowerHex, isDigit, Bool.or_eq_true] at h
  rcases h with (h | h) | h
  · exact uuidUnit_of_unitIn h (by decide) (by decide) (by decide)
  · exact uuidUnit_of_unitIn h (by decide) (by decide) (by decide)
  · exact uuidUnit_of_unitIn h (by decide) (by decide) (by decide)

theorem uuid_units {s : Str} (h : isUuid s = true) {u : UInt16} (hu : u ∈ s) :
    uuidUnit u = true := by
  have hlist : ∀ l : Str, l.all uuidUnit = true → l.contains u = true →
      uuidUnit u = true := fun l hl hin => List.all_eq_true.1 hl u (List.contains_iff_mem.1 hin)
  have hdash : (u == '-'.toNat.toUInt16) = true → uuidUnit u = true := fun he => by
    rw [beq_iff_eq.1 he]
    decide
  obtain ⟨p, hp, hpu⟩ := mem_of_inClasses h u hu
  simp only [uuidClasses, List.mem_append, List.mem_replicate, List.mem_cons, List.not_mem_nil,
    or_false] at hp
  rcases hp with (⟨-, rfl⟩ | rfl) | (⟨-, rfl⟩ | rfl) | ((rfl | ⟨-, rfl⟩) | rfl) |
    (rfl | ⟨-, rfl⟩) | rfl | ⟨-, rfl⟩
  all_goals first
    | exact uuidUnit_of_isHex hpu
    | exact hdash hpu
    | exact uuidUnit_of_unitIn hpu (by decide) (by decide) (by decide)
    | exact hlist _ (by decide) hpu

theorem count_dash_pos {classes : List (UInt16 → Bool)} {s : Str}
    (h : inClasses (classes ++ [fun u => u == '-'.toNat.toUInt16]) s = true) : 0 < s.count 45 := by
  obtain ⟨a, b, rfl, -, hb⟩ := inClasses_append h
  rcases b with - | ⟨u, - | ⟨v, b⟩⟩
  · cases hb
  · rw [inClasses, Bool.and_eq_true, beq_iff_eq] at hb
    rw [hb.1, List.count_append]
    exact Nat.add_pos_right _ (by decide)
  · simp [inClasses] at hb

/-- A UUID has more minus signs than a number's text. -/
theorem count_dash_uuid {s : Str} (h : isUuid s = true) : 2 < s.count 45 := by
  obtain ⟨a, b, rfl, ha, hb⟩ := inClasses_append h
  obtain ⟨b, c, rfl, hb', hc⟩ := inClasses_append hb
  obtain ⟨c, d, rfl, hc', -⟩ := inClasses_append hc
  have ha := count_dash_pos ha
  have hb := count_dash_pos hb'
  have hc := count_dash_pos hc'
  simp only [List.count_append]
  omega

/-- No other value has the text of a UUID. -/
theorem stringLanguage_isUuid : Json.StringLanguage isUuid where
  empty := rfl
  null := by decide
  bool := by decide
  number x := by
    by_contra h
    rw [Bool.not_eq_false] at h
    exact absurd (Number.count_dash_text_le x) (not_le.2 (count_dash_uuid h))
  object := by decide
  comma s hs h := absurd (uuid_units hs h) (by decide)

theorem nest_of_testUuid {j : Json} (h : testUuid j = true) :
    ∃ n s, isUuid s = true ∧ j = Json.nest n s := by
  unfold testUuid at h
  split at h
  · rename_i s hs
    obtain ⟨n, rfl⟩ := Json.nest_of_toText stringLanguage_isUuid h hs
    exact ⟨n, s, h, rfl⟩
  · cases h

theorem comma_notMem_nest {s : Str} (hs : isUuid s = true) (n : ℕ) :
    (44 : UInt16) ∉ Json.stringify (Json.nest n s) := by
  rw [Json.stringify_nest fun u hu => (Bool.and_eq_true _ _ ▸ uuid_units hs hu).1]
  simp only [List.mem_append, List.mem_replicate, List.mem_cons, List.not_mem_nil, or_false,
    not_or, not_and]
  refine ⟨⟨fun _ => by decide, ⟨by decide, fun h => ?_⟩, by decide⟩, fun _ => by decide⟩
  exact absurd (uuid_units hs h) (by decide)

theorem plain_of_isBase64 {u : UInt16} (h : isBase64 u = true) : plain u = true := by
  have hunit : ∀ v : UInt16, uuidUnit v = true → plain v = true := fun v hv =>
    (Bool.and_eq_true _ _ ▸ hv).1
  simp only [isBase64, isLetter, isDigit, Bool.or_eq_true] at h
  rcases h with (((h | h) | h) | h) | h
  · exact hunit u (uuidUnit_of_unitIn h (by decide) (by decide) (by decide))
  · exact hunit u (uuidUnit_of_unitIn h (by decide) (by decide) (by decide))
  · exact hunit u (uuidUnit_of_unitIn h (by decide) (by decide) (by decide))
  · rw [beq_iff_eq.1 h]
    decide
  · rw [beq_iff_eq.1 h]
    decide

theorem plain_of_isPublicKey {s : Str} (h : isPublicKey s = true) {u : UInt16} (hu : u ∈ s) :
    plain u = true := by
  simp only [isPublicKey, Bool.and_eq_true, decide_eq_true_eq] at h
  obtain ⟨⟨⟨hlen, hbody⟩, hpad⟩, -⟩ := h
  have hsplit : s = s.take 43 ++ ['='.toNat.toUInt16] := by
    have hlt : 43 < s.length := by omega
    rw [List.getElem?_eq_getElem hlt, Option.some_inj] at hpad
    conv_lhs => rw [← List.take_append_drop 43 s, List.drop_eq_getElem_cons hlt, hpad,
      List.drop_eq_nil_of_le hlen.le]
  rw [hsplit, List.mem_append, List.mem_singleton] at hu
  rcases hu with hu | rfl
  · exact plain_of_isBase64 (List.all_eq_true.1 hbody u hu)
  · decide

theorem stringify_uuid_injective {j k : Json} (hj : testUuid j = true) (hk : testUuid k = true)
    (h : Json.stringify j = Json.stringify k) : j = k := by
  obtain ⟨n, s, hs, rfl⟩ := nest_of_testUuid hj
  obtain ⟨m, t, ht, rfl⟩ := nest_of_testUuid hk
  exact Json.stringify_nest_injective (fun u hu => (Bool.and_eq_true _ _ ▸ uuid_units hs hu).1)
    (fun u hu => (Bool.and_eq_true _ _ ▸ uuid_units ht hu).1) h

theorem comma_notMem_uuid {j : Json} (h : testUuid j = true) :
    (44 : UInt16) ∉ Json.stringify j := by
  obtain ⟨n, s, hs, rfl⟩ := nest_of_testUuid h
  exact comma_notMem_nest hs n

namespace ManagedTicket

/-- **An identity text names one holder.** -/
theorem holder_eq {t t' : ManagedTicket} (h : t.identityText = t'.identityText) :
    t.holder = t'.holder := by
  have hcomma : lit "," = [44] := by decide
  have hrole : ∀ kind : TicketKind, (44 : UInt16) ∉ Json.quote kind.role.text :=
    fun kind => by cases kind <;> decide
  have hroles : ∀ kind kind' : TicketKind, Json.quote kind.role.text = Json.quote kind'.role.text →
      kind = kind' := fun kind kind' => by cases kind <;> cases kind' <;> decide
  simp only [identityText, Json.stringify, Json.stringifyItems, hcomma, List.append_assoc,
    List.append_cancel_left_eq, List.cons_append, List.nil_append] at h
  obtain ⟨haccount, h⟩ := append_cons_injective (comma_notMem_uuid t.account_uuid)
    (comma_notMem_uuid t'.account_uuid) h
  obtain ⟨hcomputer, h⟩ := append_cons_injective (comma_notMem_uuid t.computer_uuid)
    (comma_notMem_uuid t'.computer_uuid) h
  obtain ⟨hkind, h⟩ := append_cons_injective (hrole t.kind) (hrole t'.kind) h
  have hkey : Json.stringify (.nest 0 t.publicKey) = Json.stringify (.nest 0 t'.publicKey) :=
    List.append_cancel_right h
  have hkey := Json.stringify_nest_injective (fun u => plain_of_isPublicKey t.key_valid)
    (fun u => plain_of_isPublicKey t'.key_valid) hkey
  rw [holder, holder, hroles _ _ hkind,
    stringify_uuid_injective t.account_uuid t'.account_uuid haccount,
    stringify_uuid_injective t.computer_uuid t'.computer_uuid hcomputer, Json.str.inj hkey]

end ManagedTicket

end GrantTap
