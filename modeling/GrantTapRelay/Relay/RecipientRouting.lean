import GrantTapRelay.Library.JsValue

/-!
# Recipient routing

`src/relay/recipientRouting.js`: an opaque public-key digest selects ciphertext. A frame that
names a recipient reaches only sockets with that digest and sockets without one. `JSON.parse` is
the parameter `parse`, so that what is proved holds of every parser.
-/

namespace GrantTap

open Js

/-- A 64-digit lower-case hexadecimal text. -/
def isDigest (s : Str) : Bool := ofClass isLowerHex 64 64 s

def validRecipientKeyId (value : Value) : Bool :=
  match value.str? with
  | some s => isDigest s
  | none => false

/-- `recipientKeyId` is the digest of a socket; an envelope is any parsed value. -/
def matchesRecipient (envelope : Json) (recipientKeyId : Option Str) : Bool :=
  match recipientKeyId with
  | none => true
  | some key =>
    key = [] || !(envelope.get (lit "recipientKeyId")).truthy ||
      (envelope.get (lit "recipientKeyId")).is key

def matchesQueuedRecipient (parse : Str → Option Json) (raw : Str) (recipientKeyId : Option Str) :
    Bool :=
  match recipientKeyId with
  | none => true
  | some key =>
    key = [] ||
      match parse raw with
      | some envelope => matchesRecipient envelope (some key)
      | none => false

/-- An envelope and a socket that both name a recipient agree on it. -/
theorem matchesRecipient_keyed {envelope : Json} {key : Str} (hkey : key ≠ [])
    (h : matchesRecipient envelope (some key) = true)
    (ht : (envelope.get (lit "recipientKeyId")).truthy = true) :
    envelope.get (lit "recipientKeyId") = some (.str key) := by
  simpa [matchesRecipient, hkey, ht, Value.is_iff] using h

end GrantTap
