import Imcodes.Artifacts.Freeze
import Imcodes.Collections.Json

/-!
# Scrubbing the identity of a transport

The configuration of a session may hold the identity of its session with the provider, at any
depth. A clone gets the configuration without it.

* `scrub_scrub` — what is scrubbed stays as it is.
* `hasIdentityKey_scrub` — it has no identity key at any depth.
-/

namespace Imcodes.Clones

open Artifacts (toLowerCase)

def CLONE_TRANSPORT_IDENTITY_KEY_NORMALIZED : List String :=
  ["bindexistingkey", "ccsessionid", "codexsessionid", "conversationid", "geminisessionid",
    "opencodesessionid", "providersessionid", "providerresumeid", "resumeid", "sessionid",
    "sessionkey", "threadid"]

/-- `key.replace(/[-_]/g, '').toLowerCase()` -/
def normalizedKey (key : String) : List Char :=
  toLowerCase (key.toList.filter fun c => c ≠ '-' && c ≠ '_')

/-- Returns true when `key` names a runtime-bound transport identity field. -/
def isCloneTransportIdentityKey (key : String) : Bool :=
  normalizedKey key ∈ CLONE_TRANSPORT_IDENTITY_KEY_NORMALIZED.map String.toList ||
    ["sessionid", "sessionkey", "resumeid", "threadid"].any fun suffix =>
      suffix.toList.isSuffixOf (normalizedKey key)

example : isCloneTransportIdentityKey "claude_Session-ID" = true := by decide +kernel

example : isCloneTransportIdentityKey "sessionIdHint" = false := by decide +kernel

mutual

/-- Recursively removes transport-identity keys. -/
def scrubCloneTransportIdentity : Json → Json
  | .array items => .array (scrubItems items)
  | .object fields => .object (scrubFields fields)
  | value => value

def scrubItems : List Json → List Json
  | [] => []
  | item :: items => scrubCloneTransportIdentity item :: scrubItems items

/-- Putting a field named `__proto__` into an object gives the object no field. -/
def scrubFields : List (String × Json) → List (String × Json)
  | [] => []
  | (key, value) :: fields =>
    if isCloneTransportIdentityKey key || key = "__proto__" then scrubFields fields
    else (key, scrubCloneTransportIdentity value) :: scrubFields fields

end

/-- Produces a clone-safe transport config, if the config is a record. -/
def cloneTransportConfigWithoutRuntimeIdentity (config : Option Json) : Option Fields :=
  match config with
  | some (.object fields) => some (scrubFields fields)
  | _ => none

mutual

/-- Some object in a value, at any depth, has an identity key. -/
def hasIdentityKey : Json → Bool
  | .array items => hasIdentityKeyItems items
  | .object fields => hasIdentityKeyFields fields
  | _ => false

def hasIdentityKeyItems : List Json → Bool
  | [] => false
  | item :: items => hasIdentityKey item || hasIdentityKeyItems items

def hasIdentityKeyFields : List (String × Json) → Bool
  | [] => false
  | (key, value) :: fields =>
    isCloneTransportIdentityKey key || hasIdentityKey value || hasIdentityKeyFields fields

end

mutual

/-- **What is scrubbed stays as it is.** -/
theorem scrub_scrub : (value : Json) →
    scrubCloneTransportIdentity (scrubCloneTransportIdentity value) =
      scrubCloneTransportIdentity value
  | .null => rfl
  | .bool _ => rfl
  | .number _ => rfl
  | .string _ => rfl
  | .array items => by
    simp only [scrubCloneTransportIdentity, scrubItems_scrubItems items]
  | .object fields => by
    simp only [scrubCloneTransportIdentity, scrubFields_scrubFields fields]

theorem scrubItems_scrubItems : (items : List Json) →
    scrubItems (scrubItems items) = scrubItems items
  | [] => rfl
  | item :: items => by
    simp only [scrubItems, scrub_scrub item, scrubItems_scrubItems items]

theorem scrubFields_scrubFields : (fields : List (String × Json)) →
    scrubFields (scrubFields fields) = scrubFields fields
  | [] => rfl
  | (key, value) :: fields => by
    rw [scrubFields]
    split
    · exact scrubFields_scrubFields fields
    · rename_i hkey
      rw [scrubFields, if_neg hkey, scrub_scrub value, scrubFields_scrubFields fields]

end

mutual

/-- **What is scrubbed has no identity key** at any depth. -/
theorem hasIdentityKey_scrub : (value : Json) →
    hasIdentityKey (scrubCloneTransportIdentity value) = false
  | .null => rfl
  | .bool _ => rfl
  | .number _ => rfl
  | .string _ => rfl
  | .array items => hasIdentityKey_scrubItems items
  | .object fields => hasIdentityKey_scrubFields fields

theorem hasIdentityKey_scrubItems : (items : List Json) →
    hasIdentityKeyItems (scrubItems items) = false
  | [] => rfl
  | item :: items => by
    rw [scrubItems, hasIdentityKeyItems, hasIdentityKey_scrub item, hasIdentityKey_scrubItems items]
    rfl

theorem hasIdentityKey_scrubFields : (fields : List (String × Json)) →
    hasIdentityKeyFields (scrubFields fields) = false
  | [] => rfl
  | (key, value) :: fields => by
    rw [scrubFields]
    split
    · exact hasIdentityKey_scrubFields fields
    · rename_i hkey
      have hallowed : isCloneTransportIdentityKey key = false :=
        Bool.eq_false_iff.2 fun hidentity => hkey (by rw [hidentity, Bool.true_or])
      rw [hasIdentityKeyFields, hallowed, hasIdentityKey_scrub value,
        hasIdentityKey_scrubFields fields]
      rfl

end

end Imcodes.Clones
