/-
**Texts and hashes**, as the whole crate uses them.

A string is the list of its UTF-8 bytes. SHA-256 and HMAC come from outside the crate and are
parameters; `sampleHashes` is SHA-256 itself, and runs on fixed inputs are evaluated with it.
-/
import Saacp.Sha256

set_option autoImplicit false

open ByteCodec

namespace Saacp

abbrev Text := List UInt8

instance lawful_text : LawfulBEq Text := inferInstance

instance shards_ne_zero : NeZero 16 := ⟨by decide⟩

def display (t : Text) : String := (String.fromUTF8? ⟨t.toArray⟩).getD ""

structure Hashes where
  sha256 (msg : List UInt8) : List UInt8
  hmac_sha256 (key msg : List UInt8) : List UInt8

def sampleHashes : Hashes := ⟨Sha256.sha256, Sha256.hmacSha256⟩

/-- Hashes without collisions, for runs that do not depend on the digests. -/
def sampleIdeal : Hashes := ⟨fun msg => 0 :: msg, fun key msg => key ++ msg⟩

theorem sampleIdeal_injective : Function.Injective sampleIdeal.sha256 := by
  intro m m' h
  exact (List.cons.inj h).2

/-- The order in which a hash map from byte strings happens to be walked. -/
structure MapOrder (V : Type) where
  walk : List (List UInt8 × V) → List (List UInt8 × V)
  perm : ∀ entries, (walk entries).Perm entries

def MapOrder.stored {V : Type} : MapOrder V := ⟨id, fun _ => .refl _⟩

end Saacp
