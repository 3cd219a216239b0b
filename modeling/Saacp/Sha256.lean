/-
**SHA-256 and HMAC-SHA256** as executable functions.

A chaining value is one 256-bit number and a block one 512-bit number, with word `0` the
least significant one; the operations are the kernel's own on natural numbers and `force`
evaluates an intermediate value before it is used several times. This is what lets a run on
a fixed input be evaluated in a proof.
-/
import Saacp.ByteCodec

set_option autoImplicit false

open ByteCodec

namespace Sha256

def force {α : Type} (n : ℕ) (k : ℕ → α) : α := Nat.rec (k 0) (fun m _ => k (Nat.succ m)) n

theorem force_eq {α : Type} (n : ℕ) (k : ℕ → α) : force n k = k n := by
  cases n <;> rfl

def word (s i : ℕ) : ℕ := Nat.mod (Nat.shiftRight s (Nat.mul 32 i)) 0x100000000

def add32 (x y : ℕ) : ℕ := Nat.mod (Nat.add x y) 0x100000000

def xor3 (x y z : ℕ) : ℕ := Nat.xor (Nat.xor x y) z

def rotr (x n : ℕ) : ℕ :=
  Nat.lor (Nat.shiftRight x n) (Nat.mod (Nat.shiftLeft x (Nat.sub 32 n)) 0x100000000)

def choose (e f g : ℕ) : ℕ := Nat.xor (Nat.land e f) (Nat.land (Nat.sub 0xffffffff e) g)

def majority (a b c : ℕ) : ℕ := xor3 (Nat.land a b) (Nat.land a c) (Nat.land b c)

def roundConstants : List ℕ :=
  [0x428a2f98, 0x71374491, 0xb5c0fbcf, 0xe9b5dba5, 0x3956c25b, 0x59f111f1, 0x923f82a4, 0xab1c5ed5,
   0xd807aa98, 0x12835b01, 0x243185be, 0x550c7dc3, 0x72be5d74, 0x80deb1fe, 0x9bdc06a7, 0xc19bf174,
   0xe49b69c1, 0xefbe4786, 0x0fc19dc6, 0x240ca1cc, 0x2de92c6f, 0x4a7484aa, 0x5cb0a9dc, 0x76f988da,
   0x983e5152, 0xa831c66d, 0xb00327c8, 0xbf597fc7, 0xc6e00bf3, 0xd5a79147, 0x06ca6351, 0x14292967,
   0x27b70a85, 0x2e1b2138, 0x4d2c6dfc, 0x53380d13, 0x650a7354, 0x766a0abb, 0x81c2c92e, 0x92722c85,
   0xa2bfe8a1, 0xa81a664b, 0xc24b8b70, 0xc76c51a3, 0xd192e819, 0xd6990624, 0xf40e3585, 0x106aa070,
   0x19a4c116, 0x1e376c08, 0x2748774c, 0x34b0bcb5, 0x391c0cb3, 0x4ed8aa4a, 0x5b9cca4f, 0x682e6ff3,
   0x748f82ee, 0x78a5636f, 0x84c87814, 0x8cc70208, 0x90befffa, 0xa4506ceb, 0xbef9a3f7, 0xc67178f2]

def initial : ℕ := 0x6a09e667bb67ae853c6ef372a54ff53a510e527f9b05688c1f83d9ab5be0cd19

def scheduleWord (win : ℕ) : ℕ :=
  add32
    (add32 (word win 15)
      (xor3 (rotr (word win 14) 7) (rotr (word win 14) 18) (Nat.shiftRight (word win 14) 3)))
    (add32 (word win 6)
      (xor3 (rotr (word win 1) 17) (rotr (word win 1) 19) (Nat.shiftRight (word win 1) 10)))

def slide (win : ℕ) : ℕ :=
  Nat.add (Nat.mod (Nat.shiftLeft win 32) (Nat.pow 2 512)) (scheduleWord win)

def firstSum (s k w : ℕ) : ℕ :=
  add32 (add32 (word s 0) (xor3 (rotr (word s 3) 6) (rotr (word s 3) 11) (rotr (word s 3) 25)))
    (add32 (choose (word s 3) (word s 2) (word s 1)) (add32 k w))

def secondSum (s : ℕ) : ℕ :=
  add32 (xor3 (rotr (word s 7) 2) (rotr (word s 7) 13) (rotr (word s 7) 22))
    (majority (word s 7) (word s 6) (word s 5))

/-- Every word moves down by one; the first sum is added to `d`, both become the new `a`. -/
def roundStep (s t1 : ℕ) : ℕ :=
  Nat.add (Nat.shiftLeft (add32 t1 (secondSum s)) 224)
    (Nat.add (Nat.sub (Nat.shiftRight s 32) (Nat.shiftLeft (word s 4) 96))
      (Nat.shiftLeft (add32 (word s 4) t1) 96))

def rounds : List ℕ → ℕ → ℕ → ℕ
  | [], _, s => s
  | k :: ks, win, s =>
    force (slide win) fun win' =>
      force (firstSum s k (word win 15)) fun t1 =>
        force (roundStep s t1) fun s' => rounds ks win' s'

def addWords (s t : ℕ) : ℕ → ℕ
  | 0 => 0
  | n + 1 => Nat.add (Nat.shiftLeft (add32 (word s n) (word t n)) (Nat.mul 32 n)) (addWords s t n)

def compress (s block : ℕ) : ℕ :=
  force (rounds roundConstants block s) fun t => force (addWords s t 8) fun s' => s'

def hashBlocks (msg : ℕ) : ℕ → ℕ → ℕ
  | 0, s => s
  | n + 1, s =>
    force (Nat.mod (Nat.shiftRight msg (Nat.mul 512 n)) (Nat.pow 2 512)) fun block =>
      force (compress s block) fun s' => hashBlocks msg n s'

def padded (msg : List UInt8) (blocks : ℕ) : ℕ :=
  (ofBE msg * 256 + 0x80) * 256 ^ (64 * blocks - msg.length - 1) + 8 * msg.length

def sha256 (msg : List UInt8) : List UInt8 :=
  let blocks := (msg.length + 8) / 64 + 1
  force (padded msg blocks) fun m => toBE 32 (hashBlocks m blocks initial)

example : sha256 (ascii "abc") =
    toBE 32 0xba7816bf8f01cfea414140de5dae2223b00361a396177a9cb410ff61f20015ad := by
  decide +kernel

@[simp] theorem length_sha256 (msg : List UInt8) : (sha256 msg).length = 32 := by
  unfold sha256
  rw [force_eq, length_toBE]

def hmacKey (key : List UInt8) : List UInt8 :=
  let short := if key.length ≤ 64 then key else sha256 key
  short ++ List.replicate (64 - short.length) 0

def hmacSha256 (key msg : List UInt8) : List UInt8 :=
  sha256 ((hmacKey key).map (· ^^^ 0x5c) ++ sha256 ((hmacKey key).map (· ^^^ 0x36) ++ msg))

example : hmacSha256 (ascii "Jefe") (ascii "what do ya want for nothing?") =
    toBE 32 0x5bdcc146bf60754e6a042426089575c75a003f089d2739839dec58b964ec3843 := by
  decide +kernel

end Sha256
