/-
**Byte strings**: fixed-width big-endian numbers, fields written into and read out of a
buffer, exclusive or, and hexadecimal text.

A wire format is a buffer with fields copied into it at fixed offsets. `put` is the copy and
`slice` the read; `slice_putAll` says that fields listed in order without overlap all read
back as they were written.
-/
import Mathlib.Data.Nat.Notation
import Mathlib.Data.Vector.Defs
import Mathlib.Algebra.Order.Ring.Nat
import Mathlib.Tactic.Ring
import Mathlib.Tactic.IntervalCases

set_option autoImplicit false

namespace ByteCodec

open List hiding Vector

def ascii (s : String) : List UInt8 := s.toByteArray.data.toList

/-! ## Big-endian numbers -/

def ofBE (bs : List UInt8) : ℕ := bs.foldl (fun acc b => acc * 256 + b.toNat) 0

/-- The `w` bytes of `n`, most significant byte first; higher bytes of `n` are dropped. -/
def toBE : ℕ → ℕ → List UInt8
  | 0, _ => []
  | w + 1, n => toBE w (n / 256) ++ [UInt8.ofNat n]

@[simp] theorem length_toBE (w n : ℕ) : (toBE w n).length = w := by
  induction w generalizing n with
  | zero => rfl
  | succ w ih => rw [toBE, length_append, ih, length_singleton]

theorem ofBE_append_singleton (bs : List UInt8) (b : UInt8) :
    ofBE (bs ++ [b]) = ofBE bs * 256 + b.toNat := by
  unfold ofBE
  rw [foldl_append]
  rfl

theorem ofBE_toBE (w n : ℕ) : ofBE (toBE w n) = n % 256 ^ w := by
  induction w generalizing n with
  | zero => rw [pow_zero, Nat.mod_one]; rfl
  | succ w ih =>
    have hbyte : (UInt8.ofNat n).toNat = n % 256 := UInt8.toNat_ofNat'
    have hsplit : n % 256 ^ (w + 1) = n % 256 + 256 * (n / 256 % 256 ^ w) := by
      rw [pow_succ', Nat.mod_mul]
    rw [toBE, ofBE_append_singleton, ih, hbyte, hsplit]
    omega

variable {n start stop : ℕ} {bs src : List UInt8} {fields : List (ℕ × List UInt8)}

theorem ofBE_toBE_of_lt {w : ℕ} (hn : n < 256 ^ w) : ofBE (toBE w n) = n := by
  rw [ofBE_toBE, Nat.mod_eq_of_lt hn]

/-! ## Fields of a buffer -/

def slice (bs : List UInt8) (start stop : ℕ) : List UInt8 := (bs.take stop).drop start

/-- `buffer[start..start + src.len()].copy_from_slice(src)`. -/
def put (bs : List UInt8) (start : ℕ) (src : List UInt8) : List UInt8 :=
  bs.take start ++ src ++ bs.drop (start + src.length)

@[simp] theorem length_put
    (hfit : start + src.length ≤ bs.length) : (put bs start src).length = bs.length := by
  rw [put, length_append, length_append, length_take, length_drop]
  omega

theorem slice_put_self (hfit : start + src.length ≤ bs.length) (hstop : stop = start + src.length) :
    slice (put bs start src) start stop = src := by
  subst hstop
  have hhead : (bs.take start).length = start := by
    rw [length_take]
    omega
  unfold slice put
  rw [take_append_of_le_length (by rw [length_append, hhead]),
    take_of_length_le (by rw [length_append, hhead]),
    drop_append_of_le_length (by rw [hhead]), drop_of_length_le (by rw [hhead]),
    nil_append]

theorem slice_put_of_le {at_ : ℕ} (hfit : at_ + src.length ≤ bs.length) (hstop : stop ≤ at_) :
    slice (put bs at_ src) start stop = slice bs start stop := by
  have hhead : (bs.take at_).length = at_ := by
    rw [length_take]
    omega
  unfold slice put
  rw [append_assoc, take_append_of_le_length (by omega), take_take, Nat.min_eq_left hstop]

def putAll (bs : List UInt8) (fields : List (ℕ × List UInt8)) : List UInt8 :=
  fields.foldl (fun buf f => put buf f.1 f.2) bs

variable (hfit : ∀ f ∈ fields, f.1 + f.2.length ≤ bs.length)
include hfit

theorem length_putAll : (putAll bs fields).length = bs.length := by
  induction fields generalizing bs with
  | nil => rfl
  | cons f fields ih =>
    have hlen := length_put (hfit f mem_cons_self)
    refine (ih fun g hg => ?_).trans hlen
    rw [hlen]
    exact hfit g (mem_cons_of_mem _ hg)

theorem slice_putAll_of_le (hstop : ∀ f ∈ fields, stop ≤ f.1) :
    slice (putAll bs fields) start stop = slice bs start stop := by
  induction fields generalizing bs with
  | nil => rfl
  | cons f fields ih =>
    have hf := hfit f mem_cons_self
    have hlen := length_put hf
    refine (ih (fun g hg => ?_) fun g hg => hstop g (mem_cons_of_mem _ hg)).trans
      (slice_put_of_le hf (hstop f mem_cons_self))
    rw [hlen]
    exact hfit g (mem_cons_of_mem _ hg)

/-- **A layout reads back**: fields listed in order without overlap are found at their offsets. -/
theorem slice_putAll
    (hdisj : fields.Pairwise fun f g => f.1 + f.2.length ≤ g.1) {f : ℕ × List UInt8}
    (hf : f ∈ fields) : slice (putAll bs fields) f.1 (f.1 + f.2.length) = f.2 := by
  induction fields generalizing bs with
  | nil => exact absurd hf not_mem_nil
  | cons g fields ih =>
    obtain ⟨hafter, hrest⟩ := pairwise_cons.mp hdisj
    have hg := hfit g mem_cons_self
    have hfit' : ∀ e ∈ fields, e.1 + e.2.length ≤ (put bs g.1 g.2).length := by
      intro e he
      rw [length_put hg]
      exact hfit e (mem_cons_of_mem _ he)
    rcases mem_cons.mp hf with rfl | hf
    · exact (slice_putAll_of_le hfit' hafter).trans (slice_put_self hg rfl)
    · exact ih hfit' hrest hf

omit hfit

theorem slice_append_left {xs ys : List UInt8} (hstop : stop ≤ xs.length) :
    slice (xs ++ ys) start stop = slice xs start stop := by
  unfold slice
  rw [take_append_of_le_length hstop]

theorem slice_zero_length (bs : List UInt8) : slice bs 0 bs.length = bs := by
  rw [slice, take_length, drop_zero]

theorem slice_append_middle (xs ys zs : List UInt8) (hstart : start = xs.length)
    (hstop : stop = xs.length + ys.length) : slice (xs ++ ys ++ zs) start stop = ys := by
  subst hstart hstop
  unfold slice
  rw [take_append_of_le_length (by rw [length_append]),
    take_of_length_le (by rw [length_append]), drop_left]

/-- The parts of a body after its length, with what follows it. -/
theorem framed_parts {w : ℕ} {body : List UInt8} (hbody : body.length < 256 ^ w)
    (tail rest : List UInt8) : let raw := toBE w body.length ++ body ++ tail ++ rest
    ofBE (raw.take w) = body.length ∧
      raw.length = w + body.length + tail.length + rest.length ∧
      slice raw w (w + body.length) = body ∧
      slice raw (w + body.length) (w + body.length + tail.length) = tail ∧
      raw.drop (w + body.length + tail.length) = rest := by
  have hlen := length_toBE w body.length
  refine ⟨?_, ?_, ?_, ?_, ?_⟩
  · rw [append_assoc, append_assoc, take_left' hlen, ofBE_toBE_of_lt hbody]
  · simp only [length_append, hlen]
  · rw [append_assoc]
    exact slice_append_middle _ _ _ hlen.symm (by rw [hlen])
  · exact slice_append_middle _ _ _ (by rw [length_append, hlen]) (by rw [length_append, hlen])
  · exact drop_left' (by simp only [length_append, hlen])

theorem getD_eq_slice (bs : List UInt8) (i : ℕ) : bs.getD i 0 = (slice bs i (i + 1)).headD 0 := by
  rw [getD_eq_getElem?_getD, headD_eq_head?_getD, List.head?_eq_getElem?, slice,
    List.getElem?_drop, List.getElem?_take, if_pos (by omega), Nat.add_zero]

/-! ## Fixed-length strings -/

def toArray (n : ℕ) (bs : List UInt8) : Vector UInt8 n :=
  Vector.ofFn fun i => bs.getD i 0

@[simp] theorem toArray_toList (v : Vector UInt8 n) : toArray n v.toList = v := by
  apply Vector.ext
  intro i hi
  have hlen : i < v.toList.length := by rw [Vector.length_toList]; exact hi
  rw [toArray, Vector.getElem_ofFn, getD_eq_getElem?_getD, List.getElem?_eq_getElem hlen,
    Vector.getElem_toList, Option.getD_some]

def xor {n : ℕ} (a b : Vector UInt8 n) : Vector UInt8 n := Vector.zipWith (· ^^^ ·) a b

theorem xor_cancel_right (a b : Vector UInt8 n) : xor (xor a b) b = a := by
  apply Vector.ext
  intro i hi
  rw [xor, xor, Vector.getElem_zipWith, Vector.getElem_zipWith, UInt8.xor_assoc, UInt8.xor_self,
    UInt8.xor_zero]

def containsSub (needle : List UInt8) : List UInt8 → Bool
  | [] => needle.isEmpty
  | b :: bs => needle.isPrefixOf (b :: bs) || containsSub needle bs

/-! ## Hexadecimal text -/

def hexDigit (n : ℕ) : UInt8 := if n < 10 then UInt8.ofNat (48 + n) else UInt8.ofNat (87 + n)

def hexText (bs : List UInt8) : List UInt8 :=
  bs.flatMap fun b => [hexDigit (b.toNat / 16), hexDigit (b.toNat % 16)]

def hexEncode (bs : List UInt8) : String :=
  String.ofList ((hexText bs).map fun b => Char.ofNat b.toNat)

def hexValue (ch : UInt8) : Option ℕ :=
  if 48 ≤ ch.toNat ∧ ch.toNat ≤ 57 then some (ch.toNat - 48)
  else if 97 ≤ ch.toNat ∧ ch.toNat ≤ 102 then some (ch.toNat - 87)
  else if 65 ≤ ch.toNat ∧ ch.toNat ≤ 70 then some (ch.toNat - 55)
  else none

def hexDecode : List UInt8 → Option (List UInt8)
  | [] => some []
  | [_] => none
  | hi :: lo :: rest =>
    match hexValue hi, hexValue lo, hexDecode rest with
    | some h, some l, some bs => some (UInt8.ofNat (16 * h + l) :: bs)
    | _, _, _ => none

theorem hexValue_hexDigit (hn : n < 16) : hexValue (hexDigit n) = some n := by
  interval_cases n <;> rfl

theorem hexText_cons (b : UInt8) (bs : List UInt8) :
    hexText (b :: bs) = hexDigit (b.toNat / 16) :: hexDigit (b.toNat % 16) :: hexText bs := rfl

@[simp] theorem hexDecode_hexText (bs : List UInt8) : hexDecode (hexText bs) = some bs := by
  induction bs with
  | nil => rfl
  | cons b bs ih =>
    have hb : b.toNat < 256 := b.toNat_lt
    have hbyte : 16 * (b.toNat / 16) + b.toNat % 16 = b.toNat := Nat.div_add_mod _ _
    rw [hexText_cons, hexDecode, hexValue_hexDigit (by omega), hexValue_hexDigit (by omega), ih]
    simp only [hbyte, UInt8.ofNat_toNat]

end ByteCodec
