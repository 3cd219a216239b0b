/-
A **byte-packed bitmap**: a list of bytes read and written bit by bit, bit `i` living in
byte `i / 8` at offset `i % 8`.

Everything here is about the representation alone. A client states what its bits mean
and reads them back through `test_setBit`, `test_clearBit`, `test_clearBits` and
`test_clearAll`, without ever looking at a mask.
-/
import Mathlib.Data.Nat.Bitwise
import Mathlib.Tactic.IntervalCases

set_option autoImplicit false

namespace BitMap

open List Nat UInt8

def mask (off : ℕ) : UInt8 := (1 : UInt8) <<< UInt8.ofNat off

variable (bm : List UInt8)

def test (i : ℕ) : Bool := bm.getD (i / 8) 0 &&& mask (i % 8) != 0

def setBit (i : ℕ) : List UInt8 :=
  bm.set (i / 8) (bm.getD (i / 8) 0 ||| mask (i % 8))

def clearBit (i : ℕ) : List UInt8 :=
  bm.set (i / 8) (bm.getD (i / 8) 0 &&& ~~~mask (i % 8))

def clearBits (is : List ℕ) : List UInt8 := is.foldl clearBit bm

def clearAll : List UInt8 := bm.map fun _ => 0

/-! ## Lengths -/

@[simp] theorem length_setBit (i : ℕ) : (setBit bm i).length = bm.length := by
  simp only [setBit, length_set]

@[simp] theorem length_clearBit (i : ℕ) : (clearBit bm i).length = bm.length := by
  simp only [clearBit, length_set]

@[simp] theorem length_clearBits (is : List ℕ) : (clearBits bm is).length = bm.length := by
  induction is generalizing bm with
  | nil => rfl
  | cons i is ih => exact (ih (clearBit bm i)).trans (length_clearBit bm i)

@[simp] theorem length_clearAll : (clearAll bm).length = bm.length := by
  simp only [clearAll, length_map]

/-! ## Single bytes -/

theorem mask_toNat {off : ℕ} (hoff : off < 8) : (mask off).toNat = 2 ^ off := by
  interval_cases off <;> rfl

theorem and_mask_ne_zero (b : UInt8) {off : ℕ} (hoff : off < 8) :
    (b &&& mask off != 0) = b.toNat.testBit off := by
  have hzero : b &&& mask off = 0 ↔ b.toNat.testBit off = false := by
    rw [← UInt8.toNat_inj, UInt8.toNat_and, mask_toNat hoff, Nat.and_two_pow]
    cases b.toNat.testBit off <;> simp
  cases hbit : b.toNat.testBit off with
  | false => exact bne_eq_false_iff_eq.mpr (hzero.mpr hbit)
  | true =>
    refine bne_iff_ne.mpr fun h => ?_
    rw [hzero.mp h] at hbit
    exact Bool.false_ne_true hbit

theorem testBit_or_mask (b : UInt8) {off j : ℕ} (hoff : off < 8) :
    (b ||| mask off).toNat.testBit j = (b.toNat.testBit j || decide (off = j)) := by
  rw [UInt8.toNat_or, Nat.testBit_or, mask_toNat hoff, Nat.testBit_two_pow]

theorem testBit_and_not_mask (b : UInt8) {off j : ℕ} (hoff : off < 8) (hj : j < 8) :
    (b &&& ~~~mask off).toNat.testBit j = (b.toNat.testBit j && !decide (off = j)) := by
  have hnot : (~~~mask off).toNat = 2 ^ 8 - (2 ^ off + 1) := by
    rw [UInt8.toNat_not, mask_toNat hoff, Nat.sub_sub, Nat.add_comm 1]
    rfl
  have hpow : 2 ^ off < 2 ^ 8 := Nat.pow_lt_pow_right (by decide) hoff
  rw [UInt8.toNat_and, Nat.testBit_and, hnot, Nat.testBit_two_pow_sub_succ hpow,
    testBit_two_pow]
  simp [hj]

/-! ## Reading a bit back after a write -/

theorem test_eq (i : ℕ) : test bm i = (bm.getD (i / 8) 0).toNat.testBit (i % 8) :=
  and_mask_ne_zero _ (mod_lt i (by decide))

theorem getD_set {k : ℕ} (hk : k < bm.length) (v : UInt8) (j : ℕ) :
    (bm.set k v).getD j 0 = if k = j then v else bm.getD j 0 := by
  by_cases hkj : k = j
  · subst hkj
    rw [if_pos rfl, getD_eq_getElem?_getD, getElem?_set_self hk, Option.getD_some]
  · rw [if_neg hkj, getD_eq_getElem?_getD, getElem?_set_ne hkj, ← getD_eq_getElem?_getD]

theorem test_setBit {i : ℕ} (hi : i / 8 < bm.length) (j : ℕ) :
    test (setBit bm i) j = (test bm j || decide (i = j)) := by
  rw [test_eq, setBit, getD_set bm hi]
  split
  · rename_i hbyte
    -- Same byte: the indices agree exactly when the offsets do.
    have hoff : i % 8 = j % 8 ↔ i = j := by omega
    rw [testBit_or_mask _ (mod_lt i (by decide)), test_eq, hbyte, decide_eq_decide.mpr hoff]
  · rename_i hbyte
    have hne : i ≠ j := fun h => hbyte (congrArg (· / 8) h)
    rw [test_eq, decide_eq_false hne, Bool.or_false]

theorem test_clearBit {i : ℕ} (hi : i / 8 < bm.length) (j : ℕ) :
    test (clearBit bm i) j = (test bm j && !decide (i = j)) := by
  rw [test_eq, clearBit, getD_set bm hi]
  split
  · rename_i hbyte
    have hoff : i % 8 = j % 8 ↔ i = j := by omega
    rw [testBit_and_not_mask _ (mod_lt i (by decide)) (mod_lt j (by decide)), test_eq,
      hbyte, decide_eq_decide.mpr hoff]
  · rename_i hbyte
    have hne : i ≠ j := fun h => hbyte (congrArg (· / 8) h)
    rw [test_eq, decide_eq_false hne, Bool.not_false, Bool.and_true]

theorem test_clearBits (is : List ℕ) (his : ∀ i ∈ is, i / 8 < bm.length)
    (j : ℕ) : test (clearBits bm is) j = (test bm j && !decide (j ∈ is)) := by
  induction is generalizing bm with
  | nil => simp [clearBits]
  | cons i is ih =>
    have hi : i / 8 < bm.length := his i mem_cons_self
    have hrest : ∀ k ∈ is, k / 8 < (clearBit bm i).length := fun k hk => by
      rw [length_clearBit]
      exact his k (mem_cons_of_mem _ hk)
    have hstep : clearBits bm (i :: is) = clearBits (clearBit bm i) is := rfl
    rw [hstep, ih (clearBit bm i) hrest, test_clearBit bm hi]
    by_cases hij : i = j
    · simp [hij]
    · simp [hij, Ne.symm hij]

theorem test_clearAll (j : ℕ) : test (clearAll bm) j = false := by
  have hbyte : (clearAll bm).getD (j / 8) 0 = 0 := by
    rw [clearAll, getD_eq_getElem?_getD, getElem?_map]
    cases bm[j / 8]? <;> rfl
  rw [test_eq, hbyte]
  exact zero_testBit _

theorem test_replicate_zero (n j : ℕ) : test (replicate n 0) j = false := by
  have hmap : replicate n (0 : UInt8) = clearAll (replicate n 0) := by
    rw [clearAll, map_replicate]
  rw [hmap, test_clearAll]

end BitMap
