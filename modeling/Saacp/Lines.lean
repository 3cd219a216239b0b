/-
**Joined fields and files of lines.**

Fields joined by a separator can be told from the text as soon as one of two lists of the same
length is free of the separator (`eq_of_intercalate_eq`). A file that was written line by line is
read back by lines, if none has a line end in it (`lines_unlines`).
-/
import Mathlib.Algebra.GroupWithZero.Nat
import Mathlib.Data.List.Count

set_option autoImplicit false

namespace Lines

open List

/-! ## Fields -/

section Fields

variable {α : Type} {sep : α} {xs ys : List (List α)}

theorem mem_intercalate {a : α} (h : a ∈ [sep].intercalate xs) : a = sep ∨ ∃ x ∈ xs, a ∈ x := by
  induction xs with
  | nil => exact absurd h not_mem_nil
  | cons x xs ih =>
    cases xs with
    | nil => exact .inr ⟨x, mem_cons_self, by rwa [intercalate_singleton] at h⟩
    | cons y xs =>
      rw [intercalate_cons_cons, append_assoc, mem_append, mem_append, mem_singleton] at h
      rcases h with hx | hsep | hrest
      · exact .inr ⟨x, mem_cons_self, hx⟩
      · exact .inl hsep
      · obtain hsep | ⟨z, hz, ha⟩ := ih hrest
        · exact .inl hsep
        · exact .inr ⟨z, mem_cons_of_mem _ hz, ha⟩

variable [DecidableEq α]

theorem count_intercalate (sep : α) (xs : List (List α)) :
    ([sep].intercalate xs).count sep = (xs.length - 1) + (xs.map (List.count sep)).sum := by
  induction xs with
  | nil => rfl
  | cons x xs ih =>
    cases xs with
    | nil => simp
    | cons y xs =>
      rw [intercalate_cons_cons, count_append, count_append, ih]
      simp only [count_singleton_self, length_cons, map_cons, sum_cons]
      omega

theorem count_fields_eq_zero : (xs.map (List.count sep)).sum = 0 ↔ ∀ x ∈ xs, sep ∉ x := by
  induction xs with
  | nil => simp
  | cons x xs ih =>
    rw [map_cons, sum_cons, Nat.add_eq_zero_iff, ih, count_eq_zero, forall_mem_cons]

/-- It is enough that one of the two lists has no separator. -/
theorem eq_of_intercalate_eq (hlen : xs.length = ys.length) (hxs : ∀ x ∈ xs, sep ∉ x)
    (h : [sep].intercalate xs = [sep].intercalate ys) : xs = ys := by
  have hys : ∀ y ∈ ys, sep ∉ y := by
    have hcount := congrArg (List.count sep) h
    rw [count_intercalate, count_intercalate, count_fields_eq_zero.mpr hxs, hlen] at hcount
    rw [← count_fields_eq_zero]
    omega
  by_cases hnil : xs = []
  · subst hnil
    exact (length_eq_zero_iff.mp hlen.symm).symm
  · have hnil' : ys ≠ [] := by
      intro hys
      rw [hys, length_nil] at hlen
      exact hnil (length_eq_zero_iff.mp hlen)
    rw [← splitOn_intercalate sep hxs hnil, h, splitOn_intercalate sep hys hnil']

end Fields

/-! ## Lines -/

abbrev lf : UInt8 := 10

abbrev cr : UInt8 := 13

/-- What `writeln!` makes of one line after the other. -/
def unlines (ls : List (List UInt8)) : List UInt8 := ls.flatMap fun l => l ++ [lf]

def stripReturn (l : List UInt8) : List UInt8 := if l.getLast? = some cr then l.dropLast else l

/-- `str::lines`: what ends in a line end, and what is left after the last one. -/
def lines (text : List UInt8) : List (List UInt8) :=
  let parts := text.splitOn lf
  parts.dropLast.map stripReturn ++ parts.getLast?.toList.filter (· ≠ [])

structure IsLine (l : List UInt8) : Prop where
  no_lf : lf ∉ l
  no_cr : l.getLast? ≠ some cr

theorem unlines_append (ls ls' : List (List UInt8)) :
    unlines (ls ++ ls') = unlines ls ++ unlines ls' := List.flatMap_append

theorem unlines_concat (ls : List (List UInt8)) (l : List UInt8) :
    unlines (ls ++ [l]) = unlines ls ++ (l ++ [lf]) := by
  rw [unlines_append]
  simp [unlines]

theorem unlines_eq_intercalate (ls : List (List UInt8)) :
    unlines ls = [lf].intercalate (ls ++ [[]]) := by
  induction ls with
  | nil => rfl
  | cons l ls ih =>
    rw [unlines, flatMap_cons, ← unlines, ih]
    cases ls with
    | nil => simp [intercalate_cons_cons]
    | cons l' ls => simp only [cons_append, intercalate_cons_cons]

theorem map_stripReturn {ls : List (List UInt8)} (h : ∀ l ∈ ls, IsLine l) :
    ls.map stripReturn = ls := by
  refine (map_congr_left fun l hl => ?_).trans (map_id ls)
  rw [stripReturn, if_neg (h l hl).no_cr, id]

/-- **Round trip**: a file is read line by line as it was written. -/
theorem lines_unlines {ls : List (List UInt8)} (h : ∀ l ∈ ls, IsLine l) :
    lines (unlines ls) = ls := by
  have hparts : (unlines ls).splitOn lf = ls ++ [[]] := by
    rw [unlines_eq_intercalate]
    apply splitOn_intercalate
    · refine forall_mem_append.mpr ⟨fun l hl => (h l hl).no_lf, ?_⟩
      exact forall_mem_singleton.mpr not_mem_nil
    · simp
  rw [lines, hparts]
  simp [map_stripReturn h]

end Lines
