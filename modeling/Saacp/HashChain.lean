/-
**Hash chains**: lists whose elements point back by hash.

An element has a `hash`, and names in `prev` the hash of the element before it; the first one
names a seed. When no two elements have the same hash, and none has the seed's, the position in
the chain is determined by what an element names.
-/
import Mathlib.Data.List.Infix

set_option autoImplicit false

namespace HashChain

open List

variable {E D : Type} (prev hash : E → D)

def head (seed : D) (es : List E) : D := (es.getLast?.map hash).getD seed

@[simp] theorem head_nil (seed : D) : head hash seed [] = seed := rfl

@[simp] theorem head_concat (seed : D) (es : List E) (e : E) :
    head hash seed (es ++ [e]) = hash e := by
  simp [head]

theorem head_cons (seed : D) (e : E) (es : List E) :
    head hash seed (e :: es) = head hash (hash e) es := by
  rcases eq_nil_or_concat' es with rfl | ⟨es, x, rfl⟩
  · rfl
  · rw [← cons_append, head_concat, head_concat]

theorem head_append (seed : D) (es es' : List E) :
    head hash seed (es ++ es') = head hash (head hash seed es) es' := by
  rcases eq_nil_or_concat' es' with rfl | ⟨es', x, rfl⟩
  · rw [append_nil, head_nil]
  · rw [← append_assoc, head_concat, head_concat]

def Chained (seed : D) (es : List E) : Prop :=
  ∀ before e, before ++ [e] <+: es → prev e = head hash seed before

structure CollisionFree (seed : D) (es : List E) : Prop where
  seed_ne : ∀ e ∈ es, hash e ≠ seed
  inj : ∀ e ∈ es, ∀ e' ∈ es, hash e = hash e' → e = e'

variable {prev hash} {seed : D} {es : List E}

theorem chained_nil : Chained prev hash seed [] := by
  intro before e hpre
  exact absurd (prefix_nil.mp hpre) (by simp)

theorem Chained.cons {e : E} (he : prev e = seed) (h : Chained prev hash (hash e) es) :
    Chained prev hash seed (e :: es) := by
  intro before x hpre
  cases before with
  | nil =>
    obtain ⟨rfl, -⟩ := cons_prefix_cons.mp hpre
    exact he
  | cons y before =>
    obtain ⟨rfl, hrest⟩ := cons_prefix_cons.mp hpre
    rw [h before x hrest, head_cons]

theorem eq_of_head_eq (hc : Chained prev hash seed es) (hf : CollisionFree hash seed es)
    {p q : List E} (hp : p <+: es) (hq : q <+: es)
    (h : head hash seed p = head hash seed q) : p = q := by
  -- by induction from the end: equal hashes mean equal last elements, which name equal heads
  induction p using List.reverseRecOn generalizing q with
  | nil =>
    rcases eq_nil_or_concat' q with rfl | ⟨q, y, rfl⟩
    · rfl
    · rw [head_nil, head_concat] at h
      exact absurd h.symm (hf.seed_ne y (hq.subset (by simp)))
  | append_singleton p x ih =>
    rcases eq_nil_or_concat' q with rfl | ⟨q, y, rfl⟩
    · rw [head_nil, head_concat] at h
      exact absurd h (hf.seed_ne x (hp.subset (by simp)))
    · rw [head_concat, head_concat] at h
      obtain rfl := hf.inj x (hp.subset (by simp)) y (hq.subset (by simp)) h
      have hheads : head hash seed p = head hash seed q := (hc p x hp).symm.trans (hc q x hq)
      rw [ih ((prefix_append p [x]).trans hp) ((prefix_append q [x]).trans hq) hheads]

theorem exists_prefix_of_mem {e : E} (he : e ∈ es) : ∃ before, before ++ [e] <+: es := by
  obtain ⟨before, after, rfl⟩ := append_of_mem he
  exact ⟨before, after, by simp⟩

/-- **Continuation**: an element of the chain that names the head of a prefix comes next. -/
theorem concat_prefix (hc : Chained prev hash seed es) (hf : CollisionFree hash seed es)
    {p : List E} (hp : p <+: es) {e : E} (he : e ∈ es) (hprev : prev e = head hash seed p) :
    p ++ [e] <+: es := by
  obtain ⟨before, hbefore⟩ := exists_prefix_of_mem he
  have hsame : p = before := by
    apply eq_of_head_eq hc hf hp ((prefix_append before [e]).trans hbefore)
    rw [← hprev, hc before e hbefore]
  rwa [hsame]

/-- **No gaps**: a prefix that has an element has everything before it. -/
theorem prefix_of_mem (hc : Chained prev hash seed es) (hf : CollisionFree hash seed es)
    {p : List E} (hp : p <+: es) {e : E} (he : e ∈ p) {before : List E}
    (hbefore : before ++ [e] <+: es) : before ++ [e] <+: p := by
  obtain ⟨q, hq⟩ := exists_prefix_of_mem he
  have hsame : before ++ [e] = q ++ [e] := by
    apply eq_of_head_eq hc hf hbefore (hq.trans hp)
    rw [head_concat, head_concat]
  rwa [hsame]

end HashChain
