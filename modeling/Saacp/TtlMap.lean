/-
**Maps whose entries expire**: what a key-value store with a time to live promises.

An entry is written with an instant from which it no longer counts, or with none. `get` is what
a client sees at an instant; `stored` is what was last written and not deleted, expired or not.
The one conditional write is `compare_and_swap`, on the value a client would see.
-/
import Saacp.Table
import Mathlib.Logic.Function.Basic

set_option autoImplicit false

structure Expiring (V : Type) where
  value : V
  expires_at : Option ℕ

namespace Expiring

variable {V : Type}

def live (e : Expiring V) (now : ℕ) : Bool :=
  match e.expires_at with
  | some t => now < t
  | none => true

end Expiring

structure TtlMap (K V : Type) where
  entries : Table K (Expiring V)

namespace TtlMap

variable {K V : Type} [DecidableEq K]

def empty : TtlMap K V := ⟨.empty⟩

variable (t : TtlMap K V)

def entry (now : ℕ) (k : K) : Option (Expiring V) :=
  (t.entries.get k).filter fun e => e.live now

def get (now : ℕ) (k : K) : Option V := (t.entry now k).map Expiring.value

/-- The value last written under a key and not deleted since. -/
def stored (k : K) : Option V := (t.entries.get k).map Expiring.value

def set (now : ℕ) (k : K) (v : V) (ttl : Option ℕ) : TtlMap K V :=
  ⟨t.entries.insert k ⟨v, ttl.map (now + ·)⟩⟩

def delete (now : ℕ) (k : K) : TtlMap K V × Bool :=
  (⟨t.entries.remove k⟩, (t.get now k).isSome)

/-- Write `new` if the value seen is `expected`; `none` stands for no value. -/
def compare_and_swap [DecidableEq V] (now : ℕ) (k : K) (expected : Option V)
    (new : V) (ttl : Option ℕ) : TtlMap K V × Bool :=
  if t.get now k = expected then (t.set now k new ttl, true) else (t, false)

theorem compare_and_swap_cases [DecidableEq V] (now : ℕ) (k : K)
    (expected : Option V) (new : V) (ttl : Option ℕ) :
    t.get now k = expected ∧
        t.compare_and_swap now k expected new ttl = (t.set now k new ttl, true) ∨
      t.compare_and_swap now k expected new ttl = (t, false) := by
  by_cases h : t.get now k = expected
  · exact .inl ⟨h, if_pos h⟩
  · exact .inr (if_neg h)

/-! ## What is stored after a write -/

theorem stored_of_get {t : TtlMap K V} {now : ℕ} {k : K} {v : V} (h : t.get now k = some v) :
    t.stored k = some v := by
  obtain ⟨e, he, hv⟩ := Option.map_eq_some_iff.mp h
  exact Option.map_eq_some_iff.mpr ⟨e, (Option.filter_eq_some_iff.mp he).1, hv⟩

theorem get_of_live {t : TtlMap K V} {now : ℕ} {k : K} {e : Expiring V}
    (h : t.entries.get k = some e) (hlive : e.live now = true) : t.get now k = some e.value := by
  unfold get entry
  rw [h, Option.filter_some, if_pos hlive]
  rfl

theorem stored_set (now : ℕ) (k k' : K) (v : V) (ttl : Option ℕ) :
    (t.set now k v ttl).stored k' = if k' = k then some v else t.stored k' := by
  unfold stored set
  rw [Table.get_insert]
  split <;> rfl

@[simp] theorem stored_set_self (now : ℕ) (k : K) (v : V) (ttl : Option ℕ) :
    (t.set now k v ttl).stored k = some v := by
  rw [stored_set, if_pos rfl]

@[simp] theorem stored_delete_self (now : ℕ) (k : K) : (t.delete now k).1.stored k = none := by
  unfold stored delete
  rw [Table.get_remove, if_pos rfl]
  rfl

end TtlMap

/-! ## Entries that are dropped late

What a map with deadlines means does not depend on when an expired entry is removed. `Lags` is the
relation between a map and one that has lost some entries whose deadlines have passed: nobody who
looks at a later instant can tell them apart. -/

abbrev Deadlines (K V : Type) := K → Option (Expiring V)

namespace Deadlines

variable {K V : Type} {store store' m : Deadlines K V} {t t' now : ℕ} {k : K}

/-- What is seen under a key: an entry whose deadline has passed does not exist. -/
def see (m : Deadlines K V) (now : ℕ) (k : K) : Option (Expiring V) :=
  (m k).filter fun e => e.live now

theorem see_eq_none_of_le (h : m.see t k = none) (hle : t ≤ t') : m.see t' k = none := by
  unfold see Expiring.live at h ⊢
  cases hk : m k with
  | none => rfl
  | some e =>
    rw [hk, Option.filter_some] at h
    rw [Option.filter_some]
    cases hdeadline : e.expires_at with
    | none => simp [hdeadline] at h
    | some deadline =>
      simp only [hdeadline, ite_eq_right_iff, reduceCtorEq, imp_false, decide_eq_true_eq] at h ⊢
      omega

/-- The store is the map, but for entries that have expired by `t`. -/
def Lags (t : ℕ) (store m : Deadlines K V) : Prop :=
  ∀ k, store k = m k ∨ store k = none ∧ m.see t k = none

variable (h : Lags t store m)
include h

theorem Lags.see_eq (hle : t ≤ now) (k : K) : store.see now k = m.see now k := by
  rcases h k with hsame | ⟨hgone, hexpired⟩
  · rw [see, hsame, see]
  · rw [see_eq_none_of_le hexpired hle, see, hgone]
    rfl

theorem Lags.mono (hle : t ≤ t') : Lags t' store m := by
  intro k
  rcases h k with hsame | ⟨hgone, hexpired⟩
  · exact .inl hsame
  · exact .inr ⟨hgone, see_eq_none_of_le hexpired hle⟩

theorem Lags.update [DecidableEq K] (k : K) (e : Option (Expiring V)) :
    Lags t (Function.update store k e) (Function.update m k e) := by
  intro k'
  by_cases hk : k' = k
  · subst hk
    simp
  · simp only [Function.update_of_ne hk, see]
    exact h k'

theorem Lags.drop (hle : t ≤ t')
    (hdrop : ∀ k, store' k = store k ∨ store' k = none ∧ store.see t' k = none) :
    Lags t' store' m := by
  intro k
  rcases hdrop k with hsame | ⟨hgone, hexpired⟩
  · rw [hsame]
    exact h.mono hle k
  · rw [h.see_eq hle] at hexpired
    exact .inr ⟨hgone, hexpired⟩

end Deadlines
