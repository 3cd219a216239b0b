/-
**Climbing links**: nodes each of which names at most one other, and the loop that follows the
names upwards and keeps a list of where it has been.

Only stored nodes name one, so the loop goes round at most once for each of them. A link that is
added to nodes without a cycle closes one only through itself (`Acyclic.through`), so asking about
the new node is enough.
-/
import Mathlib.Logic.Relation
import Mathlib.Logic.Function.Basic
import Mathlib.Data.List.Nodup

set_option autoImplicit false

namespace Climb

variable {K : Type} {up up' : K → Option K}

def Link (up : K → Option K) (a b : K) : Prop := up a = some b

def Acyclic (up : K → Option K) : Prop := ∀ a, ¬ Relation.TransGen (Link up) a a

theorem Acyclic.mono (h : Acyclic up) (hle : ∀ a b, up' a = some b → up a = some b) :
    Acyclic up' := by
  intro a hcycle
  exact h a (Relation.TransGen.mono (fun x y hxy => hle x y hxy) a a hcycle)

theorem link_of_ne {a b : K} (h : Relation.ReflTransGen (Link up) a b) (hne : a ≠ b) :
    ∃ c, up a = some c ∧ Relation.ReflTransGen (Link up) c b := by
  rcases h.cases_head with heq | ⟨c, hac, hcb⟩
  · exact absurd heq hne
  · exact ⟨c, hac, hcb⟩

section Update

variable [DecidableEq K] {k b : K}

theorem old_or_through {x y : K}
    (h : Relation.TransGen (Link (Function.update up k (some b))) x y) :
    Relation.TransGen (Link up) x y ∨
      Relation.ReflTransGen (Link (Function.update up k (some b))) x k ∧
        Relation.TransGen (Link (Function.update up k (some b))) k y := by
  induction h with
  | single hxy =>
    rename_i y
    by_cases hx : x = k
    · subst hx
      exact .inr ⟨.refl, .single hxy⟩
    · rw [Link, Function.update_of_ne hx] at hxy
      exact .inl (.single hxy)
  | tail hxy hyz ih =>
    rename_i y z
    by_cases hy : y = k
    · subst hy
      exact .inr ⟨hxy.to_reflTransGen, .single hyz⟩
    · rcases ih with hold | ⟨hxk, hky⟩
      · rw [Link, Function.update_of_ne hy] at hyz
        exact .inl (hold.tail hyz)
      · exact .inr ⟨hxk, hky.tail hyz⟩

/-- **A new link closes a cycle only through itself.** -/
theorem Acyclic.through (h : Acyclic up) {a : K}
    (hcycle : Relation.TransGen (Link (Function.update up k (some b))) a a) :
    Relation.TransGen (Link (Function.update up k (some b))) k k := by
  rcases old_or_through hcycle with hold | ⟨hak, hka⟩
  · exact absurd hold (h a)
  · exact hka.trans_left hak

end Update

/-! ## The loop -/

section Loop

variable [DecidableEq K]

/-- Follow the names from `current`; `none` when the fuel runs out. -/
def climb (up : K → Option K) (top start : K) : ℕ → List K → K → Option Bool
  | 0, _, _ => none
  | fuel + 1, path, current =>
    if current = top then some false
    else if current = start then some true
    else if current ∈ path then some true
    else
      match up current with
      | some next => climb up top start fuel (current :: path) next
      | none => some false

variable {top start : K}

/-- **The loop ends**: no node is entered into the list twice. -/
theorem climb_returns {bound : ℕ}
    (hbound : ∀ l : List K, l.Nodup → (∀ a ∈ l, ∃ b, up a = some b) → l.length ≤ bound) :
    ∀ (fuel : ℕ) (path : List K) (current : K), path.Nodup → (∀ a ∈ path, ∃ b, up a = some b) →
      bound + 1 ≤ fuel + path.length → ∃ r, climb up top start fuel path current = some r := by
  intro fuel
  induction fuel with
  | zero =>
    intro path current hnodup hstored hfuel
    have := hbound path hnodup hstored
    omega
  | succ fuel ih =>
    intro path current hnodup hstored hfuel
    rw [climb]
    split_ifs with htop hstart hpath
    · exact ⟨false, rfl⟩
    · exact ⟨true, rfl⟩
    · exact ⟨true, rfl⟩
    · cases hnext : up current with
      | none => exact ⟨false, rfl⟩
      | some next =>
        apply ih (current :: path) next (List.nodup_cons.mpr ⟨hpath, hnodup⟩)
        · exact List.forall_mem_cons.mpr ⟨⟨next, hnext⟩, hstored⟩
        · rw [List.length_cons]
          omega

theorem cycle_of_climb :
    ∀ (fuel : ℕ) (path : List K) (current : K), Relation.TransGen (Link up) start current →
      (∀ a ∈ path, Relation.TransGen (Link up) a current) →
      climb up top start fuel path current = some true →
      ∃ a, Relation.TransGen (Link up) a a := by
  intro fuel
  induction fuel with
  | zero =>
    intro path current _ _ h
    rw [climb] at h
    cases h
  | succ fuel ih =>
    intro path current hfrom hpath h
    rw [climb] at h
    split_ifs at h with htop hstart hmem
    · cases h
    · subst hstart
      exact ⟨current, hfrom⟩
    · exact ⟨current, hpath current hmem⟩
    · cases hnext : up current with
      | none =>
        rw [hnext] at h
        cases h
      | some next =>
        rw [hnext] at h
        refine ih (current :: path) next (hfrom.tail hnext) ?_ h
        exact List.forall_mem_cons.mpr ⟨.single hnext, fun a ha => (hpath a ha).tail hnext⟩

theorem not_reached_of_climb (htop : up top = none) (hne : start ≠ top) :
    ∀ (fuel : ℕ) (path : List K) (current : K), climb up top start fuel path current = some false →
      ¬ Relation.ReflTransGen (Link up) current start := by
  intro fuel
  induction fuel with
  | zero =>
    intro path current h
    rw [climb] at h
    cases h
  | succ fuel ih =>
    intro path current h hreach
    rw [climb] at h
    split_ifs at h with hcur hstart hmem
    · -- the top names none and is not the start
      subst hcur
      obtain ⟨c, hc, -⟩ := link_of_ne hreach hne.symm
      rw [htop] at hc
      cases hc
    · cases h
    · cases h
    · obtain ⟨next, hnext, hrest⟩ := link_of_ne hreach hstart
      rw [hnext] at h
      exact ih (current :: path) next h hrest

theorem not_cycle_of_climb (htop : up top = none) {fuel : ℕ} {first : K}
    (hfirst : up start = some first) (h : climb up top start fuel [] first = some false) :
    ¬ Relation.TransGen (Link up) start start := by
  have hne : start ≠ top := by
    rintro rfl
    rw [htop] at hfirst
    cases hfirst
  intro hcycle
  obtain ⟨c, hc, hreach⟩ := Relation.TransGen.head'_iff.mp hcycle
  rw [Link, hfirst] at hc
  obtain rfl := Option.some.inj hc
  exact not_reached_of_climb htop hne fuel [] first h hreach

end Loop

end Climb
