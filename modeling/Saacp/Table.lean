/-
**Finite tables** over Mathlib's association lists, with the operations of a hash map.

`modify` is the in-place update through a mutable reference: it keeps the key set and the
order of the entries, and does nothing on a missing key. `update` is the same with an answer
computed from the old value. Every operation is characterised by what `get` returns after
it, and `len` counts the entries. A table is below another one when every entry of it is an
entry of the other; the operations that only drop entries go down in this order.
-/
import Mathlib.Data.List.AList
import Mathlib.Order.Defs.PartialOrder

set_option autoImplicit false

/-- Values by key, each key once. -/
structure Table (K V : Type) where
  alist : AList (fun _ : K => V)

namespace Table

open List

variable {K V R : Type} [DecidableEq K]

instance [DecidableEq V] : DecidableEq (Table K V) := fun a b =>
  decidable_of_iff (a.alist = b.alist) (by cases a; cases b; simp)

def empty : Table K V := ⟨∅⟩

variable (t : Table K V)

def get (k : K) : Option V := t.alist.lookup k

def contains (k : K) : Bool := (t.get k).isSome

def insert (t : Table K V) (k : K) (v : V) : Table K V := ⟨t.alist.insert k v⟩

def remove (k : K) : Table K V := ⟨t.alist.erase k⟩

def entries (t : Table K V) : List (K × V) := t.alist.entries.map fun e => (e.1, e.2)

def len : ℕ := t.alist.entries.length

/-- Apply `f` in place: a missing key stays missing. -/
def modify (k : K) (f : V → V) : Table K V :=
  match t.get k with
  | some v => ⟨t.alist.replace k (f v)⟩
  | none => t

/-- Apply `f` to the value at `k` and return its answer; `none` on a missing key. -/
def update (k : K) (f : V → V × R) : Table K V × Option R :=
  (t.modify k fun v => (f v).1, (t.get k).map fun v => (f v).2)

/-- Keep the entries that satisfy `p`. -/
def retain (p : K → V → Bool) : Table K V :=
  ⟨⟨t.alist.entries.filter fun e => p e.1 e.2, t.alist.nodupKeys.sublist List.filter_sublist⟩⟩

/-- Apply `f` to every value. -/
def mapValues (f : V → V) : Table K V :=
  ⟨⟨t.alist.entries.map fun e => ⟨e.1, f e.2⟩, by
    have hkeys : (t.alist.entries.map fun e => (⟨e.1, f e.2⟩ : Sigma fun _ : K => V)).keys =
        t.alist.entries.keys := by
      simp only [List.keys, List.map_map]
      rfl
    rw [List.NodupKeys, hkeys]
    exact t.alist.nodupKeys⟩⟩

def removeAll (ks : List K) : Table K V := ks.foldl remove t

/-! ## Reading after a write -/

@[simp] theorem get_empty (k : K) : (empty : Table K V).get k = none := AList.lookup_empty k

open AList

theorem get_insert (k k' : K) (v : V) :
    (t.insert k v).get k' = if k' = k then some v else t.get k' := by
  unfold get insert
  split
  · rename_i h
    rw [h, lookup_insert]
  · rename_i h
    exact lookup_insert_ne h

@[simp] theorem get_insert_self (k : K) (v : V) : (t.insert k v).get k = some v := by
  rw [get_insert, if_pos rfl]

theorem get_remove (k k' : K) : (t.remove k).get k' = if k' = k then none else t.get k' := by
  unfold get remove
  split
  · rename_i h
    rw [h, lookup_erase]
  · rename_i h
    exact lookup_erase_ne h

/-- `kreplace` by recursion. -/
theorem kreplace_cons (k a : K) (v b : V) (l : List (Sigma fun _ : K => V)) :
    List.kreplace k v (⟨a, b⟩ :: l) =
      if k = a then ⟨k, v⟩ :: l else ⟨a, b⟩ :: List.kreplace k v l := by
  unfold List.kreplace
  split
  · rename_i ha
    rw [lookmap_cons_some _ l (show (fun s : Sigma fun _ : K => V =>
      if k = s.1 then some (⟨k, v⟩ : Sigma fun _ : K => V) else none) ⟨a, b⟩ = _ from
        if_pos ha)]
  · rename_i ha
    rw [lookmap_cons_none _ l (show (fun s : Sigma fun _ : K => V =>
      if k = s.1 then some (⟨k, v⟩ : Sigma fun _ : K => V) else none) ⟨a, b⟩ = none from
        if_neg ha)]

theorem dlookup_kreplace (k k' : K) (v : V) (l : List (Sigma fun _ : K => V)) :
    (List.kreplace k v l).dlookup k' =
      if k' = k then (l.dlookup k).map fun _ => v else l.dlookup k' := by
  induction l with
  | nil => split <;> rfl
  | cons e l ih =>
    obtain ⟨a, b⟩ := e
    rw [kreplace_cons]
    by_cases ha : k = a
    · subst ha
      rw [if_pos rfl]
      by_cases hk : k' = k
      · subst hk
        simp
      · simp [hk]
    · rw [if_neg ha]
      by_cases hk : k' = a
      · subst hk
        simp [Ne.symm ha]
      · simp [hk, ha, ih]

variable {t : Table K V} {k : K} {v : V} {f : V → V} {p : V → Bool} {ks : List K}

theorem modify_of_some (h : t.get k = some v) (f : V → V) :
    t.modify k f = ⟨t.alist.replace k (f v)⟩ := by
  unfold modify
  rw [h]

theorem modify_of_none (h : t.get k = none) (f : V → V) : t.modify k f = t := by
  unfold modify
  rw [h]

/-- A modification is seen at its own key. -/
theorem get_modify (t : Table K V) (k k' : K) (f : V → V) :
    (t.modify k f).get k' = if k' = k then (t.get k).map f else t.get k' := by
  cases hk : t.get k with
  | none =>
    rw [modify_of_none hk]
    split
    · rename_i h
      rw [h, hk]
      rfl
    · rfl
  | some v =>
    have hrep := dlookup_kreplace k k' (f v) t.alist.entries
    rw [show t.alist.entries.dlookup k = some v from hk] at hrep
    rw [modify_of_some hk]
    exact hrep

theorem modify_congr {g : V → V}
    (h : ∀ v, t.get k = some v → f v = g v) : t.modify k f = t.modify k g := by
  cases hk : t.get k with
  | none => rw [modify_of_none hk, modify_of_none hk]
  | some v => rw [modify_of_some hk, modify_of_some hk, h v hk]

theorem modify_eq_self (h : ∀ v, t.get k = some v → f v = v) : t.modify k f = t := by
  cases hk : t.get k with
  | none => rw [modify_of_none hk]
  | some v =>
    have hmem : (⟨k, v⟩ : Sigma fun _ : K => V) ∈ t.alist.entries := mem_lookup_iff.mp hk
    have hsame : t.alist.replace k v = t.alist :=
      ext (kreplace_self t.alist.nodupKeys hmem)
    rw [modify_of_some hk, h v hk, hsame]

@[simp] theorem get_modify_self (t : Table K V) (k : K) (f : V → V) :
    (t.modify k f).get k = (t.get k).map f := by
  rw [get_modify, if_pos rfl]

/-- **What holds of every entry** still does if it holds of the one that is written. -/
theorem forall_insert {P : K → V → Prop} (hold : ∀ k v, t.get k = some v → P k v) (hnew : P k v)
    (k' : K) (v' : V) (h : (t.insert k v).get k' = some v') : P k' v' := by
  rw [get_insert] at h
  split_ifs at h with hk
  · exact hk ▸ Option.some.inj h ▸ hnew
  · exact hold k' v' h

theorem forall_modify {P : K → V → Prop} (hold : ∀ k v, t.get k = some v → P k v)
    (hnew : ∀ v, t.get k = some v → P k (f v)) (k' : K) (v' : V)
    (h : (t.modify k f).get k' = some v') : P k' v' := by
  rw [get_modify] at h
  split_ifs at h with hk
  · obtain ⟨v, hv, rfl⟩ := Option.map_eq_some_iff.mp h
    exact hk ▸ hnew v hv
  · exact hold k' v' h

theorem get_mapValues (t : Table K V) (f : V → V) (k : K) :
    (t.mapValues f).get k = (t.get k).map f := by
  obtain ⟨⟨l, hl⟩⟩ := t
  show (l.map fun e => (⟨e.1, f e.2⟩ : Sigma fun _ : K => V)).dlookup k = (l.dlookup k).map f
  clear hl
  induction l with
  | nil => rfl
  | cons e l ih =>
    obtain ⟨a, b⟩ := e
    rw [map_cons]
    by_cases hk : k = a
    · subst hk
      simp
    · simp [hk, ih]

/-! ## Entries and their number -/

theorem get_eq_some : t.get k = some v ↔ (⟨k, v⟩ : Sigma fun _ : K => V) ∈ t.alist.entries := by
  rw [← mem_lookup_iff, Option.mem_def, get]

theorem mem_entries : (k, v) ∈ t.entries ↔ t.get k = some v := by
  rw [get_eq_some, entries, mem_map]
  constructor
  · rintro ⟨⟨a, b⟩, hmem, heq⟩
    cases heq
    exact hmem
  · intro hmem
    exact ⟨_, hmem, rfl⟩

omit [DecidableEq K] in
/-- **Each key is listed once.** -/
theorem nodup_entries (t : Table K V) : (t.entries.map Prod.fst).Nodup := by
  rw [entries, map_map]
  exact t.alist.nodupKeys

omit [DecidableEq K] in
theorem len_eq_keys (t : Table K V) : t.len = t.alist.keys.length := by
  rw [len, AList.keys, List.keys, length_map]

omit [DecidableEq K] in
@[simp] theorem len_empty : (empty : Table K V).len = 0 := rfl

theorem len_insert_of_none (h : t.get k = none) (v : V) : (t.insert k v).len = t.len + 1 := by
  rw [len, insert, entries_insert_of_notMem (lookup_eq_none.mp h), length_cons, len]

omit [DecidableEq K] in
theorem eq_empty_of_len (h : t.len = 0) : t = .empty := by
  obtain ⟨⟨entries, hnodup⟩⟩ := t
  obtain rfl : entries = [] := length_eq_zero_iff.mp h
  rfl

@[simp] theorem len_modify (t : Table K V) (k : K) (f : V → V) : (t.modify k f).len = t.len := by
  cases hk : t.get k with
  | none => rw [modify_of_none hk]
  | some v => rw [modify_of_some hk, len_eq_keys, len_eq_keys, keys_replace]

theorem len_remove_le (t : Table K V) (k : K) : (t.remove k).len ≤ t.len := by
  rw [len_eq_keys, len_eq_keys, remove, keys_erase]
  exact length_erase_le

/-! ## Counting entries of one kind -/

/-- How many values satisfy `p`. -/
def count (t : Table K V) (p : V → Bool) : ℕ := t.alist.entries.countP fun e => p e.2

omit [DecidableEq K] in
omit [DecidableEq K] in
theorem len_eq_count (t : Table K V) : t.len = t.count fun _ => true := by
  rw [len, count, countP_true]

theorem count_remove (t : Table K V) (k : K) (p : V → Bool) :
    (t.remove k).count p = (List.kerase k t.alist.entries).countP fun e => p e.2 := rfl

theorem count_remove_of_none (h : t.get k = none) (p : V → Bool) :
    (t.remove k).count p = t.count p := by
  have hkey : k ∉ t.alist.entries.keys := lookup_eq_none.mp h
  rw [count_remove, kerase_of_notMem_keys hkey, count]

theorem count_remove_of_some (h : t.get k = some v)
    (p : V → Bool) : t.count p = (t.remove k).count p + if p v then 1 else 0 := by
  have hmem := get_eq_some.mp h
  obtain ⟨w, l₁, l₂, -, hl, herase⟩ := exists_of_kerase (mem_keys_of_mem hmem)
  -- the entry taken out is the one that was looked up: keys occur once
  have hw : w = v := by
    have hmem' : (⟨k, w⟩ : Sigma fun _ : K => V) ∈ t.alist.entries := by
      rw [hl]
      simp
    exact t.alist.nodupKeys.eq_of_mk_mem hmem' hmem
  rw [count_remove, count, herase, hl, countP_append, countP_append, countP_cons, hw]
  exact (Nat.add_assoc _ _ _).symm

theorem count_insert (t : Table K V) (k : K) (v : V) (p : V → Bool) :
    (t.insert k v).count p = (t.remove k).count p + if p v then 1 else 0 := by
  rw [count, insert, entries_insert, countP_cons, count_remove]

/-- An insertion adds one entry at most. -/
theorem len_insert_le (t : Table K V) (k : K) (v : V) : (t.insert k v).len ≤ t.len + 1 := by
  have hremove := len_remove_le t k
  rw [len_eq_count, len_eq_count] at hremove
  rw [len_eq_count, count_insert, len_eq_count, if_pos rfl]
  omega

theorem len_insert_of_some (h : t.get k = some v) (v' : V) : (t.insert k v').len = t.len := by
  rw [len_eq_count, len_eq_count, count_insert, count_remove_of_some h, if_pos rfl]

theorem count_kreplace {w : V} {l : List (Sigma fun _ : K => V)}
    (h : ∀ v, (⟨k, v⟩ : Sigma fun _ : K => V) ∈ l → p w = p v) :
    (List.kreplace k w l).countP (fun e => p e.2) = l.countP fun e => p e.2 := by
  induction l with
  | nil => rfl
  | cons e l ih =>
    obtain ⟨a, b⟩ := e
    rw [kreplace_cons]
    by_cases ha : k = a
    · subst ha
      rw [if_pos rfl, countP_cons, countP_cons, h b mem_cons_self]
    · rw [if_neg ha, countP_cons, countP_cons, ih fun v hv => h v (mem_cons_of_mem _ hv)]

theorem count_modify
    (h : ∀ v, t.get k = some v → p (f v) = p v) : (t.modify k f).count p = t.count p := by
  cases hk : t.get k with
  | none => rw [modify_of_none hk]
  | some v =>
    rw [modify_of_some hk]
    apply count_kreplace
    intro v' hv'
    have hv : t.get k = some v' := get_eq_some.mpr hv'
    rw [hk, Option.some.injEq] at hv
    rw [h v hk, hv]

/-! ## Dropping entries -/

/-- A table is below another one if all its entries are there. -/
instance : Preorder (Table K V) where
  le t t' := ∀ k v, t.get k = some v → t'.get k = some v
  le_refl _ _ _ h := h
  le_trans _ _ _ h h' k v hk := h' k v (h k v hk)

theorem contains_eq_false_of_le {t' : Table K V} (hle : t ≤ t')
    (hk : t'.contains k = false) : t.contains k = false := by
  unfold contains at hk ⊢
  cases hget : t.get k with
  | none => rfl
  | some v => rw [hle k v hget] at hk; exact hk

theorem get_retain {p : K → V → Bool} :
    (t.retain p).get k = some v ↔ t.get k = some v ∧ p k v = true := by
  rw [get_eq_some, get_eq_some, retain, mem_filter]

theorem retain_le (t : Table K V) (p : K → V → Bool) : t.retain p ≤ t := by
  intro k v hk
  exact (get_retain.mp hk).1

omit [DecidableEq K] in
theorem entries_retain (t : Table K V) (p : K → V → Bool) :
    (t.retain p).entries = t.entries.filter fun e => p e.1 e.2 := by
  rw [entries, entries, filter_map]
  rfl

omit [DecidableEq K] in
theorem len_retain_le (t : Table K V) (p : K → V → Bool) : (t.retain p).len ≤ t.len :=
  length_filter_le _ _

omit [DecidableEq K] in
theorem retain_retain (t : Table K V) (p q : K → V → Bool) :
    (t.retain p).retain q = t.retain fun k v => p k v && q k v := by
  refine congrArg Table.mk (ext ?_)
  show (t.alist.entries.filter _).filter _ = t.alist.entries.filter _
  rw [filter_filter]
  refine filter_congr fun e _ => ?_
  exact Bool.and_comm _ _

theorem retain_eq_self {p : K → V → Bool}
    (h : ∀ k v, t.get k = some v → p k v = true) : t.retain p = t := by
  have hfilter : t.alist.entries.filter (fun e => p e.1 e.2) = t.alist.entries :=
    filter_eq_self.mpr fun e he => h e.1 e.2 (get_eq_some.mpr he)
  obtain ⟨alist⟩ := t
  exact congrArg Table.mk (ext hfilter)

/-- Different keys that are present are at most as many as the entries. -/
theorem length_le_len (hnodup : ks.Nodup)
    (h : ∀ k ∈ ks, ∃ v, t.get k = some v) : ks.length ≤ t.len := by
  rw [len_eq_keys]
  refine (subperm_of_subset hnodup ?_).length_le
  intro k hk
  obtain ⟨v, hv⟩ := h k hk
  exact mem_map.mpr ⟨⟨k, v⟩, get_eq_some.mp hv, rfl⟩

theorem len_le_length (h : ∀ k v, t.get k = some v → k ∈ ks) : t.len ≤ ks.length := by
  rw [len_eq_keys]
  refine (subperm_of_subset t.alist.nodupKeys ?_).length_le
  intro k hk
  obtain ⟨⟨k', v⟩, hmem, rfl⟩ := mem_map.mp hk
  exact h k' v (get_eq_some.mpr hmem)

theorem remove_le (t : Table K V) (k : K) : t.remove k ≤ t := by
  intro k' v hk
  rw [get_remove] at hk
  split at hk
  · cases hk
  · exact hk

theorem get_removeAll (t : Table K V) (ks : List K) (k : K) :
    (t.removeAll ks).get k = if k ∈ ks then none else t.get k := by
  induction ks generalizing t with
  | nil => rfl
  | cons k' ks ih =>
    show ((t.remove k').removeAll ks).get k = _
    rw [ih, get_remove]
    by_cases hk : k ∈ ks
    · rw [if_pos hk, if_pos (mem_cons_of_mem k' hk)]
    · by_cases hkk : k = k'
      · rw [if_neg hk, if_pos hkk, if_pos (by rw [hkk]; exact mem_cons_self)]
      · rw [if_neg hk, if_neg hkk, if_neg (by simp [hk, hkk])]

theorem count_removeAll
    (h : ∀ k ∈ ks, ∀ v, t.get k = some v → p v = false) : (t.removeAll ks).count p = t.count p := by
  induction ks generalizing t with
  | nil => rfl
  | cons k ks ih =>
    have hone : (t.remove k).count p = t.count p := by
      cases hk : t.get k with
      | none => exact count_remove_of_none hk p
      | some v =>
        rw [count_remove_of_some hk, h k mem_cons_self v hk]
        simp
    rw [← hone]
    apply ih
    intro k' hk' v hv
    exact h k' (mem_cons_of_mem k hk') v (remove_le t k k' v hv)

theorem len_removeAll_le (t : Table K V) (ks : List K) : (t.removeAll ks).len ≤ t.len := by
  induction ks generalizing t with
  | nil => exact Nat.le_refl _
  | cons k ks ih => exact Nat.le_trans (ih _) (len_remove_le t k)

theorem removeAll_le (t : Table K V) (ks : List K) : t.removeAll ks ≤ t := by
  induction ks generalizing t with
  | nil => exact le_refl t
  | cons k ks ih => exact le_trans (ih (t.remove k)) (remove_le t k)

end Table
