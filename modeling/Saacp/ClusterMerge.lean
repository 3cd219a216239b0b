/-
**Merging membership updates is a join.** The rank of a record is its incarnation and then its
state, and one third-party update moves the record of its node to the larger of two ranks. So the
view after any number of updates does not depend on their order, nor on how often they arrive, as
long as the bound on the number of members is not reached (`Fits`).
-/
import Saacp.Cluster
import Mathlib.Data.Finset.Lattice.Fold
import Mathlib.Data.Prod.Lex
import Mathlib.Order.WithBot

set_option autoImplicit false

namespace Saacp

open List Table MemberRecord

/-! ## Ranks -/

abbrev Rank := ℕ ×ₗ NodeState

def MemberRecord.rank (m : MemberRecord) : Rank := toLex (m.incarnation.toNat, m.state)

def MemberUpdate.rank (u : MemberUpdate) : Rank := toLex (u.incarnation.toNat, u.state)

def rank_of (members : Members) (id : Text) : WithBot Rank :=
  match members.get id with
  | some m => (m.rank : WithBot Rank)
  | none => ⊥

def view (members : Members) (id : Text) : Option (UInt64 × NodeState) :=
  (members.get id).map fun m => (m.incarnation, m.state)

theorem superseded_by_iff (existing : MemberRecord) (update : MemberUpdate) :
    existing.superseded_by update = true ↔ existing.rank < update.rank := by
  unfold superseded_by rank MemberUpdate.rank
  rw [decide_eq_true_iff, Prod.Lex.toLex_lt_toLex, UInt64.lt_iff_toNat_lt, UInt64.toNat_inj]
  constructor
  · rintro (hinc | ⟨hinc, hstate⟩)
    · exact .inl hinc
    · exact .inr ⟨hinc.symm, hstate⟩
  · rintro (hinc | ⟨hinc, hstate⟩)
    · exact .inl hinc
    · exact .inr ⟨hinc.symm, hstate⟩

theorem rank_le_of_left {existing : MemberRecord} {update : MemberUpdate}
    (hleft : existing.state = .Left) (hinc : update.incarnation ≤ existing.incarnation) :
    update.rank ≤ existing.rank := by
  unfold rank MemberUpdate.rank
  rw [Prod.Lex.toLex_le_toLex]
  rcases Nat.lt_or_eq_of_le (UInt64.le_iff_toNat_le.mp hinc) with hlt | heq
  · exact .inl hlt
  · exact .inr ⟨heq, hleft ▸ update.state.le_left⟩

/-- **A third-party update is a join** on the record of its node. -/
theorem rank_merge (existing : MemberRecord) (update : MemberUpdate) (now : ℚ) :
    (existing.merge update now false).rank = max existing.rank update.rank := by
  unfold MemberRecord.merge MemberRecord.absorb
  simp only [Bool.false_eq_true, if_false]
  by_cases hleft : existing.state = .Left ∧ update.incarnation ≤ existing.incarnation
  · rw [if_pos hleft, max_eq_left (rank_le_of_left hleft.1 hleft.2)]
  rw [if_neg hleft]
  by_cases hsup : existing.superseded_by update = true
  · rw [if_pos hsup, max_eq_right (le_of_lt ((superseded_by_iff existing update).mp hsup))]
    rfl
  · rw [if_neg hsup, max_eq_left]
    exact not_lt.mp fun hlt => hsup ((superseded_by_iff existing update).mpr hlt)

/-! ## One update -/

def MemberUpdate.about (u : MemberUpdate) (id : Text) : WithBot Rank :=
  if u.node_id = id then (u.rank : WithBot Rank) else ⊥

def Admits (members : Members) (u : MemberUpdate) : Prop :=
  members.contains u.node_id = true ∨ members.len < CLUSTER_MAX_MEMBERS

variable {members : Members} {u : MemberUpdate} {us : List MemberUpdate}

theorem Admits.room (h : Admits members u)
    (hget : members.get u.node_id = none) : members.len < CLUSTER_MAX_MEMBERS := by
  rcases h with hc | hlt
  · rw [Table.contains, hget] at hc
    cases hc
  · exact hlt

theorem merge_one_of_some {m : MemberRecord}
    (h : members.get u.node_id = some m) (now : ℚ) (authoritative : Bool) :
    merge_one members u now authoritative =
      members.modify u.node_id fun existing => existing.merge u now authoritative := by
  unfold merge_one
  rw [h]

theorem merge_one_of_none (h : members.get u.node_id = none)
    (hroom : members.len < CLUSTER_MAX_MEMBERS) (now : ℚ) (authoritative : Bool) :
    merge_one members u now authoritative = members.insert u.node_id
      ⟨u.node_id, u.addr, u.incarnation, u.state, now, now⟩ := by
  unfold merge_one
  rw [h]
  exact if_neg (Nat.not_le_of_lt hroom)

theorem rank_of_eq_of_get {members' : Members} {id : Text}
    (h : members'.get id = members.get id) : rank_of members' id = rank_of members id := by
  unfold rank_of
  rw [h]

theorem rank_of_merge_one (hroom : Admits members u) (now : ℚ) (id : Text) :
    rank_of (merge_one members u now false) id = rank_of members id ⊔ u.about id := by
  unfold MemberUpdate.about
  cases hget : members.get u.node_id with
  | some m =>
    rw [merge_one_of_some hget]
    by_cases hid : u.node_id = id
    · subst hid
      rw [if_pos rfl]
      unfold rank_of
      rw [get_modify_self, hget]
      exact congrArg _ (rank_merge m u now)
    · rw [if_neg hid, sup_bot_eq]
      apply rank_of_eq_of_get
      rw [get_modify, if_neg fun h => hid h.symm]
  | none =>
    rw [merge_one_of_none hget (hroom.room hget)]
    by_cases hid : u.node_id = id
    · subst hid
      rw [if_pos rfl]
      unfold rank_of
      rw [get_insert_self, hget, bot_sup_eq]
      rfl
    · rw [if_neg hid, sup_bot_eq]
      apply rank_of_eq_of_get
      rw [get_insert, if_neg fun h => hid h.symm]

/-! ## Any number of updates -/

def merge_all (members : Members) (us : List (MemberUpdate × ℚ)) : Members :=
  us.foldl (fun members u => merge_one members u.1 u.2 false) members

def newcomers (members : Members) (us : List MemberUpdate) : Finset Text :=
  ((us.map MemberUpdate.node_id).filter fun id => !members.contains id).toFinset

def Fits (members : Members) (us : List MemberUpdate) : Prop :=
  newcomers members us = ∅ ∨ members.len + (newcomers members us).card ≤ CLUSTER_MAX_MEMBERS

instance (members : Members) (us : List MemberUpdate) : Decidable (Fits members us) :=
  inferInstanceAs (Decidable (_ ∨ _))

theorem mem_newcomers {id : Text} :
    id ∈ newcomers members us ↔ (∃ u ∈ us, u.node_id = id) ∧ members.contains id = false := by
  simp [newcomers]

theorem newcomers_congr {us' : List MemberUpdate}
    (h : ∀ u, u ∈ us ↔ u ∈ us') : newcomers members us = newcomers members us' := by
  ext id
  simp only [mem_newcomers, h]

theorem Fits.admits (h : Fits members (u :: us)) : Admits members u := by
  by_cases hc : members.contains u.node_id = true
  · exact .inl hc
  · have hmem : u.node_id ∈ newcomers members (u :: us) :=
      mem_newcomers.mpr ⟨⟨u, mem_cons_self, rfl⟩, Bool.eq_false_of_not_eq_true hc⟩
    have hpos : 0 < (newcomers members (u :: us)).card := Finset.card_pos.mpr ⟨_, hmem⟩
    rcases h with hnone | hle
    · rw [hnone] at hmem
      exact absurd hmem (Finset.notMem_empty _)
    · exact .inr (by omega)

theorem contains_merge_one (hroom : Admits members u) (now : ℚ) (id : Text) :
    (merge_one members u now false).contains id = (id = u.node_id || members.contains id) := by
  unfold Table.contains
  cases hget : members.get u.node_id with
  | some m =>
    rw [merge_one_of_some hget, get_modify]
    by_cases hid : id = u.node_id
    · subst hid
      simp [hget]
    · simp [hid]
  | none =>
    rw [merge_one_of_none hget (hroom.room hget), get_insert]
    by_cases hid : id = u.node_id
    · simp [hid]
    · simp [hid]

theorem Fits.tail
    (h : Fits members (u :: us)) (now : ℚ) : Fits (merge_one members u now false) us := by
  have hroom := h.admits
  by_cases hc : members.contains u.node_id = true
  · -- the node is known: neither the number of members nor the newcomers change
    obtain ⟨m, hm⟩ := Option.isSome_iff_exists.mp hc
    have hlen : (merge_one members u now false).len = members.len := by
      rw [merge_one_of_some hm, len_modify]
    have hnew : newcomers (merge_one members u now false) us = newcomers members (u :: us) := by
      ext id
      simp only [mem_newcomers, contains_merge_one hroom, mem_cons, exists_eq_or_imp]
      by_cases hid : id = u.node_id
      · subst hid
        simp [hc]
      · simp [hid, Ne.symm hid]
    unfold Fits
    rw [hlen, hnew]
    exact h
  · -- the node is new: it takes a place, and is a newcomer no longer
    have hcfalse := Bool.eq_false_of_not_eq_true hc
    have hget : members.get u.node_id = none :=
      Option.not_isSome_iff_eq_none.mp fun hs => hc hs
    have hnotin : u.node_id ∉ newcomers (merge_one members u now false) us := by
      rw [mem_newcomers, contains_merge_one hroom]
      simp
    have hnew : newcomers members (u :: us) =
        insert u.node_id (newcomers (merge_one members u now false) us) := by
      ext id
      simp only [mem_newcomers, contains_merge_one hroom, mem_cons, exists_eq_or_imp,
        Finset.mem_insert]
      by_cases hid : id = u.node_id
      · subst hid
        simp [hcfalse]
      · simp [hid, Ne.symm hid]
    have hlen : (merge_one members u now false).len = members.len + 1 := by
      rw [merge_one_of_none hget (hroom.room hget), len_insert_of_none hget]
    unfold Fits at h ⊢
    rw [hnew, Finset.card_insert_of_notMem hnotin] at h
    rw [hlen]
    rcases h with hnone | hle
    · exact absurd hnone (Finset.insert_ne_empty _ _)
    · exact .inr (by omega)

/-- **After any number of updates** a node has the supremum of its rank and of the updates about it.
-/
theorem rank_of_merge_all {us : List (MemberUpdate × ℚ)}
    (hfits : Fits members (us.map Prod.fst)) (id : Text) :
    rank_of (merge_all members us) id =
      rank_of members id ⊔ (us.map Prod.fst).toFinset.sup fun u => u.about id := by
  induction us generalizing members with
  | nil => simp [merge_all]
  | cons u us ih =>
    obtain ⟨u, now⟩ := u
    rw [map_cons] at hfits
    have hrest := ih (hfits.tail now)
    calc rank_of (merge_all members ((u, now) :: us)) id
        = rank_of (merge_all (merge_one members u now false) us) id := rfl
      _ = (rank_of members id ⊔ u.about id) ⊔
            (us.map Prod.fst).toFinset.sup fun u => u.about id := by
          rw [hrest, rank_of_merge_one hfits.admits]
      _ = _ := by
          rw [map_cons, toFinset_cons, Finset.sup_insert, sup_assoc]

theorem view_eq_of_rank_of_eq {members' : Members} {id : Text}
    (h : rank_of members id = rank_of members' id) : view members id = view members' id := by
  unfold rank_of at h
  unfold view
  cases hm : members.get id with
  | none =>
    cases hm' : members'.get id with
    | none => rfl
    | some m' =>
      rw [hm, hm'] at h
      exact absurd h.symm (WithBot.coe_ne_bot)
  | some m =>
    cases hm' : members'.get id with
    | none =>
      rw [hm, hm'] at h
      exact absurd h (WithBot.coe_ne_bot)
    | some m' =>
      rw [hm, hm'] at h
      have hrank : m.rank = m'.rank := WithBot.coe_injective h
      have hpair := congrArg ofLex hrank
      simp only [rank, ofLex_toLex, Prod.mk.injEq, UInt64.toNat_inj] at hpair
      simp [hpair]

/-- **Membership merge is order-independent**: two lists with the same updates, in whatever order
and with whatever repetitions, lead to the same incarnation and state of every node; its rank is
the supremum of the one before and the updates; and a node that has left stays so while no update
carries a higher incarnation. -/
theorem membership_merge_join (members : Members) (us us' : List (MemberUpdate × ℚ))
    (hfits : Fits members (us.map Prod.fst))
    (hsame : ∀ u, u ∈ us.map Prod.fst ↔ u ∈ us'.map Prod.fst) :
    (∀ id, view (merge_all members us) id = view (merge_all members us') id) ∧
    (∀ id, rank_of (merge_all members us) id =
      rank_of members id ⊔ (us.map Prod.fst).toFinset.sup fun u => u.about id) ∧
    ∀ id m, members.get id = some m → m.state = .Left →
      (∀ u ∈ us.map Prod.fst, u.node_id = id → u.incarnation ≤ m.incarnation) →
      view (merge_all members us) id = some (m.incarnation, .Left) := by
  refine ⟨fun id => ?_, rank_of_merge_all hfits, ?_⟩
  · have hfits' : Fits members (us'.map Prod.fst) := by
      unfold Fits at hfits ⊢
      rwa [← newcomers_congr hsame]
    apply view_eq_of_rank_of_eq
    rw [rank_of_merge_all hfits, rank_of_merge_all hfits',
      show (us.map Prod.fst).toFinset = (us'.map Prod.fst).toFinset from List.toFinset.ext hsame]
  · intro id m hm hleft hinc
    have hbelow : ((us.map Prod.fst).toFinset.sup fun u => u.about id) ≤ rank_of members id := by
      apply Finset.sup_le
      intro u hu
      unfold MemberUpdate.about
      split
      · rename_i hid
        unfold rank_of
        rw [hm]
        exact WithBot.coe_le_coe.mpr (rank_le_of_left hleft (hinc u (mem_toFinset.mp hu) hid))
      · exact bot_le
    have hrank : rank_of (merge_all members us) id = rank_of members id := by
      rw [rank_of_merge_all hfits, sup_eq_left.mpr hbelow]
    rw [view_eq_of_rank_of_eq hrank, view, hm, Option.map_some, hleft]

theorem membership_merge_join_sample :
    let members : Members := Table.empty.insert [1] ⟨[1], [], 3, .Alive, 0, 0⟩
    let suspect : MemberUpdate := ⟨[1], [], 3, .Suspect⟩
    let refuted : MemberUpdate := ⟨[1], [], 4, .Alive⟩
    let left : MemberUpdate := ⟨[2], [], 7, .Left⟩
    ∀ id, view (merge_all members [(suspect, 1), (refuted, 2), (left, 3)]) id =
      view (merge_all members [(left, 1), (refuted, 2), (suspect, 3), (left, 4)]) id := by
  intro members suspect refuted left
  exact (membership_merge_join members _ _ (by decide +kernel) (by
    intro u
    simp only [map_cons, map_nil, mem_cons, not_mem_nil, or_false]
    tauto)).1

end Saacp
