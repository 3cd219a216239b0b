/-
**Runs of an `RRBCGateway`**: any number of calls, each on a thread of its own, under any schedule
of their critical sections. Every section comes with the reading of the clock it sees. The results
are about the redemptions of one token, and about those with one nonce.
-/
import Mathlib.Data.Finset.Card
import Saacp.Rrbc

set_option autoImplicit false

open ByteCodec Atomic

namespace Saacp

open Execution Option RRBCGateway Table Finset List

inductive RrbcCall
  | redeem_token_with_pop (p : Presentation)
  | issue_token (jti : Text) (issuer_secret : List UInt8) (grant : RrbcGrant)
  | revoke_token (jti : Text)
  | prune_expired_replay_entries
  | clear_replay_registry

inductive RrbcAnswer
  | redeemed (answer : Except Fault RRBCRedemptionResult)
  | issued (answer : Except Fault Text)
  | revoked (answer : Except Fault Unit)
  | dropped (n : ℕ)

def RrbcAnswer.redeems (jti : Text) : RrbcAnswer → Bool
  | .redeemed (.ok result) => result.jti = jti
  | _ => false

theorem RrbcAnswer.redeems_iff {answer : Option RrbcAnswer} {jti : Text} :
    answer.any (redeems jti) = true ↔
      ∃ result, answer = some (.redeemed (.ok result)) ∧ result.jti = jti := by
  cases answer with
  | none => simp
  | some a => fun_cases redeems jti a <;> simp_all [redeems]

def RrbcCall.prog (H : Hashes) (X : Crates) (base64_encode : List UInt8 → Text) :
    RrbcCall → Prog RrbcSection RrbcAnswer
  | redeem_token_with_pop p => (Saacp.redeem_token_with_pop H X p).map .redeemed
  | issue_token jti issuer_secret grant =>
    (Saacp.issue_token H X base64_encode jti issuer_secret grant).map .issued
  | revoke_token jti => (performed (.revoke jti)).map .revoked
  | prune_expired_replay_entries => (Prog.step .prune .ret).map .dropped
  | clear_replay_registry => (Prog.step .clear .ret).map .dropped

def RrbcSection.Registers (jti : Text) {γ : Type} : RrbcSection γ → Prop
  | .register jti' _ => jti' = jti
  | _ => False

def RrbcSection.Clears {γ : Type} : RrbcSection γ → Prop
  | .clear => True
  | _ => False

/-- Calls, where they start from, and in which order their sections are performed. -/
structure RrbcRun (H : Hashes) (X : Crates) (base64_encode : List UInt8 → Text) where
  calls : List RrbcCall
  start : RRBCGateway
  ticks : List (Tick ℚ Empty)

variable {H : Hashes} {X : Crates} {base64_encode : List UInt8 → Text}

namespace RrbcRun

def run (r : RrbcRun H X base64_encode) : Execution RrbcSection ℚ RRBCGateway Empty RrbcAnswer where
  sem := rrbc_sections
  act := nofun
  start := ⟨r.calls.map (·.prog H X base64_encode), r.start⟩
  ticks := r.ticks

def redeemed (r : RrbcRun H X base64_encode) (n : ℕ) (jti : Text) : ℕ :=
  ((Finset.range r.calls.length).filter fun i =>
    (r.run.answer n i).any (RrbcAnswer.redeems jti) = true).card

variable {r : RrbcRun H X base64_encode}

theorem prog_zero {i : ℕ} {c : RrbcCall} (h : r.calls[i]? = some c) :
    r.run.prog 0 i = some (c.prog H X base64_encode) :=
  prog_zero_of_call rfl h

def OfCall (c : RrbcCall) {γ : Type} (act : RrbcSection γ) : Prop :=
  (∀ jti, act.Registers jti → ∃ secret grant, c = .issue_token jti secret grant) ∧
    (act.Clears → c = .clear_replay_registry)

theorem prog_only (c : RrbcCall) : (c.prog H X base64_encode).Only (OfCall c) := by
  cases c with
  | redeem_token_with_pop p =>
    refine Prog.Only.map _ (Prog.Only.andThen trivial fun data => ?_)
    refine Prog.Only.andThen ?_ fun _ => ?_
    · refine Prog.Only.andThen ⟨⟨nofun, nofun⟩, fun _ => trivial⟩ fun revoked => ?_
      split_ifs
      · trivial
      · exact ⟨⟨nofun, nofun⟩, fun _ => trivial⟩
    · refine Prog.Only.andThen ⟨⟨nofun, nofun⟩, fun _ => trivial⟩ fun _ => ?_
      exact Prog.Only.andThen ⟨⟨nofun, nofun⟩, fun _ => trivial⟩ fun _ => trivial
  | issue_token jti secret grant =>
    refine Prog.Only.map _ ⟨⟨nofun, nofun⟩, fun now => ?_⟩
    simp only
    split_ifs
    · trivial
    · refine Prog.Only.andThen ⟨⟨?_, nofun⟩, fun _ => trivial⟩ fun _ => trivial
      rintro jti' rfl
      exact ⟨secret, grant, rfl⟩
  | revoke_token | prune_expired_replay_entries =>
    exact Prog.Only.map _ ⟨⟨nofun, nofun⟩, fun _ => trivial⟩
  | clear_replay_registry => exact Prog.Only.map _ ⟨⟨nofun, fun _ => rfl⟩, fun _ => trivial⟩

theorem performs_of_call {n i : ℕ} {γ : Type} {act : RrbcSection γ}
    (h : r.run.Performs n i act) : ∃ c ∈ r.calls, OfCall c act := by
  obtain ⟨c, hc, hact⟩ := h.of_call (P := fun c => OfCall c) rfl prog_only
  exact ⟨c, mem_of_getElem? hc, hact⟩

/-! ## The way of a redemption -/

/-- Entry `x` of the schedule is a section of thread `i` that is granted, at `now`. -/
structure Granted (r : RrbcRun H X base64_encode) (i : ℕ) {α : Type}
    (act : RrbcSection (Except Fault α)) (a : α) (x : ℕ) (now : ℚ) : Prop where
  tick : r.ticks[x]? = some (.thread i now)
  performs : r.run.Performs x i act
  state : r.run.state (x + 1) = ((r.run.state x).exec now act).1
  answer : ((r.run.state x).exec now act).2 = .ok a

theorem performed_trail {i n l : ℕ} {α : Type} {act : RrbcSection (Except Fault α)} {a : α}
    (h : r.run.Trail i (performed act) n (.ret (.ok a)) l) :
    ∃ x now, n ≤ x ∧ x < l ∧ r.Granted i act a x now := by
  obtain ⟨x, now, hnx, hxl, ht, hx, hstate, hdone⟩ := h.of_step_ret_at
  exact ⟨x, now, hnx, hxl, ht, hx, hstate, (Prog.ret.inj hdone.of_ret).symm⟩

theorem finish_redemption_ok {data : Json} {rnonce : Text} {pop_proof : Option (List UInt8)}
    {remaining : ℤ} {result : RRBCRedemptionResult}
    (h : (finish_redemption X data rnonce pop_proof remaining).mapError Fault.drop = .ok result) :
    result.jti = claim_text data "jti" := by
  unfold finish_redemption at h
  cases hpop : check_pop X data rnonce pop_proof with
  | error err =>
    rw [hpop] at h
    cases h
  | ok u =>
    rw [hpop] at h
    cases hclass : rrbc_action_class data with
    | error err =>
      rw [hclass] at h
      cases h
    | ok c =>
      rw [hclass] at h
      cases h
      rfl

/-- **A redemption that succeeds** has spent its nonce, and then a use. -/
theorem redeem_trail {i n : ℕ} {p : Presentation} {result : RRBCRedemptionResult}
    (hi : r.calls[i]? = some (.redeem_token_with_pop p))
    (h : r.run.answer n i = some (.redeemed (.ok result))) :
    ∃ exp max_use remaining x y now now', x < y ∧ y < n ∧
      r.Granted i (.consume (result.jti, p.rnonce, p.presenting_sid) exp) () x now ∧
      r.Granted i (.use result.jti max_use) remaining y now' := by
  obtain ⟨c, hsame, htrail⟩ := trail_map_answer h (prog_zero hi)
  cases hsame
  obtain ⟨data, m₁, -, htrail⟩ := htrail.of_andThen_ok
  obtain ⟨u, m₂, -, htrail⟩ := htrail.of_andThen_ok
  obtain ⟨u, m₃, hconsume, htrail⟩ := htrail.of_andThen_ok
  obtain ⟨remaining, m₄, huse, htrail⟩ := htrail.of_andThen_ok
  have hjti : result.jti = claim_text data "jti" :=
    finish_redemption_ok (Prog.ret.inj htrail.of_ret).symm
  obtain ⟨x, now, -, hxm, hx⟩ := performed_trail hconsume
  obtain ⟨y, now', hmy, hym, hy⟩ := performed_trail huse
  have hlast := htrail.le
  rw [hjti]
  exact ⟨_, _, remaining, x, y, now, now', by omega, by omega, hx, hy⟩

end RrbcRun

/-! ## How often a token is redeemed -/

def RRBCGateway.uses_left (g : RRBCGateway) (jti : Text) : ℕ :=
  ((g.get_remaining_uses jti).getD 0).toNat

section Counter

variable {g g' : RRBCGateway} {jti : Text}

def RRBCGateway.CountsDown (jti : Text) (g g' : RRBCGateway) : Prop :=
  (g'.get_remaining_uses jti).isSome ∧ g'.uses_left jti ≤ g.uses_left jti

theorem counts_down_of_get {rec rec' : RRBCTokenRecord} (h : g.tokens.get jti = some rec)
    (h' : g'.tokens.get jti = some rec') (hle : rec'.remaining ≤ max 0 rec.remaining) :
    RRBCGateway.CountsDown jti g g' := by
  unfold RRBCGateway.CountsDown uses_left get_remaining_uses
  rw [h, h']
  refine ⟨rfl, ?_⟩
  simp only [map_some, getD_some]
  omega

/-- **No section but the one that sets it up** takes the counter away or puts it up. -/
theorem exec_counts_down {γ : Type} {act : RrbcSection γ} (now : ℚ)
    (hcounted : (g.get_remaining_uses jti).isSome) (hact : ¬ act.Registers jti) :
    RRBCGateway.CountsDown jti g (g.exec now act).1 := by
  obtain ⟨rec, hrec⟩ : ∃ rec, g.tokens.get jti = some rec := by
    rw [get_remaining_uses, isSome_map] at hcounted
    exact isSome_iff_exists.mp hcounted
  have hkept : ∀ g', g'.tokens.get jti = some rec → RRBCGateway.CountsDown jti g g' :=
    fun g' h' => counts_down_of_get hrec h' (le_max_right _ _)
  cases act with
  | now | is_jti_revoked | prune | clear => exact hkept _ hrec
  | consume key exp =>
    refine hkept _ ?_
    obtain ⟨d, hrefused⟩ | ⟨-, hspent⟩ := consume_cases g key exp now
    · rw [RRBCGateway.exec, hrefused]
      exact hrec
    · rw [RRBCGateway.exec, hspent]
      exact hrec
  | use jti' max_use =>
    rw [RRBCGateway.exec]
    obtain ⟨poisoned, hpanic⟩ | hrefused | ⟨found, hget, hpos, hgranted⟩ | ⟨-, hgranted⟩ :=
      use_cases g jti' max_use
    · rw [hpanic]
      exact hkept _ hrec
    · rw [hrefused]
      exact hkept _ hrec
    · rw [hgranted]
      by_cases hjti : jti' = jti
      · subst hjti
        obtain rfl : found = rec := Option.some.inj (hget.symm.trans hrec)
        refine counts_down_of_get hrec (get_insert_self _ _ _) ?_
        show found.remaining - 1 ≤ _
        omega
      · refine hkept _ ?_
        simp only [get_insert, Ne.symm hjti, if_false, hrec]
    · rw [hgranted]
      exact hkept _ hrec
  | register jti' max_use =>
    have hjti : jti ≠ jti' := by
      rintro rfl
      exact hact rfl
    refine hkept _ ?_
    rw [RRBCGateway.exec, RRBCGateway.register]
    split_ifs
    · exact hrec
    · simp only [get_insert, hjti, if_false, hrec]
  | revoke jti' =>
    rw [RRBCGateway.exec, RRBCGateway.revoke_token]
    split_ifs
    · exact hkept _ hrec
    · exact hkept _ hrec
    · by_cases hjti : jti = jti'
      · subst hjti
        have hzero : (g.tokens.modify jti fun _ => ⟨0⟩).get jti = some ⟨0⟩ := by
          rw [get_modify_self, hrec]
          rfl
        exact counts_down_of_get hrec hzero (le_max_left _ _)
      · refine hkept _ ?_
        simp only [get_modify, hjti, if_false, hrec]

theorem use_counts {max_use remaining : ℤ} (hcounted : (g.get_remaining_uses jti).isSome)
    (h : (g.use jti max_use).2 = .ok remaining) :
    (g.use jti max_use).1.uses_left jti < g.uses_left jti := by
  obtain ⟨poisoned, hpanic⟩ | hrefused | ⟨rec, hget, hpos, hgranted⟩ | ⟨hnone, -⟩ :=
    use_cases g jti max_use
  · rw [hpanic] at h
    cases h
  · rw [hrefused] at h
    cases h
  · rw [hgranted]
    unfold uses_left get_remaining_uses
    rw [get_insert_self, hget]
    simp only [map_some, getD_some]
    omega
  · rw [get_remaining_uses, hnone] at hcounted
    cases hcounted

end Counter

theorem card_descents_add_le (f : ℕ → ℕ) (hdown : ∀ n, f (n + 1) ≤ f n) (n : ℕ) :
    ((Finset.range n).filter fun x => f (x + 1) < f x).card + f n ≤ f 0 := by
  induction n with
  | zero => simp
  | succ n ih =>
    have hn := hdown n
    rw [Finset.range_add_one, Finset.filter_insert]
    split_ifs with hlt
    · rw [card_insert_of_notMem (by simp)]
      omega
    · omega

namespace RrbcRun

section Bounded

variable {r : RrbcRun H X base64_encode} {jti : Text}

variable (hfresh : ∀ secret grant, .issue_token jti secret grant ∉ r.calls)
include hfresh

theorem counts_down_succ (n : ℕ) (hcounted : ((r.run.state n).get_remaining_uses jti).isSome) :
    RRBCGateway.CountsDown jti (r.run.state n) (r.run.state (n + 1)) := by
  refine r.run.rel_succ (RRBCGateway.CountsDown jti) ⟨hcounted, le_refl _⟩ nofun ?_
  intro i now γ act hact
  obtain ⟨c, hc, hof⟩ := performs_of_call hact
  refine exec_counts_down now hcounted fun hregisters => ?_
  obtain ⟨secret, grant, rfl⟩ := hof.1 jti hregisters
  exact hfresh secret grant hc

theorem counted (hstart : (r.start.get_remaining_uses jti).isSome) (n : ℕ) :
    ((r.run.state n).get_remaining_uses jti).isSome := by
  induction n with
  | zero => exact hstart
  | succ n ih => exact (counts_down_succ hfresh n ih).1

/-- **A token with a counter** is redeemed at most as often as it says. -/
theorem redeemed_le_uses_left (hstart : (r.start.get_remaining_uses jti).isSome) (n : ℕ) :
    r.redeemed n jti ≤ r.start.uses_left jti := by
  have hcounted := counted hfresh hstart
  have hbound := card_descents_add_le (fun n => (r.run.state n).uses_left jti)
    (fun n => (counts_down_succ hfresh n (hcounted n)).2) n
  -- every redemption has taken the counter down, at a place of its own
  have hplace : ∀ i ∈ (Finset.range r.calls.length).filter fun i =>
      (r.run.answer n i).any (RrbcAnswer.redeems jti) = true,
      ∃ y, y < n ∧ (r.run.state (y + 1)).uses_left jti < (r.run.state y).uses_left jti ∧
        ∃ max_use, r.run.Performs y i (.use jti max_use) := by
    intro i hi
    obtain ⟨result, hanswer, rfl⟩ := RrbcAnswer.redeems_iff.mp (Finset.mem_filter.mp hi).2
    obtain ⟨p, hp⟩ : ∃ p, r.calls[i]? = some (.redeem_token_with_pop p) := by
      obtain ⟨c, hc⟩ := call_of_prog rfl (answer_eq_some.mp hanswer)
      cases c with
      | redeem_token_with_pop p => exact ⟨p, hc⟩
      | _ =>
        obtain ⟨b, hb, -⟩ := trail_map_answer hanswer (prog_zero hc)
        cases hb
    obtain ⟨exp, max_use, remaining, x, y, now, now', -, hyn, -, hy⟩ := redeem_trail hp hanswer
    refine ⟨y, hyn, ?_, max_use, hy.performs⟩
    rw [hy.state]
    exact use_counts (hcounted y) hy.answer
  choose! place hlt hdown huse using hplace
  have hcard := card_le_card_of_injOn place
    (t := (Finset.range n).filter fun x =>
      (r.run.state (x + 1)).uses_left jti < (r.run.state x).uses_left jti)
    (fun i hi => Finset.mem_filter.mpr ⟨Finset.mem_range.mpr (hlt i hi), hdown i hi⟩)
    (by
      intro i hi j hj hij
      obtain ⟨max_use, hperforms⟩ := huse i hi
      obtain ⟨max_use', hperforms'⟩ := huse j hj
      rw [← hij] at hperforms'
      exact (hperforms.unique hperforms').1)
  have hzero : (r.run.state 0).uses_left jti = r.start.uses_left jti := rfl
  rw [redeemed]
  omega

omit hfresh

theorem issued_counter {g g' : RRBCGateway} {inp inp' : ℕ → ℚ} {secret : List UInt8}
    {grant : RrbcGrant} {token : Text}
    (h : (issue_token H X base64_encode jti secret grant).run rrbc_sections inp g =
      (inp', g', .ok token)) : g'.get_remaining_uses jti = some grant.max_use.toInt := by
  rw [issue_token, Prog.run_step] at h
  simp only at h
  split_ifs at h
  · cases congrArg (fun x => x.2.2) h
  · rw [Prog.run_andThen, run_performed] at h
    simp only [rrbc_sections, RRBCGateway.exec] at h
    by_cases hpoisoned : g.tokens_poisoned = true
    · rw [RRBCGateway.register, if_pos hpoisoned] at h
      cases congrArg (fun x => x.2.2) h
    · rw [RRBCGateway.register, if_neg hpoisoned] at h
      obtain rfl := congrArg (fun x => x.2.1) h
      rw [get_remaining_uses, Prog.run_ret, get_insert_self]
      rfl

end Bounded

/-- **A token is redeemed at most `max_use` times** by the gateway that has issued it, under any
interleaving with other calls, as long as its id is not drawn a second time. -/
theorem redeemed_at_most_max_use (r : RrbcRun H X base64_encode) (n : ℕ) (g : RRBCGateway)
    (inp inp' : ℕ → ℚ) (jti : Text) (secret : List UInt8) (grant : RrbcGrant) (token : Text)
    (hissued : (issue_token H X base64_encode jti secret grant).run rrbc_sections inp g =
      (inp', r.start, .ok token))
    (hfresh : ∀ secret' grant', .issue_token jti secret' grant' ∉ r.calls) :
    (r.redeemed n jti : ℤ) ≤ max 0 grant.max_use.toInt := by
  have hcounter := issued_counter hissued
  have hbound := redeemed_le_uses_left hfresh (by rw [hcounter]; rfl) n
  rw [uses_left, hcounter, getD_some] at hbound
  omega

end RrbcRun

/-! ## How often a nonce is redeemed -/

section Replay

variable {g : RRBCGateway} {key : ReplayKey} {exp now : ℚ}

variable (hget : g.replay_registry.get key = some exp) (hnow : now < exp)
include hget hnow

theorem pruned_registry_keeps : (g.pruned_registry now).get key = some exp := by
  unfold pruned_registry
  split_ifs
  · exact get_retain.mpr ⟨hget, decide_eq_true hnow⟩
  · exact hget

theorem consume_spent (exp' : ℚ) :
    ∃ d, g.consume key exp' now =
      ({ g with replay_registry := g.pruned_registry now }, .error (.drop d)) := by
  obtain hrefused | ⟨hnew, -⟩ := consume_cases g key exp' now
  · exact hrefused
  · rw [Table.contains, pruned_registry_keeps hget hnow] at hnew
    cases hnew

/-- **A spent key is kept** before it expires, unless the registry is cleared. -/
theorem exec_keeps_key {γ : Type} {act : RrbcSection γ} (hact : ¬ act.Clears) :
    (g.exec now act).1.replay_registry.get key = some exp := by
  cases act with
  | now | is_jti_revoked => exact hget
  | consume key' exp' =>
    rw [RRBCGateway.exec]
    by_cases hkey : key' = key
    · subst hkey
      obtain ⟨d, hrefused⟩ := consume_spent hget hnow exp'
      rw [hrefused]
      exact pruned_registry_keeps hget hnow
    · obtain ⟨d, hrefused⟩ | ⟨-, hspent⟩ := consume_cases g key' exp' now
      · rw [hrefused]
        exact pruned_registry_keeps hget hnow
      · rw [hspent]
        simp only [get_insert, Ne.symm hkey, if_false]
        exact pruned_registry_keeps hget hnow
  | use jti max_use =>
    rw [RRBCGateway.exec]
    obtain ⟨poisoned, hpanic⟩ | hrefused | ⟨rec, -, -, hgranted⟩ | ⟨-, hgranted⟩ :=
      use_cases g jti max_use
    · rw [hpanic]
      exact hget
    · rw [hrefused]
      exact hget
    · rw [hgranted]
      exact hget
    · rw [hgranted]
      exact hget
  | register jti max_use =>
    rw [RRBCGateway.exec, RRBCGateway.register]
    split_ifs
    · exact hget
    · exact hget
  | revoke jti =>
    rw [RRBCGateway.exec, RRBCGateway.revoke_token]
    split_ifs
    · exact hget
    · exact hget
    · exact hget
  | prune => exact get_retain.mpr ⟨hget, decide_eq_true hnow⟩
  | clear => exact absurd trivial hact

end Replay

namespace RrbcRun

def reading : Tick ℚ Empty → ℚ
  | .thread _ now => now

variable (r : RrbcRun H X base64_encode)

def Ordered : Prop := (r.ticks.map reading).Pairwise (· ≤ ·)

def RedeemsKey (n i : ℕ) (key : ReplayKey) : Prop :=
  ∃ p result, r.calls[i]? = some (.redeem_token_with_pop p) ∧
    r.run.answer n i = some (.redeemed (.ok result)) ∧
    (result.jti, p.rnonce, p.presenting_sid) = key

/-- The key is spent before the token expires, and the expiry is the same for all of them. -/
def SpentInTime (key : ReplayKey) : Prop :=
  ∃ exp, ∀ x i now exp', r.ticks[x]? = some (.thread i now) →
    r.run.Performs x i (.consume key exp') → exp' = exp ∧ now < exp

variable {r : RrbcRun H X base64_encode} {key : ReplayKey}

theorem Ordered.le (h : r.Ordered) {x y i j : ℕ} {now now' : ℚ} (hxy : x ≤ y)
    (hx : r.ticks[x]? = some (.thread i now)) (hy : r.ticks[y]? = some (.thread j now')) :
    now ≤ now' := by
  obtain ⟨hxl, hxt⟩ := List.getElem?_eq_some_iff.mp hx
  obtain ⟨hyl, hyt⟩ := List.getElem?_eq_some_iff.mp hy
  rcases hxy.eq_or_lt with rfl | hlt
  · rw [hx] at hy
    cases hy
    exact le_refl _
  · have hle := pairwise_iff_getElem.mp h x y (by simpa using hxl) (by simpa using hyl) hlt
    rw [getElem_map, getElem_map, hxt, hyt] at hle
    exact hle

variable (huncleared : .clear_replay_registry ∉ r.calls)
include huncleared

theorem key_kept (hordered : r.Ordered)
    {x y j : ℕ} {now exp : ℚ} (hxy : x ≤ y) (hy : r.ticks[y]? = some (.thread j now))
    (hnow : now < exp) (hget : (r.run.state x).replay_registry.get key = some exp) :
    (r.run.state y).replay_registry.get key = some exp := by
  refine r.run.rel_of_steps
    (fun g g' => g.replay_registry.get key = some exp → g'.replay_registry.get key = some exp)
    (fun _ h => h) (fun _ _ _ h h' hget => h' (h hget)) hxy ?_ hget
  intro m hxm hmy
  refine r.run.rel_succ_at
    (fun g g' => g.replay_registry.get key = some exp → g'.replay_registry.get key = some exp)
    id nofun ?_
  intro i inp γ act ht hact hbefore
  obtain ⟨c, hc, hof⟩ := performs_of_call hact
  refine exec_keeps_key hbefore ((hordered.le hmy.le ht hy).trans_lt hnow) fun hclears => ?_
  rw [hof.2 hclears] at hc
  exact huncleared hc

theorem not_spent_before (hordered : r.Ordered)
    {i j x y : ℕ} {now now' exp : ℚ} (hx : r.Granted i (.consume key exp) () x now)
    (hy : r.Granted j (.consume key exp) () y now') (hnow : now' < exp) : ¬ x < y := by
  intro hxy
  have hspent : (r.run.state (x + 1)).replay_registry.get key = some exp := by
    rw [hx.state, RRBCGateway.exec]
    have hok := hx.answer
    rw [RRBCGateway.exec] at hok
    obtain ⟨d, hrefused⟩ | ⟨-, hspent⟩ := consume_cases (r.run.state x) key exp now
    · rw [hrefused] at hok
      cases hok
    · rw [hspent]
      exact get_insert_self _ _ _
  have hkept := key_kept huncleared hordered hxy hy.tick hnow hspent
  have hok := hy.answer
  obtain ⟨d, hrefused⟩ := consume_spent hkept hnow exp
  rw [RRBCGateway.exec, hrefused] at hok
  cases hok

omit huncleared

/-- **A nonce is redeemed at most once**, under any interleaving and with a clock that does not go
back, as long as no redemption spends it after the token has expired. -/
theorem redeemed_once (r : RrbcRun H X base64_encode) (key : ReplayKey) (hordered : r.Ordered)
    (huncleared : .clear_replay_registry ∉ r.calls) (htime : r.SpentInTime key) (n i j : ℕ)
    (hi : r.RedeemsKey n i key) (hj : r.RedeemsKey n j key) : i = j := by
  obtain ⟨p, result, hp, hpok, rfl⟩ := hi
  obtain ⟨q, result', hq, hqok, hkey⟩ := hj
  obtain ⟨exp, hexp⟩ := htime
  obtain ⟨exp₁, -, -, x, -, now, -, -, -, hx, -⟩ := redeem_trail hp hpok
  obtain ⟨exp₂, -, -, y, -, now', -, -, -, hy, -⟩ := redeem_trail hq hqok
  rw [hkey] at hy
  obtain ⟨rfl, hnow⟩ := hexp x i now exp₁ hx.tick hx.performs
  obtain ⟨rfl, hnow'⟩ := hexp y j now' exp₂ hy.tick hy.performs
  have hxy : x = y := by
    have h₁ := not_spent_before huncleared hordered hx hy hnow'
    have h₂ := not_spent_before huncleared hordered hy hx hnow
    omega
  subst hxy
  exact (hx.performs.unique hy.performs).1

end RrbcRun

def sampleSchedule (ticks : List (ℕ × ℚ)) : List (Tick ℚ Empty) :=
  ticks.map fun t => .thread t.1 t.2

def sampleRedemptions (start : RRBCGateway) (rnonces : List Text) (ticks : List (ℕ × ℚ)) :
    RrbcRun sampleHashes sampleRrbcCrates (fun _ => []) where
  calls := rnonces.map fun rnonce =>
    .redeem_token_with_pop (samplePresentation sampleRrbcToken (ascii "svc") rnonce none)
  start := start
  ticks := sampleSchedule ticks

def sampleGrant : RrbcGrant where
  issuer_agent := ascii "ops"
  allowed_agents := []
  forbidden_agents := []
  actions := []
  audience := [ascii "svc"]
  sid := ascii "s1"
  cid := []
  oaid := []
  max_use := 1
  ttl_seconds := 1000
  max_action_class := 0
  pop_verifying_key := none

def sampleTurns : List (ℕ × ℚ) := [0, 1, 0, 1, 0, 1, 0, 1].map fun i => (i, 1000)

namespace RrbcRun

theorem redeemed_at_most_max_use_sample :
    let r := sampleRedemptions sampleIssuer [ascii "n1", ascii "n2"] sampleTurns
    r.redeemed 8 (ascii "t1") = 1 ∧
      (r.redeemed 8 (ascii "t1") : ℤ) ≤ max 0 sampleGrant.max_use.toInt := by
  refine ⟨by decide +kernel, ?_⟩
  refine redeemed_at_most_max_use _ 8 RRBCGateway.new (fun _ => 1000) (fun _ => 1000) (ascii "t1")
    (replicate 32 7) sampleGrant [] rfl ?_
  intro secret grant hmem
  simp [sampleRedemptions] at hmem

/-- **A token without a counter** is redeemed for every nonce: a gateway that has not issued the
token, but shares the secret, redeems it twice, although it was issued for one use. -/
theorem redeemed_without_counter :
    let r := sampleRedemptions .new [ascii "n1", ascii "n2"] sampleTurns
    (rrbc_claims sampleHashes sampleRrbcCrates sampleRrbcToken (List.replicate 32 7)).toOption.map
        claim_max_use = some 1 ∧
      r.redeemed 8 (ascii "t1") = 2 := by
  decide +kernel

def sampleReplay : RrbcRun sampleHashes sampleRrbcCrates (fun _ => []) :=
  sampleRedemptions sampleIssuer [ascii "n1", ascii "n1"] sampleTurns

def sampleOdd {γ : Type} : RrbcSection γ → Bool
  | .consume _ exp => exp ≠ 2000
  | _ => false

theorem sampleReplay_in_time : sampleReplay.SpentInTime (ascii "t1", ascii "n1", ascii "s1") := by
  have hexpiry : ∀ x < 8, sampleReplay.run.does sampleOdd x = false := by
    decide +kernel
  have hreadings : ∀ t ∈ sampleReplay.ticks, reading t = 1000 := by
    decide +kernel
  refine ⟨2000, fun x i now exp ht hperforms => ?_⟩
  have hnow : now = 1000 := hreadings _ (mem_of_getElem? ht)
  refine ⟨?_, by rw [hnow]; norm_num⟩
  by_contra hne
  have hdoes := (does_iff (P := sampleOdd)).mpr ⟨i, _, _, hperforms, decide_eq_true hne⟩
  rw [hexpiry x hperforms.lt] at hdoes
  cases hdoes

theorem redeemed_once_sample : sampleReplay.RedeemsKey 8 0 (ascii "t1", ascii "n1", ascii "s1") ∧
      ∀ j, sampleReplay.RedeemsKey 8 j (ascii "t1", ascii "n1", ascii "s1") → 0 = j := by
  have hfirst : sampleReplay.RedeemsKey 8 0 (ascii "t1", ascii "n1", ascii "s1") := by
    have hredeems : (sampleReplay.run.answer 8 0).any (RrbcAnswer.redeems (ascii "t1")) = true := by
      decide +kernel
    obtain ⟨result, hanswer, hjti⟩ := RrbcAnswer.redeems_iff.mp hredeems
    exact ⟨samplePresentation sampleRrbcToken (ascii "svc") (ascii "n1") none, result, rfl, hanswer,
      by rw [hjti]; rfl⟩
  have hordered : sampleReplay.Ordered := by
    norm_num [Ordered, sampleReplay, sampleRedemptions, sampleTurns, sampleSchedule, reading]
  have huncleared : .clear_replay_registry ∉ sampleReplay.calls := by
    simp [sampleReplay, sampleRedemptions]
  exact ⟨hfirst, fun j hj => redeemed_once sampleReplay _ hordered huncleared sampleReplay_in_time
    8 0 j hfirst hj⟩

def samplePruned (ticks : List (ℕ × ℚ)) : RrbcRun sampleHashes sampleRrbcCrates (fun _ => []) where
  calls :=
    let p := samplePresentation sampleRrbcToken (ascii "svc") (ascii "n1") none
    [.redeem_token_with_pop p, .redeem_token_with_pop p, .prune_expired_replay_entries]
  start := .new
  ticks := sampleSchedule ticks

/-- **A replay that succeeds.** The second redemption finds the token valid one second before it
expires. Then the first is redeemed, the clock goes on, and the expired entries are pruned: the
second finds no entry with its nonce. At the very second of the expiry the three calls may even
follow one another: the token is still valid, and its entry is already pruned. -/
theorem replayed_after_prune :
    let overtaken := samplePruned ([1, 1, 0, 0, 0, 0].map (fun i => (i, 1999)) ++
      [2, 1, 1].map fun i => (i, 2001))
    let in_turn := samplePruned ([0, 0, 0, 0, 2, 1, 1, 1, 1].map fun i => (i, 2000))
    overtaken.Ordered ∧ overtaken.redeemed 9 (ascii "t1") = 2 ∧
      in_turn.Ordered ∧ in_turn.redeemed 9 (ascii "t1") = 2 := by
  intro overtaken in_turn
  refine ⟨?_, ?_, ?_, ?_⟩
  · norm_num [Ordered, overtaken, samplePruned, sampleSchedule, reading]
  · decide +kernel
  · norm_num [Ordered, in_turn, samplePruned, sampleSchedule, reading]
  · decide +kernel

end RrbcRun

end Saacp
