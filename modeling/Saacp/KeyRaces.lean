/-
**Keys under concurrent rotation, expiry and revocation.**

Any number of calls of the key lifecycle manager run under any schedule. A section reads, writes the
status of one version, or replaces an active version by the next one (`KeyEffect`); every result
here is about these three. The versions of a key are 1 to some n, and only n can be active. A
revocation and the expiry of keys write what they have decided on an earlier list of versions.
-/
import Saacp.KeyLifecycle
import Mathlib.Data.List.ReduceOption

set_option autoImplicit false

open Atomic ByteCodec

namespace Saacp

open KeyRegistry KeySection List Option Nat

variable {C : KeyCrates}

/-! ## What a section does -/

def KeySection.write {γ : Type} : KeySection C γ → Option (Text × UInt64 × KeyStatus)
  | .update_status kid version status _ => some (kid, version, status)
  | _ => none

inductive KeyEffect (tid : ℕ) (write : Option (Text × UInt64 × KeyStatus)) (s s' : KeyRun C) : Prop
  | reads (hregistry : s'.registry = s.registry) (hrotations : s'.rotations = s.rotations)
  | writes (kid : Text) (v : UInt64) (status : KeyStatus) (rotated_at : Option C.Double)
      (hwrite : write = some (kid, v, status))
      (hregistry : s'.registry = s.registry.update_status kid v status rotated_at)
      (hrotations : s'.rotations = s.rotations)
  | replaces (req : RotationRequest C) (current new_descriptor : KeyDescriptor C)
      (hreplaces : s.registry.Replaces req current new_descriptor s'.registry)
      (hrotations : s'.rotations = s.rotations ++ [⟨tid, req.kid, current.version⟩])

theorem exec_effect (tid : ℕ) {γ : Type} (act : KeySection C γ) (order : MapOrder UInt64)
    (s : KeyRun C) :
    KeyEffect tid act.write s (s.exec tid act order).1 := by
  cases act with
  | update_status kid v status rotated_at => exact .writes kid v status rotated_at rfl rfl rfl
  | atomic_rotate req =>
    rw [KeyRun.exec]
    obtain ⟨e, hsame⟩ | ⟨current, d, reg', hnew, hreplaces⟩ := s.registry.atomic_rotate_cases req
    · rw [hsame]
      exact .reads rfl rfl
    · rw [hnew]
      -- the run records the version that was replaced, the one before the new one
      refine .replaces req current d hreplaces ?_
      show s.rotations ++ [⟨tid, req.kid, d.version - 1⟩] = _
      rw [hreplaces.version_eq, UInt64.add_sub_cancel]
  | atomic_rotate_if_current req expected_version =>
    rw [KeyRun.exec]
    obtain ⟨e, hsame⟩ | hnone | ⟨current, d, reg', rfl, hnew, hreplaces⟩ :=
      s.registry.atomic_rotate_if_current_cases req expected_version
    · rw [hsame]
      exact .reads rfl rfl
    · rw [hnone]
      exact .reads rfl rfl
    · rw [hnew]
      exact .replaces req current d hreplaces rfl
  | _ => exact .reads rfl rfl

variable {tid : ℕ} {write : Option (Text × UInt64 × KeyStatus)} {s s' : KeyRun C} {kid : Text}
  {v : UInt64} {d : KeyDescriptor C}

section

variable (h : KeyEffect tid write s s')
include h

theorem KeyEffect.lasts (hget : s.registry.get kid v = some d) :
    ∃ status rotated_at, s'.registry.get kid v = some { d with status, rotated_at } ∧
      ((status = d.status ∧ rotated_at = d.rotated_at) ∨
        (d.status = .Active ∧ status = .Rotated) ∨ write = some (kid, v, status)) := by
  cases h with
  | reads hregistry _ => exact ⟨_, _, hregistry ▸ hget, .inl ⟨rfl, rfl⟩⟩
  | writes kid' v' status rotated_at hwrite hregistry _ =>
    rw [hregistry, get_update_status]
    by_cases hkey : kid = kid' ∧ v = v'
    · obtain ⟨rfl, rfl⟩ := hkey
      rw [if_pos ⟨rfl, rfl⟩, hget]
      exact ⟨_, _, rfl, .inr (.inr hwrite)⟩
    · rw [if_neg hkey]
      exact ⟨_, _, hget, .inl ⟨rfl, rfl⟩⟩
  | replaces req current next hreplaces _ =>
    rw [hreplaces.get_after]
    by_cases hnew : kid = req.kid ∧ v = next.version
    · -- what is stored is not fresh
      obtain ⟨rfl, rfl⟩ := hnew
      cases hget.symm.trans hreplaces.fresh
    · rw [if_neg hnew]
      by_cases hcurrent : kid = req.kid ∧ v = current.version
      · obtain ⟨rfl, rfl⟩ := hcurrent
        obtain rfl : d = current := some.inj (hget.symm.trans hreplaces.stored)
        rw [if_pos ⟨rfl, rfl⟩]
        exact ⟨_, _, rfl, .inr (.inl ⟨hreplaces.active, rfl⟩)⟩
      · rw [if_neg hcurrent]
        exact ⟨_, _, hget, .inl ⟨rfl, rfl⟩⟩

theorem KeyEffect.get_cases (hget : s'.registry.get kid v = some d) :
    s.registry.get kid v = some d ∨
      (write = some (kid, v, d.status) ∧ (s.registry.get kid v).isSome) ∨
      (d.status = .Rotated ∧ ∃ d', s.registry.get kid v = some d' ∧ d'.status = .Active) ∨
      (s.registry.get kid v = none ∧ ∃ current, s.registry.get kid current.version = some current ∧
          current.status = .Active) := by
  cases h with
  | reads hregistry _ => exact .inl (hregistry ▸ hget)
  | writes kid' v' status rotated_at hwrite hregistry _ =>
    rw [hregistry, get_update_status] at hget
    by_cases hkey : kid = kid' ∧ v = v'
    · rw [if_pos hkey] at hget
      obtain ⟨old, hold, rfl⟩ := map_eq_some_iff.mp hget
      obtain ⟨rfl, rfl⟩ := hkey
      exact .inr (.inl ⟨hwrite, by rw [hold]; rfl⟩)
    · rw [if_neg hkey] at hget
      exact .inl hget
  | replaces req current next hreplaces _ =>
    rw [hreplaces.get_after] at hget
    by_cases hnew : kid = req.kid ∧ v = next.version
    · obtain ⟨rfl, rfl⟩ := hnew
      exact .inr (.inr (.inr ⟨hreplaces.fresh, current, hreplaces.stored, hreplaces.active⟩))
    · rw [if_neg hnew] at hget
      by_cases hcurrent : kid = req.kid ∧ v = current.version
      · obtain ⟨rfl, rfl⟩ := hcurrent
        rw [if_pos ⟨rfl, rfl⟩] at hget
        cases hget
        exact .inr (.inr (.inl ⟨rfl, current, hreplaces.stored, hreplaces.active⟩))
      · rw [if_neg hcurrent] at hget
        exact .inl hget

theorem KeyEffect.inactive (hget : s.registry.get kid v = some d) (hinactive : d.status ≠ .Active) :
    ∃ d', s'.registry.get kid v = some d' ∧ (d' = d ∨ write = some (kid, v, d'.status)) := by
  obtain ⟨status, rotated_at, hget', ⟨rfl, rfl⟩ | ⟨hactive, -⟩ | hwrite⟩ := h.lasts hget
  · exact ⟨d, hget', .inl rfl⟩
  · exact absurd hactive hinactive
  · exact ⟨_, hget', .inr hwrite⟩

omit h

end

/-! ## Versions -/

/-- The versions of a key are 1 to `n`; those below `n` were replaced one after the other. -/
structure KeyRun.Versions (s : KeyRun C) (kid : Text) (n : ℕ) : Prop where
  stored : ∀ v, (s.registry.get kid v).isSome ↔ 1 ≤ v.toNat ∧ v.toNat ≤ n
  active : ∀ v d, s.registry.get kid v = some d → d.status = .Active → v.toNat = n
  replaced : (s.rotations.filter (·.kid = kid)).map (·.version.toNat) = List.range' 1 (n - 1)

variable {status : KeyStatus} {rotated_at : Option C.Double} {req : RotationRequest C}

namespace KeyRun.Versions

variable {n : ℕ}

theorem start_none {reg : KeyRegistry C} (hnone : ∀ v, reg.get kid v = none) :
    KeyRun.Versions ⟨reg, [], []⟩ kid 0 where
  stored v := by
    rw [hnone]
    simp only [isSome_none, Bool.false_eq_true, false_iff]
    omega
  active v d hget := nomatch (hnone v).symm.trans hget
  replaced := rfl

theorem start {reg : KeyRegistry C}
    (hstart : ∀ v d, reg.get kid v = some d → v = 1 ∧ d.status = .Active) :
    ∃ n, KeyRun.Versions ⟨reg, [], []⟩ kid n := by
  cases hfirst : reg.get kid 1 with
  | none =>
    refine ⟨0, start_none fun v => ?_⟩
    by_contra hsome
    obtain ⟨d, hd⟩ := ne_none_iff_exists'.mp hsome
    obtain ⟨rfl, -⟩ := hstart v d hd
    cases hfirst.symm.trans hd
  | some d =>
    refine ⟨1, ?_, ?_, rfl⟩
    · intro v
      constructor
      · intro hsome
        obtain ⟨d', hd'⟩ := isSome_iff_exists.mp hsome
        obtain ⟨rfl, -⟩ := hstart v d' hd'
        decide
      · intro hone
        obtain rfl : v = 1 := UInt64.toNat.inj (le_antisymm hone.2 hone.1)
        exact isSome_iff_exists.mpr ⟨d, hfirst⟩
    · intro v d' hget _
      obtain ⟨rfl, -⟩ := hstart v d' hget
      rfl

variable (h : s.Versions kid n)
include h

theorem writes {kid' : Text} {v : UInt64} (hstatus : status ≠ .Active)
    (hregistry : s'.registry = s.registry.update_status kid' v status rotated_at)
    (hrotations : s'.rotations = s.rotations) : s'.Versions kid n where
  stored v' := by
    rw [hregistry, get_update_status, ← h.stored]
    by_cases hkey : kid = kid' ∧ v' = v
    · obtain ⟨rfl, rfl⟩ := hkey
      rw [if_pos ⟨rfl, rfl⟩, isSome_map]
    · rw [if_neg hkey]
  active v' d hget hactive := by
    rw [hregistry, get_update_status] at hget
    by_cases hkey : kid = kid' ∧ v' = v
    · rw [if_pos hkey] at hget
      obtain ⟨old, -, rfl⟩ := map_eq_some_iff.mp hget
      exact absurd hactive hstatus
    · rw [if_neg hkey] at hget
      exact h.active v' d hget hactive
  replaced := by
    rw [hrotations]
    exact h.replaced

theorem replaces {current next : KeyDescriptor C} (hkid : req.kid = kid)
    (hreplaces : s.registry.Replaces req current next s'.registry)
    (hrotations : s'.rotations = s.rotations ++ [⟨tid, req.kid, current.version⟩]) :
    s'.Versions kid (n + 1) := by
  subst hkid
  have hlast := h.active _ _ hreplaces.stored hreplaces.active
  have hnext := hreplaces.toNat_version
  have hpos : 1 ≤ n := by
    have hstored := (h.stored current.version).mp (by rw [hreplaces.stored]; rfl)
    omega
  refine ⟨?_, ?_, ?_⟩
  · intro v
    rw [hreplaces.get_after]
    by_cases hnew : v = next.version
    · rw [if_pos ⟨rfl, hnew⟩, hnew]
      simp only [isSome_some, true_iff]
      omega
    · have hne : v.toNat ≠ next.version.toNat := fun heq => hnew (UInt64.toNat.inj heq)
      rw [if_neg (fun hboth => hnew hboth.2)]
      by_cases hcurrent : v = current.version
      · rw [if_pos ⟨rfl, hcurrent⟩, hcurrent]
        simp only [isSome_some, true_iff]
        omega
      · rw [if_neg (fun hboth => hcurrent hboth.2), h.stored]
        omega
  · intro v d hget hactive
    rw [hreplaces.get_after] at hget
    by_cases hnew : v = next.version
    · rw [hnew]
      omega
    · rw [if_neg (fun hboth => hnew hboth.2)] at hget
      by_cases hcurrent : v = current.version
      · rw [if_pos ⟨rfl, hcurrent⟩] at hget
        cases hget
        cases hactive
      · rw [if_neg (fun hboth => hcurrent hboth.2)] at hget
        -- another active version would be the last one too
        have hsame := h.active v d hget hactive
        exact absurd (UInt64.toNat.inj (hsame.trans hlast.symm)) hcurrent
  · -- versions 1 to n - 1 were replaced so far, and now n
    rw [hrotations, filter_append, map_append, h.replaced]
    obtain ⟨m, rfl⟩ := Nat.exists_eq_add_of_le' hpos
    simp only [filter_cons, decide_true, if_true, filter_nil, map_cons, map_nil,
      Nat.add_sub_cancel, hlast]
    rw [range'_1_concat, add_comm]

theorem replaces_other {current next : KeyDescriptor C} (hkid : req.kid ≠ kid)
    (hreplaces : s.registry.Replaces req current next s'.registry)
    (hrotations : s'.rotations = s.rotations ++ [⟨tid, req.kid, current.version⟩]) :
    s'.Versions kid n := by
  have hsame : ∀ v, s'.registry.get kid v = s.registry.get kid v := by
    intro v
    rw [hreplaces.get_after, if_neg (fun hboth => hkid hboth.1.symm),
      if_neg (fun hboth => hkid hboth.1.symm)]
  refine ⟨?_, ?_, ?_⟩
  · intro v
    rw [hsame, h.stored]
  · intro v d hget
    rw [hsame] at hget
    exact h.active v d hget
  · rw [hrotations, filter_append, map_append, h.replaced]
    simp [hkid]

theorem effect (heffect : KeyEffect tid write s s')
    (hwrite : ∀ kid v status, write = some (kid, v, status) → status ≠ .Active) :
    ∃ n', s'.Versions kid n' := by
  cases heffect with
  | reads hregistry hrotations =>
    exact ⟨n, by rw [hregistry]; exact h.stored, by rw [hregistry]; exact h.active,
      by rw [hrotations]; exact h.replaced⟩
  | writes kid' v status rotated_at hw hregistry hrotations =>
    exact ⟨n, h.writes (hwrite kid' v status hw) hregistry hrotations⟩
  | replaces req current next hreplaces hrotations =>
    by_cases hkid : req.kid = kid
    · exact ⟨n + 1, h.replaces hkid hreplaces hrotations⟩
    · exact ⟨n, h.replaces_other hkid hreplaces hrotations⟩

end KeyRun.Versions

/-! ## The writes of a call -/

/-- The statuses that a call may write, and for which key. -/
def KeyCall.Writes : KeyCall C → Text → KeyStatus → Prop
  | .revoke_key kid' reason _, kid, status => kid = kid' ∧ status = revoked_status reason
  | .expire_stale_keys _, _, status => status = .Rotated
  | .rotate_key _ _ _ _, _, _ => False
  | .sweep_and_rotate _ _, _, _ => False

theorem revoked_status_final (reason : Text) :
    revoked_status reason ≠ .Active ∧ revoked_status reason ≠ .Rotated := by
  rw [revoked_status]
  split_ifs <;> decide

theorem KeyCall.Writes.not_active {c : KeyCall C} {kid : Text}
    (h : c.Writes kid status) : status ≠ .Active := by
  cases c with
  | rotate_key | sweep_and_rotate => exact h.elim
  | revoke_key kid' reason now =>
    rw [h.2]
    exact (revoked_status_final reason).1
  | expire_stale_keys now =>
    rw [show status = .Rotated from h]
    decide

def KeySection.Within (P : Text → KeyStatus → Prop) {γ : Type} (act : KeySection C γ) : Prop :=
  ∀ kid v status, act.write = some (kid, v, status) → P kid status

variable {P : Text → KeyStatus → Prop}

theorem KeySection.within_of_write_eq_none {γ : Type}
    {act : KeySection C γ} (h : act.write = none) : act.Within P := by
  intro kid v status hwrite
  cases h.symm.trans hwrite

theorem KeySection.within_update_status {kid : Text} {v : UInt64} (h : P kid status) :
    (KeySection.update_status kid v status rotated_at : KeySection C Unit).Within P := by
  rintro _ _ _ hwrite
  cases hwrite
  exact h

theorem sweep_one_only (P : Text → KeyStatus → Prop) (policy : KeyRotationPolicy C) (now : C.Double)
    (generate_key : Text × UInt64 → KeyAlgorithm → List UInt8) (key : Text × UInt64) :
    (sweep_one policy now generate_key key).Only fun act => act.Within P := by
  refine ⟨within_of_write_eq_none rfl, ?_⟩
  intro result
  cases result with
  | error e => trivial
  | ok d =>
    refine ⟨within_of_write_eq_none rfl, ?_⟩
    intro result
    rcases result with e | _ | d <;> trivial

theorem KeyCall.prog_only (policy : KeyRotationPolicy C) (c : KeyCall C) :
    (c.prog policy).Only fun act => act.Within c.Writes := by
  cases c with
  | rotate_key kid material algorithm now =>
    refine Prog.Only.map _ ⟨within_of_write_eq_none rfl, ?_⟩
    intro result
    rcases result with e | d
    · cases e <;> trivial
    · trivial
  | revoke_key kid reason now =>
    refine Prog.Only.map _ ⟨within_of_write_eq_none rfl, ?_⟩
    intro all_versions
    show Prog.Only _ (if _ then _ else _)
    split_ifs
    · trivial
    · refine Prog.Only.bind (Prog.Only.each ?_ _) ?_
      · intro d
        exact within_update_status ⟨rfl, rfl⟩
      · intro _
        exact ⟨within_of_write_eq_none rfl, fun _ => trivial⟩
  | expire_stale_keys now =>
    refine Prog.Only.map _ ⟨within_of_write_eq_none rfl, ?_⟩
    intro stale
    refine Prog.Only.bind (Prog.Only.each ?_ _) fun _ => trivial
    intro key
    exact within_update_status rfl
  | sweep_and_rotate now generate_key =>
    refine Prog.Only.map _ ?_
    rw [Saacp.sweep_and_rotate]
    split_ifs
    · trivial
    · refine ⟨within_of_write_eq_none rfl, ?_⟩
      intro due
      refine Prog.Only.map _ (Prog.Only.all ?_)
      intro p hp
      obtain ⟨key, -, rfl⟩ := mem_map.mp hp
      exact sweep_one_only _ policy now generate_key key

/-! ## Runs -/

variable {now : C.Double}

variable {r : KeyCalls C} {n m x l i : ℕ}

namespace KeyCalls

theorem prog_zero {c : KeyCall C} (h : r.calls[i]? = some c) :
    r.run.prog 0 i = some (c.prog r.policy) :=
  Execution.prog_zero_of_call rfl h

theorem call_of_write (h : r.run.Performs n i (.update_status kid v status rotated_at)) :
    ∃ c, r.calls[i]? = some c ∧ c.Writes kid status := by
  obtain ⟨c, hc, hwithin⟩ := h.of_call (P := fun c => KeySection.Within c.Writes) rfl
    (KeyCall.prog_only r.policy)
  exact ⟨c, hc, hwithin kid v status rfl⟩

theorem effect_succ (r : KeyCalls C) (n : ℕ) :
    ∃ i write, KeyEffect i write (r.run.state n) (r.run.state (n + 1)) ∧
      ∀ kid v status, write = some (kid, v, status) → status ≠ .Active ∧
        ∃ rotated_at, r.run.Performs n i (.update_status kid v status rotated_at) := by
  obtain hsame | ⟨d, -⟩ | ⟨i, order, γ, act, k, ht, hi, hmoved⟩ := r.run.pool_succ_cases n
  · have hstate : r.run.state (n + 1) = r.run.state n := congrArg Pool.state hsame
    exact ⟨0, none, hstate ▸ .reads rfl rfl, fun _ _ _ h => nomatch h⟩
  · exact d.elim
  · have hstate : r.run.state (n + 1) = ((r.run.state n).exec i act order).1 :=
      congrArg Pool.state hmoved
    refine ⟨i, act.write, hstate ▸ exec_effect i act order (r.run.state n), ?_⟩
    intro kid v status hwrite
    cases act with
    | update_status kid' v' status' rotated_at =>
      cases hwrite
      obtain ⟨c, -, hc⟩ := call_of_write ⟨order, k, ht, hi⟩
      exact ⟨hc.not_active, rotated_at, order, k, ht, hi⟩
    | _ => cases hwrite

theorem lasts (r : KeyCalls C) (hnl : n ≤ l) (hget : (r.run.state n).registry.get kid v = some d) :
    ∃ status rotated_at, (r.run.state l).registry.get kid v = some { d with status, rotated_at } ∧
      (status = d.status ∨ status ≠ .Active) := by
  induction l, hnl using le_induction with
  | base => exact ⟨_, _, hget, .inl rfl⟩
  | succ l hnl ih =>
    obtain ⟨status, rotated_at, hget', hstatus⟩ := ih
    obtain ⟨i, write, heffect, hwrite⟩ := r.effect_succ l
    obtain ⟨_, _, hget'', ⟨rfl, -⟩ | ⟨-, rfl⟩ | hwritten⟩ := heffect.lasts hget'
    · exact ⟨_, _, hget'', hstatus⟩
    · exact ⟨_, _, hget'', .inr (by decide)⟩
    · exact ⟨_, _, hget'', .inr (hwrite _ _ _ hwritten).1⟩

/-- **A version is never lost or reactivated**, whatever the schedule: it stays stored as it is but
for its status and the time of its rotation, and one that is not active does not become active. -/
theorem never_reactivated (r : KeyCalls C) (hget : (r.run.state n).registry.get kid v = some d) :
    ∀ l ≥ n, ∃ status rotated_at,
      (r.run.state l).registry.get kid v = some { d with status, rotated_at } ∧
        (d.status ≠ .Active → status ≠ .Active) := by
  intro l hnl
  obtain ⟨status, rotated_at, hget', hstatus⟩ := r.lasts hnl hget
  exact ⟨status, rotated_at, hget', fun hinactive => hstatus.elim (fun h => h ▸ hinactive) id⟩

theorem versions (r : KeyCalls C)
    (hstart : ∀ kid v d, r.start.get kid v = some d → v = 1 ∧ d.status = .Active)
    (l : ℕ) (kid : Text) : ∃ n, (r.run.state l).Versions kid n := by
  induction l with
  | zero => exact KeyRun.Versions.start (hstart kid)
  | succ l ih =>
    obtain ⟨n, hn⟩ := ih
    obtain ⟨i, write, heffect, hwrite⟩ := r.effect_succ l
    exact hn.effect heffect fun kid v status h => (hwrite kid v status h).1

theorem rotated_if_current {expected_version : UInt64} {order : MapOrder UInt64}
    (hstate : r.run.state (m + 1) =
      ((r.run.state m).exec i (.atomic_rotate_if_current req expected_version) order).1)
    (hanswer : ((r.run.state m).exec i (.atomic_rotate_if_current req expected_version) order).2 =
      .ok (some d)) :
    (∃ current, (r.run.state m).registry.get req.kid expected_version = some current ∧
        current.status = .Active) ∧
      (r.run.state (m + 1)).rotations =
        (r.run.state m).rotations ++ [⟨i, req.kid, expected_version⟩] := by
  rw [hstate]
  rw [KeyRun.exec] at hanswer ⊢
  obtain ⟨e, hsame⟩ | hnone | ⟨current, d', reg', rfl, hnew, hreplaces⟩ :=
    (r.run.state m).registry.atomic_rotate_if_current_cases req expected_version
  · rw [hsame] at hanswer
    cases hanswer
  · rw [hnone] at hanswer
    cases hanswer
  · rw [hnew]
    exact ⟨⟨current, hreplaces.stored, hreplaces.active⟩, rfl⟩

variable {generate_key : Text × UInt64 → KeyAlgorithm → List UInt8}

theorem sweep_one_trail {key : Text × UInt64}
    (h : r.run.Trail i (sweep_one r.policy now generate_key key) n (.ret (some kid)) l) :
    key.1 = kid ∧ ∃ m, n ≤ m ∧ m < l ∧
      (∃ current, (r.run.state m).registry.get kid key.2 = some current ∧
        current.status = .Active) ∧
      (r.run.state (m + 1)).rotations = (r.run.state m).rotations ++ [⟨i, kid, key.2⟩] := by
  obtain ⟨y, _, hny, -, -, -, hfound⟩ := h.of_step_ret
  -- a version that is not found, and a rotation that does not go through, report no key
  split at hfound
  · cases hfound.of_ret
  · rename_i d _
    obtain ⟨m, _, hym, hml, -, hstate, hdone⟩ := hfound.of_step_ret
    split at hdone
    · rename_i d' hanswer
      cases hdone.of_ret
      obtain ⟨hcurrent, hrotations⟩ := rotated_if_current hstate hanswer
      exact ⟨rfl, m, by omega, hml, hcurrent, hrotations⟩
    · cases hdone.of_ret

theorem swept (r : KeyCalls C) {kids : List Text}
    (hcall : r.calls[i]? = some (.sweep_and_rotate now generate_key))
    (hanswer : r.run.answer l i = some (.swept kids)) (hkid : kid ∈ kids) :
    ∃ m < l, ∃ v d, (r.run.state m).registry.get kid v = some d ∧ d.status = .Active ∧
      C.le (C.sub d.expires_at now) r.policy.renewal_lead_seconds = true ∧
      (r.run.state (m + 1)).rotations = (r.run.state m).rotations ++ [⟨i, kid, v⟩] := by
  obtain ⟨kids', hsame, htrail⟩ := Execution.trail_map_answer hanswer (prog_zero hcall)
  cases hsame
  rw [sweep_and_rotate] at htrail
  split_ifs at htrail
  · -- no automatic rotation
    cases htrail.of_ret
    exact absurd hkid not_mem_nil
  obtain ⟨x, order, -, -, -, -, hsweep⟩ := htrail.of_step_ret
  obtain ⟨answers, l', hall, hdone⟩ := hsweep.of_bind_ret
  cases hdone.of_ret
  -- the turn that has answered with this key
  obtain ⟨p, hp, n', l'', hxn, hll, hone⟩ := hall.mem_all_ret (reduceOption_mem_iff.mp hkid)
  obtain ⟨key, hdue, rfl⟩ := mem_map.mp hp
  obtain ⟨rfl, m, hnm, hml, ⟨current, hget, hactive⟩, hrotations⟩ := sweep_one_trail hone
  -- it was due when the list was taken, and its expiry has not changed since then
  obtain ⟨d, hd, -, hexpiring⟩ :=
    mem_active_where.mp ((order.perm _).mem_iff.mp hdue)
  obtain ⟨_, _, hd', -⟩ := r.lasts (show x ≤ m by omega) hd
  cases hd'.symm.trans hget
  have hdone_le := hdone.le
  exact ⟨m, by omega, key.2, _, hget, hactive, hexpiring, hrotations⟩

theorem nodup_rotations {rotations : List KeyRotation}
    (h : ∀ kid, ((rotations.filter (·.kid = kid)).map (·.version.toNat)).Nodup) :
    (rotations.map fun t => (t.kid, t.version)).Nodup := by
  induction rotations with
  | nil => exact nodup_nil
  | cons t ts ih =>
    rw [map_cons, nodup_cons]
    constructor
    · -- a second rotation of the same version would be among those of the same key
      intro hmem
      obtain ⟨t', ht', hsame⟩ := mem_map.mp hmem
      have hkid := h t.kid
      rw [filter_cons_of_pos (by simp), map_cons, nodup_cons] at hkid
      apply hkid.1
      refine mem_map.mpr ⟨t', mem_filter.mpr ⟨ht', ?_⟩, ?_⟩
      · exact decide_eq_true (congrArg Prod.fst hsame)
      · exact congrArg (fun p => p.2.toNat) hsame
    · apply ih
      intro kid
      exact (h kid).sublist (((sublist_cons_self t ts).filter _).map _)

/-- **Versions**: from a registry where every key has version 1 only, the versions of a key are
consecutive at every moment, each is replaced at most once and only the last can be active; and what
a sweep reports it has itself replaced, when it was due. -/
theorem versions_consecutive (r : KeyCalls C)
    (hstart : ∀ kid v d, r.start.get kid v = some d → v = 1 ∧ d.status = .Active) :
    (∀ l kid, ∃ n, (r.run.state l).Versions kid n) ∧
      (∀ l, ((r.run.state l).rotations.map fun t => (t.kid, t.version)).Nodup) ∧
      ∀ i now generate_key kids l kid, r.calls[i]? = some (.sweep_and_rotate now generate_key) →
        r.run.answer l i = some (.swept kids) → kid ∈ kids →
          ∃ m < l, ∃ v d, (r.run.state m).registry.get kid v = some d ∧ d.status = .Active ∧
            C.le (C.sub d.expires_at now) r.policy.renewal_lead_seconds = true ∧
            (r.run.state (m + 1)).rotations = (r.run.state m).rotations ++ [⟨i, kid, v⟩] := by
  refine ⟨r.versions hstart, ?_, fun i now generate_key kids l kid => r.swept⟩
  intro l
  apply nodup_rotations
  intro kid
  obtain ⟨n, hn⟩ := r.versions hstart l kid
  rw [hn.replaced]
  exact nodup_range'

end KeyCalls

/-! ## Revocations -/

/-- A version is stored, and is neither active nor rotated. -/
def KeyRun.Settled (s : KeyRun C) (kid : Text) (v : UInt64) : Prop :=
  ∃ d, s.registry.get kid v = some d ∧ d.status ≠ .Active ∧ d.status ≠ .Rotated

def KeyRun.Final (s : KeyRun C) (kid : Text) : Prop :=
  ∀ v, (s.registry.get kid v).isSome → s.Settled kid v

theorem KeyRun.Settled.effect (h : s.Settled kid v) (heffect : KeyEffect tid write s s')
    (hwrite : ∀ status, write = some (kid, v, status) → status ≠ .Active ∧ status ≠ .Rotated) :
    s'.Settled kid v := by
  obtain ⟨d, hget, hstatus⟩ := h
  obtain ⟨d', hget', rfl | hwritten⟩ := heffect.inactive hget hstatus.1
  · exact ⟨d', hget', hstatus⟩
  · exact ⟨d', hget', hwrite _ hwritten⟩

theorem KeyRun.Final.effect (h : s.Final kid) (heffect : KeyEffect tid write s s')
    (hwrite : ∀ v status, write = some (kid, v, status) → status ≠ .Active ∧ status ≠ .Rotated) :
    s'.Final kid := by
  intro v hsome
  have hstored : (s.registry.get kid v).isSome := by
    obtain ⟨d, hget⟩ := isSome_iff_exists.mp hsome
    obtain hsame | ⟨-, hold⟩ | ⟨-, d', hold, -⟩ | ⟨-, current, hcurrent, hactive⟩ :=
      heffect.get_cases hget
    · rw [hsame]
      rfl
    · exact hold
    · rw [hold]
      rfl
    · -- a new version takes the place of an active one
      obtain ⟨d', hd', hne, -⟩ := h current.version (by rw [hcurrent]; rfl)
      cases hcurrent.symm.trans hd'
      exact absurd hactive hne
  exact (h v hstored).effect heffect (hwrite v)

/-- The answer of a section that lists the versions of a key has this one. -/
def KeySection.Lists (v : UInt64) {γ : Type} : KeySection C γ → γ → Prop
  | .all_for_kid _, versions => ∃ d ∈ versions, d.version = v
  | _, _ => False

theorem revoke_key_followed (kid reason : Text) (now : C.Double) (v : UInt64) :
    (revoke_key kid reason now).Followed (KeySection.Lists v) fun act =>
      act.write = some (kid, v, revoked_status reason) := by
  intro all_versions
  show (_ → Prog.Must _ (if _ then _ else _)) ∧ Prog.Followed _ _ (if _ then _ else _)
  split_ifs with hempty
  · refine ⟨?_, trivial⟩
    rintro ⟨d, hd, -⟩
    rw [isEmpty_iff.mp hempty] at hd
    exact absurd hd not_mem_nil
  · constructor
    · rintro ⟨d, hd, rfl⟩
      exact Prog.Must.bind (Prog.Must.each hd rfl) _
    · refine Prog.Followed.of_only (Prog.Only.bind (Prog.Only.each ?_ _) ?_)
      · intro d _ h
        exact h
      · intro _
        exact ⟨fun _ h => h, fun _ => trivial⟩

namespace KeyCalls

variable {reason : Text}

theorem revoked (r : KeyCalls C) (hcall : r.calls[i]? = some (.revoke_key kid reason now))
    (hlist : r.run.Performs x i (.all_for_kid kid)) (hanswer : (r.run.answer l i).isSome)
    (hstored : ((r.run.state x).registry.get kid v).isSome) :
    ∃ m rotated_at, x < m ∧ m < l ∧
      r.run.Performs m i (.update_status kid v (revoked_status reason) rotated_at) := by
  have hlisted : ∀ order, KeySection.Lists v (.all_for_kid kid : KeySection C _)
      (r.run.sem.exec i (.all_for_kid kid) order (r.run.state x)).2 := by
    intro order
    obtain ⟨d, hd⟩ := isSome_iff_exists.mp hstored
    obtain ⟨-, rfl⟩ := get_keyed hd
    exact ⟨d, mem_all_for_kid.mpr hd, rfl⟩
  obtain ⟨m, γ, act, hxm, hml, hact, hwrite⟩ := hlist.followed (prog_zero hcall)
    ((revoke_key_followed kid reason now v).map _) hlisted hanswer
  cases act with
  | update_status kid' v' status rotated_at =>
    cases hwrite
    exact ⟨m, rotated_at, hxm, hml, hact⟩
  | _ => cases hwrite

theorem listed_of_rotated (h : r.run.Performs m i (.update_status kid v .Rotated rotated_at)) :
    ∃ y now, y < m ∧ r.run.Performs y i (.list_stale now) ∧
      ∃ d, (r.run.state y).registry.get kid v = some d ∧ d.status = .Active := by
  obtain ⟨c, hc, hwrites⟩ := call_of_write h
  cases c with
  | rotate_key | sweep_and_rotate => exact hwrites.elim
  | revoke_key kid' reason now => exact absurd hwrites.2.symm (revoked_status_final reason).2
  | expire_stale_keys now =>
    obtain ⟨k, -, htrail⟩ := h.trail_map (prog_zero hc)
    obtain hfirst | ⟨y, order, -, hym, hy, -, hrest⟩ := htrail.of_step
    · cases congrArg (Prog.next KeySection.write) hfirst
    refine ⟨y, now, hym, hy, ?_⟩
    have honly := hrest.only (P := fun act => ∀ kid v status, act.write = some (kid, v, status) →
      (kid, v) ∈ order.walk ((r.run.state y).registry.list_stale now)) ?_
    · have hmem := honly.1 kid v .Rotated rfl
      obtain ⟨d, hd, hactive, -⟩ := mem_active_where.mp ((order.perm _).mem_iff.mp hmem)
      exact ⟨d, hd, hactive⟩
    · refine Prog.Only.bind (Prog.Only.all ?_) fun _ => trivial
      intro p hp
      obtain ⟨key, hkey, rfl⟩ := mem_map.mp hp
      refine ⟨?_, fun _ => trivial⟩
      intro _ _ _ hwrite
      cases hwrite
      exact hkey

theorem settled_of_le (r : KeyCalls C) (hnl : n ≤ l) (hsettled : (r.run.state n).Settled kid v)
    (hexpired : ∀ m j rotated_at, n ≤ m → m < l →
      ¬ r.run.Performs m j (.update_status kid v .Rotated rotated_at)) :
    (r.run.state l).Settled kid v := by
  induction l, hnl using le_induction with
  | base => exact hsettled
  | succ l hnl ih =>
    obtain ⟨i, write, heffect, hwrite⟩ := r.effect_succ l
    have hbefore := ih fun m j rotated_at hnm hml => hexpired m j rotated_at hnm (by omega)
    refine hbefore.effect heffect ?_
    intro status hstatus
    obtain ⟨hactive, rotated_at, hperforms⟩ := hwrite kid v status hstatus
    refine ⟨hactive, ?_⟩
    rintro rfl
    exact hexpired l i rotated_at hnl (lt_succ_self l) hperforms

theorem settled_of_write
    (h : r.run.Performs m i (.update_status kid v (revoked_status reason) rotated_at))
    (hstored : ((r.run.state m).registry.get kid v).isSome) :
    (r.run.state (m + 1)).Settled kid v := by
  obtain ⟨order, k, -, -, hstate⟩ := h.succ
  obtain ⟨d, hd⟩ := isSome_iff_exists.mp hstored
  refine ⟨{ d with status := revoked_status reason, rotated_at }, ?_, revoked_status_final reason⟩
  rw [hstate]
  show ((r.run.state m).registry.update_status kid v _ rotated_at).get kid v = _
  rw [get_update_status, if_pos ⟨rfl, rfl⟩, hd]
  rfl

/-- No expiry that took its list before position `l` writes this key at `x` or later. -/
def NoExpiry (r : KeyCalls C) (kid : Text) (x l : ℕ) : Prop :=
  ∀ j y m now v rotated_at, r.run.Performs y j (.list_stale now) → y < l → x ≤ m →
    ¬ r.run.Performs m j (.update_status kid v .Rotated rotated_at)

theorem not_rotated (hfinal : ∀ y, l ≤ y → y < m → (r.run.state y).Final kid)
    (hexpired : r.NoExpiry kid x l) (hxm : x ≤ m) (rotated_at : Option C.Double) :
    ¬ r.run.Performs m i (.update_status kid v .Rotated rotated_at) := by
  intro hperforms
  obtain ⟨y, now, hym, hy, d, hd, hactive⟩ := listed_of_rotated hperforms
  by_cases hyl : y < l
  · exact hexpired i y m now v rotated_at hy hyl hxm hperforms
  · -- what it has listed was active at a moment when no version was
    obtain ⟨d', hd', hne, -⟩ := hfinal y (Nat.le_of_not_lt hyl) hym v (by rw [hd]; rfl)
    cases hd.symm.trans hd'
    exact hne hactive

theorem final_of_revoked (hcall : r.calls[i]? = some (.revoke_key kid reason now))
    (hlist : r.run.Performs x i (.all_for_kid kid)) (hanswer : (r.run.answer l i).isSome)
    (hadded : ∀ v, ((r.run.state l).registry.get kid v).isSome →
      ((r.run.state x).registry.get kid v).isSome)
    (hexpired : r.NoExpiry kid x l) : (r.run.state l).Final kid := by
  intro v hsome
  have hstored := hadded v hsome
  obtain ⟨m, rotated_at, hxm, hml, hwrite⟩ := r.revoked hcall hlist hanswer hstored
  have hstill : ((r.run.state m).registry.get kid v).isSome := by
    obtain ⟨d, hd⟩ := isSome_iff_exists.mp hstored
    obtain ⟨_, _, hd', -⟩ := r.lasts hxm.le hd
    rw [hd']
    rfl
  refine r.settled_of_le hml (settled_of_write hwrite hstill) ?_
  intro m' j rotated_at' hmm' hml'
  refine not_rotated (fun y hly hym => ?_) hexpired (by omega) rotated_at'
  omega

theorem final_of_le (hfinal : (r.run.state l).Final kid) (hxl : x ≤ l)
    (hexpired : r.NoExpiry kid x l) : ∀ m ≥ l, (r.run.state m).Final kid := by
  intro m
  induction m using Nat.strong_induction_on with
  | _ m ih =>
    intro hlm
    rcases eq_or_lt_of_le hlm with rfl | hlt
    · exact hfinal
    obtain ⟨m, rfl⟩ := Nat.exists_eq_add_of_lt (Nat.zero_lt_of_lt hlt)
    rw [Nat.zero_add] at hlt ih ⊢
    have hlm' : l ≤ m := Nat.lt_succ_iff.mp hlt
    obtain ⟨i, write, heffect, hwrite⟩ := r.effect_succ m
    refine (ih m (lt_succ_self m) hlm').effect heffect ?_
    intro v status hstatus
    obtain ⟨hactive, rotated_at, hperforms⟩ := hwrite kid v status hstatus
    refine ⟨hactive, ?_⟩
    rintro rfl
    refine not_rotated ?_ hexpired (hxl.trans hlm') rotated_at hperforms
    intro y hly hym
    exact ih y (lt_succ_of_lt hym) hly

theorem compromised_of_le (r : KeyCalls C)
    (hreasons : ∀ (j : ℕ) reason now, r.calls[j]? = some (.revoke_key kid reason now) →
      reason = ascii "compromised") (hexpired : ∀ m j rotated_at, n ≤ m →
      ¬ r.run.Performs m j (.update_status kid v .Rotated rotated_at))
    (hget : (r.run.state n).registry.get kid v = some d) (hstatus : d.status = .Compromised)
    (hnm : n ≤ m) :
    ∃ d', (r.run.state m).registry.get kid v = some d' ∧ d'.status = .Compromised := by
  induction m, hnm using le_induction with
  | base => exact ⟨d, hget, hstatus⟩
  | succ m hnm ih =>
    obtain ⟨d', hd', hstatus'⟩ := ih
    obtain ⟨j, write, heffect, hwrite⟩ := r.effect_succ m
    have hinactive : d'.status ≠ .Active := by
      rw [hstatus']
      decide
    obtain ⟨d'', hd'', rfl | hwritten⟩ := heffect.inactive hd' hinactive
    · exact ⟨d'', hd'', hstatus'⟩
    refine ⟨d'', hd'', ?_⟩
    obtain ⟨-, rotated_at, hperforms⟩ := hwrite kid v d''.status hwritten
    obtain ⟨c, hc, hwrites⟩ := call_of_write hperforms
    cases c with
    | rotate_key | sweep_and_rotate => exact hwrites.elim
    | revoke_key kid' reason now =>
      obtain ⟨rfl, hrevoked⟩ := hwrites
      rw [hrevoked, hreasons j reason now hc]
      rfl
    | expire_stale_keys now =>
      rw [show d''.status = .Rotated from hwrites] at hperforms
      exact absurd hperforms (hexpired m j rotated_at hnm)

/-- **Revocation**: if no version is added between the list that a revocation takes and its return,
and no expiry that overlaps with it writes the key after that list, then no version is active or
rotated ever after; and a version that is compromised stays so if all revocations say so. -/
theorem revocation_final (r : KeyCalls C) {now : C.Double} {record : KeyRevocationRecord C}
    (hcall : r.calls[i]? = some (.revoke_key kid reason now))
    (hlist : r.run.Performs x i (.all_for_kid kid))
    (hanswer : r.run.answer l i = some (.revoked (.ok record)))
    (hadded : ∀ v, ((r.run.state l).registry.get kid v).isSome →
      ((r.run.state x).registry.get kid v).isSome) (hexpired : r.NoExpiry kid x l) :
    (∀ m ≥ l, ∀ v d, (r.run.state m).registry.get kid v = some d →
        d.status ≠ .Active ∧ d.status ≠ .Rotated) ∧
      ((∀ (j : ℕ) reason' now', r.calls[j]? = some (.revoke_key kid reason' now') →
          reason' = ascii "compromised") →
        ∀ n m v d, x ≤ n → n ≤ m → (r.run.state n).registry.get kid v = some d →
          d.status = .Compromised →
          ∃ d', (r.run.state m).registry.get kid v = some d' ∧ d'.status = .Compromised) := by
  have hreturned : (r.run.answer l i).isSome := by
    rw [hanswer]
    rfl
  have hxl := (hlist.lt_of_answer hreturned).le
  have hfinal := final_of_revoked hcall hlist hreturned hadded hexpired
  have hlater := final_of_le hfinal hxl hexpired
  constructor
  · intro m hlm v d hget
    obtain ⟨d', hd', hstatus⟩ := hlater m hlm v (by rw [hget]; rfl)
    cases hget.symm.trans hd'
    exact hstatus
  · intro hreasons n m v d hxn hnm hget hstatus
    refine r.compromised_of_le hreasons ?_ hget hstatus hnm
    intro m' j rotated_at hnm'
    exact not_rotated (fun y hly _ => hlater y hly) hexpired (hxn.trans hnm') rotated_at

end KeyCalls

/-! ## Sample runs -/

def sampleKeyCrates : KeyCrates where
  Double := ℤ
  add := (· + ·)
  sub := (· - ·)
  le a b := decide (a ≤ b)
  lt a b := decide (a < b)
  display := toString
  debug _ := "?"

def sampleKid : Text := List.replicate 32 97

def sampleDescriptor : KeyDescriptor sampleKeyCrates where
  kid := sampleKid
  version := 1
  algorithm := .Ed25519
  category := .Identity
  key_material := List.replicate 32 1
  created_at := (0 : ℤ)
  expires_at := (100 : ℤ)
  rotated_at := none
  status := .Active
  metadata := []

def sampleKeyRegistry : KeyRegistry sampleKeyCrates :=
  KeyRegistry.insert ⟨.empty, fun _ _ h => nomatch h⟩ sampleDescriptor

def sampleKeyCalls (calls : List (KeyCall sampleKeyCrates)) (turns : List ℕ) :
    KeyCalls sampleKeyCrates where
  policy := ⟨(1000 : ℤ), (10 : ℤ), true, (50 : ℤ)⟩
  calls := calls
  start := sampleKeyRegistry
  ticks := turns.map fun i => .thread i ⟨id, fun _ => .refl _⟩

def sampleSweeps : KeyCalls sampleKeyCrates :=
  sampleKeyCalls
    [.sweep_and_rotate (60 : ℤ) fun _ _ => List.replicate 32 2,
      .sweep_and_rotate (60 : ℤ) fun _ _ => List.replicate 32 3]
    [0, 1, 0, 0, 1, 1]

theorem versions_consecutive_sample : sampleSweeps.run.answer 6 0 = some (.swept [sampleKid]) ∧
      sampleSweeps.run.answer 6 1 = some (.swept []) ∧
      (∃ n, (sampleSweeps.run.state 6).Versions sampleKid n) ∧
      ∃ m < 6, ∃ v d, (sampleSweeps.run.state m).registry.get sampleKid v = some d ∧
        d.status = .Active ∧
        sampleKeyCrates.le (sampleKeyCrates.sub d.expires_at (60 : ℤ)) (50 : ℤ) = true ∧
        (sampleSweeps.run.state (m + 1)).rotations =
          (sampleSweeps.run.state m).rotations ++ [⟨0, sampleKid, v⟩] := by
  obtain ⟨hversions, -, hswept⟩ := KeyCalls.versions_consecutive sampleSweeps fun kid v d h => by
    have hget := get_insert ⟨.empty, fun _ _ h => nomatch h⟩ sampleDescriptor kid v
    rw [show sampleSweeps.start.get kid v = _ from hget] at h
    split_ifs at h with hkey
    · cases h
      exact ⟨hkey.2, rfl⟩
    · cases h
  have hanswer : sampleSweeps.run.answer 6 0 = some (.swept [sampleKid]) := rfl
  exact ⟨hanswer, rfl, hversions 6 sampleKid, hswept 0 _ _ _ 6 sampleKid rfl hanswer mem_cons_self⟩

def sampleRevocation : KeyCalls sampleKeyCrates :=
  sampleKeyCalls
    [.revoke_key sampleKid (ascii "compromised") (10 : ℤ),
      .rotate_key sampleKid (List.replicate 32 2) .Ed25519 (11 : ℤ),
      .expire_stale_keys (200 : ℤ)]
    [0, 0, 0, 1, 2]

theorem revocation_final_sample :
    (∀ m ≥ 3, ∀ v d, (sampleRevocation.run.state m).registry.get sampleKid v = some d →
        d.status ≠ .Active ∧ d.status ≠ .Rotated) ∧
      ∃ d, (sampleRevocation.run.state 5).registry.get sampleKid 1 = some d ∧
        d.status = .Compromised := by
  have hadded : ∀ v, ((sampleRevocation.run.state 3).registry.get sampleKid v).isSome →
      ((sampleRevocation.run.state 0).registry.get sampleKid v).isSome := by
    intro v hsome
    have hwritten : (sampleRevocation.run.state 3).registry =
      (sampleRevocation.run.state 0).registry.update_status sampleKid 1 .Compromised none := rfl
    rw [hwritten, get_update_status] at hsome
    split_ifs at hsome with hkey
    · rw [hkey.2]
      rfl
    · exact hsome
  have hexpired : sampleRevocation.NoExpiry sampleKid 0 3 := by
    intro j y m now v rotated_at hlist hy3 _ hrotated
    -- the first three moves are those of the revocation
    obtain rfl : j = 0 := by
      have hmoves := hlist.moves
      interval_cases y <;> exact beq_iff_eq.mp hmoves
    obtain ⟨c, hc, hwrites⟩ := KeyCalls.call_of_write hrotated
    cases hc
    cases hwrites.2
  obtain ⟨hfinal, hcompromised⟩ := KeyCalls.revocation_final sampleRevocation (i := 0) (x := 0)
    (l := 3) rfl ⟨_, _, rfl, rfl⟩ rfl hadded hexpired
  refine ⟨hfinal, hcompromised ?_ 3 5 1 _ (by omega) (by omega) rfl rfl⟩
  intro j reason' now' hj
  rcases j with _ | _ | _ | j <;> cases hj
  rfl

theorem never_reactivated_sample : ∃ status rotated_at,
    (sampleRevocation.run.state 6).registry.get sampleKid 1 =
      some { sampleDescriptor with status, rotated_at } ∧ status ≠ .Active := by
  have hget : (sampleRevocation.run.state 3).registry.get sampleKid 1 =
    some { sampleDescriptor with status := .Compromised } := rfl
  obtain ⟨status, rotated_at, hget', hinactive⟩ :=
    sampleRevocation.never_reactivated hget 6 (by decide)
  exact ⟨status, rotated_at, hget', hinactive (by decide)⟩

def sampleMissed : KeyCalls sampleKeyCrates :=
  sampleKeyCalls
    [.revoke_key sampleKid (ascii "emergency") (10 : ℤ),
      .rotate_key sampleKid (List.replicate 32 2) .Ed25519 (11 : ℤ)]
    [0, 1, 0, 0]

def sampleUndone : KeyCalls sampleKeyCrates :=
  sampleKeyCalls
    [.expire_stale_keys (200 : ℤ), .revoke_key sampleKid (ascii "compromised") (201 : ℤ)]
    [0, 1, 1, 1, 0]

def sampleRelabelled : KeyCalls sampleKeyCrates :=
  sampleKeyCalls
    [.revoke_key sampleKid (ascii "compromised") (10 : ℤ),
      .revoke_key sampleKid (ascii "superseded") (11 : ℤ)]
    [0, 0, 0, 1, 1, 1]

theorem revocation_undone : (sampleMissed.run.answer 4 0 =
        some (.revoked (.ok ⟨sampleKid, -1, (10 : ℤ), ascii "emergency", false⟩)) ∧
      ((sampleMissed.run.state 4).registry.get sampleKid 2).map (·.status) = some .Active) ∧
    (sampleUndone.run.answer 4 1 =
        some (.revoked (.ok ⟨sampleKid, -1, (201 : ℤ), ascii "compromised", false⟩)) ∧
      ((sampleUndone.run.state 4).registry.get sampleKid 1).map (·.status) = some .Compromised ∧
      ((sampleUndone.run.state 5).registry.get sampleKid 1).map (·.status) = some .Rotated) ∧
    (sampleRelabelled.run.answer 3 0 =
        some (.revoked (.ok ⟨sampleKid, -1, (10 : ℤ), ascii "compromised", false⟩)) ∧
      ((sampleRelabelled.run.state 3).registry.get sampleKid 1).map (·.status) = some .Compromised ∧
      ((sampleRelabelled.run.state 6).registry.get sampleKid 1).map (·.status) =
        some .Revoked) := by
  refine ⟨⟨rfl, ?_⟩, ⟨rfl, ?_, ?_⟩, ⟨rfl, ?_, ?_⟩⟩ <;> decide +kernel

end Saacp
