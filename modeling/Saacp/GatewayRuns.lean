/-
**Runs of a gateway**: any number of calls, each on a thread of its own, under any schedule of their
sections and of the clock.

What a section can change is said once, by its kind. From this, for every run: the generation of the
epochs counts the publications (`generation_eq`); a verdict in the cache was evaluated under the
epochs of the generation it carries (`entry_origin`); and a validation that succeeds was served such
a verdict or has evaluated the token itself (`verdict_origin`).
-/
import Saacp.Execution
import Saacp.GatewaySections

set_option autoImplicit false

open ByteCodec Atomic

namespace Saacp

open Execution Option SharedGateway GatewaySection Prog GatewayCall

/-! ## Kinds of sections -/

inductive SectionKind
  | read
  | insert
  | clear
  | publish
  | revoke
  | forget
  | registry
  | source
  | key
  deriving DecidableEq

variable {γ : Type}

namespace GatewaySection

def kind : GatewaySection γ → SectionKind
  | .now | .load_epochs | .cache_get _ | .is_revoked _ | .revoked_len _ | .revoked_entries _
  | .issuer_key _ | .load_authority | .get_verification_key .. | .load_trust_store
  | .get_pinned_key .. => .read
  | .cache_insert .. => .insert
  | .cache_clear _ => .clear
  | .publish _ => .publish
  | .revoke .. => .revoke
  | .revoked_prune .. | .revoked_remove _ => .forget
  | .issuer_insert .. | .issuers_clear => .registry
  | .store_authority _ | .store_trust_store _ => .source
  | .register_key .. | .revoke_trusted_key .. | .pin_identity .. => .key

def is (kind : SectionKind) (act : GatewaySection γ) : Bool := act.kind = kind

def loads : GatewaySection γ → Bool | .load_epochs => true | _ => false
def looks_up : GatewaySection γ → Option Text | .cache_get key => some key | _ => none
def evaluates : GatewaySection γ → Bool
  | .now | .is_revoked _ | .issuer_key _ | .load_authority | .get_verification_key ..
  | .load_trust_store | .get_pinned_key .. => true
  | _ => false

def inserts : GatewaySection γ → Option (Text × CacheEntry)
  | .cache_insert key entry => some (key, entry)
  | _ => none

/-- A publication leaves the generation to `update_epochs`. -/
def Gentle : GatewaySection γ → Prop
  | .publish mutate => ∀ e, (mutate e).cache_generation = e.cache_generation
  | _ => True

end GatewaySection

variable {H : Hashes}

section Frame

variable {s : SharedGateway} {act : GatewaySection γ}

variable (H s) in
theorem insert_issuer_frame (issuer : Text) (secret : List UInt8) :
    ∃ keys, (s.exec H (.issuer_insert issuer secret)).1 =
      s.onGateway fun gw => { gw with trusted_issuer_keys := keys } := by
  simp only [SharedGateway.exec, insert_issuer]
  split_ifs
  · exact ⟨s.gateway.trusted_issuer_keys, rfl⟩
  · exact ⟨_, rfl⟩

theorem exec_clock : (s.exec H act).1.clock = s.clock := by
  cases act with
  | issuer_insert issuer secret =>
    obtain ⟨keys, hkeys⟩ := insert_issuer_frame H s issuer secret
    rw [hkeys]
    rfl
  | _ => rfl

theorem exec_epochs (h : act.kind ≠ .publish) :
    (s.exec H act).1.gateway.epochs = s.gateway.epochs := by
  cases act with
  | issuer_insert issuer secret =>
    obtain ⟨keys, hkeys⟩ := insert_issuer_frame H s issuer secret
    rw [hkeys]
    rfl
  | publish mutate => exact absurd rfl h
  | _ => rfl

theorem exec_generation (h : act.Gentle) : (s.exec H act).1.gateway.epochs.cache_generation =
      s.gateway.epochs.cache_generation + if act.is .publish then 1 else 0 := by
  by_cases hpublish : act.kind = .publish
  · cases act with
    | publish mutate => exact h _
    | _ => cases hpublish
  · rw [exec_epochs hpublish, is, decide_eq_false hpublish]
    exact (UInt64.add_zero _).symm

def SharedGateway.cached_entry (s : SharedGateway) (key : Text) : Option CacheEntry :=
  (s.gateway.token_cache (ZeroTrustGateway.token_cache_shard key)).get key

theorem exec_cached {key : Text} {entry : CacheEntry}
    (h : (s.exec H act).1.cached_entry key = some entry) :
    act.inserts = some (key, entry) ∨
      s.cached_entry key = some entry ∧ ∀ entry', act.inserts ≠ some (key, entry') := by
  cases act with
  | cache_insert key' entry' =>
    simp only [SharedGateway.exec, insert_verdict, onGateway, cached_entry,
      Function.update_apply] at h
    by_cases hkey : key = key'
    · subst hkey
      rw [if_pos rfl, Table.get_insert_self, Option.some.injEq] at h
      exact .inl (by rw [inserts, h])
    · refine .inr ⟨?_, ?_⟩
      · split at h
        · rename_i hshard
          rw [Table.get_insert, if_neg hkey] at h
          rw [cached_entry, hshard]
          exact make_room_le _ _ _ _ _ h
        · exact h
      · intro entry'' heq
        rw [inserts, Option.some.injEq, Prod.mk.injEq] at heq
        exact hkey heq.1.symm
  | cache_clear shard =>
    refine .inr ⟨?_, by rintro _ ⟨⟩⟩
    simp only [SharedGateway.exec, clear_shard, onGateway, cached_entry, Function.update_apply] at h
    split at h
    · rw [Table.get_empty] at h
      cases h
    · exact h
  | issuer_insert issuer secret =>
    obtain ⟨keys, hkeys⟩ := insert_issuer_frame H s issuer secret
    rw [hkeys] at h
    exact .inr ⟨h, by rintro _ ⟨⟩⟩
  | _ => exact .inr ⟨h, by rintro _ ⟨⟩⟩

end Frame

/-! ## What the calls can do -/

def GatewayCall.kinds : GatewayCall → List SectionKind
  | .validate_lateral_movement .. => [.read, .insert]
  | .revoke_token _ => [.read, .revoke, .forget, .clear, .publish]
  | .prune_expired_revocations => [.read, .forget]
  | .revoke_all_tokens => [.read, .clear, .registry, .publish]
  | .register_issuer_key .. => [.registry, .clear, .publish]
  | .clear_trusted_issuers => [.registry, .clear, .publish]
  | .set_strict_asymmetric_mode _ => [.publish, .clear]
  | .register_trust_store _ => [.source, .publish, .clear]
  | .register_capability_authority _ => [.source, .publish, .clear]
  | .register_key .. => [.key]
  | .revoke_trusted_key .. => [.key]
  | .pin_identity .. => [.key]

/-- A section of one of these kinds, that leaves the generation alone. -/
def OfKinds (kinds : List SectionKind) (act : GatewaySection γ) : Prop :=
  act.kind ∈ kinds ∧ act.Gentle

section Only

variable {X : Crates} {kinds : List SectionKind}

theorem clear_token_cache_only (h : .clear ∈ kinds) : clear_token_cache.Only (OfKinds kinds) :=
  (Prog.Only.each (fun _ => ⟨h, trivial⟩) _).map _

theorem update_epochs_only {mutate : GatewayEpochs → GatewayEpochs} (h : .publish ∈ kinds)
    (hmutate : ∀ e, (mutate e).cache_generation = e.cache_generation) :
    (update_epochs mutate).Only (OfKinds kinds) :=
  ⟨⟨h, hmutate⟩, fun _ => trivial⟩

theorem publish_registry_only (hclear : .clear ∈ kinds) (hpublish : .publish ∈ kinds) :
    publish_registry.Only (OfKinds kinds) :=
  (clear_token_cache_only hclear).bind fun _ =>
    (update_epochs_only hpublish fun _ => rfl).map _

theorem prune_expired_revocations_only (hread : .read ∈ kinds) (hforget : .forget ∈ kinds) :
    prune_expired_revocations.Only (OfKinds kinds) :=
  ⟨⟨hread, trivial⟩, fun _ => (Prog.Only.each (fun _ => ⟨hforget, trivial⟩) _).map _⟩

theorem enforce_revoked_tokens_cap_only (hread : .read ∈ kinds) (hforget : .forget ∈ kinds) :
    enforce_revoked_tokens_cap.Only (OfKinds kinds) := by
  have hlen : revoked_tokens_len.Only (OfKinds kinds) :=
    (Prog.Only.each (fun _ => ⟨hread, trivial⟩) _).map _
  unfold enforce_revoked_tokens_cap
  refine hlen.bind fun before => ?_
  split
  · trivial
  · refine (prune_expired_revocations_only hread hforget).bind fun _ => hlen.bind fun total => ?_
    split
    · trivial
    · refine Prog.Only.bind (Prog.Only.each (fun _ => ⟨hread, trivial⟩) _) fun shards => ?_
      -- which of them they are does not matter
      generalize soonest_revocations shards.flatten total = hashes
      exact (Prog.Only.each (fun _ => ⟨hforget, trivial⟩) hashes).map _

theorem revocation_expiry_only (json : List UInt8) (hread : .read ∈ kinds) :
    (revocation_expiry X json).Only (OfKinds kinds) := by
  unfold revocation_expiry
  split
  · trivial
  · exact ⟨⟨hread, trivial⟩, fun _ => trivial⟩

theorem evaluate_token_only (epochs : GatewayEpochs) (target_agent : Text)
    (token secret : List UInt8) :
    (evaluate_token H X epochs target_agent token secret).Only (evaluates · = true) := by
  have hkeys : ∀ data, (read_keys data).Only (evaluates · = true) := by
    intro data
    unfold read_keys
    split
    · trivial
    · refine Prog.Only.bind ⟨rfl, fun ca => ?_⟩ fun ca_key => ?_
      · cases ca with
        | none => trivial
        | some ca => exact ⟨rfl, fun _ => trivial⟩
      · cases ca_key with
        | some vk => trivial
        | none =>
          refine Prog.Only.map _ ⟨rfl, fun ts => ?_⟩
          cases ts with
          | none => trivial
          | some ts => exact ⟨rfl, fun _ => trivial⟩
  have hsignature : ∀ data json sig, (verify_signature H X epochs data json sig secret).Only
        (evaluates · = true) := by
    intro data json sig
    unfold verify_signature
    split_ifs
    · trivial
    · exact ⟨rfl, fun _ => trivial⟩
    · exact (hkeys data).map _
  refine Prog.Only.andThen trivial fun parts => ?_
  refine Prog.Only.andThen ⟨rfl, fun _ => trivial⟩ fun _ => ?_
  refine Prog.Only.andThen (hsignature _ _ _) fun _ => ?_
  refine Prog.Only.andThen trivial fun _ => ?_
  exact Prog.Only.andThen ⟨rfl, fun _ => trivial⟩ fun _ => trivial

theorem finish_validation_only (epochs : GatewayEpochs) (cache_key : Text)
    (served : Option TokenValidationResult) (target_agent : Text) (token secret : List UInt8) :
    (finish_validation H X epochs cache_key served target_agent token secret).Only
      fun act => act.evaluates = true ∨ act.kind = .insert := by
  cases served with
  | some result => trivial
  | none =>
    refine Prog.Only.andThen ((evaluate_token_only _ _ _ _).mono fun act => .inl) fun verdict => ?_
    exact ⟨.inl rfl, fun _ => ⟨.inr rfl, fun _ => trivial⟩⟩

theorem kind_of_evaluates {act : GatewaySection γ} (h : act.evaluates = true) :
    act.kind = .read ∧ act.Gentle ∧ act.loads = false ∧ act.looks_up = none := by
  cases act <;> first | exact ⟨rfl, trivial, rfl, rfl⟩ | cases h

theorem register_source_only {act : GatewaySection γ} (h : act.kind = .source) :
    (Prog.step act fun _ => (update_epochs id).bind fun _ => clear_token_cache).Only
      (OfKinds [.source, .publish, .clear]) := by
  refine ⟨⟨by rw [h]; decide, ?_⟩, fun _ => ?_⟩
  · cases act <;> trivial
  · exact (update_epochs_only (by decide) fun _ => rfl).bind fun _ =>
      clear_token_cache_only (by decide)

theorem prog_only (c : GatewayCall) : (c.prog H X).Only (OfKinds c.kinds) := by
  cases c with
  | validate_lateral_movement target_agent token secret =>
    have hread : SectionKind.read ∈ [SectionKind.read, .insert] := by decide
    have hinsert : SectionKind.insert ∈ [SectionKind.read, .insert] := by decide
    refine Prog.Only.map _ ⟨⟨hread, trivial⟩, fun now => ⟨⟨hread, trivial⟩, fun epochs =>
      ⟨⟨hread, trivial⟩, fun entry => ?_⟩⟩⟩
    refine (finish_validation_only _ _ _ _ _ _).mono ?_
    intro γ act hact
    rcases hact with hevaluates | hkind
    · obtain ⟨hkind, hgentle, -⟩ := kind_of_evaluates hevaluates
      exact ⟨hkind ▸ hread, hgentle⟩
    · refine ⟨hkind ▸ hinsert, ?_⟩
      cases act <;> trivial
  | revoke_token token =>
    have hread : .read ∈ (GatewayCall.revoke_token token).kinds := .head _
    refine Prog.Only.map _ (Prog.Only.andThen trivial fun parsed => ?_)
    refine (revocation_expiry_only _ hread).bind fun exp =>
      ⟨⟨.tail _ (.head _), trivial⟩, fun _ => ?_⟩
    refine (enforce_revoked_tokens_cap_only hread (by simp [GatewayCall.kinds])).bind fun _ => ?_
    exact (clear_token_cache_only (by simp [kinds])).bind fun _ =>
      (update_epochs_only (by simp [kinds]) fun _ => rfl).map _
  | prune_expired_revocations =>
    exact (prune_expired_revocations_only (by decide) (by decide)).map _
  | revoke_all_tokens =>
    refine Prog.Only.map _ ⟨⟨by decide, trivial⟩, fun now => ?_⟩
    refine (clear_token_cache_only (by decide)).bind fun _ => ⟨⟨by decide, trivial⟩, fun _ => ?_⟩
    exact (update_epochs_only (by decide) fun _ => rfl).map _
  | register_issuer_key issuer secret =>
    refine Prog.Only.map _ (Prog.Only.andThen trivial fun _ => ?_)
    refine Prog.Only.andThen ⟨⟨.head _, trivial⟩, fun _ => trivial⟩ fun _ => ?_
    exact (publish_registry_only (by simp [kinds]) (by simp [kinds])).map _
  | clear_trusted_issuers =>
    exact Prog.Only.map _
      ⟨⟨by decide, trivial⟩, fun _ => publish_registry_only (by decide) (by decide)⟩
  | set_strict_asymmetric_mode enabled =>
    exact Prog.Only.map _ ((update_epochs_only (.head _) fun _ => rfl).bind fun _ =>
      clear_token_cache_only (by simp))
  | register_trust_store | register_capability_authority =>
    exact Prog.Only.map _ (register_source_only rfl)
  | register_key | revoke_trusted_key | pin_identity =>
    exact Prog.Only.map _ ⟨⟨.head _, trivial⟩, fun _ => trivial⟩

end Only

def GatewayAnswer.accepts : GatewayAnswer → Bool
  | .verdict (.ok _) => true
  | _ => false

theorem accepts_iff {answer : Option GatewayAnswer} :
    answer.any GatewayAnswer.accepts = true ↔ ∃ result, answer = some (.verdict (.ok result)) := by
  cases answer with
  | none => simp
  | some a => fun_cases GatewayAnswer.accepts a <;> simp_all [GatewayAnswer.accepts]

/-! ## Runs -/

/-- Calls, each on a thread of its own; where they start; and in which order they move on. -/
structure GatewayRun (H : Hashes) (X : Crates) where
  calls : List GatewayCall
  start : SharedGateway
  ticks : List (Tick Unit ℚ)

namespace GatewayRun

variable {X : Crates}

def run (r : GatewayRun H X) : Execution GatewaySection Unit SharedGateway ℚ GatewayAnswer where
  sem := gateway_sections H
  act := SharedGateway.advance
  start := ⟨r.calls.map (·.prog H X), r.start⟩
  ticks := r.ticks

def publications (r : GatewayRun H X) (n : ℕ) : ℕ := r.run.count (GatewaySection.is .publish) n

variable {r : GatewayRun H X}

variable {i n m l k j : ℕ} {key target_agent : Text} {entry : CacheEntry}
    {token secret : List UInt8} {epochs : GatewayEpochs}
    {result : TokenValidationResult}

theorem prog_zero {c : GatewayCall} (h : r.calls[i]? = some c) :
    r.run.prog 0 i = some (c.prog H X) :=
  prog_zero_of_call rfl h

theorem call_of_performs {act : GatewaySection γ}
    (h : r.run.Performs n i act) : ∃ c, r.calls[i]? = some c ∧ OfKinds c.kinds act :=
  h.of_call (P := fun c => OfKinds c.kinds) rfl prog_only

theorem clock_mono (h : n ≤ m) : (r.run.state n).clock ≤ (r.run.state m).clock := by
  refine r.run.rel_of_steps (fun s s' => s.clock ≤ s'.clock) (fun s => le_refl _)
    (fun _ _ _ => le_trans) h fun x _ _ => ?_
  refine r.run.rel_succ (fun s s' => s.clock ≤ s'.clock) (le_refl _) ?_ ?_
  · intro now
    exact le_max_left _ _
  · intro i inp γ act _
    exact exec_clock.ge

/-! ## Publications -/

theorem epochs_succ (hnone : r.run.does (is .publish) n = false) :
    (r.run.state (n + 1)).gateway.epochs = (r.run.state n).gateway.epochs := by
  refine r.run.rel_succ (fun s s' => s'.gateway.epochs = s.gateway.epochs) rfl ?_ ?_
  · intro now
    rfl
  · intro i inp γ act hact
    refine exec_epochs fun hkind => ?_
    cases hnone.symm.trans (does_iff.mpr ⟨i, γ, act, hact, decide_eq_true hkind⟩)

theorem generation_eq (n : ℕ) : (r.run.state n).gateway.epochs.cache_generation =
    r.start.gateway.epochs.cache_generation + UInt64.ofNat (r.publications n) := by
  induction n with
  | zero => exact (UInt64.add_zero _).symm
  | succ n ih =>
    rw [publications, count_succ, ← publications]
    by_cases hdoes : r.run.does (is .publish) n = true
    · obtain ⟨i, γ, act, hact, hkind⟩ := does_iff.mp hdoes
      obtain ⟨c, -, hc⟩ := call_of_performs hact
      obtain ⟨inp, k, -, -, hstate⟩ := hact.succ
      have hgen := exec_generation (H := H) (s := r.run.state n) hc.2
      rw [if_pos hkind] at hgen
      rw [hstate, if_pos hdoes, UInt64.ofNat_add, ← UInt64.add_assoc, ← ih]
      exact hgen
    · rw [if_neg hdoes, epochs_succ (Bool.not_eq_true _ ▸ hdoes), ih, Nat.add_zero]

theorem epochs_eq (hnm : n ≤ m) (h : r.publications n = r.publications m) :
    (r.run.state m).gateway.epochs = (r.run.state n).gateway.epochs := by
  refine r.run.rel_of_steps (fun s s' => s'.gateway.epochs = s.gateway.epochs)
    (fun s => rfl) (fun _ _ _ hab hbc => hbc.trans hab) hnm fun x hnx hxm => ?_
  apply epochs_succ
  rw [← Bool.not_eq_true]
  intro hdoes
  have hlt := count_lt_count hnx hxm hdoes
  exact absurd h hlt.ne

/-! ## Where a cached verdict comes from -/

theorem performs_insert {act : GatewaySection γ} (h : r.run.Performs n i act)
    (hinsert : act.inserts = some (key, entry)) : r.run.Performs n i (.cache_insert key entry) := by
  cases act with
  | cache_insert key' entry' =>
    cases hinsert
    exact h
  | _ => cases hinsert

theorem performs_load : r.run.performs loads n i = true ↔ r.run.Performs n i .load_epochs := by
  rw [performs_iff]
  constructor
  · rintro ⟨γ, act, hact, hloads⟩
    cases act with
    | load_epochs => exact hact
    | _ => cases hloads
  · intro h
    exact ⟨_, _, h, rfl⟩

def Untouched (r : GatewayRun H X) (key : Text) (x n : ℕ) : Prop :=
  ∀ y, x < y → y < n → ∀ i entry, ¬ r.run.Performs y i (.cache_insert key entry)

theorem entry_inserted (hcache : ∀ shard, r.start.gateway.token_cache shard = .empty)
    (h : (r.run.state n).cached_entry key = some entry) :
    ∃ x k, x < n ∧ r.run.Performs x k (.cache_insert key entry) ∧ r.Untouched key x n := by
  induction n with
  | zero =>
    have hnone : r.start.cached_entry key = none := by
      rw [cached_entry, hcache, Table.get_empty]
    cases hnone.symm.trans h
  | succ n ih =>
    -- the entry was there before, and this step did not insert under its key
    have hkept : (r.run.state n).cached_entry key = some entry →
        (∀ i entry', ¬ r.run.Performs n i (.cache_insert key entry')) →
        ∃ x k, x < n + 1 ∧ r.run.Performs x k (.cache_insert key entry) ∧
          r.Untouched key x (n + 1) := by
      intro hold hnone
      obtain ⟨x, k, hx, hinsert, huntouched⟩ := ih hold
      refine ⟨x, k, Nat.lt_succ_of_lt hx, hinsert, fun y hxy hyn => ?_⟩
      rcases Nat.lt_succ_iff_lt_or_eq.mp hyn with hlt | rfl
      · exact huntouched y hxy hlt
      · exact hnone
    by_cases hperforms : ∃ (i : ℕ) (γ : Type) (act : GatewaySection γ), r.run.Performs n i act
    · obtain ⟨i, γ, act, hact⟩ := hperforms
      obtain ⟨inp, k, hprog, -, hstate⟩ := hact.succ
      rw [hstate] at h
      obtain hinsert | ⟨hold, hno⟩ := exec_cached h
      · refine ⟨n, i, Nat.lt_succ_self n, performs_insert hact hinsert, fun y hny hyn => ?_⟩
        omega
      · refine hkept hold fun j entry' hother => ?_
        exact hno entry' ((hact.unique hother).2 inserts)
    · have hsame : (r.run.state (n + 1)).cached_entry key = (r.run.state n).cached_entry key := by
        refine r.run.rel_succ (fun s s' => s'.cached_entry key = s.cached_entry key) rfl
          (fun _ => rfl) fun i inp γ act hact => ?_
        exact absurd ⟨i, γ, act, hact⟩ hperforms
      refine hkept (hsame.symm.trans h) fun i entry' hact => ?_
      exact hperforms ⟨i, _, _, hact⟩

/-! ## The way of a validation -/

theorem validate_trail {q : Prog GatewaySection (Result TokenValidationResult)}
    (h : r.run.Trail i (validate_lateral_movement H X target_agent token secret) n q l)
    (hq : q.next kind ≠ some .read) :
    ∃ w z g, n ≤ w ∧ w < z ∧ z < g ∧ g < l ∧ r.run.Performs w i .now ∧
      r.run.Performs z i .load_epochs ∧
      let epochs := (r.run.state z).gateway.epochs
      let cache_key := epochs.snapshot.cache_key H target_agent token secret
      r.run.Performs g i (.cache_get cache_key) ∧
      r.run.Trail i (finish_validation H X epochs cache_key
        (epochs.served (r.run.state w).clock ((r.run.state g).cached_entry cache_key))
        target_agent token secret) (g + 1) q l := by
  obtain rfl | ⟨w, _, hnw, hwl, hw, -, h⟩ := h.of_step
  · exact absurd rfl hq
  obtain rfl | ⟨z, _, hwz, hzl, hz, -, h⟩ := h.of_step
  · exact absurd rfl hq
  obtain rfl | ⟨g, _, hzg, hgl, hg, -, h⟩ := h.of_step
  · exact absurd rfl hq
  exact ⟨w, z, g, hnw, hwz, hzg, hgl, hw, hz, hg, h⟩

theorem finish_trail {cache_key : Text} {served : Option TokenValidationResult}
    (h : r.run.Trail i (finish_validation H X epochs cache_key served target_agent token
      secret) n (.ret (.ok result)) l) :
    served = some result ∨
      ∃ exp m x entry, m ≤ l ∧ r.run.Performs x i (.cache_insert cache_key entry) ∧ r.run.Trail i
        (evaluate_token H X epochs target_agent token secret) n
        (.ret (.ok (result, exp))) m := by
  cases served with
  | some result' =>
    cases h.of_ret
    exact .inl rfl
  | none =>
    obtain ⟨⟨result', exp⟩, m, hevaluate, hkeep⟩ := h.of_andThen_ok
    obtain ⟨v, _, hmv, -, -, -, hkeep⟩ := hkeep.of_step_ret
    obtain ⟨x, _, hvx, hxl, hinsert, -, hdone⟩ := hkeep.of_step_ret
    cases hdone.of_ret
    exact .inr ⟨exp, m, x, _, by omega, hinsert, hevaluate⟩

theorem finish_trail_insert {cache_key : Text} {served : Option TokenValidationResult}
    {k : Unit → Prog GatewaySection (Result TokenValidationResult)}
    (h : r.run.Trail i (finish_validation H X epochs cache_key served target_agent token
      secret) n (.step (.cache_insert key entry) k) l) :
    key = cache_key ∧ entry.generation = epochs.cache_generation ∧
      ∃ exp m, m ≤ l ∧ entry.expiry ≤ exp ∧ r.run.Trail i
        (evaluate_token H X epochs target_agent token secret) n
        (.ret (.ok (entry.result, exp))) m := by
  cases served with
  | some result' => cases h.of_ret
  | none =>
    obtain ⟨verdict, m, hevaluate, hkeep⟩ | ⟨γ, act, k', hsame, hevaluate⟩ := h.of_bind
    · cases verdict with
      | error err => cases hkeep.of_ret
      | ok verdict =>
        obtain ⟨result, exp⟩ := verdict
        obtain hsame | ⟨v, _, hmv, hvl, -, -, hkeep⟩ := hkeep.of_step
        · cases congrArg (next kind) hsame
        obtain hsame | ⟨x, _, -, -, -, -, hdone⟩ := hkeep.of_step
        · cases hsame
          exact ⟨rfl, rfl, exp, m, by omega, min_le_right _ _, hevaluate⟩
        · cases hdone.of_ret
    · -- before that, nothing is inserted
      have honly := hevaluate.only (evaluate_token_only epochs target_agent token secret)
      have hread := (kind_of_evaluates honly.1).1
      cases hsame
      cases hread

theorem evaluate_trail {exp : ℚ}
    (h : r.run.Trail k (evaluate_token H X epochs target_agent token secret) n
      (.ret (.ok (result, exp))) l) :
    ∃ json sig data a b c, parse_token X token = .ok (json, sig, data) ∧
      n ≤ a ∧ a < b ∧ b ≤ c ∧ c < l ∧
      (r.run.state a).gateway.is_token_revoked (sha256_hex H sig) = false ∧
      r.run.Trail k (verify_signature H X epochs data json sig secret) (a + 1) (.ret (.ok ())) b ∧
      epochs.snapshot.check_blanket data = .ok () ∧
      check_expiry (r.run.state c).clock data = .ok () ∧
      claims_verdict target_agent data (sha256_hex H sig) = .ok (result, exp) ∧
      r.run.Performs a k (.is_revoked (sha256_hex H sig)) := by
  obtain ⟨⟨json, sig, data⟩, n₁, hparse, h⟩ := h.of_andThen_ok
  have hparsed := hparse.of_ret
  obtain ⟨u, n₂, hrevoked, h⟩ := h.of_andThen_ok
  obtain ⟨a, _, hna, han, hlookup, -, hrevoked⟩ := hrevoked.of_step_ret
  have hnot := hrevoked.of_ret
  obtain ⟨u, b, hverify, h⟩ := h.of_andThen_ok
  obtain ⟨u, n₃, hblanket, h⟩ := h.of_andThen_ok
  have hrecall := hblanket.of_ret
  obtain ⟨u, n₄, hexpiry, h⟩ := h.of_andThen_ok
  obtain ⟨c, _, hnc, hcn, -, -, hexpiry⟩ := hexpiry.of_step_ret
  have hfresh := hexpiry.of_ret
  have hclaims := h.of_ret
  have hle₁ := hparse.le
  have hle₂ := hrevoked.le
  have hle₃ := hverify.le
  have hle₄ := hblanket.le
  have hle₅ := h.le
  refine ⟨json, sig, data, a, b, c, ?_, by omega, by omega, by omega, by omega, ?_,
    hverify.mono (by omega), ?_, ?_, ?_, hlookup⟩
  · exact (ret.inj hparsed).symm
  · rw [← Bool.not_eq_true]
    intro hrev
    have hif : Except.ok u = if (r.run.state a).gateway.is_token_revoked (sha256_hex H sig)
        then .error _ else .ok () := ret.inj hnot
    rw [if_pos hrev] at hif
    cases hif
  · exact (ret.inj hrecall).symm
  · exact (ret.inj hfresh).symm
  · exact (ret.inj hclaims).symm

theorem stored_key_trail {load : GatewaySection (Option ℕ)}
    {get : ℕ → GatewaySection (Option (List UInt8))} {key : Option (List UInt8)}
    (h : r.run.Trail k (Prog.step load fun store => store.elim (.ret none) fun store =>
      .step (get store) .ret) n (.ret key) l) :
    ∃ a b, key = ((r.run.state a).exec H load).2.bind fun store =>
      ((r.run.state b).exec H (get store)).2 := by
  obtain ⟨a, _, -, -, -, -, h⟩ := h.of_step_ret
  have hrest : r.run.Trail k (((r.run.state a).exec H load).2.elim (.ret none) fun store =>
    .step (get store) .ret) (a + 1) (.ret key) l := h
  cases hstore : ((r.run.state a).exec H load).2 with
  | none =>
    rw [hstore] at hrest
    refine ⟨a, a, ?_⟩
    rw [hstore]
    exact ret.inj hrest.of_ret
  | some store =>
    rw [hstore] at hrest
    obtain ⟨b, _, -, -, -, -, hrest⟩ := hrest.of_step_ret
    refine ⟨a, b, ?_⟩
    rw [hstore]
    exact ret.inj hrest.of_ret

theorem read_keys_trail {data : Json} {keys : KeySources}
    (h : r.run.Trail k (read_keys data) n (.ret keys) l) :
    ∃ a b a' b', keys.key_for data = (claim_str data "kid").bind fun kid =>
      ((r.run.state a).capability_authority.bind fun ca =>
        ((r.run.state b).authorities ca).get_verification_key kid).or
      ((r.run.state a').trust_store.bind fun ts =>
        ((r.run.state b').trust_stores ts).get_pinned_key (token_issuer data)) := by
  unfold read_keys at h
  unfold KeySources.key_for
  cases hkid : claim_str data "kid" with
  | none => exact ⟨0, 0, 0, 0, rfl⟩
  | some kid =>
    simp only [hkid] at h
    obtain ⟨ca_key, m, hca, h⟩ := h.of_bind_ret
    have hauthority : authority_key kid = fun ca => ca.elim (.ret none) fun ca =>
        .step (.get_verification_key ca kid) .ret := by
      funext ca
      cases ca <;> rfl
    rw [hauthority] at hca
    obtain ⟨a, b, hkey⟩ := stored_key_trail hca
    cases ca_key with
    | some vk =>
      cases h.of_ret
      refine ⟨a, b, 0, 0, ?_⟩
      have hfound : (some vk) = (r.run.state a).capability_authority.bind fun ca =>
        ((r.run.state b).authorities ca).get_verification_key kid := hkey
      rw [bind_some, bind_some, ← hfound]
      rfl
    | none =>
      obtain ⟨ts_key, m', hts, h⟩ := h.of_bind_ret
      have hpinned : pinned_key (token_issuer data) = fun ts => ts.elim (.ret none) fun ts =>
          .step (.get_pinned_key ts (token_issuer data)) .ret := by
        funext ts
        cases ts <;> rfl
      rw [hpinned] at hts
      obtain ⟨a', b', hkey'⟩ := stored_key_trail hts
      cases h.of_ret
      refine ⟨a, b, a', b', ?_⟩
      have hfound : none = (r.run.state a).capability_authority.bind fun ca =>
        ((r.run.state b).authorities ca).get_verification_key kid := hkey
      rw [bind_some, bind_some, ← hfound, none_or, none_or, hkey']
      rfl

theorem verify_signature_trail {data : Json} {json sig : List UInt8}
    (h : r.run.Trail k (verify_signature H X epochs data json sig secret) n (.ret (.ok ())) l) :
    (token_sig_alg data ≠ ascii "ed25519" ∧ epochs.strict_asymmetric_mode = false ∧
        ∃ b, n ≤ b ∧ b < l ∧ r.run.Performs b k (.issuer_key (token_issuer data)) ∧
          (r.run.state b).gateway.verify_hmac H data json sig secret = .ok ()) ∨
      token_sig_alg data = ascii "ed25519" ∧
        ∃ keys m, r.run.Trail k (read_keys data) n (.ret keys) m ∧
        ZeroTrustGateway.verify_ed25519 X keys data json sig = .ok () := by
  unfold verify_signature at h
  split_ifs at h with hstrict halg
  · cases h.of_ret
  · obtain ⟨b, _, hnb, hbl, hb, -, h⟩ := h.of_step_ret
    refine .inl ⟨halg, ?_, b, hnb, hbl, hb, ?_⟩
    · rw [← Bool.not_eq_true]
      exact fun hmode => hstrict ⟨hmode, halg⟩
    · rw [← verify_hmac_with_eq]
      exact (ret.inj h.of_ret).symm
  · obtain ⟨keys, m, hkeys, h⟩ := h.of_bind_ret
    exact .inr ⟨not_not.mp halg, keys, m, hkeys, (ret.inj h.of_ret).symm⟩

/-- Call `k` has evaluated a token by position `l`, under the epochs of position `z`. -/
def Evaluated (r : GatewayRun H X) (k : ℕ) (target_agent : Text)
    (token_b64 issuer_secret : List UInt8) (z l : ℕ) (result : TokenValidationResult) (exp : ℚ) :
    Prop :=
  r.run.Performs z k .load_epochs ∧ ∃ g m, z < g ∧ m ≤ l ∧
    r.run.Trail k (evaluate_token H X (r.run.state z).gateway.epochs target_agent token_b64
      issuer_secret) g (.ret (.ok (result, exp))) m

/-- **The origin of a cached verdict**: a validation has evaluated it. -/
theorem entry_origin {x : ℕ} (h : r.run.Performs x k (.cache_insert key entry)) :
    ∃ target_agent token secret z exp,
      r.calls[k]? = some (.validate_lateral_movement target_agent token secret) ∧
      z < x ∧
      key = (r.run.state z).gateway.epochs.snapshot.cache_key H target_agent token secret ∧
      entry.generation = (r.run.state z).gateway.epochs.cache_generation ∧ entry.expiry ≤ exp ∧
      r.Evaluated k target_agent token secret z x entry.result exp := by
  obtain ⟨c, hc, hkind⟩ := call_of_performs h
  cases c with
  | validate_lateral_movement target_agent token secret =>
    obtain ⟨k', -, htrail⟩ := h.trail_map (prog_zero hc)
    obtain ⟨w, z, g, -, hwz, hzg, hgx, -, hz, -, hrest⟩ := validate_trail htrail nofun
    obtain ⟨hkey, hgen, exp, m, hmx, hexp, hevaluate⟩ := finish_trail_insert hrest
    exact ⟨target_agent, token, secret, z, exp, hc, hzg.trans hgx, hkey, hgen, hexp, hz,
      g + 1, m, by omega, hmx, hevaluate⟩
  | _ => exact absurd hkind.1 (by simp [kinds, kind])

theorem validate_of_verdict {v : Result TokenValidationResult}
    (h : r.run.answer n j = some (.verdict v)) :
    ∃ target_agent token secret,
      r.calls[j]? = some (.validate_lateral_movement target_agent token secret) := by
  obtain ⟨c, hc⟩ := call_of_prog rfl (answer_eq_some.mp h)
  cases c with
  | validate_lateral_movement target_agent token secret =>
    exact ⟨target_agent, token, secret, hc⟩
  | _ =>
    obtain ⟨b, hb, -⟩ := trail_map_answer h (prog_zero hc)
    cases hb

/-! ## Loads and lookups of a validation -/

section Validation

variable {j : ℕ} {target_agent : Text}
  (hc : r.calls[j]? = some (.validate_lateral_movement target_agent token secret))

include hc

theorem lookup_trail {g : ℕ} {key : Text} (hg : r.run.Performs g j (.cache_get key)) :
    ∃ w z, w < z ∧ z < g ∧ r.run.Performs w j .now ∧ r.run.Performs z j .load_epochs ∧
      let epochs := (r.run.state z).gateway.epochs
      key = epochs.snapshot.cache_key H target_agent token secret ∧
      r.run.prog (g + 1) j = some ((finish_validation H X epochs key
        (epochs.served (r.run.state w).clock ((r.run.state g).cached_entry key))
        target_agent token secret).map .verdict) := by
  obtain ⟨k, hprog, htrail⟩ := hg.trail_map (prog_zero hc)
  obtain hsame | ⟨w, _, -, -, hw, -, htrail⟩ := htrail.of_step
  · cases congrArg (next looks_up) hsame
  obtain hsame | ⟨z, _, hwz, hzg, hz, -, htrail⟩ := htrail.of_step
  · cases congrArg (next looks_up) hsame
  obtain hsame | ⟨g', _, -, -, -, -, htrail⟩ := htrail.of_step
  · cases hsame
    obtain ⟨inp, k', hprog', hnext, -⟩ := hg.succ
    cases hprog.symm.trans hprog'
    exact ⟨w, z, hwz, hzg, hw, hz, rfl, hnext⟩
  · -- there is only one lookup
    have honly := htrail.only (finish_validation_only _ _ _ _ _ _)
    rcases honly.1 with hevaluates | hinsert
    · cases (kind_of_evaluates hevaluates).2.2.2
    · cases hinsert

theorem loads_once {z z' : ℕ} (hz : r.run.Performs z j .load_epochs)
    (hz' : r.run.Performs z' j .load_epochs) : z = z' := by
  -- from the lookup on, nothing is loaded
  have honly : ∀ (now : ℚ) (epochs : GatewayEpochs), (step (.cache_get
      (epochs.snapshot.cache_key H target_agent token secret)) fun entry =>
        finish_validation H X epochs (epochs.snapshot.cache_key H target_agent token
          secret) (epochs.served now entry) target_agent token secret).Only
        (loads · = false) := by
    intro now epochs
    refine ⟨rfl, fun entry => (finish_validation_only _ _ _ _ _ _).mono ?_⟩
    intro γ act hact
    rcases hact with hevaluates | hinsert
    · exact (kind_of_evaluates hevaluates).2.2.1
    · cases act <;> first | rfl | cases hinsert
  have hlater : ∀ {z z' : ℕ}, r.run.Performs z j .load_epochs →
      r.run.Performs z' j .load_epochs → z' ≤ z := by
    intro z z' hz hz'
    by_contra hlt
    obtain ⟨k, hprog, htrail⟩ := hz.trail_map (prog_zero hc)
    obtain hsame | ⟨w, _, -, -, -, -, htrail⟩ := htrail.of_step
    · cases congrArg (next loads) hsame
    obtain hsame | ⟨z₁, _, -, -, -, -, htrail⟩ := htrail.of_step
    · cases hsame
      obtain ⟨inp, k', hprog', hnext, -⟩ := hz.succ
      cases hprog.symm.trans hprog'
      obtain ⟨inp', k'', -, hprog''⟩ := hz'
      obtain ⟨q, hq, hafter⟩ := Execution.trail hnext (Nat.succ_le_of_lt (Nat.lt_of_not_le hlt))
      obtain rfl : q = .step .load_epochs k'' := Option.some.inj (hq.symm.trans hprog'')
      cases (hafter.only ((honly _ _).map _)).1
    · cases (htrail.only (honly _ _)).1
  exact le_antisymm (hlater hz' hz) (hlater hz hz')

/-- **The origin of a verdict**: the cache, or an evaluation of its own. -/
theorem verdict_origin {n : ℕ} {result : TokenValidationResult}
    (h : r.run.answer n j = some (.verdict (.ok result))) :
    ∃ w z g, w < z ∧ z < g ∧ g < n ∧ r.run.Performs w j .now ∧ r.run.Performs z j .load_epochs ∧
      let epochs := (r.run.state z).gateway.epochs
      let cache_key := epochs.snapshot.cache_key H target_agent token secret
      r.run.Performs g j (.cache_get cache_key) ∧
      (epochs.served (r.run.state w).clock ((r.run.state g).cached_entry cache_key) = some result ∧
          r.run.answer (g + 1) j = some (.verdict (.ok result)) ∨
        ∃ exp x entry, r.run.Performs x j (.cache_insert cache_key entry) ∧
          r.Evaluated j target_agent token secret z n result exp) := by
  obtain ⟨c, hsame, htrail⟩ := trail_map_answer h (prog_zero hc)
  cases hsame
  obtain ⟨_, _, g, -, -, -, hgn, -, -, hg, -⟩ := validate_trail htrail nofun
  obtain ⟨w, z, hwz, hzg, hw, hz, hkey, hnext⟩ := lookup_trail hc hg
  rw [hkey] at hg
  refine ⟨w, z, g, hwz, hzg, hgn, hw, hz, hg, ?_⟩
  -- from the lookup on, with what it found
  obtain ⟨q, hq, hrest⟩ := Execution.trail hnext (Nat.succ_le_of_lt hgn)
  obtain rfl : q = .ret (.verdict (.ok result)) :=
    Option.some.inj (hq.symm.trans (answer_eq_some.mp h))
  obtain ⟨v, m, hfinish, hthen⟩ := hrest.of_bind_ret
  cases hthen.of_ret
  rw [hkey] at hfinish hnext
  obtain hserved | ⟨exp, m', x, entry, hm', hinsert, heval⟩ := finish_trail hfinish
  · refine .inl ⟨hserved, ?_⟩
    rw [answer_eq_some, hnext, hserved]
    rfl
  · have hmn := hthen.le
    exact .inr ⟨exp, x, entry, hinsert, hz, g + 1, m', by omega, by omega, heval⟩

end Validation

/-! ## What the cache serves -/

theorem served_eq_some {now : ℚ} {found : Option CacheEntry}
    (h : epochs.served now found = some result) :
    ∃ entry, found = some entry ∧ now < entry.expiry ∧
      entry.generation = epochs.cache_generation ∧ entry.result = result := by
  unfold GatewayEpochs.served at h
  split at h
  · rename_i entry
    split at h
    · rename_i hfresh
      exact ⟨entry, rfl, hfresh.1, hfresh.2, Option.some.inj h⟩
    · cases h
  · cases h

/-- Call `j` was answered out of the cache, with the verdict that call `k` had inserted. -/
def ServedBy (r : GatewayRun H X) (j k : ℕ) : Prop :=
  ∃ key g x result entry, r.run.Performs g j (.cache_get key) ∧
    r.run.answer (g + 1) j = some (.verdict (.ok result)) ∧ x < g ∧
    r.run.Performs x k (.cache_insert key entry) ∧ r.Untouched key x g

/-- The verdict of call `j` was computed by call `k`, which is `j` or has cached it. -/
def ComputedBy (r : GatewayRun H X) (j k : ℕ) : Prop :=
  (j = k ∧ ∃ x key entry, r.run.Performs x k (.cache_insert key entry)) ∨ r.ServedBy j k

theorem ComputedBy.inserted (h : r.ComputedBy j k) :
    ∃ x key entry, r.run.Performs x k (.cache_insert key entry) := by
  rcases h with ⟨rfl, hinsert⟩ | ⟨key, g, x, result, entry, -, -, -, hinsert, -⟩
  · exact hinsert
  · exact ⟨x, key, entry, hinsert⟩

variable (hcache : ∀ shard, r.start.gateway.token_cache shard = .empty)
include hcache

theorem computed_of_verdict (h : r.run.answer n j = some (.verdict (.ok result))) :
    ∃ k, r.ComputedBy j k := by
  obtain ⟨target_agent, token, secret, hc⟩ := validate_of_verdict h
  obtain ⟨w, z, g, -, -, -, -, -, hg, ⟨hserved, hanswer⟩ | ⟨exp, x, entry, hinsert, -⟩⟩ :=
    verdict_origin hc h
  · obtain ⟨entry, hfound, -⟩ := served_eq_some hserved
    obtain ⟨x, k, hxg, hinsert, huntouched⟩ := entry_inserted hcache hfound
    exact ⟨k, .inr ⟨_, g, x, result, entry, hg, hanswer, hxg, hinsert, huntouched⟩⟩
  · exact ⟨j, .inl ⟨rfl, x, _, entry, hinsert⟩⟩

variable (hwrap : r.publications r.ticks.length < 2 ^ 64)
include hwrap

/-- **What is served** was evaluated by a validation that had loaded the same epochs. -/
theorem served_origin {z g : ℕ} {now : ℚ} (hz : z ≤ r.ticks.length) (hg : g ≤ r.ticks.length)
    (h : (r.run.state z).gateway.epochs.served now ((r.run.state g).cached_entry key) =
      some result) :
    ∃ x k entry target_agent token secret z' exp, x < g ∧
      r.run.Performs x k (.cache_insert key entry) ∧ r.Untouched key x g ∧ now < entry.expiry ∧
      entry.expiry ≤ exp ∧
      r.calls[k]? = some (.validate_lateral_movement target_agent token secret) ∧
      z' < x ∧ r.publications z' = r.publications z ∧
      key = (r.run.state z').gateway.epochs.snapshot.cache_key H target_agent token secret ∧
      r.Evaluated k target_agent token secret z' x result exp := by
  obtain ⟨entry, hfound, hnow, hgen, rfl⟩ := served_eq_some h
  obtain ⟨x, k, hxg, hinsert, huntouched⟩ := entry_inserted hcache hfound
  obtain ⟨target_agent, token, secret, z', exp, hc, hzx, hkey, hgen', hexp, heval⟩ :=
    entry_origin hinsert
  -- too few publications for the generation to wrap around
  have hpub : r.publications z' = r.publications z := by
    have hlt : ∀ n ≤ r.ticks.length, r.publications n < 2 ^ 64 :=
      fun n hn => (count_mono hn).trans_lt hwrap
    have hnat := hgen'.symm.trans hgen
    rw [generation_eq, generation_eq, UInt64.add_right_inj] at hnat
    replace hnat := congrArg UInt64.toNat hnat
    rwa [UInt64.toNat_ofNat_of_lt' (hlt z' (by omega)), UInt64.toNat_ofNat_of_lt' (hlt z hz)]
      at hnat
  exact ⟨x, k, entry, target_agent, token, secret, z', exp, hxg, hinsert, huntouched,
    hnow, hexp, hc, hzx, hpub, hkey, heval⟩

/-! ## No stale verdict -/

theorem served_publications (hload : r.run.Performs m j .load_epochs) (hserved : r.ServedBy j k) :
    ∃ z target_agent token_b64 issuer_secret,
      r.calls[k]? = some (.validate_lateral_movement target_agent token_b64 issuer_secret) ∧
      r.run.Performs z k .load_epochs ∧ r.publications z = r.publications m := by
  obtain ⟨key, g, x, result, entry, hg, hanswer, hxg, hinsert, huntouched⟩ := hserved
  obtain ⟨target_agent, token_b64, issuer_secret, hc⟩ := validate_of_verdict hanswer
  obtain ⟨w, z, hwz, hzg, -, hz, -, hnext⟩ := lookup_trail hc hg
  obtain rfl := loads_once hc hload hz
  -- the lookup was the last section, so the verdict is the one that was found
  obtain ⟨v, hfinish, hv⟩ :=
    map_eq_ret (Option.some.inj (hnext.symm.trans (answer_eq_some.mp hanswer)))
  cases hv
  obtain hfound | ⟨exp, l, -, -, hl, -, heval⟩ :=
    finish_trail (r := r) (Execution.Trail.of_eq hfinish j (g + 1))
  · obtain ⟨x', k', entry', target, token, secret, z, exp, hxg', hinsert', huntouched', -, -, hc',
      -, hpub, -, heval⟩ := served_origin hcache hwrap hload.lt.le hg.lt.le hfound
    -- both are the last insert before the lookup
    obtain rfl : x = x' := by
      rcases lt_trichotomy x x' with hlt | heq | hlt
      · exact absurd hinsert' (huntouched x' hlt hxg' k' entry')
      · exact heq
      · exact absurd hinsert (huntouched' x hlt hxg k entry)
    obtain rfl := (hinsert.unique hinsert').1
    exact ⟨z, target, token, secret, hc', heval.1, hpub⟩
  · obtain ⟨_, _, _, a, b, c, -, hga, hab, hbc, hcl, -⟩ := evaluate_trail heval
    omega

/-- **No stale verdict.** A validation that loads the epochs after an operation has returned never
returns what was computed by a validation that had loaded them before the operation published its
own. -/
theorem no_stale_verdict {i j k n m : ℕ} (hreturned : (r.run.answer n i).isSome)
    (hload : r.run.Performs m j .load_epochs) (hafter : n ≤ m) (hcomputed : r.ComputedBy j k) :
    ∃ z, r.run.Performs z k .load_epochs ∧ (∀ z', r.run.Performs z' k .load_epochs → z' = z) ∧
      ∀ y mutate, r.run.Performs y i (.publish mutate) → y < z := by
  rcases hcomputed with ⟨rfl, x, key, entry, hinsert⟩ | hserved
  · obtain ⟨target_agent, token, secret, z, exp, hc, -⟩ := entry_origin hinsert
    refine ⟨m, hload, fun z' hz' => loads_once hc hz' hload, fun y mutate hy => ?_⟩
    exact (hy.lt_of_answer hreturned).trans_le hafter
  · obtain ⟨z, target_agent, token, secret, hc, hz, hpub⟩ :=
      served_publications hcache hwrap hload hserved
    refine ⟨z, hz, fun z' hz' => loads_once hc hz' hz, fun y mutate hy => ?_⟩
    -- otherwise the publication stands between the two loads
    by_contra hle
    have hlt : r.publications z < r.publications m := count_lt_count (Nat.le_of_not_lt hle)
        ((hy.lt_of_answer hreturned).trans_le hafter) (does_iff.mpr ⟨i, _, _, hy, rfl⟩)
    omega

omit hcache hwrap

def sampleValidations : GatewayRun sampleHashes sampleCrates where
  calls := [.clear_trusted_issuers,
    .validate_lateral_movement (ascii "svc") sampleToken (List.replicate 32 7),
    .validate_lateral_movement (ascii "svc") sampleToken (List.replicate 32 7)]
  start := .new 1000
  ticks := List.replicate 18 (.thread 0 ()) ++ List.replicate 8 (.thread 1 ()) ++
    List.replicate 3 (.thread 2 ())

theorem no_stale_verdict_sample : ∃ k z, k ≠ 2 ∧ sampleValidations.ComputedBy 2 k ∧
      sampleValidations.run.Performs z k .load_epochs ∧
      ∀ y mutate, sampleValidations.run.Performs y 0 (.publish mutate) → y < z := by
  have hcache : ∀ shard, sampleValidations.start.gateway.token_cache shard = .empty := fun _ => rfl
  have hwrap : sampleValidations.publications sampleValidations.ticks.length < 2 ^ 64 :=
    count_le.trans_lt (by decide)
  obtain ⟨hreturned, hloads, haccepts, hnone⟩ : (sampleValidations.run.answer 18 0).isSome = true ∧
      sampleValidations.run.performs loads 27 2 = true ∧
      (sampleValidations.run.answer 29 2).any GatewayAnswer.accepts = true ∧
      ∀ x < 29, sampleValidations.run.performs (is .insert) x 2 = false := by
    decide +kernel
  obtain ⟨result, hanswer⟩ := accepts_iff.mp haccepts
  obtain ⟨k, hcomputed⟩ := computed_of_verdict hcache hanswer
  obtain ⟨z, hz, -, hbefore⟩ :=
    no_stale_verdict hcache hwrap hreturned (performs_load.mp hloads) (by decide) hcomputed
  refine ⟨k, z, ?_, hcomputed, hz, hbefore⟩
  -- the second validation inserts nothing itself
  rintro rfl
  obtain ⟨x, key, entry, hinsert⟩ := hcomputed.inserted
  have hdoes : sampleValidations.run.performs (is .insert) x 2 = true :=
    performs_iff.mpr ⟨_, _, hinsert, rfl⟩
  rw [hnone x hinsert.lt] at hdoes
  cases hdoes

end GatewayRun

end Saacp
