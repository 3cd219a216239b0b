/-
**Validation next to recovery**: whether a validation that runs while the gateway is being recovered
could as well have run in one moment.

The epochs are loaded once, but the issuer registry and the revocations are read later, under locks
of their own. `Steady` is what is needed: the epochs are loaded when no operation is under way, and
up to its own reads nothing happens to the registry, and no revocation of the token is dropped. Then
the moment is that of the load. For a verdict out of the cache it is that of the load of the
validation that had computed it, or the beginning of the validation itself, whichever is later.
-/
import Saacp.CacheTransparency
import Saacp.RevocationRuns

set_option autoImplicit false

open ByteCodec Atomic

namespace Saacp

open Execution GatewayCall GatewaySection

namespace GatewayCall

def recovers : GatewayCall → Bool
  | .revoke_token _ | .revoke_all_tokens | .register_issuer_key .. | .clear_trusted_issuers
  | .set_strict_asymmetric_mode _ => true
  | _ => false

def validates : GatewayCall → Bool
  | .validate_lateral_movement .. => true
  | _ => false

def alone (H : Hashes) (X : Crates) (c : GatewayCall) (s : SharedGateway) : GatewayAnswer :=
  ((c.prog H X).run (gateway_sections H) (fun _ => ()) s).2.2

end GatewayCall

theorem alone_validate {H : Hashes} {X : Crates} {s : SharedGateway} {target : Text}
    {token secret : List UInt8} {result : TokenValidationResult} {exp : ℚ}
    (h : s.gateway.evaluate_token H X s.keys target token secret s.clock = .ok (result, exp)) :
    (GatewayCall.validate_lateral_movement target token secret).alone H X
      s.uncached = .verdict (.ok result) := by
  have hvalidate : s.uncached.validate H X target token secret = .ok result := by
    rw [validate_uncached, h]
    rfl
  have hfits : (GatewayCall.validate_lateral_movement target token secret).Fits H X
    s.uncached := trivial
  rw [alone, prog_run _ hfits]
  exact congrArg GatewayAnswer.verdict hvalidate

/-! ## What a section leaves alone -/

/-- The section has changed the registry, or added a revocation. -/
def GatewaySection.changes {γ : Type} : GatewaySection γ → γ → Prop
  | .revoke .., _ => True
  | .issuers_clear, _ => True
  | .issuer_insert .., answer => answer.isOk = true
  | _, _ => False

def SharedGateway.sources (s : SharedGateway) :
    Option ℕ × Option ℕ × (ℕ → CapabilityVerificationAuthority) × (ℕ → TrustStore) :=
  (s.capability_authority, s.trust_store, s.authorities, s.trust_stores)

theorem keys_of_sources {s s' : SharedGateway} (h : s'.sources = s.sources) : s'.keys = s.keys := by
  simp only [SharedGateway.sources, Prod.mk.injEq] at h
  obtain ⟨hca, hts, hauthorities, hstores⟩ := h
  unfold SharedGateway.keys
  rw [hca, hts, hauthorities, hstores]

section Frame

variable {H : Hashes} {s : SharedGateway} {γ : Type} {act : GatewaySection γ}

theorem exec_sources (hsource : act.kind ≠ .source) (hkey : act.kind ≠ .key) :
    (s.exec H act).1.sources = s.sources := by
  cases act with
  | issuer_insert issuer secret =>
    obtain ⟨keys, hkeys⟩ := insert_issuer_frame H s issuer secret
    rw [hkeys]
    rfl
  | store_authority | store_trust_store => exact absurd rfl hsource
  | register_key | revoke_trusted_key | pin_identity => exact absurd rfl hkey
  | _ => rfl

theorem exec_registry (h : act.kind ≠ .registry) :
    (s.exec H act).1.gateway.trusted_issuer_keys = s.gateway.trusted_issuer_keys := by
  cases act with
  | issuer_insert | issuers_clear => exact absurd rfl h
  | _ => rfl

theorem exec_unchanged (h : ¬ act.changes (s.exec H act).2) :
    (s.exec H act).1.gateway.trusted_issuer_keys = s.gateway.trusted_issuer_keys ∧
      ∀ sig_hash, s.gateway.is_token_revoked sig_hash = false →
        (s.exec H act).1.gateway.is_token_revoked sig_hash = false := by
  cases act with
  | revoke | issuers_clear => exact absurd trivial h
  | issuer_insert issuer secret =>
    simp only [SharedGateway.exec, SharedGateway.insert_issuer, changes] at h ⊢
    split_ifs at h ⊢
    · exact ⟨rfl, fun _ hnot => hnot⟩
    · exact absurd rfl h
  | revoked_prune shard now =>
    exact ⟨rfl, fun _ hnot => Table.contains_eq_false_of_le (Table.retain_le _ _) hnot⟩
  | revoked_remove sig_hash =>
    exact ⟨rfl, fun _ hnot => Table.contains_eq_false_of_le (Table.remove_le _ _) hnot⟩
  | _ => exact ⟨rfl, fun _ hnot => hnot⟩

end Frame

/-! ## What changes is published -/

section Published

variable {H : Hashes} {X : Crates}

def Publishes {γ : Type} (act : GatewaySection γ) : Prop := act.kind = .publish

theorem not_changes_of_kind {kinds : List SectionKind} {α : Type} {p : Prog GatewaySection α}
    (h : p.Only (OfKinds kinds)) (hregistry : .registry ∉ kinds) (hrevoke : .revoke ∉ kinds) :
    p.Only fun act => ∀ b, ¬ act.changes b := by
  refine h.mono fun act hact b hchanges => ?_
  cases act with
  | revoke => exact hrevoke hact.1
  | issuers_clear | issuer_insert => exact hregistry hact.1
  | _ => exact hchanges.elim

theorem clear_token_cache_unchanging : clear_token_cache.Only fun act => ∀ b, ¬ act.changes b := by
  have honly : clear_token_cache.Only (OfKinds [.clear]) := clear_token_cache_only (.head _)
  exact not_changes_of_kind honly (by decide) (by decide)

theorem update_epochs_must (mutate : GatewayEpochs → GatewayEpochs) :
    (update_epochs mutate).Must Publishes := .inl rfl

theorem publish_registry_must : publish_registry.Must Publishes :=
  Prog.Must.after (fun _ => (update_epochs_must _).bind _) _

theorem publish_registry_followed :
    publish_registry.Followed (fun act => act.changes) Publishes := by
  have honly : publish_registry.Only (OfKinds [.clear, .publish]) :=
    publish_registry_only (.head _) (.tail _ (.head _))
  exact Prog.Followed.of_only (not_changes_of_kind honly (by decide) (by decide))

theorem after_revoking_must : after_revoking.Must Publishes :=
  Prog.Must.after (fun _ => Prog.Must.after (fun _ => (update_epochs_must _).bind _) _) _

theorem revoke_token_shape (token : List UInt8) :
    (∃ err, revoke_token H X token = .ret (.error err)) ∨
      ∃ parsed : List UInt8 × Text, revoke_token H X token =
        (revocation_expiry X parsed.1).bind fun exp =>
          .step (.revoke parsed.2 exp) fun _ => after_revoking := by
  unfold revoke_token
  cases parse_revoked H X token with
  | error err => exact .inl ⟨err, rfl⟩
  | ok parsed => exact .inr ⟨parsed, rfl⟩

theorem register_issuer_key_shape (issuer : Text) (secret : List UInt8) :
    (∃ err, register_issuer_key X issuer secret = .ret (.error err)) ∨
      register_issuer_key X issuer secret =
        (Prog.step (.issuer_insert issuer secret) .ret).andThen fun _ =>
          publish_registry.map fun _ => .ok () := by
  unfold register_issuer_key
  cases check_issuer X issuer secret with
  | error err => exact .inl ⟨err, rfl⟩
  | ok u => exact .inr rfl

/-- **Every change is published**, by the call that has made it. -/
theorem prog_followed (c : GatewayCall) :
    (c.prog H X).Followed (fun act => act.changes) Publishes := by
  cases c with
  | revoke_token token =>
    refine Prog.Followed.map ?_ _
    obtain ⟨err, hshape⟩ | ⟨parsed, hshape⟩ := revoke_token_shape (H := H) (X := X) token
    · rw [hshape]
      trivial
    · have hexpiry : (revocation_expiry X parsed.1).Only (OfKinds [.read]) :=
        revocation_expiry_only _ (.head _)
      rw [hshape]
      refine Prog.Followed.bind (not_changes_of_kind hexpiry (by decide) (by decide)) fun exp => ?_
      refine fun _ => ⟨fun _ => after_revoking_must, ?_⟩
      exact Prog.Followed.of_only (not_changes_of_kind after_revoking_only (by decide) (by decide))
  | revoke_all_tokens =>
    refine Prog.Followed.map ?_ _
    refine fun now => ⟨fun hnow => hnow.elim, ?_⟩
    refine Prog.Followed.bind clear_token_cache_unchanging fun _ => ?_
    have hpublish : ∀ mutate, (update_epochs mutate).Followed (fun act => act.changes) Publishes :=
      fun mutate e => ⟨fun hchanges => hchanges.elim, trivial⟩
    exact fun _ => ⟨fun _ => (update_epochs_must _).bind _, (hpublish _).map _⟩
  | register_issuer_key issuer secret =>
    refine Prog.Followed.map ?_ _
    obtain ⟨err, hshape⟩ | hshape := register_issuer_key_shape (X := X) issuer secret
    · rw [hshape]
      trivial
    · rw [hshape]
      intro answer
      cases answer with
      | error err => exact ⟨nofun, trivial⟩
      | ok u => exact ⟨fun _ => publish_registry_must.bind _, publish_registry_followed.map _⟩
  | clear_trusted_issuers =>
    refine Prog.Followed.map ?_ _
    exact fun _ => ⟨fun _ => publish_registry_must, publish_registry_followed⟩
  | _ =>
    refine Prog.Followed.of_only (not_changes_of_kind (prog_only _) ?_ ?_)
    all_goals simp [kinds]

/-- An operation publishes before it returns, or returns at its first section. -/
def Brief {α : Type} : Prog GatewaySection α → Prop
  | .ret _ => True
  | .step act k => Publishes act ∨ ∀ b, (k b).Must Publishes ∨ ∃ a, k b = .ret a

theorem brief_of_must {α : Type} {p : Prog GatewaySection α} (h : p.Must Publishes) : Brief p := by
  cases p with
  | ret a => trivial
  | step act k => exact h.imp_right fun hk b => .inl (hk b)

theorem prog_brief {c : GatewayCall} (h : c.recovers = true) : Brief (c.prog H X) := by
  cases c with
  | revoke_token token =>
    show Brief ((revoke_token H X token).map GatewayAnswer.revoked)
    obtain ⟨err, hshape⟩ | ⟨parsed, hshape⟩ := revoke_token_shape (H := H) (X := X) token
    · rw [hshape]
      trivial
    · have hmust :
          ∀ exp, (Prog.step (.revoke parsed.2 exp) fun _ => after_revoking).Must Publishes :=
        fun exp => Or.inr fun _ => after_revoking_must
      rw [hshape]
      exact brief_of_must (Prog.Must.bind (Prog.Must.after hmust _) _)
  | revoke_all_tokens =>
    have hmust : revoke_all_tokens.Must Publishes := by
      refine Or.inr fun now => Prog.Must.after (fun _ => ?_) _
      exact Or.inr fun _ => (update_epochs_must _).bind _
    exact brief_of_must (hmust.bind _)
  | register_issuer_key issuer secret =>
    show Brief ((register_issuer_key X issuer secret).map GatewayAnswer.registered)
    obtain ⟨err, hshape⟩ | hshape := register_issuer_key_shape (X := X) issuer secret
    · rw [hshape]
      trivial
    · rw [hshape]
      refine Or.inr fun answer => ?_
      cases answer with
      | error err => exact .inr ⟨_, rfl⟩
      | ok u => exact .inl (Prog.Must.bind (publish_registry_must.bind _) _)
  | clear_trusted_issuers =>
    have hmust : clear_trusted_issuers.Must Publishes := Or.inr fun _ => publish_registry_must
    exact brief_of_must (hmust.bind _)
  | set_strict_asymmetric_mode enabled =>
    exact brief_of_must (Prog.Must.bind ((update_epochs_must _).bind _) _)
  | _ => cases h

end Published

namespace GatewayRun

variable {H : Hashes} {X : Crates} {r : GatewayRun H X}

/-! ## Boundaries of operations -/

/-- No operation is under way: each has not begun or has returned. -/
def Settled (r : GatewayRun H X) (n : ℕ) : Prop :=
  ∀ i c, r.calls[i]? = some c → c.recovers = true →
    (∀ m < n, r.run.moves m i = false) ∨ (r.run.answer n i).isSome = true

def During (r : GatewayRun H X) (j n : ℕ) : Prop :=
  (∃ w, w ≤ n ∧ r.run.moves w j = true) ∧ r.run.answer n j = none

/-- Validations load the epochs while no operation is under way, and up to their own reads the
registry is left alone and the revocation of their token is kept. -/
structure Steady (r : GatewayRun H X) : Prop where
  settled : ∀ i z, r.run.Performs z i .load_epochs → r.Settled z
  registry : ∀ i z b issuer, r.run.Performs z i .load_epochs →
    r.run.Performs b i (.issuer_key issuer) →
    ∀ x, z < x → x < b → r.run.does (GatewaySection.is .registry) x = false
  revoked : ∀ i z a sig_hash, r.run.Performs z i .load_epochs →
    r.run.Performs a i (.is_revoked sig_hash) →
    (r.run.state z).gateway.is_token_revoked sig_hash = true →
    (r.run.state a).gateway.is_token_revoked sig_hash = true

/-- Only validations, and the operations that the gateway is recovered with. -/
def Recovering (r : GatewayRun H X) : Prop :=
  ∀ c ∈ r.calls, c.validates = true ∨ c.recovers = true

theorem sources_eq (hcalls : r.Recovering) (n : ℕ) : (r.run.state n).sources = r.start.sources := by
  refine r.run.rel_of_steps (fun s s' => s'.sources = s.sources) (fun _ => rfl)
    (fun _ _ _ hab hbc => hbc.trans hab) (Nat.zero_le n) fun x _ _ => ?_
  refine r.run.rel_succ (fun s s' => s'.sources = s.sources) rfl (fun _ => rfl) ?_
  intro i inp γ act hact
  obtain ⟨c, hc, hkinds⟩ := call_of_performs hact
  have hnot : SectionKind.source ∉ c.kinds ∧ SectionKind.key ∉ c.kinds := by
    have hcall := hcalls c (List.mem_of_getElem? hc)
    cases c <;> simp [validates, recovers, kinds] at hcall ⊢
  refine exec_sources ?_ ?_
  · intro hkind
    exact hnot.1 (hkind ▸ hkinds.1)
  · intro hkind
    exact hnot.2 (hkind ▸ hkinds.1)

theorem key_for_eq (hcalls : r.Recovering) {k n l : ℕ} {data : Json} {keys : KeySources}
    (h : r.run.Trail k (read_keys data) n (.ret keys) l) (z : ℕ) :
    (r.run.state z).keys.key_for data = keys.key_for data := by
  have hparts : ∀ m, (r.run.state m).capability_authority = (r.run.state z).capability_authority ∧
      (r.run.state m).trust_store = (r.run.state z).trust_store ∧
      (r.run.state m).authorities = (r.run.state z).authorities ∧
      (r.run.state m).trust_stores = (r.run.state z).trust_stores := by
    intro m
    have hsame := (sources_eq hcalls m).trans (sources_eq hcalls z).symm
    simpa only [SharedGateway.sources, Prod.mk.injEq] using hsame
  obtain ⟨a, b, a', b', hkeys⟩ := read_keys_trail h
  rw [hkeys, (hparts a).1, (hparts b).2.2.1, (hparts a').2.1, (hparts b').2.2.2]
  rfl

theorem registry_eq {n m : ℕ} (hnm : n ≤ m)
    (h : ∀ x, n ≤ x → x < m → r.run.does (is .registry) x = false) :
    (r.run.state m).gateway.trusted_issuer_keys = (r.run.state n).gateway.trusted_issuer_keys := by
  refine r.run.rel_of_steps
    (fun s s' => s'.gateway.trusted_issuer_keys = s.gateway.trusted_issuer_keys) (fun _ => rfl)
    (fun _ _ _ hab hbc => hbc.trans hab) hnm fun x hnx hxm => ?_
  refine r.run.rel_succ
    (fun s s' => s'.gateway.trusted_issuer_keys = s.gateway.trusted_issuer_keys) rfl
    (fun _ => rfl) ?_
  intro i inp γ act hact
  refine exec_registry fun hkind => ?_
  have hdoes : r.run.does (is .registry) x = true :=
    does_iff.mpr ⟨i, γ, act, hact, decide_eq_true hkind⟩
  rw [h x hnx hxm] at hdoes
  cases hdoes

/-- **The moment of a validation** is that of its load. -/
theorem evaluated_at_load (hcalls : r.Recovering) (hsteady : r.Steady) {k z l : ℕ}
    {target : Text} {token secret : List UInt8} {result : TokenValidationResult}
    {exp : ℚ} (h : r.Evaluated k target token secret z l result exp) :
    (r.run.state z).gateway.evaluate_token H X (r.run.state z).keys target token
      secret (r.run.state z).clock = .ok (result, exp) := by
  obtain ⟨hz, g, m, hzg, -, htrail⟩ := h
  obtain ⟨json, sig, data, a, b, c, hparse, hga, hab, hbc, -, hnot, hverify, hblanket,
    hfresh, hclaims, hlookup⟩ := evaluate_trail htrail
  refine evaluate_token_eq_ok.mpr ⟨json, sig, data, hparse, ?_, ?_, hblanket, ?_, hclaims⟩
  · -- what is not revoked at the lookup was not revoked at the load
    rw [← Bool.not_eq_true]
    intro hrevoked
    rw [hsteady.revoked k z a _ hz hlookup hrevoked] at hnot
    cases hnot
  · unfold ZeroTrustGateway.verify_signature
    obtain ⟨halg, hmode, b', hab', hbb', hread, hhmac⟩ | ⟨halg, keys, m', hkeys, hed⟩ :=
      verify_signature_trail hverify
    · rw [if_neg (by simp [hmode]), if_pos halg]
      have hregistry := registry_eq (r := r) (n := z) (m := b') (by omega) fun x hzx hxb => by
        rcases Nat.lt_or_eq_of_le hzx with hlt | rfl
        · exact hsteady.registry k z b' _ hz hread x hlt hxb
        · rw [← Bool.not_eq_true]
          intro hdoes
          obtain ⟨i, γ, act, hact, hkind⟩ := does_iff.mp hdoes
          rw [← (hz.unique hact).2 (is .registry)] at hkind
          cases hkind
      rw [ZeroTrustGateway.verify_hmac, hregistry] at hhmac
      exact hhmac
    · rw [if_neg (by simp [halg]), if_neg (not_not.mpr halg)]
      rw [verify_ed25519_congr (key_for_eq hcalls hkeys z)]
      exact hed
  · -- the clock has not stood still since
    have hclock : (r.run.state z).clock ≤ (r.run.state c).clock := clock_mono (by omega)
    rw [check_expiry, if_neg (not_lt.mpr (hclock.trans (check_expiry_ok hfresh)))]

/-! ## Between two loads -/

theorem not_publishing {z z' y i : ℕ} {γ : Type} {act : GatewaySection γ}
    (hpub : r.publications z = r.publications z') (hzy : z ≤ y) (hyz : y < z')
    (h : r.run.Performs y i act) : ¬ Publishes act := by
  intro hpublishes
  have hlt : r.publications z < r.publications z' := count_lt_count hzy hyz
      (does_iff.mpr ⟨i, γ, act, h, decide_eq_true hpublishes⟩)
  omega

/-- **Calm**: with no operation under way at the end and no publication, nothing is changed. -/
theorem calm (hcalls : r.Recovering) {z w z' : ℕ} (hzw : z ≤ w) (hwz : w ≤ z')
    (hpub : r.publications z = r.publications z') (hsettled : r.Settled z') :
    (r.run.state w).gateway.trusted_issuer_keys = (r.run.state z).gateway.trusted_issuer_keys ∧
      ∀ sig_hash, (r.run.state z).gateway.is_token_revoked sig_hash = false →
        (r.run.state w).gateway.is_token_revoked sig_hash = false := by
  let R : SharedGateway → SharedGateway → Prop := fun s s' =>
    s'.gateway.trusted_issuer_keys = s.gateway.trusted_issuer_keys ∧
      ∀ sig_hash, s.gateway.is_token_revoked sig_hash = false →
        s'.gateway.is_token_revoked sig_hash = false
  have hrefl : ∀ s, R s s := fun s => ⟨rfl, fun _ => id⟩
  refine r.run.rel_of_steps R hrefl ?_ hzw fun x hzx hxw => ?_
  · intro a b c hab hbc
    exact ⟨hbc.1.trans hab.1, fun sig_hash hnot => hbc.2 sig_hash (hab.2 sig_hash hnot)⟩
  refine r.run.rel_succ R (hrefl _) (fun _ => ⟨rfl, fun _ => id⟩) ?_
  intro i inp γ act hact
  refine exec_unchanged fun hchanges => ?_
  obtain ⟨c, hc, hkinds⟩ := call_of_performs hact
  have hrecovers : c.recovers = true := by
    refine (hcalls c (List.mem_of_getElem? hc)).resolve_left fun hvalidates => ?_
    cases c with
    | validate_lateral_movement =>
      exact (not_changes_of_kind (p := .step act .ret) ⟨hkinds, fun _ => trivial⟩
        (by simp [kinds]) (by simp [kinds])).1 _ hchanges
    | _ => cases hvalidates
  -- the call has returned, so it has published what it had changed
  rcases hsettled i c hc hrecovers with hunmoved | hreturned
  · have hmoves := hact.moves
    rw [hunmoved x (by omega)] at hmoves
    cases hmoves
  · obtain ⟨y, γ', act', hxy, hyz, hy, hpublishes⟩ :=
      hact.followed (prog_zero hc) (prog_followed c) (fun _ => hchanges) hreturned
    exact not_publishing hpub (by omega) hyz hy hpublishes

theorem Settled.between {z w z' : ℕ} (hz : r.Settled z) (hz' : r.Settled z') (hzw : z ≤ w)
    (hwz : w ≤ z') (hpub : r.publications z = r.publications z') : r.Settled w := by
  intro i c hc hrecovers
  by_cases hunmoved : ∀ m < w, r.run.moves m i = false
  · exact .inl hunmoved
  refine .inr ?_
  rcases hz i c hc hrecovers with hbefore | hreturned
  swap
  · obtain ⟨b, hb⟩ := Option.isSome_iff_exists.mp hreturned
    rw [answer_mono hb hzw]
    rfl
  -- the first move
  have hexists : ∃ v, v < w ∧ r.run.moves v i = true := by
    by_contra hnone
    refine hunmoved fun m hm => ?_
    rw [← Bool.not_eq_true]
    exact fun hmoves => hnone ⟨m, hm, hmoves⟩
  obtain ⟨hvw, hmoves⟩ := Nat.find_spec hexists
  have hfirst : ∀ m < Nat.find hexists, r.run.moves m i = false := by
    intro m hm
    rw [← Bool.not_eq_true]
    exact fun hmoved => Nat.find_min hexists hm ⟨hm.trans hvw, hmoved⟩
  generalize Nat.find hexists = v at hvw hmoves hfirst
  have hzv : z ≤ v := by
    by_contra hlt
    rw [hbefore v (Nat.lt_of_not_le hlt)] at hmoves
    cases hmoves
  have hprog : r.run.prog v i = some (c.prog H X) := (prog_of_not_moves hfirst).trans (prog_zero hc)
  obtain ⟨b, hret, -⟩ | ⟨γ, act, k, hstep, hact⟩ := moves_cases hprog hmoves
  · rw [hret] at hprog
    rw [answer_mono (answer_eq_some.mpr hprog) hvw.le]
    rfl
  have hbrief := prog_brief (H := H) (X := X) hrecovers
  rw [hstep] at hbrief
  rcases hbrief with hpublishes | hbrief
  · exact absurd hpublishes (not_publishing hpub hzv (by omega) hact)
  obtain ⟨inp, k', hprog', hnext, -⟩ := hact.succ
  rw [hprog, hstep] at hprog'
  cases hprog'
  rcases hbrief (r.run.sem.exec i act inp (r.run.state v)).2 with hmust | ⟨b, hb⟩
  · -- it would have published by the end
    obtain hunmoved' | hreturned := hz' i c hc hrecovers
    · rw [hunmoved' v (by omega)] at hmoves
      cases hmoves
    obtain ⟨b, hb⟩ := Option.isSome_iff_exists.mp hreturned
    obtain ⟨q, hq, hafter⟩ := Execution.trail hnext (show v + 1 ≤ z' by omega)
    obtain rfl : q = .ret b := Option.some.inj (hq.symm.trans (answer_eq_some.mp hb))
    obtain ⟨y, γ', act', hvy, hyz, hy, hpublishes⟩ := hafter.must_ret hmust
    exact absurd hpublishes (not_publishing hpub (by omega) hyz hy)
  · rw [hb] at hnext
    rw [answer_mono (answer_eq_some.mpr hnext) hvw]
    rfl

/-- **Validation is linearizable** next to recovery, as long as the run is steady: a validation that
returns `Ok` returns it too when it is executed alone, with an empty cache, in some state between
its start and its end in which no operation is under way. -/
theorem validation_linearizable (hH : H.Sized)
    (hcache : ∀ shard, r.start.gateway.token_cache shard = .empty)
    (hwrap : r.publications r.ticks.length < 2 ^ 64) (hcalls : r.Recovering) (hsteady : r.Steady)
    (hfree : ∀ target token secret target' token' secret',
      .validate_lateral_movement target token secret ∈ r.calls →
      .validate_lateral_movement target' token' secret' ∈ r.calls →
      (H.sha256 token = H.sha256 token' → token = token') ∧
        (H.sha256 secret = H.sha256 secret' → secret = secret')) {j n : ℕ} {target_agent : Text}
    {token_b64 issuer_secret : List UInt8} {result : TokenValidationResult}
    (hj : r.calls[j]? = some (.validate_lateral_movement target_agent token_b64 issuer_secret))
    (hanswer : r.run.answer n j = some (.verdict (.ok result))) :
    ∃ m, r.During j m ∧ r.Settled m ∧
      (GatewayCall.validate_lateral_movement target_agent token_b64 issuer_secret).alone H X
        (r.run.state m).uncached = .verdict (.ok result) := by
  obtain ⟨w, z, g, hwz, hzg, -, hw, hz, hg, hfound⟩ := verdict_origin hj hanswer
  have hduring : ∀ m, w ≤ m → m ≤ g → r.During j m := by
    intro m hwm hmg
    refine ⟨⟨w, hwm, hw.moves⟩, Option.not_isSome_iff_eq_none.mp fun hreturned => ?_⟩
    have hlt := hg.lt_of_answer hreturned
    omega
  obtain ⟨hserved, -⟩ | ⟨exp, x, entry, -, heval⟩ := hfound
  · obtain ⟨x, k, entry, target, token, secret, z', exp, hxg, -, -, hfresh, hexp, hk, hzx, hpub,
      hkey, heval⟩ := served_origin hcache hwrap hz.lt.le hg.lt.le hserved
    have hsame := same_key hH hpub hkey
    have hinj := hfree _ _ _ _ _ _ (List.mem_of_getElem? hj) (List.mem_of_getElem? hk)
    obtain rfl := hsame.1
    obtain rfl := hinj.1 hsame.2.1
    obtain rfl := hinj.2 hsame.2.2
    have hthen := evaluated_at_load hcalls hsteady heval
    have hsettled' := hsteady.settled k z' heval.1
    rcases Nat.lt_or_ge z' w with hlt | hge
    · -- the verdict is older than the validation
      have hsettled := hsteady.settled j z hz
      obtain ⟨hregistry, hrevoked⟩ := calm hcalls hlt.le hwz.le hpub hsettled
      have hpubw : r.publications z' = r.publications w := by
        have hle : r.publications z' ≤ r.publications w := count_mono hlt.le
        have hge : r.publications w ≤ r.publications z := count_mono hwz.le
        omega
      have hkeys := keys_of_sources ((sources_eq hcalls w).trans (sources_eq hcalls z').symm)
      have hnow := evaluate_token_transfer hthen (epochs_eq hlt.le hpubw) hregistry hrevoked
        (fun data _ _ _ => congrArg (·.key_for data) hkeys) (hfresh.le.trans hexp)
      exact ⟨w, hduring w (le_refl w) (by omega),
        hsettled'.between hsettled hlt.le hwz.le hpub, alone_validate hnow⟩
    · exact ⟨z', hduring z' hge (by omega), hsettled', alone_validate hthen⟩
  · exact ⟨z, hduring z hwz.le hzg.le, hsteady.settled j z hz,
      alone_validate (evaluated_at_load hcalls hsteady heval)⟩

theorem steady_sampleValidations : sampleValidations.Steady := by
  obtain ⟨hloads, hregistry⟩ : (∀ z < 29, ∀ i < 3, sampleValidations.run.performs loads z i = true →
        18 ≤ z ∧ (sampleValidations.run.answer z 0).isSome = true) ∧
      ∀ x < 29, sampleValidations.run.does (is .registry) x = true → x < 18 := by
    decide +kernel
  have hload : ∀ i z, sampleValidations.run.Performs z i .load_epochs →
      18 ≤ z ∧ (sampleValidations.run.answer z 0).isSome = true := by
    intro i z hz
    obtain ⟨c, hc, -⟩ := call_of_performs hz
    exact hloads z hz.lt i (List.getElem?_eq_some_iff.mp hc).1 (performs_load.mpr hz)
  refine ⟨fun i z hz i' c hc hrecovers => ?_, fun i z b issuer hz hb x hzx hxb => ?_,
    fun i z a sig_hash hz ha hrevoked => ?_⟩
  · -- only the first call is an operation
    match i' with
    | 0 => exact .inr (hload i z hz).2
    | 1 | 2 =>
      cases hc
      cases hrecovers
    | i' + 3 => cases hc
  · rw [← Bool.not_eq_true]
    intro hdoes
    have hlt := hregistry x (hxb.trans hb.lt) hdoes
    have hle := (hload i z hz).1
    omega
  · obtain ⟨exp, hexp⟩ := Option.isSome_iff_exists.mp hrevoked
    have hmem := (revocation_origin rfl z hexp).mem_revocations
    cases hmem

theorem validation_linearizable_sample :
    ∃ result m, sampleValidations.run.answer 29 2 = some (.verdict (.ok result)) ∧
      sampleValidations.During 2 m ∧ sampleValidations.Settled m ∧
      (GatewayCall.validate_lateral_movement (ascii "svc") sampleToken
        (List.replicate 32 7)).alone sampleHashes sampleCrates
        (sampleValidations.run.state m).uncached = .verdict (.ok result) := by
  have haccepts : (sampleValidations.run.answer 29 2).any GatewayAnswer.accepts = true := by
    decide +kernel
  obtain ⟨result, hanswer⟩ := accepts_iff.mp haccepts
  have hvalidate : ∀ target token secret,
      .validate_lateral_movement target token secret ∈ sampleValidations.calls →
      token = sampleToken ∧ secret = List.replicate 32 7 := by
    intro target token secret hmem
    have hparts : target = ascii "svc" ∧ token = sampleToken ∧ secret = List.replicate 32 7 := by
      simpa only [sampleValidations, List.mem_cons, List.not_mem_nil, or_false, false_or, or_self,
        reduceCtorEq, validate_lateral_movement.injEq] using hmem
    exact hparts.2
  obtain ⟨m, hduring, hsettled, halone⟩ :=
    validation_linearizable (H := sampleHashes) Sha256.length_sha256 (fun _ => rfl)
      (count_le.trans_lt (by decide)) (by simp [Recovering, sampleValidations,
        validates, recovers]) steady_sampleValidations
      (fun target token secret target' token' secret' hmem hmem' =>
        ⟨fun _ => (hvalidate _ _ _ hmem).1.trans (hvalidate _ _ _ hmem').1.symm,
          fun _ => (hvalidate _ _ _ hmem).2.trans (hvalidate _ _ _ hmem').2.symm⟩)
      (r := sampleValidations) (j := 2) rfl hanswer
  exact ⟨result, m, hanswer, hduring, hsettled, halone⟩

def sampleRecalled : GatewayRun sampleHashes sampleCrates where
  calls := [.revoke_all_tokens,
    .validate_lateral_movement (ascii "svc") sampleToken (List.replicate 32 7)]
  start := (SharedGateway.new 1000).onGateway fun gw =>
    { gw with
      trusted_issuer_keys := gw.trusted_issuer_keys.insert (ascii "ops") (List.replicate 32 9) }
  ticks := List.replicate 2 (.thread 1 ()) ++ List.replicate 18 (.thread 0 ()) ++
    List.replicate 3 (.thread 1 ()) ++ .thread 0 () :: List.replicate 3 (.thread 1 ())

/-- **A token is accepted that is rejected before and after.** With the epochs from before the
recall and the registry that the recall has emptied, the secret of the caller is taken for that of
the issuer. -/
theorem admitted_in_between : sampleRecalled.Recovering ∧
      (∃ result, sampleRecalled.run.answer 27 1 = some (.verdict (.ok result))) ∧
      ∀ m result, sampleRecalled.During 1 m → sampleRecalled.Settled m →
        (GatewayCall.validate_lateral_movement (ascii "svc") sampleToken
          (List.replicate 32 7)).alone sampleHashes sampleCrates
          (sampleRecalled.run.state m).uncached ≠ .verdict (.ok result) := by
  obtain ⟨haccepts, hrejected⟩ : (sampleRecalled.run.answer 27 1).any GatewayAnswer.accepts = true ∧
      ∀ m < 27, ((∀ x < m, sampleRecalled.run.moves x 0 = false) ∨
          (sampleRecalled.run.answer m 0).isSome = true) →
        ((GatewayCall.validate_lateral_movement (ascii "svc") sampleToken
          (List.replicate 32 7)).alone sampleHashes sampleCrates
          (sampleRecalled.run.state m).uncached).accepts = false := by
    decide +kernel
  obtain ⟨result, hanswer⟩ := accepts_iff.mp haccepts
  refine ⟨?_, ⟨result, hanswer⟩, fun m result' hduring hsettled halone => ?_⟩
  · intro c hc
    obtain rfl | rfl : c = .revoke_all_tokens ∨ c = .validate_lateral_movement (ascii "svc")
        sampleToken (List.replicate 32 7) := by
      simpa [sampleRecalled] using hc
    · exact .inr rfl
    · exact .inl rfl
  · have hm : m < 27 := by
      by_contra hle
      have hlater := answer_mono hanswer (Nat.le_of_not_lt hle)
      cases hlater.symm.trans hduring.2
    have hfalse := hrejected m hm (hsettled 0 _ rfl rfl)
    rw [halone] at hfalse
    cases hfalse

end GatewayRun

end Saacp
