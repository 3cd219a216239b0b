/-
**FAITF delegation**: `DelegationChain`, which issues a credential under that of a parent and
verifies chains of them.

A chain is verified link by link. Each credential has to be signed with the key in the one before
it, valid, not revoked, and may not claim more than the one before it; an empty list of domains
stands for any domain. The signed payload also says which credential it was delegated under, who
issued it and how deep it is; of these only an upper bound of the depth is looked at.
-/
import Saacp.Credentials
import Mathlib.Data.Set.Basic
import Mathlib.Data.List.Chain
import Mathlib.Data.Set.Finite.Basic

set_option autoImplicit false

open ByteCodec

namespace Saacp

open AgentCredential List

def FAITF_MAX_DELEGATION_DEPTH : ℕ := 3

/-! ## What a credential permits -/

def max_class (constraints : Json) : UInt64 :=
  ((constraints.get "max_action_class").bind Json.as_u64).getD 0

/-- `allowed_domains` of a value of constraints; items that are no strings are skipped. -/
def domains (constraints : Json) : List Text :=
  ((constraints.get "allowed_domains").map Json.string_items).getD []

def debug_set (ds : List Text) : String :=
  "\x7b" ++ ", ".intercalate (ds.map fun d => "\"" ++ display d ++ "\"") ++ "\x7d"

def check_no_amplification (parent_constraints child_constraints : Json) : Except String Unit :=
  let parent_max := max_class parent_constraints
  let child_max := max_class child_constraints
  if parent_max < child_max then
    .error (s!"Privilege amplification detected: child max_action_class ({child_max}) " ++
      s!"> parent ({parent_max}).")
  else
    let parent_domains := domains parent_constraints
    let excess := ((domains child_constraints).filter fun d => d ∉ parent_domains).dedup
    if parent_domains ≠ [] ∧ excess ≠ [] then
      .error s!"Privilege amplification: child claims domains not in parent: {debug_set excess}"
    else .ok ()

theorem check_no_amplification_ok {parent_constraints child_constraints : Json} :
    check_no_amplification parent_constraints child_constraints = .ok () ↔
      max_class child_constraints ≤ max_class parent_constraints ∧
      (domains parent_constraints ≠ [] →
        ∀ d ∈ domains child_constraints, d ∈ domains parent_constraints) := by
  have hexcess : (((domains child_constraints).filter
      fun d => d ∉ domains parent_constraints).dedup = []) ↔
      ∀ d ∈ domains child_constraints, d ∈ domains parent_constraints := by
    simp [dedup_eq_nil, filter_eq_nil_iff]
  rw [check_no_amplification]
  by_cases hclass : max_class parent_constraints < max_class child_constraints
  · rw [if_pos hclass]
    exact ⟨nofun, fun h => absurd hclass (UInt64.not_lt.mpr h.1)⟩
  · rw [if_neg hclass]
    by_cases hwide : domains parent_constraints ≠ [] ∧ ((domains child_constraints).filter
        fun d => d ∉ domains parent_constraints).dedup ≠ []
    · rw [if_pos hwide]
      exact ⟨nofun, fun h => absurd (hexcess.mpr (h.2 hwide.1)) hwide.2⟩
    · rw [if_neg hwide]
      refine ⟨fun _ => ⟨UInt64.not_lt.mp hclass, fun hlisted => ?_⟩, fun _ => rfl⟩
      exact hexcess.mp (not_not.mp fun hne => hwide ⟨hlisted, hne⟩)

namespace AgentCredential

def capability_constraints (cred : AgentCredential) : Json :=
  (cred.payload.get "capability_constraints").getD (.obj [])

variable (cred : AgentCredential)

def allowed_domains : List Text := domains cred.capability_constraints

/-- The domains that are permitted: those that are listed, or all if none is. -/
def permitted : Set Text :=
  { d | cred.allowed_domains = [] ∨ d ∈ cred.allowed_domains }

/-- The greatest class of actions and the domains, ordered by being at most as much. -/
def rights : ℕ × Set Text :=
  ((max_class cred.capability_constraints).toNat, cred.permitted)

def delegation_depth : Option ℕ :=
  ((cred.payload.get "_delegation_depth").bind Json.as_u64).map UInt64.toNat

def parent_fingerprint : Option Text :=
  (cred.payload.get "_parent_fingerprint").bind Json.as_str

def issuer_id (cred : AgentCredential) : Option Text :=
  (cred.payload.get "issuer_id").bind Json.as_str

end AgentCredential

/-! ## Issuing -/

structure DelegatedCredential where
  credential : AgentCredential
  parent_agent_id : Text
  depth : UInt64
  constraints : Json
  parent_fingerprint : Text

def f64_min (x y : F64) : F64 := if x.toRat ≤ y.toRat then x else y

structure DelegationRequest where
  parent_identity : AgentIdentity
  parent_credential : AgentCredential
  child_agent_id : Text
  child_public_key : List UInt8
  child_constraints : Json
  child_ttl_seconds : UInt64
  current_depth : UInt64
  now : F64

namespace DelegationRequest

variable (H : Hashes) (C : FaitfCrates)

variable (d : DelegationRequest)

def child_not_after : F64 :=
  f64_min (C.f64_add d.now (C.f64_of_u64 d.child_ttl_seconds))
    (d.parent_credential.seconds C "not_after")

def child_payload : Json :=
  let parent := d.parent_credential.payload
  .obj [("faitf_version", .str FAITF_VERSION), ("agent_id", .str d.child_agent_id),
    ("public_key_b64", .str (C.base64_encode d.child_public_key)),
    ("issuer_id", .str d.parent_identity.agent_id),
    ("credential_version", .pos_int 1),
    ("not_before", .float d.now),
    ("not_after", .float (d.child_not_after C)),
    ("trust_policy", (parent.get "trust_policy").getD (.obj [])),
    ("revocation_info", .str (((parent.get "revocation_info").bind Json.as_str).getD [])),
    ("supported_protocols",
      (parent.get "supported_protocols").getD (.arr [.str (ascii "SAACP/0.2-beta1")])),
    ("capability_constraints", d.child_constraints),
    ("attestation_type", .str AttestationType.None.value),
    ("_delegation_depth", .pos_int d.current_depth),
    ("_parent_fingerprint", .str (d.parent_credential.fingerprint H C))]

def child_cred : AgentCredential where
  payload := d.child_payload H C
  signature :=
    C.ed25519_sign d.parent_identity.signing_key (sorted_json_bytes C (d.child_payload H C))
  issuer_public_key_id := pub_key_fingerprint H d.parent_identity.verifying_key

def issue_delegated : Except String DelegatedCredential :=
  if FAITF_MAX_DELEGATION_DEPTH ≤ d.current_depth.toNat then
    .error (s!"Delegation depth {d.current_depth} would exceed maximum of " ++
      s!"{FAITF_MAX_DELEGATION_DEPTH}.")
  else
    match check_no_amplification d.parent_credential.capability_constraints d.child_constraints with
    | .error e => .error e
    | .ok () => .ok {
        credential := d.child_cred H C
        parent_agent_id := d.parent_identity.agent_id
        depth := d.current_depth
        constraints := d.child_constraints
        parent_fingerprint := d.parent_credential.fingerprint H C }

variable {H C}

theorem issue_delegated_ok {d : DelegationRequest} {dc : DelegatedCredential}
    (h : d.issue_delegated H C = .ok dc) :
    d.current_depth.toNat < FAITF_MAX_DELEGATION_DEPTH ∧
      check_no_amplification d.parent_credential.capability_constraints d.child_constraints =
        .ok () ∧
      dc.credential = d.child_cred H C := by
  rw [issue_delegated] at h
  split_ifs at h with hdepth
  cases hcheck : check_no_amplification d.parent_credential.capability_constraints
      d.child_constraints with
  | error e =>
    rw [hcheck] at h
    cases h
  | ok u =>
    rw [hcheck] at h
    cases h
    exact ⟨Nat.lt_of_not_le hdepth, rfl, rfl⟩

theorem not_before_child_cred : (d.child_cred H C).seconds C "not_before" = d.now := rfl

theorem not_after_child_cred : (d.child_cred H C).seconds C "not_after" = d.child_not_after C := by
  rw [seconds, child_cred, child_payload]
  generalize d.child_not_after C = not_after
  rfl

end DelegationRequest

/-! ## Verifying -/

/-- What `verify_chain` reads for each index: the clock, and the revocation infrastructure. -/
structure ChainReadings where
  times : ℕ → CheckTimes
  dri : ℕ → DistributedRevocationInfrastructure

namespace DelegationChain

section

variable (H : Hashes) (C : FaitfCrates) (r : ChainReadings)

def circular (seen_ids : List Text) : List AgentCredential → Option Text
  | [] => none
  | cred :: rest =>
    if cred.agent_id ∈ seen_ids then some cred.agent_id
    else circular (cred.agent_id :: seen_ids) rest

def verify_links (i : ℕ) (parent_cred : AgentCredential) : List AgentCredential → Bool × String
  | [] => (true, "")
  | child_cred :: rest =>
    let depth := child_cred.delegation_depth.getD 0
    if FAITF_MAX_DELEGATION_DEPTH < depth then (false, s!"delegation_depth_{depth}_exceeds_max")
    else
      match parent_cred.agent_public_key C with
      | .error _ => (false, s!"malformed_parent_credential_at_index_{i - 1}")
      | .ok parent_pub =>
        if !verify_data C.toClusterCrates parent_pub (sorted_json_bytes C child_cred.payload)
            child_cred.signature then (false, s!"invalid_signature_at_chain_index_{i}")
        else if child_cred.is_expired C (r.times i).expired then
          (false, s!"delegated_credential_expired_at_index_{i}")
        else if !child_cred.is_active C (r.times i).active then
          (false, s!"delegated_credential_not_active_at_index_{i}")
        else if (r.dri i).is_revoked child_cred.agent_id (child_cred.fingerprint H C) then
          (false, s!"delegated_credential_revoked_at_index_{i}")
        else
          match check_no_amplification parent_cred.capability_constraints
              child_cred.capability_constraints with
          | .error e => (false, e)
          | .ok () => verify_links (i + 1) child_cred rest

def verify_chain (chain : List AgentCredential) (trust_store : AnchoredTrustStore) :
    Bool × String :=
  match chain with
  | [] => (false, "empty_delegation_chain")
  | root :: rest =>
    if FAITF_MAX_DELEGATION_DEPTH + 1 < (root :: rest).length then
      (false, "delegation_chain_exceeds_max_depth")
    else
      match circular [] (root :: rest) with
      | some aid => (false, "circular_delegation_detected:" ++ display aid)
      | none =>
        match trust_store.verify_credential H C root [] (r.times 0) with
        | (false, reason) => (false, "root_credential_invalid:" ++ reason)
        | (true, _) =>
          if (r.dri 0).is_revoked root.agent_id (root.fingerprint H C) then
            (false, "root_credential_revoked")
          else verify_links H C r 1 root rest

structure LinkOk (i : ℕ) (parent child : AgentCredential) : Prop where
  depth : child.delegation_depth.getD 0 ≤ FAITF_MAX_DELEGATION_DEPTH
  signed : ∃ parent_pub, parent.agent_public_key C = .ok parent_pub ∧
    verify_data C.toClusterCrates parent_pub (sorted_json_bytes C child.payload)
      child.signature = true
  fresh : child.is_expired C (r.times i).expired = false
  active : child.is_active C (r.times i).active = true
  unrevoked : (r.dri i).is_revoked child.agent_id (child.fingerprint H C) = false
  narrowed :
    check_no_amplification parent.capability_constraints child.capability_constraints = .ok ()

end

variable {H : Hashes} {C : FaitfCrates} {r : ChainReadings} {chain : List AgentCredential}
  {trust_store : AnchoredTrustStore}

variable {i : ℕ} {parent child a b : AgentCredential}

theorem refused_iff {c : Prop} [Decidable c] {reason : String} {x : Bool × String} :
    (if c then (false, reason) else x).1 = true ↔ ¬ c ∧ x.1 = true := by
  by_cases hc : c <;> simp [hc]

theorem verify_links_cons {rest : List AgentCredential} :
    (verify_links H C r i parent (child :: rest)).1 = true ↔
      LinkOk H C r i parent child ∧ (verify_links H C r (i + 1) child rest).1 = true := by
  simp only [verify_links, refused_iff, Nat.not_lt]
  cases hkey : parent.agent_public_key C with
  | error e =>
    refine ⟨by rintro ⟨-, ⟨⟩⟩, fun h => ?_⟩
    obtain ⟨key, hkey', -⟩ := h.1.signed
    cases hkey.symm.trans hkey'
  | ok parent_pub =>
    simp only [refused_iff, Bool.not_eq_true', Bool.not_eq_false, Bool.not_eq_true]
    cases hcheck : check_no_amplification parent.capability_constraints
        child.capability_constraints with
    | error e =>
      refine ⟨by rintro ⟨-, -, -, -, -, ⟨⟩⟩, fun h => ?_⟩
      cases hcheck.symm.trans h.1.narrowed
    | ok u =>
      constructor
      · rintro ⟨hdepth, hsigned, hfresh, hactive, hunrevoked, hrest⟩
        exact ⟨⟨hdepth, ⟨parent_pub, hkey, hsigned⟩, hfresh, hactive, hunrevoked, hcheck⟩, hrest⟩
      · rintro ⟨⟨hdepth, ⟨key, hkey', hsigned⟩, hfresh, hactive, hunrevoked, -⟩, hrest⟩
        cases hkey.symm.trans hkey'
        exact ⟨hdepth, hsigned, hfresh, hactive, hunrevoked, hrest⟩

theorem verify_links_iff {rest : List AgentCredential} :
    (verify_links H C r i parent rest).1 = true ↔
      ∀ j a b, (parent :: rest)[j]? = some a → (parent :: rest)[j + 1]? = some b →
        LinkOk H C r (i + j) a b := by
  induction rest generalizing i parent with
  | nil => exact ⟨fun _ j a b _ hb => by simp at hb, fun _ => rfl⟩
  | cons child rest ih =>
    rw [verify_links_cons, ih]
    constructor
    · rintro ⟨hlink, hrest⟩ j a b ha hb
      cases j with
      | zero =>
        cases ha
        cases hb
        exact hlink
      | succ j =>
        have := hrest j a b ha hb
        rwa [Nat.add_right_comm] at this
    · intro h
      refine ⟨h 0 parent child rfl rfl, fun j a b ha hb => ?_⟩
      have := h (j + 1) a b ha hb
      rwa [← Nat.add_assoc, Nat.add_right_comm] at this

theorem circular_eq_none {seen_ids : List Text} : circular seen_ids chain = none ↔
      (chain.map agent_id).Nodup ∧ ∀ cred ∈ chain, cred.agent_id ∉ seen_ids := by
  induction chain generalizing seen_ids with
  | nil => simp [circular]
  | cons cred rest ih =>
    rw [circular]
    by_cases hseen : cred.agent_id ∈ seen_ids
    · rw [if_pos hseen]
      exact ⟨nofun, fun h => absurd hseen (h.2 cred (mem_cons_self ..))⟩
    · rw [if_neg hseen, ih]
      simp only [map_cons, nodup_cons, mem_map, mem_cons, not_or, forall_eq_or_imp]
      constructor
      · rintro ⟨hnodup, hfresh⟩
        refine ⟨⟨?_, hnodup⟩, hseen, fun c hc => (hfresh c hc).2⟩
        rintro ⟨c, hc, hid⟩
        exact (hfresh c hc).1 hid
      · rintro ⟨⟨hnew, hnodup⟩, -, hrest⟩
        exact ⟨hnodup, fun c hc => ⟨fun hid => hnew ⟨c, hc, hid⟩, hrest c hc⟩⟩

/-- **What an accepted chain has passed.** -/
theorem verify_chain_iff : (verify_chain H C r chain trust_store).1 = true ↔
      chain.length ≤ FAITF_MAX_DELEGATION_DEPTH + 1 ∧
      (chain.map agent_id).Nodup ∧
      (∃ root, chain[0]? = some root ∧
        (trust_store.verify_credential H C root [] (r.times 0)).1 = true ∧
        (r.dri 0).is_revoked root.agent_id (root.fingerprint H C) = false) ∧
      ∀ i parent child, chain[i]? = some parent → chain[i + 1]? = some child →
        LinkOk H C r (i + 1) parent child := by
  cases chain with
  | nil => simp [verify_chain]
  | cons root rest =>
    simp only [verify_chain, refused_iff, Nat.not_lt]
    cases hcircular : circular [] (root :: rest) with
    | some aid =>
      refine ⟨fun h => (nomatch h.2), fun h => ?_⟩
      have hnone : circular [] (root :: rest) = none :=
        circular_eq_none.mpr ⟨h.2.1, fun _ _ => not_mem_nil⟩
      cases hcircular.symm.trans hnone
    | none =>
      have hnodup := (circular_eq_none.mp hcircular).1
      rcases hroot : trust_store.verify_credential H C root [] (r.times 0) with ⟨_ | _, reason⟩
      · refine ⟨fun h => (nomatch h.2), fun h => ?_⟩
        obtain ⟨root', hroot', hok, -⟩ := h.2.2.1
        cases hroot'
        rw [hroot] at hok
        cases hok
      · simp only [refused_iff, Bool.not_eq_true, verify_links_iff, Nat.add_comm 1]
        constructor
        · rintro ⟨hlen, hunrevoked, hlinks⟩
          exact ⟨hlen, hnodup, ⟨root, rfl, by rw [hroot], hunrevoked⟩, hlinks⟩
        · rintro ⟨hlen, -, ⟨root', hroot', -, hunrevoked⟩, hlinks⟩
          cases hroot'
          exact ⟨hlen, hunrevoked, hlinks⟩

/-! ## Delegating and verifying

What `issue_delegated` issues passes the checks of a link under every credential with the key it was
signed with, provided that credential permits as much. -/

theorem issued_link {d : DelegationRequest} {dc : DelegatedCredential}
    (hissue : d.issue_delegated H C = .ok dc)
    (hsigned : ∀ message, verify_data C.toClusterCrates d.parent_identity.verifying_key message
      (C.ed25519_sign d.parent_identity.signing_key message) = true)
    (hkey : parent.agent_public_key C = .ok d.parent_identity.verifying_key)
    (hnarrowed : check_no_amplification parent.capability_constraints d.child_constraints = .ok ())
    (hexpired : (r.times i).expired ≤ (d.child_not_after C).toRat)
    (hstarted : d.now.toRat ≤ (r.times i).active)
    (hactive : (r.times i).active ≤ (d.child_not_after C).toRat)
    (hunrevoked : (r.dri i).is_revoked d.child_agent_id (dc.credential.fingerprint H C) = false) :
    LinkOk H C r i parent dc.credential := by
  obtain ⟨hdepth, -, hcred⟩ := DelegationRequest.issue_delegated_ok hissue
  rw [hcred] at hunrevoked ⊢
  constructor
  case depth =>
    show d.current_depth.toNat ≤ FAITF_MAX_DELEGATION_DEPTH
    omega
  case signed => exact ⟨_, hkey, hsigned _⟩
  case fresh =>
    rw [is_expired, DelegationRequest.not_after_child_cred]
    exact decide_eq_false (not_lt.mpr hexpired)
  case active =>
    rw [is_active, DelegationRequest.not_before_child_cred,
      DelegationRequest.not_after_child_cred, decide_eq_true hstarted, decide_eq_true hactive]
    rfl
  case unrevoked => exact hunrevoked
  case narrowed => exact hnarrowed

/-! ## Small chains

An anchor `Z`, agents `A`, `B` and `C`, and crates of which no two hashes and no two texts are the
same. -/

def sampleFaitf : FaitfCrates where
  json_to_vec j := List.replicate j.code 0
  ed25519_sign key _ := key ++ key
  ed25519_verify key _ signature := signature = key ++ key
  base64_encode bs := bs
  base64_decode t := .ok t
  ed25519_from_bytes _ := .ok ()
  f64_of_u64 _ := wall_12
  f64_of_i64 _ := wall_0
  f64_add _ y := y

theorem sampleFaitf_injective : Function.Injective sampleFaitf.json_to_vec := by
  intro j j' h
  have hlen := congrArg List.length h
  simp only [sampleFaitf, length_replicate] at hlen
  exact Json.code_injective j j' hlen

def sampleConstraints (ds : List Text) : Json :=
  .obj [("allowed_domains", .arr (ds.map .str)), ("max_action_class", .pos_int 1)]

def sampleRoot (version : UInt32) (ds : List Text) : AgentCredential :=
  .issue sampleIdeal sampleFaitf {
    agent_id := [65], signing_key := sampleKey 65, verifying_key := sampleKey 65
    issuer_id := [90]
    credential_version := version
    not_before := wall_0
    not_after := wall_12
    trust_policy := .obj []
    revocation_info := []
    supported_protocols := [ascii "SAACP/0.2-beta1"]
    capability_constraints := sampleConstraints ds
    attestation_type := .None } (sampleKey 90) (sampleKey 90)

def sampleRequest (parent : UInt8) (parent_credential : AgentCredential) (child : UInt8)
    (ds : List Text) (current_depth : UInt64) : DelegationRequest where
  parent_identity := ⟨[parent], sampleKey parent, sampleKey parent⟩
  parent_credential := parent_credential
  child_agent_id := [child]
  child_public_key := sampleKey child
  child_constraints := sampleConstraints ds
  child_ttl_seconds := 12
  current_depth := current_depth
  now := wall_0

def sampleChild (parent : UInt8) (parent_credential : AgentCredential) (child : UInt8)
    (ds : List Text) (current_depth : UInt64) : AgentCredential :=
  (sampleRequest parent parent_credential child ds current_depth).child_cred sampleIdeal sampleFaitf

theorem sample_fingerprint_ne (hlen : a.signature.length = b.signature.length) (key : String)
    (hne : a.payload.get key ≠ b.payload.get key) :
    a.fingerprint sampleIdeal sampleFaitf ≠ b.fingerprint sampleIdeal sampleFaitf := by
  intro h
  have hsame := fingerprint_injective sampleIdeal_injective sampleFaitf_injective hlen h
  exact hne (hsame.get key)

theorem pair_link (hparent : [a, b][i]? = some parent)
    (hchild : [a, b][i + 1]? = some child) : i = 0 ∧ a = parent ∧ b = child := by
  obtain ⟨hlt, -⟩ := List.getElem?_eq_some_iff.mp hchild
  obtain rfl : i = 0 := by
    simp only [length_cons, length_nil] at hlt
    omega
  exact ⟨rfl, Option.some.inj hparent, Option.some.inj hchild⟩

def sampleReadings (dri : DistributedRevocationInfrastructure) : ChainReadings where
  times _ := ⟨0, 0, fun _ => 0⟩
  dri _ := dri

/-! ## Rights along a chain -/

theorem never_grows {β : Type} [Preorder β] {f : AgentCredential → β}
    (hstep : ∀ i parent child, chain[i]? = some parent → chain[i + 1]? = some child →
      f child ≤ f parent) {j : ℕ} (hij : i < j)
    (ha : chain[i]? = some a) (hb : chain[j]? = some b) : f b ≤ f a := by
  -- by induction on the distance: `b` has a predecessor, which is `a` or comes after it
  induction j generalizing b with
  | zero => omega
  | succ j ih =>
    obtain ⟨hlt, -⟩ := List.getElem?_eq_some_iff.mp hb
    have hj : chain[j]? = some chain[j] := List.getElem?_eq_getElem (by omega)
    have hlast := hstep j _ b hj hb
    rcases Nat.lt_succ_iff_lt_or_eq.mp hij with hlt' | rfl
    · exact hlast.trans (ih hlt' hj)
    · rw [hj] at ha
      cases ha
      exact hlast

theorem LinkOk.class_le (h : LinkOk H C r i parent child) : child.rights.1 ≤ parent.rights.1 :=
  UInt64.le_iff_toNat_le.mp (check_no_amplification_ok.mp h.narrowed).1

theorem LinkOk.rights_le (h : LinkOk H C r i parent child)
    (hlisted : parent.allowed_domains ≠ [] → child.allowed_domains ≠ []) :
    child.rights ≤ parent.rights := by
  refine ⟨h.class_le, ?_⟩
  intro d hd
  by_cases hparent : parent.allowed_domains = []
  · exact .inl hparent
  · have hmem : d ∈ child.allowed_domains := hd.resolve_left (hlisted hparent)
    exact .inr ((check_no_amplification_ok.mp h.narrowed).2 hparent d hmem)

theorem unlisted_child_widens (hparent : parent.allowed_domains ≠ [])
    (hchild : child.allowed_domains = []) : ∃ d, d ∈ child.permitted ∧ d ∉ parent.permitted := by
  obtain ⟨d, hd⟩ := Infinite.exists_notMem_finset parent.allowed_domains.toFinset
  refine ⟨d, .inl hchild, ?_⟩
  rintro (hnone | hmem)
  · exact hparent hnone
  · exact hd (mem_toFinset.mpr hmem)

/-- **The class of actions never grows** along an accepted chain. -/
theorem class_narrows (haccepted : (verify_chain H C r chain trust_store).1 = true) {j : ℕ}
    (hij : i < j) (ha : chain[i]? = some a) (hb : chain[j]? = some b) :
    b.rights.1 ≤ a.rights.1 := by
  obtain ⟨-, -, -, hlinks⟩ := verify_chain_iff.mp haccepted
  exact never_grows (f := fun cred => cred.rights.1)
    (fun i parent child hp hc => (hlinks i parent child hp hc).class_le) hij ha hb

/-- **Delegation never widens rights**, as long as no credential that lists its domains is followed
by one that lists none. -/
theorem delegation_narrows (H : Hashes) (C : FaitfCrates) (r : ChainReadings)
    (chain : List AgentCredential) (trust_store : AnchoredTrustStore)
    (haccepted : (verify_chain H C r chain trust_store).1 = true)
    (hlisted : ∀ i parent child, chain[i]? = some parent → chain[i + 1]? = some child →
      parent.allowed_domains ≠ [] → child.allowed_domains ≠ [])
    (i j : ℕ) (hij : i < j) (a b : AgentCredential) (ha : chain[i]? = some a)
    (hb : chain[j]? = some b) : b.rights ≤ a.rights := by
  obtain ⟨-, -, -, hlinks⟩ := verify_chain_iff.mp haccepted
  refine never_grows (f := rights) ?_ hij ha hb
  intro i parent child hp hc
  exact (hlinks i parent child hp hc).rights_le (hlisted i parent child hp hc)

theorem delegation_narrows_sample : let root := sampleRoot 1 [ascii "billing", ascii "payroll"]
    let child := sampleChild 65 root 66 [ascii "payroll"] 0
    (verify_chain sampleIdeal sampleFaitf (sampleReadings .new) [root, child]
        sampleAnchors).1 = true ∧
      child.rights ≤ root.rights := by
  intro root child
  have haccepted : (verify_chain sampleIdeal sampleFaitf (sampleReadings .new) [root, child]
      sampleAnchors).1 = true := by decide +kernel
  refine ⟨haccepted, delegation_narrows _ _ _ _ _ haccepted ?_ 0 1 (by decide) root child rfl rfl⟩
  intro i parent c _ hc _
  have hmem : c = root ∨ c = child := by simpa using mem_of_getElem? hc
  rcases hmem with rfl | rfl
  · decide
  · decide

/-- **A domain that the root may not use comes back** at the end of a chain of delegations: the
credential in the middle lists no domains, and the one below it is compared with nothing. -/
theorem domain_regained : let root := sampleRoot 1 [ascii "billing"]
    let middle := sampleChild 65 root 66 [] 0
    let leaf := sampleChild 66 middle 67 [ascii "payroll"] 1
    (∃ dc, (sampleRequest 65 root 66 [] 0).issue_delegated sampleIdeal sampleFaitf = .ok dc ∧
        dc.credential = middle) ∧
      (∃ dc, (sampleRequest 66 middle 67 [ascii "payroll"] 1).issue_delegated sampleIdeal
        sampleFaitf = .ok dc ∧ dc.credential = leaf) ∧
      (verify_chain sampleIdeal sampleFaitf (sampleReadings .new) [root, middle, leaf]
        sampleAnchors).1 = true ∧
      ascii "payroll" ∈ leaf.permitted ∧ ascii "payroll" ∉ root.permitted ∧
      ¬ leaf.rights ≤ root.rights := by
  intro root middle leaf
  have hleaf : ascii "payroll" ∈ leaf.permitted := .inr (by decide)
  have hroot : ascii "payroll" ∉ root.permitted := by
    rintro (hnone | hmem)
    · exact absurd hnone (by decide)
    · exact absurd hmem (by decide)
  exact ⟨⟨_, rfl, rfl⟩, ⟨_, rfl, rfl⟩, by decide +kernel, hleaf, hroot,
    fun hle => hroot (hle.2 hleaf)⟩

/-! ## The chain that was delegated -/

structure Custody (H : Hashes) (C : FaitfCrates) (signed : List UInt8 → List UInt8 → Prop)
    (issued : DelegationRequest → Prop) (chain : List AgentCredential) : Prop where
  /-- A credential that was signed with the key of the one before it was issued by
  `issue_delegated`. -/
  delegates : ∀ i parent child key, chain[i]? = some parent → chain[i + 1]? = some child →
    parent.agent_public_key C = .ok key → signed key (sorted_json_bytes C child.payload) →
    ∃ d dc, issued d ∧ d.issue_delegated H C = .ok dc ∧ d.parent_identity.verifying_key = key ∧
      sorted_json_bytes C child.payload = sorted_json_bytes C dc.credential.payload
  own_name : ∀ d, issued d → d.parent_identity.agent_id = d.parent_credential.agent_id
  deeper : ∀ d, issued d → ∀ depth, d.parent_credential.delegation_depth = some depth →
    depth < d.current_depth.toNat

/-- Every key that delegates stands in one credential of the chain only. -/
def OneCredential (C : FaitfCrates) (issued : DelegationRequest → Prop)
    (chain : List AgentCredential) : Prop :=
  ∀ d, issued d → ∀ cred ∈ chain, cred.agent_public_key C = .ok d.parent_identity.verifying_key →
    cred.Same d.parent_credential

structure LinkedTo (H : Hashes) (C : FaitfCrates) (parent child : AgentCredential) : Prop where
  parent_fingerprint : child.parent_fingerprint = some (parent.fingerprint H C)
  issuer_id : child.issuer_id = some parent.agent_id
  deeper : ∃ depth, child.delegation_depth = some depth ∧
    ∀ parent_depth, parent.delegation_depth = some parent_depth → parent_depth < depth

theorem LinkedTo.of_same {p c : AgentCredential} (h : LinkedTo H C p c) (hparent : parent.Same p)
    (hchild : ∀ key, child.payload.get key = c.payload.get key) : LinkedTo H C parent child where
  parent_fingerprint := by
    rw [AgentCredential.parent_fingerprint, hchild, hparent.fingerprint H C]
    exact h.parent_fingerprint
  issuer_id := by
    rw [AgentCredential.issuer_id, hchild, hparent.agent_id]
    exact h.issuer_id
  deeper := by
    rw [delegation_depth, delegation_depth, hchild, hparent.get]
    exact h.deeper

theorem LinkOk.signature_length
    (h : LinkOk H C r i parent child) : child.signature.length = 64 := by
  obtain ⟨key, -, hverify⟩ := h.signed
  exact verify_data_length hverify

theorem accepted_member (haccepted : (verify_chain H C r chain trust_store).1 = true)
    {cred : AgentCredential} (hcred : chain[i]? = some cred) :
    cred.signature.length = 64 ∧
      (r.dri i).is_revoked cred.agent_id (cred.fingerprint H C) = false := by
  obtain ⟨-, -, ⟨root, hroot, hverified, hunrevoked⟩, hlinks⟩ := verify_chain_iff.mp haccepted
  cases i with
  | zero =>
    cases hroot.symm.trans hcred
    exact ⟨AnchoredTrustStore.signature_length_of_verified hverified, hunrevoked⟩
  | succ i =>
    obtain ⟨hlt, -⟩ := List.getElem?_eq_some_iff.mp hcred
    have hlink := hlinks i chain[i] cred (List.getElem?_eq_getElem (by omega)) hcred
    exact ⟨hlink.signature_length, hlink.unrevoked⟩

/-- **An accepted chain is the one that was delegated**, if every key that delegates stands in one
credential of it and the holders of the keys use them as they should. A credential that was
delegated under another one, or under one that has been revoked, is not accepted. -/
theorem chain_as_delegated (H : Hashes) (C : FaitfCrates) (hsha : Function.Injective H.sha256)
    (hjson : Function.Injective C.json_to_vec) (signed : List UInt8 → List UInt8 → Prop)
    (hunforged : ∀ key message signature,
      verify_data C.toClusterCrates key message signature = true → signed key message)
    (issued : DelegationRequest → Prop) (r : ChainReadings) (chain : List AgentCredential)
    (trust_store : AnchoredTrustStore) (hcustody : Custody H C signed issued chain)
    (hone : OneCredential C issued chain)
    (haccepted : (verify_chain H C r chain trust_store).1 = true) (i : ℕ)
    (parent child : AgentCredential) (hparent : chain[i]? = some parent)
    (hchild : chain[i + 1]? = some child) :
    LinkedTo H C parent child ∧ ∀ original : AgentCredential, original.signature.length = 64 →
        child.parent_fingerprint = some (original.fingerprint H C) →
        parent.Same original ∧
          (r.dri i).is_revoked original.agent_id (original.fingerprint H C) = false := by
  obtain ⟨-, -, -, hlinks⟩ := verify_chain_iff.mp haccepted
  obtain ⟨key, hkey, hverify⟩ := (hlinks i parent child hparent hchild).signed
  obtain ⟨d, dc, hd, hissue, rfl, htext⟩ :=
    hcustody.delegates i parent child key hparent hchild hkey (hunforged _ _ _ hverify)
  obtain ⟨-, -, hcred⟩ := DelegationRequest.issue_delegated_ok hissue
  rw [hcred] at htext
  have hfields : ∀ name, child.payload.get name = (d.child_cred H C).payload.get name := by
    intro name
    rw [← Json.get_sort_keys child.payload, hjson htext, Json.get_sort_keys]
  have hsame : parent.Same d.parent_credential := hone d hd parent (mem_of_getElem? hparent) hkey
  have hlinked : LinkedTo H C parent child := by
    refine LinkedTo.of_same ⟨rfl, ?_, _, rfl, hcustody.deeper d hd⟩ hsame hfields
    rw [← hcustody.own_name d hd]
    rfl
  refine ⟨hlinked, ?_⟩
  intro original hlen horiginal
  obtain ⟨hparent_len, hunrevoked⟩ := accepted_member haccepted hparent
  have hfp : parent.fingerprint H C = original.fingerprint H C :=
    Option.some.inj (hlinked.parent_fingerprint.symm.trans horiginal)
  have hsame' : parent.Same original :=
    fingerprint_injective hsha hjson (hparent_len.trans hlen.symm) hfp
  exact ⟨hsame', by rw [← hsame'.agent_id, ← hfp]; exact hunrevoked⟩

theorem chain_as_delegated_sample : let root := sampleRoot 1 []
    let child := sampleChild 65 root 66 [] 0
    (verify_chain sampleIdeal sampleFaitf (sampleReadings .new) [root, child]
        sampleAnchors).1 = true ∧
      LinkedTo sampleIdeal sampleFaitf root child := by
  intro root child
  have haccepted : (verify_chain sampleIdeal sampleFaitf (sampleReadings .new) [root, child]
      sampleAnchors).1 = true := by decide +kernel
  let signed : List UInt8 → List UInt8 → Prop := fun key message =>
    ∃ signature, verify_data sampleFaitf.toClusterCrates key message signature = true
  have hcustody : Custody sampleIdeal sampleFaitf signed
      (fun d => d = sampleRequest 65 root 66 [] 0) [root, child] := by
    constructor
    case delegates =>
      intro i parent c key hp hc hkey _
      obtain ⟨rfl, rfl, rfl⟩ := pair_link hp hc
      exact ⟨_, _, rfl, rfl, Except.ok.inj hkey, rfl⟩
    case own_name =>
      rintro d rfl
      rfl
    case deeper =>
      rintro d rfl depth hdepth
      cases hdepth
  have hone : OneCredential sampleFaitf (fun d => d = sampleRequest 65 root 66 [] 0)
      [root, child] := by
    rintro d rfl cred hcred hkey
    have hmem : cred = root ∨ cred = child := by simpa using hcred
    rcases hmem with rfl | rfl
    · exact ⟨rfl, rfl⟩
    · exact absurd (Except.ok.inj hkey) (by decide)
  exact ⟨haccepted, (chain_as_delegated sampleIdeal sampleFaitf sampleIdeal_injective
    sampleFaitf_injective signed (fun _ _ signature hsig => ⟨signature, hsig⟩) _ _ _ _ hcustody hone
    haccepted 0 root child rfl rfl).1⟩

/-- **A credential is accepted under another parent.** `B` has a credential that `A` delegated under
its first credential. That one has been revoked, and a chain that starts with it is refused; under
the second credential of `A`, with the same key, the one of `B` is accepted. -/
theorem accepted_under_other_parent : let original := sampleRoot 1 []
    let renewed := sampleRoot 2 []
    let child := sampleChild 65 original 66 [] 0
    (∃ dc, (sampleRequest 65 original 66 [] 0).issue_delegated sampleIdeal sampleFaitf = .ok dc ∧
        dc.credential = child) ∧
      ∃ dri, DistributedRevocationInfrastructure.new.revoke sampleIdeal sampleFaitf
          ⟨id, fun _ => .refl _⟩ wall_0 (fun _ => 0) [65] (ascii "superseded")
          ⟨[90], sampleKey 90, sampleKey 90⟩ (original.fingerprint sampleIdeal sampleFaitf) =
            some dri ∧
        (verify_chain sampleIdeal sampleFaitf (sampleReadings dri) [original, child]
          sampleAnchors).1 = false ∧
        (verify_chain sampleIdeal sampleFaitf (sampleReadings dri) [renewed, child]
          sampleAnchors).1 = true ∧
        child.parent_fingerprint = some (original.fingerprint sampleIdeal sampleFaitf) ∧
        original.fingerprint sampleIdeal sampleFaitf ≠
          renewed.fingerprint sampleIdeal sampleFaitf := by
  intro original renewed child
  have hdiffer : original.fingerprint sampleIdeal sampleFaitf ≠
      renewed.fingerprint sampleIdeal sampleFaitf := by
    apply sample_fingerprint_ne (by decide) "credential_version"
    show some (Json.pos_int 1) ≠ some (Json.pos_int 2)
    simp
  have hdiffer' : child.fingerprint sampleIdeal sampleFaitf ≠
      original.fingerprint sampleIdeal sampleFaitf := by
    apply sample_fingerprint_ne (by decide) "agent_id"
    show some (Json.str [66]) ≠ some (Json.str [65])
    simp
  have hfp : original.fingerprint sampleIdeal sampleFaitf ≠ [] := by
    rw [fingerprint, sampleIdeal, hexText_cons]
    exact cons_ne_nil _ _
  obtain ⟨dri, hrevoke, hrevoked⟩ := DistributedRevocationInfrastructure.is_revoked_revoke
    sampleIdeal sampleFaitf ⟨id, fun _ => .refl _⟩ wall_0 (fun _ => 0) .new [65]
    (ascii "superseded") ⟨[90], sampleKey 90, sampleKey 90⟩
    (original.fingerprint sampleIdeal sampleFaitf) (by decide) hfp
  have hroot : dri.is_revoked [65] (renewed.fingerprint sampleIdeal sampleFaitf) = false := by
    rw [hrevoked, decide_eq_false hdiffer.symm]
    rfl
  have hchild : dri.is_revoked [66] (child.fingerprint sampleIdeal sampleFaitf) = false := by
    rw [hrevoked, decide_eq_false hdiffer']
    rfl
  refine ⟨⟨_, rfl, rfl⟩, dri, hrevoke, ?_, ?_, rfl, hdiffer⟩
  · apply Bool.eq_false_iff.mpr
    intro haccepted
    have hunrevoked := (accepted_member haccepted (i := 0) rfl).2
    rw [show (sampleReadings dri).dri 0 = dri from rfl, hrevoked, decide_eq_true rfl,
      Bool.or_true] at hunrevoked
    cases hunrevoked
  · have hverified : (sampleAnchors.verify_credential sampleIdeal sampleFaitf renewed []
        ⟨0, 0, fun _ => 0⟩).1 = true := by decide +kernel
    have hstart : wall_0.toRat ≤ 0 := by decide +kernel
    have hend : 0 ≤ ((sampleRequest 65 original 66 [] 0).child_not_after sampleFaitf).toRat := by
      decide +kernel
    refine verify_chain_iff.mpr ⟨by decide, by decide, ⟨renewed, rfl, hverified, hroot⟩, ?_⟩
    intro i parent c hp hc
    obtain ⟨rfl, rfl, rfl⟩ := pair_link hp hc
    exact issued_link (d := sampleRequest 65 original 66 [] 0) rfl (fun _ => rfl) rfl rfl hend
      hstart hend hchild

/-! ## Honest delegation -/

def delegated (H : Hashes) (C : FaitfCrates) (root : AgentCredential)
    (ds : List DelegationRequest) : List AgentCredential :=
  root :: ds.map (·.child_cred H C)

/-- Each request was granted under the last credential of the chain so far, at the next depth, by
the holder of the key in it. -/
def Honest (H : Hashes) (C : FaitfCrates) (pair : List UInt8 → List UInt8 → Prop)
    (root : AgentCredential) (ds : List DelegationRequest) : Prop :=
  ∀ (i : ℕ) (d : DelegationRequest), ds[i]? = some d → (∃ dc, d.issue_delegated H C = .ok dc) ∧
    (delegated H C root ds)[i]? = some d.parent_credential ∧ d.current_depth.toNat = i ∧
    d.parent_credential.agent_public_key C = .ok d.parent_identity.verifying_key ∧
    pair d.parent_identity.signing_key d.parent_identity.verifying_key

variable {pair : List UInt8 → List UInt8 → Prop} {root : AgentCredential}
  {ds : List DelegationRequest}

theorem Honest.length_le (h : Honest H C pair root ds) :
    ds.length ≤ FAITF_MAX_DELEGATION_DEPTH := by
  by_contra hlong
  have hlast : ds[FAITF_MAX_DELEGATION_DEPTH]? = some ds[FAITF_MAX_DELEGATION_DEPTH] :=
    List.getElem?_eq_getElem (by omega)
  obtain ⟨⟨dc, hissue⟩, -, hdepth, -⟩ := h _ _ hlast
  have hlt := (DelegationRequest.issue_delegated_ok hissue).1
  omega

/-- No credential of the chain ends before `t` if the root does not and no request asks for it. -/
theorem Honest.not_after (h : Honest H C pair root ds) {t : ℚ}
    (hroot : t ≤ (root.seconds C "not_after").toRat)
    (hasked : ∀ d ∈ ds, t ≤ (C.f64_add d.now (C.f64_of_u64 d.child_ttl_seconds)).toRat)
    {cred : AgentCredential} (hcred : (delegated H C root ds)[i]? = some cred) :
    t ≤ (cred.seconds C "not_after").toRat := by
  induction i generalizing cred with
  | zero => exact Option.some.inj hcred ▸ hroot
  | succ i ih =>
    obtain ⟨d, hd, rfl⟩ := Option.map_eq_some_iff.mp (getElem?_map.symm.trans hcred)
    obtain ⟨-, hparent, -⟩ := h i d hd
    rw [DelegationRequest.not_after_child_cred, DelegationRequest.child_not_after, f64_min]
    split_ifs
    · exact hasked d (mem_of_getElem? hd)
    · exact ih hparent

theorem verify_issued {identity : ProvisionedIdentity} {anchor : TrustAnchor} {aid : Text}
    {signing_key : List UInt8} {t : ℚ} (hanchor : trust_store.anchors.get aid = some anchor)
    (hvalid : t ≤ anchor.valid_until) (hstarted : identity.not_before.toRat ≤ t)
    (hended : t ≤ identity.not_after.toRat)
    (hsigned : ∀ message, verify_data C.toClusterCrates anchor.verifying_key message
      (C.ed25519_sign signing_key message) = true) :
    (trust_store.verify_credential H C (.issue H C identity signing_key anchor.verifying_key) []
      ⟨t, t, fun _ => t⟩).1 = true := by
  have hfresh : (issue H C identity signing_key
      anchor.verifying_key).is_expired C t = false := decide_eq_false (not_lt.mpr hended)
  have hactive : (issue H C identity signing_key anchor.verifying_key).is_active C t = true := by
    rw [is_active, Bool.and_eq_true]
    exact ⟨decide_eq_true hstarted, decide_eq_true hended⟩
  simp only [AnchoredTrustStore.verify_credential, hfresh, hactive, Bool.not_true,
    Bool.false_eq_true, if_false]
  split_ifs with hpinned hany hempty
  · rfl
  · rfl
  all_goals
    refine absurd (any_eq_true.mpr ⟨(aid, anchor), Table.mem_entries.mpr hanchor, ?_⟩) hany
    simp [TrustAnchor.verify_credential, hvalid, hsigned, issue]

/-- **Honest delegation verifies**, every prefix of it, at every time within what was asked for;
and nobody delegates a fourth time. -/
theorem honest_chain_verifies (H : Hashes) (C : FaitfCrates) (pair : List UInt8 → List UInt8 → Prop)
    (hsigned : ∀ sk vk, pair sk vk → ∀ message,
      verify_data C.toClusterCrates vk message (C.ed25519_sign sk message) = true)
    (trust_store : AnchoredTrustStore) (aid : Text) (anchor : TrustAnchor)
    (hanchor : trust_store.anchors.get aid = some anchor) (signing_key : List UInt8)
    (hkey : pair signing_key anchor.verifying_key) (identity : ProvisionedIdentity)
    (ds : List DelegationRequest) (t : ℚ) (dri : ℕ → DistributedRevocationInfrastructure) :
    let root := AgentCredential.issue H C identity signing_key anchor.verifying_key
    let chain := delegated H C root ds
    Honest H C pair root ds → (chain.map AgentCredential.agent_id).Nodup →
    (∀ i, ∀ cred ∈ chain, (dri i).is_revoked cred.agent_id (cred.fingerprint H C) = false) →
    t ≤ anchor.valid_until → identity.not_before.toRat ≤ t → t ≤ identity.not_after.toRat →
    (∀ d ∈ ds, d.now.toRat ≤ t ∧ t ≤ (C.f64_add d.now (C.f64_of_u64 d.child_ttl_seconds)).toRat) →
    (∀ n, (verify_chain H C ⟨fun _ => ⟨t, t, fun _ => t⟩, dri⟩ (chain.take (n + 1))
        trust_store).1 = true) ∧
      ∀ d : DelegationRequest, d.current_depth.toNat = 3 →
        ¬ ∃ dc, d.issue_delegated H C = .ok dc := by
  intro root chain hhonest hnodup hunrevoked hvalid hstarted hended htimes
  constructor
  · intro n
    have htaken : ∀ {i : ℕ} {cred}, (chain.take (n + 1))[i]? = some cred →
        chain[i]? = some cred := by
      intro i cred h
      rw [getElem?_take] at h
      split_ifs at h
      exact h
    refine verify_chain_iff.mpr ⟨?_, hnodup.sublist ((take_sublist _ _).map _),
      ⟨root, rfl, verify_issued hanchor hvalid hstarted hended (hsigned _ _ hkey),
        hunrevoked 0 root mem_cons_self⟩, ?_⟩
    · have hlen := hhonest.length_le
      simp only [chain, delegated, length_take, length_cons, length_map]
      omega
    · intro i parent child hparent hchild
      have hkept := hunrevoked (i + 1) child (mem_of_getElem? (htaken hchild))
      obtain ⟨d, hd, rfl⟩ := Option.map_eq_some_iff.mp (getElem?_map.symm.trans (htaken hchild))
      obtain ⟨⟨dc, hissue⟩, hparent', -, hkey', hpair⟩ := hhonest i d hd
      obtain rfl := Option.some.inj ((htaken hparent).symm.trans hparent')
      obtain ⟨-, hnarrowed, hcred⟩ := DelegationRequest.issue_delegated_ok hissue
      have hend := hhonest.not_after hended (fun d hd => (htimes d hd).2) (htaken hchild)
      rw [DelegationRequest.not_after_child_cred] at hend
      rw [← hcred]
      exact issued_link hissue (hsigned _ _ hpair) hkey' hnarrowed hend
        (htimes d (mem_of_getElem? hd)).1 hend (by rw [hcred]; exact hkept)
  · rintro d hdepth ⟨dc, hissue⟩
    have hlt := (DelegationRequest.issue_delegated_ok hissue).1
    rw [hdepth] at hlt
    exact absurd hlt (by decide)

theorem honest_chain_verifies_sample : let root := sampleRoot 1 []
    let child := sampleChild 65 root 66 [] 0
    (verify_chain sampleIdeal sampleFaitf (sampleReadings .new) [root, child] sampleAnchors).1 =
      true := by
  intro root child
  have hhonest : Honest sampleIdeal sampleFaitf (fun sk vk => sk = vk ∧ vk.length = 32) root
      [sampleRequest 65 root 66 [] 0] := by
    intro i d hd
    obtain ⟨rfl, rfl⟩ : i = 0 ∧ sampleRequest 65 root 66 [] 0 = d := by
      cases i with
      | zero => exact ⟨rfl, Option.some.inj hd⟩
      | succ => cases hd
    exact ⟨⟨_, rfl⟩, rfl, rfl, rfl, rfl, rfl⟩
  refine (honest_chain_verifies sampleIdeal sampleFaitf _ ?_ sampleAnchors [90]
    ⟨[90], sampleKey 90, [], 12⟩ rfl (sampleKey 90) ⟨rfl, rfl⟩ _ _ 0 (fun _ => .new) hhonest
    (by decide) ?_ ?_ ?_ ?_ ?_).1 1
  · rintro sk vk ⟨rfl, hlen⟩ message
    simp [verify_data, sampleFaitf, hlen]
  · exact fun _ cred _ => rfl
  · decide +kernel
  · decide +kernel
  · decide +kernel
  · decide +kernel

end DelegationChain

end Saacp
