/-
**Chains of ACSVAF tokens**: what `DelegationChainValidator::validate_chain` checks of a list of
signed tokens, beside what `CapabilityVerificationAuthority::verify` checks of a single one.

`token_violations` is one turn of the loop, `TokenOk` says when it finds nothing, and `Links` is
that along the list. The parent a token names is looked up in the whole list and may be missing, and
a token is never asked whether it has expired or was revoked.

A message about a token shows the first eight bytes of its id. Where these do not end between two
characters the program panics; a validation that panics has no result here.
-/
import Saacp.Delegation
import Saacp.Gateway
import Mathlib.Data.List.Chain

set_option autoImplicit false

open ByteCodec

namespace Saacp

open List Option

def ACSVAF_REVOKED_TOKENS_MAX : ℕ := 100000

/-! ## Tokens -/

structure SignedCapabilityToken where
  claims : List (String × Json)
  signature : List UInt8
  signature_length : signature.length = 64

namespace SignedCapabilityToken

variable (t : SignedCapabilityToken)

def get_claim (key : String) : Option Json := (Json.obj t.claims).get key

def claims_bytes (C : FaitfCrates) : List UInt8 := sorted_json_bytes C (.obj t.claims)

def text_claim (key : String) : Text := ((t.get_claim key).bind Json.as_str).getD []

def strings_claim (key : String) : List Text := ((t.get_claim key).map Json.string_items).getD []

def jti : Text := t.text_claim "jti"
def kid : Text := t.text_claim "kid"
def sid : Text := t.text_claim "sid"
def actions : List Text := t.strings_claim "actions"

def max_action_class : UInt8 :=
  (((t.get_claim "max_action_class").bind Json.as_u64).getD 0).toUInt8

def delegation_depth : ℕ := (((t.get_claim "delegation_depth").bind Json.as_u64).getD 0).toNat

def parent_jti : Option Text := (t.get_claim "parent_jti").bind Json.as_str

def seconds_claim (C : FaitfCrates) (key : String) : F64 :=
  ((t.get_claim key).bind (Json.as_f64 C.f64_of_u64 C.f64_of_i64)).getD ⟨0, F64.finite_zero⟩

end SignedCapabilityToken

/-! ## One token -/

structure CapabilityVerificationResult where
  jti : Text
  issuer_id : Text
  sub : Text
  allowed_agents : List Text
  forbidden_agents : List Text
  actions : List Text
  audience : List Text
  sid : Text
  thash : Text
  remaining_uses : Option UInt64
  max_action_class : UInt8
  delegation_depth : ℕ
  parent_jti : Option Text

structure TokenAuthority extends CapabilityVerificationAuthority where
  revoked_tokens : Table Text Double

namespace TokenAuthority

def expires_after (now : ℚ) : Double → Bool
  | .number exp => now < exp.toRat
  | .infinity negative => !negative
  | .nan => false

/-- The order of two expiries that are both in the future. -/
def expires_before : Double → Double → Bool
  | .number a, .number b => a.toRat ≤ b.toRat
  | .infinity _, .number _ => false
  | _, _ => true

def enforce_revoked_tokens_cap (order : MapOrder Double) (now : ℚ)
    (revoked : Table Text Double) : Table Text Double :=
  let revoked := revoked.retain fun _ exp => expires_after now exp
  if revoked.len ≤ ACSVAF_REVOKED_TOKENS_MAX then revoked
  else
    let entries := (order.walk revoked.entries).insertionSort fun a b => expires_before a.2 b.2
    revoked.removeAll
      ((entries.take (revoked.len - ACSVAF_REVOKED_TOKENS_MAX)).map Prod.fst)

def revoke_token (order : MapOrder Double) (now : ℚ) (ca : TokenAuthority) (jti : Text)
    (exp : Double) : TokenAuthority :=
  { ca with
    revoked_tokens := enforce_revoked_tokens_cap order now (ca.revoked_tokens.insert jti exp) }

def verify (C : FaitfCrates) (now : ℚ) (ca : TokenAuthority) (token : SignedCapabilityToken) :
    Result CapabilityVerificationResult :=
  match (token.get_claim "kid").bind Json.as_str with
  | none => .error ⟨.InvalidSignature, "Missing kid claim"⟩
  | some kid =>
  match ca.get_verification_key kid with
  | none =>
    .error ⟨.AcsvafKeyNotTrusted, s!"Key not trusted: {display kid}"⟩
  | some vk =>
  if !C.ed25519_verify vk (token.claims_bytes C) token.signature then
    .error ⟨.InvalidSignature, "Ed25519 signature verification failed"⟩
  else if ca.revoked_tokens.contains token.jti then
    .error ⟨.TokenExpired, "Token has been revoked"⟩
  else if now < (token.seconds_claim C "nbf").toRat then
    .error ⟨.TokenExpired, "Token not yet valid (nbf)"⟩
  else if (token.seconds_claim C "exp").toRat < now then
    .error ⟨.TokenExpired, "Token has expired (exp)"⟩
  else
  match (token.get_claim "delegation_depth").bind Json.as_u64 with
  | none => .error ⟨.InvalidSignature,
      "delegation_depth claim is mandatory and must be a non-negative integer"⟩
  | some d =>
  if 2 ^ 32 ≤ d.toNat then
    .error ⟨.AcsvafDelegationDepthExceeded, "delegation_depth value out of u32 range"⟩
  else if ACSVAF_MAX_DELEGATION_DEPTH.toNat < d.toNat then
    .error ⟨.AcsvafDelegationDepthExceeded,
      s!"Delegation depth {d.toNat} exceeds max {ACSVAF_MAX_DELEGATION_DEPTH.toNat}"⟩
  else .ok {
    jti := token.jti
    issuer_id := token.text_claim "iss"
    sub := token.text_claim "sub"
    allowed_agents := token.strings_claim "allow"
    forbidden_agents := token.strings_claim "forbid"
    actions := token.actions
    audience := token.strings_claim "aud"
    sid := token.sid
    thash := token.text_claim "thash"
    remaining_uses := (token.get_claim "max_use").bind Json.as_u64
    max_action_class := token.max_action_class
    delegation_depth := d.toNat
    parent_jti := token.parent_jti }

/-- What is left to the single token: key id and depth are written out, valid now, not revoked. -/
structure Live (C : FaitfCrates) (now : ℚ) (ca : TokenAuthority) (token : SignedCapabilityToken) :
    Prop where
  kid : ∃ kid, (token.get_claim "kid").bind Json.as_str = some kid
  depth : ∃ d, (token.get_claim "delegation_depth").bind Json.as_u64 = some d
  unrevoked : ca.revoked_tokens.contains token.jti = false
  begun : (token.seconds_claim C "nbf").toRat ≤ now
  unexpired : now ≤ (token.seconds_claim C "exp").toRat

theorem verify_of_live {C : FaitfCrates} {now : ℚ} {ca : TokenAuthority}
    {token : SignedCapabilityToken} {vk : List UInt8} (hlive : Live C now ca token)
    (hkey : ca.get_verification_key token.kid = some vk)
    (hsigned : verify_ed25519 C.toClusterCrates vk (token.claims_bytes C) token.signature = true)
    (hdepth : token.delegation_depth ≤ ACSVAF_MAX_DELEGATION_DEPTH.toNat) :
    ∃ result, ca.verify C now token = .ok result := by
  obtain ⟨kid, hkid⟩ := hlive.kid
  obtain ⟨d, hd⟩ := hlive.depth
  have hsame : token.kid = kid := by
    rw [SignedCapabilityToken.kid, SignedCapabilityToken.text_claim, hkid]
    rfl
  have hd' : d.toNat ≤ ACSVAF_MAX_DELEGATION_DEPTH.toNat := by
    rw [SignedCapabilityToken.delegation_depth, hd] at hdepth
    exact hdepth
  have hverify : C.ed25519_verify vk (token.claims_bytes C) token.signature = true := by
    rw [verify_ed25519, verify_data, Bool.and_eq_true] at hsigned
    exact hsigned.2
  rw [hsame] at hkey
  have hsmall : ¬ 2 ^ 32 ≤ d.toNat := by
    rw [show ACSVAF_MAX_DELEGATION_DEPTH.toNat = 3 from rfl] at hd'
    omega
  rw [verify]
  simp only [hkid, hkey, hverify, hd, hlive.unrevoked]
  rw [if_neg (by decide), if_neg (by decide), if_neg (not_lt.mpr hlive.begun),
    if_neg (not_lt.mpr hlive.unexpired), if_neg hsmall, if_neg (not_lt.mpr hd')]
  exact ⟨_, rfl⟩

theorem live_of_verify {C : FaitfCrates} {now : ℚ} {ca : TokenAuthority}
    {token : SignedCapabilityToken} {result : CapabilityVerificationResult}
    (h : ca.verify C now token = .ok result) : Live C now ca token := by
  rw [verify] at h
  cases hkid : (token.get_claim "kid").bind Json.as_str with
  | none => simp [hkid] at h
  | some kid =>
  cases hkey : ca.get_verification_key kid with
  | none => simp [hkid, hkey] at h
  | some vk =>
  simp only [hkid, hkey] at h
  split_ifs at h with hsigned hrevoked hbegun hexpired
  cases hdepth : (token.get_claim "delegation_depth").bind Json.as_u64 with
  | none => simp [hdepth] at h
  | some d =>
    exact ⟨⟨kid, hkid⟩, ⟨d, hdepth⟩, eq_false_of_ne_true hrevoked, not_lt.mp hbegun,
      not_lt.mp hexpired⟩

end TokenAuthority

/-! ## What a validation reports -/

/-- One line of `violations`. -/
inductive ChainViolation
  | empty_chain
  | signature_invalid (i : ℕ) (jti : Text)
  | kid_not_trusted (i : ℕ) (kid : Text)
  | wrong_depth (i depth : ℕ)
  | too_deep (i : ℕ)
  | circular (i : ℕ) (jti : Text)
  | orphan (i : ℕ) (parent_jti : Text)
  | amplification (i : ℕ) (extra : List Text)
  | escalation (i : ℕ) (token_mac parent_mac : UInt8)
  | cross_session (i : ℕ) (sid root_sid : Text)
  deriving DecidableEq

/-- The text of a line; `debug` prints a set of actions. -/
def ChainViolation.message (debug : List Text → String) : ChainViolation → String
  | empty_chain => "Empty delegation chain."
  | signature_invalid i jti => s!"[{i}] Signature invalid for jti '{display jti}'."
  | kid_not_trusted i kid => s!"[{i}] kid '{display kid}' not trusted."
  | wrong_depth i depth => s!"[{i}] delegation_depth={depth} expected {i}."
  | too_deep i =>
    s!"[{i}] Chain depth {i} exceeds MAX_DELEGATION_DEPTH={ACSVAF_MAX_DELEGATION_DEPTH.toNat}."
  | circular i jti => s!"[{i}] Circular jti reference: '{display jti}'."
  | orphan i parent_jti => s!"[{i}] parent_jti '{display parent_jti}' not in chain (orphan)."
  | amplification i extra =>
    s!"[{i}] Privilege amplification: actions {debug extra} exceed parent."
  | escalation i token_mac parent_mac =>
    s!"[{i}] max_action_class {token_mac} > parent {parent_mac} (escalation)."
  | cross_session i sid root_sid =>
    s!"[{i}] sid '{display sid}' != root sid '{display root_sid}' (cross-session)."

structure DelegationChainResult where
  valid : Bool
  depth : ℕ
  root_jti : Text
  final_jti : Text
  effective_actions : List Text
  effective_max_action_class : UInt8
  violations : List ChainViolation

namespace DelegationChainValidator

/-- `is_char_boundary`: not before a continuation byte. -/
def is_char_boundary (t : Text) (i : ℕ) : Bool :=
  match t[i]? with
  | some b => b < 128 || 192 ≤ b
  | none => i = t.length

/-- The slice of the first eight bytes; `none` is a panic. -/
def head8 (t : Text) : Option Text :=
  let n := min 8 t.length
  if is_char_boundary t n then some (t.take n) else none

variable (C : FaitfCrates) (ca : CapabilityVerificationAuthority)

def signature_violations (i : ℕ) (token : SignedCapabilityToken) : Option (List ChainViolation) :=
  match ca.get_verification_key token.kid with
  | none => some [.kid_not_trusted i token.kid]
  | some vk =>
    if verify_ed25519 C.toClusterCrates vk (token.claims_bytes C) token.signature then some []
    else (head8 token.jti).map fun j => [.signature_invalid i j]

def depth_violations (i : ℕ) (token : SignedCapabilityToken) : List ChainViolation :=
  (if token.delegation_depth ≠ i then [.wrong_depth i token.delegation_depth] else []) ++
    if ACSVAF_MAX_DELEGATION_DEPTH.toNat < i then [.too_deep i] else []

def circular_violations (seen_jtis : List Text) (i : ℕ) (token : SignedCapabilityToken) :
    Option (List ChainViolation) :=
  if token.jti ∈ seen_jtis then (head8 token.jti).map fun j => [.circular i j] else some []

/-- A parent that is not in the chain. Only a token that is not the first one is asked. -/
def orphan_violations (jti_set : List Text) (i : ℕ) (parent : Option SignedCapabilityToken)
    (token : SignedCapabilityToken) : Option (List ChainViolation) :=
  match parent with
  | none => some []
  | some _ =>
    let parent_jti_str := token.parent_jti.getD []
    if parent_jti_str ≠ [] ∧ parent_jti_str ∉ jti_set then
      (head8 parent_jti_str).map fun j => [.orphan i j]
    else some []

def extra_actions (parent token : SignedCapabilityToken) : List Text :=
  token.actions.dedup.filter fun a => a ∉ parent.actions

def amplification_violations (i : ℕ) (parent : Option SignedCapabilityToken)
    (token : SignedCapabilityToken) : List ChainViolation :=
  match parent with
  | none => []
  | some parent =>
    (if extra_actions parent token ≠ [] then [.amplification i (extra_actions parent token)]
      else []) ++
    if parent.max_action_class < token.max_action_class then
      [.escalation i token.max_action_class parent.max_action_class] else []

def session_violations (root_sid : Text) (i : ℕ) (token : SignedCapabilityToken) :
    List ChainViolation :=
  if token.sid ≠ root_sid then [.cross_session i token.sid root_sid] else []

def token_violations (jti_set : List Text) (root_sid : Text) (seen_jtis : List Text) (i : ℕ)
    (parent : Option SignedCapabilityToken) (token : SignedCapabilityToken) :
    Option (List ChainViolation) := do
  let signature ← signature_violations C ca i token
  let circular ← circular_violations seen_jtis i token
  let orphan ← orphan_violations jti_set i parent token
  some (signature ++ depth_violations i token ++ circular ++ orphan ++
    amplification_violations i parent token ++ session_violations root_sid i token)

structure ChainState where
  violations : List ChainViolation
  seen_jtis : List Text
  effective_actions : List Text
  effective_mac : UInt8

/-- What is in force after a token: what its parent had and it has. -/
def ChainState.narrow (st : ChainState) (parent : Option SignedCapabilityToken)
    (token : SignedCapabilityToken) : ChainState :=
  match parent with
  | none => st
  | some _ =>
    { st with
      effective_actions := st.effective_actions.filter fun a => a ∈ token.actions
      effective_mac :=
        if st.effective_mac ≤ token.max_action_class then st.effective_mac
        else token.max_action_class }

def chain_loop (jti_set : List Text) (root_sid : Text) :
    ℕ → Option SignedCapabilityToken → List SignedCapabilityToken → ChainState → Option ChainState
  | _, _, [], st => some st
  | i, parent, token :: tokens, st => do
    let found ← token_violations C ca jti_set root_sid st.seen_jtis i parent token
    let st := { st with
      violations := st.violations ++ found
      seen_jtis := token.jti :: st.seen_jtis }
    chain_loop jti_set root_sid (i + 1) (some token) tokens (st.narrow parent token)

def validate_chain (tokens : List SignedCapabilityToken) : Option DelegationChainResult :=
  match tokens with
  | [] => some ⟨false, 0, [], [], [], 0, [.empty_chain]⟩
  | root :: rest => do
    let st ← chain_loop C ca ((root :: rest).map SignedCapabilityToken.jti) root.sid 0 none
      (root :: rest) ⟨[], [], root.actions.dedup, root.max_action_class⟩
    some {
      valid := st.violations.isEmpty
      depth := rest.length
      root_jti := root.jti
      final_jti := (rest.getLastD root).jti
      effective_actions := st.effective_actions.insertionSort fun a b => a ≤ b
      effective_max_action_class := st.effective_mac
      violations := st.violations }

/-! ## What a turn without a violation has checked -/

structure Narrower (parent token : SignedCapabilityToken) : Prop where
  actions : ∀ a ∈ token.actions, a ∈ parent.actions
  max_action_class : token.max_action_class ≤ parent.max_action_class

/-- What is checked of the token at index `i`. -/
structure TokenOk (jti_set : List Text) (root_sid : Text) (i : ℕ)
    (parent : Option SignedCapabilityToken) (token : SignedCapabilityToken) : Prop where
  signed : ∃ vk, ca.get_verification_key token.kid = some vk ∧
    verify_ed25519 C.toClusterCrates vk (token.claims_bytes C) token.signature = true
  depth : token.delegation_depth = i
  shallow : i ≤ ACSVAF_MAX_DELEGATION_DEPTH.toNat
  session : token.sid = root_sid
  parent_known : ∀ p, parent = some p →
    token.parent_jti.getD [] = [] ∨ token.parent_jti.getD [] ∈ jti_set
  narrower : ∀ p, parent = some p → Narrower p token

variable {C ca} {jti_set : List Text} {root_sid : Text} {seen_jtis : List Text} {i : ℕ}
  {parent : Option SignedCapabilityToken} {token : SignedCapabilityToken}

theorem signature_violations_nil (h : signature_violations C ca i token = some []) :
    ∃ vk, ca.get_verification_key token.kid = some vk ∧
      verify_ed25519 C.toClusterCrates vk (token.claims_bytes C) token.signature = true := by
  rw [signature_violations] at h
  cases hkey : ca.get_verification_key token.kid with
  | none =>
    rw [hkey] at h
    simp at h
  | some vk =>
    simp only [hkey] at h
    refine ⟨vk, rfl, ?_⟩
    by_contra hbad
    rw [if_neg hbad] at h
    simp at h

theorem depth_violations_nil (h : depth_violations i token = []) :
    token.delegation_depth = i ∧ i ≤ ACSVAF_MAX_DELEGATION_DEPTH.toNat := by
  rw [depth_violations, append_eq_nil_iff, ite_eq_right_iff, ite_eq_right_iff] at h
  constructor
  · by_contra hne
    cases h.1 hne
  · by_contra hlt
    cases h.2 (not_le.mp hlt)

theorem circular_violations_nil (h : circular_violations seen_jtis i token = some []) :
    token.jti ∉ seen_jtis := by
  intro hmem
  rw [circular_violations, if_pos hmem] at h
  simp at h

theorem orphan_violations_nil (h : orphan_violations jti_set i parent token = some [])
    (p : SignedCapabilityToken) (hp : parent = some p) :
    token.parent_jti.getD [] = [] ∨ token.parent_jti.getD [] ∈ jti_set := by
  subst hp
  by_contra hbad
  rw [not_or] at hbad
  simp only [orphan_violations] at h
  rw [if_pos hbad] at h
  simp at h

theorem amplification_violations_nil (h : amplification_violations i parent token = [])
    (p : SignedCapabilityToken) (hp : parent = some p) : Narrower p token := by
  subst hp
  simp only [amplification_violations] at h
  rw [append_eq_nil_iff, ite_eq_right_iff, ite_eq_right_iff] at h
  constructor
  · intro a ha
    by_contra hextra
    have hmem : a ∈ extra_actions p token :=
      mem_filter.mpr ⟨mem_dedup.mpr ha, decide_eq_true hextra⟩
    cases h.1 (ne_nil_of_mem hmem)
  · by_contra hlt
    cases h.2 (UInt8.not_le.mp hlt)

theorem session_violations_nil (h : session_violations root_sid i token = []) :
    token.sid = root_sid := by
  by_contra hne
  rw [session_violations, if_pos hne] at h
  cases h

theorem token_violations_nil
    (h : token_violations C ca jti_set root_sid seen_jtis i parent token = some []) :
    TokenOk C ca jti_set root_sid i parent token ∧ token.jti ∉ seen_jtis := by
  simp only [token_violations, bind_eq_bind, bind_eq_some_iff, Option.some.injEq,
    append_eq_nil_iff] at h
  obtain ⟨sig, hsignature, circular, hcircular, orphan, horphan,
    ⟨⟨⟨⟨rfl, hdepth⟩, rfl⟩, rfl⟩, hamplification⟩, hsession⟩ := h
  exact ⟨{
    signed := signature_violations_nil hsignature
    depth := (depth_violations_nil hdepth).1
    shallow := (depth_violations_nil hdepth).2
    session := session_violations_nil hsession
    parent_known := orphan_violations_nil horphan
    narrower := amplification_violations_nil hamplification }, circular_violations_nil hcircular⟩

/-! ## The whole loop -/

variable (C ca) in
/-- The tokens from index `i` on, none of which finds a violation. -/
def Links (jti_set : List Text) (root_sid : Text) :
    ℕ → Option SignedCapabilityToken → List Text → List SignedCapabilityToken → Prop
  | _, _, _, [] => True
  | i, parent, seen_jtis, token :: tokens =>
    TokenOk C ca jti_set root_sid i parent token ∧ token.jti ∉ seen_jtis ∧
      Links jti_set root_sid (i + 1) (some token) (token.jti :: seen_jtis) tokens

structure InForce (st : ChainState) (token : SignedCapabilityToken) : Prop where
  actions : ∀ a, a ∈ st.effective_actions ↔ a ∈ token.actions
  nodup : st.effective_actions.Nodup
  max_action_class : st.effective_mac = token.max_action_class

/-- What a turn of the loop does to the violations and to the ids seen. -/
theorem ChainState.narrow_violations (st : ChainState) (parent : Option SignedCapabilityToken)
    (token : SignedCapabilityToken) (found : List ChainViolation) :
    let st' := ChainState.narrow { st with
      violations := st.violations ++ found, seen_jtis := token.jti :: st.seen_jtis } parent token
    st'.violations = st.violations ++ found ∧ st'.seen_jtis = token.jti :: st.seen_jtis := by
  cases parent with
  | none | some => exact ⟨rfl, rfl⟩

variable {st : ChainState} {p : SignedCapabilityToken} {tokens : List SignedCapabilityToken}

theorem InForce.narrow (h : InForce st p)
    (hnarrower : Narrower p token) : InForce (st.narrow (some p) token) token where
  actions a := by
    rw [ChainState.narrow, mem_filter, h.actions, decide_eq_true_eq]
    exact ⟨And.right, fun ha => ⟨hnarrower.actions a ha, ha⟩⟩
  nodup := h.nodup.filter _
  max_action_class := by
    rw [ChainState.narrow, h.max_action_class]
    by_cases hle : p.max_action_class ≤ token.max_action_class
    · exact (if_pos hle).trans (UInt8.le_antisymm hle hnarrower.max_action_class)
    · exact if_neg hle

/-- **A loop that finds nothing** has checked every token. -/
theorem chain_loop_nil {st' : ChainState}
    (h : chain_loop C ca jti_set root_sid i parent tokens st = some st')
    (hnil : st'.violations = []) :
    st.violations = [] ∧ Links C ca jti_set root_sid i parent st.seen_jtis tokens := by
  induction tokens generalizing i parent st with
  | nil =>
    cases h
    exact ⟨hnil, trivial⟩
  | cons token tokens ih =>
    rw [chain_loop, bind_eq_bind, bind_eq_some_iff] at h
    obtain ⟨found, hfound, hrest⟩ := h
    obtain ⟨hviolations, hlinks⟩ := ih hrest
    obtain ⟨hv, hs⟩ := st.narrow_violations parent token found
    rw [hv, append_eq_nil_iff] at hviolations
    rw [hs] at hlinks
    obtain ⟨hok, hseen⟩ := token_violations_nil (hviolations.2 ▸ hfound)
    exact ⟨hviolations.1, hok, hseen, hlinks⟩

theorem chain_loop_in_force
    {st' : ChainState} (h : chain_loop C ca jti_set root_sid i (some p) tokens st = some st')
    (hlinks : Links C ca jti_set root_sid i (some p) seen_jtis tokens) (hforce : InForce st p) :
    InForce st' (tokens.getLastD p) := by
  induction tokens generalizing i p st seen_jtis with
  | nil =>
    cases h
    exact hforce
  | cons token tokens ih =>
    rw [chain_loop, bind_eq_bind, bind_eq_some_iff] at h
    obtain ⟨found, -, hrest⟩ := h
    obtain ⟨hok, -, hlinks⟩ := hlinks
    have hstep : InForce (ChainState.narrow { st with
        violations := st.violations ++ found, seen_jtis := token.jti :: st.seen_jtis }
          (some p) token) token :=
      InForce.narrow ⟨hforce.actions, hforce.nodup, hforce.max_action_class⟩ (hok.narrower p rfl)
    rw [getLastD_cons]
    exact ih hrest hlinks hstep

theorem validate_chain_valid {result : DelegationChainResult}
    (h : validate_chain C ca tokens = some result) (hvalid : result.valid = true) :
    ∃ root rest st, tokens = root :: rest ∧
      Links C ca (tokens.map SignedCapabilityToken.jti) root.sid 0 none [] tokens ∧
      InForce st (rest.getLastD root) ∧
      result.effective_actions = st.effective_actions.insertionSort (fun a b => a ≤ b) ∧
      result.effective_max_action_class = st.effective_mac := by
  cases tokens with
  | nil =>
    cases h
    cases hvalid
  | cons root rest =>
    simp only [validate_chain, bind_eq_bind, bind_eq_some_iff] at h
    obtain ⟨st, hloop, hresult⟩ := h
    cases hresult
    obtain ⟨-, hlinks⟩ := chain_loop_nil hloop (isEmpty_iff.mp hvalid)
    refine ⟨root, rest, st, rfl, hlinks, ?_, rfl, rfl⟩
    -- the first turn leaves in force what the root has
    rw [chain_loop, bind_eq_bind, bind_eq_some_iff] at hloop
    obtain ⟨found, -, hrest⟩ := hloop
    exact chain_loop_in_force hrest hlinks.2.2 ⟨fun a => mem_dedup, nodup_dedup _, rfl⟩

/-! ## What holds along a valid chain -/

variable {tokens : List SignedCapabilityToken}

theorem Links.token_ok (h : Links C ca jti_set root_sid i parent seen_jtis tokens) (k : ℕ)
    (hk : tokens[k]? = some token) : ∃ p, TokenOk C ca jti_set root_sid (i + k) p token := by
  induction tokens generalizing i parent seen_jtis k with
  | nil => cases hk
  | cons first rest ih =>
    obtain ⟨hok, -, hlinks⟩ := h
    cases k with
    | zero =>
      cases hk
      exact ⟨parent, hok⟩
    | succ k =>
      rw [List.getElem?_cons_succ] at hk
      obtain ⟨p, hp⟩ := ih hlinks k hk
      exact ⟨p, by rw [← Nat.succ_add_eq_add_succ]; exact hp⟩

theorem Links.narrower (h : Links C ca jti_set root_sid i (some p) seen_jtis tokens) :
    (p :: tokens).IsChain Narrower := by
  induction tokens generalizing i p seen_jtis with
  | nil => exact isChain_singleton p
  | cons first rest ih =>
    obtain ⟨hok, -, hlinks⟩ := h
    exact isChain_cons_cons.mpr ⟨hok.narrower p rfl, ih hlinks⟩

instance Narrower.isTrans : IsTrans SignedCapabilityToken Narrower where
  trans _ _ _ h h' :=
    ⟨fun a ha => h.actions a (h'.actions a ha),
      UInt8.le_trans h'.max_action_class h.max_action_class⟩

theorem Links.nodup (h : Links C ca jti_set root_sid i parent seen_jtis tokens) :
    (tokens.map SignedCapabilityToken.jti).Nodup ∧ ∀ t ∈ tokens, t.jti ∉ seen_jtis := by
  induction tokens generalizing i parent seen_jtis with
  | nil => exact ⟨nodup_nil, nofun⟩
  | cons first rest ih =>
    obtain ⟨-, hseen, hlinks⟩ := h
    obtain ⟨hnodup, hrest⟩ := ih hlinks
    refine ⟨nodup_cons.mpr ⟨?_, hnodup⟩, ?_⟩
    · intro hmem
      obtain ⟨t, ht, heq⟩ := mem_map.mp hmem
      exact hrest t ht (by rw [heq]; exact mem_cons_self)
    · exact forall_mem_cons.mpr ⟨hseen, fun t ht hin => hrest t ht (mem_cons_of_mem _ hin)⟩

/-! ## Small chains

Tokens that are valid from second 0 to second 12, all signed with the key `k`. -/

def sampleToken (jti : UInt8) (depth : UInt64) (parent : List (String × Json)) :
    SignedCapabilityToken where
  claims := parent ++ [("jti", .str [jti]), ("kid", .str [107]), ("sid", .str [115]),
    ("actions", .arr [.str (ascii "read")]), ("max_action_class", .pos_int 1),
    ("delegation_depth", .pos_int depth), ("nbf", .float wall_0), ("exp", .float wall_12)]
  signature := sampleKey 90 ++ sampleKey 90
  signature_length := by decide

def sampleTokenAuthority : TokenAuthority :=
  ⟨CapabilityVerificationAuthority.new.register_key [107] (sampleKey 90), .empty⟩

def sampleTokens : List SignedCapabilityToken :=
  [sampleToken 97 0 [], sampleToken 98 1 [("parent_jti", .str [97])]]

theorem sampleTokens_valid : ∃ result, validate_chain DelegationChain.sampleFaitf
    sampleTokenAuthority.toCapabilityVerificationAuthority sampleTokens = some result ∧
      result.valid = true :=
  (Option.any_eq_true _ _).mp (by decide +kernel)

/-- **A valid chain attenuates, and reports what is in force.** -/
theorem chain_attenuates (C : FaitfCrates) (ca : CapabilityVerificationAuthority)
    (tokens : List SignedCapabilityToken) (result : DelegationChainResult)
    (h : validate_chain C ca tokens = some result) (hvalid : result.valid = true) :
    (∀ (i j : ℕ) (a b : SignedCapabilityToken), i < j → tokens[i]? = some a → tokens[j]? = some b →
        (∀ action ∈ b.actions, action ∈ a.actions) ∧ b.max_action_class ≤ a.max_action_class) ∧
      (∃ last, tokens.getLast? = some last ∧
        (∀ action, action ∈ result.effective_actions ↔ action ∈ last.actions) ∧
        result.effective_actions.Pairwise (fun a b => a < b) ∧
        result.effective_max_action_class = last.max_action_class) ∧
      (tokens.map SignedCapabilityToken.jti).Nodup ∧
      (∀ (i : ℕ) (t : SignedCapabilityToken), tokens[i]? = some t → t.delegation_depth = i ∧
        ∃ vk, ca.get_verification_key t.kid = some vk ∧
          verify_ed25519 C.toClusterCrates vk (t.claims_bytes C) t.signature = true) ∧
      (∀ a ∈ tokens, ∀ b ∈ tokens, a.sid = b.sid) ∧
      tokens.length ≤ ACSVAF_MAX_DELEGATION_DEPTH.toNat + 1 := by
  obtain ⟨root, rest, st, rfl, hlinks, hforce, hactions, hmac⟩ := validate_chain_valid h hvalid
  have hok : ∀ (k : ℕ) (t : SignedCapabilityToken), (root :: rest)[k]? = some t →
      ∃ p, TokenOk C ca ((root :: rest).map SignedCapabilityToken.jti) root.sid k p t := by
    intro k t hk
    obtain ⟨p, hp⟩ := hlinks.token_ok k hk
    exact ⟨p, by rw [Nat.zero_add] at hp; exact hp⟩
  have hsid : ∀ t ∈ root :: rest, t.sid = root.sid := by
    intro t ht
    obtain ⟨k, hk⟩ := mem_iff_getElem?.mp ht
    obtain ⟨p, hp⟩ := hok k t hk
    exact hp.session
  refine ⟨?_, ⟨rest.getLastD root, ?_, ?_, ?_, ?_⟩, hlinks.nodup.1, ?_, ?_, ?_⟩
  · -- neighbours narrow, and narrowing is transitive
    have hpairs : (root :: rest).Pairwise Narrower := hlinks.2.2.narrower.pairwise
    intro i j a b hij ha hb
    obtain ⟨hi, rfl⟩ := List.getElem?_eq_some_iff.mp ha
    obtain ⟨hj, rfl⟩ := List.getElem?_eq_some_iff.mp hb
    have hnarrower := pairwise_iff_getElem.mp hpairs i j hi hj hij
    exact ⟨hnarrower.actions, hnarrower.max_action_class⟩
  · rw [List.getLast?_cons, getLastD_eq_getLast?]
  · intro action
    rw [hactions, (perm_insertionSort _ _).mem_iff]
    exact hforce.actions action
  · -- sorted, and no action is there twice
    rw [hactions]
    have hsorted := pairwise_insertionSort (fun a b : Text => a ≤ b) st.effective_actions
    have hnodup := (perm_insertionSort (fun a b : Text => a ≤ b)
      st.effective_actions).nodup_iff.mpr hforce.nodup
    refine (hsorted.and hnodup).imp ?_
    rintro a b ⟨hle, hne⟩
    exact Std.lt_of_le_of_ne hle hne
  · rw [hmac]
    exact hforce.max_action_class
  · intro i t ht
    obtain ⟨p, hp⟩ := hok i t ht
    exact ⟨hp.depth, hp.signed⟩
  · intro a ha b hb
    rw [hsid a ha, hsid b hb]
  · -- the last token is not too deep
    obtain ⟨p, hp⟩ := hok rest.length _ (List.getElem?_eq_getElem (by simp))
    have hshallow := hp.shallow
    rw [length_cons]
    omega

theorem chain_attenuates_sample : ∃ result, validate_chain DelegationChain.sampleFaitf
        sampleTokenAuthority.toCapabilityVerificationAuthority sampleTokens = some result ∧
      result.effective_max_action_class = 1 ∧ sampleTokens.length ≤ 4 := by
  obtain ⟨result, hresult, hvalid⟩ := sampleTokens_valid
  obtain ⟨-, ⟨last, hlast, -, -, hclass⟩, -, -, -, hlength⟩ :=
    chain_attenuates _ _ _ _ hresult hvalid
  cases hlast
  exact ⟨result, hresult, hclass, hlength⟩

/-- **When a valid chain is linked and live**: every token but the first names a token of the list
one level above it, and every token is live. -/
theorem chain_linked_and_live (C : FaitfCrates) (now : ℚ) (ca : TokenAuthority)
    (tokens : List SignedCapabilityToken) (result : DelegationChainResult)
    (h : validate_chain C ca.toCapabilityVerificationAuthority tokens = some result)
    (hvalid : result.valid = true) :
    ((∀ (i : ℕ) (a t : SignedCapabilityToken), tokens[i]? = some a → tokens[i + 1]? = some t →
        t.parent_jti = some a.jti) ∧
      ∀ t ∈ tokens, ∃ accepted, ca.verify C now t = .ok accepted) ↔
    (∀ (i : ℕ) (t : SignedCapabilityToken), tokens[i + 1]? = some t →
        ∃ s ∈ tokens, t.parent_jti = some s.jti ∧ s.delegation_depth + 1 = t.delegation_depth) ∧
      ∀ t ∈ tokens, TokenAuthority.Live C now ca t := by
  obtain ⟨root, rest, st, rfl, hlinks, -, -, -⟩ := validate_chain_valid h hvalid
  -- the index of a token is its depth
  have hdepth (k : ℕ) (t : SignedCapabilityToken) (hk : (root :: rest)[k]? = some t) :
      t.delegation_depth = k := by
    obtain ⟨_, hok⟩ := hlinks.token_ok k hk
    rw [hok.depth, Nat.zero_add]
  constructor
  · rintro ⟨hlinked, haccepted⟩
    refine ⟨fun i t ht => ?_, fun t ht => ?_⟩
    · obtain ⟨hi, -⟩ := List.getElem?_eq_some_iff.mp ht
      have ha := List.getElem?_eq_getElem (Nat.lt_of_succ_lt hi)
      refine ⟨_, mem_of_getElem? ha, hlinked i _ t ha ht, ?_⟩
      rw [hdepth _ _ ha, hdepth _ _ ht]
    · obtain ⟨accepted, hverify⟩ := haccepted t ht
      exact TokenAuthority.live_of_verify hverify
  · rintro ⟨hparents, hlive⟩
    refine ⟨fun i a t ha ht => ?_, fun t ht => ?_⟩
    · obtain ⟨s, hs, hparent, hlevel⟩ := hparents i t ht
      obtain ⟨k, hk⟩ := mem_iff_getElem?.mp hs
      rw [hdepth k s hk, hdepth _ t ht] at hlevel
      obtain rfl : k = i := Nat.add_right_cancel hlevel
      cases hk.symm.trans ha
      exact hparent
    · obtain ⟨k, hk⟩ := mem_iff_getElem?.mp ht
      obtain ⟨_, hok⟩ := hlinks.token_ok k hk
      obtain ⟨vk, hkey, hsigned⟩ := hok.signed
      exact TokenAuthority.verify_of_live (hlive t ht) hkey hsigned
        (by rw [hok.depth]; exact hok.shallow)

theorem chain_linked_and_live_sample :
    (∀ (i : ℕ) (a t : SignedCapabilityToken), sampleTokens[i]? = some a →
        sampleTokens[i + 1]? = some t → t.parent_jti = some a.jti) ∧
      ∀ t ∈ sampleTokens, ∃ accepted,
        sampleTokenAuthority.verify DelegationChain.sampleFaitf 5 t = .ok accepted := by
  obtain ⟨result, hresult, hvalid⟩ := sampleTokens_valid
  refine (chain_linked_and_live _ 5 sampleTokenAuthority _ result hresult hvalid).mpr ⟨?_, ?_⟩
  · intro i t ht
    obtain ⟨hi, -⟩ := List.getElem?_eq_some_iff.mp ht
    obtain rfl : i = 0 := by
      rw [show sampleTokens.length = 2 from rfl] at hi
      omega
    cases ht
    exact ⟨_, mem_cons_self, by decide, by decide⟩
  · intro t ht
    rcases mem_pair.mp ht with rfl | rfl
    · exact ⟨⟨_, rfl⟩, ⟨_, rfl⟩, by decide, by decide +kernel, by decide +kernel⟩
    · exact ⟨⟨_, rfl⟩, ⟨_, rfl⟩, by decide, by decide +kernel, by decide +kernel⟩

/-- **A spliced chain is accepted.** `c` names itself as its parent and has nothing to do with `a`,
and `a` has been revoked, and later has expired as well. The chain of the two is valid all the
same. -/
theorem spliced_chain_accepted : let a := sampleToken 97 0 []
    let c := sampleToken 99 1 [("parent_jti", .str [99])]
    let ca := sampleTokenAuthority.revoke_token ⟨id, fun _ => .refl _⟩ 0 [97] (.number wall_12)
    (∃ result, validate_chain DelegationChain.sampleFaitf ca.toCapabilityVerificationAuthority
        [a, c] = some result ∧ result.valid = true) ∧
      c.parent_jti ≠ some a.jti ∧
      (∀ now accepted, ca.verify DelegationChain.sampleFaitf now a ≠ .ok accepted) ∧
      ∀ accepted, sampleTokenAuthority.verify DelegationChain.sampleFaitf 13 a ≠ .ok accepted := by
  intro a c ca
  refine ⟨(Option.any_eq_true _ _).mp (by decide +kernel), by decide, ?_, ?_⟩
  · intro now accepted haccepted
    have hrevoked : ca.revoked_tokens.contains a.jti = true := by decide +kernel
    rw [(TokenAuthority.live_of_verify haccepted).unrevoked] at hrevoked
    cases hrevoked
  · intro accepted haccepted
    exact absurd (TokenAuthority.live_of_verify haccepted).unexpired (by decide +kernel)

/-! ## Hostile ids -/

variable (C ca) in
/-- Where the loop cuts an id for a message, no character is across its eighth byte: the id of a
token whose signature is bad or that was seen before, and a parent that is not in the chain. -/
def Cuttable (jti_set : List Text) :
    Option SignedCapabilityToken → List Text → List SignedCapabilityToken → Prop
  | _, _, [] => True
  | parent, seen_jtis, token :: tokens =>
    (((ca.get_verification_key token.kid).any fun vk =>
        !verify_ed25519 C.toClusterCrates vk (token.claims_bytes C) token.signature) ∨
      token.jti ∈ seen_jtis → (head8 token.jti).isSome) ∧
    (parent.isSome ∧ token.parent_jti.getD [] ≠ [] ∧ token.parent_jti.getD [] ∉ jti_set →
      (head8 (token.parent_jti.getD [])).isSome) ∧
    Cuttable jti_set (some token) (token.jti :: seen_jtis) tokens

variable (C ca) in
/-- At every token of a chain the checks return, and what they found is among the violations. -/
def Reported (jti_set : List Text) (root_sid : Text) (violations : List ChainViolation) :
    ℕ → Option SignedCapabilityToken → List Text → List SignedCapabilityToken → Prop
  | _, _, _, [] => True
  | i, parent, seen_jtis, token :: tokens =>
    (∃ found, token_violations C ca jti_set root_sid seen_jtis i parent token = some found ∧
      found ⊆ violations) ∧
    Reported jti_set root_sid violations (i + 1) (some token) (token.jti :: seen_jtis) tokens

/-- The checks of one token return if its own ids can be cut. -/
theorem token_violations_returns (C : FaitfCrates) (ca : CapabilityVerificationAuthority)
    (jti_set : List Text) (root_sid : Text) (seen_jtis : List Text) (i : ℕ)
    (parent : Option SignedCapabilityToken) (token : SignedCapabilityToken) :
    (∃ found, token_violations C ca jti_set root_sid seen_jtis i parent token = some found) ↔
      Cuttable C ca jti_set parent seen_jtis [token] := by
  simp only [token_violations, signature_violations, circular_violations, orphan_violations,
    Cuttable, and_true]
  cases ca.get_verification_key token.kid <;> cases parent <;> cases head8 token.jti <;>
    cases head8 (token.parent_jti.getD []) <;> dsimp only <;> split_ifs <;> simp_all

/-- The loop comes to its end if it can cut what it cuts. -/
theorem chain_loop_returns (hseen : st.seen_jtis = seen_jtis) :
    (∃ st', chain_loop C ca jti_set root_sid i parent tokens st = some st') ↔
      Cuttable C ca jti_set parent seen_jtis tokens := by
  induction tokens generalizing i parent st seen_jtis with
  | nil => exact iff_of_true ⟨st, rfl⟩ trivial
  | cons token tokens ih =>
    subst hseen
    -- the first token, and then the rest of the chain
    have hfirst := token_violations_returns C ca jti_set root_sid st.seen_jtis i parent token
    rw [Cuttable, Cuttable, and_true] at hfirst
    rw [Cuttable, ← and_assoc, ← hfirst]
    constructor
    · rintro ⟨st', h⟩
      rw [chain_loop, bind_eq_bind, bind_eq_some_iff] at h
      obtain ⟨found, hfound, hrest⟩ := h
      exact ⟨⟨found, hfound⟩, (ih (st.narrow_violations parent token found).2).mp ⟨st', hrest⟩⟩
    · rintro ⟨⟨found, hfound⟩, hrest⟩
      obtain ⟨st', hst'⟩ := (ih (st.narrow_violations parent token found).2).mpr hrest
      exact ⟨st', by rw [chain_loop, hfound]; exact hst'⟩

theorem chain_loop_reports {st' : ChainState}
    (h : chain_loop C ca jti_set root_sid i parent tokens st = some st') :
    st.violations ⊆ st'.violations ∧
      Reported C ca jti_set root_sid st'.violations i parent st.seen_jtis tokens := by
  induction tokens generalizing i parent st with
  | nil =>
    cases h
    exact ⟨Subset.refl _, trivial⟩
  | cons token tokens ih =>
    rw [chain_loop, bind_eq_bind, bind_eq_some_iff] at h
    obtain ⟨found, hfound, hrest⟩ := h
    obtain ⟨hv, hs⟩ := st.narrow_violations parent token found
    obtain ⟨hkept, hreported⟩ := ih hrest
    rw [hv, append_subset] at hkept
    rw [hs] at hreported
    exact ⟨hkept.1, ⟨found, hfound, hkept.2⟩, hreported⟩

/-- **Chain validation returns exactly if it can cut the ids it reports**, and a result holds what
was found at each token. -/
theorem chain_reports (C : FaitfCrates) (ca : CapabilityVerificationAuthority)
    (tokens : List SignedCapabilityToken) :
    ((∃ result, validate_chain C ca tokens = some result) ↔
        Cuttable C ca (tokens.map SignedCapabilityToken.jti) none [] tokens) ∧
      ∀ result, validate_chain C ca tokens = some result →
        (result.valid = true ↔ result.violations = []) ∧
        (tokens = [] → result.violations = [.empty_chain]) ∧
        ∀ root, tokens.head? = some root → Reported C ca (tokens.map SignedCapabilityToken.jti)
          root.sid result.violations 0 none [] tokens := by
  cases tokens with
  | nil =>
    refine ⟨iff_of_true ⟨_, rfl⟩ trivial, fun result h => ?_⟩
    cases h
    exact ⟨by decide, fun _ => rfl, fun root hroot => by cases hroot⟩
  | cons root rest =>
    simp only [validate_chain, bind_eq_bind, bind_eq_some_iff, Option.some.injEq]
    constructor
    · constructor
      · rintro ⟨_, st, hloop, -⟩
        exact (chain_loop_returns rfl).mp ⟨st, hloop⟩
      · intro hcut
        obtain ⟨st, hloop⟩ : ∃ st, chain_loop C ca _ root.sid 0 none (root :: rest)
            ⟨[], [], root.actions.dedup, root.max_action_class⟩ = some st :=
          (chain_loop_returns rfl).mpr hcut
        exact ⟨_, st, hloop, rfl⟩
    · rintro _ ⟨st, hloop, rfl⟩
      refine ⟨isEmpty_iff, nofun, fun _ hroot => ?_⟩
      cases hroot
      exact (chain_loop_reports hloop).2

/-- **An id can stop the validation.** A token whose id has a character of two bytes across its
eighth byte is named in no report: the chain of two of them panics, whoever signed them. -/
theorem hostile_jti_panics : let jti := ascii "aaaaaaa" ++ [0xc3, 0xa9]
    let token := { sampleToken 97 0 [] with claims := [("jti", .str jti)] }
    ∀ (C : FaitfCrates) (ca : CapabilityVerificationAuthority),
      validate_chain C ca [token, token] = none := by
  intro jti token C ca
  cases h : validate_chain C ca [token, token] with
  | none => rfl
  | some result =>
    -- the second token is found to be the first one again, and its id is cut for the report
    simp only [validate_chain, chain_loop, token_violations, ChainState.narrow, bind_eq_bind,
      bind_eq_some_iff] at h
    obtain ⟨_, ⟨_, _, _, ⟨_, _, _, hcircular, _⟩, _⟩, _⟩ := h
    have hcut : head8 token.jti = none := by decide
    rw [circular_violations, if_pos mem_cons_self, hcut] at hcircular
    cases hcircular

end DelegationChainValidator

end Saacp
