/-
**Replay-resistant bound capabilities**: `RRBCGateway`, its three tables and the critical sections
in which they are read and changed.

A redemption takes three locks one after the other: the revoked ids, the replay registry, the use
counters. The clock is read for the validity of the token and inside the section of the replay
registry; every section here gets the reading it would see. The counters are filled by `issue_token`
only; a token that was issued elsewhere has none, and is let through. Nothing is undone.

A lock that was held by a thread that panicked panics whoever takes it next. This happens when the
uses of a token that was issued elsewhere with the smallest `i64` are counted.
-/
import Mathlib.Data.Finset.Insert
import Saacp.GatewaySpecs
import Saacp.Execution

set_option autoImplicit false

open ByteCodec Atomic

namespace Saacp

def RRBC_REPLAY_REGISTRY_MAX : ℕ := 500000

inductive Fault
  | drop (d : SAACPHardDrop)
  | panic

def refused_with {α : Type} : Except Fault α → Option SAACPBytecodes
  | .error (.drop d) => some d.bytecode
  | _ => none

structure RRBCRedemptionResult where
  jti : Text
  issuer_agent : Text
  allowed_agents : List Text
  forbidden_agents : List Text
  actions : List Text
  audience : List Text
  sid : Text
  cid : Text
  oaid : Text
  remaining_uses : ℤ
  max_action_class : UInt8

structure RRBCTokenRecord where
  remaining : ℤ

abbrev ReplayKey := Text × Text × Text

/-- `RRBCGateway`. A spent key is kept with the expiry of its token. -/
structure RRBCGateway where
  replay_registry : Table ReplayKey ℚ
  tokens : Table Text RRBCTokenRecord
  revoked_jtis : Finset Text
  tokens_poisoned : Bool
  revoked_poisoned : Bool

namespace RRBCGateway

def new : RRBCGateway := ⟨.empty, .empty, ∅, false, false⟩

/-! ## Critical sections -/

variable (g : RRBCGateway)

def is_jti_revoked (jti : Text) : Except Fault Bool :=
  if g.revoked_poisoned then .error .panic else .ok (jti ∈ g.revoked_jtis)

/-- The registry that a redemption finds: it is pruned when it is half full. -/
def pruned_registry (now : ℚ) : Table ReplayKey ℚ :=
  if RRBC_REPLAY_REGISTRY_MAX / 2 ≤ g.replay_registry.len then
    g.replay_registry.retain fun _ token_exp => now < token_exp
  else g.replay_registry

def consume (key : ReplayKey) (exp now : ℚ) : RRBCGateway × Except Fault Unit :=
  let registry := g.pruned_registry now
  if RRBC_REPLAY_REGISTRY_MAX ≤ registry.len then
    ({ g with replay_registry := registry }, .error (.drop ⟨.CircuitBreakerOpen,
      "RRBC: Replay registry at capacity — rejecting to prevent OOM."⟩))
  else if registry.contains key then
    ({ g with replay_registry := registry }, .error (.drop ⟨.RrbcReplayDetected,
      "RRBC: Replay detected — (jti, rnonce, sid) already consumed."⟩))
  else ({ g with replay_registry := registry.insert key exp }, .ok ())

def use (jti : Text) (max_use : ℤ) : RRBCGateway × Except Fault ℤ :=
  if g.tokens_poisoned then (g, .error .panic)
  else
    match g.tokens.get jti with
    | some rec =>
      if rec.remaining ≤ 0 then
        (g, .error (.drop ⟨.RrbcUsageExhausted, "RRBC: Token usage limit exhausted."⟩))
      else
        ({ g with tokens := g.tokens.insert jti ⟨rec.remaining - 1⟩ }, .ok (rec.remaining - 1))
    | none =>
      -- overflow checks are on in every profile, and the guard is held
      if max_use = -2 ^ 63 then ({ g with tokens_poisoned := true }, .error .panic)
      else (g, .ok (max_use - 1))

def register (jti : Text) (max_use : ℤ) : RRBCGateway × Except Fault Unit :=
  if g.tokens_poisoned then (g, .error .panic)
  else ({ g with tokens := g.tokens.insert jti ⟨max_use⟩ }, .ok ())

/-- `revoke_token`. The first lock is held while the second is taken, so this is one section. -/
def revoke_token (jti : Text) : RRBCGateway × Except Fault Unit :=
  if g.revoked_poisoned then (g, .error .panic)
  else if g.tokens_poisoned then ({ g with revoked_poisoned := true }, .error .panic)
  else
    ({ g with
       revoked_jtis := insert jti g.revoked_jtis
       tokens := g.tokens.modify jti fun _ => ⟨0⟩ }, .ok ())

def prune_expired_replay_entries (now : ℚ) : RRBCGateway × ℕ :=
  let registry := g.replay_registry.retain fun _ token_exp => now < token_exp
  ({ g with replay_registry := registry }, g.replay_registry.len - registry.len)

def clear_replay_registry : RRBCGateway × ℕ :=
  ({ g with replay_registry := .empty }, g.replay_registry.len)

def get_remaining_uses (jti : Text) : Option ℤ :=
  (g.tokens.get jti).map RRBCTokenRecord.remaining

end RRBCGateway

inductive RrbcSection : Type → Type
  | now : RrbcSection ℚ
  | is_jti_revoked (jti : Text) : RrbcSection (Except Fault Bool)
  | consume (key : ReplayKey) (exp : ℚ) : RrbcSection (Except Fault Unit)
  | use (jti : Text) (max_use : ℤ) : RrbcSection (Except Fault ℤ)
  | register (jti : Text) (max_use : ℤ) : RrbcSection (Except Fault Unit)
  | revoke (jti : Text) : RrbcSection (Except Fault Unit)
  | prune : RrbcSection ℕ
  | clear : RrbcSection ℕ

def RRBCGateway.exec (g : RRBCGateway) (now : ℚ) {γ : Type} : RrbcSection γ → RRBCGateway × γ
  | .now => (g, now)
  | .is_jti_revoked jti => (g, g.is_jti_revoked jti)
  | .consume key exp => g.consume key exp now
  | .use jti max_use => g.use jti max_use
  | .register jti max_use => g.register jti max_use
  | .revoke jti => g.revoke_token jti
  | .prune => g.prune_expired_replay_entries now
  | .clear => g.clear_replay_registry

def rrbc_sections : Semantics RrbcSection ℚ RRBCGateway where
  exec _ _ act now g := g.exec now act

/-! ## The checks of a redemption -/

def rrbc_claims (H : Hashes) (X : Crates) (token_b64 issuer_secret : List UInt8) :
    Result Json :=
  match parse_token_wire X token_b64 with
  | .error _ =>
    .error ⟨.LateralMovementBlocked, "RRBC: Missing or malformed capability token."⟩
  | .ok (token_json, signature) =>
    if hmac_sha256 H issuer_secret token_json ≠ signature then
      .error ⟨.InvalidSignature, "RRBC: Capability token signature verification failed."⟩
    else
      match X.json_from_slice token_json with
      | none => .error ⟨.LateralMovementBlocked, "RRBC: Malformed token payload."⟩
      | some (.obj fields) => .ok (.obj fields)
      | some _ => .error ⟨.LateralMovementBlocked, "RRBC: Token payload must be a JSON object."⟩

def claim_text (data : Json) (key : String) : Text := (claim_str data key).getD []

def claim_secs (data : Json) (key : String) : ℚ := ((data.get key).bind Json.as_rat).getD 0

def claim_max_use (data : Json) : ℤ :=
  match data.get "max_use" with
  | some (.pos_int n) => if n.toNat < 2 ^ 63 then n.toNat else 1
  | some (.neg_int n) => n.toInt
  | _ => 1

def check_validity (now : ℚ) (data : Json) : Result Unit :=
  if now < claim_secs data "nbf" then
    .error ⟨.TokenExpired, "RRBC: Token not yet valid (nbf constraint)."⟩
  else if claim_secs data "exp" < now then
    .error ⟨.TokenExpired, "RRBC: Capability token has expired."⟩
  else .ok ()

def check_binding (data : Json) (sid cid oaid : Text) : Result Unit :=
  if sid ≠ claim_text data "sid" ∨ cid ≠ claim_text data "cid" ∨ oaid ≠ claim_text data "oaid" then
    .error ⟨.RrbcBindingMismatch, "RRBC: Token binding mismatch (sid/cid/oaid)."⟩
  else .ok ()

def check_audience (data : Json) (presenting_agent : Text) : Result Unit :=
  if (claim_agents data "aud").contains presenting_agent = false then
    .error ⟨.ScopeViolation, "RRBC: Agent '" ++ display presenting_agent ++
      "' not in token audience."⟩
  else .ok ()

/-- The proof of possession: required if and only if the token carries a key for it. -/
def check_pop (X : Crates) (data : Json) (rnonce : Text) (pop_proof : Option (List UInt8)) :
    Result Unit :=
  match claim_str data "pop_key" with
  | some pop_key_b64 =>
    match X.base64_decode pop_key_b64 with
    | none => .error ⟨.RrbcPopFailed, "RRBC PoP: invalid pop_key encoding in token."⟩
    | some pop_key =>
      match pop_proof with
      | none => .error ⟨.RrbcPopFailed,
          "RRBC PoP: token requires proof-of-possession but none was supplied."⟩
      | some proof =>
        match ZeroTrustGateway.verify_ed25519_signature_inner X rnonce proof pop_key with
        | .error _ => .error ⟨.RrbcPopFailed,
            "RRBC PoP: Ed25519 proof-of-possession verification failed."⟩
        | .ok () => .ok ()
  | none =>
    if pop_proof.isSome then
      .error ⟨.RrbcPopFailed,
        "RRBC PoP: proof-of-possession supplied but token does not require it."⟩
    else .ok ()

def rrbc_action_class (data : Json) : Result UInt8 :=
  if 255 < (claim_u64 data "max_action_class").toNat then
    .error ⟨.ActionClassEscalation, "RRBC: max_action_class value " ++
      toString (claim_u64 data "max_action_class").toNat ++
      " exceeds valid range 0-255 (rejected, not truncated)."⟩
  else .ok (claim_u64 data "max_action_class").toUInt8

def finish_redemption (X : Crates) (data : Json) (rnonce : Text) (pop_proof : Option (List UInt8))
    (remaining : ℤ) : Result RRBCRedemptionResult := do
  check_pop X data rnonce pop_proof
  let max_action_class ← rrbc_action_class data
  return { jti := claim_text data "jti"
           issuer_agent := claim_text data "iss"
           allowed_agents := claim_agents data "allow"
           forbidden_agents := claim_agents data "forbid"
           actions := claim_agents data "actions"
           audience := claim_agents data "aud"
           sid := claim_text data "sid"
           cid := claim_text data "cid"
           oaid := claim_text data "oaid"
           remaining_uses := remaining
           max_action_class }

/-! ## The calls -/

def orDrop {α : Type} (x : Result α) : Prog RrbcSection (Except Fault α) :=
  .ret (x.mapError .drop)

def performed {α : Type} (act : RrbcSection (Except Fault α)) : Prog RrbcSection (Except Fault α) :=
  .step act .ret

structure Presentation where
  token_b64 : List UInt8
  rnonce : Text
  presenting_agent : Text
  presenting_sid : Text
  presenting_cid : Text
  presenting_oaid : Text
  issuer_secret : List UInt8
  pop_proof : Option (List UInt8)

def Presentation.check (p : Presentation) (data : Json) (now : ℚ) : Result Unit := do
  check_validity now data
  check_binding data p.presenting_sid p.presenting_cid p.presenting_oaid
  check_audience data p.presenting_agent

/-- The revocation check, the first reading of the clock, and the checks of the claims. -/
def check_claims (data : Json) (p : Presentation) : Prog RrbcSection (Except Fault Unit) :=
  (performed (.is_jti_revoked (claim_text data "jti"))).andThen fun revoked =>
    if revoked then
      orDrop (.error ⟨.LateralMovementBlocked, "RRBC: Token has been revoked."⟩)
    else
      .step .now fun now => orDrop (p.check data now)

def Presentation.replay_key (p : Presentation) (data : Json) : ReplayKey :=
  (claim_text data "jti", p.rnonce, p.presenting_sid)

def redeem_token_with_pop (H : Hashes) (X : Crates) (p : Presentation) :
    Prog RrbcSection (Except Fault RRBCRedemptionResult) :=
  (orDrop (rrbc_claims H X p.token_b64 p.issuer_secret)).andThen fun data =>
    (check_claims data p).andThen fun _ =>
      (performed (.consume (p.replay_key data) (claim_secs data "exp"))).andThen fun _ =>
        (performed (.use (claim_text data "jti") (claim_max_use data))).andThen fun remaining =>
          orDrop (finish_redemption X data p.rnonce p.pop_proof remaining)

def redeem_token (H : Hashes) (X : Crates) (p : Presentation) :
    Prog RrbcSection (Except Fault RRBCRedemptionResult) :=
  redeem_token_with_pop H X { p with pop_proof := none }

structure RrbcGrant where
  issuer_agent : Text
  allowed_agents : List Text
  forbidden_agents : List Text
  actions : List Text
  audience : List Text
  sid : Text
  cid : Text
  oaid : Text
  max_use : Int64
  ttl_seconds : UInt64
  max_action_class : UInt8
  pop_verifying_key : Option (List UInt8)

def RrbcGrant.claims (g : RrbcGrant) (base64_encode : List UInt8 → Text) (jti : Text)
    (iat exp : UInt64) : Json :=
  let strings (items : List Text) : Json := .arr (items.map .str)
  .obj ([("actions", strings g.actions), ("allow", strings g.allowed_agents),
      ("aud", strings g.audience), ("cid", .str g.cid), ("exp", .pos_int exp),
      ("forbid", strings g.forbidden_agents), ("iat", .pos_int iat), ("iss", .str g.issuer_agent),
      ("jti", .str jti), ("max_action_class", .pos_int g.max_action_class.toUInt64),
      ("max_use", if 0 ≤ g.max_use then .pos_int g.max_use.toUInt64 else .neg_int g.max_use),
      ("nbf", .pos_int iat), ("oaid", .str g.oaid)] ++
    (g.pop_verifying_key.map fun key => ("pop_key", Json.str (base64_encode key))).toList ++
    [("sid", .str g.sid)])

def issue_token (H : Hashes) (X : Crates) (base64_encode : List UInt8 → Text) (jti : Text)
    (issuer_secret : List UInt8) (g : RrbcGrant) : Prog RrbcSection (Except Fault Text) :=
  .step .now fun now =>
    let iat := min now.floor.toNat (2 ^ 64 - 1)
    if 2 ^ 64 ≤ iat + g.ttl_seconds.toNat then .ret (.error .panic)
    else
      let token_json := X.json_to_string
        (g.claims base64_encode jti (.ofNat iat) (.ofNat (iat + g.ttl_seconds.toNat)))
      (performed (.register jti g.max_use.toInt)).andThen fun _ =>
        .ret (.ok (base64_encode (toBE 4 (min token_json.length (2 ^ 32 - 1)) ++ token_json ++
          hmac_sha256 H issuer_secret token_json)))

/-! ## A redemption on its own -/

section Alone

variable {H : Hashes} {X : Crates} {p : Presentation} {data : Json} {g : RRBCGateway}
  {inp : ℕ → ℚ}

/-- The checks of a redemption that come before the registry. -/
def Presentation.passes (p : Presentation) (data : Json) (g : RRBCGateway) (now : ℚ) : Bool :=
  !g.revoked_poisoned && claim_text data "jti" ∉ g.revoked_jtis &&
    (p.check data now).isOk

/-- The token is verified and passes, and the registry has room for its nonce and not the nonce. -/
def Presentation.admitted (H : Hashes) (X : Crates) (p : Presentation) (g : RRBCGateway) (now : ℚ) :
    Bool :=
  match rrbc_claims H X p.token_b64 p.issuer_secret with
  | .error _ => false
  | .ok data => p.passes data g now && g.replay_registry.len < RRBC_REPLAY_REGISTRY_MAX &&
      !g.replay_registry.contains (p.replay_key data)

theorem run_orDrop {α : Type} (x : Result α) (inp : ℕ → ℚ) (g : RRBCGateway) :
    (orDrop x).run rrbc_sections inp g = (inp, g, x.mapError .drop) := rfl

theorem run_performed {α : Type} (act : RrbcSection (Except Fault α)) (inp : ℕ → ℚ)
    (g : RRBCGateway) :
    (performed act).run rrbc_sections inp g =
      (fun n => inp (n + 1), (g.exec (inp 0) act).1, (g.exec (inp 0) act).2) := rfl

theorem run_check_claims (data : Json) (p : Presentation) (inp : ℕ → ℚ) (g : RRBCGateway) :
    p.passes data g (inp 1) = true ∧
        (check_claims data p).run rrbc_sections inp g = (fun n => inp (n + 2), g, .ok ()) ∨
      p.passes data g (inp 1) = false ∧
        ∃ inp' err, (check_claims data p).run rrbc_sections inp g = (inp', g, .error err) := by
  rw [check_claims, Prog.run_andThen, run_performed]
  simp only [RRBCGateway.exec, RRBCGateway.is_jti_revoked, Presentation.passes]
  by_cases hpoisoned : g.revoked_poisoned = true
  · simp [hpoisoned]
  by_cases hrevoked : claim_text data "jti" ∈ g.revoked_jtis
  · simp [hpoisoned, hrevoked, run_orDrop, Except.mapError]
  simp only [hpoisoned, hrevoked, decide_false, Bool.false_eq_true, if_false]
  have hclock : (Prog.step RrbcSection.now fun now => orDrop (p.check data now)).run rrbc_sections
      (fun n => inp (n + 1)) g = (fun n => inp (n + 2), g, (p.check data (inp 1)).mapError .drop) :=
    rfl
  rw [hclock]
  cases p.check data (inp 1) with
  | error d => exact .inr ⟨rfl, _, .drop d, rfl⟩
  | ok u => exact .inl ⟨rfl, rfl⟩

/-- **The two ways of the registry section**: the nonce is refused, or it is new and spent. -/
theorem consume_cases (g : RRBCGateway) (key : ReplayKey) (exp now : ℚ) :
    (∃ d, g.consume key exp now =
        ({ g with replay_registry := g.pruned_registry now }, .error (.drop d))) ∨
      (g.pruned_registry now).contains key = false ∧ g.consume key exp now =
          ({ g with replay_registry := (g.pruned_registry now).insert key exp }, .ok ()) := by
  simp only [RRBCGateway.consume]
  split_ifs with hfull hspent
  · exact .inl ⟨_, rfl⟩
  · exact .inl ⟨_, rfl⟩
  · exact .inr ⟨Bool.not_eq_true _ ▸ hspent, rfl⟩

theorem use_cases (g : RRBCGateway) (jti : Text) (max_use : ℤ) : (∃ poisoned, g.use jti max_use =
        ({ g with tokens_poisoned := poisoned }, .error .panic)) ∨
      (g.use jti max_use =
        (g, .error (.drop ⟨.RrbcUsageExhausted, "RRBC: Token usage limit exhausted."⟩))) ∨
      (∃ rec, g.tokens.get jti = some rec ∧ 0 < rec.remaining ∧ g.use jti max_use =
          ({ g with tokens := g.tokens.insert jti ⟨rec.remaining - 1⟩ }, .ok (rec.remaining - 1))) ∨
      g.tokens.get jti = none ∧ g.use jti max_use = (g, .ok (max_use - 1)) := by
  unfold RRBCGateway.use
  by_cases hpoisoned : g.tokens_poisoned = true
  · rw [if_pos hpoisoned]
    exact .inl ⟨g.tokens_poisoned, rfl⟩
  rw [if_neg hpoisoned]
  cases hget : g.tokens.get jti with
  | some rec =>
    simp only
    split_ifs with hempty
    · exact .inr (.inl rfl)
    · exact .inr (.inr (.inl ⟨rec, rfl, not_le.mp hempty, rfl⟩))
  | none =>
    simp only
    split_ifs with hmin
    · exact .inl ⟨true, rfl⟩
    · exact .inr (.inr (.inr ⟨trivial, rfl⟩))

theorem use_registry (g : RRBCGateway) (jti : Text) (max_use : ℤ) :
    (g.use jti max_use).1.replay_registry = g.replay_registry := by
  obtain ⟨poisoned, huse⟩ | huse | ⟨rec, -, -, huse⟩ | ⟨-, huse⟩ := use_cases g jti max_use <;>
    rw [huse]

end Alone

/-! ## A thief with the token

The samples stand in for Ed25519 with two copies of an HMAC under the public key. -/

def sampleRrbcClaims : Json :=
  .obj [("aud", .arr [.str (ascii "svc")]), ("exp", .pos_int 2000), ("jti", .str (ascii "t1")),
    ("max_use", .pos_int 1), ("sid", .str (ascii "s1"))]

def samplePopClaims : Json :=
  .obj [("aud", .arr [.str (ascii "svc")]), ("exp", .pos_int 2000), ("jti", .str (ascii "t1")),
    ("max_use", .pos_int 1),
    ("pop_key", .str (ascii "CQkJCQkJCQkJCQkJCQkJCQkJCQkJCQkJCQkJCQkJCQk=")),
    ("sid", .str (ascii "s1"))]

def sampleRrbcToken : Text :=
  ascii ("AAAAPHsiYXVkIjpbInN2YyJdLCJleHAiOjIwMDAsImp0aSI6InQxIiwibWF4X3VzZSI6MSwic2lkIjoiczEi" ++
    "fW1d1EcAH0LOXbc5n7Uepig+j+ToQKrp8cgQAKH1fb8R")

def samplePopToken : Text :=
  ascii ("AAAAdXsiYXVkIjpbInN2YyJdLCJleHAiOjIwMDAsImp0aSI6InQxIiwibWF4X3VzZSI6MSwicG9wX2tleSI6" ++
    "IkNRa0pDUWtKQ1FrSkNRa0pDUWtKQ1FrSkNRa0pDUWtKQ1FrSkNRa0pDUWs9Iiwic2lkIjoiczEifVPQ++u/sUdK" ++
    "GNf6y3sB1SuuDgmwEBNtvo2CaAmQq656")

def sampleRrbcCrates : Crates :=
  { sampleCrates with
    json_from_slice := fun text =>
      [sampleRrbcClaims, samplePopClaims].find? fun j => j.compact (fun _ => []) = text
    ed25519_key_ok := fun key => key.length = 32
    ed25519_verify := fun key msg signature =>
      signature = Sha256.hmacSha256 key msg ++ Sha256.hmacSha256 key msg }

def samplePresentation (token_b64 : Text) (presenting_agent rnonce : Text)
    (pop_proof : Option (List UInt8)) : Presentation where
  token_b64 := token_b64
  rnonce := rnonce
  presenting_agent := presenting_agent
  presenting_sid := ascii "s1"
  presenting_cid := []
  presenting_oaid := []
  issuer_secret := List.replicate 32 7
  pop_proof := pop_proof

def sampleIssuer : RRBCGateway := (RRBCGateway.new.register (ascii "t1") 1).1

def sampleRedemption (g : RRBCGateway) (p : Presentation) :
    RRBCGateway × Except Fault RRBCRedemptionResult :=
  ((redeem_token_with_pop sampleHashes sampleRrbcCrates p).run rrbc_sections (fun _ => 1000) g).2

def sampleStranger : Presentation :=
  samplePresentation sampleRrbcToken (ascii "other") (ascii "n1") none

end Saacp
