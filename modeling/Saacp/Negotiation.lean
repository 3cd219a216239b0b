/-
**Signed transcripts of a negotiation**: which suites two peers offered, and what was chosen.

The signature is over a hash that the transcript carries. Under it stands the transcript whose
fields were hashed, which is this one only if the hash is that of its fields, and if the encoding
of the fields can be taken apart again.
-/
import Saacp.Hashes
import Mathlib.Data.List.Infix

set_option autoImplicit false

open ByteCodec

namespace Saacp

open List

inductive SecurityTier
  | PqcRequired
  | PqcPreferred
  | ClassicalLegacy
  deriving DecidableEq

def SecurityTier.as_str : SecurityTier → Text
  | PqcRequired => ascii "PQC-REQUIRED"
  | PqcPreferred => ascii "PQC-PREFERRED"
  | ClassicalLegacy => ascii "CLASSICAL-LEGACY"

def DOWNGRADE_SENTINEL_PQC_CAPABLE : List UInt8 := ascii "SAACP-PQC-CAPABLE-v2"
def DOWNGRADE_SENTINEL_CLASSICAL_ONLY : List UInt8 := ascii "SAACP-CLASSICAL-ONLY-v2"

/-- Whether a peer that could do more has ended up with a classical suite. -/
def downgraded (peer_advertised_pqc : Bool) (selected_suite : Text) : Bool :=
  let is_hybrid := containsSub (ascii "hybrid") selected_suite ||
    containsSub (ascii "ml-dsa") selected_suite || containsSub (ascii "ml-kem") selected_suite
  peer_advertised_pqc && !is_hybrid

def sentinel (downgraded : Bool) : List UInt8 :=
  if downgraded then DOWNGRADE_SENTINEL_PQC_CAPABLE else DOWNGRADE_SENTINEL_CLASSICAL_ONLY

def compute_downgrade_sentinel (peer_advertised_pqc : Bool) (selected_suite : Text) : List UInt8 :=
  sentinel (downgraded peer_advertised_pqc selected_suite)

structure NegotiationTranscript where
  peer_a_suites : List Text
  peer_b_suites : List Text
  selected_suite : Text
  protocol_version : Text
  session_id : List UInt8
  transcript_hash : List UInt8
  security_tier : Text
  downgrade_sentinel : List UInt8
  deriving DecidableEq

def encode_length_prefixed (items : List Text) : List UInt8 :=
  items.flatMap fun item => toBE 4 (min item.length (2 ^ 32 - 1)) ++ item

/-- The arguments of `NegotiationTranscript::new`. -/
structure Negotiation where
  peer_a_suites : List Text
  peer_b_suites : List Text
  selected_suite : Text
  protocol_version : Text
  session_id : List UInt8
  security_tier : SecurityTier
  peer_advertised_pqc : Bool

namespace Negotiation

def suffix (tier : SecurityTier) (downgraded : Bool) : List UInt8 :=
  ascii "|T|" ++ tier.as_str ++ ascii "|D|" ++ sentinel downgraded

def canonical (n : Negotiation) : List UInt8 :=
  ascii "|A|" ++ (encode_length_prefixed n.peer_a_suites ++ (ascii "|B|" ++
    (encode_length_prefixed n.peer_b_suites ++ (ascii "|S|" ++ (n.selected_suite ++ (ascii "|V|" ++
      (n.protocol_version ++ (ascii "|ID|" ++ (n.session_id ++
        suffix n.security_tier (downgraded n.peer_advertised_pqc n.selected_suite))))))))))

/-- No bar in the fields that bars separate, and no length that begins with one. -/
structure Plain (n : Negotiation) : Prop where
  items : ∀ item ∈ n.peer_a_suites ++ n.peer_b_suites, item.length < 0x7c000000
  suite : 124 ∉ n.selected_suite
  version : 124 ∉ n.protocol_version

end Negotiation

def NegotiationTranscript.new (H : Hashes) (n : Negotiation) : NegotiationTranscript where
  peer_a_suites := n.peer_a_suites
  peer_b_suites := n.peer_b_suites
  selected_suite := n.selected_suite
  protocol_version := n.protocol_version
  session_id := n.session_id
  transcript_hash := H.sha256 n.canonical
  security_tier := n.security_tier.as_str
  downgrade_sentinel := compute_downgrade_sentinel n.peer_advertised_pqc n.selected_suite

/-! ## Signing -/

structure HybridKeypair where
  ed25519_public : List UInt8
  ml_dsa_public : List UInt8
  ed25519_length : ed25519_public.length = 32
  ml_dsa_length : ml_dsa_public.length = 1952

structure HybridSuite where
  /-- `sign_hybrid` and `to_bytes`, where it does not fail. -/
  sign_hybrid : HybridKeypair → List UInt8 → List UInt8
  /-- `from_bytes` and `verify_hybrid`, under the two public keys. -/
  verify_hybrid (ed25519_public ml_dsa_public msg signature : List UInt8) : Bool

structure SignedNegotiationTranscript where
  transcript : NegotiationTranscript
  signature : List UInt8
  signer_public_key : List UInt8

def HybridKeypair.signer_public_key (k : HybridKeypair) : List UInt8 :=
  toBE 4 k.ed25519_public.length ++ k.ed25519_public ++ toBE 4 k.ml_dsa_public.length ++
    k.ml_dsa_public

namespace SignedNegotiationTranscript

def sign (S : HybridSuite) (transcript : NegotiationTranscript) (signer_keypair : HybridKeypair) :
    SignedNegotiationTranscript where
  transcript := transcript
  signature := S.sign_hybrid signer_keypair transcript.transcript_hash
  signer_public_key := signer_keypair.signer_public_key

/-- The fields of the transcript other than its hash are not looked at. -/
def verify (S : HybridSuite) (x : SignedNegotiationTranscript) : Bool :=
  let pk_bytes := x.signer_public_key
  if pk_bytes.length < 8 then false
  else
    let ed25519_len := ofBE (pk_bytes.take 4)
    if ed25519_len ≠ 32 ∨ pk_bytes.length < 4 + ed25519_len + 4 then false
    else
      let ml_dsa_offset := 4 + ed25519_len
      let ml_dsa_len := ofBE (slice pk_bytes ml_dsa_offset (ml_dsa_offset + 4))
      if pk_bytes.length < ml_dsa_offset + 4 + ml_dsa_len then false
      else S.verify_hybrid (slice pk_bytes 4 (4 + ed25519_len))
        (slice pk_bytes (ml_dsa_offset + 4) (ml_dsa_offset + 4 + ml_dsa_len))
        x.transcript.transcript_hash x.signature

theorem verify_of_key {S : HybridSuite} {x : SignedNegotiationTranscript} {k : HybridKeypair}
    (h : x.signer_public_key = k.signer_public_key) :
    x.verify S = S.verify_hybrid k.ed25519_public k.ml_dsa_public x.transcript.transcript_hash
      x.signature := by
  have hed : k.ed25519_public.length < 256 ^ 4 := by rw [k.ed25519_length]; decide
  have hparts := framed_parts hed (toBE 4 k.ml_dsa_public.length) k.ml_dsa_public
  dsimp only at hparts
  rw [HybridKeypair.signer_public_key] at h
  rw [← h, length_toBE, k.ed25519_length, k.ml_dsa_length] at hparts
  obtain ⟨hlen, hraw, hkey, htail, hrest⟩ := hparts
  have hpqc : slice x.signer_public_key (4 + 32 + 4) (4 + 32 + 4 + 1952) = k.ml_dsa_public := by
    rw [slice, take_of_length_le hraw.le, hrest]
  have hpqc_len : ofBE (toBE 4 1952) = 1952 := rfl
  simp only [verify, hlen, hraw, hkey, htail, hpqc, hpqc_len]
  rfl

end SignedNegotiationTranscript

/-! ## Taking the encoding apart -/

namespace Negotiation

/-- A length is not taken for a bar. -/
theorem bar_ne_length {n : ℕ} (h : n < 0x7c000000) (l l' : List UInt8) :
    124 :: l ≠ toBE 4 n ++ l' := by
  intro heq
  have hbyte : (124 : UInt8) = UInt8.ofNat (n / 256 / 256 / 256) := (cons.inj heq).1
  have hnat : 124 = n / 256 / 256 / 256 % 256 := congrArg UInt8.toNat hbyte
  omega

theorem encode_inj {items items' : List Text} {rest rest' : List UInt8}
    (h : ∀ item ∈ items, item.length < 0x7c000000) (h' : ∀ item ∈ items', item.length < 0x7c000000)
    (heq : encode_length_prefixed items ++ 124 :: rest =
      encode_length_prefixed items' ++ 124 :: rest') : items = items' ∧ rest = rest' := by
  have hcons : ∀ (item : Text) (items : List Text) (l : List UInt8),
      encode_length_prefixed (item :: items) ++ l =
        toBE 4 (min item.length (2 ^ 32 - 1)) ++ (item ++ (encode_length_prefixed items ++ l)) := by
    intro item items l
    rw [encode_length_prefixed, flatMap_cons, append_assoc, append_assoc]
    rfl
  induction items generalizing items' with
  | nil =>
    cases items' with
    | nil => exact ⟨rfl, (cons.inj heq).2⟩
    | cons item' items' =>
      have hitem' := h' item' mem_cons_self
      rw [hcons] at heq
      exact absurd heq (bar_ne_length (by omega) _ _)
  | cons item items ih =>
    have hitem := h item mem_cons_self
    rw [hcons] at heq
    cases items' with
    | nil => exact absurd heq.symm (bar_ne_length (by omega) _ _)
    | cons item' items' =>
      have hitem' := h' item' mem_cons_self
      rw [hcons] at heq
      obtain ⟨hlen, hitems⟩ := append_inj heq (by rw [length_toBE, length_toBE])
      have hlength : item.length = item'.length := by
        have hofBE := congrArg ofBE hlen
        rw [ofBE_toBE_of_lt (by omega), ofBE_toBE_of_lt (by omega)] at hofBE
        omega
      obtain ⟨rfl, hrest⟩ := append_inj hitems hlength
      obtain ⟨rfl, rfl⟩ := ih (fun x hx => h x (mem_cons_of_mem _ hx))
        (fun x hx => h' x (mem_cons_of_mem _ hx)) hrest
      exact ⟨rfl, rfl⟩

theorem bar_inj {u u' rest rest' : List UInt8} (h : 124 ∉ u) (h' : 124 ∉ u')
    (heq : u ++ 124 :: rest = u' ++ 124 :: rest') : u = u' ∧ rest = rest' := by
  have hlen : u.length = u'.length := by
    have hidx := congrArg (idxOf 124) heq
    rwa [idxOf_append_of_notMem h, idxOf_append_of_notMem h', idxOf_cons_self, idxOf_cons_self]
      at hidx
  obtain ⟨rfl, hrest⟩ := append_inj heq hlen
  exact ⟨rfl, (cons.inj hrest).2⟩

theorem suffix_inj : ∀ (tier tier' : SecurityTier) (d d' : Bool),
    suffix tier d <:+ suffix tier' d' → tier = tier' ∧ d = d' := by
  rintro (_ | _ | _) (_ | _ | _) (_ | _) (_ | _) <;> decide +kernel

/-- **The encoding is unambiguous** where the parts that are not measured have no bars. -/
theorem canonical_inj {n n' : Negotiation} (h : n.Plain) (h' : n'.Plain)
    (heq : n.canonical = n'.canonical) (H : Hashes) :
    NegotiationTranscript.new H n = NegotiationTranscript.new H n' := by
  obtain ⟨a, b, suite, version, sid, tier, pqc⟩ := n
  obtain ⟨a', b', suite', version', sid', tier', pqc'⟩ := n'
  obtain ⟨hitems, hsuite, hversion⟩ := h
  obtain ⟨hitems', hsuite', hversion'⟩ := h'
  simp only [mem_append] at hitems hitems'
  unfold NegotiationTranscript.new
  rw [heq]
  obtain ⟨rfl, heq⟩ := encode_inj (fun x hx => hitems x (.inl hx)) (fun x hx => hitems' x (.inl hx))
    (@append_cancel_left _ (ascii "|A|") _ _ heq)
  obtain ⟨rfl, heq⟩ := encode_inj (fun x hx => hitems x (.inr hx)) (fun x hx => hitems' x (.inr hx))
    (@append_cancel_left _ (ascii "B|") _ _ heq)
  obtain ⟨rfl, heq⟩ := bar_inj hsuite hsuite' (@append_cancel_left _ (ascii "S|") _ _ heq)
  obtain ⟨rfl, heq⟩ := bar_inj hversion hversion' (@append_cancel_left _ (ascii "V|") _ _ heq)
  have heq := @append_cancel_left _ (ascii "ID|") _ _ heq
  have hsuffix : tier = tier' ∧ downgraded pqc suite = downgraded pqc' suite := by
    obtain hs | hs := suffix_or_suffix_of_suffix (suffix_append sid _)
      (heq ▸ suffix_append sid' (suffix tier' (downgraded pqc' suite)))
    · exact suffix_inj _ _ _ _ hs
    · obtain ⟨htier, hd⟩ := suffix_inj _ _ _ _ hs
      exact ⟨htier.symm, hd.symm⟩
  obtain ⟨rfl, hd⟩ := hsuffix
  rw [hd] at heq
  rw [append_cancel_right heq, compute_downgrade_sentinel, compute_downgrade_sentinel, hd]

end Negotiation

open NegotiationTranscript in
/-- Unforgeability: what verifies under the key of the signer is a hash that it has signed. -/
def Unforged (H : Hashes) (S : HybridSuite) (signer : HybridKeypair) (signed : List Negotiation) :
    Prop :=
  ∀ msg signature, S.verify_hybrid signer.ed25519_public signer.ml_dsa_public msg signature = true →
    ∃ n ∈ signed, msg = (new H n).transcript_hash

open NegotiationTranscript in
/-- **Which transcripts verify only if they were signed**, by a signer that signs what is `honest`:
those with the fields of all honest negotiations that have their hash. Where the fields that bars
separate have no bars, these are the transcripts that `new` makes of their fields. -/
theorem verified_transcript_signed (H : Hashes) (signer : HybridKeypair)
    (x : SignedNegotiationTranscript) (hkey : x.signer_public_key = signer.signer_public_key) :
    (∀ honest : Negotiation → Prop,
      (∀ S signed, Unforged H S signer signed → (∀ n ∈ signed, honest n) → x.verify S = true →
        ∃ n ∈ signed,
          x.transcript = { new H n with transcript_hash := x.transcript.transcript_hash }) ↔
      ∀ n, honest n → H.sha256 n.canonical = x.transcript.transcript_hash →
        x.transcript = new H n) ∧
    (Function.Injective H.sha256 → ∀ n₀ : Negotiation, n₀.Plain → x.transcript = new H n₀ →
      ∀ n : Negotiation, n.Plain → H.sha256 n.canonical = x.transcript.transcript_hash →
        x.transcript = new H n) := by
  refine ⟨fun honest => ⟨fun hsigned n hn hhash => ?_, fun hfields S signed hunforged hhonest
    hverify => ?_⟩, fun hinj n₀ hn₀ hx n hn hhash => ?_⟩
  · -- the signer has signed `n` alone, and its hash is all that verifies
    obtain ⟨n', hn', hx⟩ := hsigned ⟨fun _ _ => [], fun _ _ msg _ =>
      msg = x.transcript.transcript_hash⟩ [n]
      (fun msg _ hmsg => ⟨n, mem_singleton_self n, (of_decide_eq_true hmsg).trans hhash.symm⟩)
      (fun n' hn' => mem_singleton.mp hn' ▸ hn)
      (by rw [SignedNegotiationTranscript.verify_of_key hkey]; exact decide_eq_true rfl)
    rw [mem_singleton.mp hn', ← hhash] at hx
    exact hx
  · rw [SignedNegotiationTranscript.verify_of_key hkey] at hverify
    obtain ⟨n, hn, hhash⟩ := hunforged _ _ hverify
    have hx := hfields n (hhonest n hn) hhash.symm
    exact ⟨n, hn, by rw [hx]⟩
  · rw [hx] at hhash ⊢
    exact Negotiation.canonical_inj hn₀ hn (hinj hhash.symm) H

def sampleSigner : HybridKeypair := ⟨replicate 32 1, replicate 1952 2, rfl, by decide +kernel⟩

def sampleNegotiation (peer_a_suites : List Text) (selected_suite protocol_version : Text) :
    Negotiation :=
  ⟨peer_a_suites, [ascii "ed25519"], selected_suite, protocol_version, [7], .PqcPreferred, true⟩

def sampleOffer : Negotiation :=
  sampleNegotiation [ascii "ml-dsa-65", ascii "ed25519"] (ascii "ed25519") (ascii "2")

def sampleSuite : HybridSuite :=
  ⟨fun _ _ => [], fun _ _ msg _ => msg = sampleIdeal.sha256 sampleOffer.canonical⟩

theorem verified_transcript_signed_sample :
    let x := SignedNegotiationTranscript.sign sampleSuite (.new sampleIdeal sampleOffer)
      sampleSigner
    x.verify sampleSuite = true ∧ ∃ n ∈ [sampleOffer], x.transcript =
      { NegotiationTranscript.new sampleIdeal n with
        transcript_hash := x.transcript.transcript_hash } := by
  intro x
  have hplain : sampleOffer.Plain := ⟨by decide +kernel, by decide +kernel, by decide +kernel⟩
  have hverify : x.verify sampleSuite = true := by
    rw [SignedNegotiationTranscript.verify_of_key rfl]
    decide +kernel
  obtain ⟨hsigned, hfields⟩ := verified_transcript_signed sampleIdeal sampleSigner x rfl
  exact ⟨hverify, (hsigned Negotiation.Plain).mpr (hfields sampleIdeal_injective _ hplain rfl) _ _
    (fun _ _ h => ⟨_, mem_singleton_self _, of_decide_eq_true h⟩)
    (fun _ hn => mem_singleton.mp hn ▸ hplain) hverify⟩

/-- A suite is taken out of an offer and the signature verifies as before; and two negotiations
with different suites have the same hash. -/
theorem stripped_transcript_verifies :
    let x := SignedNegotiationTranscript.sign sampleSuite (.new sampleIdeal sampleOffer)
      sampleSigner
    let stripped := { x with
      transcript := { x.transcript with peer_a_suites := [ascii "ed25519"] } }
    stripped.verify sampleSuite = true ∧
      stripped.transcript.peer_a_suites ≠ x.transcript.peer_a_suites ∧
      (sampleNegotiation [] (ascii "a|V|b") (ascii "c")).canonical =
        (sampleNegotiation [] (ascii "a") (ascii "b|V|c")).canonical := by
  refine ⟨?_, by decide +kernel, by decide +kernel⟩
  rw [SignedNegotiationTranscript.verify_of_key rfl]
  decide +kernel

/-! ## Choosing a suite -/

def SecurityTier.requires_pqc (tier : SecurityTier) : Bool := tier = .PqcRequired

def is_hybrid_suite (suite : Text) : Bool :=
  containsSub (ascii "hybrid") suite || containsSub (ascii "ml-dsa") suite ||
    containsSub (ascii "ml-kem") suite

def is_classical_suite (suite : Text) : Bool := !is_hybrid_suite suite

structure ApprovedSuitePolicy where
  approved_algorithms : List Text
  mandatory_baseline : Text

def ApprovedSuitePolicy.is_approved (policy : ApprovedSuitePolicy) (algorithm : Text) : Bool :=
  policy.approved_algorithms.contains algorithm

def upper (b : UInt8) : UInt8 := if 97 ≤ b ∧ b ≤ 122 then b - 32 else b

/-- The case mapping of the standard library, of which only the ASCII part is known here. -/
structure Uppercase where
  to_uppercase : Text → Text
  of_ascii : ∀ s, (∀ b ∈ s, b < 128) → to_uppercase s = s.map upper

def PROTOCOL_VERSION : Text := ascii "SAACP/0.2-beta1"

section

variable (U : Uppercase) (H : Hashes) (policy : ApprovedSuitePolicy)
  (local_suites remote_suites : List Text) (session_id : List UInt8)
  (protocol_version : Option Text)

/-- The part of `negotiate` that decides. The tier is tested on the suite that was selected. -/
def select_suite (tier : SecurityTier) (remote_set_upper : List Text) : Except Text Text :=
  let baseline := policy.mandatory_baseline
  let local_has := (local_suites.map U.to_uppercase).contains (U.to_uppercase baseline)
  let remote_has := remote_set_upper.contains (U.to_uppercase baseline)
  if !local_has || !remote_has then
    .error (ascii "Mandatory baseline suite '" ++ baseline ++ ascii "' is absent from the " ++
      ascii (if !local_has then "local" else "remote") ++ ascii " peer's advertisement list.")
  else
    match local_suites.find? fun candidate =>
      remote_set_upper.contains (U.to_uppercase candidate) && policy.is_approved candidate with
    | none => .error (ascii "No approved algorithm is common to both peers.")
    | some selected =>
      if tier.requires_pqc && is_classical_suite selected then
        .error (ascii "PQC_REQUIRED_VIOLATION: Security tier '" ++ tier.as_str ++
          ascii "' mandates a hybrid/PQC suite, but only classical suite '" ++ selected ++
          ascii "' is available. Negotiation aborted to prevent downgrade.")
      else .ok selected

def negotiate (security_tier : Option SecurityTier) : Except Text NegotiationTranscript :=
  let tier := security_tier.getD .PqcPreferred
  (select_suite U policy local_suites tier (remote_suites.map U.to_uppercase)).map fun selected =>
    .new H ⟨local_suites, remote_suites, selected, protocol_version.getD PROTOCOL_VERSION,
      session_id, tier, remote_suites.any is_hybrid_suite⟩

theorem select_suite_eq_ok (tier : SecurityTier) (remote_set_upper : List Text) (selected : Text) :
    select_suite U policy local_suites tier remote_set_upper = .ok selected ↔
      U.to_uppercase policy.mandatory_baseline ∈ local_suites.map U.to_uppercase ∧
        U.to_uppercase policy.mandatory_baseline ∈ remote_set_upper ∧
        (local_suites.find? fun candidate =>
          remote_set_upper.contains (U.to_uppercase candidate) && policy.is_approved candidate) =
            some selected ∧
        (tier.requires_pqc → is_hybrid_suite selected) := by
  simp only [select_suite, is_classical_suite]
  rw [← contains_iff_mem, ← contains_iff_mem]
  cases (local_suites.map U.to_uppercase).contains (U.to_uppercase policy.mandatory_baseline)
  · simp
  cases remote_set_upper.contains (U.to_uppercase policy.mandatory_baseline)
  · simp
  cases local_suites.find? _ with
  | none => simp
  | some suite =>
    by_cases hsuite : suite = selected
    · subst hsuite
      by_cases hpqc : tier.requires_pqc <;> simp [hpqc]
    · by_cases hhybrid : is_hybrid_suite suite <;> by_cases hpqc : tier.requires_pqc <;>
        simp [hsuite, hhybrid, hpqc]

/-- **When a negotiation under `PqcRequired` succeeds**: both peers have the baseline, and the first
approved common suite of the local list is a hybrid one. It is the suite selected. -/
theorem pqc_required_negotiates :
    let answer := negotiate U H policy local_suites remote_suites session_id protocol_version
      (some .PqcRequired)
    let common suite := U.to_uppercase suite ∈ remote_suites.map U.to_uppercase
    ((∃ t, answer = .ok t) ↔
      U.to_uppercase policy.mandatory_baseline ∈ local_suites.map U.to_uppercase ∧
        common policy.mandatory_baseline ∧ ∃ suite, is_hybrid_suite suite ∧
          (local_suites.find? fun s => common s ∧ policy.is_approved s) = some suite) ∧
      ∀ t, answer = .ok t → policy.is_approved t.selected_suite ∧
        t.selected_suite ∈ local_suites ∧ common t.selected_suite ∧
        is_hybrid_suite t.selected_suite := by
  intro answer common
  have heligible : (fun s => decide (common s ∧ policy.is_approved s)) = fun s =>
      (remote_suites.map U.to_uppercase).contains (U.to_uppercase s) && policy.is_approved s := by
    funext s
    rw [Bool.decide_and, Bool.decide_eq_true, contains_eq_mem]
  have hanswer t : answer = .ok t ↔ ∃ suite,
      select_suite U policy local_suites .PqcRequired (remote_suites.map U.to_uppercase) =
        .ok suite ∧ .new H ⟨local_suites, remote_suites, suite,
          protocol_version.getD PROTOCOL_VERSION, session_id, .PqcRequired,
          remote_suites.any is_hybrid_suite⟩ = t := by
    simp only [answer, negotiate, Option.getD_some]
    cases select_suite U policy local_suites .PqcRequired (remote_suites.map U.to_uppercase) <;>
      simp [Except.map]
  simp only [hanswer, select_suite_eq_ok, ← heligible]
  refine ⟨⟨?_, ?_⟩, ?_⟩
  · rintro ⟨t, suite, ⟨hlocal, hremote, hfind, hhybrid⟩, -⟩
    exact ⟨hlocal, hremote, suite, hhybrid rfl, hfind⟩
  · rintro ⟨hlocal, hremote, suite, hhybrid, hfind⟩
    exact ⟨_, suite, ⟨hlocal, hremote, hfind, fun _ => hhybrid⟩, rfl⟩
  · rintro _ ⟨suite, ⟨-, -, hfind, hhybrid⟩, rfl⟩
    have hsuite := find?_some hfind
    obtain ⟨hcommon, happroved⟩ := of_decide_eq_true hsuite
    exact ⟨happroved, mem_of_find?_eq_some hfind, hcommon, hhybrid rfl⟩

/-- The same name, or an ASCII name in other letters. -/
def Recased (suite suite' : Text) : Prop :=
  suite = suite' ∨ (∀ b ∈ suite ++ suite', b < 128) ∧ suite.map upper = suite'.map upper

/-- **The letters of the remote list do not decide** whether there is an answer, nor the suite. The
sentinel is the same if the suite is a hybrid one, or if both lists show one or neither does. -/
theorem negotiate_recased (security_tier : Option SecurityTier) (remote_suites' : List Text)
    (hcase : Forall₂ Recased remote_suites remote_suites') :
    let answer remote := negotiate U H policy local_suites remote session_id protocol_version
      security_tier
    (answer remote_suites).map (·.selected_suite) =
        (answer remote_suites').map (·.selected_suite) ∧
      ∀ t t', answer remote_suites = .ok t → answer remote_suites' = .ok t' →
        (t.downgrade_sentinel = t'.downgrade_sentinel ↔ is_hybrid_suite t.selected_suite ∨
          remote_suites.any is_hybrid_suite = remote_suites'.any is_hybrid_suite) := by
  have hupper : remote_suites.map U.to_uppercase = remote_suites'.map U.to_uppercase := by
    induction hcase with
    | nil => rfl
    | cons hsuite _ ih =>
      rw [map_cons, map_cons, ih]
      obtain rfl | ⟨hascii, hmap⟩ := hsuite
      · rfl
      · simp only [mem_append] at hascii
        rw [U.of_ascii _ fun b hb => hascii b (.inl hb),
          U.of_ascii _ fun b hb => hascii b (.inr hb), hmap]
  unfold negotiate
  dsimp only
  rw [hupper]
  cases select_suite U policy local_suites (security_tier.getD .PqcPreferred)
    (remote_suites'.map U.to_uppercase) with
  | error e => exact ⟨rfl, nofun⟩
  | ok selected =>
    refine ⟨rfl, ?_⟩
    rintro _ _ ⟨⟩ ⟨⟩
    have hsentinel : ∀ hybrid pqc pqc' : Bool, sentinel (pqc && !hybrid) =
        sentinel (pqc' && !hybrid) ↔ hybrid ∨ pqc = pqc' := by decide
    exact hsentinel _ _ _

end

/-- Two peers that approve of a classical suite, which is the baseline, and of a hybrid one. -/
def sampleAnswer (local_suites remote_suites : List Text) :
    SecurityTier → Except Text NegotiationTranscript :=
  (negotiate ⟨map upper, fun _ _ => rfl⟩ sampleIdeal
    ⟨[ascii "ed25519", ascii "ml-dsa-65"], ascii "ed25519"⟩ local_suites remote_suites [7] none ·)

theorem pqc_required_negotiates_sample :
    let suites := [ascii "ml-dsa-65", ascii "ed25519"]
    ∃ t, sampleAnswer suites suites .PqcRequired = .ok t :=
  (pqc_required_negotiates ⟨map upper, fun _ _ => rfl⟩ sampleIdeal
    ⟨[ascii "ed25519", ascii "ml-dsa-65"], ascii "ed25519"⟩ _ _ [7] none).1.mpr
    ⟨by decide +kernel, by decide +kernel, ascii "ml-dsa-65", by decide +kernel,
      by decide +kernel⟩

/-- Both peers have the hybrid suite, and the classical one stands before it. -/
theorem classical_first_refused :
    let suites := [ascii "ed25519", ascii "ml-dsa-65"]
    is_hybrid_suite (ascii "ml-dsa-65") ∧ (sampleAnswer suites suites .PqcRequired).isOk = false ∧
      (sampleAnswer suites.reverse suites .PqcRequired).isOk := by
  decide +kernel

theorem negotiate_recased_sample :
    let answer remote := sampleAnswer [ascii "ml-dsa-65", ascii "ed25519"]
      [ascii "ed25519", remote] .PqcPreferred;
    (answer (ascii "ml-dsa-65")).map (·.selected_suite) =
      (answer (ascii "ML-DSA-65")).map (·.selected_suite) :=
  (negotiate_recased _ _ _ _ _ _ _ _ _ (.cons (.inl rfl)
    (.cons (.inr ⟨by decide +kernel, by decide +kernel⟩) .nil))).1

/-- In other letters the hybrid suite on offer is not seen. -/
theorem recased_offer_hidden :
    let answer suite := sampleAnswer [ascii "ed25519"] [ascii "ed25519", suite] .PqcPreferred;
    (answer (ascii "ml-dsa-65")).map (·.downgrade_sentinel) =
        .ok DOWNGRADE_SENTINEL_PQC_CAPABLE ∧
      (answer (ascii "ML-DSA-65")).map (·.downgrade_sentinel) =
        .ok DOWNGRADE_SENTINEL_CLASSICAL_ONLY := by
  decide +kernel

end Saacp
