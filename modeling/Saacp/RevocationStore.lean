/-
What the `DistributedRevocationInfrastructure` **still knows** after any sequence of `revoke` and
`propagate`.

A record is filed under the agent, or under the fingerprint of the credential if it names one, and
takes the place of the record that was filed there. When the store is full, records that are old, by
the time that is written in them, and not of high severity are dropped. The last record under a key
is there as long as it may not be dropped (`find_run_all`).
-/
import Saacp.Credentials
import Mathlib.Algebra.Order.Field.Rat
import Mathlib.Data.List.Nodup
import Mathlib.Data.List.Pairwise
import Mathlib.Tactic.Linarith

set_option autoImplicit false

open ByteCodec

namespace Saacp

open DistributedRevocationInfrastructure List Option SignedRevocationRecord Table

structure PeerCrates extends FaitfCrates where
  json_from_slice : List UInt8 → Except String Json
  from_utf8_lossy : List UInt8 → Text

def retention : ℚ := REVOCATION_RETENTION_DAYS * 86400

/-- Where a record is filed: under an agent or under a credential. -/
inductive RevocationKey
  | agent (agent_id : Text)
  | credential (credential_fingerprint : Text)
  deriving DecidableEq

def RevocationKey.text : RevocationKey → Text
  | agent agent_id => agent_id
  | credential credential_fingerprint => credential_fingerprint

namespace SignedRevocationRecord

def from_wire (C : PeerCrates) (wire : List UInt8) : Except String SignedRevocationRecord :=
  match C.base64_decode wire with
  | .error e => .error s!"Base64 decode error: {e}"
  | .ok raw =>
    if raw.length < 4 then .error "Too short"
    else
      let body_len := ofBE (raw.take 4)
      -- an overflow of the sum on a 32-bit machine has the same error
      if raw.length < 4 + body_len + 64 then .error "Invalid body length"
      else
        match C.json_from_slice (slice raw 4 (4 + body_len)) with
        | .error e => .error s!"Malformed SignedRevocationRecord: {e}"
        | .ok body =>
          let text (key : String) : Text := ((body.get key).bind Json.as_str).getD []
          .ok {
            agent_id := text "agent_id"
            credential_fingerprint := text "credential_fingerprint"
            reason := text "reason"
            revoked_at := ((body.get "revoked_at").bind
              (Json.as_f64 C.f64_of_u64 C.f64_of_i64)).getD ⟨0, F64.finite_zero⟩
            revoker_id := text "revoker_id"
            revoker_signature := slice raw (4 + body_len) (4 + body_len + 64)
            revoker_key_id := C.from_utf8_lossy (raw.drop (4 + body_len + 64)) }

def signed (H : Hashes) (C : FaitfCrates) (revoked_at : F64) (agent_id reason : Text)
    (revoker_identity : AgentIdentity) (credential_fingerprint : Text) : SignedRevocationRecord :=
  let record : SignedRevocationRecord := {
    agent_id, credential_fingerprint, reason, revoked_at
    revoker_id := revoker_identity.agent_id
    revoker_signature := []
    revoker_key_id := pub_key_fingerprint H revoker_identity.verifying_key }
  { record with
    revoker_signature := C.ed25519_sign revoker_identity.signing_key (record.body_bytes C) }

/-- The record of a wire message, if an anchor has signed it. -/
def verified (H : Hashes) (C : PeerCrates) (wire_record : List UInt8)
    (trust_store : AnchoredTrustStore) : Option SignedRevocationRecord :=
  match from_wire C wire_record with
  | .error _ => none
  | .ok record =>
    if trust_store.anchors.entries.any fun e =>
      pub_key_fingerprint H e.2.verifying_key = record.revoker_key_id &&
        verify_data C.toClusterCrates e.2.verifying_key (record.body_bytes C.toFaitfCrates)
          record.revoker_signature
    then some record else none

def key (r : SignedRevocationRecord) : RevocationKey :=
  if r.credential_fingerprint ≠ [] then .credential r.credential_fingerprint else .agent r.agent_id

theorem retention_lt_age_days {r : SignedRevocationRecord} {now : ℚ} :
    REVOCATION_RETENTION_DAYS < r.age_days now ↔ r.revoked_at.toRat + retention < now := by
  have hpos : 0 ≤ REVOCATION_RETENTION_DAYS * 86400 := by decide +kernel
  rw [age_days, lt_div_iff₀ (by decide +kernel), lt_max_iff, retention]
  constructor
  · rintro (h | h)
    · linarith
    · linarith
  · intro h
    exact .inl (by linarith)

def Protected (r : SignedRevocationRecord) (now : ℚ) : Prop :=
  r.is_high_severity = true ∨ now ≤ r.revoked_at.toRat + retention

theorem stale_iff {r : SignedRevocationRecord} {now : ℚ} :
    (decide (REVOCATION_RETENTION_DAYS < r.age_days now) && !r.is_high_severity) = true ↔
      ¬ r.Protected now := by
  rw [Bool.and_eq_true, decide_eq_true_eq, retention_lt_age_days, Protected, not_or, not_le,
    Bool.not_eq_true', Bool.not_eq_true, and_comm]

end SignedRevocationRecord

variable {map : Table Text SignedRevocationRecord}

namespace DistributedRevocationInfrastructure

def propagate (H : Hashes) (C : PeerCrates) (order : MapOrder SignedRevocationRecord)
    (now : Text → ℚ) (dri : DistributedRevocationInfrastructure) (wire_record : List UInt8)
    (trust_store : AnchoredTrustStore) : DistributedRevocationInfrastructure × Bool :=
  match SignedRevocationRecord.verified H C wire_record trust_store with
  | none => (dri, false)
  | some record =>
    match store_record order now dri record with
    | none => (dri, false)
    | some dri' => (dri', true)

def find (dri : DistributedRevocationInfrastructure) : RevocationKey → Option SignedRevocationRecord
  | .agent agent_id => dri.revoked_agents.get agent_id
  | .credential fp => dri.revoked_credentials.get fp

variable {dri dri' : DistributedRevocationInfrastructure} {order : MapOrder SignedRevocationRecord}
  {now : Text → ℚ}

variable {r record : SignedRevocationRecord}

/-! ## One eviction, one insertion -/

theorem revoke_eq (H : Hashes) (C : FaitfCrates) (revoked_at : F64) (agent_id reason : Text)
    (revoker_identity : AgentIdentity) (fp : Text) :
    dri.revoke H C order revoked_at now agent_id reason revoker_identity fp =
      store_record order now dri (.signed H C revoked_at agent_id reason revoker_identity fp) :=
  rfl

theorem get_evict {k : Text} (hget : map.get k = some r) (hkept : r.Protected (now k)) :
    (evict_stale_low_severity order now map).1.get k = some r := by
  rw [evict_stale_low_severity, get_removeAll]
  split
  next hmem =>
    obtain ⟨e, hcandidate, rfl⟩ := mem_map.mp hmem
    have hstale := (perm_insertionSort _ _).mem_iff.mp (mem_of_mem_take hcandidate)
    obtain ⟨hwalk, hold⟩ := mem_filter.mp hstale
    have hsame : map.get e.1 = some e.2 := mem_entries.mp ((order.perm _).mem_iff.mp hwalk)
    rw [hget] at hsame
    rw [← Option.some.inj hsame] at hold
    exact absurd hkept (stale_iff.mp hold)
  next => exact hget

theorem find_put_record (record : SignedRevocationRecord) (k : RevocationKey) :
    (dri.put_record record).find k = if k = record.key then some record else dri.find k := by
  rw [put_record, SignedRevocationRecord.key]
  by_cases hfp : record.credential_fingerprint = []
  · rw [if_neg (not_not_intro hfp), if_neg (not_not_intro hfp)]
    cases k with
    | agent a => simp only [find, get_insert, RevocationKey.agent.injEq]
    | credential fp => simp only [find, reduceCtorEq, if_false]
  · rw [if_pos hfp, if_pos hfp]
    cases k with
    | agent a => simp only [find, reduceCtorEq, if_false]
    | credential fp => simp only [find, get_insert, RevocationKey.credential.injEq]

theorem store_record_cases (h : store_record order now dri record = some dri') :
    let agents := evict_stale_low_severity order now dri.revoked_agents
    let credentials := evict_stale_low_severity order now dri.revoked_credentials
    ∃ room : DistributedRevocationInfrastructure, dri' = room.put_record record ∧
      (dri.revoked_agents.len + dri.revoked_credentials.len < DRI_MAX_RECORDS ∧ room = dri ∨
        DRI_MAX_RECORDS ≤ dri.revoked_agents.len + dri.revoked_credentials.len ∧
          (dri.revoked_credentials.len ≤ dri.revoked_agents.len ∧ agents.2 ≠ 0 ∧
              room = { dri with revoked_agents := agents.1 } ∨
            dri.revoked_agents.len < dri.revoked_credentials.len ∧ credentials.2 ≠ 0 ∧
              room = { dri with revoked_credentials := credentials.1 })) := by
  intro agents credentials
  rw [store_record] at h
  by_cases hfull : DRI_MAX_RECORDS ≤ dri.revoked_agents.len + dri.revoked_credentials.len
  · rw [if_pos hfull] at h
    by_cases hlarger : dri.revoked_credentials.len ≤ dri.revoked_agents.len
    · rw [if_pos hlarger] at h
      by_cases hnone : agents.2 = 0
      · cases (if_pos hnone).symm.trans h
      · exact ⟨_, (Option.some.inj ((if_neg hnone).symm.trans h)).symm,
          .inr ⟨hfull, .inl ⟨hlarger, hnone, rfl⟩⟩⟩
    · rw [if_neg hlarger] at h
      by_cases hnone : credentials.2 = 0
      · cases (if_pos hnone).symm.trans h
      · exact ⟨_, (Option.some.inj ((if_neg hnone).symm.trans h)).symm,
          .inr ⟨hfull, .inr ⟨not_le.mp hlarger, hnone, rfl⟩⟩⟩
  · rw [if_neg hfull] at h
    exact ⟨dri, (Option.some.inj h).symm, .inl ⟨not_le.mp hfull, rfl⟩⟩

theorem store_record_of_full
    (hfull : DRI_MAX_RECORDS ≤ dri.revoked_agents.len + dri.revoked_credentials.len)
    (hlarger : dri.revoked_credentials.len ≤ dri.revoked_agents.len)
    (hsome : (evict_stale_low_severity order now dri.revoked_agents).2 ≠ 0) :
    store_record order now dri record = some ({ dri with
      revoked_agents := (evict_stale_low_severity order now dri.revoked_agents).1 }.put_record
        record) := by
  rw [store_record, if_pos hfull, if_pos hlarger]
  exact if_neg hsome

theorem find_store_record (h : store_record order now dri record = some dri') {k : RevocationKey}
    (hfind : dri.find k = some r) (hkept : r.Protected (now k.text)) :
    dri'.find k = some (if record.key = k then record else r) := by
  obtain ⟨room, rfl, hroom⟩ := store_record_cases h
  have hstill : room.find k = some r := by
    rcases hroom with ⟨-, rfl⟩ | ⟨-, ⟨-, -, rfl⟩ | ⟨-, -, rfl⟩⟩
    · exact hfind
    · cases k with
      | agent a => exact get_evict hfind hkept
      | credential fp => exact hfind
    · cases k with
      | agent a => exact hfind
      | credential fp => exact get_evict hfind hkept
  rw [find_put_record, hstill]
  by_cases hk : record.key = k
  · rw [if_pos hk.symm, if_pos hk]
  · rw [if_neg (Ne.symm hk), if_neg hk]

theorem find_stored
    (h : store_record order now dri record = some dri') : dri'.find record.key = some record := by
  obtain ⟨room, rfl, -⟩ := store_record_cases h
  rw [find_put_record, if_pos rfl]

/-! ## The number of records -/

def records (dri : DistributedRevocationInfrastructure) : ℕ :=
  dri.revoked_agents.len + dri.revoked_credentials.len

/-- The map that `store_record` evicts from. -/
def larger (dri : DistributedRevocationInfrastructure) : Table Text SignedRevocationRecord :=
  if dri.revoked_credentials.len ≤ dri.revoked_agents.len then dri.revoked_agents
  else dri.revoked_credentials

theorem len_evict_lt (h : (evict_stale_low_severity order now map).2 ≠ 0) :
    (evict_stale_low_severity order now map).1.len < map.len := by
  rw [evict_stale_low_severity] at h ⊢
  obtain ⟨e, rest, hcons⟩ := exists_cons_of_length_pos (Nat.pos_of_ne_zero h)
  have hmem : e ∈ order.walk map.entries := mem_of_mem_filter ((perm_insertionSort _ _).mem_iff.mp
      (mem_of_mem_take (hcons ▸ mem_cons_self)))
  have hget : map.get e.1 = some e.2 := mem_entries.mp ((order.perm _).mem_iff.mp hmem)
  have hremoved := count_remove_of_some hget fun _ => true
  rw [← len_eq_count, ← len_eq_count] at hremoved
  simp only [hcons, map_cons]
  calc ((map.remove e.1).removeAll (rest.map Prod.fst)).len
      ≤ (map.remove e.1).len := len_removeAll_le _ _
    _ < map.len := by simp at hremoved; omega

theorem evict_eq_zero : (evict_stale_low_severity order now map).2 = 0 ↔
    ∀ k r, map.get k = some r → r.Protected (now k) := by
  have hbatch : ∀ n, min DRI_EVICT_BATCH n = 0 ↔ n = 0 := by
    intro n
    rw [DRI_EVICT_BATCH]
    omega
  rw [evict_stale_low_severity]
  simp only [length_take, length_insertionSort, hbatch, length_eq_zero_iff, filter_eq_nil_iff,
    stale_iff, not_not]
  constructor
  · intro h k r hget
    exact h (k, r) ((order.perm _).mem_iff.mpr (mem_entries.mpr hget))
  · intro h e he
    exact h e.1 e.2 (mem_entries.mp ((order.perm _).mem_iff.mp he))

/-- Where nothing is evicted, the map is as before. -/
theorem evict_of_zero (h : (evict_stale_low_severity order now map).2 = 0) :
    (evict_stale_low_severity order now map).1 = map := by
  rw [evict_stale_low_severity] at h ⊢
  simp only [length_eq_zero_iff] at h
  simp only [h]
  rfl

theorem store_record_eq_none : store_record order now dri record = none ↔
    DRI_MAX_RECORDS ≤ dri.records ∧ (evict_stale_low_severity order now dri.larger).2 = 0 := by
  rw [store_record, larger, records]
  split_ifs with hfull hlarger hlarger
  · refine ⟨fun h => ⟨hfull, by_contra fun hsome => ?_⟩, fun h => if_pos h.2⟩
    cases (if_neg hsome).symm.trans h
  · refine ⟨fun h => ⟨hfull, by_contra fun hsome => ?_⟩, fun h => if_pos h.2⟩
    cases (if_neg hsome).symm.trans h
  all_goals exact iff_of_false id fun h => hfull h.1

theorem records_put_le (dri : DistributedRevocationInfrastructure)
    (record : SignedRevocationRecord) : (dri.put_record record).records ≤ dri.records + 1 := by
  have hagents := len_insert_le dri.revoked_agents record.agent_id record
  have hcreds := len_insert_le dri.revoked_credentials record.credential_fingerprint record
  rw [put_record]
  split_ifs
  all_goals
    simp only [records]
    omega

theorem records_store_le (hle : dri.records ≤ DRI_MAX_RECORDS)
    (h : store_record order now dri record = some dri') : dri'.records ≤ DRI_MAX_RECORDS := by
  obtain ⟨room, rfl, hroom⟩ := store_record_cases h
  have hput := records_put_le room record
  have hless : room.records < DRI_MAX_RECORDS := by
    rcases hroom with ⟨hless, rfl⟩ | ⟨-, ⟨-, hsome, rfl⟩ | ⟨-, hsome, rfl⟩⟩
    · exact hless
    all_goals
      have hfewer := len_evict_lt hsome
      simp only [records] at hle ⊢
      omega
  omega

end DistributedRevocationInfrastructure

/-! ## Calls -/

inductive RevocationRequest
  | revoke (agent_id reason : Text) (revoker_identity : AgentIdentity)
    (credential_fingerprint : Text) (revoked_at : F64)
  | propagate (wire_record : List UInt8) (trust_store : AnchoredTrustStore)

/-- A call with the order of the hash map it meets and its readings of the clock. -/
structure RevocationCall where
  request : RevocationRequest
  order : MapOrder SignedRevocationRecord
  start : ℚ
  finish : ℚ
  now : Text → ℚ
  start_le_now : ∀ k, start ≤ now k
  now_le_finish : ∀ k, now k ≤ finish
  revoked_at_mem : ∀ agent_id reason revoker_identity fp revoked_at,
    request = .revoke agent_id reason revoker_identity fp revoked_at →
      start ≤ revoked_at.toRat ∧ revoked_at.toRat ≤ finish

namespace RevocationCall

/-- The record of a call: the one `revoke` signs, or the one `propagate` finds an anchor for. -/
def record (H : Hashes) (C : PeerCrates) (call : RevocationCall) : Option SignedRevocationRecord :=
  match call.request with
  | .revoke agent_id reason revoker_identity fp revoked_at =>
    some (.signed H C.toFaitfCrates revoked_at agent_id reason revoker_identity fp)
  | .propagate wire_record trust_store =>
    SignedRevocationRecord.verified H C wire_record trust_store

def run (H : Hashes) (C : PeerCrates) (call : RevocationCall)
    (dri : DistributedRevocationInfrastructure) : DistributedRevocationInfrastructure × Bool :=
  match call.request with
  | .revoke agent_id reason revoker_identity fp revoked_at =>
    match dri.revoke H C.toFaitfCrates call.order revoked_at call.now agent_id reason
      revoker_identity fp with
    | none => (dri, false)
    | some dri' => (dri', true)
  | .propagate wire_record trust_store =>
    dri.propagate H C call.order call.now wire_record trust_store

def stored (H : Hashes) (C : PeerCrates) (call : RevocationCall)
    (dri : DistributedRevocationInfrastructure) : Option SignedRevocationRecord :=
  if (call.run H C dri).2 then call.record H C else none

variable {H : Hashes} {C : PeerCrates}

variable (call : RevocationCall)

theorem start_le_finish : call.start ≤ call.finish :=
  (call.start_le_now []).trans (call.now_le_finish [])

theorem run_cases (dri : DistributedRevocationInfrastructure) :
    call.stored H C dri = none ∧ (call.run H C dri).1 = dri ∨
      ∃ record, call.stored H C dri = some record ∧
        dri.store_record call.order call.now record = some (call.run H C dri).1 := by
  -- both requests end in `store_record` of the record of the call
  have hshape : (call.run H C dri) = match call.record H C with
      | none => (dri, false)
      | some record => match dri.store_record call.order call.now record with
        | none => (dri, false)
        | some dri' => (dri', true) := by
    rw [run, record]
    cases call.request with
    | revoke | propagate => rfl
  cases hrecord : call.record H C with
  | none =>
    rw [hrecord] at hshape
    exact .inl ⟨by rw [stored, hshape]; rfl, by rw [hshape]⟩
  | some record =>
    simp only [hrecord] at hshape
    cases hstore : dri.store_record call.order call.now record with
    | none =>
      simp only [hstore] at hshape
      exact .inl ⟨by rw [stored, hshape]; rfl, by rw [hshape]⟩
    | some dri' =>
      simp only [hstore] at hshape
      exact .inr ⟨record, by rw [stored, hshape, if_pos rfl, hrecord], by rw [hshape, hstore]⟩

variable {r : SignedRevocationRecord} {dri : DistributedRevocationInfrastructure}

theorem start_le_of_revoke {agent_id reason fp : Text}
    {revoker_identity : AgentIdentity} {revoked_at : F64}
    (hrequest : call.request = .revoke agent_id reason revoker_identity fp revoked_at)
    (hrecord : call.record H C = some r) : call.start ≤ r.revoked_at.toRat := by
  rw [record, hrequest] at hrecord
  cases hrecord
  exact (call.revoked_at_mem _ _ _ _ _ hrequest).1

/-! ## Runs -/

def run_all (H : Hashes) (C : PeerCrates) :
    List RevocationCall → DistributedRevocationInfrastructure → DistributedRevocationInfrastructure
  | [], dri => dri
  | call :: calls, dri => run_all H C calls (call.run H C dri).1

def stored_all (H : Hashes) (C : PeerCrates) :
    List RevocationCall → DistributedRevocationInfrastructure → List (ℚ × SignedRevocationRecord)
  | [], _ => []
  | call :: calls, dri =>
    ((call.stored H C dri).map fun r => (call.start, r)).toList ++
      stored_all H C calls (call.run H C dri).1

/-- The last of the records that was filed under the key of `r`, starting with `r`. -/
def latest (r : SignedRevocationRecord) (later : List (ℚ × SignedRevocationRecord)) :
    SignedRevocationRecord :=
  later.foldl (fun last e => if e.2.key = r.key then e.2 else last) r

theorem latest_eq_self {later : List (ℚ × SignedRevocationRecord)}
    (h : ∀ e ∈ later, e.2.key ≠ r.key) : latest r later = r := by
  induction later with
  | nil => rfl
  | cons e later ih =>
    rw [latest, foldl_cons, if_neg (h e mem_cons_self)]
    exact ih fun e' he' => h e' (mem_cons_of_mem e he')

def Chronological (calls : List RevocationCall) : Prop :=
  calls.Pairwise fun a b => a.finish ≤ b.start

theorem run_all_append (before after : List RevocationCall)
    (dri : DistributedRevocationInfrastructure) :
    run_all H C (before ++ after) dri = run_all H C after (run_all H C before dri) := by
  induction before generalizing dri with
  | nil => rfl
  | cons call before ih => exact ih _

theorem find_run {k : RevocationKey} (hfind : dri.find k = some r)
    (hkept : r.Protected call.finish) :
    (call.run H C dri).1.find k =
      some (((call.stored H C dri).map fun r' => if r'.key = k then r' else r).getD r) := by
  have hnow : r.Protected (call.now k.text) := hkept.imp id (call.now_le_finish k.text).trans
  rcases call.run_cases (H := H) (C := C) dri with ⟨hnone, hsame⟩ | ⟨record, hsome, hstore⟩
  · rw [hnone, hsame, hfind]
    rfl
  · rw [hsome, find_store_record hstore hfind hnow]
    rfl

/-- **The last record under a key is there**, if none filed there since could be dropped. -/
theorem find_run_all (calls : List RevocationCall) {first : SignedRevocationRecord}
    (hkey : r.key = first.key) (hfind : dri.find first.key = some r)
    (hkept : ∀ r', (r' = r ∨ ∃ t, (t, r') ∈ stored_all H C calls dri) → r'.key = first.key →
      ∀ call ∈ calls, r'.Protected call.finish) :
    (run_all H C calls dri).find first.key = some ((stored_all H C calls dri).foldl
        (fun last e => if e.2.key = first.key then e.2 else last) r) := by
  -- by induction on the calls; the record that is filed changes on the way
  induction calls generalizing dri r with
  | nil => exact hfind
  | cons call calls ih =>
    have hstep := call.find_run (H := H) (C := C) hfind (hkept r (.inl rfl) hkey call mem_cons_self)
    -- the record that is filed after this call
    obtain ⟨r₁, hr₁⟩ : ∃ r₁, ((call.stored H C dri).map fun r' =>
        if r'.key = first.key then r' else r).getD r = r₁ := ⟨_, rfl⟩
    have hnext : r₁.key = first.key ∧ (r₁ = r ∨ ∃ t, (t, r₁) ∈ stored_all H C (call :: calls) dri) ∧
        ((call.stored H C dri).map fun r => (call.start, r)).toList.foldl
          (fun last e => if e.2.key = first.key then e.2 else last) r = r₁ := by
      cases hstored : call.stored H C dri with
      | none =>
        rw [hstored] at hr₁
        cases hr₁
        exact ⟨hkey, .inl rfl, rfl⟩
      | some record =>
        rw [hstored, map_some, getD_some] at hr₁
        refine ⟨?_, ?_, hr₁⟩
        · rw [← hr₁]
          split_ifs with hrecord
          · exact hrecord
          · exact hkey
        · rw [stored_all, hstored, ← hr₁]
          split_ifs
          · exact .inr ⟨call.start, mem_append_left _ mem_cons_self⟩
          · exact .inl rfl
    obtain ⟨hkey₁, hfrom, hfold⟩ := hnext
    rw [run_all, stored_all, foldl_append, hfold]
    rw [hr₁] at hstep
    refine ih hkey₁ hstep ?_
    rintro r' (rfl | ⟨t, ht⟩) hr' c hc
    · exact hkept r' hfrom hr' c (mem_cons_of_mem call hc)
    · exact hkept r' (.inr ⟨t, mem_append_right _ ht⟩) hr' c (mem_cons_of_mem call hc)

theorem start_of_stored {calls : List RevocationCall} {t : ℚ}
    (h : (t, r) ∈ stored_all H C calls dri) : ∃ call ∈ calls, call.start = t := by
  induction calls generalizing dri with
  | nil => cases h
  | cons call calls ih =>
    rw [stored_all, mem_append] at h
    rcases h with hmem | hmem
    · rw [mem_toList, map_eq_some_iff] at hmem
      obtain ⟨r', -, heq⟩ := hmem
      exact ⟨call, mem_cons_self, congrArg Prod.fst heq⟩
    · obtain ⟨c, hc, ht⟩ := ih hmem
      exact ⟨c, mem_cons_of_mem call hc, ht⟩

/-- **Revocations last.** A record of high severity for an agent keeps the agent revoked, if every
later record for the agent is of high severity too. The last record under a key stays for the
retention period of the first one, if the records under the key are not dated before they are
stored. -/
theorem revocations_last (H : Hashes) (C : PeerCrates) (before after : List RevocationCall)
    (call : RevocationCall) (r : SignedRevocationRecord)
    (hclock : Chronological (before ++ call :: after))
    (hstored : call.stored H C (run_all H C before .new) = some r) :
    let later := stored_all H C after (run_all H C (before ++ [call]) .new)
    let dri := run_all H C (before ++ call :: after) .new
    (r.is_high_severity = true → r.credential_fingerprint = [] →
        (∀ e ∈ later, e.2.key = r.key → e.2.is_high_severity = true) →
        ∀ fp, dri.is_revoked r.agent_id fp = true) ∧
      ((∀ e ∈ (call.start, r) :: later, e.2.key = r.key → e.1 ≤ e.2.revoked_at.toRat) →
        (∀ c ∈ after, c.finish ≤ call.start + retention) →
        dri.find r.key = some (latest r later)) := by
  intro later dri
  have hdri : dri = run_all H C after (run_all H C (before ++ [call]) .new) := by
    rw [← run_all_append, append_assoc]
    rfl
  have hfind : (run_all H C (before ++ [call]) .new).find r.key = some r := by
    rw [run_all_append]
    rcases call.run_cases (H := H) (C := C) (run_all H C before .new) with
      ⟨hnone, -⟩ | ⟨record, hsome, hstore⟩
    · cases hnone.symm.trans hstored
    · cases hsome.symm.trans hstored
      exact find_stored hstore
  constructor
  · intro hhigh hfp hlater fp
    have hlast := find_run_all (H := H) (C := C) after rfl hfind <| by
      rintro r' (rfl | ⟨t, ht⟩) hkey c -
      · exact .inl hhigh
      · exact .inl (hlater (t, r') ht hkey)
    rw [← hdri, SignedRevocationRecord.key, if_neg (not_not_intro hfp), find] at hlast
    rw [is_revoked, Table.contains, hlast]
    rfl
  · intro hdated hperiod
    have hlast := find_run_all (H := H) (C := C) after rfl hfind <| by
      intro r' hr' hkey c hc
      refine .inr ((hperiod c hc).trans (add_le_add ?_ (le_refl _)))
      rcases hr' with rfl | ⟨t, ht⟩
      · exact hdated (call.start, r') mem_cons_self hkey
      · -- stored by a later call, which started after this one
        obtain ⟨c', hc', rfl⟩ := start_of_stored ht
        have horder : call.finish ≤ c'.start :=
          (pairwise_cons.mp (pairwise_append.mp hclock).2.1).1 c' hc'
        exact (call.start_le_finish.trans horder).trans
          (hdated (c'.start, r') (mem_cons_of_mem _ ht) hkey)
    rw [hdri, hlast]
    rfl

theorem records_run_all_le (H : Hashes) (C : PeerCrates) (calls : List RevocationCall)
    {dri : DistributedRevocationInfrastructure} (hle : dri.records ≤ DRI_MAX_RECORDS) :
    (run_all H C calls dri).records ≤ DRI_MAX_RECORDS := by
  induction calls generalizing dri with
  | nil => exact hle
  | cons call calls ih =>
    refine ih ?_
    rcases call.run_cases (H := H) (C := C) dri with ⟨-, hsame⟩ | ⟨record, -, hstore⟩
    · rwa [hsame]
    · exact records_store_le hle hstore

/-- **The store is bounded, and when it refuses only as it must**: after every run there are at most
`DRI_MAX_RECORDS` records, and nothing is dropped in a call that is refused. That a record is
refused only if the store is full, the record replaces none and none may be dropped is so exactly if
the store is not full, or the larger map has one that may be dropped, or the record replaces none
and neither map has such a one. -/
theorem refuses_when_full (H : Hashes) (C : PeerCrates) (calls : List RevocationCall)
    (order : MapOrder SignedRevocationRecord) (now : Text → ℚ) (record : SignedRevocationRecord) :
    let dri := run_all H C calls .new
    let none_evictable := ∀ k r, dri.find k = some r → r.Protected (now k.text)
    dri.records ≤ DRI_MAX_RECORDS ∧
      (store_record order now dri record = none →
        (evict_stale_low_severity order now dri.larger).1 = dri.larger) ∧
      ((store_record order now dri record = none →
          dri.records = DRI_MAX_RECORDS ∧ dri.find record.key = none ∧ none_evictable) ↔
        dri.records < DRI_MAX_RECORDS ∨
          (∃ k r, dri.larger.get k = some r ∧ ¬ r.Protected (now k)) ∨
          dri.find record.key = none ∧ none_evictable) := by
  intro dri none_evictable
  have hle : dri.records ≤ DRI_MAX_RECORDS := records_run_all_le H C calls (Nat.zero_le _)
  refine ⟨hle, fun hnone => evict_of_zero (store_record_eq_none.mp hnone).2, ?_⟩
  rw [store_record_eq_none, evict_eq_zero]
  constructor
  · intro hmust
    by_cases hfull : dri.records < DRI_MAX_RECORDS
    · exact .inl hfull
    by_cases hkept : ∀ k r, dri.larger.get k = some r → r.Protected (now k)
    · exact .inr (.inr (hmust ⟨not_lt.mp hfull, hkept⟩).2)
    · push Not at hkept
      exact .inr (.inl hkept)
  · rintro (hfree | ⟨k, r, hget, hstale⟩ | hnew) ⟨hfull, hkept⟩
    · exact absurd hfull (not_le.mpr hfree)
    · exact absurd (hkept k r hget) hstale
    · exact ⟨le_antisymm hle hfull, hnew⟩

section Samples

seal F64.toRat

def samplePeer : PeerCrates where
  json_to_vec _ := []
  ed25519_sign key _ := key ++ key
  ed25519_verify key _ signature := signature = key ++ key
  base64_encode bs := bs
  base64_decode t := .ok t
  ed25519_from_bytes _ := .ok ()
  f64_of_u64 _ := wall_12
  f64_of_i64 _ := wall_0
  f64_add _ y := y
  json_from_slice _ := .ok (.obj [("agent_id", .str [66]), ("reason", .str (ascii "retired")),
    ("revoked_at", .float wall_12)])
  from_utf8_lossy bs := bs

def sampleRevoke (agent_id reason : Text) (reading : F64) : RevocationCall where
  request := .revoke agent_id reason ⟨[90], sampleKey 90, sampleKey 90⟩ [] reading
  order := ⟨id, fun _ => .refl _⟩
  start := reading.toRat
  finish := reading.toRat
  now _ := reading.toRat
  start_le_now _ := le_refl _
  now_le_finish _ := le_refl _
  revoked_at_mem := by
    rintro _ _ _ _ _ h
    cases h
    exact ⟨le_refl _, le_refl _⟩

variable (agent_id reason : Text) (reading : F64)

theorem sampleRevoke_times : (sampleRevoke agent_id reason reading).start = reading.toRat ∧
      (sampleRevoke agent_id reason reading).finish = reading.toRat := by
  simp only [sampleRevoke, and_self]

def samplePropagate : RevocationCall where
  request := .propagate (toBE 4 0 ++ sampleKey 90 ++ sampleKey 90 ++ hexText (sampleKey 90))
    (AnchoredTrustStore.new.register_anchor ⟨[90], sampleKey 90, [], 12⟩)
  order := ⟨id, fun _ => .refl _⟩
  start := wall_12.toRat
  finish := wall_12.toRat
  now _ := wall_12.toRat
  start_le_now _ := le_refl _
  now_le_finish _ := le_refl _
  revoked_at_mem := nofun

theorem revocations_last_sample :
    let dri := run_all sampleIdeal samplePeer
      [sampleRevoke [65] (ascii "key-leak") wall_0, samplePropagate] .new
    (∀ fp, dri.is_revoked [65] fp = true) ∧
      dri.find (.agent [65]) = some (.signed sampleIdeal samplePeer.toFaitfCrates wall_0 [65]
        (ascii "key-leak") ⟨[90], sampleKey 90, sampleKey 90⟩ []) := by
  intro dri
  let call := sampleRevoke [65] (ascii "key-leak") wall_0
  let later := stored_all sampleIdeal samplePeer [samplePropagate]
    (run_all sampleIdeal samplePeer ([] ++ [call]) .new)
  -- what the peer sends is stored, under another key
  have hpeer : later.all fun e => e.2.key = .agent [66] := by decide +kernel
  have hother : ∀ e ∈ later, e.2.key ≠ .agent [65] := by
    intro e he hkey
    have hkey' := of_decide_eq_true (all_eq_true.mp hpeer e he)
    exact absurd (hkey.symm.trans hkey') (by decide)
  have hclock : Chronological ([] ++ call :: [samplePropagate]) := by
    rw [Chronological]
    decide +kernel
  have hperiod : ∀ c ∈ [samplePropagate], c.finish ≤ call.start + retention := by
    intro c hc
    obtain rfl := mem_singleton.mp hc
    decide +kernel
  obtain ⟨r, hr⟩ : ∃ r, r = SignedRevocationRecord.signed sampleIdeal samplePeer.toFaitfCrates
      wall_0 [65] (ascii "key-leak") ⟨[90], sampleKey 90, sampleKey 90⟩ [] := ⟨_, rfl⟩
  have hrecord : call.record sampleIdeal samplePeer = some r := by
    rw [hr]
    rfl
  have hdated : call.start ≤ r.revoked_at.toRat := call.start_le_of_revoke rfl hrecord
  have hkey : r.key = .agent [65] := by
    rw [hr]
    rfl
  obtain ⟨hrevoked, hfound⟩ := revocations_last sampleIdeal samplePeer [] [samplePropagate] call r
    hclock hrecord
  rw [hkey] at hrevoked hfound
  constructor
  · have hagent := hrevoked (by rw [hr]; decide) (by rw [hr]; rfl)
      fun e he hsame => absurd hsame (hother e he)
    rw [hr] at hagent
    exact hagent
  · rw [← hr]
    refine (hfound ?_ hperiod).trans (congrArg some (latest_eq_self (by rw [hkey]; exact hother)))
    intro e he hsame
    rcases mem_cons.mp he with heq | hmem
    · rw [heq]
      exact hdated
    · exact absurd hsame (hother e hmem)

def otherAgent (n : ℕ) : Text := List.replicate (n + 2) 66

theorem otherAgent_injective {n m : ℕ} (h : otherAgent n = otherAgent m) : n = m := by
  have hlen := congrArg List.length h
  simp only [otherAgent, length_replicate] at hlen
  omega

variable (n : ℕ)

theorem otherAgent_ne : otherAgent n ≠ [65] := by
  intro h
  have hlen := congrArg List.length h
  simp only [otherAgent, length_replicate, length_singleton] at hlen
  omega

def flood : ℕ → List RevocationCall
  | 0 => []
  | n + 1 => flood n ++ [sampleRevoke (otherAgent n) (ascii "critical") wall_0]

def wall_91_days : F64 := ⟨0x415dfe2000000000, by decide⟩

/-- What `sampleRevoke` stores. -/
def sampleRecord (H : Hashes) (C : PeerCrates) (agent_id reason : Text) (reading : F64) :
    SignedRevocationRecord :=
  .signed H C.toFaitfCrates reading agent_id reason ⟨[90], sampleKey 90, sampleKey 90⟩ []

theorem run_sampleRevoke_of_stored {dri' : DistributedRevocationInfrastructure}
    {agent_id reason : Text} {reading : F64}
    (h : dri.store_record (sampleRevoke agent_id reason reading).order (fun _ => reading.toRat)
      (sampleRecord H C agent_id reason reading) = some dri') :
    (sampleRevoke agent_id reason reading).run H C dri = (dri', true) := by
  rw [run, sampleRevoke]
  simp only [revoke_eq]
  rw [sampleRevoke, sampleRecord] at h
  rw [h]

theorem run_sampleRevoke
    (hroom : dri.revoked_agents.len + dri.revoked_credentials.len < DRI_MAX_RECORDS) :
    (sampleRevoke agent_id reason reading).run H C dri =
      (dri.put_record (sampleRecord H C agent_id reason reading), true) := by
  apply run_sampleRevoke_of_stored
  rw [store_record, if_neg (not_le.mpr hroom)]

theorem put_sampleRecord (dri : DistributedRevocationInfrastructure) :
    dri.put_record (sampleRecord H C agent_id reason reading) =
      ⟨dri.revoked_agents.insert agent_id (sampleRecord H C agent_id reason reading),
        dri.revoked_credentials, dri.revocation_epoch + 1⟩ := rfl

/-- The record of `A` was replaced, and `n` others are revoked for good. -/
structure Flooded (H : Hashes) (C : PeerCrates) (n : ℕ)
    (dri : DistributedRevocationInfrastructure) : Prop where
  len : dri.revoked_agents.len = 1 + n
  creds : dri.revoked_credentials = .empty
  retired : dri.revoked_agents.get [65] = some (sampleRecord H C [65] (ascii "retired") wall_0)
  fresh : ∀ m, n ≤ m → dri.revoked_agents.get (otherAgent m) = none
  high : ∀ k r, dri.revoked_agents.get k = some r → k = [65] ∨ r.is_high_severity = true

theorem flooded_twice (H : Hashes) (C : PeerCrates) :
    Flooded H C 0 (run_all H C [sampleRevoke [65] (ascii "compromise") wall_0,
      sampleRevoke [65] (ascii "retired") wall_0] .new) := by
  have hone : (Table.empty.insert [65] (sampleRecord H C [65] (ascii "compromise") wall_0)).len =
      1 := len_insert_of_none (get_empty [65]) _
  have hroom : (Table.empty.insert [65] (sampleRecord H C [65] (ascii "compromise") wall_0)).len +
      (Table.empty : Table Text SignedRevocationRecord).len < DRI_MAX_RECORDS :=
    lt_of_eq_of_lt hone (by decide)
  rw [run_all, run_all, run_all, run_sampleRevoke [65] (ascii "compromise") wall_0
    (by decide), put_sampleRecord, run_sampleRevoke _ _ _ hroom, put_sampleRecord]
  refine ⟨(len_insert_of_some (get_insert_self _ _ _) _).trans hone, rfl, get_insert_self _ _ _,
    fun m _ => ?_, fun k r hget => ?_⟩
  · rw [get_insert, if_neg (otherAgent_ne m), get_insert, if_neg (otherAgent_ne m)]
    exact get_empty _
  · by_contra hne
    have hk : k ≠ [65] := fun hk => hne (.inl hk)
    rw [get_insert, if_neg hk, get_insert, if_neg hk] at hget
    cases (get_empty k).symm.trans hget

def sampleCalls (n : ℕ) : List RevocationCall :=
  [sampleRevoke [65] (ascii "compromise") wall_0, sampleRevoke [65] (ascii "retired") wall_0] ++
    flood n

theorem flooded (H : Hashes) (C : PeerCrates) {n : ℕ} (hn : n < DRI_MAX_RECORDS) :
    Flooded H C n (run_all H C (sampleCalls n) .new) := by
  induction n with
  | zero => exact flooded_twice H C
  | succ n ih =>
    have h := ih (Nat.lt_of_succ_lt hn)
    rw [sampleCalls, flood, ← append_assoc, ← sampleCalls, run_all_append]
    generalize run_all H C (sampleCalls n) .new = dri at *
    have hroom : dri.revoked_agents.len + dri.revoked_credentials.len < DRI_MAX_RECORDS := by
      rw [h.len, h.creds, len_empty]
      omega
    rw [run_all, run_all, run_sampleRevoke _ _ _ hroom, put_sampleRecord]
    refine ⟨?_, h.creds, ?_, ?_, ?_⟩
    · rw [len_insert_of_none (h.fresh n (le_refl n)), h.len]
      rfl
    · rw [get_insert, if_neg (otherAgent_ne n).symm, h.retired]
    · intro m hm
      rw [get_insert, if_neg fun heq => by have := otherAgent_injective heq; omega]
      exact h.fresh m (by omega)
    · refine forall_insert h.high (.inr ?_)
      show HIGH_SEVERITY_REASON_MARKERS.any
        (fun marker => marker <:+: (ascii "critical").map lower) = true
      decide

theorem evict_only (order : MapOrder SignedRevocationRecord)
    (now : Text → ℚ) {k : Text} {r : SignedRevocationRecord} (hget : map.get k = some r)
    (hstale : REVOCATION_RETENTION_DAYS < r.age_days (now k)) (hlow : r.is_high_severity = false)
    (hothers : ∀ k' r', map.get k' = some r' → k' = k ∨ r'.is_high_severity = true) :
    (DistributedRevocationInfrastructure.evict_stale_low_severity order now map).2 ≠ 0 ∧
      (DistributedRevocationInfrastructure.evict_stale_low_severity order now map).1.get k =
        none := by
  have honly : ((order.walk map.entries).filter fun e =>
      REVOCATION_RETENTION_DAYS < e.2.age_days (now e.1) && !e.2.is_high_severity) = [(k, r)] := by
    apply perm_singleton.mp
    have hnodup : (order.walk map.entries).Nodup :=
      (order.perm _).nodup_iff.mpr (List.Nodup.of_map _ map.nodup_entries)
    refine (perm_ext_iff_of_nodup (hnodup.filter _) (nodup_singleton _)).mpr ?_
    rintro ⟨k', r'⟩
    rw [mem_filter, (order.perm _).mem_iff, mem_entries, mem_singleton]
    constructor
    · rintro ⟨hget', hcond⟩
      rw [Bool.and_eq_true, Bool.not_eq_true'] at hcond
      rcases hothers k' r' hget' with rfl | hhigh
      · rw [hget] at hget'
        cases hget'
        rfl
      · rw [hcond.2] at hhigh
        cases hhigh
    · intro heq
      cases heq
      exact ⟨hget, by rw [hlow, decide_eq_true hstale]; rfl⟩
  rw [evict_stale_low_severity, honly]
  exact ⟨Nat.one_ne_zero, (get_removeAll map [k] k).trans (if_pos mem_cons_self)⟩

theorem flood_times {n : ℕ} {call : RevocationCall} (h : call ∈ flood n) :
    call.start = wall_0.toRat ∧ call.finish = wall_0.toRat := by
  induction n with
  | zero => cases h
  | succ n ih =>
    rcases mem_append.mp h with hmem | hmem
    · exact ih hmem
    · obtain rfl := mem_singleton.mp hmem
      exact sampleRevoke_times _ _ _

theorem Flooded.dropped {n : ℕ} (h : Flooded H C n dri) (hn : 1 + n = DRI_MAX_RECORDS) (m : ℕ)
    (fp : Text) :
    ((sampleRevoke (otherAgent m) (ascii "critical") wall_91_days).run H C dri).1.is_revoked [65]
      fp = false := by
  have hold : REVOCATION_RETENTION_DAYS <
      (sampleRecord H C [65] (ascii "retired") wall_0).age_days wall_91_days.toRat := by
    rw [retention_lt_age_days]
    show wall_0.toRat + retention < wall_91_days.toRat
    decide +kernel
  obtain ⟨hsome, hnone⟩ := evict_only
    (sampleRevoke (otherAgent m) (ascii "critical") wall_91_days).order
    (fun _ => wall_91_days.toRat) h.retired hold
    (show HIGH_SEVERITY_REASON_MARKERS.any
      (fun marker => marker <:+: (ascii "retired").map lower) = false by decide) h.high
  have hfull : DRI_MAX_RECORDS ≤ dri.revoked_agents.len + dri.revoked_credentials.len := by
    rw [h.len, hn]
    exact Nat.le_add_right _ _
  have hlarger : dri.revoked_credentials.len ≤ dri.revoked_agents.len := by
    rw [h.creds, len_empty]
    exact Nat.zero_le _
  rw [run_sampleRevoke_of_stored (store_record_of_full hfull hlarger hsome),
    put_sampleRecord, is_revoked]
  simp only [Table.contains, get_insert, if_neg (otherAgent_ne m).symm, hnone, h.creds,
    get_empty, isSome_none, Bool.and_false, Bool.or_false]

def sampleFlood (n : ℕ) : List RevocationCall :=
  ([sampleRevoke [65] (ascii "compromise") wall_0, sampleRevoke [65] (ascii "retired") wall_0] ++
    flood n) ++ [sampleRevoke (otherAgent n) (ascii "critical") wall_91_days]

theorem sampleFlood_chronological : Chronological (sampleFlood n) := by
  -- everything but the last call happens at second 0
  have hearly : ∀ call ∈ sampleCalls n, call.start = wall_0.toRat ∧ call.finish = wall_0.toRat := by
    intro call hcall
    rcases mem_append.mp hcall with hmem | hmem
    · rcases mem_pair.mp hmem with rfl | rfl
      · exact sampleRevoke_times _ _ _
      · exact sampleRevoke_times _ _ _
    · exact flood_times hmem
  rw [Chronological, sampleFlood, pairwise_append]
  refine ⟨?_, pairwise_singleton _ _, ?_⟩
  · refine pairwise_of_forall_mem_list ?_
    intro a ha b hb
    rw [(hearly a ha).2, (hearly b hb).1]
  · intro a ha b hb
    obtain rfl := mem_singleton.mp hb
    rw [(hearly a ha).2, (sampleRevoke_times _ _ _).1]
    decide +kernel

/-- `A` is revoked for a compromise and then as retired, which replaces the first record; 91 days
later the next revocation evicts it from a full store, whatever the hashes and the keys. -/
theorem forgotten (H : Hashes) (C : PeerCrates) {n : ℕ} (hn : 1 + n = DRI_MAX_RECORDS) (fp : Text) :
    (run_all H C (sampleFlood n) .new).is_revoked [65] fp = false := by
  rw [sampleFlood, run_all_append, run_all, run_all]
  exact (flooded H C (by omega)).dropped hn n fp

theorem compromise_forgotten : Chronological (sampleFlood 99999) ∧
      (∃ after r, sampleFlood 99999 = sampleRevoke [65] (ascii "compromise") wall_0 :: after ∧
        (sampleRevoke [65] (ascii "compromise") wall_0).stored sampleIdeal samplePeer .new =
          some r ∧
        r.agent_id = [65] ∧ r.credential_fingerprint = [] ∧ r.is_high_severity = true) ∧
      ∀ fp,
        (run_all sampleIdeal samplePeer (sampleFlood 99999) .new).is_revoked [65] fp = false := by
  have hn : 1 + 99999 = DRI_MAX_RECORDS := rfl
  generalize 99999 = n at *
  have hstored : (sampleRevoke [65] (ascii "compromise") wall_0).stored sampleIdeal samplePeer
      .new = some (sampleRecord sampleIdeal samplePeer [65] (ascii "compromise") wall_0) := by
    rw [stored, run_sampleRevoke [65] (ascii "compromise") wall_0 (by decide)]
    rfl
  refine ⟨sampleFlood_chronological n, ⟨_, _, rfl, hstored, rfl, rfl, ?_⟩,
    forgotten sampleIdeal samplePeer hn⟩
  exact show HIGH_SEVERITY_REASON_MARKERS.any
    (fun marker => marker <:+: (ascii "compromise").map lower) = true by decide

theorem Flooded.refused {n : ℕ} (h : Flooded H C n dri)
    (hn : 1 + n = DRI_MAX_RECORDS) (order : MapOrder SignedRevocationRecord)
    (record : SignedRevocationRecord) :
    store_record order (fun _ => wall_0.toRat) dri record = none := by
  have hzero : (evict_stale_low_severity order (fun _ => wall_0.toRat) dri.revoked_agents).2 =
      0 := by
    refine evict_eq_zero.mpr fun k r hget => ?_
    rcases h.high k r hget with rfl | hhigh
    · rw [h.retired] at hget
      cases hget
      refine .inr ?_
      show wall_0.toRat ≤ wall_0.toRat + retention
      decide +kernel
    · exact .inl hhigh
  rw [store_record, if_pos (by rw [h.len, hn]; exact Nat.le_add_right _ _),
    if_pos (by rw [h.creds, len_empty]; exact Nat.zero_le _)]
  exact if_pos hzero

def sampleFull (n : ℕ) : DistributedRevocationInfrastructure :=
  run_all sampleIdeal samplePeer (sampleCalls n) .new

/-- **A replacement is refused**: the agent has a record in the full store, which would only be
overwritten. -/
theorem replacement_refused :
    store_record ⟨id, fun _ => .refl _⟩ (fun _ => wall_0.toRat) (sampleFull 99999)
        (sampleRecord sampleIdeal samplePeer [65] (ascii "critical") wall_0) = none ∧
      ∃ r, (sampleFull 99999).find (.agent [65]) = some r := by
  have hn : 1 + 99999 = DRI_MAX_RECORDS := rfl
  generalize 99999 = n at *
  have h : Flooded sampleIdeal samplePeer n (sampleFull n) := flooded _ _ (by omega)
  exact ⟨h.refused hn _ _, _, h.retired⟩

end Samples

end RevocationCall

end Saacp
