/-
**Key lifecycle management**: versions of keys, their rotation, expiry and revocation.

The registry maps a key id and a version to a descriptor, and carries the proof that a descriptor is
stored where it says (`keyed`). Two operations add a version under one lock, and what either does is
said once (`Replaces`). The others read a list of versions under the lock and then write one status
after the other, each under the lock again. Times are doubles of which nothing is assumed.
-/
import Saacp.Errors
import Saacp.Execution
import Saacp.Hashes
import Saacp.Table
import Mathlib.Data.List.Sort

set_option autoImplicit false

open Atomic ByteCodec

namespace Saacp

open List Table

/-! ## Descriptors -/

inductive KeyStatus
  | Active
  | Rotated
  | Revoked
  | Compromised
  deriving DecidableEq

inductive KeyAlgorithm
  | Aes256Gcm
  | Ed25519
  | HmacSha256
  | HkdfSha256
  deriving DecidableEq

def KeyAlgorithm.value : KeyAlgorithm → String
  | .Aes256Gcm => "AES-256-GCM"
  | .Ed25519 => "Ed25519"
  | .HmacSha256 => "HMAC-SHA-256"
  | .HkdfSha256 => "HKDF-SHA-256"

def KeyAlgorithm.key_len : KeyAlgorithm → ℕ
  | .Aes256Gcm => 32
  | .Ed25519 => 32
  | .HmacSha256 => 32
  | .HkdfSha256 => 32

inductive KeyCategory
  | Psk
  | Identity
  | TokenSigning
  | MemoryProtection
  | TrustAnchor
  | DelegatedAuth
  | EpochTraffic
  deriving DecidableEq

structure KeyCrates where
  Double : Type
  add : Double → Double → Double
  sub : Double → Double → Double
  le : Double → Double → Bool
  lt : Double → Double → Bool
  display : Double → String
  debug : Text → String

structure KeyDescriptor (C : KeyCrates) where
  kid : Text
  version : UInt64
  algorithm : KeyAlgorithm
  category : KeyCategory
  key_material : List UInt8
  created_at : C.Double
  expires_at : C.Double
  rotated_at : Option C.Double
  status : KeyStatus
  metadata : List (String × String)

def is_lower_hex (ch : UInt8) : Bool :=
  (48 ≤ ch.toNat && ch.toNat ≤ 57) || (97 ≤ ch.toNat && ch.toNat ≤ 102)

variable {C : KeyCrates}

def KeyDescriptor.new (d : KeyDescriptor C) : Except String (KeyDescriptor C) :=
  if d.kid.length ≠ 32 ∨ d.kid.all is_lower_hex = false then
    .error ("kid must be a 32-character lowercase hex string; got " ++ C.debug d.kid)
  else if d.version < 1 then
    .error ("version must be >= 1; got " ++ toString d.version.toNat)
  else if C.le d.expires_at d.created_at then
    .error "expires_at must be strictly after created_at"
  else if d.key_material.length ≠ d.algorithm.key_len then
    .error ("key_material length " ++ toString d.key_material.length ++ " does not match " ++
      toString d.algorithm.key_len ++ " bytes required by " ++ d.algorithm.value)
  else .ok d

theorem KeyDescriptor.new_eq_ok {d d' : KeyDescriptor C} (h : d.new = .ok d') :
    d' = d ∧ 1 ≤ d.version := by
  rw [KeyDescriptor.new] at h
  split_ifs at h with hkid hversion hexpires hmaterial
  cases h
  exact ⟨rfl, UInt64.not_lt.mp hversion⟩

structure KeyRotationPolicy (C : KeyCrates) where
  max_age_seconds : C.Double
  overlap_seconds : C.Double
  auto_rotate : Bool
  renewal_lead_seconds : C.Double

structure KeyRevocationRecord (C : KeyCrates) where
  kid : Text
  version : ℤ
  revoked_at : C.Double
  reason : Text
  propagated : Bool

/-! ## The registry -/

structure KeyRegistry (C : KeyCrates) where
  table : Table (Text × UInt64) (KeyDescriptor C)
  keyed : ∀ k d, table.get k = some d → (d.kid, d.version) = k

/-- What a rotation is asked to put in the place of the current version. -/
structure RotationRequest (C : KeyCrates) where
  kid : Text
  algorithm : KeyAlgorithm
  key_material : List UInt8
  now : C.Double
  policy : KeyRotationPolicy C

/-- The closure that `rotate_key` and `sweep_and_rotate` pass: the next version. -/
def RotationRequest.build_new (req : RotationRequest C) (current : KeyDescriptor C) :
    Except String (KeyDescriptor C) :=
  KeyDescriptor.new {
    kid := req.kid
    -- the source panics past the largest version; here it is 0 then, which `new` refuses
    version := current.version + 1
    algorithm := req.algorithm
    category := current.category
    key_material := req.key_material
    created_at := req.now
    expires_at := C.add req.now req.policy.max_age_seconds
    rotated_at := none
    status := .Active
    metadata := [("rotated_from_version", toString current.version.toNat),
      ("overlap_expires_at", C.display (C.add req.now req.policy.overlap_seconds))] }

theorem RotationRequest.build_new_eq_ok {req : RotationRequest C} {current d : KeyDescriptor C}
    (h : req.build_new current = .ok d) :
    d.kid = req.kid ∧ d.version = current.version + 1 ∧ 1 ≤ d.version ∧ d.status = .Active := by
  obtain ⟨rfl, hversion⟩ := KeyDescriptor.new_eq_ok h
  exact ⟨rfl, rfl, hversion, rfl⟩

inductive KlmsRotateError
  | NoActiveVersion (message : String)
  | Conflict (message : String)
  | Invalid (message : String)

def KlmsRotateError.into_message : KlmsRotateError → String
  | .NoActiveVersion m => m
  | .Conflict m => m
  | .Invalid m => m

def newest : List UInt64 → Option UInt64
  | [] => none
  | v :: vs =>
    match newest vs with
    | none => some v
    | some w => some (if w ≤ v then v else w)

theorem newest_mem {vs : List UInt64} {v : UInt64} (h : newest vs = some v) : v ∈ vs := by
  induction vs generalizing v with
  | nil => cases h
  | cons u vs ih =>
    rw [newest] at h
    cases hrest : newest vs with
    | none =>
      rw [hrest] at h
      cases h
      exact mem_cons_self
    | some w =>
      rw [hrest] at h
      cases h
      split_ifs
      · exact mem_cons_self
      · exact mem_cons_of_mem u (ih hrest)

namespace KeyRegistry

def get (reg : KeyRegistry C) (kid : Text) (version : UInt64) : Option (KeyDescriptor C) :=
  reg.table.get (kid, version)

theorem get_keyed {reg : KeyRegistry C} {kid : Text} {v : UInt64} {d : KeyDescriptor C}
    (h : reg.get kid v = some d) : d.kid = kid ∧ d.version = v := by
  have hkey := reg.keyed _ _ h
  exact ⟨congrArg Prod.fst hkey, congrArg Prod.snd hkey⟩

variable (reg : KeyRegistry C)

def versions_with (kid : Text) (status : KeyStatus) : List UInt64 :=
  (reg.table.entries.filter fun e => e.1.1 = kid ∧ e.2.status = status).map fun e => e.1.2

def all_for_kid (kid : Text) : List (KeyDescriptor C) :=
  ((reg.table.entries.filter fun e => e.1.1 = kid).map Prod.snd).insertionSort
    fun a b => a.version ≤ b.version

def active_where (p : KeyDescriptor C → Bool) : List (Text × UInt64) :=
  (reg.table.entries.filter fun e => e.2.status = .Active && p e.2).map Prod.fst

def list_expiring (within_seconds now : C.Double) : List (Text × UInt64) :=
  reg.active_where fun d => C.le (C.sub d.expires_at now) within_seconds

def list_stale (now : C.Double) : List (Text × UInt64) :=
  reg.active_where fun d => C.lt d.expires_at now

def get_version (kid : Text) (version : UInt64) : Except String (KeyDescriptor C) :=
  match reg.get kid version with
  | some d => .ok d
  | none => .error ("No descriptor for (kid=" ++ C.debug kid ++ ", version=" ++
      toString version.toNat ++ ")")

def update_status (kid : Text) (version : UInt64) (status : KeyStatus)
    (rotated_at : Option C.Double) : KeyRegistry C where
  table := reg.table.modify (kid, version) fun d => { d with status, rotated_at }
  keyed := Table.forall_modify reg.keyed (reg.keyed (kid, version))

def insert (reg : KeyRegistry C) (d : KeyDescriptor C) : KeyRegistry C where
  table := reg.table.insert (d.kid, d.version) d
  keyed := Table.forall_insert reg.keyed rfl

/-- The next version is built and takes the place of the current one. -/
def replace (req : RotationRequest C) (current : KeyDescriptor C) :
    KeyRegistry C × Except KlmsRotateError (KeyDescriptor C) :=
  match req.build_new current with
  | .error e => (reg, .error (.Invalid e))
  | .ok new_descriptor =>
    if reg.table.contains (req.kid, new_descriptor.version) then
      (reg, .error (.Conflict ("Key (kid=" ++ C.debug req.kid ++ ", version=" ++
        toString new_descriptor.version.toNat ++
        ") is already registered. Use rotate_key to create a new version.")))
    else
      ((reg.update_status req.kid current.version .Rotated (some req.now)).insert new_descriptor,
        .ok new_descriptor)

/-- The version that was found active is in the registry. -/
def atomic_rotate (req : RotationRequest C) :
    KeyRegistry C × Except KlmsRotateError (KeyDescriptor C) :=
  match (newest (reg.versions_with req.kid .Active)).bind (reg.get req.kid) with
  | none => (reg, .error (.NoActiveVersion ("Unknown kid: " ++ C.debug req.kid)))
  | some current => reg.replace req current

def atomic_rotate_if_current (req : RotationRequest C) (expected_version : UInt64) :
    KeyRegistry C × Except KlmsRotateError (Option (KeyDescriptor C)) :=
  match (reg.get req.kid expected_version).filter fun d => d.status = .Active with
  | none => (reg, .ok none)
  | some current =>
    let (reg, result) := reg.replace req current
    (reg, result.map some)

/-! ## What they do -/

section

variable {reg : KeyRegistry C} {req : RotationRequest C} {kid : Text} {v : UInt64}
  {d : KeyDescriptor C}

theorem get_update_status (reg : KeyRegistry C) (kid kid' : Text) (version v : UInt64)
    (status : KeyStatus) (rotated_at : Option C.Double) :
    (reg.update_status kid version status rotated_at).get kid' v = if kid' = kid ∧ v = version then
        (reg.get kid version).map fun d => { d with status, rotated_at }
      else reg.get kid' v := by
  show (reg.table.modify (kid, version) _).get (kid', v) = _
  rw [get_modify]
  simp only [Prod.mk.injEq]
  rfl

theorem get_insert (reg : KeyRegistry C) (d : KeyDescriptor C) (kid : Text) (v : UInt64) :
    (reg.insert d).get kid v = if kid = d.kid ∧ v = d.version then some d else reg.get kid v := by
  show (reg.table.insert (d.kid, d.version) d).get (kid, v) = _
  rw [Table.get_insert]
  simp only [Prod.mk.injEq]
  rfl

theorem mem_all_for_kid : d ∈ reg.all_for_kid kid ↔ reg.get kid d.version = some d := by
  rw [all_for_kid, mem_insertionSort, mem_map]
  constructor
  · rintro ⟨e, he, rfl⟩
    obtain ⟨hmem, hkid⟩ := mem_filter.mp he
    have hget := mem_entries.mp hmem
    have hkey := reg.keyed _ _ hget
    have hkid' := of_decide_eq_true hkid
    rw [get, ← hkid', ← congrArg Prod.fst hkey, hkey]
    exact hget
  · intro h
    exact ⟨((kid, d.version), d), mem_filter.mpr ⟨mem_entries.mpr h, by simp⟩, rfl⟩

theorem mem_versions_with {status : KeyStatus} :
    v ∈ reg.versions_with kid status ↔ ∃ d, reg.get kid v = some d ∧ d.status = status := by
  rw [versions_with, mem_map]
  constructor
  · rintro ⟨e, he, rfl⟩
    obtain ⟨hmem, hboth⟩ := mem_filter.mp he
    obtain ⟨hkid, hstatus⟩ := of_decide_eq_true hboth
    refine ⟨e.2, ?_, hstatus⟩
    rw [← hkid]
    exact mem_entries.mp hmem
  · rintro ⟨d, hget, hstatus⟩
    refine ⟨((kid, v), d), mem_filter.mpr ⟨mem_entries.mpr hget, ?_⟩, rfl⟩
    exact decide_eq_true ⟨rfl, hstatus⟩

theorem mem_active_where {p : KeyDescriptor C → Bool} : (kid, v) ∈ reg.active_where p ↔
      ∃ d, reg.get kid v = some d ∧ d.status = .Active ∧ p d = true := by
  rw [active_where, mem_map]
  constructor
  · rintro ⟨e, he, hkey⟩
    obtain ⟨hmem, hboth⟩ := mem_filter.mp he
    obtain ⟨hstatus, hp⟩ := Bool.and_eq_true_iff.mp hboth
    refine ⟨e.2, ?_, of_decide_eq_true hstatus, hp⟩
    rw [get, ← hkey]
    exact mem_entries.mp hmem
  · rintro ⟨d, hget, hstatus, hp⟩
    refine ⟨((kid, v), d), mem_filter.mpr ⟨mem_entries.mpr hget, ?_⟩, rfl⟩
    rw [hp, Bool.and_true]
    exact decide_eq_true hstatus

structure Replaces (reg : KeyRegistry C) (req : RotationRequest C)
    (current new_descriptor : KeyDescriptor C) (reg' : KeyRegistry C) : Prop where
  stored : reg.get req.kid current.version = some current
  active : current.status = .Active
  built : req.build_new current = .ok new_descriptor
  fresh : reg.get req.kid new_descriptor.version = none
  after : reg' =
    (reg.update_status req.kid current.version .Rotated (some req.now)).insert new_descriptor

theorem replace_cases (req : RotationRequest C) (hstored : reg.get req.kid d.version = some d)
    (hactive : d.status = .Active) :
    (∃ e, reg.replace req d = (reg, .error e)) ∨
      ∃ new_descriptor reg', reg.replace req d = (reg', .ok new_descriptor) ∧
        reg.Replaces req d new_descriptor reg' := by
  rw [replace]
  cases hbuilt : req.build_new d with
  | error e => exact .inl ⟨_, rfl⟩
  | ok new_descriptor =>
    by_cases htaken : reg.table.contains (req.kid, new_descriptor.version) = true
    · simp only [htaken, if_true]
      exact .inl ⟨_, rfl⟩
    · simp only [htaken]
      refine .inr ⟨_, _, rfl, hstored, hactive, hbuilt, ?_, rfl⟩
      rw [Table.contains, Bool.not_eq_true, Option.isSome_eq_false_iff, Option.isNone_iff_eq_none]
        at htaken
      exact htaken

theorem atomic_rotate_cases (reg : KeyRegistry C) (req : RotationRequest C) :
    (∃ e, reg.atomic_rotate req = (reg, .error e)) ∨
      ∃ current new_descriptor reg', reg.atomic_rotate req = (reg', .ok new_descriptor) ∧
        reg.Replaces req current new_descriptor reg' := by
  rw [atomic_rotate]
  cases hnewest : (newest (reg.versions_with req.kid .Active)).bind (reg.get req.kid) with
  | none => exact .inl ⟨_, rfl⟩
  | some current =>
    obtain ⟨v, hv, hget⟩ := Option.bind_eq_some_iff.mp hnewest
    obtain ⟨d, hd, hactive⟩ := mem_versions_with.mp (newest_mem hv)
    obtain rfl : d = current := Option.some.inj (hd.symm.trans hget)
    obtain ⟨-, rfl⟩ := get_keyed hget
    obtain hsame | ⟨new_descriptor, reg', hnew⟩ := replace_cases req hget hactive
    · exact .inl hsame
    · exact .inr ⟨d, new_descriptor, reg', hnew⟩

theorem atomic_rotate_if_current_cases (reg : KeyRegistry C) (req : RotationRequest C)
    (expected_version : UInt64) :
    let answer := reg.atomic_rotate_if_current req expected_version
    (∃ e, answer = (reg, .error e)) ∨ answer = (reg, .ok none) ∨
      ∃ current new_descriptor reg', current.version = expected_version ∧
        answer = (reg', .ok (some new_descriptor)) ∧
        reg.Replaces req current new_descriptor reg' := by
  dsimp only
  rw [atomic_rotate_if_current]
  cases hcurrent : (reg.get req.kid expected_version).filter fun d => d.status = .Active with
  | none => exact .inr (.inl rfl)
  | some current =>
    obtain ⟨hget, hactive⟩ := Option.filter_eq_some_iff.mp hcurrent
    obtain ⟨-, rfl⟩ := get_keyed hget
    obtain ⟨e, hsame⟩ | ⟨new_descriptor, reg', hnew, hreplaces⟩ :=
      replace_cases req hget (of_decide_eq_true hactive)
    · simp only [hsame]
      exact .inl ⟨e, rfl⟩
    · simp only [hnew]
      exact .inr (.inr ⟨current, new_descriptor, reg', rfl, rfl, hreplaces⟩)

namespace Replaces

variable {reg' : KeyRegistry C} {current new_descriptor : KeyDescriptor C}

variable (h : reg.Replaces req current new_descriptor reg')
include h

theorem kid_eq : new_descriptor.kid = req.kid := (RotationRequest.build_new_eq_ok h.built).1

theorem version_eq : new_descriptor.version = current.version + 1 :=
  (RotationRequest.build_new_eq_ok h.built).2.1

theorem toNat_version : new_descriptor.version.toNat = current.version.toNat + 1 := by
  have hpos := UInt64.le_iff_toNat_le.mp (RotationRequest.build_new_eq_ok h.built).2.2.1
  have hlt := current.version.toNat_lt
  rw [h.version_eq, UInt64.toNat_add] at hpos ⊢
  have hone : (1 : UInt64).toNat = 1 := rfl
  rw [hone] at hpos ⊢
  omega

theorem get_after (kid : Text) (v : UInt64) : reg'.get kid v =
      if kid = req.kid ∧ v = new_descriptor.version then some new_descriptor
      else if kid = req.kid ∧ v = current.version then
        some { current with status := .Rotated, rotated_at := some req.now }
      else reg.get kid v := by
  rw [h.after, get_insert, get_update_status, h.kid_eq, h.stored]
  rfl

end Replaces

end

end KeyRegistry

/-! ## Sections -/

/-- What the operations of the registry and the manager do under one lock. -/
inductive KeySection (C : KeyCrates) : Type → Type
  | all_for_kid (kid : Text) : KeySection C (List (KeyDescriptor C))
  | list_expiring (within_seconds now : C.Double) : KeySection C (List (Text × UInt64))
  | list_stale (now : C.Double) : KeySection C (List (Text × UInt64))
  | get_version (kid : Text) (version : UInt64) : KeySection C (Except String (KeyDescriptor C))
  | update_status (kid : Text) (version : UInt64) (status : KeyStatus)
      (rotated_at : Option C.Double) : KeySection C Unit
  | atomic_rotate (req : RotationRequest C) :
      KeySection C (Except KlmsRotateError (KeyDescriptor C))
  | atomic_rotate_if_current (req : RotationRequest C) (expected_version : UInt64) :
      KeySection C (Except KlmsRotateError (Option (KeyDescriptor C)))
  | push_revocation (record : KeyRevocationRecord C) : KeySection C Unit

structure KeyRotation where
  thread : ℕ
  kid : Text
  version : UInt64
  deriving DecidableEq

/-- The manager's registry and log, and the rotations so far. -/
structure KeyRun (C : KeyCrates) where
  registry : KeyRegistry C
  revocation_log : List (KeyRevocationRecord C)
  rotations : List KeyRotation

def KeyRun.exec (tid : ℕ) {γ : Type} : KeySection C γ → MapOrder UInt64 → KeyRun C → KeyRun C × γ
  | .all_for_kid kid, _, s => (s, s.registry.all_for_kid kid)
  | .list_expiring within_seconds now, order, s =>
    (s, order.walk (s.registry.list_expiring within_seconds now))
  | .list_stale now, order, s => (s, order.walk (s.registry.list_stale now))
  | .get_version kid version, _, s => (s, s.registry.get_version kid version)
  | .update_status kid version status rotated_at, _, s =>
    ({ s with registry := s.registry.update_status kid version status rotated_at }, ())
  | .atomic_rotate req, _, s =>
    match s.registry.atomic_rotate req with
    | (registry, .ok d) =>
      ({ s with registry, rotations := s.rotations ++ [⟨tid, req.kid, d.version - 1⟩] }, .ok d)
    | (registry, .error e) => ({ s with registry }, .error e)
  | .atomic_rotate_if_current req expected_version, _, s =>
    match s.registry.atomic_rotate_if_current req expected_version with
    | (registry, .ok (some d)) =>
      ({ s with registry, rotations := s.rotations ++ [⟨tid, req.kid, expected_version⟩] },
        .ok (some d))
    | (registry, r) => ({ s with registry }, r)
  | .push_revocation record, _, s =>
    ({ s with revocation_log := s.revocation_log ++ [record] }, ())

def key_sections (C : KeyCrates) : Semantics (KeySection C) (MapOrder UInt64) (KeyRun C) where
  exec tid _ act order s := s.exec tid act order

/-! ## Calls -/

def rotate_key (req : RotationRequest C) :
    Prog (KeySection C) (Result (KeyDescriptor C)) :=
  .step (.atomic_rotate req) fun result =>
    match result with
    | .ok d => .ret (.ok d)
    | .error (.NoActiveVersion m) => .ret (.error ⟨.KeyRevoked, m⟩)
    | .error e => .ret (.error ⟨.KeyVersionMismatch, e.into_message⟩)

def revoked_status (reason : Text) : KeyStatus :=
  if reason = ascii "compromised" then .Compromised else .Revoked

def revoke_key (kid reason : Text) (now : C.Double) :
    Prog (KeySection C) (Except String (KeyRevocationRecord C)) :=
  .step (.all_for_kid kid) fun all_versions =>
    if all_versions.isEmpty then .ret (.error ("Cannot revoke unknown kid: " ++ C.debug kid))
    else
      (Prog.each (fun d => .update_status kid d.version (revoked_status reason) none)
        all_versions).bind fun _ =>
          .step (.push_revocation ⟨kid, -1, now, reason, false⟩) fun _ =>
            .ret (.ok ⟨kid, -1, now, reason, false⟩)

def expire_stale_keys (now : C.Double) : Prog (KeySection C) ℕ :=
  .step (.list_stale now) fun stale =>
    (Prog.each (fun key => .update_status key.1 key.2 .Rotated (some now)) stale).bind fun _ =>
      .ret stale.length

/-- One turn of `sweep_and_rotate`: the key id, if it was rotated. -/
def sweep_one (policy : KeyRotationPolicy C) (now : C.Double)
    (generate_key : Text × UInt64 → KeyAlgorithm → List UInt8) (key : Text × UInt64) :
    Prog (KeySection C) (Option Text) :=
  .step (.get_version key.1 key.2) fun result =>
    match result with
    | .error _ => .ret none
    | .ok d =>
      .step (.atomic_rotate_if_current
        ⟨key.1, d.algorithm, generate_key key d.algorithm, now, policy⟩ key.2) fun result =>
          match result with
          | .ok (some _) => .ret (some key.1)
          | _ => .ret none

def sweep_and_rotate (policy : KeyRotationPolicy C) (now : C.Double)
    (generate_key : Text × UInt64 → KeyAlgorithm → List UInt8) : Prog (KeySection C) (List Text) :=
  if policy.auto_rotate = false then .ret []
  else
    .step (.list_expiring policy.renewal_lead_seconds now) fun due =>
      (Prog.all (due.map (sweep_one policy now generate_key))).map List.reduceOption

inductive KeyCall (C : KeyCrates)
  | rotate_key (kid : Text) (new_key_material : List UInt8) (algorithm : KeyAlgorithm)
      (now : C.Double)
  | revoke_key (kid reason : Text) (now : C.Double)
  | expire_stale_keys (now : C.Double)
  | sweep_and_rotate (now : C.Double)
      (generate_key : Text × UInt64 → KeyAlgorithm → List UInt8)

inductive KeyAnswer (C : KeyCrates)
  | rotated (result : Result (KeyDescriptor C))
  | revoked (result : Except String (KeyRevocationRecord C))
  | expired (count : ℕ)
  | swept (kids : List Text)

def KeyCall.prog (policy : KeyRotationPolicy C) : KeyCall C → Prog (KeySection C) (KeyAnswer C)
  | .rotate_key kid material algorithm now =>
    (Saacp.rotate_key ⟨kid, algorithm, material, now, policy⟩).map .rotated
  | .revoke_key kid reason now => (Saacp.revoke_key kid reason now).map .revoked
  | .expire_stale_keys now => (Saacp.expire_stale_keys now).map .expired
  | .sweep_and_rotate now generate_key =>
    (Saacp.sweep_and_rotate policy now generate_key).map .swept

structure KeyCalls (C : KeyCrates) where
  policy : KeyRotationPolicy C
  calls : List (KeyCall C)
  start : KeyRegistry C
  ticks : List (Tick (MapOrder UInt64) Empty)

def KeyCalls.run (r : KeyCalls C) :
    Execution (KeySection C) (MapOrder UInt64) (KeyRun C) Empty (KeyAnswer C) where
  sem := key_sections C
  act d := d.elim
  start := ⟨r.calls.map (·.prog r.policy), ⟨r.start, [], []⟩⟩
  ticks := r.ticks

end Saacp
