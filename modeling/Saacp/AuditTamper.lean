/-
**What an editor of the log file can do** without the secret.

An editor can only give record hashes that the log itself has computed, so every record line of an
accepted file is one of the log's own, and it names the record before it on its shard. `Intact`
carries this along the replay: on every shard the file has a prefix of what the log appended. How
much of the log is there is another matter, since anchors are computed without the secret.
-/
import Saacp.AuditRaces
import Saacp.HashChain
import Mathlib.Algebra.BigOperators.Fin
import Mathlib.Algebra.Order.BigOperators.Group.Finset

set_option autoImplicit false

open ByteCodec Atomic

namespace Saacp

open List CanonicalAuditRecord UInt16 Walk

variable {H : Hashes} {S : SerdeJson} {key : List UInt8}

/-! ## What a line says -/

/-- The record whose hash is checked at a line, with the hash the line gives for it. -/
def read_record (S : SerdeJson) (line : S.Line) : Option (Text × CanonicalAuditRecord) := do
  let entry ← S.from_str line
  guard (entry.get ANCHOR_LINE_KEY).isNone
  let (hash, r) ← read_entry S entry
  match record_u64 entry "shard_id" with
  | some shard_id =>
    let shard_seq ← record_u64 entry "shard_seq"
    let anchor_epoch ← record_u64 entry "anchor_epoch"
    return (hash, { r with anchor_epoch := some anchor_epoch, shard_id := some shard_id.toUInt16,
                           shard_seq := some shard_seq, v := some AUDIT_RECORD_VERSION_V2 })
  | none => return (hash, r)

def read_anchor (S : SerdeJson) (line : S.Line) : Option MerkleAnchor := do
  let entry ← S.from_str line
  S.merkle_anchor_from_value (← entry.get ANCHOR_LINE_KEY)

def shard_records (S : SerdeJson) (lines : List S.Line) (i : ShardIdx) :
    List CanonicalAuditRecord :=
  ((lines.filterMap (read_record S)).map Prod.snd).filter fun r =>
    r.shard_id = some (UInt16.ofNat i)

variable {i : ShardIdx} {r : CanonicalAuditRecord} {hash : Text} {w w' : Walk} {e : AuditLogEntry}

theorem mem_shard_records {lines : List S.Line} :
    r ∈ shard_records S lines i ↔ r.shard_id = some (ofNat i) ∧
      ∃ line ∈ lines, ∃ hash, read_record S line = some (hash, r) := by
  simp only [shard_records, mem_filter, mem_map, mem_filterMap, decide_eq_true_eq,
    Prod.exists, exists_eq_right]
  constructor
  · rintro ⟨⟨hash, line, hline, hread⟩, hshard⟩
    exact ⟨hshard, line, hline, hash, hread⟩
  · rintro ⟨hshard, line, hline, hash, hread⟩
    exact ⟨⟨hash, line, hline, hread⟩, hshard⟩

open Option

theorem not_is_record_of_anchor {line : S.Line} {a : MerkleAnchor}
    (h : read_anchor S line = some a) : ¬ is_record S line = true := by
  simp only [read_anchor, bind_eq_bind, bind_eq_some_iff] at h
  obtain ⟨entry, hparse, v, hget, -⟩ := h
  simp [is_record, hparse, hget]

theorem Walk.line_read {line : S.Line} (h : w.line H S key line = some w') :
    (is_record S line = false ∧ read_record S line = none ∧
        (∃ a, read_anchor S line = some a ∧ ∀ i : ShardIdx, a.heads.getD i [] = w.head H i) ∧
        w'.expected_v2 = w.expected_v2 ∧ w'.final_v1_hash = w.final_v1_hash) ∨
      (is_record S line = true ∧ ∃ hash r, read_record S line = some (hash, r) ∧
        constant_time_eq_hex (r.chain_hash H S key) hash = true ∧
        ((∃ i : ShardIdx, r.shard_id = some (ofNat i) ∧ r.prev_hash = w.head H i ∧
            w' = { w with expected_v2 := Function.update w.expected_v2 i (some hash) }) ∨
          r.shard_id = none)) := by
  obtain ⟨entry, hparse, ⟨_, a, hget, ha, hheads, rfl⟩ | ⟨hget, hash, r, hread, hcases⟩⟩ :=
    line_cases h
  · refine .inl ⟨by simp [is_record, hparse, hget], by simp [read_record, hparse, hget],
      ⟨a, ?_, hheads⟩, rfl, rfl⟩
    simp [read_anchor, hparse, hget, ha]
  · refine .inr ⟨by simp [is_record, hparse, hget], hash, ?_⟩
    rcases hcases with ⟨sid, sseq, epoch, hlt, hsid, hseq, hepoch, hprev, hmac, rfl⟩ |
      ⟨hsid, hmac, -⟩
    · refine ⟨_, ?_, hmac, .inl ⟨⟨sid.toNat, hlt⟩, ?_, hprev, rfl⟩⟩
      · simp [read_record, hparse, hget, hread, hsid, hseq, hepoch]
      · exact congrArg some (UInt16.ofNat_uInt64ToNat sid).symm
    · refine ⟨r, ?_, hmac, .inr (read_entry_some hread).2⟩
      simp [read_record, hparse, hget, hread, hsid]

/-! ## What the log has appended -/

/-- The entries a log has appended: on every shard a chain from its genesis. -/
structure AppendedLog (H : Hashes) (S : SerdeJson) (issuer_secret : List UInt8) where
  entries : ShardIdx → List AuditLogEntry
  linked : ∀ i, ∃ last, Linked H S issuer_secret i (shard_genesis_hash H i) (entries i) last

namespace AppendedLog

variable (log : AppendedLog H S key)

def records (i : ShardIdx) : List CanonicalAuditRecord :=
  (log.entries i).map fun e => .from_record e.record

def count : ℕ := ∑ i, (log.entries i).length

/-- No two records of a shard have the same hash, and none has that of the genesis. -/
def CollisionFree (log : AppendedLog H S key) : Prop :=
  ∀ i, HashChain.CollisionFree (CanonicalAuditRecord.chain_hash H S key)
    (shard_genesis_hash H i) (log.records i)

/-- Whoever wrote the line did not know the secret. -/
def Genuine (line : S.Line) : Prop :=
  ∀ hash r, read_record S line = some (hash, r) →
    constant_time_eq_hex (r.chain_hash H S key) hash = true → ∃ i, r ∈ log.records i

def Unforged (content : List S.Line) : Prop :=
  ∀ line ∈ nonempty_lines S content, log.Genuine line

end AppendedLog

theorem Linked.sealed {h h' : Text} {es : List AuditLogEntry} (hlink : Linked H S key i h es h')
    (he : e ∈ es) : e.Sealed H S key i := by
  induction es generalizing h with
  | nil => cases he
  | cons e' es ih =>
    rcases mem_cons.mp he with rfl | he
    · exact hlink.1
    · exact ih hlink.2.2 he

open HashChain

theorem Linked.chained {h h' : Text} {es : List AuditLogEntry} (hlink : Linked H S key i h es h') :
    HashChain.Chained prev_hash (chain_hash H S key) h
      (es.map fun e => .from_record e.record) := by
  induction es generalizing h with
  | nil => exact chained_nil
  | cons e es ih =>
    obtain ⟨hsealed, hprev, hrest⟩ := hlink
    rw [hsealed.hash] at hrest
    exact HashChain.Chained.cons hprev (ih hrest)

theorem AuditLogEntry.Sealed.canonical_shard (he : e.Sealed H S key i) :
    (from_record e.record).shard_id = some (ofNat i) := by
  obtain ⟨n, hn⟩ := he.position
  obtain ⟨m, hm⟩ := he.epoch
  simp only [from_record, AuditRecord.v2_fields, he.shard, hn, hm]

theorem shard_ofNat_inj {j : ShardIdx} (h : ofNat i.val = ofNat j.val) : i = j := by
  have hi : i.val < 16 := i.isLt
  have hj : j.val < 16 := j.isLt
  have hnat := congrArg toNat h
  rw [toNat_ofNat', toNat_ofNat'] at hnat
  apply Fin.ext
  omega

namespace AppendedLog

variable (log : AppendedLog H S key)

theorem shard_of_mem {i : ShardIdx} {r : CanonicalAuditRecord} (hr : r ∈ log.records i) :
    r.shard_id = some (ofNat i) := by
  obtain ⟨e, he, rfl⟩ := mem_map.mp hr
  obtain ⟨_, hlink⟩ := log.linked i
  exact (hlink.sealed he).canonical_shard

theorem chained (i : ShardIdx) : HashChain.Chained prev_hash
      (chain_hash H S key) (shard_genesis_hash H i)
      (log.records i) := by
  obtain ⟨_, hlink⟩ := log.linked i
  exact hlink.chained

end AppendedLog

abbrev shard_head (H : Hashes) (S : SerdeJson) (issuer_secret : List UInt8) (i : ShardIdx)
    (rs : List CanonicalAuditRecord) : Text :=
  HashChain.head (CanonicalAuditRecord.chain_hash H S issuer_secret) (shard_genesis_hash H i) rs

theorem shard_head_hex (i : ShardIdx) (rs : List CanonicalAuditRecord) :
    ∃ digest, shard_head H S key i rs = hexText digest := by
  rcases eq_nil_or_concat' rs with rfl | ⟨rs, r, rfl⟩
  · exact ⟨_, rfl⟩
  · rw [shard_head, head_concat]
    exact ⟨_, rfl⟩

theorem constant_time_eq_hex_iff {a b : Text} :
    constant_time_eq_hex a b = true ↔ ∃ digest, hexDecode a = some digest ∧
      hexDecode b = some digest := by
  unfold constant_time_eq_hex
  rcases hexDecode a with _ | d
  · simp
  · rcases hexDecode b with _ | d'
    · simp
    · simp only [beq_iff_eq, some.injEq]
      constructor
      · rintro rfl
        exact ⟨d, rfl, rfl⟩
      · rintro ⟨digest, rfl, h⟩
        exact h.symm

theorem eq_of_constant_time_eq_hex {a b : Text} (h : constant_time_eq_hex a b = true)
    (ha : ∃ digest, a = hexText digest) (hb : ∃ digest, b = hexText digest) : a = b := by
  obtain ⟨d, rfl⟩ := ha
  obtain ⟨d', rfl⟩ := hb
  obtain ⟨digest, hd, hd'⟩ := constant_time_eq_hex_iff.mp h
  rw [hexDecode_hexText] at hd hd'
  rw [some.inj hd, some.inj hd']

/-! ## The log of a run -/

/-- A run that also keeps the entries sealed on each shard. -/
abbrev Recorded (S : SerdeJson) : Type := AuditRun S × (ShardIdx → List AuditLogEntry)

def record_entry {β : Type} (act : AuditSection β) (answer : β)
    (entries : ShardIdx → List AuditLogEntry) : ShardIdx → List AuditLogEntry :=
  match act with
  | .seal shard_idx _ _ _ => Function.update entries shard_idx (entries shard_idx ++ [answer])
  | _ => entries

def recorded_sections (H : Hashes) (issuer_secret : List UInt8) :
    Semantics AuditSection F64 (Recorded S) where
  exec tid _ act now s :=
    (((s.1.exec H issuer_secret tid act now).1,
      record_entry act (s.1.exec H issuer_secret tid act now).2 s.2),
      (s.1.exec H issuer_secret tid act now).2)

def recorded_run (H : Hashes) (S : SerdeJson) (issuer_secret : List UInt8)
    (appenders : List Appender) (ticks : List AuditTick) :
    Pool AuditSection (Recorded S) (List Unit) :=
  (Pool.mk (appenders.map Appender.prog) (AuditRun.fresh H S, fun _ => [])).run
    (recorded_sections H issuer_secret) (fun d s => (s.1.work H d, s.2)) ticks

theorem recorded_run_fst (appenders : List Appender) (ticks : List AuditTick) :
    (recorded_run H S key appenders ticks).state.1 =
      (audit_run H key appenders (.fresh H S) ticks).state := by
  have hproject := Pool.run_project (audit_sections H key)
    (recorded_sections H key) (AuditRun.work H) (fun d s => (s.1.work H d, s.2)) Prod.fst
    (fun _ _ _ _ _ => rfl) (fun _ _ => rfl)
    ⟨appenders.map Appender.prog, ((AuditRun.fresh H S, fun _ => []) : Recorded S)⟩ ticks
  exact (congrArg Pool.state hproject).symm

theorem recorded_section_linked (tid : ℕ) (β : Type) (act : AuditSection β) (now : F64)
    (s : Recorded S)
    (h : ∀ i, Linked H S key i (shard_genesis_hash H i) (s.2 i) (s.1.log.shards i).last_hash)
    (i : ShardIdx) :
    Linked H S key i (shard_genesis_hash H i) (((recorded_sections H key).exec tid act now s).1.2 i)
      (((recorded_sections H key).exec tid act now s).1.1.log.shards i).last_hash := by
  cases act with
  | load_epoch | reserve | publish | load_count | send_flush => exact h i
  | send entry event_count =>
    have hshards : (s.1.log.enqueue_wal_line entry event_count).shards = s.1.log.shards := by
      unfold ImmutableAuditLog.enqueue_wal_line
      split <;> rfl
    show Linked H S key i _ (s.2 i)
      ((s.1.log.enqueue_wal_line entry event_count).shards i).last_hash
    rw [hshards]
    exact h i
  | «seal» shard_idx ev epoch seq =>
    simp only [recorded_sections, AuditRun.exec, record_entry, ImmutableAuditLog.advance]
    by_cases hi : i = shard_idx
    · subst hi
      rw [Function.update_self, Function.update_self]
      exact (h i).concat (sealed_entry_sealed H key s.1.log i ev epoch seq now) rfl
    · rw [Function.update_of_ne hi, Function.update_of_ne hi]
      exact h i

/-- **Every run of the log yields chains.** -/
theorem recorded_run_linked (appenders : List Appender) (ticks : List AuditTick)
    (i : ShardIdx) :
    Linked H S key i (shard_genesis_hash H i) ((recorded_run H S key appenders ticks).state.2 i)
      ((recorded_run H S key appenders ticks).state.1.log.shards i).last_hash := by
  refine Pool.run_inv (I := fun s : Recorded S => ∀ i, Linked H S key i
    (shard_genesis_hash H i) (s.2 i) (s.1.log.shards i).last_hash) ?_ ?_ ?_ ticks
    (Pool.respects_any _ _ _ ticks) i
  · intro tid β act now s _ h
    exact recorded_section_linked tid β act now s h
  · intro d s _ h i
    show Linked H S key i _ (s.2 i) ((s.1.log.work H d.1 d.2).shards i).last_hash
    rw [(ImmutableAuditLog.work_chains s.1.log d.1 d.2).1]
    exact h i
  · intro i
    rfl

def AppendedLog.of_run (H : Hashes) (S : SerdeJson) (issuer_secret : List UInt8)
    (appenders : List Appender) (ticks : List AuditTick) :
    AppendedLog H S issuer_secret where
  entries := (recorded_run H S issuer_secret appenders ticks).state.2
  linked i := ⟨_, recorded_run_linked appenders ticks i⟩

/-! ## Along the replay -/

theorem shard_records_append (lines rest : List S.Line) (i : ShardIdx) :
    shard_records S (lines ++ rest) i = shard_records S lines i ++ shard_records S rest i := by
  simp [shard_records, filterMap_append]

theorem shard_records_concat_none {lines : List S.Line} {line : S.Line} (i : ShardIdx)
    (h : read_record S line = none) :
    shard_records S (lines ++ [line]) i = shard_records S lines i := by
  rw [shard_records_append]
  simp [shard_records, h]

theorem shard_records_concat (lines : List S.Line) {line : S.Line}
    (h : read_record S line = some (hash, r))
    (hr : r.shard_id = some (ofNat i)) (j : ShardIdx) :
    shard_records S (lines ++ [line]) j =
      if j = i then shard_records S lines j ++ [r] else shard_records S lines j := by
  have hone : shard_records S [line] j = [r].filter fun r => r.shard_id = some (ofNat j) := by
    simp [shard_records, h]
  rw [shard_records_append, hone]
  split
  · rename_i hji
    subst hji
    simp [hr]
  · rename_i hji
    have hne : r.shard_id ≠ some (ofNat j) := by
      rw [hr]
      intro heq
      exact hji (shard_ofNat_inj (some.inj heq)).symm
    simp [hne]

/-- **The invariant of the replay**: on every shard the lines so far have a prefix of what was
appended, which ends in the head of the walk. -/
structure Intact (log : AppendedLog H S key) (w : Walk) (lines : List S.Line) : Prop where
  no_v1 : w.final_v1_hash = none
  kept : ∀ i, shard_records S lines i <+: log.records i
  heads : ∀ i, constant_time_eq_hex
    (shard_head H S key i (shard_records S lines i)) (w.head H i) = true
  counted : lines.countP (is_record S) = ∑ i, (shard_records S lines i).length

variable {log : AppendedLog H S key}

theorem intact_start : Intact log start [] := by
  refine ⟨rfl, fun _ => nil_prefix, fun i => constant_time_eq_hex_self _, ?_⟩
  simp [shard_records]

theorem Intact.concat (hfree : log.CollisionFree) {lines : List S.Line} (h : Intact log w lines)
    (hr : r ∈ log.records i) (hprev : r.prev_hash = w.head H i) :
    shard_records S lines i ++ [r] <+: log.records i := by
  apply concat_prefix (log.chained i) (hfree i) (h.kept i) hr
  -- what the record names is a digest in lower case, and so the head itself
  obtain ⟨before, hbefore⟩ := exists_prefix_of_mem hr
  have hnames := log.chained i before r hbefore
  have hsame := h.heads i
  rw [← hprev] at hsame
  apply (eq_of_constant_time_eq_hex hsame (shard_head_hex i _) _).symm
  rw [hnames]
  exact shard_head_hex i before

theorem Intact.skip {lines : List S.Line} {line : S.Line} (h : Intact log w lines)
    (hrec : is_record S line = false) (hread : read_record S line = none)
    (hv2 : w'.expected_v2 = w.expected_v2) (hv1 : w'.final_v1_hash = w.final_v1_hash) :
    Intact log w' (lines ++ [line]) := by
  have hhead : ∀ i, w'.head H i = w.head H i := by
    intro i
    unfold Walk.head
    rw [hv2, hv1]
  constructor
  · rw [hv1]
    exact h.no_v1
  · intro i
    rw [shard_records_concat_none i hread]
    exact h.kept i
  · intro i
    rw [shard_records_concat_none i hread, hhead]
    exact h.heads i
  · simp only [shard_records_concat_none _ hread]
    rw [countP_append, countP_singleton, hrec, h.counted]
    simp

variable (hfree : log.CollisionFree)
include hfree

theorem Intact.record {lines : List S.Line} {line : S.Line} (h : Intact log w lines)
    (hrec : is_record S line = true) (hread : read_record S line = some (hash, r))
    (hmac : constant_time_eq_hex (r.chain_hash H S key) hash = true) (hr : r ∈ log.records i)
    (hprev : r.prev_hash = w.head H i) :
    Intact log { w with expected_v2 := Function.update w.expected_v2 i (some hash) }
      (lines ++ [line]) := by
  have hrecords := shard_records_concat lines hread (log.shard_of_mem hr)
  constructor
  · exact h.no_v1
  · intro k
    rw [hrecords k]
    split
    · rename_i hk
      subst hk
      exact h.concat hfree hr hprev
    · exact h.kept k
  · -- the hash on the line need not be spelt as the log spells it
    intro k
    rw [hrecords k]
    by_cases hk : k = i
    · subst hk
      rw [if_pos rfl, shard_head, head_concat]
      simpa [Walk.head] using hmac
    · rw [if_neg hk]
      simpa [Walk.head, Function.update_of_ne hk] using h.heads k
  · have hlength : ∀ k, (shard_records S (lines ++ [line]) k).length =
        (shard_records S lines k).length + if k = i then 1 else 0 := by
      intro k
      rw [hrecords k]
      split
      · exact length_append
      · rfl
    simp only [hlength]
    rw [countP_append, countP_singleton, hrec, h.counted, Finset.sum_add_distrib]
    simp

theorem Intact.line {lines : List S.Line}
    {line : S.Line} (h : Intact log w lines) (hline : w.line H S key line = some w')
    (hmine : log.Genuine line) : Intact log w' (lines ++ [line]) := by
  rcases line_read hline with ⟨hrec, hread, -, hv2, hv1⟩ | ⟨hrec, hash, r, hread, hmac, hcase⟩
  · exact h.skip hrec hread hv2 hv1
  · obtain ⟨j, hj⟩ := hmine hash r hread hmac
    have hshard := log.shard_of_mem hj
    rcases hcase with ⟨i, hi, hprev, rfl⟩ | hnone
    · obtain rfl : i = j := shard_ofNat_inj (some.inj (hi.symm.trans hshard))
      exact h.record hfree hrec hread hmac hj hprev
    · -- a record of the first version claims no shard, and every record of the log does
      rw [hnone] at hshard
      cases hshard

theorem intact_of_lines {lines : List S.Line} (hmine : ∀ line ∈ lines, log.Genuine line)
    (hlines : lines.foldlM (line H S key) start = some w) : Intact log w lines := by
  refine foldlM_line_inv (I := fun done w => Intact log w done) intact_start ?_ hlines
  intro done line hmem w w' hdone hline
  exact hdone.line hfree hline (hmine line hmem)

theorem intact_of_verify {content : List S.Line} (hmine : log.Unforged content)
    {sentinel : Option UInt64} {global_seq : UInt64}
    (h : verify_chain_disk H S key ⟨some content, sentinel⟩ global_seq = true) :
    ∃ w, Intact log w (nonempty_lines S content) := by
  obtain ⟨hreplay, -⟩ := (verify_chain_disk_iff content sentinel global_seq).mp h
  obtain ⟨w, hw⟩ := isSome_iff_exists.mp hreplay
  exact ⟨w, intact_of_lines hfree hmine hw⟩

omit hfree

/-- **Tamper evidence.** In every file that verifies, the records claiming a shard are a prefix of
those the log appended to it. With the honest count in the sentinel the file has every record if
and only if that many of its lines parse without the key of an anchor. -/
theorem chain_tamper_evidence (log : AppendedLog H S key) (hfree : log.CollisionFree)
    (content : List S.Line) (hmine : log.Unforged content) (sentinel : Option UInt64)
    (global_seq : UInt64)
    (hverify : verify_chain_disk H S key ⟨some content, sentinel⟩ global_seq = true) :
    (∀ i, shard_records S (nonempty_lines S content) i <+: log.records i) ∧
      ((∀ n, sentinel = some n → n.toNat = log.count →
          ∀ i, shard_records S (nonempty_lines S content) i = log.records i) ↔
        ∀ n, sentinel = some n → n.toNat = log.count →
          n.toNat ≤ (nonempty_lines S content).countP (is_record S)) := by
  obtain ⟨w, hintact⟩ := intact_of_verify hfree hmine hverify
  have hlength : ∀ i, (log.records i).length = (log.entries i).length := fun i => length_map _
  refine ⟨hintact.kept, ?_⟩
  constructor
  · intro hall n hn hcount
    rw [hcount, hintact.counted]
    apply le_of_eq
    unfold AppendedLog.count
    apply Finset.sum_congr rfl
    intro i _
    rw [hall n hn hcount i, hlength i]
  · intro hmany n hn hcount i
    have hle : ∀ j ∈ Finset.univ, (shard_records S (nonempty_lines S content) j).length ≤
        (log.entries j).length := by
      intro j _
      rw [← hlength j]
      exact (hintact.kept j).length_le
    have hsum : ∑ j, (shard_records S (nonempty_lines S content) j).length =
        ∑ j, (log.entries j).length := by
      apply le_antisymm (Finset.sum_le_sum hle)
      have := hmany n hn hcount
      rwa [hcount, hintact.counted] at this
    apply (hintact.kept i).eq_of_length
    rw [hlength i]
    exact (Finset.sum_eq_sum_iff_of_le hle).mp hsum i (Finset.mem_univ i)

/-! ### The first records of some shards

For files on fixed inputs: what can be said about them without computing a hash. -/

section First

variable (H S key) (ev : AuditEvent) (now : F64)

def first_entry (i : ShardIdx) : AuditLogEntry :=
  (ImmutableAuditLog.new H S ⟨none, none⟩).sealed_entry H key i ev 0 0 now

variable (shards : List ShardIdx)

def first_head (i : ShardIdx) : Text :=
  if i ∈ shards then (first_entry H S key ev now i).chain_hash
  else shard_genesis_hash H i

def first_anchor : MerkleAnchor where
  epoch := 1
  heads := List.ofFn (first_head H S key ev now shards)
  root := heads_root H (List.ofFn (first_head H S key ev now shards))
  prev_root := ANCHOR_GENESIS_ROOT
  event_count := 2
  timestamp := now

def first_walk : Walk :=
  { Walk.start with
    expected_v2 := fun i =>
      if i ∈ shards then some (first_entry H S key ev now i).chain_hash else none }

variable {H S key ev now}

theorem first_entry_sealed (i : ShardIdx) : (first_entry H S key ev now i).Sealed H S key i :=
  sealed_entry_sealed H key _ i ev 0 0 now

theorem head_first_walk : (first_walk H S key ev now shards).head H =
      first_head H S key ev now shards := by
  funext i
  unfold Walk.head first_walk first_head
  dsimp only
  split <;> rfl

theorem replay_first (hS : S.Lawful) (shards : List ShardIdx) (hnodup : shards.Nodup) :
    replay H S key (shards.map fun i => (first_entry H S key ev now i).line S) =
      some (first_walk H S key ev now shards) := by
  induction shards using reverseRecOn with
  | nil => simp [replay, nonempty_lines, first_walk, start]
  | append_singleton shards i ih =>
    obtain ⟨hrest, -, hnew⟩ := nodup_append.mp hnodup
    have hi : i ∉ shards := fun hmem => hnew i hmem i (mem_singleton_self i) rfl
    have hprev : (first_entry H S key ev now i).record.prev_hash =
        (first_walk H S key ev now shards).head H i := by
      rw [head_first_walk, first_head, if_neg hi]
      rfl
    rw [map_append, map_singleton, replay_append (entry_line_ne_nil hS _) (ih hrest),
      line_entry hS (first_entry_sealed i) hprev]
    congr 2
    funext j
    by_cases hj : j = i
    · subst hj
      simp
    · simp [first_walk, hj]

theorem verify_first_anchored (hS : S.Lawful) (shards : List ShardIdx) (hnodup : shards.Nodup)
    (global_seq : UInt64) :
    verify_chain_disk H S key ⟨some ((shards.map fun i => (first_entry H S key ev now i).line S) ++
        [S.anchor_line (first_anchor H S key ev now shards)]), none⟩ global_seq =
        true := by
  apply (verify_chain_disk_iff _ none global_seq).mpr
  refine ⟨?_, nofun⟩
  have hheads : (first_anchor H S key ev now shards).heads =
      ofFn ((first_walk H S key ev now shards).head H) := by
    rw [head_first_walk]
    rfl
  have hroot : (first_anchor H S key ev now shards).root =
      heads_root H (first_anchor H S key ev now shards).heads := by
    simp only [first_anchor]
  have hprev : (first_anchor H S key ev now shards).prev_root =
      (first_walk H S key ev now shards).expected_prev_root := by
    simp only [first_anchor, first_walk, start]
  rw [replay_append (anchor_line_ne_nil hS _) (replay_first hS shards hnodup),
    line_anchor hS hheads hroot hprev]
  rfl

end First

/-! ### One record on each of two shards -/

def sampleEntry (S : SerdeJson) (i : ShardIdx) : AuditLogEntry :=
  first_entry sampleHashes S sampleIssuerSecret
    ⟨ascii "agent-a", ascii "agent-b", ascii "sig", ascii "ping", ascii "tp"⟩
    (integral_f64 1700000000) i

def sampleAnchor (S : SerdeJson) (shards : List ShardIdx) : MerkleAnchor :=
  first_anchor sampleHashes S sampleIssuerSecret
    ⟨ascii "agent-a", ascii "agent-b", ascii "sig", ascii "ping", ascii "tp"⟩
    (integral_f64 1700000000) shards

theorem linked_first_entry (H : Hashes) (key : List UInt8) (ev : AuditEvent) (now : F64)
    (i : ShardIdx) :
    Linked H S key i (shard_genesis_hash H i) [first_entry H S key ev now i]
      (first_entry H S key ev now i).chain_hash :=
  ⟨first_entry_sealed i, rfl, rfl⟩

def sampleLog (S : SerdeJson) : AppendedLog sampleHashes S sampleIssuerSecret where
  entries i := if i.val < 2 then [sampleEntry S i] else []
  linked i := by
    split
    · exact ⟨_, linked_first_entry sampleHashes sampleIssuerSecret _ _ i⟩
    · exact ⟨_, rfl⟩

theorem collisionFree_of_singles (hone : ∀ i, ∃ e, ∀ e' ∈ log.entries i, e' = e)
    (hseed : ∀ i, ∀ e ∈ log.entries i, e.chain_hash ≠ shard_genesis_hash H i) :
    log.CollisionFree := by
  intro i
  constructor
  · intro r hr
    obtain ⟨e, he, rfl⟩ := mem_map.mp hr
    obtain ⟨_, hlink⟩ := log.linked i
    rw [← (hlink.sealed he).hash]
    exact hseed i e he
  · intro r hr r' hr' _
    obtain ⟨e, he⟩ := hone i
    obtain ⟨e₁, he₁, rfl⟩ := mem_map.mp hr
    obtain ⟨e₂, he₂, rfl⟩ := mem_map.mp hr'
    rw [he e₁ he₁, he e₂ he₂]

theorem AuditLogEntry.Sealed.read_record (hS : S.Lawful) (he : e.Sealed H S key i) :
    read_record S (e.line S) = some (e.chain_hash, .from_record e.record) := by
  obtain ⟨shard_seq, epoch, hshard, hseq, hepoch, -, hsame⟩ := he.fields
  simp only [Saacp.read_record, he.from_str hS, bind_eq_bind, bind_some,
    get_anchor_entry_value, read_entry_entry_value, hshard, hseq, hepoch, hsame]
  rfl

theorem unforged_of_lines (hS : S.Lawful) {content : List S.Line}
    (h : ∀ line ∈ content, (∃ i, ∃ e ∈ log.entries i, line = e.line S) ∨
      read_record S line = none) : log.Unforged content := by
  intro line hline hash r hread _
  rcases h line (mem_of_mem_filter hline) with ⟨i, e, he, rfl⟩ | hnone
  · obtain ⟨_, hlink⟩ := log.linked i
    rw [(hlink.sealed he).read_record hS] at hread
    obtain ⟨-, rfl⟩ := Prod.mk.inj (some.inj hread)
    exact ⟨i, mem_map_of_mem he⟩
  · rw [hnone] at hread
    cases hread

theorem mem_sampleLog : e ∈ (sampleLog S).entries i ↔ i.val < 2 ∧ e = sampleEntry S i := by
  simp only [sampleLog]
  by_cases hi : i.val < 2
  · simp [hi]
  · simp [hi]

theorem sampleLog_collisionFree (S : SerdeJson) (hseed : ∀ i : ShardIdx, i.val < 2 →
      (sampleEntry S i).chain_hash ≠ shard_genesis_hash sampleHashes i) :
    (sampleLog S).CollisionFree := by
  apply collisionFree_of_singles
  · intro i
    exact ⟨sampleEntry S i, fun e he => (mem_sampleLog.mp he).2⟩
  · intro i e he
    obtain ⟨hi, rfl⟩ := mem_sampleLog.mp he
    exact hseed i hi

theorem sampleJson_collisionFree : (sampleLog sampleJson).CollisionFree :=
  sampleLog_collisionFree sampleJson (by decide +kernel)

def sampleFile (S : SerdeJson) : List S.Line :=
  [(sampleEntry S 0).line S, (sampleEntry S 1).line S]

theorem of_mem_sampleFile {line : S.Line} (h : line ∈ sampleFile S) :
    ∃ i, ∃ e ∈ (sampleLog S).entries i, line = e.line S := by
  rcases mem_pair.mp h with rfl | rfl
  · exact ⟨0, _, mem_sampleLog.mpr ⟨by decide, rfl⟩, rfl⟩
  · exact ⟨1, _, mem_sampleLog.mpr ⟨by decide, rfl⟩, rfl⟩

theorem chain_tamper_evidence_sample : verify_chain_disk sampleHashes sampleJson sampleIssuerSecret
        ⟨some (sampleFile sampleJson), some 2⟩ 2 = true ∧
      ∀ i, shard_records sampleJson (nonempty_lines sampleJson (sampleFile sampleJson)) i =
        (sampleLog sampleJson).records i := by
  have hverify : verify_chain_disk sampleHashes sampleJson sampleIssuerSecret
      ⟨some (sampleFile sampleJson), some 2⟩ 2 = true := by decide +kernel
  have hmine : (sampleLog sampleJson).Unforged (sampleFile sampleJson) :=
    unforged_of_lines sampleJson_lawful fun _ hline => .inl (of_mem_sampleFile hline)
  refine ⟨hverify, ?_⟩
  refine (chain_tamper_evidence (sampleLog sampleJson) sampleJson_collisionFree
    (sampleFile sampleJson) hmine (some 2) 2 hverify).2.mpr ?_ 2 rfl (by decide +kernel)
  rintro n ⟨⟩ -
  decide +kernel

/-- A line of the sample, or an anchor whose key is spelt with an escape. -/
inductive EscapedLine
  | value (j : Json)
  | anchor (a : MerkleAnchor)
  | entry (record : EscapedLine) (chain_hash : Text)

def EscapedLine.as_bytes : EscapedLine → List UInt8
  | value j => j.compact integral_text
  | anchor a =>
    ascii "\x7b\"\\u0061nchor\":" ++ a.to_value.compact integral_text ++ ascii "\x7d"
  | entry record h =>
    ascii "\x7b\"record\":" ++ record.as_bytes ++ ascii ",\"chain_hash\":\"" ++ h ++ ascii "\"\x7d"

def EscapedLine.parse : EscapedLine → Option Json
  | value j => some j
  | anchor a => some (.obj [(ANCHOR_LINE_KEY, a.to_value)])
  | entry record h => record.parse.map fun j => .obj [("chain_hash", .str h), ("record", j)]

/-- `serde_json` on these lines: in a key, an escape stands for its character. -/
def escapingJson : SerdeJson where
  Line := EscapedLine
  as_bytes := EscapedLine.as_bytes
  to_string := .value
  format_entry := .entry
  from_str := EscapedLine.parse
  f64_of_u64 := sampleJson.f64_of_u64
  f64_of_i64 := sampleJson.f64_of_i64

theorem escapingJson_lawful : escapingJson.Lawful where
  as_bytes_format_entry _ _ := rfl
  from_entry_line _ _ := rfl
  from_anchor_line _ := rfl
  anchor_line_marked := sampleJson_lawful.anchor_line_marked

/-- The record of shard `1` is replaced by an anchor over what is left. -/
def escapedFile : List EscapedLine :=
  [(sampleEntry escapingJson 0).line escapingJson, .anchor (sampleAnchor escapingJson [0])]

/-- The line of the anchor does not contain the text `"anchor"` and counts as a record: with the
honest count in the sentinel the file verifies, and a record is missing. -/
theorem escaped_anchor_counts :
    (sampleLog escapingJson).CollisionFree ∧ (sampleLog escapingJson).Unforged escapedFile ∧
      (sampleLog escapingJson).count = 2 ∧
      verify_chain_disk sampleHashes escapingJson sampleIssuerSecret ⟨some escapedFile, some 2⟩ 2 =
        true ∧
      (shard_records escapingJson (nonempty_lines escapingJson escapedFile) 1).length = 0 ∧
      ((sampleLog escapingJson).records 1).length = 1 := by
  refine ⟨sampleLog_collisionFree escapingJson (by decide +kernel), ?_, by decide +kernel,
    by decide +kernel, by decide +kernel, by decide +kernel⟩
  apply unforged_of_lines escapingJson_lawful
  intro line hline
  rcases mem_pair.mp hline with rfl | rfl
  · exact .inl ⟨0, _, mem_sampleLog.mpr ⟨by decide, rfl⟩, rfl⟩
  · exact .inr rfl

/-! ## Anchors -/

structure AnchoredFile (log : AppendedLog H S key) where
  before : List S.Line
  anchor : MerkleAnchor
  written : ∀ line ∈ before, (∃ i, ∃ e ∈ log.entries i, line = e.line S) ∨
    ∃ a, line = S.anchor_line a

namespace AnchoredFile

variable (file : AnchoredFile log)

def lines : List S.Line := file.before ++ [S.anchor_line file.anchor]

/-- The entry of a shard that was appended last, of those in the file. -/
def Newest (i : ShardIdx) (e : AuditLogEntry) : Prop :=
  ∃ earlier later, log.entries i = earlier ++ e :: later ∧ e.line S ∈ file.before ∧
    ∀ e' ∈ later, e'.line S ∉ file.before

end AnchoredFile

theorem exists_last {α : Type} {P : α → Prop} {l : List α} {x : α} (hx : x ∈ l) (hP : P x) :
    ∃ earlier y later, l = earlier ++ y :: later ∧ P y ∧ (∀ z ∈ later, ¬ P z) ∧
      x ∈ earlier ++ [y] := by
  induction l using reverseRecOn with
  | nil => cases hx
  | append_singleton l z ih =>
    by_cases hz : P z
    · exact ⟨l, z, [], rfl, hz, fun _ => nofun, hx⟩
    · have hxl : x ∈ l := by
        rcases mem_append.mp hx with hxl | hxz
        · exact hxl
        · rw [mem_singleton.mp hxz] at hP
          exact absurd hP hz
      obtain ⟨earlier, y, later, rfl, hy, hlater, hmem⟩ := ih hxl
      refine ⟨earlier, y, later ++ [z], by simp, hy, ?_, hmem⟩
      exact forall_mem_append.mpr ⟨hlater, forall_mem_singleton.mpr hz⟩

/-- **Anchors and what is kept.** A file that verifies without a sentinel has every record that
stood before the last anchor of the log's own file if and only if it has the newest of them on
every shard. The anchors in it, or their absence, make no difference. -/
theorem anchored_records_kept (log : AppendedLog H S key) (hfree : log.CollisionFree)
    (file : AnchoredFile log) (edited : List S.Line) (hmine : log.Unforged edited)
    (global_seq : UInt64)
    (hverify : verify_chain_disk H S key ⟨some edited, none⟩ global_seq = true) :
    (∀ i, ∀ e ∈ log.entries i, e.line S ∈ file.before →
        .from_record e.record ∈ shard_records S (nonempty_lines S edited) i) ↔
      ∀ i e, file.Newest i e →
        .from_record e.record ∈ shard_records S (nonempty_lines S edited) i := by
  obtain ⟨w, hintact⟩ := intact_of_verify hfree hmine hverify
  constructor
  · rintro hall i e ⟨earlier, later, hsplit, hline, -⟩
    exact hall i e (by rw [hsplit]; simp) hline
  · intro hnewest i e he hline
    obtain ⟨earlier, last, later, hsplit, hlast, hlater, hmem⟩ :=
      exists_last (P := fun e => e.line S ∈ file.before) he hline
    have hkept := hnewest i last ⟨earlier, later, hsplit, hlast, hlater⟩
    -- what is kept has no gaps, so everything up to the newest record is there
    have hprefix : (earlier.map fun e => from_record e.record) ++
        [.from_record last.record] <+: log.records i := by
      refine ⟨later.map fun e => .from_record e.record, ?_⟩
      simp [AppendedLog.records, hsplit]
    have hall := prefix_of_mem (log.chained i) (hfree i) (hintact.kept i) hkept hprefix
    apply hall.subset
    have := mem_map_of_mem (f := fun e => from_record e.record) hmem
    rwa [map_append] at this

def sampleAnchoredFile : AnchoredFile (sampleLog sampleJson) where
  before := sampleFile sampleJson
  anchor := sampleAnchor sampleJson [0, 1]
  written _ hline := .inl (of_mem_sampleFile hline)

def reorderedFile : List sampleJson.Line :=
  [(sampleEntry sampleJson 1).line sampleJson, (sampleEntry sampleJson 0).line sampleJson]

theorem reordered_records_kept :
    verify_chain_disk sampleHashes sampleJson sampleIssuerSecret ⟨some reorderedFile, none⟩ 0 =
        true ∧
      ∀ i, ∀ e ∈ (sampleLog sampleJson).entries i, e.line sampleJson ∈ sampleAnchoredFile.before →
        .from_record e.record ∈
          shard_records sampleJson (nonempty_lines sampleJson reorderedFile) i := by
  have hverify : verify_chain_disk sampleHashes sampleJson sampleIssuerSecret
      ⟨some reorderedFile, none⟩ 0 = true := by
    apply (verify_chain_disk_iff _ none 0).mpr
    refine ⟨?_, nofun⟩
    rw [show replay _ _ _ reorderedFile = _ from replay_first sampleJson_lawful [1, 0] (by decide)]
    rfl
  refine ⟨hverify, ?_⟩
  have hmine : (sampleLog sampleJson).Unforged reorderedFile :=
    unforged_of_lines sampleJson_lawful fun _ hline =>
      .inl (of_mem_sampleFile (mem_reverse.mpr hline))
  apply (anchored_records_kept (sampleLog sampleJson) sampleJson_collisionFree sampleAnchoredFile
    reorderedFile hmine 0 hverify).mpr
  rintro i e ⟨earlier, later, hsplit, -⟩
  obtain ⟨hi, rfl⟩ : i.val < 2 ∧ e = sampleEntry sampleJson i :=
    mem_sampleLog.mp (by rw [hsplit]; simp)
  have hline : (sampleEntry sampleJson i).line sampleJson ∈ reorderedFile := by
    rcases (by omega : i.val = 0 ∨ i.val = 1) with h | h
    · obtain rfl : i = 0 := Fin.ext h
      exact mem_pair.mpr (.inr rfl)
    · obtain rfl : i = 1 := Fin.ext h
      exact mem_pair.mpr (.inl rfl)
  refine mem_shard_records.mpr ⟨(first_entry_sealed i).canonical_shard, _,
    mem_filter.mpr ⟨hline, ?_⟩, _, (first_entry_sealed i).read_record sampleJson_lawful⟩
  simpa using entry_line_ne_nil sampleJson_lawful (sampleEntry sampleJson i)

/-- One shard dropped, and an anchor over what is left, which anybody can compute. -/
def droppedFile : List sampleJson.Line :=
  [(sampleEntry sampleJson 1).line sampleJson, sampleJson.anchor_line (sampleAnchor sampleJson [1])]

/-- The log's own file verifies, and so does the one without the records of shard `0`. -/
theorem dropped_shard_verifies :
    (sampleLog sampleJson).CollisionFree ∧ (sampleLog sampleJson).Unforged droppedFile ∧
      verify_chain_disk sampleHashes sampleJson sampleIssuerSecret
        ⟨some sampleAnchoredFile.lines, none⟩ 0 = true ∧
      verify_chain_disk sampleHashes sampleJson sampleIssuerSecret ⟨some droppedFile, none⟩ 0 =
        true ∧
      (sampleEntry sampleJson 0).line sampleJson ∈ sampleAnchoredFile.before ∧
      (shard_records sampleJson (nonempty_lines sampleJson droppedFile) 0).length = 0 := by
  refine ⟨sampleJson_collisionFree, ?_,
    verify_first_anchored sampleJson_lawful [0, 1] (by decide) 0,
    verify_first_anchored sampleJson_lawful [1] (by decide) 0,
    mem_pair.mpr (.inl rfl), by decide +kernel⟩
  apply unforged_of_lines sampleJson_lawful
  intro line hline
  rcases mem_pair.mp hline with rfl | rfl
  · exact .inl ⟨1, _, mem_sampleLog.mpr ⟨by decide, rfl⟩, rfl⟩
  · exact .inr rfl

theorem kept_of_anchor (hfree : log.CollisionFree) {edited : List S.Line}
    (hmine : log.Unforged edited) {sentinel : Option UInt64} {global_seq : UInt64}
    (hverify : verify_chain_disk H S key ⟨some edited, sentinel⟩ global_seq = true) {line : S.Line}
    (hline : line ∈ nonempty_lines S edited) {a : MerkleAnchor} (ha : read_anchor S line = some a)
    (hheads : ∀ i : ShardIdx, a.heads.getD i [] = shard_head H S key i (log.records i))
    (i : ShardIdx) : shard_records S (nonempty_lines S edited) i = log.records i := by
  obtain ⟨w, hreplay⟩ := isSome_iff_exists.mp ((verify_chain_disk_iff _ _ _).mp hverify).1
  have hkept := (intact_of_lines hfree hmine hreplay).kept i
  obtain ⟨l₁, l₂, hsplit⟩ := append_of_mem hline
  unfold replay at hreplay
  rw [hsplit, foldlM_append, bind_eq_bind, bind_eq_some_iff] at hreplay
  obtain ⟨w₁, hl₁, hrest⟩ := hreplay
  rw [foldlM_cons, bind_eq_bind, bind_eq_some_iff] at hrest
  obtain ⟨w₂, hstep, -⟩ := hrest
  have hintact : Intact log w₁ l₁ := by
    refine intact_of_lines hfree (fun l hl => hmine l ?_) hl₁
    rw [hsplit]
    exact mem_append_left _ hl
  -- at the anchor the walk has reached the heads of the log, and so the file has all of it
  have hwhole : shard_records S l₁ i = log.records i := by
    apply eq_of_head_eq (log.chained i) (hfree i) (hintact.kept i) (prefix_refl _)
    apply eq_of_constant_time_eq_hex _ (shard_head_hex i _) (shard_head_hex i _)
    rw [← hheads i]
    rcases line_read hstep with ⟨-, -, ⟨a', ha', hw₁⟩, -⟩ | ⟨hrec, -⟩
    · obtain rfl := some.inj (ha.symm.trans ha')
      rw [hw₁ i]
      exact hintact.heads i
    · exact absurd hrec (not_is_record_of_anchor ha)
  rw [hsplit] at hkept ⊢
  apply hkept.eq_of_length_le
  rw [← hwhole, shard_records_append]
  exact (prefix_append _ _).length_le

theorem kept_of_anchor_sample :
    shard_records sampleJson (nonempty_lines sampleJson sampleAnchoredFile.lines) 1 =
      (sampleLog sampleJson).records 1 := by
  have hmine : (sampleLog sampleJson).Unforged sampleAnchoredFile.lines := by
    apply unforged_of_lines sampleJson_lawful
    refine forall_mem_append.mpr ⟨fun _ hline => .inl (of_mem_sampleFile hline), ?_⟩
    exact forall_mem_singleton.mpr (.inr rfl)
  have hline : sampleJson.anchor_line sampleAnchoredFile.anchor ∈
      nonempty_lines sampleJson sampleAnchoredFile.lines :=
    mem_filter.mpr ⟨mem_append_right _ (mem_singleton_self _),
      by simpa using anchor_line_ne_nil sampleJson_lawful _⟩
  exact kept_of_anchor sampleJson_collisionFree hmine
    (verify_first_anchored sampleJson_lawful [0, 1] (by decide) 0) hline rfl (by decide +kernel) 1

end Saacp
