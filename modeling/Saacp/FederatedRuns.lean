/-
**Runs of the federated memory**: what is stored when, and what a fetch may conclude from it.

A record that is found at an id is the one that was put there last (`last_put`), and stays until it
expires, unless a fetch that has found an expired record removes its successor. A fetch does not
compare a text with the id it stands under, and `save_context` writes any text under any id.
-/
import Saacp.FederatedMemory

set_option autoImplicit false

open Atomic ByteCodec

namespace Saacp

open Execution Option FederatedAnswer FederatedCall Prog Nat List Table

variable {H : Hashes} {J : FederatedJson}

/-! ## One section -/

namespace FederatedMemory

variable {m : FederatedMemory} {k id : List UInt8} {r : FederatedRecord} {later : ℚ}

theorem record_set_shard (m : FederatedMemory) (i : Fin 16)
    (store : Table (List UInt8) FederatedRecord) :
    (m.set_shard i store).record k = if shard_index k = i then store.get k else m.record k := by
  simp only [record, set_shard, Function.update_apply]
  split <;> rfl

theorem record_put {data : Text} {version : UInt32} {ttl_secs : ℚ} :
    let holds := (exec (.put_record id data version ttl_secs) later m).1.record k = some r
    let written := if k = id then r = ⟨data, version, m.clock + ttl_secs⟩ else m.record k = some r
    (holds → written) ∧ (written → max m.clock later < r.expires_at → holds) := by
  simp only [exec, record_set_shard]
  by_cases hshard : shard_index k = shard_index id
  · -- before the eviction the shard holds the new record, and its other ones as before
    have hstore : ((m.shards (shard_index id)).insert id
        ⟨data, version, m.clock + ttl_secs⟩).get k = some r ↔
          if k = id then r = ⟨data, version, m.clock + ttl_secs⟩ else m.record k = some r := by
      rw [get_insert, record, hshard]
      split
      · rw [some.injEq, eq_comm]
      · rfl
    rw [if_pos hshard, ← hstore]
    split
    · rw [get_retain, decide_eq_true_eq]
      exact ⟨And.left, And.intro⟩
    · exact ⟨fun h => h, fun h _ => h⟩
  · rw [if_neg hshard, if_neg fun heq => hshard (congrArg shard_index heq)]
    exact ⟨fun h => h, fun h _ => h⟩

theorem record_remove :
    (exec (.remove_record id) later m).1.record k = if k = id then none else m.record k := by
  simp only [exec, record_set_shard, get_remove]
  by_cases heq : k = id
  · simp [heq]
  · simp only [heq, if_false]
    split
    · rw [record, ‹shard_index k = _›]
    · rfl

theorem record_sweep {i : Fin 16} {now : ℚ} : (exec (.sweep i now) later m).1.record k = some r ↔
      m.record k = some r ∧ (shard_index k = i → now < r.expires_at) := by
  simp only [exec, record_set_shard]
  split
  · rw [get_retain, decide_eq_true_eq, record, ‹shard_index k = i›]
    simp
  · simp [*]

theorem clock_exec {γ : Type} (a : FederatedSection γ) (later : ℚ) (m : FederatedMemory) :
    m.clock ≤ (exec a later m).1.clock := by
  cases a with
  | put_record => exact le_max_left _ _
  | _ => exact le_refl _

end FederatedMemory

def FederatedSection.time {γ : Type} : FederatedSection γ → Option ℚ
  | .sweep _ now => some now
  | _ => none

def FederatedSection.removes {γ : Type} : FederatedSection γ → Bool
  | .remove_record _ => true
  | _ => false

def FederatedSection.gets {γ : Type} : FederatedSection γ → Bool
  | .get_record _ => true
  | _ => false

/-! ## Whole runs -/

namespace FederatedCalls

open FederatedMemory

variable {r : FederatedCalls H J} {k : List UInt8} {rec : FederatedRecord} {n l i m : ℕ}

section

variable (r : FederatedCalls H J)

abbrev clock (n : ℕ) : ℚ := (r.run.state n).clock

abbrev record (n : ℕ) (k : List UInt8) : Option FederatedRecord := (r.run.state n).record k

def Puts (n : ℕ) (k : List UInt8) : Prop :=
  ∃ i data version ttl_secs, r.run.Performs n i (.put_record k data version ttl_secs)

/-- What thread `i` put under `k` at entry `p` was the last record put there before entry `g`. -/
structure LastPut (p g : ℕ) (k : List UInt8) (i : ℕ) (rec : FederatedRecord) : Prop where
  before : p < g
  put : ∃ ttl_secs, r.run.Performs p i (.put_record k rec.data rec.version ttl_secs) ∧
    rec.expires_at = r.clock p + ttl_secs
  last : ∀ x, p < x → x < g → ¬ r.Puts x k

end

theorem clock_mono (hnl : n ≤ l) : r.clock n ≤ r.clock l := by
  refine r.run.rel_of_steps (·.clock ≤ ·.clock) (fun _ => le_refl _)
    (fun _ _ _ => le_trans) hnl fun x _ _ => ?_
  exact r.run.rel_succ (·.clock ≤ ·.clock) (le_refl _) (fun d => le_max_left _ _)
    fun _ later _ a _ => clock_exec a later _

theorem call_of_performs {γ : Type} {a : FederatedSection γ} (h : r.run.Performs n i a) :
    ∃ c, r.calls[i]? = some c ∧ c.May H J a :=
  h.of_call (P := fun c => c.May H J) rfl fun c => c.prog_only

theorem prog_zero {c : FederatedCall} (hc : r.calls[i]? = some c) :
    r.run.prog 0 i = some (c.prog H J) :=
  prog_zero_of_call rfl hc

theorem last_put (h : r.record n k = some rec) : ∃ p i, r.LastPut p n k i rec := by
  induction n with
  | zero => cases h.symm.trans (get_empty k)
  | succ n ih =>
    by_cases hputs : r.Puts n k
    · obtain ⟨i, data, version, ttl_secs, hput⟩ := hputs
      obtain ⟨later, -, -, -, hstate⟩ := hput.succ
      rw [record, hstate] at h
      have hr := record_put.1 h
      rw [if_pos rfl] at hr
      subst hr
      exact ⟨n, i, n.lt_succ_self, ⟨ttl_secs, hput, rfl⟩, fun x _ _ => by omega⟩
    · have hsame : r.record n k = some rec := by
        revert h
        refine r.run.rel_succ (fun s s' => s'.record k = some rec → s.record k = some rec)
          (fun h => h) (fun _ h => h) fun i later γ a ha h => ?_
        cases a with
        | now_secs | get_record => exact h
        | put_record id data version ttl_secs =>
          have hr := record_put.1 h
          have hne : k ≠ id := by
            rintro rfl
            exact hputs ⟨i, data, version, ttl_secs, ha⟩
          rwa [if_neg hne] at hr
        | remove_record id =>
          have hr := record_remove.symm.trans h
          rw [ite_none_left_eq_some] at hr
          exact hr.2
        | sweep => exact (record_sweep.1 h).1
      obtain ⟨p, i, hbefore, hput, hlast⟩ := ih hsame
      refine ⟨p, i, by omega, hput, fun x hpx hxn => ?_⟩
      rcases Nat.lt_succ_iff_lt_or_eq.mp hxn with hlt | rfl
      · exact hlast x hpx hlt
      · exact hputs

open FederatedSection

theorem sweep_time {shard : Fin 16} {now : ℚ} (h : r.run.Performs n i (.sweep shard now)) :
    now ≤ r.clock n := by
  obtain ⟨c, hc, rfl⟩ := call_of_performs h
  obtain ⟨k, -, htrail⟩ := h.trail_map (p := step now_secs fun now =>
    each (sweep · now) (finRange 16)) (prog_zero hc)
  obtain hfirst | ⟨x, later, -, hxn, -, -, hrest⟩ := htrail.of_step
  · cases congrArg (next time) hfirst
  · -- all sections after the first one carry the time that it has read
    have honly := hrest.only (P := fun a => a.time = some (r.clock x))
      (Prog.Only.each (fun _ => rfl) _)
    rw [some.inj honly.1]
    exact clock_mono hxn.le

theorem look_up_trail {q : Prog FederatedSection Lookup} (h : r.run.Trail i (look_up k) 0 q n) :
    q.next FederatedSection.removes = some false ∨
    ∃ g, g < n ∧ r.run.Performs g i (.get_record k) ∧ ((r.record g k = none ∧ q = .ret .missing) ∨
        ∃ rec x, r.record g k = some rec ∧ g < x ∧ x < n ∧ r.run.Performs x i .now_secs ∧
          if rec.expires_at < r.clock x then ∀ l, q = .ret l → l = .expired
          else q = .ret (.live rec)) := by
  obtain rfl | ⟨g, later, -, hgn, hget, -, hrest⟩ := h.of_step
  · exact .inl rfl
  rw [show (r.run.sem.exec i (.get_record k) later (r.run.state g)).2 = r.record g k from rfl]
    at hrest
  rcases hrecord : r.record g k with _ | rec
  · rw [hrecord] at hrest
    exact .inr ⟨g, hgn, hget, .inl ⟨hrecord, hrest.of_ret⟩⟩
  · rw [hrecord] at hrest
    obtain rfl | ⟨x, later', hgx, hxn, hread, -, hrest⟩ := hrest.of_step
    · exact .inl rfl
    refine .inr ⟨g, hgn, hget, .inr ⟨rec, x, hrecord, hgx, hxn, hread, ?_⟩⟩
    change Execution.Trail _ _ (ite (rec.expires_at < r.clock x) _ _) _ _ _ at hrest
    by_cases hexpired : rec.expires_at < r.clock x
    · rw [if_pos hexpired] at hrest ⊢
      rintro l rfl
      obtain ⟨_, _, -, -, -, -, hrest⟩ := hrest.of_step_ret
      exact ret.inj hrest.of_ret
    · rw [if_neg hexpired] at hrest ⊢
      exact hrest.of_ret

theorem remove_time (hdelete : ∀ h, .delete_intent_envelope h ∉ r.calls)
    (h : r.run.Performs n i (.remove_record k)) :
    ∃ g x rec, g < x ∧ x < n ∧ r.run.Performs g i (.get_record k) ∧ r.record g k = some rec ∧
      rec.expires_at < r.clock x := by
  obtain ⟨c, hc, hlook | ⟨hash, rfl, -⟩⟩ := call_of_performs h
  · obtain ⟨f, hprog⟩ := prog_of_looks_up (H := H) (J := J) hlook
    obtain ⟨next, -, htrail⟩ := h.trail_map (hprog ▸ prog_zero hc)
    obtain hnot | ⟨g, -, hget, ⟨-, hq⟩ | ⟨rec, x, hrecord, hgx, hxn, -, hq⟩⟩ := look_up_trail htrail
    · cases hnot
    · cases hq
    · refine ⟨g, x, rec, hgx, hxn, hget, hrecord, ?_⟩
      by_contra hlive
      rw [if_neg hlive] at hq
      cases hq
  · exact absurd (mem_of_getElem? hc) (hdelete hash)

/-- **A stored context survives until it expires**, unless a fetch that has looked the id up before
the record was put removes it afterwards. -/
theorem stored_until_expiry (hdelete : ∀ h, .delete_intent_envelope h ∉ r.calls) {p : ℕ}
    {data : Text} {version : UInt32} {ttl_secs : ℚ}
    (hput : r.run.Performs p i (.put_record k data version ttl_secs)) (hpm : p < m)
    (hlast : ∀ x, p < x → x < m → ¬ r.Puts x k)
    (hfetch : ∀ j g x, g < p → p < x → x < m → r.run.Performs g j (.get_record k) →
      ¬ r.run.Performs x j (.remove_record k)) (hclock : r.clock m < r.clock p + ttl_secs) :
    r.record m k = some ⟨data, version, r.clock p + ttl_secs⟩ := by
  generalize hr : (⟨data, version, _⟩ : FederatedRecord) = rec
  have hexpires : rec.expires_at = r.clock p + ttl_secs := by rw [← hr]
  rw [← hexpires] at hclock
  -- what a fetch looks up after `p` is this record again, so the induction is on all entries
  induction m using Nat.strong_induction_on with
  | _ m ih =>
    obtain ⟨n, rfl⟩ := Nat.exists_eq_succ_of_ne_zero (by omega : m ≠ 0)
    have hnow : r.clock n < rec.expires_at := (clock_mono n.le_succ).trans_lt hclock
    rcases Nat.lt_succ_iff_lt_or_eq.mp hpm with hpn | rfl
    · have hsame := ih n n.lt_succ_self hpn (fun x h h' => hlast x h (by omega))
        (fun j g x h h' h'' => hfetch j g x h h' (by omega)) hnow
      revert hclock
      refine r.run.rel_succ (fun s s' => s'.clock < rec.expires_at → s'.record k = some rec)
        (fun _ => hsame) (fun _ _ => hsame) fun j later γ a ha hclock => ?_
      cases a with
      | now_secs | get_record => exact hsame
      | put_record id data version ttl_secs =>
        have hne : k ≠ id := by
          rintro rfl
          exact hlast n hpn n.lt_succ_self ⟨j, data, version, ttl_secs, ha⟩
        exact record_put.2 (by rwa [if_neg hne]) hclock
      | remove_record id =>
        refine record_remove.trans ?_
        rw [if_neg ?_]
        · exact hsame
        rintro rfl
        obtain ⟨g, x, rec', hgx, hxn, hget, hfound, hexpired⟩ := remove_time hdelete ha
        rcases lt_trichotomy g p with hgp | rfl | hpg
        · exact hfetch j g n hgp hpn n.lt_succ_self hget ha
        · cases (hput.unique hget).2 gets
        · have hg := ih g (by omega) hpg (fun x h h' => hlast x h (by omega))
            (fun j g x h h' h'' => hfetch j g x h h' (by omega))
            ((clock_mono (by omega)).trans_lt hnow)
          rw [hg, some.injEq] at hfound
          subst hfound
          exact absurd (hexpired.trans_le (clock_mono hxn.le)) (not_lt_of_gt hnow)
      | sweep shard now =>
        exact record_sweep.2 ⟨hsame, fun _ => (sweep_time ha).trans_lt hnow⟩
    · obtain ⟨later, -, -, -, hstate⟩ := hput.succ
      rw [clock, hstate] at hclock
      rw [record, hstate]
      exact record_put.2 (by rw [if_pos rfl, hr]) hclock

end FederatedCalls

/-! ## Texts that are read back -/

/-- Parsing gives back what was serialised, for the two kinds of objects that are stored. -/
structure FederatedJson.Lawful (J : FederatedJson) : Prop where
  context : ∀ data writer_agent,
    J.from_str (J.to_string (tagged data writer_agent)) = some (tagged data writer_agent)
  envelope : ∀ root_intent root_issuer root_signature timestamp, J.from_str (J.to_string
      (final_fields root_intent root_issuer root_signature (.pos_int timestamp))) =
      some (final_fields root_intent root_issuer root_signature (.pos_int timestamp))

namespace SampleMemory

def frame (text : Text) : Text := List.replicate text.length 0 ++ 1 :: text

def unframe (bs : Text) : Text × Text :=
  let n := (bs.takeWhile (· == 0)).length
  (bs.drop (n + 1)).splitAt n

theorem unframe_frame (text rest : Text) : unframe (frame text ++ rest) = (text, rest) := by
  have hzeros : ((frame text ++ rest).takeWhile (· == 0)).length = text.length := by
    simp [frame]
  simp only [unframe, hzeros]
  simp [frame, drop_append]

def json : FederatedJson where
  to_string v :=
    match v.get "_saacp_provenance_v1" with
    | some _ => 1 :: (frame (str_field v "data") ++ str_field v "writer_agent")
    | none => 2 :: (frame (str_field v "root_intent") ++ (frame (str_field v "root_issuer") ++
      (frame (str_field v "root_signature") ++
        List.replicate ((v.index "timestamp").as_u64.getD 0).toNat 0)))
  from_str
    | 1 :: bs => some (tagged (unframe bs).1 (unframe bs).2)
    | 2 :: bs =>
      let intent := unframe bs
      let issuer := unframe intent.2
      let signature := unframe issuer.2
      some (final_fields intent.1 issuer.1 signature.1 (.pos_int (.ofNat signature.2.length)))
    | _ => none

theorem json_lawful : json.Lawful where
  context data writer_agent := by
    have htext : json.to_string (tagged data writer_agent) = 1 :: (frame data ++ writer_agent) :=
      rfl
    rw [htext]
    simp only [json, unframe_frame]
  envelope intent issuer sig timestamp := by
    have htext : json.to_string (final_fields intent issuer sig (.pos_int timestamp)) =
        2 :: (frame intent ++ (frame issuer ++ (frame sig ++ replicate timestamp.toNat 0))) := rfl
    rw [htext]
    simp only [json, unframe_frame, length_replicate, UInt64.ofNat_toNat]

/-- Under these the sample envelopes have ids of 32 bytes. -/
def hashes : Hashes := ⟨fun msg => msg, fun key msg => [(key ++ msg).foldl (· + ·) 0]⟩

def state_id : List UInt8 := List.replicate 32 7

end SampleMemory

open SampleMemory

def FederatedJson.has_tag (J : FederatedJson) (text : Text) : Bool :=
  match (J.from_str text).bind (·.get "_saacp_provenance_v1") with
  | some (.bool true) => true
  | _ => false

def FederatedCall.plain_text : FederatedCall → Option Text
  | .store_context _ text _ | .save_context _ text _ => some text
  | _ => none

/-- What a call that has written a context says about its data and its writer. -/
def FederatedCall.ReadBack (x : Text × Option Text) : FederatedCall → Prop
  | .save_context_with_provenance _ data _ writer_agent => x = (data, some writer_agent)
  | .store_context _ text _ | .save_context _ text _ => x = (text, none)
  | .create_intent_envelope _ _ _ => x.2 = none
  | _ => False

namespace FederatedCalls

/-- The record survives a fetch and a sweep of all shards in its last second. -/
theorem stored_until_expiry_sample : let r : FederatedCalls hashes json :=
      ⟨[.save_context state_id [65] 1, .fetch_context state_id 1, .evict_expired], 0,
        .thread 0 0 :: .daemon 299 :: (replicate 2 (.thread 1 0) ++ replicate 17 (.thread 2 0))⟩
    r.run.answer 21 1 = some (.context (.ok [65])) ∧ r.run.answer 21 2 = some (.evicted 0) ∧
      r.record 21 state_id = some ⟨[65], 1, 300⟩ := by
  intro r
  have hput : r.run.Performs 0 0 (.put_record state_id [65] 1 FEDERATED_TTL_SECONDS) :=
    ⟨0, _, rfl, rfl⟩
  refine ⟨by decide +kernel, by decide +kernel, (stored_until_expiry (by simp [r]) hput (by simp) ?_
    (fun _ g _ hg => absurd hg g.not_lt_zero) (by decide +kernel)).trans (by decide +kernel)⟩
  rintro (_ | x) hx - ⟨i, data, version, ttl_secs, hput'⟩
  · exact absurd hx (lt_irrefl 0)
  obtain ⟨c, hc, hwrites⟩ := call_of_performs hput'
  obtain ⟨later, -, htick, -⟩ := hput'
  obtain ⟨rfl, -⟩ | ⟨rfl, -⟩ : i = 1 ∧ later = 0 ∨ i = 2 ∧ later = 0 := by
    simpa using mem_of_getElem? (getElem?_cons_succ.symm.trans htick)
  · cases hc
    exact hwrites
  · cases hc
    exact hwrites

/-- A context that expires at 300 is looked up at 301 and renewed by another call; then the fetch
goes on, and removes it. -/
theorem renewed_context_removed :
    let r : FederatedCalls hashes json := ⟨[.save_context state_id [65] 1,
      .fetch_context state_id 1, .save_context state_id [66] 1], 0,
      [.thread 0 0, .daemon 301, .thread 1 0, .thread 1 0, .thread 2 0, .thread 1 0]⟩
    r.run.Performs 4 2 (.put_record state_id [66] 1 FEDERATED_TTL_SECONDS) ∧
      r.run.answer 6 2 = some (.saved (.ok ())) ∧
      r.clock 6 < r.clock 4 + FEDERATED_TTL_SECONDS ∧
      r.record 6 state_id = none :=
  ⟨⟨0, _, rfl, rfl⟩, by decide +kernel, by decide +kernel, by decide +kernel⟩

end FederatedCalls

section Texts

variable {root_intent root_issuer intent : Text} {secret_key : List UInt8} {now : ℚ}

theorem from_str_final_json (hJ : J.Lawful) (root_intent root_issuer : Text)
    (secret_key : List UInt8) (now : ℚ) : ∃ sig timestamp,
      J.from_str (final_json H J root_intent root_issuer secret_key now) =
        some (final_fields root_intent root_issuer sig timestamp) :=
  ⟨_, _, hJ.envelope _ _ _ _⟩

theorem verify_final_json (hJ : J.Lawful) {key : List UInt8}
    (h : verify_envelope H J key (final_json H J root_intent root_issuer secret_key now) =
      .ok intent) : root_intent = intent := by
  obtain ⟨sig, timestamp, hparse⟩ :=
    from_str_final_json (H := H) hJ root_intent root_issuer secret_key now
  rw [verify_envelope, hparse] at h
  simp only [final_fields] at h
  split at h
  · cases h
  · exact Except.ok.inj h

theorem final_json_injective (hJ : J.Lawful) {intent' issuer' : Text} {key' : List UInt8}
    {now' : ℚ} (h : final_json H J root_intent root_issuer secret_key now =
      final_json H J intent' issuer' key' now') : root_intent = intent' := by
  obtain ⟨sig, timestamp, hparse⟩ :=
    from_str_final_json (H := H) hJ root_intent root_issuer secret_key now
  obtain ⟨signature', timestamp', hparse'⟩ :=
    from_str_final_json (H := H) hJ intent' issuer' key' now'
  have hsame := some.inj (hparse.symm.trans ((congrArg J.from_str h).trans hparse'))
  exact congrArg (str_field · "root_intent") hsame

theorem read_provenance_plain {text : Text} (h : J.has_tag text = false) :
    read_provenance J text = (text, none) := by
  unfold FederatedJson.has_tag at h
  unfold read_provenance
  split
  · rfl
  · simp only [*, bind_some] at h
    split
    · simp [*] at h
    · rfl

theorem read_back_of_writes (hJ : J.Lawful) {c : FederatedCall} {id : List UInt8} {data : Text}
    {ttl_secs : ℚ} (hw : c.Writes H J id data ttl_secs)
    (hplain : ∀ text, c.plain_text = some text → J.has_tag text = false) :
    c.ReadBack (read_provenance J data) := by
  cases c with
  | store_context agent_id text version | save_context state_id text version =>
    obtain ⟨-, rfl, -⟩ := hw
    exact read_provenance_plain (hplain _ rfl)
  | save_context_with_provenance state_id text version writer =>
    obtain ⟨-, rfl, -⟩ := hw
    show read_provenance J _ = _
    rw [read_provenance, hJ.context]
    rfl
  | create_intent_envelope intent issuer key =>
    obtain ⟨now, rfl, -⟩ := hw
    obtain ⟨sig, timestamp, hparse⟩ := from_str_final_json (H := H) hJ intent issuer key now
    show (read_provenance J _).2 = none
    rw [read_provenance, hparse]
    rfl
  | _ => exact hw.elim

end Texts

namespace FederatedCalls

variable {r : FederatedCalls H J} {i m : ℕ}

theorem answer_of_look_up {id : List UInt8} {f : Lookup → FederatedAnswer} {b : FederatedAnswer}
    (hprog : r.run.prog 0 i = some ((look_up id).map f)) (hanswer : r.run.answer m i = some b) :
    ∃ g, r.run.Performs g i (.get_record id) ∧ ((b = f .missing ∧ r.record g id = none) ∨
        ∃ rec x, r.record g id = some rec ∧ g < x ∧ r.run.Performs x i .now_secs ∧
          b = f (if rec.expires_at < r.clock x then .expired else .live rec)) := by
  obtain ⟨l, rfl, htrail⟩ := trail_map_answer hanswer hprog
  obtain hnot | ⟨g, -, hget, ⟨hnone, hq⟩ | ⟨rec, x, hrecord, hgx, -, hread, hq⟩⟩ :=
    look_up_trail htrail
  · cases hnot
  · exact ⟨g, hget, .inl ⟨congrArg f (ret.inj hq), hnone⟩⟩
  · refine ⟨g, hget, .inr ⟨rec, x, hrecord, hgx, hread, congrArg f ?_⟩⟩
    split at hq
    · rw [if_pos ‹_›, hq l rfl]
    · rw [if_neg ‹_›, ret.inj hq]

theorem answer_of_ret {b b' : FederatedAnswer} (hprog : r.run.prog 0 i = some (.ret b))
    (hanswer : r.run.answer m i = some b') : b' = b := by
  have h := answer_mono (answer_eq_some.mpr hprog) (zero_le m)
  exact some.inj (hanswer.symm.trans h)

theorem hash_of_answer {intent issuer hash : Text} {key : List UInt8}
    (hcall : r.calls[i]? = some (.create_intent_envelope intent issuer key))
    (hanswer : r.run.answer m i = some (.envelope (.ok hash))) :
    ∃ now, hash = hexText (H.sha256 (final_json H J intent issuer key now)) := by
  obtain ⟨q, hq, htrail⟩ := Execution.trail (prog_zero (H := H) (J := J) hcall) (zero_le m)
  obtain rfl := some.inj (hq.symm.trans (answer_eq_some.mp hanswer))
  obtain ⟨x, later, -, -, -, -, hrest⟩ := htrail.of_step_ret
  obtain ⟨result, _, -, hret⟩ := hrest.of_bind_ret
  have hresult := envelope.inj (ret.inj hret.of_ret)
  cases result with
  | error err => cases hresult
  | ok u => exact ⟨_, Except.ok.inj hresult⟩

/-- **The hash of an envelope names its intent**, as long as no other call puts under that hash a
text that verifies under the key and the fetch does not read the clock at the very end of a
lifetime: the intent that a fetch returns is that of every creation that returned the hash, and one
of them put it there less than its lifetime ago. -/
theorem intent_of_hash (hJ : J.Lawful) (hsha : Function.Injective H.sha256) {hash intent : Text}
    {key : List UInt8} (hcall : r.calls[i]? = some (.fetch_intent_envelope hash key))
    (hanswer : r.run.answer m i = some (.intent (.ok intent)))
    (hown : ∀ n j id data version ttl_secs intent',
      r.run.Performs n j (.put_record id data version ttl_secs) →
      hexDecode hash = some id → verify_envelope H J key data = .ok intent' →
      ∃ a b c, r.calls[j]? = some (.create_intent_envelope a b c))
    (hexact : ∀ p x j id data version ttl_secs,
      r.run.Performs p j (.put_record id data version ttl_secs) → hexDecode hash = some id →
      r.run.Performs x i .now_secs → r.clock x ≠ r.clock p + INTENT_MAX_LIFETIME) :
    (∃ p j x issuer key' id data version ttl_secs,
      r.calls[j]? = some (.create_intent_envelope intent issuer key') ∧
      hexDecode hash = some id ∧
      r.run.Performs p j (.put_record id data version ttl_secs) ∧ p < x ∧
      r.run.Performs x i .now_secs ∧
      r.clock x < r.clock p + INTENT_MAX_LIFETIME) ∧
    ∀ m' j intent' issuer key' hash',
      r.calls[j]? = some (.create_intent_envelope intent' issuer key') →
      r.run.answer m' j = some (.envelope (.ok hash')) →
      hexDecode hash' = hexDecode hash → intent' = intent := by
  have hprog := prog_zero (H := H) (J := J) hcall
  rw [FederatedCall.prog] at hprog
  rcases hid : hexDecode hash with _ | id
  · -- a text that is no hash is refused
    simp only [hid] at hprog
    cases answer_of_ret hprog hanswer
  simp only [hid] at hprog
  obtain ⟨g, -, ⟨hb, -⟩ | ⟨rec, x, hrecord, hgx, hread, hb⟩⟩ := answer_of_look_up hprog hanswer
  · cases FederatedAnswer.intent.inj hb
  have hlive := FederatedAnswer.intent.inj hb
  split at hlive
  · cases hlive
  obtain ⟨p, j, hpg, ⟨ttl_secs, hput, hexpires⟩, -⟩ := last_put hrecord
  obtain ⟨a, issuer, key', hcreate⟩ := hown p j id _ _ _ _ hput hid hlive.symm
  obtain ⟨c, hc, hmay⟩ := call_of_performs hput
  obtain rfl := some.inj (hcreate.symm.trans hc)
  obtain ⟨now, hdata, hsum, rfl⟩ := hmay
  rw [intent_of, hdata] at hlive
  obtain rfl := verify_final_json hJ hlive.symm
  refine ⟨⟨p, j, x, issuer, key', id, _, _, _, hcreate, rfl, hput, by omega, hread, ?_⟩, ?_⟩
  · refine lt_of_le_of_ne ?_ (hexact p x j id _ _ _ hput hid hread)
    rw [← hexpires]
    exact not_lt.mp ‹_›
  · intro m' j' intent' issuer' key'' hash' hcreate' hanswer' hsame
    obtain ⟨now', rfl⟩ := hash_of_answer hcreate' hanswer'
    rw [hexDecode_hexText, some.injEq, hsum, hdata] at hsame
    exact final_json_injective hJ (hsha hsame)

theorem intent_of_hash_sample : let hash := hexText (final_json hashes json [97] [99] [1] 20)
    let r : FederatedCalls hashes json := ⟨[.create_intent_envelope [97] [99] [1],
      .fetch_intent_envelope hash [1]], 20, List.replicate 2 (.thread 0 0) ++
      List.replicate 2 (.thread 1 0)⟩
    ∀ m' j intent' issuer key' hash',
      r.calls[j]? = some (.create_intent_envelope intent' issuer key') →
      r.run.answer m' j = some (.envelope (.ok hash')) →
      hexDecode hash' = hexDecode hash → intent' = [97] := by
  intro hash r
  have hanswer : r.run.answer 4 1 = some (.intent (.ok [97])) := by decide +kernel
  refine (intent_of_hash json_lawful (fun _ _ h => h) rfl hanswer ?_ ?_).2
  · intro n j id data version ttl_secs intent' hput _ _
    obtain ⟨c, hc, hmay⟩ := call_of_performs hput
    rcases j with _ | _ | j
    · exact ⟨_, _, _, rfl⟩
    · obtain rfl := some.inj hc
      exact hmay.elim
    · cases hc
  · intro p x j id data version ttl_secs _ _ ⟨later, _, htick, _⟩
    obtain ⟨hx, -⟩ := List.getElem?_eq_some_iff.mp htick
    have hlast : r.clock x ≤ 20 := (clock_mono hx.le).trans (by decide +kernel)
    have hfirst : 20 ≤ r.clock p := clock_mono (zero_le p)
    have hlife : (20 : ℚ) < 20 + INTENT_MAX_LIFETIME := by decide +kernel
    exact ((hlast.trans_lt hlife).trans_le (add_le_add hfirst le_rfl)).ne

/-- Two envelopes are created; the second one is saved under the hash of the first, which then
names the second intent. -/
theorem envelope_under_other_hash : let first := final_json hashes json [97] [99] [1] 20
    let second := final_json hashes json [98] [99] [1] 20
    let r : FederatedCalls hashes json := ⟨[.create_intent_envelope [97] [99] [1],
      .create_intent_envelope [98] [99] [1], .save_context first second 1,
      .fetch_intent_envelope (hexText first) [1]], 20, List.replicate 2 (.thread 0 0) ++
      List.replicate 2 (.thread 1 0) ++ .thread 2 0 :: List.replicate 2 (.thread 3 0)⟩
    r.run.answer 7 0 = some (.envelope (.ok (hexText first))) ∧
      r.run.answer 7 3 = some (.intent (.ok [98])) := by
  decide +kernel

/-- **What is read back of a context**, as long as no text that is saved as it is has the tag: data
and writer of a fetch that succeeds are those of the call that wrote the id last, and a fetch fails
only for an id of another length, or if the record it finds has expired or has another version. -/
theorem provenance_read_back (hJ : J.Lawful) {id : List UInt8} {version : UInt32}
    {result : Except String (Text × Option Text)}
    (hcall : r.calls[i]? = some (.fetch_context_with_provenance id version))
    (hanswer : r.run.answer m i = some (.provenance result))
    (hplain : ∀ c ∈ r.calls, ∀ text, c.plain_text = some text → J.has_tag text = false) :
    (∀ x, result = .ok x → ∃ g p j c rec, r.run.Performs g i (.get_record id) ∧
      r.LastPut p g id j rec ∧ r.calls[j]? = some c ∧ c.ReadBack x) ∧
    ∀ err, result = .error err → id.length ≠ 32 ∨ ∃ g, r.run.Performs g i (.get_record id) ∧
        ∀ rec, r.record g id = some rec → rec.version ≠ version ∨
          ∃ x, r.run.Performs x i .now_secs ∧ rec.expires_at < r.clock x := by
  have hprog := prog_zero (H := H) (J := J) hcall
  rw [FederatedCall.prog] at hprog
  by_cases hlen : id.length ≠ 32
  · rw [if_pos hlen] at hprog
    cases answer_of_ret hprog hanswer
    exact ⟨by rintro _ ⟨⟩, fun _ _ => .inl hlen⟩
  rw [if_neg hlen] at hprog
  obtain ⟨g, hget, ⟨hb, hnone⟩ | ⟨rec, x, hrecord, -, hread, hb⟩⟩ := answer_of_look_up hprog hanswer
  · cases hb
    refine ⟨by rintro _ ⟨⟩, fun _ _ => .inr ⟨g, hget, fun rec hr => ?_⟩⟩
    cases hnone.symm.trans hr
  obtain rfl := provenance.inj hb
  -- found, and then expired, of another version, or returned
  by_cases hexpired : rec.expires_at < r.clock x
  · rw [if_pos hexpired]
    refine ⟨by rintro _ ⟨⟩, fun _ _ => .inr ⟨g, hget, fun rec' hr => .inr ⟨x, hread, ?_⟩⟩⟩
    rwa [some.inj (hr.symm.trans hrecord)]
  rw [if_neg hexpired]
  by_cases hversion : rec.version ≠ version
  · rw [context_of, if_pos hversion]
    refine ⟨by rintro _ ⟨⟩, fun _ _ => .inr ⟨g, hget, fun rec' hr => .inl ?_⟩⟩
    rwa [some.inj (hr.symm.trans hrecord)]
  · rw [context_of, if_neg hversion]
    refine ⟨?_, by rintro _ ⟨⟩⟩
    rintro _ ⟨⟩
    obtain ⟨p, j, hlast⟩ := last_put hrecord
    obtain ⟨ttl_secs, hput, -⟩ := hlast.put
    obtain ⟨c, hc, hmay⟩ := call_of_performs hput
    exact ⟨g, p, j, c, rec, hget, hlast, hc,
      read_back_of_writes hJ hmay (hplain c (mem_of_getElem? hc))⟩

theorem provenance_read_back_sample :
    let r : FederatedCalls hashes json := ⟨[.save_context_with_provenance state_id [65] 1 [97],
      .fetch_context_with_provenance state_id 1], 0,
      .thread 0 0 :: List.replicate 2 (.thread 1 0)⟩
    ∃ g p j c rec, r.run.Performs g 1 (.get_record state_id) ∧
      r.LastPut p g state_id j rec ∧ r.calls[j]? = some c ∧
      c.ReadBack ([65], some [97]) := by
  intro r
  have hanswer : r.run.answer 3 1 = some (.provenance (.ok ([65], some [97]))) := by decide +kernel
  exact (provenance_read_back json_lawful rfl hanswer (by simp [r, plain_text])).1 _ rfl

theorem provenance_forged : let r : FederatedCalls hashes json :=
      ⟨[.save_context state_id (json.to_string (tagged [65] [97])) 1,
        .fetch_context_with_provenance state_id 1], 0,
      .thread 0 0 :: List.replicate 2 (.thread 1 0)⟩
    r.run.answer 3 1 = some (.provenance (.ok ([65], some [97]))) := by
  decide +kernel

end FederatedCalls

end Saacp
