/-
**The in-memory backend against a map with deadlines.**

What a client may rely on is a partial map in which an entry whose deadline has passed does not
exist (`Deadlines.see`). `Allows` says which answer such a map gives to a call, and `after` what
becomes of it. The backend keeps what has expired until it comes across it, and the relation to the
map is `Lags`: the store is the map, but for entries that have expired.
-/
import Mathlib.Data.List.Dedup
import Saacp.MemoryBackend

set_option autoImplicit false

open ByteCodec

namespace Saacp

open Option Table

/-! ## The map -/

namespace BackendSpec

abbrev State := Deadlines Text (List UInt8)

/-- The value of a counter after an increment; a key that is not seen counts from zero. -/
def incremented (m : State) (now : ℕ) (key : Text) (by_ : Int64) : ℤ :=
  saturating_add_i64 (((m.see now key).map fun e => counter_value e.value).getD 0) by_.toInt

def after (m : State) (c : BackendCall) : State :=
  match c.op with
  | .get _ => m
  | .prefix_scan _ => m
  | .set key value ttl => Function.update m key (some ⟨value, ttl.map (c.at_.now + ·)⟩)
  | .delete key => Function.update m key none
  | .incr key by_ =>
    -- an existing deadline is kept, a new counter has none
    Function.update m key (some
      ⟨i64_text (incremented m c.at_.now key by_), (m.see c.at_.now key).bind (·.expires_at)⟩)
  | .incr_with_ttl key by_ ttl =>
    -- a running window is kept, otherwise one is opened
    Function.update m key (some ⟨i64_text (incremented m c.at_.now key by_),
        some (((m.see c.at_.now key).bind (·.expires_at)).getD (c.at_.later + ttl))⟩)
  | .compare_and_swap key expected new ttl =>
    if (m.see c.at_.now key).map (·.value) = expected then
      Function.update m key (some ⟨new, ttl.map (c.at_.later + ·)⟩)
    else m

/-- What the map answers; the keys of a scan may come in any order. -/
def Allows (m : State) (c : BackendCall) (answer : BackendAnswer) : Prop :=
  match c.op with
  | .get key => answer = .value ((m.see c.at_.now key).map (·.value))
  | .set _ _ _ => answer = .done
  | .delete key => answer = .flag (m.see c.at_.now key).isSome
  | .incr key by_ => answer = .count (incremented m c.at_.now key by_)
  | .incr_with_ttl key by_ _ => answer = .count (incremented m c.at_.now key by_)
  | .compare_and_swap key expected _ _ =>
    answer = .flag (decide ((m.see c.at_.now key).map (·.value) = expected))
  | .prefix_scan start =>
    ∃ keys : List Text, answer = .keys keys ∧ keys.Nodup ∧
      ∀ key, key ∈ keys ↔ start <+: key ∧ (m.see (c.at_.sweep key) key).isSome

def Conforms (m : State) : List BackendCall → List BackendAnswer → Prop
  | [], answers => answers = []
  | c :: cs, answers => ∃ answer rest, answers = answer :: rest ∧ Allows m c answer ∧
      Conforms (after m c) cs rest

def Ordered (t : ℕ) : List BackendCall → Prop
  | [] => True
  | c :: cs => t ≤ c.at_.now ∧ Ordered c.at_.later cs

end BackendSpec

open BackendSpec Deadlines InMemoryBackend Function BackendAnswer List

namespace InMemoryBackend

def answers (b : InMemoryBackend) : List BackendCall → List BackendAnswer
  | [] => []
  | c :: cs => (b.call c).2 :: (b.call c).1.answers cs

/-- Whether the call deletes an entry that has expired. -/
def deletes_late (b : InMemoryBackend) (c : BackendCall) : Bool :=
  match c.op with
  | .delete key => (b.store.get key).any fun e => !e.live c.at_.now
  | _ => false

/-! ## One call -/

section Step

variable {b : InMemoryBackend} {m : State} {t : ℕ} {r : Readings} {key : Text}

def entries (b : InMemoryBackend) : State := b.store.get

theorem live_entry_eq_see (b : InMemoryBackend) (now : ℕ) (key : Text) :
    b.live_entry now key = Deadlines.see b.entries now key := rfl

theorem get_insert_eq_update (store : Table Text BackendEntry) (key : Text) (e : BackendEntry) :
    (store.insert key e).get = update store.get key (some e) := by
  funext key'
  rw [get_insert, update_apply]

theorem get_remove_eq_update (store : Table Text BackendEntry) (key : Text) :
    (store.remove key).get = update store.get key none := by
  funext key'
  rw [get_remove, update_apply]

theorem put_entries {e : BackendEntry} (hroom : (b.store.insert key e).len ≤ b.max_entries) :
    (b.put key e).entries = update b.entries key (some e) := by
  rw [entries, entries, ← get_insert_eq_update]
  unfold put track_new_key
  simp only
  split_ifs with hstored hover
  · rfl
  · rw [compacted_store, compacted_max_entries] at hover
    exact absurd hover (not_lt.mpr hroom)
  · rw [compacted_store]

theorem modify_entries {e e' : BackendEntry} (hget : b.store.get key = some e) :
    ({ b with store := b.store.modify key fun _ => e' } : InMemoryBackend).entries =
      update b.entries key (some e') := by
  funext key'
  show (b.store.modify key fun _ => e').get key' = _
  rw [get_modify, update_apply, hget]
  rfl

theorem saturating_add_zero (by_ : Int64) : saturating_add_i64 0 by_.toInt = by_.toInt := by
  have hlow := Int64.le_toInt by_
  have hhigh := Int64.toInt_lt by_
  unfold saturating_add_i64
  omega

variable (h : Deadlines.Lags t b.entries m)
include h

variable (ht : t ≤ r.now)
include ht

theorem get_refines : (b.get r key).2 = (m.see r.now key).map (·.value) ∧
      Deadlines.Lags r.later (b.get r key).1.entries m := by
  have hlater : t ≤ r.later := ht.trans r.now_le_later
  rw [← h.see_eq ht]
  unfold get see entries
  cases hget : b.store.get key with
  | none => exact ⟨rfl, h.mono hlater⟩
  | some e =>
    rw [filter_some]
    simp only
    by_cases hlive : e.live r.now = true
    · rw [if_pos hlive, if_pos hlive]
      exact ⟨rfl, h.mono hlater⟩
    · -- what is expired at the first reading is expired at the second
      have hexpired : see b.entries r.later key = none := by
        apply see_eq_none_of_le _ r.now_le_later
        rw [see, entries, hget, filter_some, if_neg hlive]
      have hlate : ¬ e.live r.later = true := by
        intro hlate
        rw [see, entries, hget, filter_some, if_pos hlate] at hexpired
        cases hexpired
      rw [if_neg hlive, if_neg hlive, if_neg hlate]
      refine ⟨rfl, h.drop hlater ?_⟩
      intro key'
      simp only [get_remove, entries]
      split_ifs with hkey
      · subst hkey
        exact .inr ⟨rfl, hexpired⟩
      · exact .inl rfl

theorem delete_refines (hdelete : (b.store.get key).any (fun e => !e.live r.now) = false) :
    (b.delete key).2 = (m.see r.now key).isSome ∧
      Deadlines.Lags r.later (b.delete key).1.entries (update m key none) := by
  refine ⟨?_, ?_⟩
  · rw [← h.see_eq ht]
    unfold delete see entries
    cases hget : b.store.get key with
    | none => rfl
    | some e =>
      rw [hget] at hdelete
      have hlive : e.live r.now = true := by simpa using hdelete
      rw [filter_some, if_pos hlive]
  · show Deadlines.Lags r.later (b.store.remove key).get _
    rw [get_remove_eq_update]
    exact (h.mono (ht.trans r.now_le_later)).update key none

theorem incr_refines {by_ : Int64} (hroom : ∀ e, (b.store.insert key e).len ≤ b.max_entries) :
    (b.incr r key by_).2 = incremented m r.now key by_ ∧
      Deadlines.Lags r.later (b.incr r key by_).1.entries
        (BackendSpec.after m ⟨.incr key by_, r⟩) := by
  have hcount : (b.incr r key by_).2 = incremented m r.now key by_ := by
    unfold incremented incr
    rw [← h.see_eq ht]
    rfl
  refine ⟨hcount, ?_⟩
  rw [incr_eq_put, put_entries (hroom _), hcount, live_entry_eq_see, h.see_eq ht]
  exact (h.mono (ht.trans r.now_le_later)).update key _

theorem incr_with_ttl_refines {by_ : Int64} {ttl : ℕ}
    (hroom : ∀ e, (b.store.insert key e).len ≤ b.max_entries) :
    (b.incr_with_ttl r key by_ ttl).2 = incremented m r.now key by_ ∧
      Deadlines.Lags r.later (b.incr_with_ttl r key by_ ttl).1.entries
        (BackendSpec.after m ⟨.incr_with_ttl key by_ ttl, r⟩) := by
  have hsee : b.live_entry r.now key = m.see r.now key := h.see_eq ht key
  have hkept := h.mono (ht.trans r.now_le_later)
  unfold BackendSpec.after incremented
  simp only
  cases hlive : b.live_entry r.now key with
  | none =>
    rw [← hsee, hlive, incr_with_ttl_eq_put hlive, put_entries (hroom _)]
    simp only [map_none, getD_none, bind_none, saturating_add_zero]
    exact ⟨trivial, hkept.update key _⟩
  | some e =>
    rw [← hsee, hlive]
    unfold incr_with_ttl
    rw [hlive]
    simp only [map_some, getD_some, bind_some, true_and]
    rw [modify_entries (get_of_live_entry hlive)]
    exact hkept.update key _

theorem compare_and_swap_refines {expected : Option (List UInt8)} {new : List UInt8}
    {ttl : Option ℕ} :
    (b.compare_and_swap r key expected new ttl).2 =
        decide ((m.see r.now key).map (·.value) = expected) ∧
      Deadlines.Lags r.later (b.compare_and_swap r key expected new ttl).1.entries
        (BackendSpec.after m ⟨.compare_and_swap key expected new ttl, r⟩) := by
  have hkept := h.mono (ht.trans r.now_le_later)
  unfold BackendSpec.after InMemoryBackend.compare_and_swap
  simp only [live_entry_eq_see, h.see_eq ht]
  by_cases hexpected : (m.see r.now key).map (·.value) = expected
  · rw [if_neg (not_not.mpr hexpected), if_pos hexpected]
    refine ⟨(decide_eq_true hexpected).symm, ?_⟩
    show Deadlines.Lags r.later (b.store.insert key _).get _
    rw [get_insert_eq_update]
    exact hkept.update key _
  · rw [if_pos hexpected, if_neg hexpected]
    exact ⟨(decide_eq_false hexpected).symm, hkept⟩

theorem prefix_scan_refines {start : Text} :
    Allows m ⟨.prefix_scan start, r⟩ (.keys (b.prefix_scan r start).2) ∧
      Deadlines.Lags r.later (b.prefix_scan r start).1.entries m := by
  have hsweep : ∀ key, (see b.entries (r.sweep key) key) = m.see (r.sweep key) key :=
    fun key => h.see_eq (ht.trans (r.sweep_mem key).1) key
  have hretain : ∀ key, (b.store.retain fun key e => e.live (r.sweep key)).get key =
      see b.entries (r.sweep key) key := by
    intro key
    apply Option.ext
    intro e
    rw [get_retain, see, entries, filter_eq_some_iff]
  refine ⟨⟨_, rfl, ?_, ?_⟩, ?_⟩
  · exact (nodup_entries _).filter _
  · intro key
    unfold prefix_scan
    simp only
    rw [mem_filter, isPrefixOf_iff_prefix, ← hsweep key, ← hretain key, and_comm]
    refine and_congr_right fun _ => ?_
    rw [isSome_iff_exists, List.mem_map]
    constructor
    · rintro ⟨⟨key', e⟩, hmem, rfl⟩
      exact ⟨e, mem_entries.mp hmem⟩
    · rintro ⟨e, hget⟩
      exact ⟨(key, e), mem_entries.mpr hget, rfl⟩
  · apply h.drop (ht.trans r.now_le_later)
    intro key
    show (b.store.retain _).get key = _ ∨ (b.store.retain _).get key = none ∧ _
    rw [hretain key]
    cases hseen : see b.entries (r.sweep key) key with
    | none => exact .inr ⟨rfl, see_eq_none_of_le hseen (r.sweep_mem key).2⟩
    | some e => exact .inl (filter_eq_some_iff.mp hseen).1.symm

omit ht

theorem call_refines {c : BackendCall} (ht : t ≤ c.at_.now)
    (hroom : ∀ key e, c.op.written = some key → (b.store.insert key e).len ≤ b.max_entries)
    (hdelete : b.deletes_late c = false) :
    Allows m c (b.call c).2 ∧
      Deadlines.Lags c.at_.later (b.call c).1.entries (BackendSpec.after m c) := by
  obtain ⟨op, r⟩ := c
  cases op with
  | get key =>
    obtain ⟨hvalue, hlags⟩ := get_refines h ht
    exact ⟨congrArg value hvalue, hlags⟩
  | set key value ttl =>
    refine ⟨rfl, ?_⟩
    show Deadlines.Lags r.later (b.set r key value ttl).entries _
    rw [set_eq_put, put_entries (hroom key _ rfl)]
    exact (h.mono (ht.trans r.now_le_later)).update key _
  | delete key =>
    obtain ⟨hflag, hlags⟩ := delete_refines h ht hdelete
    exact ⟨congrArg flag hflag, hlags⟩
  | incr key by_ =>
    obtain ⟨hcount, hlags⟩ := incr_refines h ht fun e => hroom key e rfl
    exact ⟨congrArg BackendAnswer.count hcount, hlags⟩
  | incr_with_ttl key by_ ttl =>
    obtain ⟨hcount, hlags⟩ := incr_with_ttl_refines h ht fun e => hroom key e rfl
    exact ⟨congrArg BackendAnswer.count hcount, hlags⟩
  | compare_and_swap key expected new ttl =>
    obtain ⟨hflag, hlags⟩ := compare_and_swap_refines h ht
    exact ⟨congrArg flag hflag, hlags⟩
  | prefix_scan start => exact prefix_scan_refines h ht

end Step

/-! ## A sequence of calls -/

def StoredIn (keys : List Text) (b : InMemoryBackend) : Prop :=
  ∀ key e, b.store.get key = some e → key ∈ keys

variable {b : InMemoryBackend} {keys : List Text}

theorem StoredIn.room (h : b.StoredIn keys) (hkeys : keys.length ≤ b.max_entries) {key : Text}
    (hkey : key ∈ keys) (e : BackendEntry) : (b.store.insert key e).len ≤ b.max_entries := by
  exact (len_le_length (forall_insert h hkey)).trans hkeys

theorem put_le {key : Text} {e : BackendEntry} : (b.put key e).store ≤ b.store.insert key e := by
  unfold put track_new_key evict_over_cap
  simp only
  split_ifs
  · exact le_refl _
  · rw [compacted_store]
    refine (evict_loop_le _ _ _).trans ?_
    rw [compacted_store]
  · rw [compacted_store]

theorem StoredIn.call (h : b.StoredIn keys) {c : BackendCall}
    (hc : ∀ key, c.op.written = some key → key ∈ keys) : (b.call c).1.StoredIn keys := by
  have hinsert : ∀ key e, c.op.written = some key → StoredIn keys { b with
      store := b.store.insert key e } := fun key e hwritten => forall_insert h (hc key hwritten)
  obtain ⟨store, hcall, -, hold⟩ | ⟨key, e, hqueued, hcall⟩ | ⟨-, key, e, hwritten, hcall⟩ :=
    call_cases b c
  · rw [hcall]
    intro key e hget
    obtain ⟨e', hget'⟩ := hold key e hget
    exact h key e' hget'
  · rw [hcall]
    have hinserted := hinsert key e (BackendOp.written_of_queued hqueued)
    exact fun key' e' hget => hinserted key' e' (put_le key' e' hget)
  · rw [hcall]
    exact hinsert key e hwritten

theorem answers_conform {m : State} {t : ℕ} {cs : List BackendCall}
    (hlen : keys.length ≤ b.max_entries)
    (hwritten : ∀ c ∈ cs, ∀ key, c.op.written = some key → key ∈ keys) (hstored : b.StoredIn keys)
    (hlags : Deadlines.Lags t b.entries m) (hordered : BackendSpec.Ordered t cs)
    (hdelete : b.ever deletes_late cs = false) : Conforms m cs (b.answers cs) := by
  induction cs generalizing b m t with
  | nil => rfl
  | cons c cs ih =>
    obtain ⟨hc, hcs⟩ := Bool.or_eq_false_iff.mp hdelete
    have hmine := hwritten c mem_cons_self
    have hroom := fun key e hkey => hstored.room hlen (hmine key hkey) e
    obtain ⟨hallows, hlags'⟩ := call_refines hlags hordered.1 hroom hc
    refine ⟨_, _, rfl, hallows, ih ?_ ?_ (hstored.call hmine) hlags' hordered.2 hcs⟩
    · rw [call_max_entries]
      exact hlen
    · exact fun c' hc' => hwritten c' (mem_cons_of_mem c hc')

/-- **The backend refines a map with deadlines.** Any calls, with any keys, values, times to live
and readings of the clock: if the keys that are written do not exceed the cap, and no `delete` comes
across an expired entry, every answer is that of the map. -/
theorem refines_deadlines (max_entries : ℕ) (cs : List BackendCall)
    (hkeys : (cs.filterMap (·.op.written)).dedup.length ≤ max_entries)
    (hordered : BackendSpec.Ordered 0 cs)
    (hdelete : (with_max_entries max_entries).ever deletes_late cs = false) :
    Conforms (fun _ => none) cs ((with_max_entries max_entries).answers cs) := by
  refine answers_conform hkeys ?_ ?_ (fun key => .inl ?_) hordered hdelete
  · intro c hc key hkey
    exact mem_dedup.mpr (mem_filterMap.mpr ⟨c, hc, hkey⟩)
  · intro key e hget
    rw [with_max_entries, get_empty] at hget
    cases hget
  · exact get_empty key

theorem refines_deadlines_sample :
    let cs := [⟨.incr_with_ttl (ascii "a") 1 10, .at 0⟩, ⟨.incr_with_ttl (ascii "a") 1 10, .at 5⟩,
      ⟨.get (ascii "a"), .at 10⟩, ⟨.incr_with_ttl (ascii "a") 1 10, .at 11⟩]
    (with_max_entries 1).answers cs = [.count 1, .count 2, .value none, .count 1] ∧
      Conforms (fun _ => none) cs ((with_max_entries 1).answers cs) := by
  intro cs
  refine ⟨by decide +kernel, refines_deadlines 1 cs (by decide) ?_ (by decide +kernel)⟩
  simp [cs, BackendSpec.Ordered, Readings.at]

/-- **`delete` sees what has expired**: the entry was to live until 10, and at 10 `delete` answers
that it existed; the map allows only the answer for an absent key. The second run shows that it is
the keys that were written which count, not those that live: with two live keys in a backend for
two, a third that has expired is kept, and one of the two is evicted. -/
theorem delete_reports_expired : let late : List BackendCall :=
      [⟨.set (ascii "a") [1] (some 10), .at 0⟩, ⟨.delete (ascii "a"), .at 10⟩]
    let crowded : List BackendCall :=
      [⟨.set (ascii "a") [1] none, .at 0⟩, ⟨.set (ascii "b") [1] (some 10), .at 0⟩,
        ⟨.set (ascii "c") [1] none, .at 10⟩, ⟨.get (ascii "a"), .at 10⟩]
    (with_max_entries 1).answers late = [.done, .flag true] ∧
      ¬ Conforms (fun _ => none) late ((with_max_entries 1).answers late) ∧
      (with_max_entries 2).answers crowded = [.done, .done, .done, .value none] ∧
      ¬ Conforms (fun _ => none) crowded ((with_max_entries 2).answers crowded) := by
  intro late crowded
  have hlate : (with_max_entries 1).answers late = [.done, .flag true] := by decide +kernel
  have hcrowded : (with_max_entries 2).answers crowded = [.done, .done, .done, .value none] := by
    decide +kernel
  rw [hlate, hcrowded]
  refine ⟨rfl, ?_, rfl, ?_⟩
  · rintro ⟨_, _, h₁, -, _, _, h₂, hallows, -⟩
    cases h₁
    cases h₂
    cases hallows
  · rintro ⟨_, _, h₁, -, _, _, h₂, -, _, _, h₃, -, _, _, h₄, hallows, -⟩
    cases h₁
    cases h₂
    cases h₃
    cases h₄
    cases hallows

end InMemoryBackend

end Saacp
