/-
**Edits of a stored transparency log entry.**

`compute_entry_hash` is over the recorded fields of an entry, printed and joined with bars. Two
things about the text are not injective: a missing field is printed like an empty one, and a bar
inside a free text is printed like the bar between two fields. Everything else is
(`recorded_of_rendered`); it is enough that the entry that was written is free of bars.
-/
import Saacp.TransparencyFiles

set_option autoImplicit false

open ByteCodec Lines

namespace Saacp

open List

/-! ## Recorded fields -/

namespace TransparencyLogEntry

/-- The recorded fields: the entry without its hashes and its signature. -/
def recorded (e : TransparencyLogEntry) : TransparencyLogEntry :=
  { e with entry_hash := [], chain_hash := [], entry_signature := [] }

def blank_absent (e : TransparencyLogEntry) : TransparencyLogEntry :=
  { e with
    jti := some (e.jti.getD [])
    kid := some (e.kid.getD [])
    parent_jti_hash := some (e.parent_jti_hash.getD []) }

structure NoBars (e : TransparencyLogEntry) : Prop where
  event_type : 124 ∉ e.event_type
  jti : 124 ∉ e.jti.getD []
  kid : 124 ∉ e.kid.getD []
  issuer_id : 124 ∉ e.issuer_id

end TransparencyLogEntry

open TransparencyLogEntry FilesystemBackend

/-- No two doubles are printed alike, none with a bar, and a blank line is no entry. -/
structure LogFileCrates.Printing (C : LogFileCrates) : Prop extends C.Lawful where
  display_injective : Function.Injective C.f64_display
  display_no_bar : ∀ x, 124 ∉ C.f64_display x
  blank : ∀ line, C.trim line = [] → ∀ e, C.entry_from_str line ≠ .ok e

section

variable {H : Hashes} {C : LogFileCrates}

/-! ## What is joined -/

theorem bar_notMem_hexText (bs : List UInt8) : (124 : UInt8) ∉ hexText bs := by
  intro h
  have hdigit := hexText_digits h
  have hvalue : (124 : UInt8).toNat = 124 := rfl
  omega

theorem bar_notMem_decimal (n : ℕ) : (124 : UInt8) ∉ Json.decimal n := by
  intro h
  have hdigit := Json.digit_of_mem_decimalDigits h
  have hvalue : (124 : UInt8).toNat = 124 := rfl
  omega

theorem bar_notMem_rendered (hC : C.Printing) {ev : LogEvent} {prev_hash : Text}
    (h : (ev.linked H C.toLogCrates prev_hash).NoBars) :
    ∀ field ∈ (ev.linked H C.toLogCrates prev_hash).rendered C.toLogCrates,
      (124 : UInt8) ∉ field := by
  obtain ⟨chain, sig, heq⟩ : ∃ chain sig, ev.linked H C.toLogCrates prev_hash =
      { ev.entry H C.toLogCrates with chain_hash := chain, entry_signature := sig } := by
    rw [LogEvent.linked]
    cases ev.signing_key with
    | none | some => exact ⟨_, _, rfl⟩
  rw [heq] at h ⊢
  have hparent : (124 : UInt8) ∉ ((ev.parent_jti.map (sha256_hex H)).getD []) := by
    cases ev.parent_jti with
    | none => exact not_mem_nil
    | some p => exact bar_notMem_hexText _
  simp only [rendered, LogEvent.entry, forall_mem_cons]
  exact ⟨bar_notMem_hexText _, h.event_type, h.jti, h.kid, h.issuer_id, bar_notMem_hexText _,
    bar_notMem_hexText _, bar_notMem_hexText _, hC.display_no_bar _, bar_notMem_decimal _, hparent,
    by rintro _ ⟨⟩⟩

variable {e edited : TransparencyLogEntry}

theorem mem_link_all {seed : Text} {events : List LogEvent}
    (h : e ∈ link_all H C.toLogCrates seed events) :
    ∃ (ev : LogEvent) (prev_hash : Text), e = ev.linked H C.toLogCrates prev_hash := by
  induction events generalizing seed with
  | nil => exact absurd h not_mem_nil
  | cons ev events ih =>
    rw [link_all, mem_cons] at h
    rcases h with rfl | h
    · exact ⟨ev, seed, rfl⟩
    · exact ih h

theorem recorded_of_rendered (hC : C.Printing)
    (h : edited.rendered C.toLogCrates = e.rendered C.toLogCrates) :
    edited.blank_absent.recorded = e.blank_absent.recorded := by
  simp only [rendered, cons.injEq, and_true] at h
  obtain ⟨hid, hevent, hjti, hkid, hissuer, hsub, haud, hactions, htime, hdepth, hparent⟩ := h
  have hdepth' : edited.delegation_depth = e.delegation_depth :=
    UInt64.toNat.inj (Json.decimal_injective edited.delegation_depth.toNat_lt
      e.delegation_depth.toNat_lt hdepth)
  simp only [recorded, blank_absent, hid, hevent, hjti, hkid, hissuer, hsub, haud, hactions,
    hC.display_injective htime, hdepth', hparent]

/-! ## What is refused -/

theorem replay_refused {ls : List Text} {es : List TransparencyLogEntry}
    (hread : ls.map C.entry_from_str = es.map .ok) (hblank : ∀ l ∈ ls, C.trim l ≠ [])
    (line_no : ℕ) (prev_hash : Text) (mirror : Factf.InMemoryBackend) :
    (∃ message, FilesystemBackend.replay H C line_no prev_hash mirror ls = .error message) ↔
      verify_from H C.toLogCrates prev_hash es = false := by
  induction ls generalizing es line_no prev_hash mirror with
  | nil =>
    obtain rfl := map_eq_nil_iff.mp hread.symm
    simp [FilesystemBackend.replay, verify_from]
  | cons l ls ih =>
    obtain ⟨entry, es, rfl, hentry, hrest⟩ := map_eq_cons_iff.mp hread.symm
    rw [FilesystemBackend.replay, if_neg (hblank l mem_cons_self), ← hentry, verify_from]
    by_cases hhash : entry.compute_entry_hash H C.toLogCrates = entry.entry_hash
    · by_cases hchain : sha256_hex H (prev_hash ++ entry.entry_hash) = entry.chain_hash
      · simp only [hhash, hchain, ne_eq, not_true_eq_false, if_false]
        exact ih hrest.symm (fun l hl => hblank l (mem_cons_of_mem _ hl)) _ _ _
      · simp [hhash, hchain]
    · simp [hhash]

/-- An entry of a chain is replaced by another one with the same hashes. -/
theorem verify_from_set {es : List TransparencyLogEntry} {seed : Text} {i : ℕ}
    (h : verify_from H C.toLogCrates seed es = true) (he : es[i]? = some e)
    (hhash : edited.entry_hash = e.entry_hash) (hchain : edited.chain_hash = e.chain_hash) :
    verify_from H C.toLogCrates seed (es.set i edited) = true ↔
      edited.compute_entry_hash H C.toLogCrates = e.compute_entry_hash H C.toLogCrates := by
  induction es generalizing seed i with
  | nil => cases he
  | cons first es ih =>
    obtain ⟨hentry, hlink, hrest⟩ := verify_from_cons.mp h
    cases i with
    | zero =>
      obtain rfl := Option.some.inj he
      rw [set_cons_zero, verify_from_cons, hhash, hchain, hentry]
      exact and_iff_left ⟨hlink, hrest⟩
    | succ i =>
      rw [set_cons_succ, verify_from_cons, ih hrest he]
      exact ⟨fun h => h.2.2, fun h => ⟨hentry, hlink, h⟩⟩

/-- **When an edit of a recorded field is refused.** The file is one that a log has written, with
one of its lines replaced by one that is read as another entry with the same hashes. It is refused
if the fields joined with bars differ: so, if the entry that was written has no bar in its free
texts, whenever the edit does more than to turn a missing field into an empty one or back. -/
theorem edit_refused (hH : Function.Injective H.sha256) (hC : C.Printing) (disk : LogDisk)
    (events : List LogEvent) (i : ℕ) (e : TransparencyLogEntry)
    (he : (link_all H C.toLogCrates (start_hash C disk) events)[i]? = some e) (line : Text)
    (edited : TransparencyLogEntry) (hline : IsLine line)
    (hparse : C.entry_from_str line = .ok edited) (hhash : edited.entry_hash = e.entry_hash)
    (hchain : edited.chain_hash = e.chain_hash)
    (hdisk : C.read_to_string disk.active = some (unlines
      (((link_all H C.toLogCrates (start_hash C disk) events).map C.entry_to_string).set i line)))
    (max_file_size : UInt64) :
    let joined (e : TransparencyLogEntry) := intercalate [124] (e.rendered C.toLogCrates)
    ((∃ message, FilesystemBackend.open_with_max_file_size H C disk max_file_size =
        .error message) ↔ joined edited ≠ joined e) ∧
      (e.NoBars → edited.blank_absent.recorded ≠ e.blank_absent.recorded →
        joined edited ≠ joined e) := by
  intro joined
  set es := link_all H C.toLogCrates (start_hash C disk) events with hes
  have hlines : lines ((C.read_to_string disk.active).getD []) =
      (es.map C.entry_to_string).set i line := by
    rw [hdisk, Option.getD_some]
    apply lines_unlines
    intro l hl
    rcases mem_or_eq_of_mem_set hl with hl | rfl
    · obtain ⟨entry, -, rfl⟩ := mem_map.mp hl
      exact hC.is_line entry
    · exact hline
  have hread : ((es.map C.entry_to_string).set i line).map C.entry_from_str =
      (es.set i edited).map .ok := by
    rw [map_set, map_set, hparse, map_map]
    exact congrArg (set · i (.ok edited)) (map_congr_left fun e _ => hC.from_str_to_string e)
  have hblank : ∀ l ∈ (es.map C.entry_to_string).set i line, C.trim l ≠ [] := by
    intro l hl
    rcases mem_or_eq_of_mem_set hl with hl | rfl
    · obtain ⟨entry, -, rfl⟩ := mem_map.mp hl
      exact hC.not_blank entry
    · exact fun htrim => hC.blank l htrim edited hparse
  constructor
  · have hopen : (∃ message, FilesystemBackend.open_with_max_file_size H C disk max_file_size =
        .error message) ↔ ∃ message, FilesystemBackend.replay H C 0 (start_hash C disk) .new
          (lines ((C.read_to_string disk.active).getD [])) = .error message := by
      rw [open_with_max_file_size]
      cases FilesystemBackend.replay H C 0 (start_hash C disk) .new
        (lines ((C.read_to_string disk.active).getD [])) <;> simp
    rw [hopen, hlines, replay_refused hread hblank, ← Bool.not_eq_true,
      verify_from_set (verify_from_link_all _ _ _ events) he hhash hchain]
    exact not_congr ⟨fun h => hH (hexText_injective h),
      congrArg fun text => hexText (H.sha256 text)⟩
  · intro hbars hedit hjoined
    obtain ⟨ev, prev_hash, rfl⟩ := mem_link_all (mem_of_getElem? he)
    -- the number of fields is the same, so no bar of the edited texts is one too many
    have hrendered := eq_of_intercalate_eq (by rfl) (bar_notMem_rendered hC hbars) hjoined.symm
    exact hedit (recorded_of_rendered hC hrendered.symm)

end

/-! ## Edits of one line -/

theorem sampleLogFiles_printing : sampleLogFiles.Printing where
  toLawful := sampleLogFiles_lawful
  display_injective x y h :=
    F64.eq_of_bits (UInt64.toNat.inj (Json.decimal_injective x.bits.toNat_lt y.bits.toNat_lt h))
  display_no_bar x := bar_notMem_decimal _
  blank line h := by
    have hnil : line = [] := h
    subst hnil
    intro e
    exact nofun

def sampleStored (jti kid : Option Text) : TransparencyLogEntry :=
  LogEvent.linked sampleIdeal sampleLogCrates { sampleLogEvent 97 with jti, kid } GENESIS_CHAIN_HASH

def sampleEdited (e : TransparencyLogEntry) (jti kid : Option Text) : TransparencyLogEntry :=
  { e with jti, kid }

def sampleLogDisk (e : TransparencyLogEntry) : LogDisk :=
  { LogDisk.empty with active := some (file_of sampleLogFiles [e]) }

def sampleOtherToken : TransparencyLogEntry :=
  sampleEdited (sampleStored (some (ascii "j")) (some (ascii "k"))) (some (ascii "x"))
    (some (ascii "k"))

theorem edit_refused_sample :
    ∃ message, FilesystemBackend.open_with_max_file_size sampleIdeal sampleLogFiles
      (sampleLogDisk sampleOtherToken) 0 = .error message := by
  obtain ⟨hrefused, hfields⟩ := edit_refused sampleIdeal_injective sampleLogFiles_printing
    (sampleLogDisk sampleOtherToken)
    [{ sampleLogEvent 97 with jti := some (ascii "j"), kid := some (ascii "k") }] 0
    (sampleStored (some (ascii "j")) (some (ascii "k"))) rfl
    (sampleLogFiles.entry_to_string sampleOtherToken) sampleOtherToken
    (sampleLogFiles_lawful.is_line _) (sampleLogFiles_lawful.from_str_to_string _) rfl rfl rfl 0
  exact hrefused.mpr (hfields ⟨by decide, by decide, by decide, by decide⟩ (by decide))

def sampleBarred : TransparencyLogEntry := sampleStored (some (ascii "j|k")) (some (ascii "l"))
def sampleKeyless : TransparencyLogEntry := sampleStored (some (ascii "j")) none

def sampleMoved : TransparencyLogEntry :=
  sampleEdited sampleBarred (some (ascii "j")) (some (ascii "k|l"))

def sampleBlankKey : TransparencyLogEntry :=
  sampleEdited sampleKeyless (some (ascii "j")) (some [])

theorem moved_bar_accepted :
    sampleMoved.recorded ≠ sampleBarred.recorded ∧
      (FilesystemBackend.open_with_max_file_size sampleIdeal sampleLogFiles
        (sampleLogDisk sampleMoved) 0).toOption.isSome ∧
      sampleBlankKey.recorded ≠ sampleKeyless.recorded ∧
      (FilesystemBackend.open_with_max_file_size sampleIdeal sampleLogFiles
        (sampleLogDisk sampleBlankKey) 0).toOption.isSome := by
  decide +kernel

end Saacp
