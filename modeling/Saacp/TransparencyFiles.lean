/-
**The transparency log on disk**: one JSON line per entry, rotation, and restarts.

A file that has grown past its bound is renamed after the time, and a sidecar file gets the chain
hash of its last entry: the *floor* from which the next active file has to be verified. The log
object on top starts from the entries that were replayed, but its own floor is the genesis hash.

A run is a list of phases: the backend is opened, wrapped, used from one thread and dropped. What
the files hold (`LogDisk.Holds`) and what the object over them knows (`Session`) is said with the
list of all events so far.
-/
import Saacp.GatewaySpecs
import Saacp.Lines
import Saacp.TransparencyRaces

set_option autoImplicit false

open ByteCodec Lines

namespace Saacp

open HashChain List Option

open TransparencyLogEntry

/-! ## The file backend -/

structure LogFileCrates extends LogCrates where
  entry_to_string : TransparencyLogEntry → Text
  entry_from_str : Text → Except Text TransparencyLogEntry
  trim : Text → Text
  debug : Text → Text
  is_utf8 : Text → Bool

/-- `read_to_string`: nothing of a file that is not UTF-8. -/
def LogFileCrates.read_to_string (C : LogFileCrates) (file : Option Text) : Option Text :=
  file.filter C.is_utf8

/-- The active file, the sidecar with the floor, and the renamed ones under the seconds in their
names, also in the order in which they were renamed. -/
structure LogDisk where
  active : Option Text
  floor : Option Text
  rotated : List (ℕ × Text)
  renames : List ℕ

namespace LogDisk

def empty : LogDisk := ⟨none, none, [], []⟩

def files (disk : LogDisk) : List Text := disk.rotated.map Prod.snd ++ [disk.active.getD []]

def rename_active (disk : LogDisk) (secs : ℕ) : LogDisk :=
  { disk with
    active := none
    rotated := disk.rotated.filter (·.1 ≠ secs) ++ [(secs, disk.active.getD [])]
    renames := disk.renames ++ [secs] }

end LogDisk

structure FilesystemBackend (C : LogFileCrates) where
  disk : LogDisk
  size : ℕ
  last_chain_hash : Text
  mirror : Factf.InMemoryBackend
  max_file_size : UInt64

def FilesystemBackend.replay (H : Hashes) (C : LogFileCrates) (line_no : ℕ) (prev_hash : Text)
    (mirror : Factf.InMemoryBackend) : List Text → Except Text (Text × Factf.InMemoryBackend)
  | [] => .ok (prev_hash, mirror)
  | line :: rest =>
    if C.trim line = [] then replay H C (line_no + 1) prev_hash mirror rest
    else
      match C.entry_from_str line with
      | .error e =>
        .error (ascii "line " ++ Json.decimal (line_no + 1) ++ ascii ": malformed JSON: " ++ e)
      | .ok entry =>
        if entry.compute_entry_hash H C.toLogCrates ≠ entry.entry_hash then
          .error (ascii "line " ++ Json.decimal (line_no + 1) ++
            ascii ": entry_hash mismatch (entry_id=" ++ C.debug entry.entry_id ++
            ascii ") — tampering or corruption detected")
        else if sha256_hex H (prev_hash ++ entry.entry_hash) ≠ entry.chain_hash then
          .error (ascii "line " ++ Json.decimal (line_no + 1) ++
            ascii ": chain_hash mismatch (entry_id=" ++ C.debug entry.entry_id ++
            ascii ") — tampering, truncation, or reordering detected")
        else replay H C (line_no + 1) entry.chain_hash (mirror.append entry).1 rest

namespace FilesystemBackend

variable {C : LogFileCrates}

/-- What the first line of the active file is verified against. -/
def start_hash (C : LogFileCrates) (disk : LogDisk) : Text :=
  (((C.read_to_string disk.floor).map C.trim).filter (· ≠ [])).getD GENESIS_CHAIN_HASH

/-- `open_with_max_file_size`; `open` passes a constant. -/
def open_with_max_file_size (H : Hashes) (C : LogFileCrates) (disk : LogDisk)
    (max_file_size : UInt64) : Except Text (FilesystemBackend C) :=
  match replay H C 0 (start_hash C disk) .new
      (lines ((C.read_to_string disk.active).getD [])) with
  | .error e => .error e
  | .ok (prev_hash, mirror) => .ok {
      disk := { disk with active := some (disk.active.getD []) }
      size := (disk.active.getD []).length
      last_chain_hash := prev_hash
      mirror := mirror
      max_file_size := max_file_size }

def maybe_rotate (now : ℚ) (b : FilesystemBackend C) : FilesystemBackend C :=
  if b.size ≤ b.max_file_size.toNat then b
  else
    let disk := { b.disk with floor := some b.last_chain_hash }
    let disk := disk.rename_active now.floor.toNat
    { b with disk := { disk with active := some [] }, size := 0 }

def write_line (b : FilesystemBackend C) (entry : TransparencyLogEntry) : FilesystemBackend C :=
  let line := C.entry_to_string entry
  { b with
    disk := { b.disk with active := some (b.disk.active.getD [] ++ (line ++ [lf])) }
    size := b.size + (line.length + 1)
    last_chain_hash := entry.chain_hash }

def append (now : ℚ) (b : FilesystemBackend C) (entry : TransparencyLogEntry) :
    FilesystemBackend C × Option TransparencyLogEntry :=
  let b := (b.maybe_rotate now).write_line entry
  let (mirror, evicted) := b.mirror.append entry
  ({ b with mirror }, evicted)

instance backend : TransparencyLogBackend (FilesystemBackend C) where
  append := append
  get_all b := b.mirror.entries
  count b := b.mirror.entries.length

end FilesystemBackend

/-! ## Phases -/

inductive LogStep
  | append (ev : LogEvent) (now : ℚ)
  | verify_chain_integrity

/-- The log is opened, used from one thread, and dropped. -/
structure LogPhase where
  max_file_size : UInt64
  steps : List LogStep

section

variable (H : Hashes) (C : LogFileCrates)

def LogStep.run (log : CapabilityTransparencyLog (FilesystemBackend C)) :
    LogStep → CapabilityTransparencyLog (FilesystemBackend C)
  | .append ev now => (log.append H C.toLogCrates now ev).1
  | .verify_chain_integrity => (log.verify_chain_integrity H C.toLogCrates).1

def LogPhase.run (disk : LogDisk) (p : LogPhase) :
    Except Text (CapabilityTransparencyLog (FilesystemBackend C)) :=
  match FilesystemBackend.open_with_max_file_size H C disk p.max_file_size with
  | .error e => .error e
  | .ok backend => .ok (p.steps.foldl (LogStep.run H C) (.with_backend backend))

def run_phases : LogDisk → List LogPhase → Except Text LogDisk
  | disk, [] => .ok disk
  | disk, p :: phases =>
    match p.run H C disk with
    | .error e => .error e
    | .ok log => run_phases log.backend.disk phases

end

def LogStep.event : LogStep → Option LogEvent
  | .append ev _ => some ev
  | .verify_chain_integrity => none

def LogPhase.events (p : LogPhase) : List LogEvent := p.steps.filterMap LogStep.event

/-- The entries of events that were appended one after the other. -/
def link_all (H : Hashes) (C : LogCrates) : Text → List LogEvent → List TransparencyLogEntry
  | _, [] => []
  | prev_hash, ev :: events =>
    ev.linked H C prev_hash :: link_all H C (ev.linked H C prev_hash).chain_hash events

theorem verify_from_link_all (H : Hashes) (C : LogCrates) (seed : Text) (events : List LogEvent) :
    verify_from H C seed (link_all H C seed events) = true := by
  induction events generalizing seed with
  | nil => rfl
  | cons ev events ih =>
    obtain ⟨-, hhash, hchain⟩ := linked_fields (H := H) (C := C) ev seed
    refine verify_from_cons.mpr ⟨compute_entry_hash_linked ev seed, ?_, ih _⟩
    rw [hhash, hchain]

theorem link_all_concat (H : Hashes) (C : LogCrates) (seed : Text) (events : List LogEvent)
    (ev : LogEvent) :
    link_all H C seed (events ++ [ev]) = link_all H C seed events ++
      [ev.linked H C (head chain_hash seed (link_all H C seed events))] := by
  induction events generalizing seed with
  | nil => rfl
  | cons first events ih =>
    rw [cons_append, link_all, ih, link_all, HashChain.head_cons, cons_append]

theorem length_link_all (H : Hashes) (C : LogCrates) (seed : Text) (events : List LogEvent) :
    (link_all H C seed events).length = events.length := by
  induction events generalizing seed with
  | nil => rfl
  | cons ev events ih => rw [link_all, length_cons, ih, length_cons]

variable {es : List TransparencyLogEntry}

theorem head_of_verify_from {H : Hashes} {C : LogCrates} {seed : Text}
    (h : verify_from H C seed es = true) (hne : es ≠ []) :
    ∃ data, head chain_hash seed es = sha256_hex H data := by
  obtain ⟨front, e, rfl⟩ := (eq_nil_or_concat' es).resolve_left hne
  obtain ⟨-, hlast⟩ := verify_from_append.mp h
  obtain ⟨-, hchain, -⟩ := verify_from_cons.mp hlast
  rw [head_concat]
  exact ⟨_, hchain.symm⟩

/-! ## What is assumed of the crates -/

/-- `serde_json` reads what it has written, on one line, and hexadecimal text has no blanks around
it. -/
structure LogFileCrates.Lawful (C : LogFileCrates) : Prop where
  from_str_to_string : ∀ e, C.entry_from_str (C.entry_to_string e) = .ok e
  is_line : ∀ e, IsLine (C.entry_to_string e)
  not_blank : ∀ e, C.trim (C.entry_to_string e) ≠ []
  trim_hex : ∀ bs, C.trim (hexText bs) = hexText bs
  utf8_hex : ∀ bs, C.is_utf8 (hexText bs) = true
  utf8_file : ∀ es : List TransparencyLogEntry,
    C.is_utf8 (unlines (es.map C.entry_to_string)) = true

section

variable {H : Hashes} {C : LogFileCrates}

def file_of (C : LogFileCrates) (es : List TransparencyLogEntry) : Text :=
  unlines (es.map C.entry_to_string)

theorem lines_file_of (hC : C.Lawful) (es : List TransparencyLogEntry) :
    lines (file_of C es) = es.map C.entry_to_string := by
  apply lines_unlines
  intro l hl
  obtain ⟨e, -, rfl⟩ := mem_map.mp hl
  exact hC.is_line e

theorem file_of_concat (es : List TransparencyLogEntry) (e : TransparencyLogEntry) :
    file_of C (es ++ [e]) = file_of C es ++ (C.entry_to_string e ++ [lf]) := by
  rw [file_of, map_append, map_singleton, unlines_concat, file_of]

theorem parse_files (hC : C.Lawful) (all : List (List TransparencyLogEntry)) :
    ((all.map (file_of C)).flatMap lines).map C.entry_from_str = all.flatten.map .ok := by
  induction all with
  | nil => rfl
  | cons es all ih =>
    rw [map_cons, flatMap_cons, map_append, ih, flatten_cons, map_append,
      lines_file_of hC, List.map_map]
    congr 1
    refine map_congr_left ?_
    intro e _
    exact hC.from_str_to_string e

theorem replay_of_verify_from (hC : C.Lawful) {prev_hash : Text}
    (h : verify_from H C.toLogCrates prev_hash es = true) (line_no : ℕ)
    (mirror : Factf.InMemoryBackend) :
    FilesystemBackend.replay H C line_no prev_hash mirror (es.map C.entry_to_string) =
      .ok (head chain_hash prev_hash es, es.foldl (fun m e => (m.append e).1) mirror) := by
  induction es generalizing line_no prev_hash mirror with
  | nil => rfl
  | cons e es ih =>
    obtain ⟨hentry, hchain, hrest⟩ := verify_from_cons.mp h
    rw [map_cons, FilesystemBackend.replay, if_neg (hC.not_blank e), hC.from_str_to_string]
    simp only [hentry, hchain, ne_eq, not_true_eq_false, if_false]
    rw [ih hrest, HashChain.head_cons, foldl_cons]

theorem foldl_append (es : List TransparencyLogEntry) {mirror : Factf.InMemoryBackend}
    (h : mirror.entries.length + es.length ≤ mirror.max_entries) :
    es.foldl (fun m e => (m.append e).1) mirror =
      { mirror with entries := mirror.entries ++ es } := by
  induction es generalizing mirror with
  | nil => rw [append_nil, foldl_nil]
  | cons e es ih =>
    rw [length_cons] at h
    rw [foldl_cons, Factf.InMemoryBackend.append_of_lt (by omega), ih]
    · rw [append_assoc, singleton_append]
    · dsimp only
      rw [length_append, length_singleton]
      omega

end

/-! ## What the files hold -/

/-- The entries of the renamed files, one list each, and of the active file. -/
structure LogDisk.Holds (H : Hashes) (C : LogFileCrates) (disk : LogDisk)
    (old : List (List TransparencyLogEntry)) (newest : List TransparencyLogEntry) : Prop where
  chain : verify_from H C.toLogCrates GENESIS_CHAIN_HASH (old.flatten ++ newest) = true
  active : disk.active.getD [] = file_of C newest
  floor : disk.floor =
    if old = [] then none else some (HashChain.head chain_hash GENESIS_CHAIN_HASH old.flatten)
  renames : disk.renames.length = old.length
  old_ne : ∀ es ∈ old, es ≠ []
  newest_ne : old ≠ [] → newest ≠ []
  /-- Names are overwritten only if they occur again. -/
  rotated : disk.renames.Nodup →
    disk.rotated.map Prod.fst = disk.renames ∧ disk.rotated.map Prod.snd = old.map (file_of C)

section

variable {H : Hashes} {C : LogFileCrates} {disk : LogDisk} {e : TransparencyLogEntry}
  {old : List (List TransparencyLogEntry)} {newest : List TransparencyLogEntry}
  {events : List LogEvent}

namespace LogDisk.Holds

theorem of_empty : LogDisk.empty.Holds H C [] [] where
  chain := rfl
  active := rfl
  floor := rfl
  renames := rfl
  old_ne := nofun
  newest_ne h := absurd rfl h
  rotated _ := ⟨rfl, rfl⟩

variable (h : disk.Holds H C old newest)
include h

theorem start_hash_eq (hC : C.Lawful) (hH : ∀ msg, H.sha256 msg ≠ []) :
    FilesystemBackend.start_hash C disk = head chain_hash GENESIS_CHAIN_HASH old.flatten := by
  rw [FilesystemBackend.start_hash, h.floor]
  by_cases hold : old = []
  · rw [if_pos hold, hold]
    rfl
  · rw [if_neg hold]
    have hne : old.flatten ≠ [] := by
      obtain ⟨es, rest, rfl⟩ := exists_cons_of_ne_nil hold
      have hes := h.old_ne es mem_cons_self
      rw [flatten_cons]
      exact fun hnil => hes (append_eq_nil_iff.mp hnil).1
    obtain ⟨data, hdata⟩ := head_of_verify_from (verify_from_append.mp h.chain).1 hne
    have hhex : sha256_hex H data ≠ [] := by
      intro hnil
      have hlength := congrArg length hnil
      rw [sha256_hex, length_hexText, length_nil] at hlength
      have hzero : (H.sha256 data).length = 0 := by omega
      exact hH data (length_eq_zero_iff.mp hzero)
    rw [hdata, sha256_hex, LogFileCrates.read_to_string, filter_some, if_pos (hC.utf8_hex _),
      map_some, hC.trim_hex, ← sha256_hex, filter_some, if_pos (decide_eq_true hhex), getD_some]

theorem read_active (hC : C.Lawful) :
    (C.read_to_string disk.active).getD [] = file_of C newest := by
  have hactive := h.active
  cases hfile : disk.active with
  | none =>
    rw [hfile] at hactive
    exact hactive
  | some file =>
    rw [hfile, getD_some] at hactive
    rw [hactive, LogFileCrates.read_to_string, filter_some, file_of, if_pos (hC.utf8_file newest),
      getD_some]

/-- **Opening succeeds**, with the newest entries in the mirror. -/
theorem open_eq (hC : C.Lawful) (hH : ∀ msg, H.sha256 msg ≠ [])
    (hroom : newest.length ≤ TRANSPARENCY_LOG_MAX_ENTRIES) (max_file_size : UInt64) :
    FilesystemBackend.open_with_max_file_size H C disk max_file_size = .ok {
      disk := { disk with active := some (file_of C newest) }
      size := (file_of C newest).length
      last_chain_hash := HashChain.head chain_hash GENESIS_CHAIN_HASH (old.flatten ++ newest)
      mirror := ⟨newest, TRANSPARENCY_LOG_MAX_ENTRIES⟩
      max_file_size := max_file_size } := by
  have hreplay := replay_of_verify_from (H := H) hC (verify_from_append.mp h.chain).2 0 .new
  rw [FilesystemBackend.open_with_max_file_size, h.read_active hC, h.active, lines_file_of hC,
    h.start_hash_eq hC hH,
    hreplay, foldl_append newest (by simpa [Factf.InMemoryBackend.new,
      Factf.InMemoryBackend.with_capacity] using hroom)]
  rw [HashChain.head_append]
  rfl

theorem write (hchain : verify_from H C.toLogCrates GENESIS_CHAIN_HASH
      (old.flatten ++ (newest ++ [e])) = true) :
    ({ disk with active := some (disk.active.getD [] ++ (C.entry_to_string e ++ [lf])) } :
      LogDisk).Holds H C old (newest ++ [e]) where
  chain := hchain
  active := by rw [file_of_concat, ← h.active, getD_some]
  floor := h.floor
  renames := h.renames
  old_ne := h.old_ne
  newest_ne _ := by simp
  rotated := h.rotated

theorem rotate_write (hne : newest ≠ []) (secs : ℕ)
    (hchain : verify_from H C.toLogCrates GENESIS_CHAIN_HASH
      (old.flatten ++ (newest ++ [e])) = true) :
    ({ ({ disk with
          floor := some (head chain_hash GENESIS_CHAIN_HASH (old.flatten ++ newest)) } :
            LogDisk).rename_active secs with
        active := some (C.entry_to_string e ++ [lf]) } :
      LogDisk).Holds H C (old ++ [newest]) [e] where
  chain := by
    rw [flatten_append, flatten_singleton, append_assoc]
    exact hchain
  active := by
    rw [getD_some, ← nil_append [e], file_of_concat]
    rfl
  floor := by
    rw [if_neg (by simp), flatten_append, flatten_singleton]
    rfl
  renames := by
    rw [LogDisk.rename_active, length_append, length_append, h.renames]
    rfl
  old_ne := forall_mem_append.mpr ⟨h.old_ne, forall_mem_singleton.mpr hne⟩
  newest_ne _ := by simp
  rotated hnodup := by
    obtain ⟨hbefore, -, hnew⟩ := nodup_append.mp hnodup
    obtain ⟨hnames, htexts⟩ := h.rotated hbefore
    have hkept : disk.rotated.filter (·.1 ≠ secs) = disk.rotated := by
      rw [filter_eq_self]
      intro f hf
      have hname : f.1 ∈ disk.renames := hnames ▸ mem_map_of_mem hf
      exact decide_eq_true (hnew f.1 hname secs mem_cons_self)
    rw [LogDisk.rename_active]
    dsimp only
    rw [hkept, map_append, map_append, hnames, htexts, map_append, h.active]
    exact ⟨rfl, rfl⟩

theorem lines_files (hC : C.Lawful) (hnodup : disk.renames.Nodup) :
    (disk.files.flatMap lines).map C.entry_from_str = (old.flatten ++ newest).map .ok := by
  have hfiles : disk.files = (old ++ [newest]).map (file_of C) := by
    rw [LogDisk.files, (h.rotated hnodup).2, h.active, map_append]
    rfl
  have hflat : old.flatten ++ newest = (old ++ [newest]).flatten := by
    rw [flatten_append, flatten_singleton]
  rw [hfiles, hflat, parse_files hC]

end LogDisk.Holds

/-! ## A phase -/

/-- What the log knows in the middle of a phase; `gone` was in renamed files when it was opened. -/
structure Session (H : Hashes) (C : LogFileCrates) (gone : List TransparencyLogEntry)
    (events : List LogEvent) (old : List (List TransparencyLogEntry))
    (newest : List TransparencyLogEntry)
    (log : CapabilityTransparencyLog (FilesystemBackend C)) : Prop where
  holds : log.backend.disk.Holds H C old newest
  entries : old.flatten ++ newest = link_all H C.toLogCrates GENESIS_CHAIN_HASH events
  size : log.backend.size = (file_of C newest).length
  last_written : log.backend.last_chain_hash = HashChain.head chain_hash GENESIS_CHAIN_HASH
    (link_all H C.toLogCrates GENESIS_CHAIN_HASH events)
  last_hash : log.last_hash = HashChain.head chain_hash GENESIS_CHAIN_HASH
    (link_all H C.toLogCrates GENESIS_CHAIN_HASH events)
  mirror : gone ++ log.backend.mirror.entries = link_all H C.toLogCrates GENESIS_CHAIN_HASH events
  capacity : log.backend.mirror.max_entries = TRANSPARENCY_LOG_MAX_ENTRIES
  floor : log.chain_floor_hash = GENESIS_CHAIN_HASH
  cached : gone = [] → ∀ c, log.cached_verification = some c → c.2 = true

namespace Session

variable {gone : List TransparencyLogEntry}
  {log : CapabilityTransparencyLog (FilesystemBackend C)}

theorem of_open (h : disk.Holds H C old newest)
    (hentries : old.flatten ++ newest = link_all H C.toLogCrates GENESIS_CHAIN_HASH events)
    (max_file_size : UInt64) :
    Session H C old.flatten events old newest (.with_backend {
      disk := { disk with active := some (file_of C newest) }
      size := (file_of C newest).length
      last_chain_hash := head chain_hash GENESIS_CHAIN_HASH (old.flatten ++ newest)
      mirror := ⟨newest, TRANSPARENCY_LOG_MAX_ENTRIES⟩
      max_file_size := max_file_size }) where
  holds := { h with active := rfl }
  entries := hentries
  size := rfl
  last_written := by rw [← hentries]; rfl
  last_hash := by
    show head chain_hash GENESIS_CHAIN_HASH newest = _
    rw [← hentries]
    -- the mirror is empty only if there are no entries at all
    by_cases hold : old = []
    · rw [hold]
      rfl
    · obtain ⟨front, e, rfl⟩ := (eq_nil_or_concat' newest).resolve_left (h.newest_ne hold)
      rw [← append_assoc, head_concat, head_concat]
  mirror := hentries
  capacity := rfl
  floor := rfl
  cached := nofun

variable (h : Session H C gone events old newest log)
include h

theorem append_eq (hroom : events.length < TRANSPARENCY_LOG_MAX_ENTRIES) (ev : LogEvent) (now : ℚ) :
    let entry := ev.linked H C.toLogCrates log.last_hash
    (log.append H C.toLogCrates now ev).1 = { log with
        backend := { (log.backend.maybe_rotate now).write_line entry with
          mirror := { log.backend.mirror with entries := log.backend.mirror.entries ++ [entry] } }
        last_hash := entry.chain_hash
        generation := log.generation + 1 } := by
  intro entry
  have hmirror : ((log.backend.maybe_rotate now).write_line entry).mirror = log.backend.mirror := by
    rw [FilesystemBackend.write_line, FilesystemBackend.maybe_rotate]
    split_ifs <;> rfl
  have hlength := congrArg length h.mirror
  rw [length_append, length_link_all] at hlength
  have hlt : log.backend.mirror.entries.length < log.backend.mirror.max_entries := by
    rw [h.capacity]
    omega
  have hstore : FilesystemBackend.append now log.backend entry =
      ({ (log.backend.maybe_rotate now).write_line entry with
          mirror := { log.backend.mirror with entries := log.backend.mirror.entries ++ [entry] } },
        none) := by
    rw [FilesystemBackend.append]
    simp only [hmirror, Factf.InMemoryBackend.append_of_lt hlt]
  rw [CapabilityTransparencyLog.append, CapabilityTransparencyLog.link]
  simp only [CapabilityTransparencyLog.store]
  rw [show TransparencyLogBackend.append now log.backend
    (ev.linked H C.toLogCrates log.last_hash) = _ from hstore]
  rfl

theorem written (ev : LogEvent) {entry : TransparencyLogEntry}
    (hentry : entry = ev.linked H C.toLogCrates log.last_hash) {backend : FilesystemBackend C}
    {old' : List (List TransparencyLogEntry)} {newest' : List TransparencyLogEntry}
    (hholds : (backend.write_line entry).disk.Holds H C old' newest')
    (hentries : old'.flatten ++ newest' = old.flatten ++ newest ++ [entry])
    (hsize : (backend.write_line entry).size = (file_of C newest').length) :
    Session H C gone (events ++ [ev]) old' newest' { log with
      backend := { backend.write_line entry with
        mirror := { log.backend.mirror with
          entries := log.backend.mirror.entries ++ [entry] } }
      last_hash := entry.chain_hash
      generation := log.generation + 1 } := by
  have hall := link_all_concat H C.toLogCrates GENESIS_CHAIN_HASH events ev
  rw [← h.last_hash, ← hentry] at hall
  exact {
    holds := hholds
    entries := by rw [hentries, h.entries, hall]
    size := hsize
    last_written := by rw [hall, head_concat]; rfl
    last_hash := by rw [hall, head_concat]
    mirror := by rw [hall, ← h.mirror, append_assoc]
    capacity := h.capacity
    floor := h.floor
    cached := h.cached }

/-- **An append keeps the session**, whether the file is renamed or not. -/
theorem append (hroom : events.length < TRANSPARENCY_LOG_MAX_ENTRIES) (ev : LogEvent) (now : ℚ) :
    ∃ old' newest', Session H C gone (events ++ [ev]) old' newest'
      (log.append H C.toLogCrates now ev).1 := by
  have hchain := verify_from_link_all H C.toLogCrates GENESIS_CHAIN_HASH (events ++ [ev])
  rw [link_all_concat, ← h.last_hash, ← h.entries, append_assoc] at hchain
  rw [h.append_eq hroom ev now]
  by_cases hsize : log.backend.size ≤ log.backend.max_file_size.toNat
  · refine ⟨old, newest ++ [ev.linked H C.toLogCrates log.last_hash], ?_⟩
    rw [FilesystemBackend.maybe_rotate, if_pos hsize]
    apply h.written ev rfl
    · exact h.holds.write hchain
    · rw [append_assoc]
    · rw [file_of_concat, length_append, length_append, ← h.size]
      rfl
  · refine ⟨old ++ [newest], [ev.linked H C.toLogCrates log.last_hash], ?_⟩
    have hne : newest ≠ [] := by
      rintro rfl
      rw [h.size] at hsize
      exact hsize (Nat.zero_le _)
    have hlast : log.backend.last_chain_hash =
        head chain_hash GENESIS_CHAIN_HASH (old.flatten ++ newest) := by
      rw [h.last_written, h.entries]
    rw [FilesystemBackend.maybe_rotate, if_neg hsize, hlast]
    apply h.written ev rfl
    · exact h.holds.rotate_write hne _ hchain
    · rw [flatten_append, flatten_singleton]
    · rw [← nil_append [_], file_of_concat, length_append, length_append]
      rfl

theorem verify (hgone : gone = []) : (log.verify_chain_integrity H C.toLogCrates).2 = true := by
  rw [CapabilityTransparencyLog.verify_chain_integrity]
  cases hcached : log.cached_verification.filter fun c => c.1 = log.generation with
  | some c => exact h.cached hgone c (filter_eq_some_iff.mp hcached).1
  | none =>
    show verify_from H C.toLogCrates log.chain_floor_hash log.backend.mirror.entries = true
    have hmirror := h.mirror
    rw [hgone, nil_append] at hmirror
    rw [h.floor, hmirror]
    exact verify_from_link_all H C.toLogCrates GENESIS_CHAIN_HASH events

theorem verify_kept :
    Session H C gone events old newest (log.verify_chain_integrity H C.toLogCrates).1 := by
  have hverify := h.verify
  rw [CapabilityTransparencyLog.verify_chain_integrity] at hverify ⊢
  cases hcached : log.cached_verification.filter fun c => c.1 = log.generation with
  | some c => exact h
  | none =>
    simp only [hcached] at hverify
    refine { h with cached := ?_ }
    rintro hgone c hc
    cases hc
    exact hverify hgone

theorem step (s : LogStep)
    (hroom : (events ++ s.event.toList).length ≤ TRANSPARENCY_LOG_MAX_ENTRIES) :
    ∃ old' newest', Session H C gone (events ++ s.event.toList) old' newest' (s.run H C log) := by
  cases s with
  | append ev now =>
    refine h.append ?_ ev now
    rw [length_append] at hroom
    exact hroom
  | verify_chain_integrity =>
    rw [LogStep.event, toList_none, append_nil]
    exact ⟨old, newest, h.verify_kept⟩

theorem steps (steps : List LogStep)
    (hroom : (events ++ steps.filterMap LogStep.event).length ≤ TRANSPARENCY_LOG_MAX_ENTRIES) :
    ∃ old' newest', Session H C gone (events ++ steps.filterMap LogStep.event) old' newest'
      (steps.foldl (LogStep.run H C) log) := by
  induction steps generalizing events old newest log with
  | nil =>
    rw [filterMap_nil, append_nil]
    exact ⟨old, newest, h⟩
  | cons s steps ih =>
    have hsplit : events ++ (s :: steps).filterMap LogStep.event =
        (events ++ s.event.toList) ++ steps.filterMap LogStep.event := by
      rw [append_assoc, filterMap_cons]
      cases s.event <;> rfl
    rw [hsplit] at hroom ⊢
    obtain ⟨old', newest', hstep⟩ := h.step s (by rw [length_append] at hroom; omega)
    exact ih hstep hroom

end Session

/-! ## One phase after the other -/

theorem run_phase (hC : C.Lawful) (hH : ∀ msg, H.sha256 msg ≠ [])
    (h : disk.Holds H C old newest)
    (hentries : old.flatten ++ newest = link_all H C.toLogCrates GENESIS_CHAIN_HASH events)
    (p : LogPhase) (hroom : (events ++ p.events).length ≤ TRANSPARENCY_LOG_MAX_ENTRIES) :
    ∃ log old' newest', p.run H C disk = .ok log ∧
      Session H C old.flatten (events ++ p.events) old' newest' log := by
  have hlength := congrArg length hentries
  rw [length_append, length_link_all] at hlength
  have hnewest : newest.length ≤ TRANSPARENCY_LOG_MAX_ENTRIES := by
    rw [length_append] at hroom
    omega
  obtain ⟨old', newest', hsteps⟩ := (Session.of_open h hentries p.max_file_size).steps p.steps hroom
  refine ⟨_, old', newest', ?_, hsteps⟩
  rw [LogPhase.run, h.open_eq hC hH hnewest]

theorem run_phases_ok (hC : C.Lawful) (hH : ∀ msg, H.sha256 msg ≠ []) (phases : List LogPhase)
    (h : disk.Holds H C old newest)
    (hentries : old.flatten ++ newest = link_all H C.toLogCrates GENESIS_CHAIN_HASH events)
    (hroom : (events ++ phases.flatMap LogPhase.events).length ≤ TRANSPARENCY_LOG_MAX_ENTRIES) :
    ∃ disk' old' newest', run_phases H C disk phases = .ok disk' ∧ disk'.Holds H C old' newest' ∧
      old'.flatten ++ newest' = link_all H C.toLogCrates GENESIS_CHAIN_HASH
        (events ++ phases.flatMap LogPhase.events) := by
  induction phases generalizing disk events old newest with
  | nil =>
    rw [flatMap_nil, append_nil]
    exact ⟨disk, old, newest, rfl, h, hentries⟩
  | cons p phases ih =>
    rw [flatMap_cons, ← append_assoc] at hroom ⊢
    obtain ⟨log, old', newest', hrun, hsession⟩ :=
      run_phase hC hH h hentries p (by rw [length_append] at hroom; omega)
    obtain ⟨disk', old'', newest'', hrest, hdone⟩ := ih hsession.holds hsession.entries hroom
    refine ⟨disk', old'', newest'', ?_, hdone⟩
    rw [run_phases, hrun]
    exact hrest

/-- **Rotations and restarts.** After any phases, in the middle of another one: every opening has
succeeded, and if no two files were renamed in the same second the entries of all files are those
that were appended, in order, as one chain from genesis. If no file had been renamed when this phase
began, the log verifies. -/
theorem persisted_log (hC : C.Lawful) (hH : ∀ msg, H.sha256 msg ≠ []) (phases : List LogPhase)
    (p : LogPhase)
    (hroom : (phases.flatMap LogPhase.events ++ p.events).length < TRANSPARENCY_LOG_MAX_ENTRIES) :
    ∃ disk log entries, run_phases H C .empty phases = .ok disk ∧ p.run H C disk = .ok log ∧
      (log.backend.disk.renames.Nodup →
        (log.backend.disk.files.flatMap lines).map C.entry_from_str = entries.map .ok) ∧
      entries = link_all H C.toLogCrates GENESIS_CHAIN_HASH
        (phases.flatMap LogPhase.events ++ p.events) ∧
      verify_from H C.toLogCrates GENESIS_CHAIN_HASH entries = true ∧
      (disk.renames = [] → (log.verify_chain_integrity H C.toLogCrates).2 = true) := by
  obtain ⟨disk, old, newest, hphases, hholds, hentries⟩ :=
    run_phases_ok hC hH phases (.of_empty (H := H) (C := C))
      (show _ = link_all H C.toLogCrates GENESIS_CHAIN_HASH [] from rfl)
      (by rw [nil_append]; rw [length_append] at hroom; omega)
  rw [nil_append] at hentries
  obtain ⟨log, old', newest', hrun, hsession⟩ := run_phase hC hH hholds hentries p hroom.le
  refine ⟨disk, log, _, hphases, hrun, ?_, rfl, verify_from_link_all _ _ _ _, ?_⟩
  · intro hnodup
    rw [← hsession.entries]
    exact hsession.holds.lines_files hC hnodup
  · intro hnone
    apply hsession.verify
    -- as many files as renames
    have hlength := hholds.renames
    rw [hnone, length_nil] at hlength
    rw [length_eq_zero_iff.mp hlength.symm, flatten_nil]

end

/-! ## Small logs

Entries are printed field by field in hexadecimal text, with blanks between the fields. -/

def sampleOption : Option Text → Text
  | none => []
  | some t => 1 :: t

def sampleOptionOf : Text → Option Text
  | [] => none
  | _ :: t => some t

theorem sampleOptionOf_sampleOption (o : Option Text) : sampleOptionOf (sampleOption o) = o := by
  cases o <;> rfl

def sampleDouble (bits : UInt64) : F64 :=
  if h : bits.toNat / 2 ^ 52 % 2 ^ 11 ≠ 2 ^ 11 - 1 then ⟨bits, h⟩ else wall_0

def sampleFields (e : TransparencyLogEntry) : List Text :=
  [e.entry_id, e.event_type, sampleOption e.jti, sampleOption e.kid, e.issuer_id, e.sub_hash,
    e.aud_hash, e.actions_hash, toBE 8 e.timestamp.bits.toNat, toBE 8 e.delegation_depth.toNat,
    sampleOption e.parent_jti_hash, e.entry_hash, e.chain_hash, e.entry_signature]

def sampleOfFields : List Text → Except Text TransparencyLogEntry
  | [entry_id, event_type, jti, kid, issuer_id, sub_hash, aud_hash, actions_hash, timestamp, depth,
      parent_jti_hash, entry_hash, chain_hash, entry_signature] =>
    .ok {
      entry_id, event_type, issuer_id, sub_hash, aud_hash, actions_hash, entry_hash, chain_hash,
      entry_signature
      jti := sampleOptionOf jti
      kid := sampleOptionOf kid
      timestamp := sampleDouble (UInt64.ofNat (ofBE timestamp))
      delegation_depth := UInt64.ofNat (ofBE depth)
      parent_jti_hash := sampleOptionOf parent_jti_hash }
  | _ => .error (ascii "fields")

def sampleLogFiles : LogFileCrates where
  toLogCrates := sampleLogCrates
  entry_to_string e := [32].intercalate ((sampleFields e).map hexText)
  entry_from_str line := sampleOfFields ((line.splitOn 32).map fun f => (hexDecode f).getD [])
  trim := id
  debug := id
  is_utf8 _ := true

theorem sampleOfFields_sampleFields (e : TransparencyLogEntry) :
    sampleOfFields (sampleFields e) = .ok e := by
  have hword : ∀ x : UInt64, UInt64.ofNat (ofBE (toBE 8 x.toNat)) = x := by
    intro x
    rw [ofBE_toBE_of_lt (by exact x.toNat_lt), UInt64.ofNat_toNat]
  have htime : sampleDouble e.timestamp.bits = e.timestamp := dif_pos e.timestamp.finite
  simp only [sampleFields, sampleOfFields, sampleOptionOf_sampleOption, hword, htime]

theorem hexText_digits {bs : List UInt8} {d : UInt8} (h : d ∈ hexText bs) :
    (48 ≤ d.toNat ∧ d.toNat ≤ 57) ∨ (97 ≤ d.toNat ∧ d.toNat ≤ 102) := by
  have hdigit : ∀ n < 16, (48 ≤ (hexDigit n).toNat ∧ (hexDigit n).toNat ≤ 57) ∨
      (97 ≤ (hexDigit n).toNat ∧ (hexDigit n).toNat ≤ 102) := by decide
  obtain ⟨b, -, hd⟩ := mem_flatMap.mp h
  have hb : b.toNat < 256 := b.toNat_lt
  rcases mem_pair.mp hd with rfl | rfl
  · exact hdigit _ (by omega)
  · exact hdigit _ (by omega)

theorem sampleLine_bytes {e : TransparencyLogEntry} {d : UInt8}
    (h : d ∈ sampleLogFiles.entry_to_string e) : d = 32 ∨ 48 ≤ d.toNat := by
  obtain hsep | ⟨field, hfield, hd⟩ := mem_intercalate h
  · exact .inl hsep
  · obtain ⟨text, -, rfl⟩ := mem_map.mp hfield
    have hdigit := hexText_digits hd
    omega

theorem sampleLogFiles_lawful : sampleLogFiles.Lawful where
  from_str_to_string e := by
    have hblank : ∀ field ∈ (sampleFields e).map hexText, (32 : UInt8) ∉ field := by
      intro field hfield hmem
      obtain ⟨text, -, rfl⟩ := mem_map.mp hfield
      have hdigit := hexText_digits hmem
      have hvalue : (32 : UInt8).toNat = 32 := rfl
      omega
    have hsplit := splitOn_intercalate 32 hblank (by simp [sampleFields])
    show sampleOfFields ((([32].intercalate ((sampleFields e).map hexText)).splitOn 32).map
      fun f => (hexDecode f).getD []) = .ok e
    rw [hsplit, List.map_map]
    refine Eq.trans (congrArg sampleOfFields ?_) (sampleOfFields_sampleFields e)
    refine (map_congr_left ?_).trans (map_id _)
    intro text _
    rw [Function.comp_apply, hexDecode_hexText, getD_some, id]
  is_line e := by
    refine ⟨fun hmem => ?_, fun hlast => ?_⟩
    · exact absurd (sampleLine_bytes hmem) (by decide)
    · exact absurd (sampleLine_bytes (mem_of_getLast? hlast)) (by decide)
  not_blank e := by
    show [32].intercalate ((sampleFields e).map hexText) ≠ []
    rw [sampleFields, map_cons, map_cons, intercalate_cons_cons]
    simp
  trim_hex _ := rfl
  utf8_hex _ := rfl
  utf8_file _ := rfl

def sampleAppends (names : List UInt8) : List LogStep :=
  names.map fun b => .append (sampleLogEvent b) b.toNat

theorem persisted_log_sample :
    ∃ disk log, run_phases sampleIdeal sampleLogFiles .empty [⟨1000000, sampleAppends [97]⟩] =
        .ok disk ∧
      LogPhase.run sampleIdeal sampleLogFiles disk ⟨0, sampleAppends [98, 99]⟩ = .ok log ∧
      log.backend.disk.renames = [98, 99] ∧
      (log.verify_chain_integrity sampleIdeal sampleLogCrates).2 = true := by
  obtain ⟨disk, log, entries, hphases, hrun, -, -, -, hverify⟩ :=
    persisted_log (H := sampleIdeal) sampleLogFiles_lawful (fun _ => nofun)
      [⟨1000000, sampleAppends [97]⟩] ⟨0, sampleAppends [98, 99]⟩ (by decide)
  have hdisk : (run_phases sampleIdeal sampleLogFiles .empty
      [⟨1000000, sampleAppends [97]⟩]).toOption.map LogDisk.renames = some [] := by decide +kernel
  have hlog : ((run_phases sampleIdeal sampleLogFiles .empty
      [⟨1000000, sampleAppends [97]⟩]).toOption.bind fun disk =>
        (LogPhase.run sampleIdeal sampleLogFiles disk ⟨0, sampleAppends [98, 99]⟩).toOption).map
          (fun log => log.backend.disk.renames) = some [98, 99] := by decide +kernel
  rw [hphases] at hdisk hlog
  have hnone : disk.renames = [] := Option.some.inj hdisk
  rw [show (Except.ok disk : Except Text LogDisk).toOption = some disk from rfl, bind_some,
    hrun] at hlog
  exact ⟨disk, log, hphases, hrun, Option.some.inj hlog, hverify hnone⟩

/-- Two appends in a phase that renames the file between them, and a restart: the log that was
opened without an error does not verify. -/
theorem rotated_log_refused :
    ((run_phases sampleIdeal sampleLogFiles .empty [⟨0, sampleAppends [97, 98]⟩]).toOption.bind
      fun disk => (LogPhase.run sampleIdeal sampleLogFiles disk ⟨0, []⟩).toOption).map
        (fun log => (log.backend.disk.renames,
          (log.verify_chain_integrity sampleIdeal sampleLogCrates).2)) = some ([98], false) := by
  decide +kernel

end Saacp
