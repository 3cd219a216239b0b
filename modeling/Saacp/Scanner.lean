/-
**The injection scanner** of Gate 4.0: the Bloom filter in front of the pattern search
(`handler.rs`).

The Aho-Corasick search comes from outside and is a parameter. The filter's words of 64 bits are one
map of bits, addressed by the index of a bit.
-/
import Saacp.BitMap
import Saacp.Credentials
import Saacp.Errors

set_option autoImplicit false

open ByteCodec BitMap List

namespace Saacp

def INJECTION_PATTERNS : List Text :=
  ["ignore previous instructions", "ignorepreviousinstructions", "ignore above instructions",
    "ignoreaboveinstructions", "ignore all instructions", "ignoreallinstructions",
    "ignore all previous", "ignoreallprevious", "disregard previous", "disregardprevious",
    "disregard all previous", "disregardallprevious", "system override", "systemoverride",
    "you are now a", "youarenowa", "act as", "actas", "new instructions:", "newinstructions:",
    "forget your persona", "forgetyourpersona", "forget your rules", "forgetyourrules",
    "new role:", "newrole:", "new persona:", "newpersona:", "developer mode", "developermode",
    "jailbreak", "dant mode", "dantmode", "unlock mode", "unlockmode", "no limits", "nolimits",
    "bypas filters", "bypasfilters", "bypass filters", "bypassfilters", "disable filters",
    "disablefilters", "remove filters", "removefilters", "disable safety", "disablesafety",
    "remove safety", "removesafety", "<|im_start|>system", "<|im_end|>", "<|system|>",
    "end of text", "endoftext", "[/inst]", "<<sys>>", "<</sys>>", "</think>", "### instruction",
    "###instruction", "### system", "###system", "[system]", "[[system]]", "drop table",
    "droptable", "or 1=1", "or1=1", "or '1'='1'", "or'1'='1'", "union select", "unionselect",
    "'; exec", "';exec", "xp_cmdshell", "exec(", "eval(", "os.system(", "subprocess.call(",
    "__import__(", "\"tool_call\"", "\"function_call\"", "\"tool_use\"", "<tool_call>",
    "<function_calls>"].map ascii

structure ScanCrates where
  find (patterns : List Text) (text : Text) : Option ℕ
  find_isSome (patterns : List Text) (text : Text) :
    (find patterns text).isSome = true ↔ ∃ p ∈ patterns, p <:+: text

/-! ## The Bloom filter -/

def windows3 : Text → List Text
  | a :: b :: c :: text => [a, b, c] :: windows3 (b :: c :: text)
  | _ => []

def fnv1a (seed : UInt32) (window : Text) : ℕ :=
  (window.foldl (fun h b => (h ^^^ b.toUInt32) * 0x01000193) seed &&& 0xFFFF).toNat

def hash_pair (window : Text) : ℕ × ℕ :=
  (fnv1a 0x811c9dc5 window, fnv1a (0x811c9dc5 ^^^ 0x55555555) window)

namespace InjectionBloomFilter

def insert (bits : List UInt8) (window : Text) : List UInt8 :=
  setBit (setBit bits (hash_pair window).1) (hash_pair window).2

def build (patterns : List Text) : List UInt8 :=
  (patterns.flatMap windows3).foldl insert (replicate 8192 0)

def might_contain (bits : List UInt8) (text : Text) : Bool :=
  (windows3 text).any fun w => test bits (hash_pair w).1 && test bits (hash_pair w).2

theorem hash_lt (seed : UInt32) (window : Text) : fnv1a seed window / 8 < 8192 := by
  have hle : fnv1a seed window ≤ 0xFFFF := by
    rw [fnv1a, UInt32.toNat_and]
    exact Nat.and_le_right
  omega

theorem test_insert {bits : List UInt8} (hlen : bits.length = 8192) (w : Text) (j : ℕ) :
    test (insert bits w) j =
      (test bits j || decide ((hash_pair w).1 = j) || decide ((hash_pair w).2 = j)) := by
  rw [insert, test_setBit, test_setBit]
  · rw [hlen]
    exact hash_lt _ w
  · rw [length_setBit, hlen]
    exact hash_lt _ w

/-- Bits that are set stay set, and those of every window inserted are. -/
theorem test_foldl_insert {ws : List Text} {bits : List UInt8} (hlen : bits.length = 8192) {j : ℕ}
    (h : test bits j = true ∨ ∃ w ∈ ws, (hash_pair w).1 = j ∨ (hash_pair w).2 = j) :
    test (ws.foldl insert bits) j = true := by
  induction ws generalizing bits with
  | nil => simpa using h
  | cons w ws ih =>
    refine ih (by rw [insert, length_setBit, length_setBit, hlen]) ?_
    rw [test_insert hlen]
    simp only [mem_cons, exists_eq_or_imp, Bool.or_eq_true, decide_eq_true_eq] at h ⊢
    rwa [or_assoc, or_assoc, ← or_assoc (a := (hash_pair w).1 = j)]

theorem mem_windows3 {a b c : UInt8} {p text : Text} (h : a :: b :: c :: p <:+: text) :
    [a, b, c] ∈ windows3 text := by
  induction text with
  | nil => simp at h
  | cons x text ih =>
    obtain ⟨t, ht⟩ | hlater := infix_cons_iff.mp h
    · rw [← ht]
      exact mem_cons_self
    · match text, ih hlater with
      | b :: c :: text, hmem => exact mem_cons_of_mem _ hmem

theorem might_contain_of_infix {patterns : List Text} {p text : Text} (hp : p ∈ patterns)
    (hlen : 3 ≤ p.length) (h : p <:+: text) : might_contain (build patterns) text = true := by
  match p, hlen with
  | a :: b :: c :: p, _ =>
    have hset : ∀ j, (hash_pair [a, b, c]).1 = j ∨ (hash_pair [a, b, c]).2 = j →
        test (build patterns) j = true := fun j hj => test_foldl_insert (length_replicate ..)
      (.inr ⟨_, mem_flatMap.mpr ⟨_, hp, mem_cons_self⟩, hj⟩)
    refine any_eq_true.mpr ⟨_, mem_windows3 h, ?_⟩
    rw [hset _ (.inl rfl), hset _ (.inr rfl)]
    rfl

end InjectionBloomFilter

open InjectionBloomFilter

/-- An installed rule pack: the patterns of its automaton, and their labels. -/
structure CompiledRules where
  patterns : List Text
  labels : List String

def CompiledRules.label_at (rules : CompiledRules) (index : ℕ) : String :=
  rules.labels.getD index "unknown"

variable (X : ScanCrates) (builtin : List Text) (rules : Option CompiledRules)

/-- What a match of the automaton is answered with. -/
def report (label : ℕ → String) : Option ℕ → Result Unit
  | some m => .error ⟨.PromptInjectionDetected,
      "Prompt Injection Pattern Detected: '" ++ label m ++ "'"⟩
  | none => .ok ()

def scan_string_patterns (normalized : Text) : Result Unit :=
  if !might_contain (build builtin) normalized then
    match rules with
    | some rules => report rules.label_at (X.find rules.patterns normalized)
    | none => .ok ()
  else
    match rules with
    | some rules => report rules.label_at (X.find rules.patterns normalized)
    | none => report (fun m => display (builtin.getD m [])) (X.find builtin normalized)

/-- The patterns that are searched for: those of the rule pack, if one is installed. -/
def active : List Text := (rules.map CompiledRules.patterns).getD builtin

theorem report_eq_error {label : ℕ → String} {found : Option ℕ} :
    (∃ e, report label found = .error e) ↔ found.isSome = true := by
  cases found with
  | none | some => simp [report]

/-- **The pre-filter hides no match**, and reports none. -/
theorem scan_string_patterns_iff (hlen : ∀ p ∈ builtin, 3 ≤ p.length) (normalized : Text) :
    (∃ e, scan_string_patterns X builtin rules normalized = .error e) ↔
      ∃ p ∈ active builtin rules, p <:+: normalized := by
  unfold scan_string_patterns active
  cases rules with
  | some rules =>
    rw [ite_self, report_eq_error]
    exact X.find_isSome _ _
  | none =>
    split_ifs with hmiss
    · -- no match is missed, as each would have set the bits of its first window
      refine iff_of_false (fun ⟨_, h⟩ => nomatch h) fun ⟨p, hp, hinfix⟩ => ?_
      have hhit : might_contain (build builtin) normalized = true :=
        might_contain_of_infix hp (hlen p hp) hinfix
      rw [hhit] at hmiss
      cases hmiss
    · rw [report_eq_error]
      exact X.find_isSome _ _

/-- A search that tries the patterns in turn. -/
def sampleScan : ScanCrates where
  find patterns text := patterns.findIdx? fun p => decide (p <:+: text)
  find_isSome patterns text := by simp [findIdx?_isSome]

theorem scan_string_patterns_iff_sample :
    ∃ e, scan_string_patterns sampleScan INJECTION_PATTERNS none (ascii "please act as root") =
      .error e :=
  (scan_string_patterns_iff sampleScan INJECTION_PATTERNS none (by decide +kernel) _).mpr
    ⟨ascii "act as", by decide +kernel, by decide +kernel⟩

end Saacp
