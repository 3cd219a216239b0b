/-
**JSON values**: the tree a parser returns, how a reader takes fields out of it, and its
compact text.

Numbers keep the three shapes a parser distinguishes: unsigned, negative and floating point.
A text is a list of bytes. The printer escapes what JSON requires and copies every other
byte; the text of a floating-point number is left to the client.
-/
import Saacp.ByteCodec
import Mathlib.Data.Nat.Notation
import Mathlib.Data.Rat.Init
import Mathlib.Data.List.Sort
import Mathlib.Logic.Equiv.List

set_option autoImplicit false

open ByteCodec Nat Encodable UInt8

/-- A finite floating-point number, by its bits. -/
structure F64 where
  bits : UInt64
  finite : bits.toNat / 2 ^ 52 % 2 ^ 11 ≠ 2 ^ 11 - 1

theorem F64.eq_of_bits {x y : F64} (h : x.bits = y.bits) : x = y := by
  cases x
  cases y
  simpa using h

instance : DecidableEq F64 := fun x y =>
  decidable_of_iff (x.bits = y.bits) ⟨F64.eq_of_bits, fun h => h ▸ rfl⟩

theorem F64.finite_zero : (0 : UInt64).toNat / 2 ^ 52 % 2 ^ 11 ≠ 2 ^ 11 - 1 := by decide

/-- The value of the number: sign, exponent and fraction read off the bits. -/
def F64.toRat (x : F64) : ℚ :=
  let exponent : ℕ := x.bits.toNat / 2 ^ 52 % 2 ^ 11
  let fraction : ℕ := x.bits.toNat % 2 ^ 52
  let scaled : ℤ := if exponent = 0 then fraction else (2 ^ 52 + fraction) * 2 ^ (exponent - 1)
  mkRat (if x.bits.toNat < 2 ^ 63 then scaled else -scaled) (2 ^ 1074)

/-- What a parser returns. Fields keep the order of the text. -/
inductive Json
  | null
  | bool (b : Bool)
  | pos_int (n : UInt64)
  | neg_int (n : Int64)
  | float (x : F64)
  | str (s : List UInt8)
  | arr (items : List Json)
  | obj (fields : List (String × Json))

namespace Json

open List

/-! ## Reading -/

/-- The first field of that name. -/
def get : Json → String → Option Json
  | obj fields, key => fields.lookup key
  | _, _ => none

/-- A missing field reads as `null`. -/
def index (j : Json) (key : String) : Json := (j.get key).getD null

def as_str : Json → Option (List UInt8)
  | str s => some s
  | _ => none

def as_u64 : Json → Option UInt64
  | pos_int n => some n
  | _ => none

/-- Any of the three shapes of a number; how an integer is rounded is given. -/
def as_f64 (of_u64 : UInt64 → F64) (of_i64 : Int64 → F64) : Json → Option F64
  | pos_int n => some (of_u64 n)
  | neg_int n => some (of_i64 n)
  | float x => some x
  | _ => none

/-- A number by its exact value. -/
def as_rat : Json → Option ℚ
  | pos_int n => some n.toNat
  | neg_int n => some n.toInt
  | float x => some x.toRat
  | _ => none

/-- An array of texts and of nothing else. -/
def as_strings : Json → Option (List (List UInt8))
  | arr items => items.mapM as_str
  | _ => none

/-- The texts of an array, whatever else it holds. -/
def string_items : Json → List (List UInt8)
  | arr items => items.filterMap as_str
  | _ => []

theorem as_strings_map_str (ss : List (List UInt8)) : (arr (ss.map str)).as_strings = some ss := by
  show (ss.map str).mapM as_str = some ss
  induction ss with
  | nil => rfl
  | cons s ss ih =>
    rw [map_cons, mapM_cons, ih]
    rfl

/-! ## Keys in order -/

/-- The fields of an object by the bytes of their keys, as a sorted map walks them. -/
def sort_keys : Json → Json
  | obj fields => obj (fields.insertionSort fun a b => ascii a.1 ≤ ascii b.1)
  | j => j

theorem lookup_orderedInsert (key : String) (a : String × Json) (fields : List (String × Json)) :
    (fields.orderedInsert (fun a b => ascii a.1 ≤ ascii b.1) a).lookup key =
      (a :: fields).lookup key := by
  induction fields with
  | nil => rfl
  | cons b fields ih =>
    obtain ⟨a_key, a_value⟩ := a
    obtain ⟨b_key, b_value⟩ := b
    rw [orderedInsert_cons]
    by_cases hle : ascii a_key ≤ ascii b_key
    · rw [if_pos hle]
    · rw [if_neg hle, lookup_cons, ih, lookup_cons, lookup_cons, lookup_cons]
      -- the two keys differ, so it does not matter which of them is asked first
      have hne : a_key ≠ b_key := fun heq => hle (heq ▸ List.le_refl _)
      by_cases hb : key = b_key
      · rw [hb, beq_self_eq_true, beq_eq_false_iff_ne.mpr hne.symm]
      · rw [beq_eq_false_iff_ne.mpr hb]

@[simp] theorem get_sort_keys (j : Json) (key : String) : j.sort_keys.get key = j.get key := by
  cases j with
  | obj fields =>
    show (fields.insertionSort _).lookup key = fields.lookup key
    induction fields with
    | nil => rfl
    | cons a fields ih =>
      rw [insertionSort_cons, lookup_orderedInsert, lookup_cons, lookup_cons, ih]
  | _ => rfl

/-! ## Values as numbers

Values can be told apart by a number, so there are printers that print no two alike. -/

mutual

def code : Json → ℕ
  | null => Nat.pair 0 0
  | bool b => Nat.pair 1 (Encodable.encode b)
  | pos_int n => Nat.pair 2 n.toNat
  | neg_int n => Nat.pair 3 n.toBitVec.toNat
  | float x => Nat.pair 4 x.bits.toNat
  | str s => Nat.pair 5 (Encodable.encode (s.map UInt8.toNat))
  | arr items => Nat.pair 6 (codeItems items)
  | obj fields => Nat.pair 7 (codeFields fields)

def codeItems : List Json → ℕ
  | [] => 0
  | j :: items => (Nat.pair (code j) (codeItems items)).succ

def codeFields : List (String × Json) → ℕ
  | [] => 0
  | (key, j) :: fields =>
    (Nat.pair (Encodable.encode (key.toList.map Char.toNat))
      (Nat.pair (code j) (codeFields fields))).succ

end

theorem encode_bytes_injective {s s' : List UInt8}
    (h : encode (s.map toNat) = encode (s'.map toNat)) : s = s' :=
  map_injective_iff.mpr (fun _ _ => UInt8.toNat_inj.mp) (Encodable.encode_injective h)

theorem encode_key_injective {key key' : String}
    (h : encode (key.toList.map Char.toNat) =
      encode (key'.toList.map Char.toNat)) : key = key' := by
  have hlist := map_injective_iff.mpr (fun _ _ => Char.toNat_inj.mp)
    (encode_injective h)
  exact String.toList_inj.mp hlist

mutual

/-- **Different values have different codes**, by recursion on the tree. -/
theorem code_injective : ∀ j j' : Json, code j = code j' → j = j'
  | null, j', h => by
    cases j' with
    | null =>
      rfl
    | _ => simp [code] at h
  | bool b, j', h => by
    cases j' with
    | bool b' =>
      rw [encode_injective (pair_eq_pair.mp h).2]
    | _ => simp [code] at h
  | pos_int n, j', h => by
    cases j' with
    | pos_int n' =>
      rw [UInt64.toNat_inj.mp (pair_eq_pair.mp h).2]
    | _ => simp [code] at h
  | neg_int n, j', h => by
    cases j' with
    | neg_int n' =>
      rw [Int64.toBitVec_inj.mp (BitVec.eq_of_toNat_eq (pair_eq_pair.mp h).2)]
    | _ => simp [code] at h
  | float x, j', h => by
    cases j' with
    | float x' =>
      rw [F64.eq_of_bits (UInt64.toNat_inj.mp (pair_eq_pair.mp h).2)]
    | _ => simp [code] at h
  | str s, j', h => by
    cases j' with
    | str s' =>
      rw [encode_bytes_injective (pair_eq_pair.mp h).2]
    | _ => simp [code] at h
  | arr items, j', h => by
    cases j' with
    | arr items' =>
      rw [codeItems_injective items items' (pair_eq_pair.mp h).2]
    | _ => simp [code] at h
  | obj fields, j', h => by
    cases j' with
    | obj fields' =>
      rw [codeFields_injective fields fields' (pair_eq_pair.mp h).2]
    | _ => simp [code] at h

theorem codeItems_injective : ∀ items items' : List Json,
    codeItems items = codeItems items' → items = items'
  | [], [], _ => rfl
  | [], _ :: _, h => by simp [codeItems] at h
  | _ :: _, [], h => by simp [codeItems] at h
  | j :: items, j' :: items', h => by
    simp only [codeItems, succ_inj, pair_eq_pair] at h
    rw [code_injective j j' h.1, codeItems_injective items items' h.2]

theorem codeFields_injective : ∀ fields fields' : List (String × Json),
    codeFields fields = codeFields fields' → fields = fields'
  | [], [], _ => rfl
  | [], _ :: _, h => by simp [codeFields] at h
  | _ :: _, [], h => by simp [codeFields] at h
  | (key, j) :: fields, (key', j') :: fields', h => by
    simp only [codeFields, succ_inj, pair_eq_pair] at h
    rw [encode_key_injective h.1, code_injective j j' h.2.1,
      codeFields_injective fields fields' h.2.2]

end

/-! ## Printing -/

/-- At most `fuel` digits, as bytes. -/
def decimalDigits : ℕ → ℕ → List UInt8
  | 0, _ => []
  | fuel + 1, n =>
    (if n < 10 then [] else decimalDigits fuel (n / 10)) ++ [UInt8.ofNat (48 + n % 10)]

def decimal (n : ℕ) : List UInt8 := decimalDigits 20 n

theorem digit_of_mem_decimalDigits {fuel n : ℕ} {d : UInt8} (h : d ∈ decimalDigits fuel n) :
    48 ≤ d.toNat ∧ d.toNat ≤ 57 := by
  induction fuel generalizing n with
  | zero => exact absurd h not_mem_nil
  | succ fuel ih =>
    rw [decimalDigits, mem_append, mem_singleton] at h
    rcases h with hfront | rfl
    · by_cases hn : n < 10
      · rw [if_pos hn] at hfront
        exact absurd hfront not_mem_nil
      · rw [if_neg hn] at hfront
        exact ih hfront
    · have hdigit : (ofNat (48 + n % 10)).toNat = (48 + n % 10) % 256 := toNat_ofNat'
      omega

def ofDecimal (ds : List UInt8) : ℕ := ds.foldl (fun acc d => 10 * acc + (d.toNat - 48)) 0

/-- Reading the digits back. -/
theorem ofDecimal_decimalDigits {fuel n : ℕ} (h : n < 10 ^ fuel) :
    ofDecimal (decimalDigits fuel n) = n := by
  induction fuel generalizing n with
  | zero =>
    rw [pow_zero] at h
    exact (lt_one_iff.mp h).symm
  | succ fuel ih =>
    have hdigit : (ofNat (48 + n % 10)).toNat = (48 + n % 10) % 256 := toNat_ofNat'
    rw [decimalDigits, ofDecimal, foldl_append, foldl_cons, foldl_nil, hdigit]
    by_cases hn : n < 10
    · rw [if_pos hn, foldl_nil]
      omega
    · rw [if_neg hn, ← ofDecimal, ih (by rw [pow_succ] at h; omega)]
      omega

theorem decimal_injective {m n : ℕ} (hm : m < 2 ^ 64) (hn : n < 2 ^ 64)
    (h : decimal m = decimal n) : m = n := by
  have hvalue := congrArg ofDecimal h
  rwa [decimal, decimal, ofDecimal_decimalDigits (by omega), ofDecimal_decimalDigits (by omega)]
    at hvalue

/-- A byte within quotes. -/
def escape (b : UInt8) : List UInt8 :=
  match b.toNat with
  | 34 => [92, 34]
  | 92 => [92, 92]
  | 8 => [92, 98]
  | 9 => [92, 116]
  | 10 => [92, 110]
  | 12 => [92, 102]
  | 13 => [92, 114]
  | n => if n < 32 then ascii "\\u00" ++ hexText [b] else [b]

def quoted (s : List UInt8) : List UInt8 := 34 :: (s.flatMap escape ++ [34])

def commas : List (List UInt8) → List UInt8
  | [] => []
  | [part] => part
  | part :: parts => part ++ 44 :: commas parts

section

variable (float_text : F64 → List UInt8)

mutual

def compact : Json → List UInt8
  | null => ascii "null"
  | bool b => if b then ascii "true" else ascii "false"
  | pos_int n => decimal n.toNat
  | neg_int n => 45 :: decimal n.toInt.natAbs
  | float x => float_text x
  | str s => quoted s
  | arr items => 91 :: (commas (compactItems items) ++ [93])
  | obj fields => 123 :: (commas (compactFields fields) ++ [125])

def compactItems : List Json → List (List UInt8)
  | [] => []
  | j :: items => compact j :: compactItems items

def compactFields : List (String × Json) → List (List UInt8)
  | [] => []
  | (key, j) :: fields => (quoted (ascii key) ++ 58 :: compact j) :: compactFields fields

end

theorem length_le_quoted (s : List UInt8) : s.length ≤ (quoted s).length := by
  have hescape : ∀ b, 0 < (escape b).length := by
    intro b
    unfold escape
    split
    all_goals try exact succ_pos _
    split
    · rw [length_append]
      exact Nat.add_pos_left (by decide) _
    · exact one_pos
  have hflat : s.length ≤ (s.flatMap escape).length := by
    induction s with
    | nil => exact zero_le _
    | cons b s ih =>
      have hb := hescape b
      rw [flatMap_cons, length_append, length_cons]
      omega
  rw [quoted, length_cons, length_append]
  omega

theorem length_le_commas {part : List UInt8} {parts : List (List UInt8)} (h : part ∈ parts) :
    part.length ≤ (commas parts).length := by
  induction parts with
  | nil => exact absurd h not_mem_nil
  | cons p parts ih =>
    cases parts with
    | nil =>
      rw [mem_singleton.mp h]
      exact le_refl _
    | cons p' parts =>
      rw [commas, length_append, length_cons]
      · rcases mem_cons.mp h with rfl | h
        · omega
        · have hrest := ih h
          omega
      · exact nofun

/-- No text is longer than the print of a value that has it as a field. -/
theorem length_le_compact (key : String) {s : List UInt8} {fields : List (String × Json)}
    (h : (key, str s) ∈ fields) : s.length ≤ (compact float_text (obj fields)).length := by
  have hmem : quoted (ascii key) ++ 58 :: quoted s ∈ compactFields float_text fields := by
    induction fields with
    | nil => exact absurd h not_mem_nil
    | cons field fields ih =>
      rw [compactFields]
      rcases mem_cons.mp h with rfl | h
      · rw [compact]
        exact mem_cons_self
      · exact mem_cons_of_mem _ (ih h)
  have hpart := length_le_commas hmem
  have hquoted := length_le_quoted s
  rw [length_append, length_cons] at hpart
  rw [compact, length_cons, length_append]
  omega

end

end Json
