import Mathlib.Data.Rat.Lemmas
import ProxiMight.CString
import ProxiMight.Types

/-!
# JSON trees and the helpers over them (`pmx_json.c`)

cJSON is not part of the source: printing and parsing are a `CJson`, a pair of functions that may fail.
A tree is what the library hands out.  A number is the rational that its double holds, and `valueInt`
is the integer the library keeps beside it.  The bytes of a key stand as characters.

* **`PrintsFaithfully`** — what is relied on: a tree of strings, booleans and small integers, nested no
  deeper than the parser goes, is parsed back as it was printed.
* **`PrintsDoubles`** — the same of a tree whose numbers are integers that are doubles.
-/

namespace ProxiMight

open CString

/-- `cJSON`. -/
inductive Json
  | null
  | bool (b : Bool)
  | num (v : ℚ)
  | str (s : CStr)
  | arr (items : List Json)
  | obj (fields : List (String × Json))

/-- `INT_MAX` and, below, `INT_MIN`. -/
def intMax : ℤ := 2147483647

def intMin : ℤ := -2147483648

/-- The value fits in an `int`. -/
def FitsInt (v : ℤ) : Prop := intMin ≤ v ∧ v ≤ intMax

instance (v : ℤ) : Decidable (FitsInt v) := inferInstanceAs (Decidable (_ ∧ _))

/-! ### Numbers -/

/-- A number without its fraction. -/
def truncate (v : ℚ) : ℤ := v.num.tdiv v.den

/-- `valueint`: out of range, the nearest `int`. -/
def valueInt (v : ℚ) : ℤ :=
  if v ≥ intMax then intMax else if v ≤ intMin then intMin else truncate v

/-- `(double)n` for a natural number: rounded to 53 bits, a tie to the even side. -/
def toDouble (n : ℕ) : ℕ :=
  if n < 2 ^ 53 then n
  else
    let ulp := 2 ^ (Nat.log2 n - 52)
    if 2 * (n % ulp) < ulp ∨ (2 * (n % ulp) = ulp ∧ n / ulp % 2 = 0) then n / ulp * ulp
    else (n / ulp + 1) * ulp

@[simp] theorem truncate_intCast (v : ℤ) : truncate (v : ℚ) = v := by
  rw [truncate, Rat.num_intCast, Rat.den_intCast, Nat.cast_one, Int.tdiv_one]

theorem valueInt_intCast {v : ℤ} (h : FitsInt v) : valueInt (v : ℚ) = v := by
  obtain ⟨hlo, hhi⟩ := h
  rw [valueInt, truncate_intCast]
  split_ifs with h1 h2
  · have h1 : intMax ≤ v := by exact_mod_cast h1
    omega
  · have h2 : v ≤ intMin := by exact_mod_cast h2
    omega
  · rfl

theorem toDouble_of_lt {n : ℕ} (h : n < 2 ^ 53) : toDouble n = n := if_pos h

/-- A large number is rounded to a multiple of its last place. -/
theorem toDouble_of_ge {n : ℕ} (h : 2 ^ 53 ≤ n) :
    ∃ q, 2 ^ 52 ≤ q ∧ q ≤ 2 ^ 53 ∧ toDouble n = q * 2 ^ (Nat.log2 n - 52) := by
  have hn : n ≠ 0 := by omega
  have hlog : 53 ≤ Nat.log2 n := (Nat.le_log2 hn).2 h
  have hulp : 0 < 2 ^ (Nat.log2 n - 52) := Nat.two_pow_pos _
  have hlow : 2 ^ 52 * 2 ^ (Nat.log2 n - 52) ≤ n := by
    rw [← Nat.pow_add, show 52 + (Nat.log2 n - 52) = Nat.log2 n by omega]
    exact Nat.log2_self_le hn
  have hhigh : n < 2 ^ 53 * 2 ^ (Nat.log2 n - 52) := by
    rw [← Nat.pow_add, show 53 + (Nat.log2 n - 52) = Nat.log2 n + 1 by omega]
    exact Nat.lt_log2_self
  have hq : 2 ^ 52 ≤ n / 2 ^ (Nat.log2 n - 52) := (Nat.le_div_iff_mul_le hulp).2 hlow
  have hq' : n / 2 ^ (Nat.log2 n - 52) < 2 ^ 53 := (Nat.div_lt_iff_lt_mul hulp).2 hhigh
  rw [toDouble, if_neg (Nat.not_lt.2 h)]
  dsimp only
  split_ifs
  · exact ⟨_, hq, hq'.le, rfl⟩
  · exact ⟨_, hq.trans (Nat.le_succ _), hq', rfl⟩

theorem le_toDouble {n : ℕ} (h : 2 ^ 53 ≤ n) : 2 ^ 52 ≤ toDouble n := by
  obtain ⟨q, hq, -, heq⟩ := toDouble_of_ge h
  rw [heq]
  exact hq.trans (Nat.le_mul_of_pos_right q (Nat.two_pow_pos _))

theorem log2_sub_le {n : ℕ} (h : 2 ^ 53 ≤ n) (h64 : n < 2 ^ 64) : Nat.log2 n - 52 ≤ 11 := by
  have hlog : Nat.log2 n < 64 := (Nat.log2_lt (by omega)).2 h64
  omega

theorem toDouble_le {n : ℕ} (h64 : n < 2 ^ 64) : toDouble n ≤ 2 ^ 64 := by
  by_cases h : n < 2 ^ 53
  · rw [toDouble_of_lt h]
    exact h64.le
  · have h53 : 2 ^ 53 ≤ n := Nat.le_of_not_lt h
    obtain ⟨q, -, hq, heq⟩ := toDouble_of_ge h53
    rw [heq]
    calc q * 2 ^ (Nat.log2 n - 52)
        ≤ 2 ^ 53 * 2 ^ 11 :=
          Nat.mul_le_mul hq (Nat.pow_le_pow_right (by decide) (log2_sub_le h53 h64))
      _ = 2 ^ 64 := by rw [← Nat.pow_add]

/-! ### Reading and building -/

/-- `cJSON_GetObjectItemCaseSensitive`: the first field under the key. -/
def Json.getItem : Json → String → Option Json
  | .obj fields, key => fields.lookup key
  | _, _ => none

/-- What `cJSON_ArrayForEach` goes through: nothing if there is no array. -/
def arrayItems : Option Json → List Json
  | some (.arr items) => items
  | _ => []

def pmxJsonStr (obj : Json) (key : String) (dflt : List UInt8) : List UInt8 :=
  match obj.getItem key with
  | some (.str s) => s.str
  | _ => dflt

def pmxJsonInt (obj : Json) (key : String) (dflt : ℤ) : ℤ :=
  match obj.getItem key with
  | some (.num v) => valueInt v
  | _ => dflt

def pmxJsonBool (obj : Json) (key : String) (dflt : Bool) : Bool :=
  match obj.getItem key with
  | some (.bool b) => b
  | _ => dflt

/-- `pmx_json_str_into` a buffer of `n` bytes. -/
def pmxJsonStrInto (obj : Json) (key : String) (n : ℕ) (dflt : String) : CBuf n :=
  strlcpy n (pmxJsonStr obj key (bytes dflt))

/-- `pmx_json_add_str_if`: the field it adds, if any. -/
def pmxJsonAddStrIf {n : ℕ} (key : String) (val : CBuf n) : List (String × Json) :=
  if val.isEmpty then [] else [(key, .str val.toCStr)]

/-- A text of the program as a string node. -/
def jsonText (s : String) : Json := .str ⟨cstr (bytes s), nul_notMem_cstr _⟩

/-- An `int` as a number node. -/
def jsonInt (v : ℤ) : Json := .num v

/-- An id as a number node. -/
def jsonId (id : PmxId) : Json := .num ((toDouble id.toNat : ℤ) : ℚ)

/-- A port as a number node. -/
def jsonPort (port : PmxPort) : Json := .num ((port.toNat : ℤ) : ℚ)

/-- `(pmx_id)` of an `int`. -/
def idOfInt (v : ℤ) : PmxId := UInt64.ofInt v

/-- `(pmx_port)` of an `int`. -/
def portOfInt (v : ℤ) : PmxPort := UInt16.ofInt v

/-- The id is at most `INT_MAX`. -/
def IdFits (id : PmxId) : Prop := (id.toNat : ℤ) ≤ intMax

instance (id : PmxId) : Decidable (IdFits id) := inferInstanceAs (Decidable (_ ≤ _))

/-! ### What was built is read back -/

section Lookup

variable {fields : List (String × Json)} {key : String}

attribute [simp] List.lookup_append

@[simp] theorem lookup_field (k key : String) (j : Json) (rest : List (String × Json)) :
    ((key, j) :: rest).lookup k = if k = key then some j else rest.lookup k := by
  by_cases hk : k = key
  · rw [if_pos hk, hk, List.lookup_cons_self]
  · rw [if_neg hk, List.lookup_cons, beq_eq_false_iff_ne.2 hk]

@[simp] theorem lookup_addStrIf {n : ℕ} (k key : String) (val : CBuf n) :
    (pmxJsonAddStrIf key val).lookup k =
      if k = key ∧ val.isEmpty = false then some (.str val.toCStr) else none := by
  rw [pmxJsonAddStrIf]
  cases val.isEmpty with
  | true => simp
  | false =>
    by_cases hk : k = key
    · simp [hk]
    · simp [hk]

theorem pmxJsonStr_of_lookup {s : String} {dflt : List UInt8} (h : fields.lookup key = some (jsonText s)) :
    pmxJsonStr (.obj fields) key dflt = cstr (bytes s) := by
  rw [pmxJsonStr, Json.getItem, h]
  rfl

theorem pmxJsonStrInto_of_lookup {n : ℕ} {b : CBuf n} {dflt : String}
    (h : fields.lookup key = some (.str b.toCStr)) :
    pmxJsonStrInto (.obj fields) key n dflt = b := by
  rw [pmxJsonStrInto, pmxJsonStr, Json.getItem, h]
  exact strlcpy_self b

/-- A string that is left out when empty is read back by a default that is empty. -/
theorem pmxJsonStrInto_of_addStrIf {n : ℕ} {b : CBuf n}
    (h : fields.lookup key = if b.isEmpty = false then some (.str b.toCStr) else none) :
    pmxJsonStrInto (.obj fields) key n "" = b := by
  cases hempty : b.isEmpty with
  | false =>
    rw [if_pos hempty] at h
    exact pmxJsonStrInto_of_lookup h
  | true =>
    rw [if_neg (by rw [hempty]; exact Bool.noConfusion)] at h
    rw [pmxJsonStrInto, pmxJsonStr, Json.getItem, h]
    apply CBuf.ext_str
    rw [List.isEmpty_iff.1 hempty]
    exact List.take_nil

theorem pmxJsonInt_of_lookup {v dflt : ℤ} (hv : FitsInt v) (h : fields.lookup key = some (jsonInt v)) :
    pmxJsonInt (.obj fields) key dflt = v := by
  rw [pmxJsonInt, Json.getItem, h]
  exact valueInt_intCast hv

theorem pmxJsonBool_of_lookup {b dflt : Bool} (h : fields.lookup key = some (.bool b)) :
    pmxJsonBool (.obj fields) key dflt = b := by
  rw [pmxJsonBool, Json.getItem, h]

theorem toDouble_id {id : PmxId} (h : IdFits id) : toDouble id.toNat = id.toNat := by
  have h : (id.toNat : ℤ) ≤ 2147483647 := h
  exact toDouble_of_lt (by omega)

theorem fitsInt_natCast {n : ℕ} (h : (n : ℤ) ≤ intMax) : FitsInt n :=
  ⟨by rw [intMin]; omega, h⟩

theorem idOfInt_natCast (id : PmxId) : idOfInt (id.toNat : ℤ) = id := by
  have h64 := id.toNat_lt
  rw [idOfInt, UInt64.ofInt, Int.emod_eq_of_lt (by omega) (by omega), Int.toNat_natCast,
    UInt64.ofNat_toNat]

theorem portOfInt_natCast (port : PmxPort) : portOfInt (port.toNat : ℤ) = port := by
  have h16 := port.toNat_lt
  rw [portOfInt, UInt16.ofInt, Int.emod_eq_of_lt (by omega) (by omega), Int.toNat_natCast,
    UInt16.ofNat_toNat]

theorem portOfInt_of_lookup {port : PmxPort} {dflt : ℤ} (h : fields.lookup key = some (jsonPort port)) :
    portOfInt (pmxJsonInt (.obj fields) key dflt) = port := by
  have h16 := port.toNat_lt
  have hfits : FitsInt (port.toNat : ℤ) := fitsInt_natCast (by rw [intMax]; omega)
  rw [pmxJsonInt, Json.getItem, h]
  show portOfInt (valueInt ((port.toNat : ℤ) : ℚ)) = port
  rw [valueInt_intCast hfits, portOfInt_natCast]

end Lookup

/-! ### Printing and parsing -/

/-- The parts of cJSON the program uses; a failure to print is a lack of memory. -/
structure CJson where
  print : Json → Option CStr
  parse : CStr → Option Json

/-- cJSON on the one text of a tree; it never gets the memory to print. -/
def oneTextCJson (text : CStr) (tree : Json) : CJson where
  print := fun _ => none
  parse := fun t => if t = text then some tree else none

theorem oneTextCJson_parse (text : CStr) (tree : Json) :
    (oneTextCJson text tree).parse text = some tree := if_pos rfl

/-- `print_string_ptr` on one byte. -/
def printChar (c : UInt8) : List UInt8 :=
  if c = 34 then bytes "\\\""
  else if c = 92 then bytes "\\\\"
  else if c = 8 then bytes "\\b"
  else if c = 12 then bytes "\\f"
  else if c = 10 then bytes "\\n"
  else if c = 13 then bytes "\\r"
  else if c = 9 then bytes "\\t"
  else if c < 32 then bytes "\\u00" ++ [48 + c / 16, if c % 16 < 10 then 48 + c % 16 else 87 + c % 16]
  else [c]

def printString (s : List UInt8) : List UInt8 := bytes "\"" ++ s.flatMap printChar ++ bytes "\""

mutual

/-- `print_value`, for numbers that are an `int`; nine is the tab. -/
def printValue (depth : ℕ) : Json → List UInt8
  | .null => bytes "null"
  | .bool b => bytes (if b then "true" else "false")
  | .num v => bytes (toString (valueInt v))
  | .str s => printString s.str
  | .arr items => bytes "[" ++ printItems depth items ++ bytes "]"
  | .obj fields => bytes "\x7b\n" ++ printFields depth fields ++ List.replicate depth 9 ++ bytes "\x7d"

def printItems (depth : ℕ) : List Json → List UInt8
  | [] => []
  | j :: rest =>
    printValue (depth + 1) j ++ (if rest.isEmpty then [] else bytes ", ") ++ printItems depth rest

def printFields (depth : ℕ) : List (String × Json) → List UInt8
  | [] => []
  | (key, j) :: rest =>
    List.replicate (depth + 1) 9 ++ printString (bytes key) ++ bytes ":\t" ++ printValue (depth + 1) j ++
      (if rest.isEmpty then [] else bytes ",") ++ bytes "\n" ++ printFields depth rest

end

/-- cJSON that has the memory to print, on texts that are no JSON. -/
def printingCJson : CJson where
  print := fun j => some ⟨cstr (printValue 0 j), nul_notMem_cstr _⟩
  parse := fun _ => none

/-- `CJSON_NESTING_LIMIT`. -/
def cjsonNestingLimit : ℕ := 1000

/-- A tree of strings, booleans and integers that fit in an `int`, nested at most `depth` deep. -/
inductive Json.Plain : ℕ → Json → Prop
  | bool {depth : ℕ} (b : Bool) : Plain depth (.bool b)
  | num {depth : ℕ} {v : ℤ} (h : FitsInt v) : Plain depth (.num v)
  | str {depth : ℕ} (s : CStr) : Plain depth (.str s)
  | arr {depth : ℕ} {items : List Json} (h : ∀ j ∈ items, Plain depth j) : Plain (depth + 1) (.arr items)
  | obj {depth : ℕ} {fields : List (String × Json)} (h : ∀ field ∈ fields, Plain depth field.2) :
      Plain (depth + 1) (.obj fields)

/-- A tree of strings, booleans and integers with a property, nested at most `depth` deep. -/
inductive Json.Nested (P : ℤ → Prop) : ℕ → Json → Prop
  | bool {depth : ℕ} (b : Bool) : Nested P depth (.bool b)
  | num {depth : ℕ} {v : ℤ} (h : P v) : Nested P depth (.num v)
  | str {depth : ℕ} (s : CStr) : Nested P depth (.str s)
  | arr {depth : ℕ} {items : List Json} (h : ∀ j ∈ items, Nested P depth j) :
      Nested P (depth + 1) (.arr items)
  | obj {depth : ℕ} {fields : List (String × Json)} (h : ∀ field ∈ fields, Nested P depth field.2) :
      Nested P (depth + 1) (.obj fields)

theorem Json.Nested.plain {depth : ℕ} {j : Json} (h : Json.Nested FitsInt depth j) :
    Json.Plain depth j := by
  induction h with
  | bool b => exact .bool b
  | num h => exact .num h
  | str s => exact .str s
  | arr _ ih => exact .arr ih
  | obj _ ih => exact .obj ih

/-- What is printed is parsed back. -/
def PrintsFaithfully (C : CJson) : Prop :=
  ∀ j text, Json.Plain cjsonNestingLimit j → C.print j = some text → C.parse text = some j

/-- An integer that is a double. -/
def IsDouble (v : ℤ) : Prop := ∃ (m : ℤ) (e : ℕ), m.natAbs ≤ 2 ^ 53 ∧ e ≤ 970 ∧ v = m * 2 ^ e

theorem isDouble_of_fits {v : ℤ} (h : FitsInt v) : IsDouble v := by
  obtain ⟨hlo, hhi⟩ := h
  rw [intMin] at hlo
  rw [intMax] at hhi
  exact ⟨v, 0, by omega, by omega, by rw [pow_zero, mul_one]⟩

theorem isDouble_toDouble {n : ℕ} (h64 : n < 2 ^ 64) : IsDouble (toDouble n) := by
  by_cases h : n < 2 ^ 53
  · rw [toDouble_of_lt h]
    exact ⟨n, 0, by omega, by omega, by rw [pow_zero, mul_one]⟩
  · have h53 : 2 ^ 53 ≤ n := Nat.le_of_not_lt h
    obtain ⟨q, -, hq, heq⟩ := toDouble_of_ge h53
    have hexp := log2_sub_le h53 h64
    exact ⟨q, Nat.log2 n - 52, hq, by omega, by rw [heq]; push_cast; rfl⟩

/-- What is printed is parsed back, where its numbers are integers that are doubles. -/
def PrintsDoubles (C : CJson) : Prop :=
  ∀ j text, Json.Nested IsDouble cjsonNestingLimit j → C.print j = some text → C.parse text = some j

end ProxiMight
