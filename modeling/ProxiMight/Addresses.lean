import Mathlib.Algebra.Group.Nat.Defs
import Mathlib.Data.List.Infix
import ProxiMight.CString
import ProxiMight.Phrases
import ProxiMight.Separated

/-!
# Addresses and networks as texts

An IPv4 address is four decimal numbers up to 255; an IPv6 address is eight groups of up to four hexadecimal
digits, of which `::` may stand for a run of zeros, and the last two may be written as an IPv4 address.  A
network is an address, a `/` and the number of leading bits that count.

* **`covers_iff`** — the networks of a list cover a family just when its first address is in one of them,
  and so is the address that follows each of them, if there is one.
-/

namespace Addresses

open CString Phrase

/-! ### The texts -/

def decDigit : Phrase UInt8 := .char (bytes "0123456789")

def nonzeroDigit : Phrase UInt8 := .char (bytes "123456789")

def hexDigit : Phrase UInt8 := .char (bytes "0123456789abcdefABCDEF")

/-- A decimal number up to 255. -/
def octet : Phrase UInt8 :=
  alts decDigit [seqs [nonzeroDigit, decDigit], seqs [word (bytes "1"), decDigit, decDigit],
    seqs [word (bytes "2"), .char (bytes "01234"), decDigit],
    seqs [word (bytes "25"), .char (bytes "012345")]]

def ipv4 : Phrase UInt8 :=
  seqs [octet, word (bytes "."), octet, word (bytes "."), octet, word (bytes "."), octet]

/-- A group of sixteen bits. -/
def hexGroup : Phrase UInt8 := .seq hexDigit (upTo hexDigit 3)

def groupColon : Phrase UInt8 := seqs [hexGroup, word (bytes ":")]

/-- The last `n` groups of an address; an IPv4 address counts for two. -/
def lastGroups : ℕ → Phrase UInt8
  | 0 => .done
  | 1 => hexGroup
  | n + 2 => seqs [rep groupColon n, .alt (seqs [groupColon, hexGroup]) ipv4]

/-- At most `n` groups. -/
def firstGroups : ℕ → Phrase UInt8
  | 0 => .done
  | n + 1 => opt (seqs [upTo groupColon n, hexGroup])

/-- All eight groups, or some and `::` and `r` more, seven at most. -/
def ipv6 : Phrase UInt8 :=
  alts (lastGroups 8)
    ((List.range 8).map fun r => seqs [firstGroups (7 - r), word (bytes "::"), lastGroups r])

/-- A numeric address. -/
def address : Phrase UInt8 := .alt ipv4 ipv6

/-- A decimal number up to 32. -/
def length4 : Phrase UInt8 :=
  alts decDigit [seqs [.char (bytes "12"), decDigit], seqs [.char (bytes "3"), .char (bytes "012")]]

/-- A decimal number up to 128. -/
def length6 : Phrase UInt8 :=
  alts decDigit [seqs [nonzeroDigit, decDigit], seqs [.char (bytes "1"), .char (bytes "01"), decDigit],
    seqs [.char (bytes "1"), .char (bytes "2"), .char (bytes "012345678")]]

/-- The character `/`. -/
def slash : UInt8 := 47

/-- A network: an address, `/` and the length of the prefix that counts. -/
def cidr : Phrase UInt8 :=
  .alt (seqs [ipv4, .char [slash], length4]) (seqs [ipv6, .char [slash], length6])

example : bytes "fe80::1" ∈ address.lang ∧ bytes "::ffff:10.0.0.255" ∈ address.lang ∧
    bytes "1:2:3:4::5:6:7:8" ∉ address.lang ∧ bytes "10.0.0.256" ∉ address.lang := by decide +kernel

/-! ### What they stand for -/

/-- The value of a digit, decimal or hexadecimal. -/
def digitValue (c : UInt8) : ℕ :=
  if c ≤ 57 then c.toNat - 48 else (toLower c).toNat - 87

def numberValue (base : ℕ) (ds : List UInt8) : ℕ := ds.foldl (fun v d => v * base + digitValue d) 0

/-- Numbers put one after the other, in positions of that many bits. -/
def joinBits (bits : ℕ) (vs : List ℕ) : ℕ := vs.foldl (fun v d => v * 2 ^ bits + d) 0

def ipv4Value (t : List UInt8) : ℕ := joinBits 8 ((t.splitOn 46).map (numberValue 10))

/-- The groups of a part without `::`. -/
def groupsOf (t : List UInt8) : List ℕ :=
  if t = [] then []
  else (t.splitOn 58).flatMap fun p =>
    if 46 ∈ p then [ipv4Value p / 2 ^ 16, ipv4Value p % 2 ^ 16] else [numberValue 16 p]

/-- What stands before the first `::`, and after it. -/
def cutAtDouble : List UInt8 → List UInt8 × Option (List UInt8)
  | [] => ([], none)
  | c :: rest =>
    if c = 58 ∧ rest.head? = some 58 then ([], some rest.tail)
    else (c :: (cutAtDouble rest).1, (cutAtDouble rest).2)

def ipv6Value (t : List UInt8) : ℕ :=
  match cutAtDouble t with
  | (front, none) => joinBits 16 (groupsOf front)
  | (front, some back) =>
    let zeros := 8 - (groupsOf front).length - (groupsOf back).length
    joinBits 16 (groupsOf front ++ List.replicate zeros 0 ++ groupsOf back)

inductive Family
  | v4
  | v6
  deriving DecidableEq

def Family.bits : Family → ℕ
  | .v4 => 32
  | .v6 => 128

structure Network where
  family : Family
  address : ℕ
  length : ℕ
  deriving DecidableEq

/-- The network a text stands for. -/
def networkOf (t : List UInt8) : Network :=
  let addr := t.takeWhile (· != slash)
  let length := numberValue 10 ((t.dropWhile (· != slash)).drop 1)
  if 58 ∈ addr then ⟨.v6, ipv6Value addr, length⟩ else ⟨.v4, ipv4Value addr, length⟩

namespace Network

variable (n : Network)

/-- The bits that do not count. -/
def hostBits : ℕ := n.family.bits - n.length

/-- The bits that count, as a number. -/
def netNumber : ℕ := n.address / 2 ^ n.hostBits % 2 ^ n.length

/-- The address is of the network. -/
def Holds (x : ℕ) : Prop := x / 2 ^ n.hostBits = n.netNumber

/-- The address that follows the last of the network. -/
def next : ℕ := (n.netNumber + 1) * 2 ^ n.hostBits

instance (x : ℕ) : Decidable (n.Holds x) := inferInstanceAs (Decidable (_ = _))

end Network

example : networkOf (bytes "10.128.0.0/9") = ⟨.v4, 10 * 2 ^ 24 + 2 ^ 23, 9⟩ ∧
    networkOf (bytes "8000::/1") = ⟨.v6, 2 ^ 127, 1⟩ ∧
    networkOf (bytes "::ffff:1.0.0.2/128") = ⟨.v6, 0xffff * 2 ^ 32 + 2 ^ 24 + 2, 128⟩ := by decide +kernel

/-! ### Networks that cover a family -/

/-- Some network of the family holds the address. -/
def Listed (f : Family) (ns : List Network) (x : ℕ) : Prop := ∃ n ∈ ns, n.family = f ∧ n.Holds x

/-- The networks together hold every address of the family. -/
def Covers (f : Family) (ns : List Network) : Prop := ∀ x < 2 ^ f.bits, Listed f ns x

/-- The first address of the family is listed, and so is the one that follows each network, up to the end
of the family. -/
def NoGap (f : Family) (ns : List Network) : Prop :=
  Listed f ns 0 ∧ ∀ n ∈ ns, n.family = f → n.next < 2 ^ f.bits → Listed f ns n.next

instance (f : Family) (ns : List Network) (x : ℕ) : Decidable (Listed f ns x) :=
  inferInstanceAs (Decidable (∃ _, _))

instance (f : Family) (ns : List Network) : Decidable (NoGap f ns) := inferInstanceAs (Decidable (_ ∧ _))

/-- The address after one of a network is of it too, or it is the one that follows the network. -/
theorem Network.Holds.succ {n : Network} {x : ℕ} (h : n.Holds x) : n.Holds (x + 1) ∨ x + 1 = n.next := by
  rw [Holds] at h
  by_cases hdvd : 2 ^ n.hostBits ∣ x + 1
  · refine Or.inr ?_
    rw [next, ← h, ← Nat.succ_div_of_dvd hdvd, Nat.div_mul_cancel hdvd]
  · refine Or.inl ?_
    rw [Holds, Nat.succ_div_of_not_dvd hdvd, h]

/-- **When networks cover a family**, by induction on the addresses: each is listed with the one before it,
or follows a network. -/
theorem covers_iff (f : Family) (ns : List Network) : Covers f ns ↔ NoGap f ns := by
  constructor
  · exact fun h => ⟨h 0 (Nat.two_pow_pos _), fun n _ _ hlt => h n.next hlt⟩
  · rintro ⟨hfirst, hnext⟩ x
    induction x with
    | zero => exact fun _ => hfirst
    | succ x ih =>
      intro hlt
      obtain ⟨n, hn, hf, hx⟩ := ih (Nat.lt_of_succ_lt hlt)
      rcases hx.succ with hsame | hend
      · exact ⟨n, hn, hf, hsame⟩
      · rw [hend] at hlt ⊢
        exact hnext n hn hf hlt

/-- A network of length zero holds its whole family. -/
theorem covers_of_length_zero {ns : List Network} {n : Network} (hn : n ∈ ns) (hlen : n.length = 0) :
    Covers n.family ns := by
  intro x hx
  refine ⟨n, hn, rfl, ?_⟩
  rw [Network.Holds, Network.netNumber, Network.hostBits, hlen, Nat.sub_zero, pow_zero, Nat.mod_one]
  exact Nat.div_eq_of_lt hx

/-! ### The length of a network -/

theorem cidr_parts {t : List UInt8} (ht : t ∈ cidr.lang) :
    ∃ a l, t = a ++ slash :: l ∧ slash ∉ a ∧ slash ∉ l ∧ (l ∈ length4.lang ∨ l ∈ length6.lang) := by
  have hparts : ∀ p q : Phrase UInt8, slash ∉ p.chars → slash ∉ q.chars →
      t ∈ (seqs [p, .char [slash], q]).lang →
        ∃ a l, t = a ++ slash :: l ∧ slash ∉ a ∧ slash ∉ l ∧ l ∈ q.lang := by
    intro p q hp hq ht
    obtain ⟨a, ha, tail, htail, rfl⟩ := Language.mem_mul.1 ht
    obtain ⟨_, ⟨c, hc, rfl⟩, last, hlast, rfl⟩ := Language.mem_mul.1 htail
    obtain ⟨l, hl, e, he, rfl⟩ := Language.mem_mul.1 hlast
    rw [seqs, lang, Language.mem_one] at he
    rw [List.mem_singleton.1 hc, he, List.append_nil]
    exact ⟨a, l, rfl, fun h => hp (mem_chars p ha h), fun h => hq (mem_chars q hl h), hl⟩
  rcases (Language.mem_add _ _ t).1 ht with ht | ht
  · obtain ⟨a, l, heq, ha, hl, hlen⟩ := hparts ipv4 length4 (by decide +kernel) (by decide +kernel) ht
    exact ⟨a, l, heq, ha, hl, Or.inl hlen⟩
  · obtain ⟨a, l, heq, ha, hl, hlen⟩ := hparts ipv6 length6 (by decide +kernel) (by decide +kernel) ht
    exact ⟨a, l, heq, ha, hl, Or.inr hlen⟩

/-- A text that begins with a set of characters begins with one of them. -/
theorem head_of_seqs {cs : List UInt8} {ps : List (Phrase UInt8)} {l : List UInt8}
    (hl : l ∈ (seqs (.char cs :: ps)).lang) : ∃ c ∈ cs, l.head? = some c := by
  obtain ⟨_, ⟨c, hc, rfl⟩, rest, -, rfl⟩ := Language.mem_mul.1 hl
  exact ⟨c, hc, rfl⟩

/-- A length that begins with `0` is zero. -/
theorem length_eq_zero {l : List UInt8} (hl : l ∈ length4.lang ∨ l ∈ length6.lang)
    (hhead : l.head? = some 48) : l = [48] := by
  have hnot : ∀ {cs : List UInt8} {ps : List (Phrase UInt8)}, 48 ∉ cs →
      l ∉ (seqs (.char cs :: ps)).lang := by
    intro cs ps hcs hl
    obtain ⟨c, hc, hc'⟩ := head_of_seqs hl
    rw [hhead] at hc'
    exact hcs (Option.some.inj hc' ▸ hc)
  have hdigit : l ∈ decDigit.lang → l = [48] := by
    rintro ⟨c, -, rfl⟩
    rw [Option.some.inj hhead]
  rcases hl with (hl | hl | hl) | (hl | hl | hl | hl)
  · exact hdigit hl
  · exact absurd hl (hnot (by decide))
  · exact absurd hl (hnot (by decide))
  · exact hdigit hl
  · exact absurd hl (hnot (by decide))
  · exact absurd hl (hnot (by decide))
  · exact absurd hl (hnot (by decide))

/-- What follows the one separator of a text. -/
theorem head_behind_separator {sep c : UInt8} {a l : List UInt8} (ha : sep ∉ a) (hl : sep ∉ l)
    (h : [sep, c] <:+: a ++ sep :: l) : l.head? = some c := by
  induction a with
  | nil =>
    rcases List.infix_cons_iff.1 h with hpre | hinf
    · obtain ⟨rest, hrest⟩ := hpre
      rw [← (List.cons.inj hrest).2]
      rfl
    · exact absurd (hinf.subset List.mem_cons_self) hl
  | cons d a ih =>
    rw [List.mem_cons, not_or] at ha
    rcases List.infix_cons_iff.1 h with hpre | hinf
    · obtain ⟨rest, hrest⟩ := hpre
      exact absurd (List.cons.inj hrest).1 ha.1
    · exact ih ha.2 hinf

/-- A network whose text has `/0` in it is of length zero. -/
theorem networkOf_length_zero {t : List UInt8} (ht : t ∈ cidr.lang) (hzero : [slash, 48] <:+: t) :
    (networkOf t).length = 0 := by
  obtain ⟨a, l, rfl, ha, hl, hlen⟩ := cidr_parts ht
  have hl48 := length_eq_zero hlen (head_behind_separator ha hl hzero)
  have hlength : (networkOf (a ++ slash :: l)).length = numberValue 10 l := by
    rw [networkOf, Separated.dropWhile_piece_append ha, Separated.takeWhile_piece_append ha]
    split_ifs
    · rfl
    · rfl
  rw [hlength, hl48]
  decide

end Addresses
