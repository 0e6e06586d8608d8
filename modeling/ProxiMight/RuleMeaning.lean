import ProxiMight.Glob
import ProxiMight.Separated

/-!
# What a rule means

An application or host pattern is a list of globs separated by `;`, of which a blank one stands for
nothing.  `Describes` says when such a list describes a text and `RuleMeans` when a rule applies to a
connection; `pmx_rule_matches` decides it.

* **`globListLoop_iff`** — the scan of a list is about its `;`-separated pieces.
* **`pmxRuleMatches_eq_true_iff`** — the rule matches exactly where it means to.
-/

namespace ProxiMight

open CString Separated

/-- A NULL string counts as the empty one. -/
def strOrEmpty (s : Option CStr) : List UInt8 := (s.map CStr.str).getD []

/-- Some `;`-separated segment, trimmed and not blank, is a glob that matches the text, whatever the
case of its letters. -/
def Describes (list text : List UInt8) : Prop :=
  ∃ seg ∈ list.splitOn 59, trim seg ≠ [] ∧ MatchesGlob true (trim seg) text

/-- Every criterion of the rule that is not empty holds of the connection. -/
def RuleMeans (r : PmxRule) (q : PmxConnQuery) : Prop :=
  (r.appPattern.str ≠ [] → Describes r.appPattern.str (strOrEmpty q.appName) ∨
    Describes r.appPattern.str (strOrEmpty q.appPath)) ∧
  (r.hostPattern.str ≠ [] → Describes r.hostPattern.str (strOrEmpty q.host)) ∧
  (r.portSpec.str ≠ [] → pmxPortSpecMatch r.portSpec.str q.port = true)

theorem trim_length_le (s : List UInt8) : (trim s).length ≤ s.length :=
  (trim_isPrefix s).length_le.trans (List.dropWhile_sublist isSpace).length_le

/-- One round of the scan: the test on the segment in front, then the rest of the list. -/
theorem globListLoop_eq (text s : List UInt8) :
    globListLoop text true s =
      ((!(trim (s.takeWhile (· != 59))).isEmpty &&
          pmxGlobMatch ((trim (s.takeWhile (· != 59))).take (pmxMaxPattern - 1)) text true) ||
        globListLoop text true ((s.dropWhile (· != 59)).drop 1)) := by
  cases s with
  | nil => simp only [globListLoop, List.takeWhile_nil, List.dropWhile_nil, List.drop_nil, trim,
      List.rdropWhile_nil, List.isEmpty_nil, Bool.not_true, Bool.false_and, Bool.false_or]
  | cons c s =>
    rw [globListLoop]
    split_ifs with htest
    · rw [htest, Bool.true_or]
    · rw [Bool.not_eq_true] at htest
      rw [htest, Bool.false_or]

/-- The test on a segment; what would not fit its copy never occurs. -/
theorem segmentTest_iff {seg : List UInt8} (text : List UInt8)
    (hlen : seg.length ≤ pmxMaxPattern - 1) :
    (!(trim seg).isEmpty && pmxGlobMatch ((trim seg).take (pmxMaxPattern - 1)) text true) = true ↔
      trim seg ≠ [] ∧ MatchesGlob true (trim seg) text := by
  rw [List.take_of_length_le ((trim_length_le seg).trans hlen), Bool.and_eq_true, Bool.not_eq_true',
    List.isEmpty_eq_false_iff, pmxGlobMatch, globLoop_start]

/-- The scan of a list that fits its buffer is about its `;`-separated segments. -/
theorem globListLoop_iff (text list : List UInt8) (hlen : list.length ≤ pmxMaxPattern - 1) :
    globListLoop text true list = true ↔ Describes list text := by
  induction list using piece_induction (59 : UInt8) with
  | last seg hseg =>
    have hdrop : seg.dropWhile (· != 59) = [] := List.dropWhile_eq_nil_iff.2 (bne_of_notMem hseg)
    have hend : globListLoop text true [] = false := by rw [globListLoop]
    rw [globListLoop_eq, hdrop, List.drop_nil, hend, Bool.or_false,
      List.takeWhile_eq_self_iff.2 (bne_of_notMem hseg), segmentTest_iff text hlen,
      Describes, List.splitOn_eq_singleton hseg]
    simp only [List.mem_singleton, exists_eq_left]
  | cons seg rest hseg ih =>
    rw [List.length_append, List.length_cons] at hlen
    rw [globListLoop_eq, takeWhile_piece_append hseg, dropWhile_piece_append hseg, List.drop_one,
      List.tail_cons, Bool.or_eq_true, segmentTest_iff text (by omega), ih (by omega),
      Describes, Describes, List.splitOn_append_cons_self_of_not_mem hseg]
    simp only [List.mem_cons, exists_eq_or_imp]

theorem pmxGlobListMatch_iff (b : CBuf pmxMaxPattern) (text : Option CStr) :
    pmxGlobListMatch b.str text true = true ↔
      (b.str ≠ [] → Describes b.str (strOrEmpty text)) := by
  rw [pmxGlobListMatch]
  split_ifs with hempty
  · simp only [List.isEmpty_iff.1 hempty, ne_eq, not_true_eq_false, false_imp_iff]
  · rw [List.isEmpty_iff] at hempty
    exact (globListLoop_iff _ _ b.length_str_le).trans (imp_iff_right hempty).symm

/-- A criterion turns the rule down if its field is not empty and it does not hold. -/
theorem criterion_iff {n : ℕ} {b : CBuf n} {ok : Bool} {P : Prop}
    (h : b.str ≠ [] → (ok = true ↔ P)) : (!b.isEmpty && !ok) = true ↔ ¬ (b.str ≠ [] → P) := by
  rw [Classical.not_imp, Bool.and_eq_true, Bool.not_eq_true', Bool.not_eq_true', CBuf.isEmpty,
    List.isEmpty_eq_false_iff]
  refine and_congr_right fun hne => ?_
  rw [← h hne, Bool.not_eq_true]

/-- A rule matches exactly the connections it means. -/
theorem pmxRuleMatches_eq_true_iff (r : PmxRule) (q : PmxConnQuery) :
    pmxRuleMatches r q = true ↔ RuleMeans r q := by
  have happ : r.appPattern.str ≠ [] →
      ((pmxGlobListMatch r.appPattern.str q.appName true ||
          pmxGlobListMatch r.appPattern.str q.appPath true) = true ↔
        Describes r.appPattern.str (strOrEmpty q.appName) ∨
          Describes r.appPattern.str (strOrEmpty q.appPath)) := by
    intro hne
    rw [Bool.or_eq_true, pmxGlobListMatch_iff, pmxGlobListMatch_iff, imp_iff_right hne,
      imp_iff_right hne]
  have hhost : r.hostPattern.str ≠ [] → (pmxGlobListMatch r.hostPattern.str q.host true = true ↔
      Describes r.hostPattern.str (strOrEmpty q.host)) := by
    intro hne
    rw [pmxGlobListMatch_iff, imp_iff_right hne]
  have hport : r.portSpec.str ≠ [] → (pmxPortSpecMatch r.portSpec.str q.port = true ↔
      pmxPortSpecMatch r.portSpec.str q.port = true) := fun _ => Iff.rfl
  simp only [pmxRuleMatches, Bool.if_false_left, Bool.if_true_right, criterion_iff happ,
    criterion_iff hhost, criterion_iff hport, Bool.and_eq_true, Bool.not_eq_true', decide_eq_false_iff_not,
    not_not, RuleMeans, Bool.or_false]

end ProxiMight
