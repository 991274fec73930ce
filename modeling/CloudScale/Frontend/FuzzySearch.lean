/-
  The fuzzy search of the browser (`lib/fuzzySearch.ts`), in exact arithmetic.

  A query is found in a target as a part of it, or else with its code units in order but with gaps
  between them. `fuzzyMatchScore_tiers`: the loop finds the gapped matches that there are, and each
  kind of match has a range of scores of its own. `fuzzySearch_spec`: a search lists the items with
  a match, the best scores first.
-/
import CloudScale.Frontend.JsString
import CloudScale.Lib.Listing
import Mathlib.Data.Rat.Floor
import Mathlib.Tactic.Linarith
import Mathlib.Tactic.Positivity

namespace CloudScale.Frontend

open CloudScale.Lib

/-! ## The score -/

/-- The loop, on what is left of `q` and `t`: how many matches and gaps there are. -/
def countMatches : JsString → JsString → ℕ → ℕ → ℕ × ℕ
  | [], _, matched, gaps => (matched, gaps)
  | _ :: _, [], matched, gaps => (matched, gaps)
  | c :: q, d :: t, matched, gaps =>
    if c = d then countMatches q t (matched + 1) gaps
    else countMatches (c :: q) t matched (gaps + 1)

def score (q t : JsString) : ℚ :=
  if q.isEmpty then 1
  else if t.isEmpty then 0
  else if q = t then 1
  else if includesUnits t q then 8 / 10 + q.length / t.length * (2 / 10)
  else
    let (matched, gaps) := countMatches q t 0 0
    if matched ≠ q.length then 0
    else
      let penalty : ℚ := gaps * (1 / 100)
      let score : ℚ := 5 / 10 + matched / t.length * (3 / 10) - penalty
      max (1 / 10) (min (9 / 10) score)

section

variable (toLowerCase : JsString → JsString)

/-- What is compared of a text. -/
def normal (text : JsString) : JsString := trim (toLowerCase text)

def fuzzyMatchScore (query target : JsString) : ℚ :=
  score (normal toLowerCase query) (normal toLowerCase target)

/-- The items with a score above 0, each with the best of its strings; `sort` is stable. -/
def fuzzySearch {T : Type} (items : List T) (query : JsString) (getStrings : T → List JsString) :
    List (T × ℚ) :=
  if query.isEmpty then items.map fun item => (item, 1)
  else
    let results := items.map fun item =>
      (item, ((getStrings item).map (fuzzyMatchScore toLowerCase query)).foldl max 0)
    (results.filter fun res => 0 < res.2).insertionSort fun a b => b.2 ≤ a.2

end

/-! ## Subsequences -/

theorem cons_sublist_of_ne {c d : UInt16} (h : c ≠ d) {q t : JsString} :
    (c :: q).Sublist (d :: t) ↔ (c :: q).Sublist t := by
  rw [List.sublist_cons_iff]
  refine ⟨fun hor => hor.elim id ?_, .inl⟩
  rintro ⟨r, heq, -⟩
  exact absurd (List.cons.inj heq).1 h

/-- The loop matches no more than there is of `q`, and all of it exactly for a subsequence. -/
theorem countMatches_iff (q t : JsString) (matched gaps : ℕ) :
    (countMatches q t matched gaps).1 = matched + q.length ↔ q.Sublist t := by
  induction t generalizing q matched gaps with
  | nil =>
    cases q with
    | nil => simp [countMatches]
    | cons c q => simp [countMatches]
  | cons d t ih =>
    cases q with
    | nil => simp [countMatches]
    | cons c q =>
      unfold countMatches
      split
      · next h =>
        subst h
        rw [List.cons_sublist_cons, ← ih q (matched + 1) gaps, List.length_cons]
        omega
      · next h => rw [cons_sublist_of_ne h, ih]

/-! ## Tiers -/

/-- A contiguous part that is neither empty nor the whole. -/
def ProperSubstring (q t : JsString) : Prop := q ≠ [] ∧ q ≠ t ∧ q <:+: t

/-- A subsequence that is no contiguous part. -/
def Gapped (q t : JsString) : Prop := q.Sublist t ∧ ¬ q <:+: t

/-- Which scores which match has. -/
structure Tiers (q t : JsString) (score : ℚ) : Prop where
  nonneg : 0 ≤ score
  le_one : score ≤ 1
  pos_iff : 0 < score ↔ q = [] ∨ q.Sublist t
  one_iff : score = 1 ↔ q = [] ∨ q = t
  substring : ProperSubstring q t → 8 / 10 ≤ score ∧ score < 1
  gapped : Gapped q t → 1 / 10 ≤ score ∧ score < 8 / 10

section Tiers

variable {q t : JsString}

/-- The part of a target that is matched. -/
theorem ratio_between (hq : q ≠ []) (hle : q.length < t.length) :
    (0 : ℚ) < q.length / t.length ∧ (q.length : ℚ) / t.length < 1 := by
  have hqpos : (0 : ℚ) < q.length := Nat.cast_pos.mpr (List.length_pos_iff.mpr hq)
  have hlt : (q.length : ℚ) < t.length := Nat.cast_lt.mpr hle
  have htpos : (0 : ℚ) < t.length := hqpos.trans hlt
  exact ⟨div_pos hqpos htpos, (div_lt_one htpos).mpr hlt⟩

theorem score_nil (t : JsString) : score [] t = 1 := rfl

theorem score_self (q : JsString) : score q q = 1 := by
  cases q with
  | nil => rfl
  | cons c q => exact if_pos rfl

theorem score_of_ne (hq : q ≠ []) (ht : t ≠ []) (hne : q ≠ t) :
    score q t = if includesUnits t q then (8 / 10 + q.length / t.length * (2 / 10) : ℚ)
      else if (countMatches q t 0 0).1 ≠ q.length then 0
      else max (1 / 10) (min (9 / 10) (5 / 10 + (countMatches q t 0 0).1 / t.length * (3 / 10) -
        (countMatches q t 0 0).2 * (1 / 100) : ℚ)) := by
  unfold score
  rw [if_neg (mt List.isEmpty_iff.mp hq), if_neg (mt List.isEmpty_iff.mp ht), if_neg hne]

theorem score_substring (h : ProperSubstring q t) : 8 / 10 ≤ score q t ∧ score q t < 1 := by
  obtain ⟨hq, hne, hpart⟩ := h
  have ht : t ≠ [] := fun ht => hq (List.infix_nil.mp (ht ▸ hpart))
  have hle : q.length < t.length :=
    Nat.lt_of_le_of_ne hpart.length_le fun hlen => hne (hpart.eq_of_length hlen)
  obtain ⟨hpos, hlt⟩ := ratio_between hq hle
  rw [score_of_ne hq ht hne, if_pos (includesUnits_iff.mpr hpart)]
  constructor <;> linarith

theorem score_gapped (h : Gapped q t) : 1 / 10 ≤ score q t ∧ score q t < 8 / 10 := by
  obtain ⟨hsub, hpart⟩ := h
  have hq : q ≠ [] := fun hq => hpart (hq ▸ List.nil_infix)
  have ht : t ≠ [] := fun ht => hq (List.sublist_nil.mp (ht ▸ hsub))
  have hne : q ≠ t := fun hne => hpart (hne ▸ List.infix_rfl)
  have hle : q.length < t.length :=
    Nat.lt_of_le_of_ne hsub.length_le fun hlen => hne (hsub.eq_of_length hlen)
  have hall : (countMatches q t 0 0).1 = q.length := by
    have hmatched := (countMatches_iff q t 0 0).mpr hsub
    rwa [Nat.zero_add] at hmatched
  obtain ⟨-, hlt⟩ := ratio_between hq hle
  have hpenalty : (0 : ℚ) ≤ (countMatches q t 0 0).2 * (1 / 100) := by positivity
  rw [score_of_ne hq ht hne, if_neg (mt includesUnits_iff.mp hpart), if_neg (not_not.mpr hall),
    hall]
  refine ⟨le_max_left _ _, max_lt (by norm_num) ((min_le_right _ _).trans_lt ?_)⟩
  linarith

theorem score_unmatched (h : ¬ q.Sublist t) : score q t = 0 := by
  have hq : q ≠ [] := fun hq => h (hq ▸ List.nil_sublist t)
  have hne : q ≠ t := fun hne => h (hne ▸ List.Sublist.refl q)
  have hpart : ¬ q <:+: t := fun hpart => h hpart.sublist
  by_cases ht : t = []
  · unfold score
    rw [if_neg (mt List.isEmpty_iff.mp hq), if_pos (List.isEmpty_iff.mpr ht)]
  · have hall : (countMatches q t 0 0).1 ≠ q.length := fun hall =>
      h ((countMatches_iff q t 0 0).mp (hall.trans (Nat.zero_add _).symm))
    rw [score_of_ne hq ht hne, if_neg (mt includesUnits_iff.mp hpart), if_pos hall]

/-- How a query can match. -/
theorem match_cases (q t : JsString) :
    (q = [] ∨ q = t) ∨ ProperSubstring q t ∨ Gapped q t ∨ ¬ q.Sublist t := by
  by_cases hone : q = [] ∨ q = t
  · exact .inl hone
  · obtain ⟨hq, hne⟩ := not_or.mp hone
    by_cases hpart : q <:+: t
    · exact .inr (.inl ⟨hq, hne, hpart⟩)
    · by_cases hsub : q.Sublist t
      · exact .inr (.inr (.inl ⟨hsub, hpart⟩))
      · exact .inr (.inr (.inr hsub))

theorem score_one (h : q = [] ∨ q = t) : score q t = 1 := by
  rcases h with rfl | rfl
  · exact score_nil t
  · exact score_self q

theorem score_pos_iff : 0 < score q t ↔ q = [] ∨ q.Sublist t := by
  constructor
  · intro h
    by_contra hnone
    rw [score_unmatched fun hsub => hnone (.inr hsub)] at h
    exact lt_irrefl 0 h
  · intro h
    have hsub : q.Sublist t := h.elim (fun hq => hq ▸ List.nil_sublist t) id
    rcases match_cases q t with hone | hpart | hgap | hnone
    · rw [score_one hone]
      exact one_pos
    · linarith [(score_substring hpart).1]
    · linarith [(score_gapped hgap).1]
    · exact absurd hsub hnone

theorem score_tiers (q t : JsString) : Tiers q t (score q t) := by
  have hcases := match_cases q t
  refine ⟨?_, ?_, score_pos_iff, ⟨fun h => ?_, score_one⟩, score_substring, score_gapped⟩
  · rcases hcases with hone | hpart | hgap | hnone
    · rw [score_one hone]
      exact zero_le_one
    · linarith [(score_substring hpart).1]
    · linarith [(score_gapped hgap).1]
    · exact (score_unmatched hnone).ge
  · rcases hcases with hone | hpart | hgap | hnone
    · exact (score_one hone).le
    · exact (score_substring hpart).2.le
    · linarith [(score_gapped hgap).2]
    · rw [score_unmatched hnone]
      exact zero_le_one
  · rcases hcases with hone | hpart | hgap | hnone
    · exact hone
    · linarith [(score_substring hpart).2]
    · linarith [(score_gapped hgap).2]
    · rw [score_unmatched hnone] at h
      exact absurd h zero_ne_one

end Tiers

/-- The score of a query in a target tells how it matches, and a part of one target outranks a
    gapped match in any other. -/
theorem fuzzyMatchScore_tiers (toLowerCase : JsString → JsString) (query : JsString) :
    (∀ target, Tiers (normal toLowerCase query) (normal toLowerCase target)
      (fuzzyMatchScore toLowerCase query target)) ∧
    ∀ target target', normal toLowerCase query <:+: normal toLowerCase target →
      Gapped (normal toLowerCase query) (normal toLowerCase target') →
        fuzzyMatchScore toLowerCase query target' < fuzzyMatchScore toLowerCase query target := by
  refine ⟨fun target => score_tiers _ _, fun target target' hpart hgap => ?_⟩
  have hlow := (score_gapped hgap).2
  rcases match_cases (normal toLowerCase query) (normal toLowerCase target) with
    hone | hproper | hgapped | hnone
  · have hhigh := score_one hone
    unfold fuzzyMatchScore
    linarith
  · have hhigh := (score_substring hproper).1
    unfold fuzzyMatchScore
    linarith
  · exact absurd hpart hgapped.2
  · exact absurd hpart.sublist hnone

/-! ## Searching -/

theorem lt_foldl_max {a b : ℚ} {l : List ℚ} : a < l.foldl max b ↔ a < b ∨ ∃ x ∈ l, a < x := by
  induction l generalizing b with
  | nil => simp
  | cons x l ih =>
    rw [List.foldl_cons, ih, lt_max_iff, List.exists_mem_cons_iff, or_assoc]

/-- A search lists the items that have a string with a match, the best scores first. -/
theorem fuzzySearch_spec {T : Type} (toLowerCase : JsString → JsString) (items : List T)
    {query : JsString} (getStrings : T → List JsString) (hquery : query ≠ []) :
    (fuzzySearch toLowerCase items query getStrings).Pairwise (fun a b => b.2 ≤ a.2) ∧
      ∀ item, item ∈ (fuzzySearch toLowerCase items query getStrings).map (·.1) ↔
        item ∈ items ∧ ∃ str ∈ getStrings item, normal toLowerCase query = [] ∨
          (normal toLowerCase query).Sublist (normal toLowerCase str) := by
  unfold fuzzySearch
  rw [if_neg (mt List.isEmpty_iff.mp hquery)]
  refine ⟨pairwise_insertionSort_key (fun res : T × ℚ => res.2) _, fun item => ?_⟩
  have hfound : 0 < ((getStrings item).map (fuzzyMatchScore toLowerCase query)).foldl max 0 ↔
      ∃ str ∈ getStrings item, normal toLowerCase query = [] ∨
        (normal toLowerCase query).Sublist (normal toLowerCase str) := by
    rw [lt_foldl_max]
    simp only [lt_irrefl, false_or, List.mem_map, exists_exists_and_eq_and]
    exact exists_congr fun str => and_congr_right fun _ => score_pos_iff
  rw [← hfound]
  simp only [List.mem_map, List.mem_insertionSort, List.mem_filter, decide_eq_true_eq]
  constructor
  · rintro ⟨_, ⟨⟨item', hmem, rfl⟩, hpos⟩, rfl⟩
    exact ⟨hmem, hpos⟩
  · rintro ⟨hmem, hpos⟩
    exact ⟨_, ⟨⟨item, hmem, rfl⟩, hpos⟩, rfl⟩

end CloudScale.Frontend
