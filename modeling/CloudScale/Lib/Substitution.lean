/-
  Characters replaced by words: one replacement after another over the whole text, all in one pass
  over its characters, and back.

  `replaceEach_eq`: the replacements one after another come to the one pass, as long as no word has
  a character that is replaced later. Where the words are those of an `Escaping`, they can be told
  from the text again: `unescape_substitute`.
-/
import Mathlib.Data.List.Basic

namespace CloudScale.Lib

variable {α : Type}

/-- Behind a text without the mark the mark is where it was. -/
theorem exists_of_append {mark : α} {w s pre rest : List α} (hw : mark ∉ w)
    (h : w ++ s = pre ++ mark :: rest) : ∃ pre', s = pre' ++ mark :: rest := by
  rcases List.append_eq_append_iff.mp h with ⟨pre', -, hs⟩ | ⟨u, hwu, hrest⟩
  · exact ⟨pre', hs⟩
  · cases u with
    | nil => exact ⟨[], hrest.symm⟩
    | cons c u =>
      obtain ⟨rfl, -⟩ := List.cons.inj hrest
      exact absurd (hwu ▸ List.mem_append_right pre List.mem_cons_self) hw

variable [DecidableEq α]

/-- Every `c` becomes `w`. -/
def replaceAll (c : α) (w s : List α) : List α := s.flatMap fun d => if d = c then w else [d]

/-- One replacement after another. -/
def replaceEach (table : List (α × List α)) (s : List α) : List α :=
  table.foldl (fun s e => replaceAll e.1 e.2 s) s

/-- The word of a character; one without a word stays itself. -/
def wordOf (table : List (α × List α)) (c : α) : List α :=
  ((table.find? fun e => e.1 = c).map (·.2)).getD [c]

/-- All replacements in one pass. -/
def substitute (table : List (α × List α)) (s : List α) : List α := s.flatMap (wordOf table)

/-- Each word becomes its character; `skip` characters of a word are still to be passed over. -/
def unescapeFrom (table : List (α × List α)) : ℕ → List α → List α
  | _, [] => []
  | skip + 1, _ :: s => unescapeFrom table skip s
  | 0, c :: s =>
    match table.find? fun e => e.2.isPrefixOf (c :: s) with
    | some e => e.1 :: unescapeFrom table (e.2.length - 1) s
    | none => c :: unescapeFrom table 0 s

def unescape (table : List (α × List α)) (s : List α) : List α := unescapeFrom table 0 s

/-! ## One pass -/

theorem replaceAll_of_not_mem {c : α} {w s : List α} (h : c ∉ s) : replaceAll c w s = s := by
  induction s with
  | nil => rfl
  | cons d s ih =>
    obtain ⟨hd, hs⟩ := not_or.mp (mt List.mem_cons.mpr h)
    have ih := ih hs
    unfold replaceAll at ih ⊢
    rw [List.flatMap_cons, if_neg (Ne.symm hd), ih]
    rfl

theorem replaceEach_of_not_mem {table : List (α × List α)} {s : List α}
    (h : ∀ e ∈ table, e.1 ∉ s) : replaceEach table s = s := by
  induction table generalizing s with
  | nil => rfl
  | cons e table ih =>
    obtain ⟨he, hrest⟩ := List.forall_mem_cons.mp h
    show replaceEach table (replaceAll e.1 e.2 s) = s
    rw [replaceAll_of_not_mem he, ih hrest]

theorem replaceEach_append (table : List (α × List α)) (s t : List α) :
    replaceEach table (s ++ t) = replaceEach table s ++ replaceEach table t := by
  induction table generalizing s t with
  | nil => rfl
  | cons e table ih =>
    show replaceEach table (replaceAll e.1 e.2 (s ++ t)) = _
    unfold replaceAll
    rw [List.flatMap_append]
    exact ih _ _

/-- The words have no character that is replaced after them, and no character has two words. -/
def Ordered (table : List (α × List α)) : Prop :=
  table.Pairwise fun e e' => e'.1 ∉ e.2 ∧ e'.1 ≠ e.1

instance (table : List (α × List α)) : Decidable (Ordered table) :=
  inferInstanceAs (Decidable (List.Pairwise _ _))

theorem replaceEach_singleton {table : List (α × List α)} (h : Ordered table) (c : α) :
    replaceEach table [c] = wordOf table c := by
  induction table with
  | nil => rfl
  | cons e table ih =>
    obtain ⟨hfirst, hrest⟩ := List.pairwise_cons.mp h
    show replaceEach table (replaceAll e.1 e.2 [c]) = wordOf (e :: table) c
    unfold replaceAll wordOf
    rw [List.flatMap_singleton]
    by_cases hc : c = e.1
    · rw [if_pos hc, List.find?_cons_of_pos (by simpa using hc.symm)]
      exact replaceEach_of_not_mem fun e' he' => (hfirst e' he').1
    · rw [if_neg hc, List.find?_cons_of_neg (by simpa using Ne.symm hc)]
      exact ih hrest

/-- One replacement after another comes to the one pass. -/
theorem replaceEach_eq {table : List (α × List α)} (h : Ordered table) (s : List α) :
    replaceEach table s = substitute table s := by
  induction s with
  | nil => exact replaceEach_of_not_mem fun _ _ => List.not_mem_nil
  | cons c s ih =>
    show replaceEach table ([c] ++ s) = wordOf table c ++ substitute table s
    rw [replaceEach_append, replaceEach_singleton h, ih]

/-! ## And back -/

theorem unescapeFrom_skip (table : List (α × List α)) (w s : List α) :
    unescapeFrom table w.length (w ++ s) = unescape table s := by
  induction w with
  | nil => rfl
  | cons c w ih => exact ih

/-- A mark that is replaced itself begins every word and occurs in none again, and no word begins
    another one. -/
structure Escaping (mark : α) (table : List (α × List α)) : Prop where
  marked : ∃ e ∈ table, e.1 = mark
  heads : ∀ e ∈ table, e.2.head? = some mark ∧ mark ∉ e.2.tail
  prefixFree : ∀ e ∈ table, ∀ e' ∈ table, e.2 <+: e'.2 → e = e'

omit [DecidableEq α] in
theorem Escaping.word {mark : α} {table : List (α × List α)} (h : Escaping mark table)
    {e : α × List α} (he : e ∈ table) : ∃ w, e.2 = mark :: w ∧ mark ∉ w := by
  obtain ⟨hhead, htail⟩ := h.heads e he
  exact ⟨e.2.tail, (List.cons_head?_tail hhead).symm, htail⟩

section Escaping

variable {mark : α} {table : List (α × List α)} (h : Escaping mark table)
include h

/-- A character has the word of an entry, or it is none that is replaced. -/
theorem wordOf_cases (c : α) :
    (∃ e ∈ table, e.1 = c ∧ wordOf table c = e.2) ∨
      (c ≠ mark ∧ (∀ e ∈ table, e.1 ≠ c) ∧ wordOf table c = [c]) := by
  unfold wordOf
  cases hfind : table.find? fun e => e.1 = c with
  | some e =>
    have hc : e.1 = c := by simpa using List.find?_some hfind
    exact .inl ⟨e, List.mem_of_find?_eq_some hfind, hc, rfl⟩
  | none =>
    have hnone : ∀ e ∈ table, e.1 ≠ c := by simpa using hfind
    obtain ⟨e, he, rfl⟩ := h.marked
    exact .inr ⟨(hnone e he).symm, hnone, rfl⟩

/-- A word is told from the text whatever comes after it. -/
theorem find?_word {e : α × List α} (he : e ∈ table) (s : List α) :
    (table.find? fun e' => e'.2.isPrefixOf (e.2 ++ s)) = some e := by
  cases hfind : table.find? fun e' => e'.2.isPrefixOf (e.2 ++ s) with
  | none =>
    have hnone := List.find?_eq_none.mp hfind e he
    exact absurd (List.isPrefixOf_iff_prefix.mpr (List.prefix_append _ _)) hnone
  | some e' =>
    have he' : e' ∈ table := List.mem_of_find?_eq_some hfind
    have hfound : e'.2.isPrefixOf (e.2 ++ s) = true := by simpa using List.find?_some hfind
    have hprefix : e'.2 <+: e.2 ++ s := List.isPrefixOf_iff_prefix.mp hfound
    congr 1
    rcases List.prefix_or_prefix_of_prefix hprefix (List.prefix_append e.2 s) with hle | hle
    · exact h.prefixFree e' he' e he hle
    · exact (h.prefixFree e he e' he' hle).symm

theorem unescape_word {e : α × List α} (he : e ∈ table) (s : List α) :
    unescape table (e.2 ++ s) = e.1 :: unescape table s := by
  have hfind := find?_word h he s
  obtain ⟨w, hw, -⟩ := h.word he
  rw [hw, List.cons_append] at hfind ⊢
  show (match table.find? fun e => e.2.isPrefixOf (mark :: (w ++ s)) with
    | some e => e.1 :: unescapeFrom table (e.2.length - 1) (w ++ s)
    | none => mark :: unescapeFrom table 0 (w ++ s)) = _
  rw [hfind]
  show e.1 :: unescapeFrom table (e.2.length - 1) (w ++ s) = _
  rw [hw]
  exact congrArg _ (unescapeFrom_skip table w s)

theorem unescape_char {c : α} (hc : c ≠ mark) (s : List α) :
    unescape table (c :: s) = c :: unescape table s := by
  have hfind : (table.find? fun e => e.2.isPrefixOf (c :: s)) = none := by
    refine List.find?_eq_none.mpr fun e he hprefix => ?_
    obtain ⟨w, hw, -⟩ := h.word he
    rw [hw] at hprefix
    obtain ⟨u, hu⟩ := List.isPrefixOf_iff_prefix.mp hprefix
    exact hc (List.cons.inj hu).1.symm
  show (match table.find? fun e => e.2.isPrefixOf (c :: s) with
    | some e => e.1 :: unescapeFrom table (e.2.length - 1) s
    | none => c :: unescapeFrom table 0 s) = _
  rw [hfind]
  rfl

theorem unescape_substitute (s : List α) : unescape table (substitute table s) = s := by
  induction s with
  | nil => rfl
  | cons c s ih =>
    show unescape table (wordOf table c ++ substitute table s) = c :: s
    rcases wordOf_cases h c with ⟨e, he, rfl, hword⟩ | ⟨hc, -, hword⟩
    · rw [hword, unescape_word h he, ih]
    · rw [hword, List.singleton_append, unescape_char h hc, ih]

/-- A character that is replaced, and not by words with it, is gone. -/
theorem not_mem_substitute {e : α × List α} (he : e ∈ table) (hwords : ∀ e' ∈ table, e.1 ∉ e'.2)
    (s : List α) : e.1 ∉ substitute table s := by
  intro hmem
  obtain ⟨c, -, hc⟩ := List.mem_flatMap.mp hmem
  rcases wordOf_cases h c with ⟨e', he', -, hword⟩ | ⟨-, hnone, hword⟩
  · exact hwords e' he' (hword ▸ hc)
  · exact hnone e he (List.mem_singleton.mp (hword ▸ hc))

/-- Every mark begins a word. -/
theorem word_of_mark {s pre rest : List α} (hs : substitute table s = pre ++ mark :: rest) :
    ∃ e ∈ table, e.2 <+: mark :: rest := by
  induction s generalizing pre with
  | nil => exact absurd hs.symm (List.append_ne_nil_of_right_ne_nil _ (List.cons_ne_nil _ _))
  | cons c s ih =>
    replace hs : wordOf table c ++ substitute table s = pre ++ mark :: rest := hs
    rcases wordOf_cases h c with ⟨e, he, -, hword⟩ | ⟨hc, -, hword⟩
    · cases pre with
      | nil => exact ⟨e, he, substitute table s, hword ▸ hs⟩
      | cons d pre =>
        obtain ⟨w, hw, hmark⟩ := h.word he
        rw [hword, hw] at hs
        obtain ⟨pre', hrest⟩ := exists_of_append hmark (List.cons.inj hs).2
        exact ih hrest
    · have hmark : mark ∉ wordOf table c := by
        rw [hword]
        exact fun hmem => hc (List.mem_singleton.mp hmem).symm
      obtain ⟨pre', hrest⟩ := exists_of_append hmark hs
      exact ih hrest

end Escaping

end CloudScale.Lib
