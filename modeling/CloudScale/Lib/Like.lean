/-
  SQL's `LIKE`: patterns in which `%` stands for any text, `_` for any character and a backslash
  takes the next character literally.

  `tokens` reads a pattern, `matchesTokens` decides its language, and `ilike` does so for the lower
  case of both sides. Without one of the three characters `p%` matches what starts with `p`
  (`ilike_percent_iff`); with one of them there is a text on which the two differ
  (`exists_ilike_ne`).
-/
import Mathlib.Data.List.Infix
import Mathlib.Data.Set.List

namespace CloudScale.Lib.Like

inductive Token (α : Type) where
  | any
  | one
  | lit (a : α)

def isMeta (c : Char) : Bool := c == '%' || c == '_' || c == '\\'

/-- What a pattern means; a backslash at its end stands for itself. -/
def tokens : List Char → List (Token Char)
  | [] => []
  | ['\\'] => [.lit '\\']
  | '\\' :: c :: p => .lit c :: tokens p
  | '%' :: p => .any :: tokens p
  | '_' :: p => .one :: tokens p
  | c :: p => .lit c :: tokens p

attribute [local simp] tokens

section Language

variable {α : Type} [DecidableEq α]

def matchesTokens : List (Token α) → List α → Bool
  | [], s => s.isEmpty
  | .any :: ts, s => s.tails.any (matchesTokens ts)
  | .one :: ts, _ :: s => matchesTokens ts s
  | .lit a :: ts, b :: s => decide (a = b) && matchesTokens ts s
  | _, [] => false

/-- The shortest text of a pattern, with `a` for every `_`. -/
def shortest (a : α) : List (Token α) → List α
  | [] => []
  | .any :: ts => shortest a ts
  | .one :: ts => a :: shortest a ts
  | .lit b :: ts => b :: shortest a ts

@[simp] theorem matchesTokens_any (ts : List (Token α)) (s : List α) :
    matchesTokens (.any :: ts) s = s.tails.any (matchesTokens ts) := by
  cases s <;> rfl

@[simp] theorem matchesTokens_one_cons (ts : List (Token α)) (b : α) (s : List α) :
    matchesTokens (.one :: ts) (b :: s) = matchesTokens ts s := rfl

@[simp] theorem matchesTokens_lit_cons (a : α) (ts : List (Token α)) (b : α) (s : List α) :
    matchesTokens (.lit a :: ts) (b :: s) = (decide (a = b) && matchesTokens ts s) := rfl

@[simp] theorem matchesTokens_lit_nil (a : α) (ts : List (Token α)) :
    matchesTokens (.lit a :: ts) [] = false := rfl

theorem matches_shortest (a : α) (ts : List (Token α)) :
    matchesTokens ts (shortest a ts) = true := by
  induction ts with
  | nil => rfl
  | cons t ts ih =>
    cases t with
    | any =>
      rw [matchesTokens_any, List.any_eq_true]
      exact ⟨shortest a ts, (List.mem_tails _ _).mpr List.suffix_rfl, ih⟩
    | one => exact ih
    | lit b => simpa [shortest] using ih

/-- `%` alone matches every text. -/
theorem matches_any (s : List α) : matchesTokens [.any] s = true := by
  rw [matchesTokens_any, List.any_eq_true]
  exact ⟨[], (List.mem_tails _ _).mpr (List.nil_suffix), rfl⟩

end Language

section Tokens

variable {c : Char} {p : List Char}

theorem tokens_percent (p : List Char) : tokens ('%' :: p) = .any :: tokens p := by
  rw [tokens]

theorem tokens_underscore (p : List Char) : tokens ('_' :: p) = .one :: tokens p := by
  rw [tokens]

theorem tokens_escape (c : Char) (p : List Char) :
    tokens ('\\' :: c :: p) = .lit c :: tokens p := by
  rw [tokens]

theorem tokens_literal (h : isMeta c = false) (p : List Char) :
    tokens (c :: p) = .lit c :: tokens p := by
  have hmeta : c ≠ '%' ∧ c ≠ '_' ∧ c ≠ '\\' := by
    simpa [isMeta, and_assoc] using h
  rw [tokens]
  · rintro rfl
    exact absurd rfl hmeta.2.2
  · intro _ _ heq
    exact absurd heq hmeta.2.2
  · exact hmeta.1
  · exact hmeta.2.1

/-- Without metacharacters `p%` matches what starts with `p`. -/
theorem matches_percent_iff (h : ∀ c ∈ p, isMeta c = false) (s : List Char) :
    matchesTokens (tokens (p ++ ['%'])) s = true ↔ p <+: s := by
  induction p generalizing s with
  | nil => exact iff_of_true (matches_any s) List.nil_prefix
  | cons c p ih =>
    obtain ⟨hc, hp⟩ := List.forall_mem_cons.mp h
    rw [List.cons_append, tokens_literal hc]
    cases s with
    | nil => simp
    | cons b s =>
      rw [matchesTokens_lit_cons, Bool.and_eq_true, decide_eq_true_iff, ih hp,
        List.cons_prefix_cons]

/-- The first character of a pattern that none of the other cases of `tokens` is about. -/
theorem isMeta_eq_false (hlast : c = '\\' → p = [] → False)
    (hescape : ∀ d q, c = '\\' → p = d :: q → False) (hpercent : c = '%' → False)
    (hunderscore : c = '_' → False) : isMeta c = false := by
  have hbackslash : c ≠ '\\' := fun heq => by
    cases p with
    | nil => exact hlast heq rfl
    | cons d q => exact hescape d q heq rfl
  simp only [isMeta, Bool.or_eq_false_iff, beq_eq_false_iff_ne]
  exact ⟨⟨hpercent, hunderscore⟩, hbackslash⟩

/-- The shortest text of `p%` is not longer than `p`, and made of its characters and `%`. -/
theorem shortest_spec (p : List Char) :
    (shortest '%' (tokens (p ++ ['%']))).length ≤ p.length ∧
      ∀ c ∈ shortest '%' (tokens (p ++ ['%'])), c ∈ p ∨ c = '%' := by
  induction p using tokens.induct with
  | case1 => exact ⟨Nat.le_refl 0, fun c hc => absurd hc List.not_mem_nil⟩
  | case2 => exact ⟨Nat.le_refl 1, fun c hc => .inr (List.mem_singleton.mp hc)⟩
  | case3 c p ih =>
    rw [List.cons_append, List.cons_append, tokens_escape]
    simp only [shortest, List.length_cons, List.forall_mem_cons]
    refine ⟨by omega, by simp, fun d hd => (ih.2 d hd).imp_left fun hd => by simp [hd]⟩
  | case4 p ih =>
    rw [List.cons_append, tokens_percent]
    simp only [shortest, List.length_cons]
    exact ⟨by omega, fun d hd => (ih.2 d hd).imp_left (List.mem_cons_of_mem _)⟩
  | case5 p ih =>
    rw [List.cons_append, tokens_underscore]
    simp only [shortest, List.length_cons, List.forall_mem_cons]
    exact ⟨by omega, .inr trivial, fun d hd => (ih.2 d hd).imp_left (List.mem_cons_of_mem _)⟩
  | case6 c p hlast hescape hpercent hunderscore ih =>
    rw [List.cons_append, tokens_literal (isMeta_eq_false hlast hescape hpercent hunderscore)]
    simp only [shortest, List.length_cons, List.forall_mem_cons]
    exact ⟨by omega, .inl List.mem_cons_self,
      fun d hd => (ih.2 d hd).imp_left (List.mem_cons_of_mem _)⟩

/-- A text of `p%` that is shorter than `p` does not start with `p`. -/
theorem ne_of_shorter (h : (shortest '%' (tokens (p ++ ['%']))).length < p.length) :
    ¬ (matchesTokens (tokens (p ++ ['%'])) (shortest '%' (tokens (p ++ ['%']))) = true ↔
      p <+: shortest '%' (tokens (p ++ ['%']))) := by
  rw [matches_shortest]
  intro hiff
  have := (hiff.mp rfl).length_le
  omega

/-- With one of the metacharacters there is a text on which `p%` and the prefix `p` differ. -/
theorem exists_ne_of_meta (h : ∃ c ∈ p, isMeta c = true) :
    ∃ s, (∀ c ∈ s, c ∈ p ∨ c = '%') ∧
      ¬ (matchesTokens (tokens (p ++ ['%'])) s = true ↔ p <+: s) := by
  induction p using tokens.induct with
  | case1 => exact absurd h (by simp)
  | case2 =>
    -- the backslash takes the final `%` literally
    refine ⟨['\\'], by simp, ?_⟩
    decide
  | case3 c p ih =>
    refine ⟨_, (shortest_spec _).2, ne_of_shorter ?_⟩
    have := (shortest_spec p).1
    rw [List.cons_append, List.cons_append, tokens_escape]
    simp only [shortest, List.length_cons]
    omega
  | case4 p ih =>
    refine ⟨_, (shortest_spec _).2, ne_of_shorter ?_⟩
    have := (shortest_spec p).1
    rw [List.cons_append, tokens_percent]
    simp only [shortest, List.length_cons]
    omega
  | case5 p ih =>
    refine ⟨_, (shortest_spec _).2, ?_⟩
    rw [matches_shortest, List.cons_append, tokens_underscore]
    simp only [shortest, true_iff, List.cons_prefix_cons]
    exact fun hprefix => absurd hprefix.1 (by decide)
  | case6 c p hlast hescape hpercent hunderscore ih =>
    have hc := isMeta_eq_false hlast hescape hpercent hunderscore
    obtain ⟨d, hd, hmeta⟩ := h
    have hp : d ∈ p := (List.mem_cons.mp hd).resolve_left fun heq => by
      rw [heq, hc] at hmeta
      exact Bool.false_ne_true hmeta
    obtain ⟨s, hs, hne⟩ := ih ⟨d, hp, hmeta⟩
    refine ⟨c :: s, ?_, ?_⟩
    · refine List.forall_mem_cons.mpr ⟨.inl List.mem_cons_self, fun e he => ?_⟩
      exact (hs e he).imp_left (List.mem_cons_of_mem _)
    · rw [List.cons_append, tokens_literal hc, matchesTokens_lit_cons, List.cons_prefix_cons]
      simpa using hne

end Tokens

/-! ## Case -/

def ilike (lower : Char → Char) (pattern text : List Char) : Bool :=
  matchesTokens (tokens (pattern.map lower)) (text.map lower)

/-- The metacharacters have no case, and are the lower case of no other character. -/
structure KeepsMeta (lower : Char → Char) : Prop where
  fixed : ∀ c, isMeta c = true → lower c = c
  reflected : ∀ c, isMeta (lower c) = isMeta c

section Case

variable {lower : Char → Char} {p : List Char}

theorem ilike_percent (hlower : KeepsMeta lower) (p s : List Char) :
    ilike lower (p ++ ['%']) s = matchesTokens (tokens (p.map lower ++ ['%'])) (s.map lower) := by
  have hpercent : lower '%' = '%' := hlower.fixed '%' (by decide)
  rw [ilike, List.map_append, List.map_singleton, hpercent]

theorem ilike_percent_iff (hlower : KeepsMeta lower) (h : ∀ c ∈ p, isMeta c = false)
    (s : List Char) : ilike lower (p ++ ['%']) s = true ↔ p.map lower <+: s.map lower := by
  rw [ilike_percent hlower]
  apply matches_percent_iff
  rw [List.forall_mem_map]
  exact fun c hc => (hlower.reflected c).trans (h c hc)

theorem exists_ilike_ne (hlower : KeepsMeta lower) (h : ∃ c ∈ p, isMeta c = true) :
    ∃ s, ¬ (ilike lower (p ++ ['%']) s = true ↔ p.map lower <+: s.map lower) := by
  obtain ⟨c, hc, hmeta⟩ := h
  obtain ⟨s, hs, hne⟩ := exists_ne_of_meta
    ⟨lower c, List.mem_map_of_mem hc, (hlower.reflected c).trans hmeta⟩
  -- every character of the text is the lower case of one
  have hrange : s ∈ Set.range (List.map lower) := by
    rw [Set.range_list_map]
    intro d hd
    rcases hs d hd with hmem | rfl
    · obtain ⟨e, -, heq⟩ := List.mem_map.mp hmem
      exact ⟨e, heq⟩
    · exact ⟨'%', hlower.fixed '%' (by decide)⟩
  obtain ⟨t, rfl⟩ := hrange
  exact ⟨t, by rwa [ilike_percent hlower]⟩

end Case

end CloudScale.Lib.Like
