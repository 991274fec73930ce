/-
  The words, literals and symbols of a SQL text, as PostgreSQL with `standard_conforming_strings`
  tells them apart.

  A literal stands between quotes, and a quote inside it is doubled. `lex` stops at an unfinished
  literal, and at the prefixed ones (`E'..'` and the like), which have other rules. A comment goes
  to the end of its line.

  `lex_quoted`: between quotes, a text whose quotes are doubled is one literal with that text.
-/
import CloudScale.Lib.Substitution

namespace CloudScale.Lib.SqlText

inductive Token where
  | word (w : List Char)
  | literal (text : List Char)
  | symbol (c : Char)
deriving DecidableEq

/-- What the characters so far have begun. In `quote w` a quote has come that ends the literal `w`
    or is the first of two. -/
inductive Mode where
  | start
  | word (w : List Char)
  | literal (w : List Char)
  | quote (w : List Char)
  | dash
  | comment
deriving DecidableEq

def isWordChar (c : Char) : Bool := c.isAlphanum || c = '_' || c = '$' || 128 ≤ c.toNat

def isBlank (c : Char) : Bool := c = ' ' || c = '\t' || c = '\n' || c = '\r' || c.toNat = 12

/-- A character that goes on with nothing before it. -/
def fromStart (c : Char) : List Token × Mode :=
  if c = '\x27' then ([], .literal [])
  else if c = '-' then ([], .dash)
  else if isBlank c then ([], .start)
  else if isWordChar c then ([], .word [c])
  else ([.symbol c], .start)

/-- One character. -/
def advance : Mode → Char → Option (List Token × Mode)
  | .start, c => some (fromStart c)
  | .word w, c =>
    if isWordChar c then some ([], .word (c :: w))
    else if c = '\x27' then none
    else some (.word w.reverse :: (fromStart c).1, (fromStart c).2)
  | .literal w, c => some ([], if c = '\x27' then .quote w else .literal (c :: w))
  | .quote w, c =>
    if c = '\x27' then some ([], .literal (c :: w))
    else some (.literal w.reverse :: (fromStart c).1, (fromStart c).2)
  | .dash, c =>
    if c = '-' then some ([], .comment) else some (.symbol '-' :: (fromStart c).1, (fromStart c).2)
  | .comment, c => some ([], if c = '\n' then .start else .comment)

/-- What the end of the text ends. -/
def finish : Mode → Option (List Token)
  | .start => some []
  | .word w => some [.word w.reverse]
  | .literal _ => none
  | .quote w => some [.literal w.reverse]
  | .dash => some [.symbol '-']
  | .comment => some []

def lexFrom : Mode → List Char → Option (List Token)
  | m, [] => finish m
  | m, c :: s => do
    let (tokens, m) ← advance m c
    let rest ← lexFrom m s
    return tokens ++ rest

/-- The tokens of a text; `none`: it cannot be read. -/
def lex (s : List Char) : Option (List Token) := lexFrom .start s

/-- What the beginning of a text gives, and where it leaves the rest. -/
def scan : Mode → List Char → Option (List Token × Mode)
  | m, [] => some ([], m)
  | m, c :: s => do
    let (tokens, m) ← advance m c
    let (rest, m) ← scan m s
    return (tokens ++ rest, m)

theorem lexFrom_append (m : Mode) (s t : List Char) :
    lexFrom m (s ++ t) = (scan m s).bind fun p => (lexFrom p.2 t).map (p.1 ++ ·) := by
  induction s generalizing m with
  | nil => simp [scan]
  | cons c s ih =>
    simp only [List.cons_append, lexFrom, scan, Option.pure_def, Option.bind_eq_bind]
    cases advance m c with
    | none => rfl
    | some p =>
      simp only [Option.bind_some, ih]
      cases scan p.2 s with
      | none => rfl
      | some q =>
        simp only [Option.bind_some, List.append_assoc]
        cases lexFrom q.2 t <;> rfl

/-- `text.replace("'", "''")` -/
def doubleQuotes (text : List Char) : List Char := replaceAll '\x27' ['\x27', '\x27'] text

theorem lexFrom_literal_cons {w : List Char} {c : Char} (h : c ≠ '\x27') (s : List Char) :
    lexFrom (.literal w) (c :: s) = lexFrom (.literal (c :: w)) s := by
  simp [lexFrom, advance, h]

theorem lexFrom_literal_quotes (w s : List Char) :
    lexFrom (.literal w) ('\x27' :: '\x27' :: s) = lexFrom (.literal ('\x27' :: w)) s := by
  simp [lexFrom, advance]

theorem lexFrom_doubled (w text s : List Char) :
    lexFrom (.literal w) (doubleQuotes text ++ s) = lexFrom (.literal (text.reverse ++ w)) s := by
  induction text generalizing w with
  | nil => rfl
  | cons c text ih =>
    have hcons : doubleQuotes (c :: text) =
        (if c = '\x27' then ['\x27', '\x27'] else [c]) ++ doubleQuotes text := rfl
    rw [hcons, List.append_assoc, List.reverse_cons, List.append_assoc]
    by_cases hc : c = '\x27'
    · subst hc
      rw [if_pos rfl]
      exact (lexFrom_literal_quotes w _).trans (ih _)
    · rw [if_neg hc]
      exact (lexFrom_literal_cons hc _).trans (ih _)

/-- The literal ends at the quote behind it, unless another one follows. -/
theorem lex_quoted (text s : List Char) (h : s.head? ≠ some '\x27') :
    lexFrom (.literal []) (doubleQuotes text ++ '\x27' :: s) =
      (lexFrom .start s).map (.literal text :: ·) := by
  rw [lexFrom_doubled, List.append_nil]
  cases s with
  | nil => simp [lexFrom, advance, finish]
  | cons c s =>
    have hc : c ≠ '\x27' := fun he => h (by rw [he]; rfl)
    simp only [lexFrom, advance, if_neg hc, if_true, Option.pure_def, Option.bind_eq_bind,
      Option.bind_some, List.nil_append, List.reverse_reverse, List.cons_append]
    cases lexFrom (fromStart c).2 s <;> rfl

end CloudScale.Lib.SqlText
