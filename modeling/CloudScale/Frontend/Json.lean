/-
  `JSON.stringify` and `JSON.parse` of the browser, on the values that JSON has.

  A value is a tree whose objects list their properties in the order of their enumeration; of two
  properties with one key the later counts (`JsonValue.field`). The text of a number and the number
  of a text are parameters, `Numerals`, with the little that the round trip needs of them.

  `parse_stringify`: the text of a value is read back as the value. `wellFormed_stringify`: no
  surrogate stands alone in that text, since strings escape theirs.
-/
import Mathlib.Data.Nat.Digits.Defs
import CloudScale.Shared.Json
import CloudScale.Frontend.Uri

namespace CloudScale.Frontend

open CloudScale.Lib.Unicode
open CloudScale.Shared (JsonTree)

abbrev JsonValue (N : Type) := JsonTree N JsString

/-- The property of an object. -/
def JsonValue.field {N : Type} (v : JsonValue N) (key : JsString) : Option (JsonValue N) :=
  match v with
  | .obj fields => fields.reverse.lookup key
  | _ => none

def isNumberUnit (u : UInt16) : Bool := (48 ≤ u && u ≤ 57) || (units "+-.eE").contains u

/-- `String(n)` of a finite number, and the number of a text of these units (`none`: it is none). -/
structure Numerals (N : Type) where
  print : N → JsString
  read : JsString → Option N
  read_print : ∀ n, read (print n) = some n
  print_ne : ∀ n, print n ≠ []
  print_units : ∀ n, ∀ u ∈ print n, isNumberUnit u = true

/-! ## Strings -/

def lowerHex (n : ℕ) : UInt16 := UInt16.ofNat (if n < 10 then 48 + n else 87 + n)

/-- `n.toString(base)`. -/
def radixText (base n : ℕ) : JsString :=
  if n = 0 then [unit '0'] else ((Nat.digits base n).map lowerHex).reverse

/-- `\u` and four digits. -/
def unicodeEscape (u : UInt16) : JsString :=
  [unit '\\', unit 'u', lowerHex (u.toNat / 4096), lowerHex (u.toNat / 256 % 16),
    lowerHex (u.toNat / 16 % 16), lowerHex (u.toNat % 16)]

/-- The units with an escape of one letter, and the letter. -/
def shortEscapes : List (UInt16 × UInt16) :=
  [(8, unit 'b'), (9, unit 't'), (10, unit 'n'), (12, unit 'f'), (13, unit 'r'),
    (unit '"', unit '"'), (unit '\\', unit '\\')]

/-- What a letter behind a backslash stands for. -/
def escapedLetter (e : UInt16) : Option UInt16 :=
  if e = unit '/' then some (unit '/') else (shortEscapes.find? fun p => p.2 = e).map (·.1)

def quoteUnit (u : UInt16) : JsString :=
  match shortEscapes.lookup u with
  | some e => [unit '\\', e]
  | none => if u < 32 then unicodeEscape u else [u]

/-- A surrogate that stands alone is escaped. -/
def quoteLone (u : UInt16) : JsString :=
  if isLead u || isTrail u then unicodeEscape u else quoteUnit u

/-- What stands between the quotes. -/
def quoteBody : JsString → JsString
  | [] => []
  | [u] => quoteLone u
  | u :: v :: s =>
    if isLead u && isTrail v then u :: v :: quoteBody s else quoteLone u ++ quoteBody (v :: s)

/-- The escape behind a backslash, and how many units it has there. -/
def escapeAt : JsString → Option (UInt16 × ℕ)
  | e :: s =>
    if e = unit 'u' then (hexQuad s).map fun v => (v, 5)
    else (escapedLetter e).map fun v => (v, 1)
  | [] => none

/-- `skip` units of an escape are still to be passed over. -/
def parseBodyFrom : ℕ → JsString → Option (JsString × JsString)
  | _, [] => none
  | skip + 1, _ :: s => parseBodyFrom skip s
  | 0, u :: s =>
    if u = unit '"' then some ([], s)
    else if u = unit '\\' then do
      let (v, skip) ← escapeAt s
      let (body, rest) ← parseBodyFrom skip s
      return (v :: body, rest)
    else if u < 32 then none
    else do
      let (body, rest) ← parseBodyFrom 0 s
      return (u :: body, rest)

/-- A string behind its opening quote, and what comes after the closing one. -/
def parseBody (s : JsString) : Option (JsString × JsString) := parseBodyFrom 0 s

/-! ## Values -/

def isBlank (u : UInt16) : Bool := u == 9 || u == 10 || u == 13 || u == 32

def skipBlanks (s : JsString) : JsString := s.dropWhile isBlank

section Values

variable {N : Type} (nums : Numerals N)

def quote (s : JsString) : JsString := unit '"' :: (quoteBody s ++ [unit '"'])

mutual

def stringify : JsonValue N → JsString
  | .null => units "null"
  | .bool true => units "true"
  | .bool false => units "false"
  | .num n => nums.print n
  | .str s => quote s
  | .arr [] => units "[]"
  | .arr (x :: xs) => unit '[' :: (stringify x ++ stringifyElements xs)
  | .obj [] => units "\x7b\x7d"
  | .obj ((key, x) :: fields) =>
    unit '\x7b' :: (quote key ++ unit ':' :: (stringify x ++ stringifyFields fields))

/-- The elements after the first, and the closing bracket. -/
def stringifyElements : List (JsonValue N) → JsString
  | [] => [unit ']']
  | x :: xs => unit ',' :: (stringify x ++ stringifyElements xs)

def stringifyFields : List (JsString × JsonValue N) → JsString
  | [] => [unit '\x7d']
  | (key, x) :: fields =>
    unit ',' :: (quote key ++ unit ':' :: (stringify x ++ stringifyFields fields))

end

/-- One of the three words. -/
def parseWord (s : JsString) : Option (JsonValue N × JsString) :=
  if (units "null").isPrefixOf s then some (.null, s.drop 4)
  else if (units "true").isPrefixOf s then some (.bool true, s.drop 4)
  else if (units "false").isPrefixOf s then some (.bool false, s.drop 5)
  else none

def parseNumber (s : JsString) : Option (JsonValue N × JsString) :=
  (nums.read (s.takeWhile isNumberUnit)).map fun n => (.num n, s.dropWhile isNumberUnit)

/-- A key and its colon. -/
def parseKey (s : JsString) : Option (JsString × JsString) := do
  match skipBlanks s with
  | u :: s =>
    if u = unit '"' then
      let (key, s) ← parseBody s
      match skipBlanks s with
      | c :: s => if c = unit ':' then some (key, s) else none
      | [] => none
    else none
  | [] => none

mutual

/-- A value at the start of the text; no text needs more rounds than it has units. -/
def parseValue : ℕ → JsString → Option (JsonValue N × JsString)
  | 0, _ => none
  | n + 1, s =>
    match skipBlanks s with
    | [] => none
    | u :: s =>
      if u = unit '"' then (parseBody s).map fun p => (.str p.1, p.2)
      else if u = unit '[' then
        match skipBlanks s with
        | [] => none
        | v :: t =>
          if v = unit ']' then some (.arr [], t)
          else do
            let (x, s) ← parseValue n s
            let (xs, s) ← parseElements n s
            return (.arr (x :: xs), s)
      else if u = unit '\x7b' then
        match skipBlanks s with
        | [] => none
        | v :: t =>
          if v = unit '\x7d' then some (.obj [], t)
          else do
            let (key, s) ← parseKey s
            let (x, s) ← parseValue n s
            let (fields, s) ← parseFields n s
            return (.obj ((key, x) :: fields), s)
      else if isNumberUnit u then parseNumber nums (u :: s)
      else parseWord (u :: s)

def parseElements : ℕ → JsString → Option (List (JsonValue N) × JsString)
  | 0, _ => none
  | n + 1, s =>
    match skipBlanks s with
    | [] => none
    | u :: s =>
      if u = unit ']' then some ([], s)
      else if u = unit ',' then do
        let (x, s) ← parseValue n s
        let (xs, s) ← parseElements n s
        return (x :: xs, s)
      else none

def parseFields : ℕ → JsString → Option (List (JsString × JsonValue N) × JsString)
  | 0, _ => none
  | n + 1, s =>
    match skipBlanks s with
    | [] => none
    | u :: s =>
      if u = unit '\x7d' then some ([], s)
      else if u = unit ',' then do
        let (key, s) ← parseKey s
        let (x, s) ← parseValue n s
        let (fields, s) ← parseFields n s
        return ((key, x) :: fields, s)
      else none

end

/-- `JSON.parse`; `none` is a `SyntaxError`. -/
def parse (s : JsString) : Option (JsonValue N) :=
  match parseValue nums s.length s with
  | some (v, rest) => if (skipBlanks rest).isEmpty then some v else none
  | none => none

end Values

/-! ## Strings are read back -/

theorem lowerHex_spec : ∀ n < 16, hexValue (lowerHex n) = some n := by decide

/-- The number that the digits stand for. -/
def radixValue (base : ℕ) (s : JsString) : ℕ :=
  Nat.ofDigits base (s.reverse.map fun u => (hexValue u).getD 0)

theorem radixValue_text {base : ℕ} (hone : 1 < base) (hsixteen : base ≤ 16) (n : ℕ) :
    radixValue base (radixText base n) = n := by
  unfold radixValue radixText
  split
  · next hn =>
    subst hn
    exact Nat.ofDigits_singleton (b := base) (n := 0)
  · have hdigits : ((Nat.digits base n).map fun d => (hexValue (lowerHex d)).getD 0) =
        Nat.digits base n := by
      refine (List.map_congr_left fun d hd => ?_).trans (List.map_id _)
      rw [lowerHex_spec d (by have := Nat.digits_lt_base hone hd; omega)]
      rfl
    rw [List.reverse_reverse, List.map_map]
    exact (congrArg (Nat.ofDigits base) hdigits).trans (Nat.ofDigits_digits base n)

theorem radixText_injective {base : ℕ} (hone : 1 < base) (hsixteen : base ≤ 16) :
    Function.Injective (radixText base) := by
  intro m n h
  rw [← radixValue_text hone hsixteen m, h, radixValue_text hone hsixteen n]

theorem hexPair_lowerHex {m n : ℕ} (hm : m < 16) (hn : n < 16) :
    hexPair [lowerHex m, lowerHex n] = some (m * 16 + n) := by
  simp only [hexPair, lowerHex_spec m hm, lowerHex_spec n hn, Option.bind_eq_bind,
    Option.bind_some, Option.pure_def]

theorem hexQuad_lowerHex (u : UInt16) (s : JsString) :
    hexQuad (lowerHex (u.toNat / 4096) :: lowerHex (u.toNat / 256 % 16) ::
      lowerHex (u.toNat / 16 % 16) :: lowerHex (u.toNat % 16) :: s) = some u := by
  have hlt := u.toNat_lt
  have hhi := hexPair_lowerHex (m := u.toNat / 4096) (n := u.toNat / 256 % 16) (by omega) (by omega)
  have hlo := hexPair_lowerHex (m := u.toNat / 16 % 16) (n := u.toNat % 16) (by omega) (by omega)
  simp only [hexQuad, hhi, hlo, Option.bind_eq_bind, Option.bind_some, Option.pure_def,
    Option.some.injEq]
  exact unit_eq (by omega)

theorem parseBodyFrom_skip (w s : JsString) :
    parseBodyFrom w.length (w ++ s) = parseBodyFrom 0 s := by
  induction w with
  | nil => rfl
  | cons u w ih => exact ih

/-- An escape of the units `w`. -/
theorem parseBody_escape {v : UInt16} {w s : JsString}
    (h : escapeAt (w ++ s) = some (v, w.length)) :
    parseBody (unit '\\' :: (w ++ s)) = (parseBody s).map fun p => (v :: p.1, p.2) := by
  unfold parseBody
  rw [parseBodyFrom, if_neg (by decide), if_pos rfl, h]
  show (parseBodyFrom w.length (w ++ s)).bind _ = _
  rw [parseBodyFrom_skip, Option.map_eq_bind]
  rfl

theorem parseBody_unicodeEscape (u : UInt16) (s : JsString) :
    parseBody (unicodeEscape u ++ s) = (parseBody s).map fun p => (u :: p.1, p.2) := by
  have hquad := hexQuad_lowerHex u s
  have hescape : escapeAt (unit 'u' :: lowerHex (u.toNat / 4096) ::
      lowerHex (u.toNat / 256 % 16) :: lowerHex (u.toNat / 16 % 16) :: lowerHex (u.toNat % 16) ::
      s) = some (u, 5) := by
    rw [escapeAt, if_pos rfl, hquad]
    rfl
  exact parseBody_escape (w := [unit 'u', lowerHex (u.toNat / 4096),
    lowerHex (u.toNat / 256 % 16), lowerHex (u.toNat / 16 % 16), lowerHex (u.toNat % 16)]) hescape

theorem parseBody_raw {u : UInt16} (hquote : u ≠ unit '"') (hback : u ≠ unit '\\')
    (hlow : ¬u < 32) (s : JsString) :
    parseBody (u :: s) = (parseBody s).map fun p => (u :: p.1, p.2) := by
  unfold parseBody
  rw [parseBodyFrom, if_neg hquote, if_neg hback, if_neg hlow, Option.map_eq_bind]
  rfl

theorem shortEscapes_spec : ∀ p ∈ shortEscapes, p.2 ≠ unit 'u' ∧ escapedLetter p.2 = some p.1 :=
  List.all_iff_forall_prop.mp (by decide)

theorem parseBody_quoteUnit (u : UInt16) (s : JsString) :
    parseBody (quoteUnit u ++ s) = (parseBody s).map fun p => (u :: p.1, p.2) := by
  unfold quoteUnit
  cases hshort : shortEscapes.lookup u with
  | some e =>
    obtain ⟨l₁, l₂, heq, -⟩ := List.lookup_eq_some_iff.mp hshort
    obtain ⟨he, hv⟩ := shortEscapes_spec (u, e) (heq ▸ by simp)
    have hescape : escapeAt (e :: s) = some (u, 1) := by
      rw [escapeAt, if_neg he, hv]
      rfl
    exact parseBody_escape (w := [e]) hescape
  | none =>
    have hne := List.lookup_eq_none_iff.mp hshort
    simp only
    split
    · exact parseBody_unicodeEscape u s
    · next hlow =>
      refine parseBody_raw ?_ ?_ hlow s
      · rintro rfl
        exact absurd (hne (unit '"', unit '"') (by decide)) (by decide)
      · rintro rfl
        exact absurd (hne (unit '\\', unit '\\') (by decide)) (by decide)

theorem parseBody_quoteLone (u : UInt16) (s : JsString) :
    parseBody (quoteLone u ++ s) = (parseBody s).map fun p => (u :: p.1, p.2) := by
  unfold quoteLone
  split
  · exact parseBody_unicodeEscape u s
  · exact parseBody_quoteUnit u s

/-- A surrogate is none of the units that are special in a string. -/
theorem parseBody_surrogate {u : UInt16} (hu : 0xd800 ≤ u.toNat) (s : JsString) :
    parseBody (u :: s) = (parseBody s).map fun p => (u :: p.1, p.2) := by
  refine parseBody_raw ?_ ?_ ?_ s
  · rintro rfl
    revert hu
    decide
  · rintro rfl
    revert hu
    decide
  · rw [UInt16.lt_iff_toNat_lt]
    simp
    omega

theorem parseBody_quote (rest : JsString) : parseBody (unit '"' :: rest) = some ([], rest) := by
  unfold parseBody
  rw [parseBodyFrom, if_pos rfl]

theorem parseBody_quoteBody : ∀ (s rest : JsString),
    parseBody (quoteBody s ++ unit '"' :: rest) = some (s, rest)
  | [], rest => parseBody_quote rest
  | [u], rest => by
    rw [quoteBody, parseBody_quoteLone, parseBody_quote]
    rfl
  | u :: v :: s, rest => by
    rw [quoteBody]
    split
    · next hpair =>
      obtain ⟨hlead, htrail⟩ := Bool.and_eq_true_iff.mp hpair
      simp only [isLead, isTrail, Bool.and_eq_true, decide_eq_true_eq] at hlead htrail
      rw [List.cons_append, List.cons_append, parseBody_surrogate hlead.1,
        parseBody_surrogate (by omega), parseBody_quoteBody s rest]
      rfl
    · rw [List.append_assoc, parseBody_quoteLone, parseBody_quoteBody (v :: s) rest]
      rfl

/-! ## Values are read back -/

section RoundTrip

variable {N : Type} (nums : Numerals N)

/-- What comes next does not go on with a number. -/
def EndsNumber (rest : JsString) : Prop := ∀ u ∈ rest.head?, isNumberUnit u = false

theorem skipBlanks_cons {u : UInt16} (h : isBlank u = false) (s : JsString) :
    skipBlanks (u :: s) = u :: s := by
  rw [skipBlanks, List.dropWhile_cons_of_neg (by simp [h])]

theorem numberUnit_spec {u : UInt16} (h : isNumberUnit u = true) :
    isBlank u = false ∧ u ≠ unit '"' ∧ u ≠ unit '[' ∧ u ≠ unit ']' ∧ u ≠ unit '\x7b' ∧
      u ≠ unit '\x7d' := by
  have hnot : ∀ w : UInt16, isNumberUnit w = false → u ≠ w := by
    rintro w hw rfl
    rw [h] at hw
    cases hw
  refine ⟨?_, hnot _ (by decide), hnot _ (by decide), hnot _ (by decide), hnot _ (by decide),
    hnot _ (by decide)⟩
  simp only [isBlank, Bool.or_eq_false_iff, beq_eq_false_iff_ne]
  exact ⟨⟨⟨hnot _ (by decide), hnot _ (by decide)⟩, hnot _ (by decide)⟩, hnot _ (by decide)⟩

/-- No text of a value is empty or starts like what follows one. -/
theorem stringify_head (v : JsonValue N) :
    ∃ u s, stringify nums v = u :: s ∧ isBlank u = false ∧ u ≠ unit ']' ∧ u ≠ unit '\x7d' := by
  cases v with
  | null => exact ⟨_, _, by rw [stringify]; rfl, by decide, by decide, by decide⟩
  | bool b =>
    cases b <;> exact ⟨_, _, by rw [stringify]; rfl, by decide, by decide, by decide⟩
  | num n =>
    obtain ⟨u, s, hus⟩ := List.exists_cons_of_ne_nil (nums.print_ne n)
    obtain ⟨hblank, -, -, hclose, -, hbrace⟩ :=
      numberUnit_spec (nums.print_units n u (hus ▸ List.mem_cons_self))
    exact ⟨u, s, by rw [stringify, hus], hblank, hclose, hbrace⟩
  | str s => exact ⟨_, _, by rw [stringify, quote], by decide, by decide, by decide⟩
  | arr xs =>
    cases xs with
    | nil => exact ⟨_, _, by rw [stringify]; rfl, by decide, by decide, by decide⟩
    | cons x xs => exact ⟨_, _, by rw [stringify], by decide, by decide, by decide⟩
  | obj fields =>
    cases fields with
    | nil => exact ⟨_, _, by rw [stringify]; rfl, by decide, by decide, by decide⟩
    | cons f fields => exact ⟨_, _, by rw [stringify], by decide, by decide, by decide⟩

theorem parseKey_quote (key rest : JsString) :
    parseKey (quote key ++ unit ':' :: rest) = some (key, rest) := by
  rw [quote, List.cons_append, List.append_assoc, parseKey,
    skipBlanks_cons (by decide : isBlank (unit '"') = false)]
  simp only [if_pos, List.singleton_append, parseBody_quoteBody, Option.bind_eq_bind,
    Option.bind_some, skipBlanks_cons (by decide : isBlank (unit ':') = false)]

theorem parseValue_quote (n : ℕ) (s rest : JsString) :
    parseValue nums (n + 1) (quote s ++ rest) = some (.str s, rest) := by
  rw [quote, List.cons_append, List.append_assoc, parseValue,
    skipBlanks_cons (by decide : isBlank (unit '"') = false)]
  simp only [if_pos, List.singleton_append, parseBody_quoteBody, Option.map_some]

theorem takeWhile_number {w rest : JsString} (hw : ∀ u ∈ w, isNumberUnit u = true)
    (hrest : EndsNumber rest) : (w ++ rest).takeWhile isNumberUnit = w ∧
      (w ++ rest).dropWhile isNumberUnit = rest := by
  rw [List.takeWhile_append_of_pos hw, List.dropWhile_append_of_pos hw]
  cases rest with
  | nil => simp
  | cons u rest =>
    have hu := hrest u rfl
    simp [hu]

theorem parseValue_number (n : ℕ) (x : N) {rest : JsString} (hrest : EndsNumber rest) :
    parseValue nums (n + 1) (nums.print x ++ rest) = some (.num x, rest) := by
  obtain ⟨u, s, hus⟩ := List.exists_cons_of_ne_nil (nums.print_ne x)
  have hu := nums.print_units x u (hus ▸ List.mem_cons_self)
  obtain ⟨hblank, hquote, hopen, -, hbrace, -⟩ := numberUnit_spec hu
  obtain ⟨htake, hdrop⟩ := takeWhile_number (nums.print_units x) hrest
  rw [hus] at htake hdrop ⊢
  rw [List.cons_append] at htake hdrop ⊢
  rw [parseValue, skipBlanks_cons hblank]
  simp only [if_neg hquote, if_neg hopen, if_neg hbrace, hu, if_true, parseNumber, htake, hdrop]
  rw [← hus, nums.read_print]
  rfl

/-- A word is read by what it starts with. -/
theorem parseValue_word {u : UInt16} (hu : isNumberUnit u = false) (hblank : isBlank u = false)
    (hquote : u ≠ unit '"') (hopen : u ≠ unit '[') (hbrace : u ≠ unit '\x7b') (n : ℕ)
    (s : JsString) : parseValue nums (n + 1) (u :: s) = parseWord (u :: s) := by
  rw [parseValue, skipBlanks_cons hblank]
  simp only [if_neg hquote, if_neg hopen, if_neg hbrace, hu, Bool.false_eq_true, if_false]

theorem parseWord_null (rest : JsString) :
    parseWord (N := N) (units "null" ++ rest) = some (.null, rest) := by
  have hunits : units "null" = [unit 'n', unit 'u', unit 'l', unit 'l'] := by decide
  simp [parseWord, hunits]

theorem parseWord_true (rest : JsString) :
    parseWord (N := N) (units "true" ++ rest) = some (.bool true, rest) := by
  have hunits : units "true" = [unit 't', unit 'r', unit 'u', unit 'e'] := by decide
  have hnull : units "null" = [unit 'n', unit 'u', unit 'l', unit 'l'] := by decide
  have hne : unit 'n' ≠ unit 't' := by decide
  simp [parseWord, hunits, hnull, hne]

theorem parseWord_false (rest : JsString) :
    parseWord (N := N) (units "false" ++ rest) = some (.bool false, rest) := by
  have hunits : units "false" = [unit 'f', unit 'a', unit 'l', unit 's', unit 'e'] := by decide
  have hnull : units "null" = [unit 'n', unit 'u', unit 'l', unit 'l'] := by decide
  have htrue : units "true" = [unit 't', unit 'r', unit 'u', unit 'e'] := by decide
  have hne : unit 'n' ≠ unit 'f' := by decide
  have hne' : unit 't' ≠ unit 'f' := by decide
  simp [parseWord, hunits, hnull, htrue, hne, hne']

theorem stringifyElements_ends (xs : List (JsonValue N)) (rest : JsString) :
    EndsNumber (stringifyElements nums xs ++ rest) := by
  intro u hu
  cases xs with
  | nil =>
    rw [stringifyElements] at hu
    cases hu
    decide
  | cons x xs =>
    rw [stringifyElements] at hu
    cases hu
    decide

theorem stringifyFields_ends (fields : List (JsString × JsonValue N)) (rest : JsString) :
    EndsNumber (stringifyFields nums fields ++ rest) := by
  intro u hu
  cases fields with
  | nil =>
    rw [stringifyFields] at hu
    cases hu
    decide
  | cons f fields =>
    rw [stringifyFields] at hu
    cases hu
    decide

mutual

theorem parseValue_stringify : ∀ (v : JsonValue N) (n : ℕ) (rest : JsString),
    (stringify nums v).length ≤ n → EndsNumber rest →
      parseValue nums n (stringify nums v ++ rest) = some (v, rest)
  | v, 0, rest, hlen, _ => by
    obtain ⟨u, s, hus, -⟩ := stringify_head nums v
    simp [hus] at hlen
  | .null, n + 1, rest, _, _ => by
    rw [stringify]
    exact (parseValue_word nums (by decide) (by decide) (by decide) (by decide) (by decide) n
      _).trans (parseWord_null rest)
  | .bool true, n + 1, rest, _, _ => by
    rw [stringify]
    exact (parseValue_word nums (by decide) (by decide) (by decide) (by decide) (by decide) n
      _).trans (parseWord_true rest)
  | .bool false, n + 1, rest, _, _ => by
    rw [stringify]
    exact (parseValue_word nums (by decide) (by decide) (by decide) (by decide) (by decide) n
      _).trans (parseWord_false rest)
  | .num x, n + 1, rest, _, hrest => by
    rw [stringify]
    exact parseValue_number nums n x hrest
  | .str s, n + 1, rest, _, _ => by
    rw [stringify]
    exact parseValue_quote nums n s rest
  | .arr [], n + 1, rest, _, _ => by
    have hunits : units "[]" = [unit '[', unit ']'] := by decide
    rw [stringify, hunits, List.cons_append, List.singleton_append, parseValue,
      skipBlanks_cons (by decide : isBlank (unit '[') = false)]
    simp only [if_neg (by decide : unit '[' ≠ unit '"'), if_pos,
      skipBlanks_cons (by decide : isBlank (unit ']') = false)]
  | .arr (x :: xs), n + 1, rest, hlen, _ => by
    obtain ⟨u, s, hus, hblank, hclose, -⟩ := stringify_head nums x
    rw [stringify, List.length_cons, List.length_append] at hlen
    have hx := parseValue_stringify x n (stringifyElements nums xs ++ rest) (by omega)
      (stringifyElements_ends nums xs rest)
    have hxs := parseElements_stringify xs n rest (by omega)
    rw [hus, List.cons_append] at hx
    rw [stringify, List.cons_append, List.append_assoc, hus, List.cons_append, parseValue,
      skipBlanks_cons (by decide : isBlank (unit '[') = false)]
    simp only [if_neg (by decide : unit '[' ≠ unit '"'), if_pos, skipBlanks_cons hblank,
      if_neg hclose, hx, hxs, Option.bind_eq_bind, Option.bind_some, Option.pure_def]
  | .obj [], n + 1, rest, _, _ => by
    have hunits : units "\x7b\x7d" = [unit '\x7b', unit '\x7d'] := by decide
    rw [stringify, hunits, List.cons_append, List.singleton_append, parseValue,
      skipBlanks_cons (by decide : isBlank (unit '\x7b') = false)]
    simp only [if_neg (by decide : unit '\x7b' ≠ unit '"'),
      if_neg (by decide : unit '\x7b' ≠ unit '['), if_pos,
      skipBlanks_cons (by decide : isBlank (unit '\x7d') = false)]
  | .obj ((key, x) :: fields), n + 1, rest, hlen, _ => by
    rw [stringify, List.length_cons, List.length_append, List.length_cons,
      List.length_append] at hlen
    have hx := parseValue_stringify x n (stringifyFields nums fields ++ rest) (by omega)
      (stringifyFields_ends nums fields rest)
    have hfields := parseFields_stringify fields n rest (by omega)
    have hkey := parseKey_quote key (stringify nums x ++ (stringifyFields nums fields ++ rest))
    rw [stringify, List.cons_append, List.append_assoc, List.cons_append, List.append_assoc,
      parseValue, skipBlanks_cons (by decide : isBlank (unit '\x7b') = false)]
    rw [quote, List.cons_append] at hkey ⊢
    simp only [if_neg (by decide : unit '\x7b' ≠ unit '"'),
      if_neg (by decide : unit '\x7b' ≠ unit '['), if_pos,
      skipBlanks_cons (by decide : isBlank (unit '"') = false),
      if_neg (by decide : unit '"' ≠ unit '\x7d'), hkey, hx, hfields, Option.bind_eq_bind,
      Option.bind_some, Option.pure_def]

theorem parseElements_stringify : ∀ (xs : List (JsonValue N)) (n : ℕ) (rest : JsString),
    (stringifyElements nums xs).length ≤ n →
      parseElements nums n (stringifyElements nums xs ++ rest) = some (xs, rest)
  | [], 0, rest, hlen => by simp [stringifyElements] at hlen
  | _ :: _, 0, rest, hlen => by simp [stringifyElements] at hlen
  | [], n + 1, rest, _ => by
    rw [stringifyElements, List.singleton_append, parseElements,
      skipBlanks_cons (by decide : isBlank (unit ']') = false)]
    simp only [if_pos]
  | x :: xs, n + 1, rest, hlen => by
    rw [stringifyElements, List.length_cons, List.length_append] at hlen
    have hx := parseValue_stringify x n (stringifyElements nums xs ++ rest) (by omega)
      (stringifyElements_ends nums xs rest)
    have hxs := parseElements_stringify xs n rest (by omega)
    rw [stringifyElements, List.cons_append, List.append_assoc, parseElements,
      skipBlanks_cons (by decide : isBlank (unit ',') = false)]
    simp only [if_neg (by decide : unit ',' ≠ unit ']'), if_pos, hx, hxs, Option.bind_eq_bind,
      Option.bind_some, Option.pure_def]

theorem parseFields_stringify : ∀ (fields : List (JsString × JsonValue N)) (n : ℕ)
    (rest : JsString), (stringifyFields nums fields).length ≤ n →
      parseFields nums n (stringifyFields nums fields ++ rest) = some (fields, rest)
  | [], 0, rest, hlen => by simp [stringifyFields] at hlen
  | _ :: _, 0, rest, hlen => by simp [stringifyFields] at hlen
  | [], n + 1, rest, _ => by
    rw [stringifyFields, List.singleton_append, parseFields,
      skipBlanks_cons (by decide : isBlank (unit '\x7d') = false)]
    simp only [if_pos]
  | (key, x) :: fields, n + 1, rest, hlen => by
    rw [stringifyFields, List.length_cons, List.length_append, List.length_cons,
      List.length_append] at hlen
    have hx := parseValue_stringify x n (stringifyFields nums fields ++ rest) (by omega)
      (stringifyFields_ends nums fields rest)
    have hfields := parseFields_stringify fields n rest (by omega)
    have hkey := parseKey_quote key (stringify nums x ++ (stringifyFields nums fields ++ rest))
    rw [stringifyFields, List.cons_append, List.append_assoc, List.cons_append,
      List.append_assoc, parseFields, skipBlanks_cons (by decide : isBlank (unit ',') = false)]
    simp only [if_neg (by decide : unit ',' ≠ unit '\x7d'), if_pos, hkey, hx, hfields,
      Option.bind_eq_bind, Option.bind_some, Option.pure_def]

end

theorem parse_stringify (v : JsonValue N) : parse nums (stringify nums v) = some v := by
  have h := parseValue_stringify nums v (stringify nums v).length [] le_rfl
      (fun _ hu => by cases hu)
  rw [List.append_nil] at h
  simp only [parse, h]
  rfl

end RoundTrip

/-! ## No surrogate stands alone -/

/-- A text of characters. -/
def WellFormed (s : JsString) : Prop := ∃ cs, codePoints s = some cs

theorem WellFormed.append {s t : JsString} (hs : WellFormed s) (ht : WellFormed t) :
    WellFormed (s ++ t) := by
  obtain ⟨cs, hcs⟩ := hs
  obtain ⟨ds, hds⟩ := ht
  exact ⟨cs ++ ds, codePoints_append hcs hds⟩

theorem wellFormed_unit {u : UInt16} (hlead : isLead u = false) (htrail : isTrail u = false) :
    WellFormed [u] :=
  ⟨[Char.ofNat u.toNat], by rw [codePoints, if_neg (by simp [hlead, htrail])]⟩

theorem WellFormed.cons {u : UInt16} {s : JsString} (hlead : isLead u = false)
    (htrail : isTrail u = false) (hs : WellFormed s) : WellFormed (u :: s) :=
  (wellFormed_unit hlead htrail).append hs

theorem wellFormed_of_low : ∀ {s : JsString}, (∀ u ∈ s, u.toNat < 0xd800) → WellFormed s
  | [], _ => ⟨[], rfl⟩
  | u :: s, h => by
    have hu := h u List.mem_cons_self
    refine WellFormed.cons ?_ ?_ (wellFormed_of_low fun v hv => h v (List.mem_cons_of_mem _ hv))
    · simp [isLead, Nat.not_le.mpr hu]
    · simp only [isTrail, Bool.and_eq_false_iff, decide_eq_false_iff_not]
      omega

theorem lowerHex_low : ∀ n < 16, (lowerHex n).toNat < 0xd800 := by decide

theorem wellFormed_unicodeEscape (u : UInt16) : WellFormed (unicodeEscape u) := by
  have hlt := u.toNat_lt
  refine wellFormed_of_low ?_
  simp only [unicodeEscape, List.forall_mem_cons, List.not_mem_nil, false_implies, implies_true,
    and_true]
  exact ⟨by decide, by decide, lowerHex_low _ (by omega), lowerHex_low _ (by omega),
    lowerHex_low _ (by omega), lowerHex_low _ (by omega)⟩

theorem wellFormed_quoteLone (u : UInt16) : WellFormed (quoteLone u) := by
  unfold quoteLone
  split
  · exact wellFormed_unicodeEscape u
  · next hlone =>
    obtain ⟨hlead, htrail⟩ := Bool.or_eq_false_iff.mp (Bool.eq_false_iff.mpr hlone)
    unfold quoteUnit
    cases hshort : shortEscapes.lookup u with
    | some e =>
      obtain ⟨l₁, l₂, heq, -⟩ := List.lookup_eq_some_iff.mp hshort
      have hlow : ∀ p ∈ shortEscapes, isLead p.2 = false ∧ isTrail p.2 = false :=
        List.all_iff_forall_prop.mp (by decide)
      obtain ⟨helead, hetrail⟩ := hlow (u, e) (heq ▸ by simp)
      exact WellFormed.cons (by decide) (by decide) (wellFormed_unit helead hetrail)
    | none =>
      simp only
      split
      · exact wellFormed_unicodeEscape u
      · exact wellFormed_unit hlead htrail

theorem wellFormed_quoteBody : ∀ s : JsString, WellFormed (quoteBody s)
  | [] => ⟨[], rfl⟩
  | [u] => wellFormed_quoteLone u
  | u :: v :: s => by
    rw [quoteBody]
    split
    · next hpair =>
      obtain ⟨cs, hcs⟩ := wellFormed_quoteBody s
      exact ⟨surrogates u v :: cs, by rw [codePoints, if_pos hpair, hcs, Option.map_some]⟩
    · exact (wellFormed_quoteLone u).append (wellFormed_quoteBody (v :: s))

theorem wellFormed_quote (s : JsString) : WellFormed (quote s) :=
  WellFormed.cons (by decide) (by decide)
    ((wellFormed_quoteBody s).append (wellFormed_unit (by decide) (by decide)))

section Characters

variable {N : Type} (nums : Numerals N)

theorem isNumberUnit_low {u : UInt16} (h : isNumberUnit u = true) : u.toNat < 0xd800 := by
  simp only [isNumberUnit, Bool.or_eq_true, Bool.and_eq_true, decide_eq_true_eq,
    List.contains_iff_mem] at h
  rcases h with ⟨-, h⟩ | h
  · exact lt_of_le_of_lt (UInt16.le_iff_toNat_le.mp h) (by decide)
  · have hlow : ∀ u ∈ units "+-.eE", u.toNat < 0xd800 :=
      List.all_iff_forall_prop.mp (by decide)
    exact hlow u h

mutual

theorem wellFormed_stringify : ∀ v : JsonValue N, WellFormed (stringify nums v)
  | .null => by
    rw [stringify]
    exact wellFormed_of_low (List.all_iff_forall_prop.mp (by decide))
  | .bool true => by
    rw [stringify]
    exact wellFormed_of_low (List.all_iff_forall_prop.mp (by decide))
  | .bool false => by
    rw [stringify]
    exact wellFormed_of_low (List.all_iff_forall_prop.mp (by decide))
  | .num n => by
    rw [stringify]
    exact wellFormed_of_low fun u hu => isNumberUnit_low (nums.print_units n u hu)
  | .str s => by
    rw [stringify]
    exact wellFormed_quote s
  | .arr [] => by
    rw [stringify]
    exact wellFormed_of_low (List.all_iff_forall_prop.mp (by decide))
  | .arr (x :: xs) => by
    rw [stringify]
    exact WellFormed.cons (by decide) (by decide)
      ((wellFormed_stringify x).append (wellFormed_stringifyElements xs))
  | .obj [] => by
    rw [stringify]
    exact wellFormed_of_low (List.all_iff_forall_prop.mp (by decide))
  | .obj ((key, x) :: fields) => by
    rw [stringify]
    exact WellFormed.cons (by decide) (by decide) ((wellFormed_quote key).append
      (WellFormed.cons (by decide) (by decide)
        ((wellFormed_stringify x).append (wellFormed_stringifyFields fields))))

theorem wellFormed_stringifyElements :
    ∀ xs : List (JsonValue N), WellFormed (stringifyElements nums xs)
  | [] => by
    rw [stringifyElements]
    exact wellFormed_of_low (List.all_iff_forall_prop.mp (by decide))
  | x :: xs => by
    rw [stringifyElements]
    exact WellFormed.cons (by decide) (by decide)
      ((wellFormed_stringify x).append (wellFormed_stringifyElements xs))

theorem wellFormed_stringifyFields :
    ∀ fields : List (JsString × JsonValue N), WellFormed (stringifyFields nums fields)
  | [] => by
    rw [stringifyFields]
    exact wellFormed_of_low (List.all_iff_forall_prop.mp (by decide))
  | (key, x) :: fields => by
    rw [stringifyFields]
    exact WellFormed.cons (by decide) (by decide) ((wellFormed_quote key).append
      (WellFormed.cons (by decide) (by decide)
        ((wellFormed_stringify x).append (wellFormed_stringifyFields fields))))

end

end Characters

theorem radixText_units (n : ℕ) : ∀ u ∈ radixText 10 n, isNumberUnit u = true := by
  have hdigit : ∀ d < 10, isNumberUnit (lowerHex d) = true := by decide
  intro u hu
  unfold radixText at hu
  split at hu
  · obtain rfl := List.mem_singleton.mp hu
    decide
  · obtain ⟨d, hd, rfl⟩ := List.mem_map.mp (List.mem_reverse.mp hu)
    exact hdigit d (Nat.digits_lt_base (by decide) hd)

/-- The natural numbers, in decimal. -/
def decimals : Numerals ℕ where
  print := radixText 10
  read s := if s.all isNumberUnit then some (radixValue 10 s) else none
  read_print n := by
    rw [if_pos, radixValue_text (by decide) (by decide)]
    exact List.all_eq_true.mpr (radixText_units n)
  print_ne n := by
    unfold radixText
    split
    · exact List.cons_ne_nil _ _
    · next hn => simpa [Nat.digits_ne_nil_iff_ne_zero] using hn
  print_units := radixText_units

end CloudScale.Frontend
