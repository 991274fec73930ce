/-
  Python's operations on a text whose characters are Latin-1: `strip`, `int` and `encode`.

  `strip` and `int` do not agree on what a space is: `int` takes the four separators from `\x1c` to
  `\x1f` for characters that it does not know. A text that `int` accepts has no full stop
  (`not_dot_mem_of_pyInt`), and the bytes of a text have one only if the text does, so what comes
  before the first full stop of a message can be told apart (`encode_dot_inj`).
-/
import CloudScale.Lib.Joined
import Mathlib.Data.List.TakeWhile

namespace CloudScale.Shared

open CloudScale.Lib

/-! ## Spaces -/

/-- A text without the characters at both ends that satisfy `p`. -/
def trim (p : Char → Bool) (text : List Char) : List Char :=
  ((text.dropWhile p).reverse.dropWhile p).reverse

/-- `str.isspace`. -/
def isSpace (c : Char) : Bool :=
  c ∈ ['\t', '\n', '\x0b', '\x0c', '\r', '\x1c', '\x1d', '\x1e', '\x1f', ' ', '\x85', '\xa0']

/-- `str.strip`. -/
def strip (text : List Char) : List Char := trim isSpace text

theorem mem_dropWhile {p : Char → Bool} {c : Char} {text : List Char} (hp : p c = false) :
    c ∈ text.dropWhile p ↔ c ∈ text := by
  refine ⟨fun h => (List.dropWhile_sublist p).subset h, fun h => ?_⟩
  rw [← List.takeWhile_append_dropWhile (p := p) (l := text), List.mem_append] at h
  refine h.resolve_left fun htake => ?_
  have htrue := List.mem_takeWhile_imp htake
  rw [hp] at htrue
  cases htrue

/-- A character that is not trimmed. -/
theorem mem_trim {p : Char → Bool} {c : Char} {text : List Char} (hp : p c = false) :
    c ∈ trim p text ↔ c ∈ text := by
  rw [trim, List.mem_reverse, mem_dropWhile hp, List.mem_reverse, mem_dropWhile hp]

/-! ## Integers -/

/-- What `int` takes for a space. -/
def isIntSpace (c : Char) : Bool :=
  c ∈ ['\t', '\n', '\x0b', '\x0c', '\r', ' ', '\x85', '\xa0']

/-- Digits, with single underscores between them; `after` is whether a digit comes before. -/
def isDigits (after : Bool) : List Char → Bool
  | [] => after
  | c :: text =>
    if c = '_' then after && isDigits false text else c.isDigit && isDigits true text

/-- The number of digits that `int` reads at most. -/
def maxStrDigits : ℕ := 4300

/-- A number without a sign. -/
def natOfText (text : List Char) : Option ℕ :=
  let digits := text.filter (·.isDigit)
  if isDigits false text ∧ digits.length ≤ maxStrDigits then
    some (digits.foldl (fun n c => 10 * n + (c.toNat - '0'.toNat)) 0)
  else none

/-- `int`; `none` is its `ValueError`. -/
def pyInt (text : List Char) : Option Int :=
  match trim isIntSpace text with
  | '-' :: number => (natOfText number).map Int.negOfNat
  | '+' :: number => (natOfText number).map Int.ofNat
  | number => (natOfText number).map Int.ofNat

theorem mem_of_isDigits {after : Bool} {c : Char} {text : List Char}
    (h : isDigits after text = true) (hc : c ∈ text) : c = '_' ∨ c.isDigit = true := by
  induction text generalizing after with
  | nil => cases hc
  | cons d text ih =>
    rw [isDigits] at h
    split at h
    · next hd =>
      rcases List.mem_cons.mp hc with rfl | hc
      · exact Or.inl hd
      · exact ih (Bool.and_eq_true_iff.mp h).2 hc
    · obtain ⟨hdigit, hrest⟩ := Bool.and_eq_true_iff.mp h
      rcases List.mem_cons.mp hc with rfl | hc
      · exact Or.inr hdigit
      · exact ih hrest hc

theorem mem_of_natOfText {n : ℕ} {c : Char} {text : List Char} (h : natOfText text = some n)
    (hc : c ∈ text) : c = '_' ∨ c.isDigit = true := by
  obtain ⟨⟨hdigits, -⟩, -⟩ := Option.ite_none_right_eq_some.mp h
  exact mem_of_isDigits hdigits hc

/-- A number has no full stop. -/
theorem not_dot_mem_of_pyInt {n : Int} {text : List Char} (h : pyInt text = some n) :
    '.' ∉ text := by
  have hnumber : ∀ {number : List Char} {m : ℕ}, natOfText number = some m → '.' ∉ number := by
    intro number m hm hdot
    rcases mem_of_natOfText hm hdot with hdot | hdot <;> revert hdot <;> decide
  rw [← mem_trim (p := isIntSpace) (by decide)]
  unfold pyInt at h
  split at h
  · next number hsign =>
    obtain ⟨m, hm, -⟩ := Option.map_eq_some_iff.mp h
    rw [hsign]
    exact List.not_mem_cons_of_ne_of_not_mem (by decide) (hnumber hm)
  · next number hsign =>
    obtain ⟨m, hm, -⟩ := Option.map_eq_some_iff.mp h
    rw [hsign]
    exact List.not_mem_cons_of_ne_of_not_mem (by decide) (hnumber hm)
  · obtain ⟨m, hm, -⟩ := Option.map_eq_some_iff.mp h
    exact hnumber hm

/-! ## Bytes -/

/-- `str.encode`. -/
def encode (text : List Char) : List UInt8 := text.flatMap String.utf8EncodeChar

/-- Only a full stop is encoded with its byte. -/
theorem eq_dot_of_mem_utf8 {c : Char} (h : 0x2E ∈ String.utf8EncodeChar c) : c = '.' := by
  have hbyte : ∀ n, (0x2E : UInt8) = UInt8.ofNat n → n % 256 = 46 := by
    intro n hn
    simpa using (congrArg UInt8.toNat hn).symm
  unfold String.utf8EncodeChar at h
  dsimp only at h
  split at h
  · next hascii =>
    have hcode := hbyte _ (List.mem_singleton.mp h)
    have hval : c.val.toNat = 46 := by omega
    exact Char.ext (UInt32.toNat_inj.mp hval)
  -- every byte of a longer encoding is at least 128
  exfalso
  split at h
  · simp only [List.mem_cons, List.not_mem_nil, or_false] at h
    rcases h with h | h <;> have hcode := hbyte _ h <;> omega
  split at h
  · simp only [List.mem_cons, List.not_mem_nil, or_false] at h
    rcases h with h | h | h <;> have hcode := hbyte _ h <;> omega
  · simp only [List.mem_cons, List.not_mem_nil, or_false] at h
    rcases h with h | h | h | h <;> have hcode := hbyte _ h <;> omega

theorem dot_mem_encode {text : List Char} : 0x2E ∈ encode text ↔ '.' ∈ text := by
  unfold encode
  rw [List.mem_flatMap]
  refine ⟨fun ⟨c, hc, hbyte⟩ => eq_dot_of_mem_utf8 hbyte ▸ hc, fun h => ⟨'.', h, by decide⟩⟩

theorem encode_append (text text' : List Char) :
    encode (text ++ text') = encode text ++ encode text' := List.flatMap_append

theorem encode_inj {text text' : List Char} (h : encode text = encode text') : text = text' := by
  have hbytes : text.utf8Encode = text'.utf8Encode := congrArg List.toByteArray h
  rw [← String.toByteArray_ofList, ← String.toByteArray_ofList, String.toByteArray_inj] at hbytes
  simpa using congrArg String.toList hbytes

/-- A number and a message, with a full stop between them, are told apart. -/
theorem encode_dot_inj {text text' : List Char} {message message' : List UInt8}
    (hdot : '.' ∉ text) (hdot' : '.' ∉ text')
    (h : encode (text ++ ['.']) ++ message = encode (text' ++ ['.']) ++ message') :
    text = text' ∧ message = message' := by
  have hsplit : ∀ (text : List Char) (message : List UInt8),
      encode (text ++ ['.']) ++ message = encode text ++ 0x2E :: message := by
    intro text message
    rw [encode_append, List.append_assoc]
    rfl
  rw [hsplit, hsplit] at h
  obtain ⟨htext, hmessage⟩ := append_sep_inj (mt dot_mem_encode.mp hdot)
    (mt dot_mem_encode.mp hdot') h
  exact ⟨encode_inj htext, hmessage⟩

end CloudScale.Shared
