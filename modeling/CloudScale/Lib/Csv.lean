/-
  Comma-separated values: the grammar of RFC 4180, and a parser for it.

  A field is plain text, or text in double quotes in which a double quote is written twice. A
  record is fields with commas between them, and a file is records with line breaks between them,
  CRLF or LF; a line break at the end of a file may end its last record. `File` is the grammar.
  `parse_sound`: what the parser reads is what the grammar derives. `parse_complete`: from a text
  that does not end in a line break the grammar derives nothing else, so that there the two agree
  (`yields_iff`).
-/
import Mathlib.Data.List.Basic

namespace CloudScale.Lib.Csv

/-! ## Grammar -/

inductive Kind where
  | comma
  | quote
  | cr
  | lf
  | text
deriving DecidableEq

/-- What a character is to the grammar; `TEXTDATA` is any other one. -/
def kind (c : Char) : Kind :=
  if c = ',' then .comma
  else if c = '"' then .quote
  else if c = '\r' then .cr
  else if c = '\n' then .lf
  else .text

/-- The text between the quotes of a quoted field. -/
def double (v : List Char) : List Char := v.flatMap fun c => if c = '"' then ['"', '"'] else [c]

/-- A field, with its value. -/
inductive Field : List Char → List Char → Prop where
  | plain {s : List Char} : (∀ c ∈ s, kind c = .text) → Field s s
  | quoted (v : List Char) : Field ('"' :: (double v ++ ['"'])) v

inductive Record : List Char → List (List Char) → Prop where
  | one {s v : List Char} : Field s v → Record s [v]
  | cons {s t v : List Char} {vs : List (List Char)} : Field s v → Record t vs →
      Record (s ++ ',' :: t) (v :: vs)

inductive Break : List Char → Prop where
  | lf : Break ['\n']
  | crlf : Break ['\r', '\n']

inductive File : List Char → List (List (List Char)) → Prop where
  | last {s : List Char} {r : List (List Char)} : Record s r → File s [r]
  | ended {s b : List Char} {r : List (List Char)} : Record s r → Break b → File (s ++ b) [r]
  | cons {s b t : List Char} {r : List (List Char)} {rs : List (List (List Char))} :
      Record s r → Break b → File t rs → File (s ++ (b ++ t)) (r :: rs)

/-- The grammar derives these records from the text, and no others. -/
def Yields (text : List Char) (records : List (List (List Char))) : Prop :=
  ∀ rs, File text rs ↔ rs = records

theorem double_cons (c : Char) (v : List Char) :
    double (c :: v) = if c = '"' then '"' :: '"' :: double v else c :: double v := by
  unfold double
  rw [List.flatMap_cons]
  split <;> rfl

/-! ## Parser -/

/-- Where the parser stands: before a field, in a plain one, in a quoted one, behind a double quote
    in a quoted one, or behind a carriage return. -/
inductive Place where
  | field
  | plain
  | quoted
  | closing
  | cr

/-- What is read from a place on: the rest of the field, of the record and of the file. -/
structure Rest where
  field : List Char
  record : List (List Char)
  records : List (List (List Char))

def Rest.nothing : Rest := ⟨[], [], []⟩

def Rest.addText (v : List Char) (x : Rest) : Rest := { x with field := v ++ x.field }

def Rest.newField (x : Rest) : Rest := ⟨[], x.field :: x.record, x.records⟩

def Rest.all (x : Rest) : List (List (List Char)) := (x.field :: x.record) :: x.records

def Rest.newRecord (x : Rest) : Rest := ⟨[], [], x.all⟩

def scan : Place → List Char → Option Rest
  | p, [] =>
    match p with
    | .quoted | .cr => none
    | _ => some .nothing
  | p, c :: t =>
    match p, kind c with
    | .quoted, .quote => scan .closing t
    | .quoted, _ => (scan .quoted t).map (.addText [c])
    | .cr, .lf => if t.isEmpty then some .nothing else (scan .field t).map Rest.newRecord
    | .cr, _ => none
    | .field, .quote => scan .quoted t
    | .closing, .quote => (scan .quoted t).map (.addText [c])
    | .plain, .quote => none
    | .closing, .text => none
    | _, .text => (scan .plain t).map (.addText [c])
    | _, .comma => (scan .field t).map Rest.newField
    | _, .cr => scan .cr t
    | _, .lf => if t.isEmpty then some .nothing else (scan .field t).map Rest.newRecord

attribute [local simp] scan

def parse (text : List Char) : Option (List (List (List Char))) := (scan .field text).map Rest.all

/-! ## Kinds of characters -/

theorem kind_eq_quote {c : Char} (h : kind c = .quote) : c = '"' := by
  unfold kind at h
  split_ifs at h
  assumption

theorem kind_eq_text {c : Char} :
    kind c = .text ↔ c ≠ ',' ∧ c ≠ '"' ∧ c ≠ '\r' ∧ c ≠ '\n' := by
  unfold kind
  split_ifs <;> simp_all

theorem kind_eq_lf {c : Char} (h : kind c = .lf) : c = '\n' := by
  unfold kind at h
  split_ifs at h
  assumption

/-! ## What the grammar derives is read -/

/-- What may come after a field. -/
def Follow (u : List Char) : Prop := ∀ c ∈ u.head?, kind c ≠ .text ∧ kind c ≠ .quote

theorem follow_cons {c : Char} (htext : kind c ≠ .text) (hquote : kind c ≠ .quote) (t : List Char) :
    Follow (c :: t) := fun _ hd => Option.some.inj hd ▸ ⟨htext, hquote⟩

theorem follow_comma (t : List Char) : Follow (',' :: t) := follow_cons (by decide) (by decide) t

section Complete

variable {s t u v b : List Char} {r : List (List Char)} {rs : List (List (List Char))}

theorem map_addText (v w : List Char) (x : Option Rest) :
    (x.map (Rest.addText w)).map (Rest.addText v) = x.map (Rest.addText (v ++ w)) := by
  cases x with
  | none => rfl
  | some x => simp [Rest.addText]

theorem map_addText_nil (x : Option Rest) : x.map (Rest.addText []) = x := by
  cases x with
  | none => rfl
  | some x => rfl

/-- A plain field is read up to what follows it. -/
theorem scan_plain (h : ∀ c ∈ s, kind c = .text) (u : List Char) :
    scan .plain (s ++ u) = (scan .plain u).map (Rest.addText s) := by
  induction s with
  | nil => exact (map_addText_nil _).symm
  | cons c s ih =>
    obtain ⟨hc, hs⟩ := List.forall_mem_cons.mp h
    rw [List.cons_append]
    simp only [scan, hc]
    rw [ih hs, map_addText]
    rfl

theorem scan_field {c : Char} (h : kind c ≠ .quote) (t : List Char) :
    scan .field (c :: t) = scan .plain (c :: t) := by
  cases hk : kind c with
  | quote => exact absurd hk h
  | _ => simp only [scan, hk]

theorem scan_follow (h : Follow u) :
    scan .field u = scan .plain u ∧ scan .closing u = scan .plain u := by
  cases u with
  | nil => exact ⟨rfl, rfl⟩
  | cons c u =>
    obtain ⟨htext, hquote⟩ := h c rfl
    refine ⟨scan_field hquote u, ?_⟩
    cases hk : kind c with
    | text => exact absurd hk htext
    | quote => exact absurd hk hquote
    | _ => simp only [scan, hk]

theorem scan_quoted_of_ne {c : Char} (h : kind c ≠ .quote) (t : List Char) :
    scan .quoted (c :: t) = (scan .quoted t).map (Rest.addText [c]) := by
  cases hk : kind c with
  | quote => exact absurd hk h
  | _ => simp only [scan, hk]

/-- A quoted field is read up to its closing quote. -/
theorem scan_quoted (v u : List Char) :
    scan .quoted (double v ++ '"' :: u) = (scan .closing u).map (Rest.addText v) := by
  induction v with
  | nil => exact (map_addText_nil _).symm
  | cons c v ih =>
    rw [double_cons]
    by_cases hc : c = '"'
    · subst hc
      show (scan .quoted (double v ++ '"' :: u)).map (Rest.addText ['"']) = _
      rw [ih, map_addText]
      rfl
    · have hk : kind c ≠ .quote := fun h => hc (kind_eq_quote h)
      rw [if_neg hc, List.cons_append, scan_quoted_of_ne hk, ih, map_addText]
      rfl

theorem scan_of_field (h : Field s v) (hu : Follow u) :
    scan .field (s ++ u) = (scan .plain u).map (Rest.addText v) := by
  cases h with
  | plain hs =>
    cases s with
    | nil =>
      rw [map_addText_nil]
      exact (scan_follow hu).1
    | cons c s =>
      have hc : kind c ≠ .quote := by rw [hs c List.mem_cons_self]; exact nofun
      rw [List.cons_append, scan_field hc]
      exact scan_plain hs u
  | quoted =>
    show scan .quoted ((double v ++ ['"']) ++ u) = _
    rw [List.append_assoc, List.singleton_append, scan_quoted, (scan_follow hu).2]

theorem parse_eq_some {x : List (List (List Char))} (h : parse t = some x) :
    (scan .field t).map Rest.newRecord = some ⟨[], [], x⟩ := by
  obtain ⟨y, hy, rfl⟩ := Option.map_eq_some_iff.mp h
  rw [hy]
  rfl

theorem parse_of_record (h : Record s r) (hu : Follow u)
    (hrest : scan .plain u = some ⟨[], [], rs⟩) : parse (s ++ u) = some (r :: rs) := by
  induction h with
  | one h =>
    unfold parse
    rw [scan_of_field h hu, hrest]
    simp [Rest.addText, Rest.all]
  | @cons s t v vs h _ ih =>
    obtain ⟨x, hx, hall⟩ := Option.map_eq_some_iff.mp ih
    have hstep : scan .plain (',' :: (t ++ u)) = (scan .field (t ++ u)).map Rest.newField := rfl
    unfold parse
    rw [List.append_assoc, List.cons_append, scan_of_field h (follow_comma _), hstep, hx]
    obtain ⟨rfl, rfl⟩ := List.cons.inj hall
    simp [Rest.addText, Rest.all, Rest.newField]

theorem follow_break (h : Break b) (t : List Char) : Follow (b ++ t) := by
  cases h with
  | _ => exact follow_cons (by decide) (by decide) _

theorem scan_break (h : Break b) (ht : t ≠ []) :
    scan .plain (b ++ t) = (scan .field t).map Rest.newRecord := by
  have hempty : t.isEmpty = false := List.isEmpty_eq_false_iff.mpr ht
  have hlf : scan .plain ('\n' :: t) =
      if t.isEmpty then some .nothing else (scan .field t).map Rest.newRecord := rfl
  cases h with
  | lf =>
    rw [List.singleton_append, hlf, hempty]
    rfl
  | crlf =>
    show (if t.isEmpty then some .nothing else (scan .field t).map Rest.newRecord) = _
    rw [hempty]
    rfl

/-- The last character is not that of a line break. -/
def EndsInRecord (s : List Char) : Prop := s.getLast? ≠ some '\n'

theorem getLast?_break (h : Break b) (s : List Char) : (s ++ b).getLast? = some '\n' := by
  cases h with
  | _ => simp [List.getLast?_append]

theorem parse_complete (h : File s rs) (hs : EndsInRecord s) : parse s = some rs := by
  induction h with
  | @last s r h =>
    have hparse := parse_of_record h (u := []) (fun c hc => nomatch hc) rfl
    rwa [List.append_nil] at hparse
  | ended _ hb => exact absurd (getLast?_break hb _) hs
  | @cons s b t r rs h hb _ ih =>
    have ht : t ≠ [] := by
      rintro rfl
      rw [List.append_nil] at hs
      exact hs (getLast?_break hb s)
    have hlast : EndsInRecord t := by
      unfold EndsInRecord at hs ⊢
      rwa [← List.append_assoc, List.getLast?_append_of_ne_nil _ ht] at hs
    refine parse_of_record h (follow_break hb t) ?_
    rw [scan_break hb ht, parse_eq_some (ih hlast)]

end Complete

/-! ## What is read is derived -/

/-- The text goes on like this after a field. -/
def After (w : List Char) (r : List (List Char)) (rs : List (List (List Char))) : Prop :=
  ∀ s v, Field s v → File (s ++ w) ((v :: r) :: rs)

section Sound

variable {s t v w b : List Char} {r : List (List Char)} {rs : List (List (List Char))}

theorem after_nil : After [] [] [] := fun s v h => by
  rw [List.append_nil]
  exact .last (.one h)

theorem after_comma (h : File t (r :: rs)) : After (',' :: t) r rs := fun s v hs => by
  cases h with
  | last hr => exact .last (.cons hs hr)
  | ended hr hb =>
    have hfile := File.ended (Record.cons hs hr) hb
    rwa [List.append_assoc, List.cons_append] at hfile
  | cons hr hb ht =>
    have hfile := File.cons (Record.cons hs hr) hb ht
    rwa [List.append_assoc, List.cons_append] at hfile

theorem after_break (hb : Break b) (h : (t = [] ∧ rs = []) ∨ File t rs) :
    After (b ++ t) [] rs := fun s v hs => by
  rcases h with ⟨rfl, rfl⟩ | h
  · rw [List.append_nil]
    exact .ended (.one hs) hb
  · exact .cons (.one hs) hb h

/-- What each place stands for: the text from there on, and what came before it. -/
def Read : Place → List Char → Rest → Prop
  | .field, t, x => File t x.all
  | .plain, t, x => ∃ w, t = x.field ++ w ∧ (∀ c ∈ x.field, kind c = .text) ∧
      After w x.record x.records
  | .quoted, t, x => ∃ w, t = double x.field ++ '"' :: w ∧ After w x.record x.records
  | .closing, t, x => ∃ w, '"' :: t = double x.field ++ '"' :: w ∧ After w x.record x.records
  | .cr, t, x => x.field = [] ∧ After ('\r' :: t) x.record x.records

theorem of_newline {x : Rest} (hb : Break b) (ht : ∀ y, scan .field t = some y → File t y.all)
    (h : (if t.isEmpty then some Rest.nothing else (scan .field t).map Rest.newRecord) = some x) :
    x.field = [] ∧ After (b ++ t) x.record x.records := by
  split at h
  · next hempty =>
    obtain rfl := Option.some.inj h
    exact ⟨rfl, after_break hb (.inl ⟨List.isEmpty_iff.mp hempty, rfl⟩)⟩
  · obtain ⟨y, hy, rfl⟩ := Option.map_eq_some_iff.mp h
    exact ⟨rfl, after_break hb (.inr (ht y hy))⟩

section Step

variable {c : Char} {x : Rest} (ih : ∀ p y, scan p t = some y → Read p t y)
include ih

/-- After a field comes a comma or a line break. -/
theorem of_delimiter (htext : kind c ≠ .text) (hquote : kind c ≠ .quote)
    (h : scan .plain (c :: t) = some x) :
    x.field = [] ∧ After (c :: t) x.record x.records := by
  have hc : c = ',' ∨ c = '\r' ∨ c = '\n' := by
    unfold kind at htext hquote
    split_ifs at htext hquote <;> simp_all
  rcases hc with rfl | rfl | rfl
  · obtain ⟨y, hy, rfl⟩ := Option.map_eq_some_iff.mp h
    exact ⟨rfl, after_comma (ih .field y hy)⟩
  · exact ih .cr x h
  · exact of_newline .lf (ih .field) h

theorem read_plain (h : scan .plain (c :: t) = some x) : Read .plain (c :: t) x := by
  by_cases htext : kind c = .text
  · simp only [scan, htext] at h
    obtain ⟨y, hy, rfl⟩ := Option.map_eq_some_iff.mp h
    obtain ⟨w, rfl, hv, hafter⟩ := ih .plain y hy
    exact ⟨w, rfl, List.forall_mem_cons.mpr ⟨htext, hv⟩, hafter⟩
  · have hquote : kind c ≠ .quote := by
      intro hquote
      simp only [scan, hquote] at h
      cases h
    obtain ⟨field, record, records⟩ := x
    obtain ⟨rfl, hafter⟩ : field = [] ∧ _ := of_delimiter ih htext hquote h
    exact ⟨c :: t, rfl, nofun, hafter⟩

theorem read_field (h : scan .field (c :: t) = some x) : Read .field (c :: t) x := by
  by_cases hquote : kind c = .quote
  · obtain rfl := kind_eq_quote hquote
    obtain ⟨w, rfl, hafter⟩ := ih .quoted x h
    have hfile := hafter _ _ (.quoted x.field)
    rwa [List.cons_append, List.append_assoc] at hfile
  · rw [scan_field hquote] at h
    obtain ⟨w, ht, hv, hafter⟩ := read_plain ih h
    show File (c :: t) x.all
    rw [ht]
    exact hafter _ _ (.plain hv)

theorem read_quoted (h : scan .quoted (c :: t) = some x) : Read .quoted (c :: t) x := by
  by_cases hquote : kind c = .quote
  · obtain rfl := kind_eq_quote hquote
    exact ih .closing x h
  · rw [scan_quoted_of_ne hquote] at h
    obtain ⟨y, hy, rfl⟩ := Option.map_eq_some_iff.mp h
    obtain ⟨w, rfl, hafter⟩ := ih .quoted y hy
    have hc : c ≠ '"' := fun hc => hquote (hc ▸ rfl)
    refine ⟨w, ?_, hafter⟩
    show c :: _ = double (c :: y.field) ++ _
    rw [double_cons, if_neg hc]
    rfl

theorem of_closing (hquote : kind c ≠ .quote) (h : scan .closing (c :: t) = some x) :
    x.field = [] ∧ After (c :: t) x.record x.records := by
  have htext : kind c ≠ .text := by
    intro htext
    simp only [scan, htext] at h
    cases h
  rw [(scan_follow (follow_cons htext hquote t)).2] at h
  exact of_delimiter ih htext hquote h

theorem read_closing (h : scan .closing (c :: t) = some x) : Read .closing (c :: t) x := by
  by_cases hquote : kind c = .quote
  · obtain rfl := kind_eq_quote hquote
    obtain ⟨y, hy, rfl⟩ := Option.map_eq_some_iff.mp h
    obtain ⟨w, rfl, hafter⟩ := ih .quoted y hy
    exact ⟨w, rfl, hafter⟩
  · obtain ⟨field, record, records⟩ := x
    obtain ⟨rfl, hafter⟩ : field = [] ∧ _ := of_closing ih hquote h
    exact ⟨c :: t, rfl, hafter⟩

theorem read_cr (h : scan .cr (c :: t) = some x) : Read .cr (c :: t) x := by
  cases hk : kind c with
  | lf =>
    obtain rfl := kind_eq_lf hk
    exact of_newline .crlf (ih .field) h
  | _ =>
    simp only [scan, hk] at h
    cases h

end Step

theorem scan_sound (t : List Char) : ∀ p x, scan p t = some x → Read p t x := by
  induction t with
  | nil =>
    intro p x h
    cases p with
    | quoted | cr => cases h
    | field =>
      obtain rfl := Option.some.inj h
      exact .last (.one (.plain nofun))
    | plain =>
      obtain rfl := Option.some.inj h
      exact ⟨[], rfl, nofun, after_nil⟩
    | closing =>
      obtain rfl := Option.some.inj h
      exact ⟨[], rfl, after_nil⟩
  | cons c t ih =>
    intro p x h
    cases p with
    | field => exact read_field ih h
    | plain => exact read_plain ih h
    | quoted => exact read_quoted ih h
    | closing => exact read_closing ih h
    | cr => exact read_cr ih h

theorem parse_sound (h : parse s = some rs) : File s rs := by
  obtain ⟨x, hx, rfl⟩ := Option.map_eq_some_iff.mp h
  exact scan_sound s .field x hx

/-- On a text whose last line is not broken the parser tells what the grammar derives. -/
theorem yields_iff (hs : EndsInRecord s) : Yields s rs ↔ parse s = some rs := by
  constructor
  · intro h
    exact parse_complete ((h rs).mpr rfl) hs
  · intro h rs'
    constructor
    · intro h'
      exact Option.some.inj ((parse_complete h' hs).symm.trans h)
    · rintro rfl
      exact parse_sound h

end Sound

/-! ## Joined fields and records -/

theorem record_intercalate {texts values : List (List Char)} (h : List.Forall₂ Field texts values)
    (hne : texts ≠ []) : Record ([','].intercalate texts) values := by
  induction h with
  | nil => exact absurd rfl hne
  | @cons s v texts values hs hrest ih =>
    cases hrest with
    | nil =>
      rw [List.intercalate_singleton]
      exact .one hs
    | cons hs' hrest =>
      rw [List.intercalate_cons_cons, List.append_assoc]
      exact .cons hs (ih (List.cons_ne_nil _ _))

theorem file_intercalate {texts : List (List Char)} {records : List (List (List Char))}
    (h : List.Forall₂ Record texts records) (hne : texts ≠ []) :
    File (['\n'].intercalate texts) records := by
  induction h with
  | nil => exact absurd rfl hne
  | @cons s r texts records hs hrest ih =>
    cases hrest with
    | nil =>
      rw [List.intercalate_singleton]
      exact .last hs
    | cons hs' hrest =>
      rw [List.intercalate_cons_cons, List.append_assoc]
      exact .cons hs .lf (ih (List.cons_ne_nil _ _))

theorem endsInRecord_append {t : List Char} (ht : t ≠ []) (h : EndsInRecord t) (s : List Char) :
    EndsInRecord (s ++ t) := by
  unfold EndsInRecord
  rwa [List.getLast?_append_of_ne_nil _ ht]

theorem endsInRecord_of_field {s v : List Char} (h : Field s v) : EndsInRecord s := by
  cases h with
  | plain hs =>
    intro hlast
    have hlf := hs _ (List.mem_of_getLast? hlast)
    exact absurd hlf (by decide)
  | quoted =>
    rw [← List.cons_append]
    exact endsInRecord_append (List.cons_ne_nil _ _) (by simp [EndsInRecord]) _

/-- Joined texts end as the last of them does. -/
theorem endsInRecord_intercalate (sep : List Char) {texts : List (List Char)} (hne : texts ≠ [])
    (h : ∀ s ∈ texts, s ≠ [] ∧ EndsInRecord s) :
    sep.intercalate texts ≠ [] ∧ EndsInRecord (sep.intercalate texts) := by
  induction texts with
  | nil => exact absurd rfl hne
  | cons s texts ih =>
    obtain ⟨hs, hrest⟩ := List.forall_mem_cons.mp h
    cases texts with
    | nil =>
      rw [List.intercalate_singleton]
      exact hs
    | cons s' texts =>
      obtain ⟨hjoin, hends⟩ := ih (List.cons_ne_nil _ _) hrest
      rw [List.intercalate_cons_cons]
      exact ⟨List.append_ne_nil_of_right_ne_nil _ hjoin, endsInRecord_append hjoin hends _⟩

/-! ## Texts that are read as themselves -/

/-- The double quotes that a text begins with. -/
def quotes (s : List Char) : ℕ := (s.takeWhile (· == '"')).length

theorem quotes_quote (s : List Char) : quotes ('"' :: s) = quotes s + 1 := rfl

theorem quotes_of_ne {c : Char} (h : c ≠ '"') (s : List Char) : quotes (c :: s) = 0 := by
  unfold quotes
  rw [List.takeWhile_cons_of_neg (by simpa using h)]
  rfl

section Plain

variable {s t u : List Char} {c d : Char} {x : Rest}

/-- Of two double quotes in a quoted field one is read. -/
theorem quotes_le (t : List Char) :
    (∀ x, scan .quoted t = some x → 2 * quotes x.field ≤ quotes t) ∧
      ∀ x, scan .closing t = some x → 2 * quotes x.field ≤ quotes t + 1 := by
  induction t with
  | nil =>
    refine ⟨nofun, fun x h => ?_⟩
    obtain rfl := Option.some.inj h
    decide
  | cons c t ih =>
    constructor
    · intro x h
      by_cases hquote : kind c = .quote
      · obtain rfl := kind_eq_quote hquote
        exact ih.2 x h
      · rw [scan_quoted_of_ne hquote] at h
        obtain ⟨y, -, rfl⟩ := Option.map_eq_some_iff.mp h
        have hc : c ≠ '"' := fun hc => hquote (hc ▸ rfl)
        have hzero : quotes ([c] ++ y.field) = 0 := quotes_of_ne hc _
        show 2 * quotes ([c] ++ y.field) ≤ _
        omega
    · intro x h
      by_cases hquote : kind c = .quote
      · obtain rfl := kind_eq_quote hquote
        obtain ⟨y, hy, rfl⟩ := Option.map_eq_some_iff.mp h
        have hle := ih.1 y hy
        have hfield : quotes (['"'] ++ y.field) = quotes y.field + 1 := rfl
        show 2 * quotes (['"'] ++ y.field) ≤ _
        rw [quotes_quote]
        omega
      · have hfield : x.field = [] := (of_closing (scan_sound t) hquote h).1
        rw [hfield]
        exact Nat.zero_le _

theorem quotes_append (h : d ≠ '"') (s u : List Char) : quotes (s ++ d :: u) = quotes s := by
  induction s with
  | nil => exact quotes_of_ne h u
  | cons c s ih =>
    by_cases hc : c = '"'
    · subst hc
      rw [List.cons_append, quotes_quote, quotes_quote, ih]
    · rw [List.cons_append, quotes_of_ne hc, quotes_of_ne hc]

/-- A text that is read as itself is plain: what begins with a quote is not. -/
theorem plain_of_field (hd : d ≠ '"') (h : scan .field (s ++ d :: u) = some x)
    (hx : x.field = s) : ∀ c ∈ s, kind c = .text := by
  cases s with
  | nil => exact nofun
  | cons c s =>
    by_cases hquote : kind c = .quote
    · obtain rfl := kind_eq_quote hquote
      have hle := (quotes_le (s ++ d :: u)).1 x h
      rw [hx, quotes_quote, quotes_append hd] at hle
      omega
    · rw [List.cons_append, scan_field hquote] at h
      obtain ⟨w, -, hv, -⟩ := scan_sound _ .plain x h
      exact hx ▸ hv

/-- Joined texts that are read as themselves are all plain. -/
theorem plain_of_record {texts : List (List Char)}
    (h : scan .field ([','].intercalate texts ++ '\n' :: u) = some x)
    (hx : x.field :: x.record = texts) : ∀ s ∈ texts, ∀ c ∈ s, kind c = .text := by
  induction texts generalizing x with
  | nil => exact nofun
  | cons s texts ih =>
    obtain ⟨hfield, hrecord⟩ := List.cons.inj hx
    cases texts with
    | nil =>
      rw [List.intercalate_singleton] at h
      exact List.forall_mem_singleton.mpr (plain_of_field (by decide) h hfield)
    | cons s' texts =>
      rw [List.intercalate_cons_cons, List.append_assoc, List.append_assoc,
        List.singleton_append] at h
      have hplain := plain_of_field (by decide) h hfield
      rw [scan_of_field (.plain hplain) (follow_comma _)] at h
      obtain ⟨y, hy, rfl⟩ := Option.map_eq_some_iff.mp h
      obtain ⟨z, hz, rfl⟩ := Option.map_eq_some_iff.mp hy
      exact List.forall_mem_cons.mpr ⟨hplain, ih hz hrecord⟩

end Plain

end CloudScale.Lib.Csv
