/-
  `get_suggestions` (`catalog/app/ai.py`): the first five names of active products that match
  `prefix%`, in whatever order the database scans the products.

  The prefix is read as a part of the pattern. Which products it finds is what `suggestions_iff`
  compares with the products whose names start with it.
-/
import CloudScale.CatalogService.Model
import CloudScale.Lib.Like

namespace CloudScale.CatalogService

open CloudScale.Lib

section Suggestions

variable (lower : Char → Char) (typed : String)

/-- `Product.name.ilike(f"{prefix}%")`. -/
def nameMatches (p : Product) : Bool := Like.ilike lower (typed ++ "%").toList p.name.toList

/-- `get_suggestions`, where the database scans the products in the order given. -/
def getSuggestions (scan : List Product) : List String :=
  ((scan.filter fun p => nameMatches lower typed p && p.isActive).map (·.name)).take 5

/-- The name starts with what was typed, whatever the case. -/
def nameStarts (p : Product) : Bool :=
  decide (typed.toList.map lower <+: p.name.toList.map lower)

/-- The active products whose names start so. -/
def starting (products : List Product) : List Product :=
  products.filter fun p => nameStarts lower typed p && p.isActive

/-- At most five names, of active products and starting with what was typed; all of these when
    there are at most five. -/
structure Literal (products : List Product) (names : List String) : Prop where
  length_le : names.length ≤ 5
  starts : ∀ name ∈ names, name ∈ (starting lower typed products).map (·.name)
  complete : (starting lower typed products).length ≤ 5 →
    names.Perm ((starting lower typed products).map (·.name))

/-- The pattern finds only active products that start with what was typed and, where these are at
    most five, all of them. -/
def Agrees (products : List Product) : Prop :=
  (∀ p ∈ products, p.isActive = true → nameMatches lower typed p = true →
    nameStarts lower typed p = true) ∧
  ((starting lower typed products).length ≤ 5 → ∀ p ∈ products, p.isActive = true →
    nameStarts lower typed p = true → nameMatches lower typed p = true)

end Suggestions

section Results

variable {lower : Char → Char} {typed : String} {products : List Product}

theorem mem_starting {p : Product} :
    p ∈ starting lower typed products ↔
      p ∈ products ∧ nameStarts lower typed p = true ∧ p.isActive = true := by
  rw [starting, List.mem_filter, Bool.and_eq_true]

/-- A product that a scan may meet first is suggested when it matches. -/
theorem mem_getSuggestions_cons {p : Product} (scan : List Product)
    (hmatch : nameMatches lower typed p = true) (hactive : p.isActive = true) :
    p.name ∈ getSuggestions lower typed (p :: scan) := by
  unfold getSuggestions
  rw [List.filter_cons_of_pos (by simp [hmatch, hactive]), List.map_cons, List.take_succ_cons]
  exact List.mem_cons_self

theorem exists_of_mem_getSuggestions {name : String} {scan : List Product}
    (h : name ∈ getSuggestions lower typed scan) :
    ∃ p ∈ scan, p.name = name ∧ nameMatches lower typed p = true ∧ p.isActive = true := by
  obtain ⟨p, hp, rfl⟩ := List.mem_map.mp (List.mem_of_mem_take h)
  obtain ⟨hscan, hboth⟩ := List.mem_filter.mp hp
  exact ⟨p, hscan, rfl, Bool.and_eq_true_iff.mp hboth⟩

/-- Products of one name match and start alike. -/
theorem nameMatches_congr {p q : Product} (h : p.name = q.name) :
    nameMatches lower typed p = nameMatches lower typed q := by
  rw [nameMatches, nameMatches, h]

theorem nameStarts_congr {p q : Product} (h : p.name = q.name) :
    nameStarts lower typed p = nameStarts lower typed q := by
  rw [nameStarts, nameStarts, h]

/-- Whatever the order of the scan, the suggestions are literal exactly when the pattern and what
    was typed agree about the products. -/
theorem literal_iff_agrees :
    (∀ scan, scan.Perm products → Literal lower typed products (getSuggestions lower typed scan)) ↔
      Agrees lower typed products := by
  constructor
  · intro h
    constructor
    · intro p hp hactive hmatch
      obtain ⟨before, after, rfl⟩ := List.append_of_mem hp
      have hperm : (p :: (before ++ after)).Perm (before ++ p :: after) := List.perm_middle.symm
      have hstarts := (h _ hperm).starts p.name
        (mem_getSuggestions_cons (before ++ after) hmatch hactive)
      obtain ⟨q, hq, hname⟩ := List.mem_map.mp hstarts
      rw [← nameStarts_congr hname]
      exact (mem_starting.mp hq).2.1
    · intro hfew p hp hactive hstarts
      have hperm := (h products (List.Perm.refl products)).complete hfew
      have hmem : p.name ∈ getSuggestions lower typed products :=
        hperm.mem_iff.mpr (List.mem_map_of_mem (mem_starting.mpr ⟨hp, hstarts, hactive⟩))
      obtain ⟨q, -, hname, hmatch, -⟩ := exists_of_mem_getSuggestions hmem
      rw [← nameMatches_congr hname]
      exact hmatch
  · rintro ⟨hsound, hcomplete⟩ scan hscan
    refine ⟨List.length_take_le 5 _, fun name hname => ?_, fun hfew => ?_⟩
    · obtain ⟨p, hp, rfl, hmatch, hactive⟩ := exists_of_mem_getSuggestions hname
      have hmem := hscan.mem_iff.mp hp
      exact List.mem_map_of_mem (mem_starting.mpr ⟨hmem, hsound p hmem hactive hmatch, hactive⟩)
    · have hfound : (scan.filter fun p => nameMatches lower typed p && p.isActive) =
          starting lower typed scan := by
        refine List.filter_congr fun p hp => ?_
        have hmem := hscan.mem_iff.mp hp
        rw [Bool.eq_iff_iff, Bool.and_eq_true, Bool.and_eq_true]
        exact ⟨fun hp => ⟨hsound p hmem hp.2 hp.1, hp.2⟩,
          fun hp => ⟨hcomplete hfew p hmem hp.2 hp.1, hp.2⟩⟩
      have hperm : (starting lower typed scan).Perm (starting lower typed products) :=
        hscan.filter _
      unfold getSuggestions
      rw [hfound, List.take_of_length_le (by rw [List.length_map, hperm.length_eq]; exact hfew)]
      exact hperm.map _

/-- Typed without `%`, `_` and a backslash, the pattern finds what starts with it. -/
theorem nameMatches_eq (hlower : Like.KeepsMeta lower)
    (h : ∀ c ∈ typed.toList, Like.isMeta c = false) (p : Product) :
    nameMatches lower typed p = nameStarts lower typed p := by
  rw [Bool.eq_iff_iff, nameMatches, nameStarts, decide_eq_true_iff, String.toList_append]
  exact Like.ilike_percent_iff hlower h _

/-- An active product with a name. -/
def named (name : String) : Product :=
  { id := "p", sku := "sku-0", name, description := none, price := 1, tenantId := "t" }

/-- With one of them there is a product about which the pattern and the prefix differ. -/
theorem exists_nameMatches_ne (hlower : Like.KeepsMeta lower)
    (h : ∃ c ∈ typed.toList, Like.isMeta c = true) :
    ∃ name, nameMatches lower typed (named name) ≠ nameStarts lower typed (named name) := by
  obtain ⟨s, hs⟩ := Like.exists_ilike_ne hlower h
  refine ⟨String.ofList s, fun heq => hs ?_⟩
  rw [Bool.eq_iff_iff, nameMatches, nameStarts, decide_eq_true_iff, String.toList_append] at heq
  simpa [named] using heq

end Results

/-- The suggestions for a prefix are literal for a set of products, in whatever order these are
    scanned, exactly when the pattern agrees with the prefix about them; and for every set of
    products exactly when the prefix has no metacharacter. -/
theorem suggestions_iff (lower : Char → Char) (hlower : Like.KeepsMeta lower) (typed : String) :
    (∀ products, (∀ scan, scan.Perm products →
        Literal lower typed products (getSuggestions lower typed scan)) ↔
          Agrees lower typed products) ∧
      ((∀ products scan, scan.Perm products →
        Literal lower typed products (getSuggestions lower typed scan)) ↔
          ∀ c ∈ typed.toList, Like.isMeta c = false) := by
  refine ⟨fun products => literal_iff_agrees, ?_⟩
  have hall : (∀ products scan, scan.Perm products →
      Literal lower typed products (getSuggestions lower typed scan)) ↔
        ∀ products, Agrees lower typed products :=
    forall_congr' fun products => literal_iff_agrees
  rw [hall]
  constructor
  · intro hagrees
    by_contra hmeta
    push Not at hmeta
    obtain ⟨name, hne⟩ := exists_nameMatches_ne hlower (by simpa using hmeta)
    obtain ⟨hsound, hcomplete⟩ := hagrees [named name]
    have hfew : (starting lower typed [named name]).length ≤ 5 :=
      (List.length_filter_le _ _).trans (by simp)
    apply hne
    rw [Bool.eq_iff_iff]
    exact ⟨hsound _ List.mem_cons_self rfl, hcomplete hfew _ List.mem_cons_self rfl⟩
  · intro h products
    refine ⟨fun p _ _ hmatch => ?_, fun _ p _ _ hstarts => ?_⟩
    · rwa [← nameMatches_eq hlower h]
    · rwa [nameMatches_eq hlower h]

theorem isMeta_letter {c : Char}
    (h : 65 ≤ c.toNat ∧ c.toNat ≤ 90 ∨ 97 ≤ c.toNat ∧ c.toNat ≤ 122) : Like.isMeta c = false := by
  simp only [Like.isMeta, Bool.or_eq_false_iff, beq_eq_false_iff_ne]
  refine ⟨⟨?_, ?_⟩, ?_⟩
  all_goals
    rintro rfl
    revert h
    decide

theorem keepsMeta_toLower : Like.KeepsMeta Char.toLower where
  fixed c h := by
    simp only [Like.isMeta, Bool.or_eq_true, beq_iff_eq] at h
    rcases h with (rfl | rfl) | rfl <;> decide
  reflected c := by
    by_cases h : c.val ≥ 'A'.val ∧ c.val ≤ 'Z'.val
    · have hle : 65 ≤ c.toNat ∧ c.toNat ≤ 90 :=
        ⟨UInt32.le_iff_toNat_le.mp h.1, UInt32.le_iff_toNat_le.mp h.2⟩
      have hlower : c.toLower.toNat = c.toNat + 32 := by
        have hstep : c.toLower.val = c.val + ('a'.val - 'A'.val) :=
          congrArg Char.val (dif_pos h)
        have hdist : ('a'.val - 'A'.val).toNat = 32 := by decide
        change c.toLower.val.toNat = c.val.toNat + 32
        rw [hstep, UInt32.toNat_add, hdist, Nat.mod_eq_of_lt]
        have hsmall : c.val.toNat ≤ 90 := hle.2
        omega
      rw [isMeta_letter (.inl hle), isMeta_letter (.inr (by omega))]
    · have hsame : c.toLower = c := dif_neg h
      rw [hsame]

theorem suggestions_lamp :
    (∀ products, (∀ scan, scan.Perm products →
        Literal Char.toLower "La" products (getSuggestions Char.toLower "La" scan)) ↔
          Agrees Char.toLower "La" products) ∧
      ((∀ products scan, scan.Perm products →
        Literal Char.toLower "La" products (getSuggestions Char.toLower "La" scan)) ↔
          ∀ c ∈ "La".toList, Like.isMeta c = false) :=
  suggestions_iff Char.toLower keepsMeta_toLower "La"

/-- A percent sign finds the lamp, and a backslash does not find itself. -/
theorem percent_not_literal :
    ¬ Literal Char.toLower "%" [named "lamp"] (getSuggestions Char.toLower "%" [named "lamp"]) ∧
      ¬ Literal Char.toLower "\\" [named "\\"]
        (getSuggestions Char.toLower "\\" [named "\\"]) := by
  constructor
  · intro h
    exact absurd (h.starts "lamp" (by decide)) (by decide)
  · intro h
    exact absurd (h.complete (by decide)).length_eq (by decide)

end CloudScale.CatalogService
