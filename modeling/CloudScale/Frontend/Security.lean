/-
  Escaping of HTML in the browser (`lib/security.ts`).

  Six replacements run over the whole text one after another, that of `&` first: the entities that
  the later ones put in are not replaced again, so that they come to one pass over the characters,
  which the entities tell (`sanitizeHTML_lossless`).
-/
import CloudScale.Frontend.JsString
import CloudScale.Lib.Substitution

namespace CloudScale.Frontend

open CloudScale.Lib

def sanitizeHTML (str : JsString) : JsString :=
  if str.isEmpty then []
  else
    let str := replaceAll (unit '&') (units "&amp;") str
    let str := replaceAll (unit '<') (units "&lt;") str
    let str := replaceAll (unit '>') (units "&gt;") str
    let str := replaceAll (unit '"') (units "&quot;") str
    let str := replaceAll (unit '\x27') (units "&#x27;") str
    replaceAll (unit '/') (units "&#x2F;") str

/-- The characters with their entities, in the order of the replacements. -/
def entities : List (UInt16 × JsString) :=
  [(unit '&', units "&amp;"), (unit '<', units "&lt;"), (unit '>', units "&gt;"),
    (unit '"', units "&quot;"), (unit '\x27', units "&#x27;"), (unit '/', units "&#x2F;")]

theorem sanitizeHTML_eq (str : JsString) : sanitizeHTML str = replaceEach entities str := by
  cases str with
  | nil => rfl
  | cons c str =>
    have hempty : (c :: str).isEmpty = false := rfl
    unfold sanitizeHTML
    rw [hempty, if_neg Bool.false_ne_true]
    simp only [replaceEach, entities, List.foldl_cons, List.foldl_nil]

theorem ordered_entities : Ordered entities := by decide +kernel

theorem escaping_entities : Escaping (unit '&') entities where
  marked := ⟨_, List.mem_cons_self, rfl⟩
  heads := by decide +kernel
  prefixFree := by decide +kernel

theorem special_entities : entities.map Prod.fst = unit '&' :: units "<>\"'/" := by decide +kernel

theorem special_not_mem :
    ∀ e ∈ entities, e.1 ∈ units "<>\"'/" → ∀ e' ∈ entities, e.1 ∉ e'.2 := by decide +kernel

/-- The other characters occur in no entity. -/
theorem special_replaced {c : UInt16} (hc : c ∈ units "<>\"'/") :
    ∃ e ∈ entities, e.1 = c ∧ ∀ e' ∈ entities, e.1 ∉ e'.2 := by
  have hmem : c ∈ entities.map Prod.fst := special_entities ▸ List.mem_cons_of_mem _ hc
  obtain ⟨e, he, rfl⟩ := List.mem_map.mp hmem
  exact ⟨e, he, rfl, special_not_mem e he hc⟩

/-- The result has none of the characters `<`, `>`, `"`, `'` and `/`, and `&` only where an entity
    begins. Each entity replaced by its character, it is the text again. The six replacements come
    to one pass over the characters. -/
theorem sanitizeHTML_lossless (str : JsString) :
    (∀ c ∈ units "<>\"'/", c ∉ sanitizeHTML str) ∧
      (∀ pre rest, sanitizeHTML str = pre ++ unit '&' :: rest →
        ∃ e ∈ entities, e.2 <+: unit '&' :: rest) ∧
      unescape entities (sanitizeHTML str) = str ∧
      sanitizeHTML str = substitute entities str := by
  have hpass : sanitizeHTML str = substitute entities str :=
    (sanitizeHTML_eq str).trans (replaceEach_eq ordered_entities str)
  rw [hpass]
  refine ⟨fun c hc => ?_, fun pre rest hs => ?_, ?_, rfl⟩
  · obtain ⟨e, he, rfl, hwords⟩ := special_replaced hc
    exact not_mem_substitute escaping_entities he hwords str
  · exact word_of_mark escaping_entities hs
  · exact unescape_substitute escaping_entities str

end CloudScale.Frontend
