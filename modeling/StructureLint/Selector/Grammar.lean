import StructureLint.Selector.Reader
/-!
# The grammar of selectors

Which texts are selectors, and what each of them says, stated without reading them from left to
right. The longest-match rules of `Selector.Reader` do not occur here: a name is any non-empty run
of name characters.
-/

namespace StructureLint.Selector.Grammar

/-- Any number of blanks. -/
def Blanks (cs : List Char) : Prop :=
  ∀ c ∈ cs, Text.isBlank c = true

/-- One or more name characters. -/
def Name (cs : List Char) : Prop :=
  cs ≠ [] ∧ ∀ c ∈ cs, isNameChar c = true

/-- The value of an attribute: in quotation marks of either kind, or plain name characters. -/
inductive Value : List Char → String → Prop
  | double {v : List Char} (h : '"' ∉ v) : Value ('"' :: (v ++ ['"'])) (String.ofList v)
  | single {v : List Char} (h : '\'' ∉ v) : Value ('\'' :: (v ++ ['\''])) (String.ofList v)
  | plain {v : List Char} (h : ∀ c ∈ v, isNameChar c = true) : Value v (String.ofList v)

/-- One condition. -/
inductive IsCondition : List Char → Condition → Prop
  | id {n : List Char} (h : Name n) : IsCondition ('#' :: n) (.id (String.ofList n))
  | className {n : List Char} (h : Name n) :
      IsCondition ('.' :: n) (.className (String.ofList n))
  | hasAttribute {a n b : List Char} (ha : Blanks a) (hn : Name n) (hb : Blanks b) :
      IsCondition ('[' :: (a ++ n ++ b ++ [']'])) (.hasAttribute (String.ofList n))
  | attributeEquals {a n b c t d : List Char} {v : String} (ha : Blanks a) (hn : Name n)
      (hb : Blanks b) (hc : Blanks c) (hv : Value t v) (hd : Blanks d) :
      IsCondition ('[' :: (a ++ n ++ b ++ '=' :: (c ++ t ++ d ++ [']'])))
        (.attributeEquals (String.ofList n) v)

/-- Conditions one after another, with nothing between them. -/
inductive IsConditions : List Char → List Condition → Prop
  | nil : IsConditions [] []
  | cons {t r : List Char} {c : Condition} {cs : List Condition} (h : IsCondition t c)
      (hr : IsConditions r cs) : IsConditions (t ++ r) (c :: cs)

/-- One alternative: `*` or a name, or neither, and conditions; at least one part in all. -/
inductive IsCompound : List Char → Compound → Prop
  | universal {t : List Char} {cs : List Condition} (h : IsConditions t cs) :
      IsCompound ('*' :: t) ⟨none, cs⟩
  | named {n t : List Char} {cs : List Condition} (hn : Name n) (h : IsConditions t cs) :
      IsCompound (n ++ t) ⟨some (String.ofList n), cs⟩
  | conditional {t : List Char} {c : Condition} {cs : List Condition}
      (h : IsConditions t (c :: cs)) : IsCompound t ⟨none, c :: cs⟩

/-- Alternatives between commas, each with blanks around it. -/
inductive IsList : List Char → List Compound → Prop
  | last {a t b : List Char} {c : Compound} (ha : Blanks a) (h : IsCompound t c) (hb : Blanks b) :
      IsList (a ++ t ++ b) [c]
  | cons {a t b r : List Char} {c : Compound} {cs : List Compound} (ha : Blanks a)
      (h : IsCompound t c) (hb : Blanks b) (hr : IsList r cs) :
      IsList (a ++ t ++ b ++ ',' :: r) (c :: cs)

end StructureLint.Selector.Grammar
