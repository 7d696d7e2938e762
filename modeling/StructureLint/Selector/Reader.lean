import StructureLint.Selector.Basic
import StructureLint.Selector.Error
import StructureLint.Text.Alphanumeric
/-!
# Reading selectors

A selector is read from the front of its text: alternatives between commas, each a name or `*`
followed by conditions (`compound`), a condition being `#id`, `.class` or an attribute in square
brackets (`bracket`). Blanks may stand around an alternative and inside the brackets.

Every reading function returns what is left of the text, and never more than it was given
(`condition_length`, `compound_length`). A fault keeps what was left where it was noticed, from
which `Fault.locate` finds its position.
-/

namespace StructureLint.Selector

/-- Why reading stops. -/
inductive Fault where
  /-- No alternative begins here. -/
  | empty
  /-- What is left begins with a combinator, or with a compound that blanks separate from the one
  before it. -/
  | combinator (rest : List Char)
  /-- What is left begins with a character that may not stand there. -/
  | unexpected (found : Char) (rest : List Char)
  /-- The text ends inside square brackets. -/
  | unterminated
deriving DecidableEq, Repr

/-- The number of bytes of a text in UTF-8. -/
def byteLength (cs : List Char) : Nat :=
  cs.foldr (·.utf8Size + ·) 0

/-- The fault as an error in the given text, at the place where `rest` is what is left of it. -/
def Fault.locate (source : String) (fault : Fault) : SelectorError :=
  let position (rest : List Char) := byteLength source.toList - byteLength rest
  match fault with
  | .empty => .empty source
  | .combinator rest => .unsupportedCombinator source (position rest)
  | .unexpected found rest => .unexpected source found (position rest)
  | .unterminated => .unterminated source

/-- The characters of names: letters and numbers of any script, `-` and `_`. -/
def isNameChar (c : Char) : Bool :=
  Text.isAlphanumeric c || c == '-' || c == '_'

/-- The longest name at the front of a text; it may be empty. -/
def nameAt (cs : List Char) : List Char :=
  cs.takeWhile isNameChar

/-- What is left after the longest name at the front. -/
def afterName (cs : List Char) : List Char :=
  cs.dropWhile isNameChar

/-- The fault of a character inside brackets that may not stand there, or of their missing end. -/
def stray : List Char → Fault
  | [] => .unterminated
  | c :: cs => .unexpected c (c :: cs)

/-- Reads up to the closing quotation mark. -/
def quoted (mark : Char) (cs : List Char) : Except Fault (String × List Char) :=
  match cs.dropWhile (· != mark) with
  | [] => .error .unterminated
  | _ :: rest => .ok (String.ofList (cs.takeWhile (· != mark)), rest)

/-- Reads the value that an attribute must have: quoted, or a name, which may be empty. -/
def value : List Char → Except Fault (String × List Char)
  | [] => .error .unterminated
  | '"' :: cs => quoted '"' cs
  | '\'' :: cs => quoted '\'' cs
  | cs => .ok (String.ofList (nameAt cs), afterName cs)

/-- Reads a condition in square brackets after the opening one. -/
def bracket (cs : List Char) : Except Fault (Condition × List Char) :=
  let cs := Text.skipBlanks cs
  match nameAt cs with
  | [] => .error (stray cs)
  | name =>
    match Text.skipBlanks (afterName cs) with
    | ']' :: rest => .ok (.hasAttribute (String.ofList name), rest)
    | '=' :: rest =>
      match value (Text.skipBlanks rest) with
      | .error fault => .error fault
      | .ok (v, rest) =>
        match Text.skipBlanks rest with
        | ']' :: rest => .ok (.attributeEquals (String.ofList name) v, rest)
        | rest => .error (stray rest)
    | rest => .error (stray rest)

/-- Reads the name that must follow `#` or `.`; without one, that mark itself is the fault. -/
def marked (mark : Char) (make : String → Condition) (cs : List Char) :
    Except Fault (Condition × List Char) :=
  match nameAt cs with
  | [] => .error (.unexpected mark (mark :: cs))
  | name => .ok (make (String.ofList name), afterName cs)

/-- Reads one condition, if one begins here. -/
def condition : List Char → Except Fault (Option (Condition × List Char))
  | '#' :: cs => (marked '#' .id cs).map some
  | '.' :: cs => (marked '.' .className cs).map some
  | '[' :: cs => (bracket cs).map some
  | _ => .ok none

theorem length_afterName_le (cs : List Char) : (afterName cs).length ≤ cs.length :=
  (List.dropWhile_sublist _).length_le

theorem quoted_length {mark : Char} {cs rest : List Char} {v : String}
    (h : quoted mark cs = .ok (v, rest)) : rest.length ≤ cs.length := by
  have hl : (cs.dropWhile (· != mark)).length ≤ cs.length := (List.dropWhile_sublist _).length_le
  simp only [quoted] at h
  split at h
  · simp at h
  · rename_i heq
    simp only [Except.ok.injEq, Prod.mk.injEq] at h
    rw [heq, List.length_cons] at hl
    rw [← h.2]
    omega

theorem value_length {cs rest : List Char} {v : String} (h : value cs = .ok (v, rest)) :
    rest.length ≤ cs.length := by
  simp only [value] at h
  split at h
  · simp at h
  · have := quoted_length h
    simp only [List.length_cons]
    omega
  · have := quoted_length h
    simp only [List.length_cons]
    omega
  · simp only [Except.ok.injEq, Prod.mk.injEq] at h
    rw [← h.2]
    exact length_afterName_le _

theorem bracket_length {cs rest : List Char} {c : Condition} (h : bracket cs = .ok (c, rest)) :
    rest.length ≤ cs.length := by
  have h₁ := Text.length_skipBlanks_le cs
  have h₂ := length_afterName_le (Text.skipBlanks cs)
  have h₃ := Text.length_skipBlanks_le (afterName (Text.skipBlanks cs))
  simp only [bracket] at h
  split at h
  · simp at h
  · split at h
    · rename_i heq
      simp only [Except.ok.injEq, Prod.mk.injEq] at h
      rw [heq, List.length_cons] at h₃
      rw [← h.2]
      omega
    · rename_i after heq
      rw [heq, List.length_cons] at h₃
      have h₄ := Text.length_skipBlanks_le after
      split at h
      · simp at h
      · rename_i v rest' hv
        have h₅ := value_length hv
        have h₆ := Text.length_skipBlanks_le rest'
        split at h
        · rename_i heq'
          simp only [Except.ok.injEq, Prod.mk.injEq] at h
          rw [heq', List.length_cons] at h₆
          rw [← h.2]
          omega
        · simp at h
    · simp at h

theorem marked_length {mark : Char} {make : String → Condition} {cs rest : List Char}
    {c : Condition} (h : marked mark make cs = .ok (c, rest)) : rest.length ≤ cs.length := by
  simp only [marked] at h
  split at h
  · simp at h
  · simp only [Except.ok.injEq, Prod.mk.injEq] at h
    rw [← h.2]
    exact length_afterName_le _

theorem ok_of_map_some {α : Type} {x : Except Fault α} {a : α}
    (h : x.map some = .ok (some a)) : x = .ok a := by
  cases x <;> simp_all [Except.map]

theorem condition_length {cs rest : List Char} {c : Condition}
    (h : condition cs = .ok (some (c, rest))) : rest.length < cs.length := by
  simp only [condition] at h
  split at h
  · have := marked_length (ok_of_map_some h)
    simp only [List.length_cons]
    omega
  · have := marked_length (ok_of_map_some h)
    simp only [List.length_cons]
    omega
  · have := bracket_length (ok_of_map_some h)
    simp only [List.length_cons]
    omega
  · simp at h

/-- Reads conditions as long as one begins. -/
def conditions (cs : List Char) : Except Fault (List Condition × List Char) :=
  match h : condition cs with
  | .error fault => .error fault
  | .ok none => .ok ([], cs)
  | .ok (some (c, rest)) =>
    have := condition_length h
    match conditions rest with
    | .error fault => .error fault
    | .ok (more, rest) => .ok (c :: more, rest)
termination_by cs.length

/-- Reads `*` or a name, if there is one, as the name that a compound asks for. The flag tells
whether there was one. -/
def subject : List Char → Bool × Option String × List Char
  | '*' :: cs => (true, none, cs)
  | cs =>
    match nameAt cs with
    | [] => (false, none, cs)
    | name => (true, some (String.ofList name), afterName cs)

/-- Reads one alternative, which must not be empty. -/
def compound (cs : List Char) : Except Fault (Compound × List Char) :=
  let (named, localName, rest) := subject cs
  match conditions rest with
  | .error fault => .error fault
  | .ok (found, rest) =>
    if named || !found.isEmpty then .ok (⟨localName, found⟩, rest) else .error .empty

theorem conditions_length {cs rest : List Char} {found : List Condition}
    (h : conditions cs = .ok (found, rest)) : rest.length ≤ cs.length := by
  fun_induction conditions cs generalizing found rest with
  | case1 => simp at h
  | case2 => simp_all
  | case3 => simp at h
  | case4 cs c rest' hc hlt more rest'' hmore ih =>
    have := condition_length hc
    have := ih hmore
    simp only [Except.ok.injEq, Prod.mk.injEq] at h
    rw [← h.2]
    omega

theorem subject_length (cs : List Char) : (subject cs).2.2.length ≤ cs.length := by
  simp only [subject]
  split
  · simp
  · split
    · simp
    · exact length_afterName_le _

theorem compound_length {cs rest : List Char} {c : Compound} (h : compound cs = .ok (c, rest)) :
    rest.length ≤ cs.length := by
  have hs := subject_length cs
  rcases hsub : subject cs with ⟨named, localName, rest₀⟩
  simp only [compound, hsub] at h hs
  split at h
  · simp at h
  · rename_i found rest' hc
    have := conditions_length hc
    split at h
    · simp only [Except.ok.injEq, Prod.mk.injEq] at h
      rw [← h.2]
      omega
    · simp at h

/-- The marks that combine compounds in larger selector languages. -/
def isCombinator (c : Char) : Bool :=
  c == '>' || c == '+' || c == '~'

/-- The characters with which a compound begins. -/
def startsCompound (c : Char) : Bool :=
  isNameChar c || c == '*' || c == '#' || c == '.' || c == '['

/-- The fault of a character that follows an alternative and is no comma. A compound there stands
after blanks, which combine it with the one before it. -/
def misplaced (c : Char) (cs : List Char) : Fault :=
  if isCombinator c || startsCompound c then .combinator (c :: cs) else .unexpected c (c :: cs)

/-- Reads alternatives between commas to the end of the text. -/
def list (cs : List Char) : Except Fault (List Compound) :=
  match h : compound (Text.skipBlanks cs) with
  | .error fault => .error fault
  | .ok (c, rest) =>
    match h' : Text.skipBlanks rest with
    | [] => .ok [c]
    | ',' :: rest' =>
      have : rest'.length < cs.length := by
        have h₁ := compound_length h
        have h₂ := Text.length_skipBlanks_le cs
        have h₃ := Text.length_skipBlanks_le rest
        rw [h', List.length_cons] at h₃
        omega
      match list rest' with
      | .error fault => .error fault
      | .ok cs => .ok (c :: cs)
    | d :: rest' => .error (misplaced d rest')
termination_by cs.length

/-- Reads a selector. -/
def parse (source : String) : Except SelectorError Selector :=
  match list source.toList with
  | .error fault => .error (fault.locate source)
  | .ok alternatives => .ok ⟨Text.trim source, alternatives⟩

end StructureLint.Selector

namespace StructureLint

/-- The elements that match the selector of the given text, in document order. -/
def Document.query (doc : Document) (source : String) : Except SelectorError (List NodeId) :=
  (Selector.parse source).map doc.select

end StructureLint
