import SourceJump.Java.Import

/-!
# Class headers

The header of a class stands at the start of a line: modifiers, the word `class`, the name,
optional type parameters, the word `extends` and the dotted name of the base class. Modifiers are
words that may hold `@`, each followed by blanks. Type parameters reach from `<` to some `>` with
no `{` between the two, the nearest `>` after which the header goes on.

Where more than one reading is possible the order is fixed: as many modifiers as possible, as many
blanks as possible before the name, type parameters rather than none.
-/

namespace SourceJump.Java

/-- The word `class`. -/
def classWord : Text := ['c', 'l', 'a', 's', 's']

/-- The word `extends`. -/
def extendsWord : Text := ['e', 'x', 't', 'e', 'n', 'd', 's']

/-- A character of a modifier or of a marker annotation. -/
def isModifierChar (c : CodePoint) : Bool :=
  isWordChar c || c == '@'

/-- The text after one modifier and the blanks that end it. -/
def afterModifier? (t : Text) : Option Text :=
  if (t.takeWhile isModifierChar).isEmpty then none
  else afterBlanks? (t.dropWhile isModifierChar)

theorem suffix_of_afterModifier? {t rest : Text} (h : afterModifier? t = some rest) :
    rest <:+ t := by
  unfold afterModifier? at h
  split at h
  · simp at h
  · exact (suffix_of_afterBlanks? h).trans (List.dropWhile_suffix _)

/-- What is left after the modifiers at the front: after as many as possible first, after none last.
Every modifier takes a character, so as many steps as there are characters suffice. -/
def afterModifiers : (steps : Nat) → Text → List Text
  | 0, t => [t]
  | steps + 1, t =>
    match afterModifier? t with
    | some rest => afterModifiers steps rest ++ [t]
    | none => [t]

theorem suffix_of_mem_afterModifiers {steps : Nat} {t rest : Text}
    (h : rest ∈ afterModifiers steps t) : rest <:+ t := by
  induction steps generalizing t with
  | zero =>
    obtain rfl := List.mem_singleton.1 h
    exact List.suffix_rfl
  | succ steps ih =>
    unfold afterModifiers at h
    split at h
    · next tail htail =>
      rcases List.mem_append.1 h with h | h
      · exact (ih h).trans (suffix_of_afterModifier? htail)
      · obtain rfl := List.mem_singleton.1 h
        exact List.suffix_rfl
    · obtain rfl := List.mem_singleton.1 h
      exact List.suffix_rfl

/-- What is left after one or more blanks at the front: after all of them first. -/
def afterSomeBlanks : Text → List Text
  | [] => []
  | c :: rest => if isBlank c then afterSomeBlanks rest ++ [rest] else []

theorem suffix_of_mem_afterSomeBlanks {t rest : Text} (h : rest ∈ afterSomeBlanks t) :
    rest <:+ t := by
  induction t with
  | nil => simp [afterSomeBlanks] at h
  | cons c tail ih =>
    unfold afterSomeBlanks at h
    split at h
    · rcases List.mem_append.1 h with h | h
      · exact (ih h).trans (List.suffix_cons _ _)
      · obtain rfl := List.mem_singleton.1 h
        exact List.suffix_cons _ _
    · simp at h

/-- The longest dotted name at the front: its components up to the first empty one. -/
def dottedName (t : Text) : Text :=
  Text.join ['.'] ((Text.split '.' (t.takeWhile isDottedChar)).takeWhile (! ·.isEmpty))

/-- Reads blanks, the word `extends`, blanks and a dotted name, which is captured. -/
def readExtends (t : Text) : Option Reading := do
  let rest ← afterBlanks? t
  let rest ← Text.after? extendsWord rest
  let rest ← afterBlanks? rest
  let name := dottedName rest
  if name.isEmpty then none else some ⟨[name], rest.drop name.length⟩

theorem suffix_of_readExtends {t : Text} {r : Reading} (h : readExtends t = some r) :
    r.rest <:+ t := by
  obtain ⟨a, ha, h⟩ := Option.bind_eq_some_iff.1 h
  obtain ⟨b, hb, h⟩ := Option.bind_eq_some_iff.1 h
  obtain ⟨c, hc, h⟩ := Option.bind_eq_some_iff.1 h
  dsimp only at h
  split at h
  · simp at h
  · cases h
    exact (List.drop_suffix _ _).trans <| (suffix_of_afterBlanks? hc).trans <|
      (Text.suffix_of_after? hb).trans (suffix_of_afterBlanks? ha)

/-- Reads on after the nearest `>` after which the header goes on, no `{` before it. -/
def readAfterParameters : Text → Option Reading
  | [] => none
  | c :: rest =>
    if c = '{' then none
    else if c = '>' then
      match readExtends rest with
      | some reading => some reading
      | none => readAfterParameters rest
    else readAfterParameters rest

theorem suffix_of_readAfterParameters {t : Text} {r : Reading}
    (h : readAfterParameters t = some r) : r.rest <:+ t := by
  induction t with
  | nil => simp [readAfterParameters] at h
  | cons c rest ih =>
    unfold readAfterParameters at h
    split at h
    · simp at h
    · split at h
      · split at h
        · next reading hreading =>
          cases h
          exact (suffix_of_readExtends hreading).trans (List.suffix_cons _ _)
        · exact (ih h).trans (List.suffix_cons _ _)
      · exact (ih h).trans (List.suffix_cons _ _)

/-- Reads type parameters, blanks before them aside, and what follows them. -/
def readParameters (t : Text) : Option Reading :=
  (Text.after? ['<'] (t.dropWhile isBlank)).bind readAfterParameters

theorem suffix_of_readParameters {t : Text} {r : Reading} (h : readParameters t = some r) :
    r.rest <:+ t := by
  obtain ⟨rest, hrest, h⟩ := Option.bind_eq_some_iff.1 h
  exact (suffix_of_readAfterParameters h).trans
    ((Text.suffix_of_after? hrest).trans (List.dropWhile_suffix _))

/-- Reads what follows the name of the class, with type parameters or without. -/
def readAfterName (t : Text) : Option Reading :=
  (readParameters t).or (readExtends t)

theorem suffix_of_readAfterName {t : Text} {r : Reading} (h : readAfterName t = some r) :
    r.rest <:+ t := by
  rcases Option.or_eq_some_iff.1 h with h | ⟨_, h⟩
  · exact suffix_of_readParameters h
  · exact suffix_of_readExtends h

/-- Reads a header from the word `class` on. -/
def readFromClass (name t : Text) : Option Reading := do
  let rest ← Text.after? classWord t
  (afterSomeBlanks rest).findSome? fun rest => (Text.after? name rest).bind readAfterName

theorem suffix_of_readFromClass {name t : Text} {r : Reading}
    (h : readFromClass name t = some r) : r.rest <:+ t := by
  obtain ⟨rest, hrest, h⟩ := Option.bind_eq_some_iff.1 h
  obtain ⟨tail, htail, h⟩ := List.exists_of_findSome?_eq_some h
  obtain ⟨body, hbody, h⟩ := Option.bind_eq_some_iff.1 h
  exact (suffix_of_readAfterName h).trans <| (Text.suffix_of_after? hbody).trans <|
    (suffix_of_mem_afterSomeBlanks htail).trans (Text.suffix_of_after? hrest)

/-- Reads a header from the start of its line on. -/
def readHeader (name t : Text) : Option Reading :=
  let t := t.dropWhile isBlank
  (afterModifiers t.length t).findSome? (readFromClass name)

theorem suffix_of_readHeader {name t : Text} {r : Reading} (h : readHeader name t = some r) :
    r.rest <:+ t := by
  obtain ⟨rest, hrest, h⟩ := List.exists_of_findSome?_eq_some h
  exact (suffix_of_readFromClass h).trans
    ((suffix_of_mem_afterModifiers hrest).trans (List.dropWhile_suffix _))

/-- The header of the class `name`, which captures the name of its base class. -/
def classHeader (name : Text) : Pattern :=
  .onLineStart (readHeader name) suffix_of_readHeader

end SourceJump.Java
