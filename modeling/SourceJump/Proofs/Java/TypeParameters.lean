import SourceJump.Proofs.Java.DottedName
import SourceJump.Proofs.Java.PackageImports

/-!
# Type parameters

Between the angle brackets behind the name of a class stands a row of type parameters, whose bounds are types with
arguments nested to any depth (`Spelled`). The reader of headers knows nothing of nesting: it goes on from one
closing bracket to the next, until one is followed by the word `extends` and a name. Inside the brackets none is,
because behind a type stands a comma, an ampersand or another closing bracket (`Spelled.skipped`). So the
reader gets to what follows the whole row (`readAfterName_of_typeParameters`).
-/

namespace SourceJump.Java

/-- Blanks, possibly none. -/
def IsGap (t : Text) : Prop := ∀ c ∈ t, isBlank c = true

instance (t : Text) : Decidable (IsGap t) := inferInstanceAs (Decidable (∀ c ∈ t, isBlank c = true))

/-- The word `super`. -/
def superWord : Text := ['s', 'u', 'p', 'e', 'r']

/-- What stands between the items of a row. -/
inductive Separator where
  | comma
  | ampersand

def Separator.char : Separator → CodePoint
  | comma => ','
  | ampersand => '&'

/-- The kinds of phrases inside angle brackets. -/
inductive Phrase where
  | type
  | argument
  | parameter
  | row (separator : Separator) (item : Phrase)

/-- A text in angle brackets, with gaps at both ends. -/
def inBrackets (gap t gap' : Text) : Text :=
  CodePoint.char '<' :: (gap ++ (t ++ (gap' ++ [CodePoint.char '>'])))

/-- How the phrases are written. Gaps may stand between any two tokens, and must stand between two words. -/
inductive Spelled : Phrase → Text → Prop where
  /-- A type without arguments. -/
  | plain {name : Text} : IsDottedName name → Spelled .type name
  /-- A type with arguments in brackets. -/
  | applied {name front gap arguments gap' : Text} : IsDottedName name → IsGap front → IsGap gap → IsGap gap' →
      Spelled (.row .comma .argument) arguments → Spelled .type (name ++ (front ++ inBrackets gap arguments gap'))
  /-- A type as an argument. -/
  | given {t : Text} : Spelled .type t → Spelled .argument t
  /-- A question mark as an argument. -/
  | unknown : Spelled .argument [CodePoint.char '?']
  /-- A question mark with a bound from above. -/
  | upper {gap gap' bound : Text} : IsGap gap → IsGap gap' → gap' ≠ [] → Spelled .type bound →
      Spelled .argument (CodePoint.char '?' :: (gap ++ (extendsWord ++ (gap' ++ bound))))
  /-- A question mark with a bound from below. -/
  | lower {gap gap' bound : Text} : IsGap gap → IsGap gap' → gap' ≠ [] → Spelled .type bound →
      Spelled .argument (CodePoint.char '?' :: (gap ++ (superWord ++ (gap' ++ bound))))
  /-- A parameter without bounds. -/
  | free {name : Text} : IsName name → Spelled .parameter name
  /-- A parameter with bounds. -/
  | bounded {name gap gap' bounds : Text} : IsName name → IsGap gap → gap ≠ [] → IsGap gap' → gap' ≠ [] →
      Spelled (.row .ampersand .type) bounds → Spelled .parameter (name ++ (gap ++ (extendsWord ++ (gap' ++ bounds))))
  /-- A row of one item. -/
  | last {separator : Separator} {item : Phrase} {t : Text} : Spelled item t → Spelled (.row separator item) t
  /-- An item before a row. -/
  | more {separator : Separator} {item : Phrase} {t gap gap' ts : Text} : Spelled item t → IsGap gap → IsGap gap' →
      Spelled (.row separator item) ts → Spelled (.row separator item) (t ++ (gap ++ separator.char :: (gap' ++ ts)))

/-- The type parameters of a class, blanks before them included. -/
def IsTypeParameters (t : Text) : Prop :=
  ∃ front gap row gap' : Text, IsGap front ∧ IsGap gap ∧ IsGap gap' ∧ Spelled (.row .comma .parameter) row ∧
    t = front ++ inBrackets gap row gap'

/-! ### Steps of the reader -/

/-- Neither a brace nor a closing bracket. -/
def IsUnclosed (t : Text) : Prop := ∀ c ∈ t, c ≠ CodePoint.char '{' ∧ c ≠ CodePoint.char '>'

instance (t : Text) : Decidable (IsUnclosed t) :=
  inferInstanceAs (Decidable (∀ c ∈ t, c ≠ CodePoint.char '{' ∧ c ≠ CodePoint.char '>'))

theorem IsUnclosed.append {s t : Text} (hs : IsUnclosed s) (ht : IsUnclosed t) : IsUnclosed (s ++ t) := by
  intro c hc
  rcases List.mem_append.1 hc with hc | hc
  · exact hs c hc
  · exact ht c hc

theorem IsUnclosed.cons {c : CodePoint} {t : Text} (hc : c ≠ CodePoint.char '{' ∧ c ≠ CodePoint.char '>')
    (ht : IsUnclosed t) : IsUnclosed (c :: t) := by
  intro d hd
  rcases List.mem_cons.1 hd with rfl | hd
  · exact hc
  · exact ht d hd

theorem IsGap.isUnclosed {gap : Text} (h : IsGap gap) : IsUnclosed gap := by
  intro c hc
  have hblank := h c hc
  constructor
  · rintro rfl
    revert hblank
    decide
  · rintro rfl
    revert hblank
    decide

theorem IsName.isUnclosed {name : Text} (h : IsName name) : IsUnclosed name := by
  intro c hc
  have hchar := h.chars c hc
  constructor
  · rintro rfl
    revert hchar
    decide
  · rintro rfl
    revert hchar
    decide

theorem IsDottedName.isUnclosed {name : Text} (h : IsDottedName name) : IsUnclosed name := by
  induction h with
  | single hname => exact hname.isUnclosed
  | qualified hname _ ih => exact hname.isUnclosed.append (.cons (by decide) ih)

theorem isUnclosed_extendsWord : IsUnclosed extendsWord := by decide

theorem isUnclosed_superWord : IsUnclosed superWord := by decide

theorem Separator.unclosed (s : Separator) : s.char ≠ CodePoint.char '{' ∧ s.char ≠ CodePoint.char '>' := by
  cases s <;> decide

/-- What is not closed is passed. -/
theorem readAfterParameters_append {t : Text} (h : IsUnclosed t) (rest : Text) :
    readAfterParameters (t ++ rest) = readAfterParameters rest := by
  induction t with
  | nil => rfl
  | cons c t ih =>
    obtain ⟨hopen, hclose⟩ := h c List.mem_cons_self
    rw [List.cons_append, readAfterParameters, if_neg hopen, if_neg hclose]
    exact ih fun d hd => h d (List.mem_cons_of_mem _ hd)

/-- At a closing bracket the header goes on, or else the reader does. -/
theorem readAfterParameters_close (rest : Text) : readAfterParameters (CodePoint.char '>' :: rest) =
    (readExtends rest).or (readAfterParameters rest) := by
  rw [readAfterParameters, if_neg (by decide), if_pos rfl]
  cases readExtends rest <;> rfl

/-- No header goes on where something else than the word `extends` follows the blanks. -/
theorem readExtends_eq_none {gap t : Text} (hgap : IsGap gap)
    (ht : ∀ c ∈ t.head?, isBlank c = false ∧ c ≠ CodePoint.char 'e') : readExtends (gap ++ t) = none := by
  have hstop : ∀ c ∈ t.head?, isBlank c = false := fun c hc => (ht c hc).1
  have hword : Text.after? extendsWord t = none := by
    cases t with
    | nil => rfl
    | cons c t => exact if_neg (Ne.symm (ht c rfl).2)
  by_cases hne : gap = []
  · subst hne
    have hrun : (([] : Text) ++ t).takeWhile isBlank = [] := Text.takeWhile_append_of_stop hgap hstop
    rw [readExtends, afterBlanks?_eq, if_pos hrun]
    rfl
  · rw [readExtends, afterBlanks?_eq_some hne hgap hstop]
    show (Text.after? extendsWord t).bind _ = none
    rw [hword]
    rfl

/-! ### Phrases are passed -/

/-- What follows a phrase inside brackets: blanks, and then a separator or a closing bracket. -/
def Continues (rest : Text) : Prop :=
  ∃ gap c tail, rest = gap ++ c :: tail ∧ IsGap gap ∧ (c = CodePoint.char '>' ∨ ∃ s : Separator, c = s.char)

theorem Continues.gap_append {gap rest : Text} (hgap : IsGap gap) (h : Continues rest) : Continues (gap ++ rest) := by
  obtain ⟨gap', c, tail, rfl, hgap', hc⟩ := h
  refine ⟨gap ++ gap', c, tail, (List.append_assoc _ _ _).symm, ?_, hc⟩
  intro d hd
  rcases List.mem_append.1 hd with hd | hd
  · exact hgap d hd
  · exact hgap' d hd

theorem continues_close (rest : Text) : Continues (CodePoint.char '>' :: rest) :=
  ⟨[], _, rest, rfl, by simp [IsGap], Or.inl rfl⟩

theorem continues_separator (s : Separator) (rest : Text) : Continues (s.char :: rest) :=
  ⟨[], _, rest, rfl, by simp [IsGap], Or.inr ⟨s, rfl⟩⟩

theorem Continues.readExtends_eq_none {rest : Text} (h : Continues rest) : readExtends rest = none := by
  obtain ⟨gap, c, tail, rfl, hgap, hc⟩ := h
  refine Java.readExtends_eq_none hgap fun d hd => ?_
  obtain rfl : c = d := by simpa using hd
  rcases hc with rfl | ⟨s, rfl⟩
  · decide
  · cases s <;> decide

/-- Brackets around a phrase lead to what follows them. -/
theorem readAfterParameters_inBrackets {gap t gap' rest : Text} (hgap : IsGap gap) (hgap' : IsGap gap')
    (ht : ∀ rest, Continues rest → readAfterParameters (t ++ rest) = readAfterParameters rest) :
    readAfterParameters (gap ++ (t ++ (gap' ++ [CodePoint.char '>'])) ++ rest) =
      (readExtends rest).or (readAfterParameters rest) := by
  have hfollows := (continues_close rest).gap_append hgap'
  simp only [List.append_assoc, List.singleton_append]
  rw [readAfterParameters_append hgap.isUnclosed, ht _ hfollows, readAfterParameters_append hgap'.isUnclosed,
    readAfterParameters_close]

/-- The reader passes a phrase as a whole, however deeply its arguments are nested. The induction is on how the
phrase is written: inside a row each item is followed by a separator, and the last one by what follows the row. -/
theorem Spelled.skipped {phrase : Phrase} {t : Text} (h : Spelled phrase t) :
    ∀ rest, Continues rest → readAfterParameters (t ++ rest) = readAfterParameters rest := by
  induction h with
  | plain hname => exact fun rest _ => readAfterParameters_append hname.isUnclosed rest
  | @applied name front gap arguments gap' hname hfront hgap hgap' _ ih =>
    intro rest hrest
    have hopen : IsUnclosed (name ++ (front ++ [CodePoint.char '<'])) :=
      hname.isUnclosed.append (hfront.isUnclosed.append (by decide))
    have hcut : name ++ (front ++ inBrackets gap arguments gap') ++ rest =
        name ++ (front ++ [CodePoint.char '<']) ++ (gap ++ (arguments ++ (gap' ++ [CodePoint.char '>'])) ++ rest) := by
      simp [inBrackets]
    rw [hcut, readAfterParameters_append hopen, readAfterParameters_inBrackets hgap hgap' ih, hrest.readExtends_eq_none]
    rfl
  | given _ ih => exact ih
  | unknown => exact fun rest _ => readAfterParameters_append (by decide) rest
  | @upper gap gap' bound hgap hgap' _ _ ih =>
    intro rest hrest
    have hfront : IsUnclosed (CodePoint.char '?' :: (gap ++ (extendsWord ++ gap'))) :=
      .cons (by decide) (hgap.isUnclosed.append (isUnclosed_extendsWord.append hgap'.isUnclosed))
    have hcut : CodePoint.char '?' :: (gap ++ (extendsWord ++ (gap' ++ bound))) ++ rest =
        CodePoint.char '?' :: (gap ++ (extendsWord ++ gap')) ++ (bound ++ rest) := by simp
    rw [hcut, readAfterParameters_append hfront, ih rest hrest]
  | @lower gap gap' bound hgap hgap' _ _ ih =>
    intro rest hrest
    have hfront : IsUnclosed (CodePoint.char '?' :: (gap ++ (superWord ++ gap'))) :=
      .cons (by decide) (hgap.isUnclosed.append (isUnclosed_superWord.append hgap'.isUnclosed))
    have hcut : CodePoint.char '?' :: (gap ++ (superWord ++ (gap' ++ bound))) ++ rest =
        CodePoint.char '?' :: (gap ++ (superWord ++ gap')) ++ (bound ++ rest) := by simp
    rw [hcut, readAfterParameters_append hfront, ih rest hrest]
  | free hname => exact fun rest _ => readAfterParameters_append hname.isUnclosed rest
  | @bounded name gap gap' bounds hname hgap _ hgap' _ _ ih =>
    intro rest hrest
    have hfront : IsUnclosed (name ++ (gap ++ (extendsWord ++ gap'))) :=
      hname.isUnclosed.append (hgap.isUnclosed.append (isUnclosed_extendsWord.append hgap'.isUnclosed))
    have hcut : name ++ (gap ++ (extendsWord ++ (gap' ++ bounds))) ++ rest =
        name ++ (gap ++ (extendsWord ++ gap')) ++ (bounds ++ rest) := by simp
    rw [hcut, readAfterParameters_append hfront, ih rest hrest]
  | last _ ih => exact ih
  | @more separator item t gap gap' ts _ hgap hgap' _ iht ihts =>
    intro rest hrest
    have hfollows : Continues (gap ++ separator.char :: (gap' ++ (ts ++ rest))) :=
      (continues_separator separator _).gap_append hgap
    have hbetween : IsUnclosed (gap ++ separator.char :: gap') :=
      hgap.isUnclosed.append (.cons separator.unclosed hgap'.isUnclosed)
    have hcut : t ++ (gap ++ separator.char :: (gap' ++ ts)) ++ rest =
        t ++ (gap ++ separator.char :: (gap' ++ (ts ++ rest))) := by simp
    have hcut' : gap ++ separator.char :: (gap' ++ (ts ++ rest)) =
        (gap ++ separator.char :: gap') ++ (ts ++ rest) := by simp
    rw [hcut, iht _ hfollows, hcut', readAfterParameters_append hbetween, ihts rest hrest]

/-! ### Behind the name of the class -/

theorem readParameters_eq_none {gap t : Text} (hgap : IsGap gap)
    (ht : ∀ c ∈ t.head?, isBlank c = false ∧ c ≠ CodePoint.char '<') : readParameters (gap ++ t) = none := by
  have hstop : ∀ c ∈ t.head?, isBlank c = false := fun c hc => (ht c hc).1
  rw [readParameters, Text.dropWhile_append_of_stop hgap hstop]
  cases t with
  | nil => rfl
  | cons c t =>
    have hopen : Text.after? [CodePoint.char '<'] (c :: t) = none := if_neg (Ne.symm (ht c rfl).2)
    rw [hopen]
    rfl

/-- Type parameters are passed as a whole: the header goes on right behind them, or behind some later closing
bracket. -/
theorem readAfterName_of_typeParameters {parameters : Text} (h : IsTypeParameters parameters) (rest : Text) :
    readAfterName (parameters ++ rest) = (readExtends rest).or (readAfterParameters rest) := by
  obtain ⟨front, gap, row, gap', hfront, hgap, hgap', hrow, rfl⟩ := h
  have hopen : ∀ c ∈ (inBrackets gap row gap' ++ rest).head?, isBlank c = false ∧ c ≠ CodePoint.char 'e' := by
    intro c hc
    obtain rfl : CodePoint.char '<' = c := by simpa [inBrackets] using hc
    decide
  have hbrackets : readParameters (front ++ (inBrackets gap row gap' ++ rest)) =
      (readExtends rest).or (readAfterParameters rest) := by
    rw [readParameters, Text.dropWhile_append_of_stop hfront fun c hc => (hopen c hc).1,
      show inBrackets gap row gap' ++ rest =
        [CodePoint.char '<'] ++ (gap ++ (row ++ (gap' ++ [CodePoint.char '>'])) ++ rest) from rfl,
      Text.after?_eq_some_iff.2 rfl, Option.bind_some, readAfterParameters_inBrackets hgap hgap' hrow.skipped]
  rw [List.append_assoc, readAfterName, hbrackets, readExtends_eq_none hfront hopen, Option.or_none]

end SourceJump.Java
