import SourceJump.Proofs.Buffer.Cursor
import SourceJump.Proofs.Java.BaseClass

/-!
# The header behind modifiers and annotations

In front of the word `class` stand modifiers and marker annotations. The search for the header passes over words of word
characters and the sign `@`. Two kinds of modifiers are no such words: `non-sealed` has a hyphen in it, and an
annotation can have a dollar sign in its name. But the search may begin at the start of any line, so only the line that
the word `class` is on counts. The base class is found exactly when neither a hyphen nor a dollar sign stands before the
word `class` on it (`ClassDeclaration.exists_search`, `ClassDeclaration.search_eq_none`).
-/

namespace SourceJump.Java

/-- The modifiers of a class. -/
def modifierWords : List Text :=
  [Text.lit "public", Text.lit "protected", Text.lit "private", Text.lit "static", Text.lit "abstract",
    Text.lit "final", Text.lit "strictfp", Text.lit "sealed", Text.lit "non-sealed"]

/-- A modifier or a marker annotation with a simple name. -/
def IsModifier (t : Text) : Prop :=
  t ∈ modifierWords ∨ ∃ name, t = CodePoint.char '@' :: name ∧ IsName name

/-- Modifiers and annotations, each with blanks behind it. -/
inductive IsModifierRow : Text → Prop where
  | nil : IsModifierRow []
  | cons {word gap rest : Text} : IsModifier word → gap ≠ [] → IsGap gap → IsModifierRow rest →
      IsModifierRow (word ++ (gap ++ rest))

/-- The word stands at the offset, not as a part of a longer name. -/
def WordAt (t : Text) (offset : Nat) (word : Text) : Prop :=
  ∃ rest, t.drop offset = word ++ rest ∧ (∀ c ∈ (t.take offset).getLast?, isNameChar c = false) ∧
    ∀ c ∈ rest.head?, isNameChar c = false

/-- A text that declares the class `name` with the base class `base`, behind modifiers and annotations that begin at the
start of a line. The word `class` stands nowhere else in it. -/
structure ClassDeclaration (text name base : Text) where
  /-- The lines before. -/
  before : Text
  modifiers : Text
  gap : Text
  /-- The blanks before `extends`. -/
  gap₁ : Text
  /-- The blanks behind `extends`. -/
  gap₂ : Text
  /-- The blanks before the brace. -/
  gap₃ : Text
  rest : Text
  text_eq : text = before ++ (modifiers ++ (classWord ++ (gap ++ (name ++ (gap₁ ++ (extendsWord ++ (gap₂ ++ (base ++
    (gap₃ ++ CodePoint.char '{' :: rest)))))))))
  startsLine : Pattern.startsLine before.getLast? = true
  isModifierRow : IsModifierRow modifiers
  gap_ne_nil : gap ≠ []
  isGap : IsGap gap
  gap₁_ne_nil : gap₁ ≠ []
  isGap₁ : IsGap gap₁
  gap₂_ne_nil : gap₂ ≠ []
  isGap₂ : IsGap gap₂
  isGap₃ : IsGap gap₃
  isName_base : IsName base
  only : ∀ p, WordAt text p classWord → p = (before ++ modifiers).length

/-- Where a word stands can be looked up, because it stands within the text. -/
theorem WordAt.eq_of_forall_lt {t word : Text} {offset place : Nat} (h : WordAt t offset word) (hne : word ≠ [])
    (hall : ∀ p < t.length, (Text.after? word (t.drop p)).isSome = true → p = place) : offset = place := by
  obtain ⟨rest, hdrop, -⟩ := h
  refine hall offset ?_ (by rw [Text.after?_eq_some_iff.2 hdrop]; rfl)
  by_contra hbehind
  rw [List.drop_eq_nil_of_le (Nat.le_of_not_lt hbehind)] at hdrop
  exact hne (List.append_eq_nil_iff.1 hdrop.symm).1

/-! ### The characters of modifiers -/

theorem IsModifier.chars {t : Text} (h : IsModifier t) :
    ∀ c ∈ t, isModifierChar c = true ∨ c = CodePoint.char '-' ∨ c = CodePoint.char '$' := by
  rcases h with hword | ⟨name, rfl, hname⟩
  · have hall : ∀ t ∈ modifierWords, ∀ c ∈ t, isModifierChar c = true ∨ c = CodePoint.char '-' := by decide
    exact fun c hc => (hall t hword c hc).imp_right Or.inl
  · intro c hc
    rcases List.mem_cons.1 hc with rfl | hc
    · exact Or.inl rfl
    · have hchar := hname.chars c hc
      rw [isNameChar, Bool.or_eq_true, beq_iff_eq] at hchar
      exact hchar.imp (fun hword => by rw [isModifierChar, hword, Bool.true_or]) Or.inr

theorem IsModifierRow.chars {t : Text} (h : IsModifierRow t) : ∀ c ∈ t,
    (isBlank c = true ∨ isModifierChar c = true) ∨ c = CodePoint.char '-' ∨ c = CodePoint.char '$' := by
  induction h with
  | nil => simp
  | cons hword _ hgap _ ih =>
    intro c hc
    rcases List.mem_append.1 hc with hc | hc
    · exact (hword.chars c hc).imp_left Or.inr
    · rcases List.mem_append.1 hc with hc | hc
      · exact Or.inl (Or.inl (hgap c hc))
      · exact ih c hc

theorem IsModifierRow.ends_blank {t : Text} (h : IsModifierRow t) : ∀ c ∈ t.getLast?, isBlank c = true := by
  induction h with
  | nil => simp
  | @cons word gap rest _ hne hgap _ ih =>
    intro c hc
    rw [← List.append_assoc, List.getLast?_append] at hc
    rcases Option.or_eq_some_iff.1 hc with hc | ⟨-, hc⟩
    · exact ih c hc
    · rw [List.getLast?_append_of_ne_nil _ hne] at hc
      exact hgap c (List.mem_of_mem_getLast? hc)

/-! ### Behind the word `class` -/

/-- Behind the name stands what follows the blanks behind it, whichever blanks are taken before a name that begins with
blanks. -/
theorem exists_gap_of_name {name gap gap₁ gap' rest t : Text} (hgap : IsGap gap) (hgap₁ : IsGap gap₁)
    (hgap' : IsGap gap') (ht : ∀ c ∈ t.head?, isBlank c = false)
    (h : gap ++ (name ++ (gap₁ ++ t)) = gap' ++ (name ++ rest)) : ∃ gap'', rest = gap'' ++ t ∧ IsGap gap'' := by
  have hcut : name = name.takeWhile isBlank ++ name.dropWhile isBlank := List.takeWhile_append_dropWhile.symm
  have hstop := Text.stop_dropWhile isBlank name
  have hfront : ∀ {s : Text}, IsGap s → IsGap (s ++ name.takeWhile isBlank) := by
    intro s hs c hc
    exact (List.mem_append.1 hc).elim (hs c) (isGap_takeWhile name c)
  generalize name.takeWhile isBlank = blanks at hcut hfront
  generalize name.dropWhile isBlank = behind at hcut hstop
  subst hcut
  cases behind with
  | nil =>
    -- All blanks up to `t` come together.
    replace h : gap ++ blanks ++ gap₁ ++ t = gap' ++ blanks ++ rest := by simpa using h
    have hall : ∀ c ∈ gap ++ blanks ++ gap₁, isBlank c = true :=
      fun c hc => (List.mem_append.1 hc).elim (hfront hgap c) (hgap₁ c)
    have hdrop := congrArg (List.dropWhile isBlank) h
    rw [Text.dropWhile_append_of_stop hall ht, List.dropWhile_append_of_pos (hfront hgap')] at hdrop
    exact ⟨rest.takeWhile isBlank, by rw [hdrop, List.takeWhile_append_dropWhile], isGap_takeWhile rest⟩
  | cons c behind =>
    replace h : gap ++ blanks ++ (c :: behind ++ (gap₁ ++ t)) = gap' ++ blanks ++ (c :: behind ++ rest) := by
      simpa using h
    have hhead : ∀ s : Text, ∀ d ∈ (c :: behind ++ s).head?, isBlank d = false := fun _ => hstop
    obtain ⟨-, hsame⟩ := gap_append_inj (hfront hgap) (hfront hgap') (hhead _) (hhead _) h
    exact ⟨gap₁, (List.append_cancel_left hsame).symm, hgap₁⟩

namespace ClassDeclaration

variable {text name base : Text}

/-- Where the word `class` stands. -/
def start (d : ClassDeclaration text name base) : Nat := (d.before ++ d.modifiers).length

/-- What stands before the word `class` on its line. -/
def line (d : ClassDeclaration text name base) : Text := Text.lastRun (· ≠ '\n') d.modifiers

/-- What follows the blanks behind the name. -/
def clause (d : ClassDeclaration text name base) : Text :=
  extendsWord ++ (d.gap₂ ++ (base ++ (d.gap₃ ++ CodePoint.char '{' :: d.rest)))

variable (d : ClassDeclaration text name base)

theorem take_start : text.take d.start = d.before ++ d.modifiers := by
  refine (congrArg (List.take d.start) d.text_eq).trans ?_
  rw [← List.append_assoc]
  exact List.take_left

theorem drop_start : text.drop d.start = classWord ++ (d.gap ++ (name ++ (d.gap₁ ++ d.clause))) := by
  refine (congrArg (List.drop d.start) d.text_eq).trans ?_
  rw [← List.append_assoc]
  exact List.drop_left

theorem head?_clause : ∀ c ∈ d.clause.head?, c = CodePoint.char 'e' := by
  intro c hc
  exact (by simpa [clause, extendsWord] using hc : CodePoint.char 'e' = c).symm

/-- No type parameters are read. -/
theorem readAfterName_eq_readExtends {gap : Text} (hgap : IsGap gap) :
    readAfterName (gap ++ d.clause) = readExtends (gap ++ d.clause) := by
  have hparameters : readParameters (gap ++ d.clause) = none := by
    refine readParameters_eq_none hgap fun c hc => ?_
    obtain rfl := d.head?_clause c hc
    decide
  rw [readAfterName, hparameters, Option.none_or]

/-- Behind blanks the clause is read with the base class. -/
theorem exists_readAfterName {gap : Text} (hgap : IsGap gap) (hne : gap ≠ []) :
    ∃ r, readAfterName (gap ++ d.clause) = some r ∧ r.groups = [base] := by
  have hextends : ExtendsBase (gap ++ d.clause) base := by
    refine ⟨gap, d.gap₂, _, rfl, hne, hgap, d.gap₂_ne_nil, d.isGap₂, .single d.isName_base, ?_⟩
    refine fun more hmore hdotted => eq_nil_of_stop (fun c hc => ?_) hmore hdotted
    rw [List.head?_append] at hc
    rcases Option.or_eq_some_iff.1 hc with hc | ⟨-, hc⟩
    · exact not_isDottedChar_of_isBlank (d.isGap₃ c (List.mem_of_mem_head? hc))
    · obtain rfl : CodePoint.char '{' = c := Option.some.inj hc
      decide
  rw [d.readAfterName_eq_readExtends hgap]
  exact hextends.exists_readExtends

/-- Whatever is read behind the name captures the base class. -/
theorem groups_of_readAfterName {gap : Text} (hgap : IsGap gap) {r : Reading}
    (h : readAfterName (gap ++ d.clause) = some r) : r.groups = [base] := by
  by_cases hne : gap = []
  · rw [d.readAfterName_eq_readExtends hgap, hne] at h
    cases h
  · obtain ⟨r', hr', hgroups⟩ := d.exists_readAfterName hgap hne
    obtain rfl := Option.some.inj (hr'.symm.trans h)
    exact hgroups

/-- No modifier on the line of the word `class` has a hyphen or a dollar sign in it. -/
def IsPlain : Prop := CodePoint.char '-' ∉ d.line ∧ CodePoint.char '$' ∉ d.line

theorem mem_modifiers_of_mem_line {c : CodePoint} (h : c ∈ d.line) : c ∈ d.modifiers :=
  (Text.lastRun_suffix _ _).subset h

/-- The lines before do not reach into the line of the word `class`. -/
theorem lastRun_take_start : Text.lastRun (· ≠ '\n') (text.take d.start) = d.line := by
  rw [d.take_start, line]
  refine Text.lastRun_append _ fun c hc => ?_
  have hstart := d.startsLine
  rw [hc] at hstart
  simpa [Pattern.startsLine] using hstart

theorem isPlain_iff : d.IsPlain ↔ ∀ c ∈ d.line, isBlank c = true ∨ isModifierChar c = true := by
  constructor
  · rintro ⟨hhyphen, hdollar⟩ c hc
    rcases d.isModifierRow.chars c (d.mem_modifiers_of_mem_line hc) with hplain | rfl | rfl
    · exact hplain
    · exact absurd hc hhyphen
    · exact absurd hc hdollar
  · intro h
    constructor
    · exact fun hc => absurd (h _ hc) (by decide)
    · exact fun hc => absurd (h _ hc) (by decide)

theorem isModifiers_line (h : d.IsPlain) : IsModifiers d.line := by
  refine ⟨d.isPlain_iff.1 h, fun c hc => d.isModifierRow.ends_blank c ?_⟩
  obtain ⟨front, hfront⟩ := Text.lastRun_suffix (· ≠ '\n') d.modifiers
  have hlast : (Text.lastRun (· ≠ '\n') d.modifiers).getLast? = some c := hc
  rw [← hfront, List.getLast?_append, hlast]
  rfl

/-- A reading, wherever it begins, leads to the word `class` of the declaration. It captures the base class, and all
that stands before the word `class` on its line has been passed over. -/
theorem of_readFrom {i : Nat} {r : Reading} (h : (classHeader name).readFrom text i = some r) :
    r.groups = [base] ∧ d.IsPlain := by
  obtain ⟨hline, hheader⟩ := Pattern.readFrom_onLineStart.1 h
  obtain ⟨front, gap, rest, hdrop, hfront, hne, hgap, hread⟩ := exists_of_readHeader hheader
  have hbefore : ∀ c ∈ (text.take i).getLast?, c = CodePoint.char '\n' := by
    intro c hc
    rw [hc] at hline
    simpa [Pattern.startsLine] using hline
  have htake : text.take (i + front.length) = text.take i ++ front := by
    rw [List.take_add, hdrop, List.take_left]
  have hclass : text.drop (i + front.length) = classWord ++ (gap ++ (name ++ rest)) := by
    rw [← List.drop_drop, hdrop, List.drop_left]
  have hword : WordAt text (i + front.length) classWord := by
    refine ⟨_, hclass, fun c hc => ?_, fun c hc => ?_⟩
    · rw [htake, List.getLast?_append] at hc
      rcases Option.or_eq_some_iff.1 hc with hc | ⟨-, hc⟩
      · exact not_isNameChar_of_isBlank (hfront.ends_blank c hc)
      · rw [hbefore c hc]
        decide
    · rw [List.head?_append_of_ne_nil _ hne] at hc
      exact not_isNameChar_of_isBlank (hgap c (List.mem_of_mem_head? hc))
  have hstart : i + front.length = d.start := d.only _ hword
  rw [hstart] at htake hclass
  constructor
  · have hsame := List.append_cancel_left (d.drop_start.symm.trans hclass)
    have hhead : ∀ c ∈ d.clause.head?, isBlank c = false := by
      intro c hc
      rw [d.head?_clause c hc]
      decide
    obtain ⟨gap', rfl, hgap'⟩ := exists_gap_of_name d.isGap d.isGap₁ hgap hhead hsame
    exact d.groups_of_readAfterName hgap' hread
  · refine d.isPlain_iff.2 fun c hc => hfront.chars c ?_
    rw [← d.lastRun_take_start, htake, Text.lastRun_append _ fun c hc => by simpa using hbefore c hc] at hc
    exact (Text.lastRun_suffix _ _).subset hc

/-- From the start of the line of the word `class` the declaration is read. -/
theorem exists_readFrom (h : d.IsPlain) : ∃ i ≤ text.length, (classHeader name).readFrom text i ≠ none := by
  obtain ⟨r, hr, -⟩ := d.exists_readAfterName d.isGap₁ d.gap₁_ne_nil
  have hread : readHeader name (d.line ++ (classWord ++ (d.gap ++ (name ++ (d.gap₁ ++ d.clause))))) ≠ none :=
    readHeader_ne_none (d.isModifiers_line h) d.gap_ne_nil d.isGap (by rw [hr]; exact Option.some_ne_none r)
  rw [← d.drop_start] at hread
  obtain ⟨r', hr'⟩ := Option.ne_none_iff_exists'.1 hread
  -- The line of the word `class` begins behind the last line feed before it.
  obtain ⟨front, hfront⟩ : ∃ front, front = Text.trimEnd (· ≠ '\n') (text.take d.start) := ⟨_, rfl⟩
  have hcut : text = front ++ (d.line ++ text.drop d.start) := by
    rw [hfront, ← List.append_assoc, ← d.lastRun_take_start, Text.trimEnd_append_lastRun, List.take_append_drop]
  have hstarts : Pattern.startsLine (text.take front.length).getLast? = true := by
    rw [hcut, List.take_left]
    have hlast := Text.getLast?_trimEnd (· ≠ '\n') (text.take d.start)
    rw [← hfront] at hlast
    cases hc : front.getLast? with
    | none => rfl
    | some c => simpa [Pattern.startsLine] using hlast c hc
  have hdrop : text.drop front.length = d.line ++ text.drop d.start :=
    (congrArg (List.drop front.length) hcut).trans List.drop_left
  have hle : front.length ≤ text.length := by
    have hlength := congrArg List.length hcut
    rw [List.length_append] at hlength
    omega
  refine ⟨front.length, hle, ?_⟩
  rw [classHeader, Pattern.readFrom_onLineStart.2 ⟨hstarts, hdrop ▸ hr'⟩]
  exact Option.some_ne_none r'

/-- **Modifiers on the line of the word `class` that are plain words do not hide the base class.** -/
theorem exists_search (h : d.IsPlain) : ∃ m, (classHeader name).search text 0 = some m ∧ m.groups = [base] := by
  obtain ⟨i, hi, hread⟩ := d.exists_readFrom h
  cases hm : (classHeader name).search text 0 with
  | none => exact absurd (Pattern.search_eq_none_iff.1 hm i (by omega) hi) hread
  | some m =>
    obtain ⟨r, hr, hgroups, -⟩ := Pattern.exists_readFrom_of_search hm
    exact ⟨m, rfl, hgroups.trans (d.of_readFrom hr).1⟩

/-- A hyphen or a dollar sign there hides it. -/
theorem search_eq_none (h : ¬ d.IsPlain) : (classHeader name).search text 0 = none := by
  cases hm : (classHeader name).search text 0 with
  | none => rfl
  | some m =>
    obtain ⟨r, hr, -⟩ := Pattern.exists_readFrom_of_search hm
    exact absurd (d.of_readFrom hr).2 h

end ClassDeclaration

end SourceJump.Java
