import SourceJump.Proofs.Java.QualifiedName

/-!
# The regular expression for an import on a line of its own

`^\s*import\s+([\w$]+(?:\.[\w$]+)+)\s*;` can end the name early, at any component and any character. But behind the name
a blank or a semicolon has to follow, so only the whole run of dotted characters can succeed, and it does exactly
when it is a qualified name (`reads_qualifiedName`). So the expression reads at the start of a line what the reader of
the line reads (`matchStart_importLineRegex`).
-/

namespace SourceJump.Java

open Regex

/-! ### The name in a declaration -/

/-- Where each member gives the same or nothing, the members that give it need not be told apart. -/
theorem findSome?_eq_ite {α β : Type} {l : List α} {f : α → Option β} {q : α → Prop} [DecidablePred q] {o : Option β}
    (h : ∀ a ∈ l, f a = if q a then o else none) : l.findSome? f = if ∃ a ∈ l, q a then o else none := by
  induction l with
  | nil => simp
  | cons a l ih =>
    obtain ⟨ha, hl⟩ := List.forall_mem_cons.1 h
    rw [List.findSome?_cons, ha, ih hl]
    by_cases hq : q a
    · cases o <;> simp [hq]
    · simp [hq]

theorem silent_qualifiedNameRegex : qualifiedNameRegex.Silent := by
  simp [qualifiedNameRegex, componentRegex, plus, inRow, Silent]

/-- A name before something that does not begin with a dotted character is the whole run of dotted characters. -/
theorem eq_dropWhile_of_mem_tries {x : Place} {y : List Text × Place} (hy : y ∈ qualifiedNameRegex.tries x)
    (hstop : ∀ c ∈ y.2.rest.head?, isDottedChar c = false) : y.2.rest = x.rest.dropWhile isDottedChar := by
  obtain ⟨name, hx, hspells⟩ := exists_spells_of_mem_tries hy
  rw [hx, Text.dropWhile_append_of_stop (isQualifiedName_of_spells hspells).isDottedName.isDottedChar hstop]

/-- The whole run of dotted characters is tried exactly when it is a qualified name. -/
theorem exists_tries_eq_dropWhile_iff (before : Text) (t : Text) :
    (∃ y ∈ qualifiedNameRegex.tries ⟨before, t⟩, y.2.rest = t.dropWhile isDottedChar) ↔
      isQualified (t.takeWhile isDottedChar) = true := by
  have hcut : t.takeWhile isDottedChar ++ t.dropWhile isDottedChar = t := List.takeWhile_append_dropWhile
  rw [isQualified_iff fun c hc => List.mem_takeWhile_imp hc]
  constructor
  · rintro ⟨y, hy, hend⟩
    obtain ⟨name, ht, hspells⟩ := exists_spells_of_mem_tries hy
    rw [hend] at ht
    have hname : t.takeWhile isDottedChar = name := List.append_cancel_right (hcut.trans ht)
    rw [hname]
    exact isQualifiedName_of_spells hspells
  · intro hname
    obtain ⟨y, hy, hend⟩ := exists_tries_qualifiedName before hname (Text.stop_dropWhile isDottedChar t)
    rw [hcut] at hy
    exact ⟨y, hy, hend⟩

/-- Before something that cannot begin with a dotted character the whole run of dotted characters is captured, if it
is a qualified name. -/
theorem reads_qualifiedName {rs : List Regex} {read : Text → Option Reading} (h : Reads rs read)
    (hf : FailsOn isDottedChar read) : Reads (group qualifiedNameRegex :: rs) fun t =>
      if isQualified (t.takeWhile isDottedChar) then
        (read (t.dropWhile isDottedChar)).map fun z => ⟨t.takeWhile isDottedChar :: z.groups, z.rest⟩
      else none := by
  rintro ⟨before, t⟩
  have hfirst : first (group qualifiedNameRegex :: rs) ⟨before, t⟩ =
      (qualifiedNameRegex.tries ⟨before, t⟩).findSome? fun y =>
        (first rs y.2).map fun z => ⟨(Place.upTo ⟨before, t⟩ y.2 :: y.1) ++ z.groups, z.rest⟩ := by
    rw [first_cons, tries, List.findSome?_map]
    rfl
  have hways : ∀ y ∈ qualifiedNameRegex.tries ⟨before, t⟩,
      ((first rs y.2).map fun z => (⟨(Place.upTo ⟨before, t⟩ y.2 :: y.1) ++ z.groups, z.rest⟩ : Reading)) =
        if y.2.rest = t.dropWhile isDottedChar then
          (read (t.dropWhile isDottedChar)).map fun z => ⟨t.takeWhile isDottedChar :: z.groups, z.rest⟩
        else none := by
    intro y hy
    rw [h y.2]
    by_cases hend : y.2.rest = t.dropWhile isDottedChar
    · have hcaptured : Place.upTo ⟨before, t⟩ y.2 = t.takeWhile isDottedChar :=
        upTo_eq_of_append (by rw [hend]; exact List.takeWhile_append_dropWhile.symm)
      rw [if_pos hend, hend, hcaptured, silent_qualifiedNameRegex.fst_eq_nil hy]
      rfl
    · -- A dotted character follows the name, or the name would be the whole run.
      rw [if_neg hend, Option.map_eq_none_iff]
      by_contra hread
      exact hend (eq_dropWhile_of_mem_tries hy (hf.head?_of_ne_none hread))
  rw [hfirst, findSome?_eq_ite hways]
  simp only [exists_tries_eq_dropWhile_iff]

/-! ### The whole expression -/

/-- `^\s*import\s+([\w$]+(?:\.[\w$]+)+)\s*;` -/
def importLineRegex : Regex :=
  inRow [lineStart, star (one isBlank), lit importWord, plus isBlank, group qualifiedNameRegex, star (one isBlank),
    lit [';']]

/-- The end of a declaration does not begin with a dotted character. -/
theorem failsOn_semicolon : FailsOn isDottedChar fun t => (afterSemicolon? t).map fun rest => ⟨[], rest⟩ := by
  intro c t hc
  rw [Option.map_eq_none_iff]
  by_contra hsome
  obtain ⟨rest, hrest⟩ := Option.ne_none_iff_exists'.1 hsome
  have hnot := not_isDottedChar_of_afterSemicolon? hrest c rfl
  rw [hc] at hnot
  exact absurd hnot (by decide)

/-- What `readImportLine` reads behind the blanks after `import`. -/
def readQualified (body : Text) : Option Reading := do
  let rest ← afterSemicolon? (body.dropWhile isDottedChar)
  if isQualified (body.takeWhile isDottedChar) then some ⟨[body.takeWhile isDottedChar], rest⟩ else none

theorem readImportLine_eq_bind (t : Text) : readImportLine t = (afterImport? t).bind readQualified := rfl

theorem reads_qualified : Reads [group qualifiedNameRegex, star (one isBlank), lit [';']] readQualified := by
  refine (reads_qualifiedName reads_semicolon failsOn_semicolon).congr fun t => ?_
  by_cases hname : isQualified (t.takeWhile isDottedChar) = true <;>
    cases hrest : afterSemicolon? (t.dropWhile isDottedChar) <;> simp [readQualified, hname, hrest]

/-- No name begins with a blank. -/
theorem failsOn_readQualified : FailsOn isBlank readQualified := by
  intro c t hc
  have hrun : (c :: t).takeWhile isDottedChar = [] :=
    List.takeWhile_cons_of_neg (by rw [not_isDottedChar_of_isBlank hc]; decide)
  have hempty : isQualified [] = false := by decide
  simp [readQualified, hrun, hempty]

theorem pattern_importLineRegex :
    importLineRegex.pattern = .onLineStart readImportLine suffix_of_readImportLine := by
  have hword := (reads_afterBlanks reads_qualified failsOn_readQualified).lit importWord
  have hline := hword.star_one (p := isBlank) (failsOn_lit rfl (by decide) _)
  refine pattern_lineStart (hline.congr fun t => ?_) suffix_of_readImportLine
  rw [readImportLine_eq_bind, afterImport?]
  exact (Option.bind_assoc _ _ _).symm

/-- Trying the regular expression on a line that stands on its own is reading the line. -/
theorem matchStart_importLineRegex (t : Text) : importLineRegex.pattern.matchStart t = importLine.matchStart t := by
  rw [pattern_importLineRegex]
  rfl

end SourceJump.Java
