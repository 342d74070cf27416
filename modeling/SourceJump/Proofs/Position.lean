import SourceJump.Position
import SourceJump.Proofs.Buffer.Lines
import SourceJump.Proofs.Number.Numeral

/-!
# Positions are offsets

The offsets of a text are the places in its lines. A line and a column, both counted from one, are accepted when they
are such a place, and then they mean its offset; any other pair of integers is refused with the number that lies outside
(`ofLineColumn_cases`). So an offset has one line and one column, the numerals of both are read back as the offset, and
so is the numeral of the offset itself (`parse_bijective`).
-/

namespace SourceJump.Position

open Text

/-- The line of an offset, from one: the line feeds before the offset. -/
def lineOf (text : Text) (o : Nat) : Nat := (text.take o).count (CodePoint.char '\n') + 1

/-- The column of an offset, from one: how far the offset lies behind the start of its line. -/
def columnOf (text : Text) (o : Nat) : Nat := o - Buffer.lineStart text o + 1

variable {text : Text} {o : Nat}

theorem isAt_iff_lineOf {i k : Nat} :
    IsAt text i k o ↔ o ≤ text.length ∧ lineOf text o = i + 1 ∧ columnOf text o = k + 1 := by
  rw [isAt_iff]
  refine and_congr_right fun ho => ?_
  have hclamp : Buffer.clamp text o = o := by
    rw [Buffer.clamp, Int.toNat_natCast, Nat.min_eq_left ho]
  have hstart : (trimEnd (· ≠ '\n') (text.take o)).length ≤ o := by
    rw [trimEnd, List.length_reverse]
    refine (List.dropWhile_sublist _).length_le.trans ?_
    rw [List.length_reverse, List.length_take]
    exact Nat.min_le_left _ _
  simp only [lineOf, columnOf, Buffer.lineStart, hclamp]
  omega

theorem exists_isAt_lineOf (h : o ≤ text.length) :
    ∃ i k, IsAt text i k o ∧ lineOf text o = i + 1 ∧ columnOf text o = k + 1 := by
  obtain ⟨i, k, hat⟩ := exists_isAt h
  exact ⟨i, k, hat, (isAt_iff_lineOf.1 hat).2⟩

/-! ### Lines and columns -/

/-- A place in a line means its offset. -/
theorem ofLineColumn_of_isAt {i k : Nat} (h : IsAt text i k o) :
    ofLineColumn text (i + 1 : Int) (k + 1 : Int) = .ok o := by
  obtain ⟨line, hline, hk, rfl⟩ := h
  have hi : ¬ ((i : Int) + 1 < 1) := by omega
  have hcolumn : (1 : Int) ≤ k + 1 ∧ (k : Int) + 1 ≤ line.length + 1 := by omega
  simp only [ofLineColumn, if_neg hi, Int.add_sub_cancel, Int.toNat_natCast, hline, hcolumn.1, hcolumn.2, decide_true,
    Bool.and_self, if_true]
  rfl

/-- A line and a column are a place in a line, or one of them is refused. -/
theorem ofLineColumn_cases (text : Text) (line column : Int) :
    (∃ i k o : Nat, line = i + 1 ∧ column = k + 1 ∧ IsAt text i k o) ∨
    ofLineColumn text line column = .error (.lineOutside line text.lines.length) ∨
    ofLineColumn text line column = .error (.columnOutside column line) := by
  by_cases hline : line < 1
  · refine Or.inr (Or.inl ?_)
    simp only [ofLineColumn, if_pos hline]
  · obtain ⟨i, rfl⟩ := Int.le.dest (Int.not_lt.1 hline)
    have hi : ¬ (1 + (i : Int) < 1) := by omega
    have hindex : (1 + (i : Int) - 1).toNat = i := by omega
    simp only [ofLineColumn, if_neg hi, hindex]
    cases hfound : text.lines[i]? with
    | none => exact Or.inr (Or.inl rfl)
    | some current =>
      by_cases hcolumn : 1 ≤ column ∧ column ≤ current.length + 1
      · obtain ⟨k, rfl⟩ := Int.le.dest hcolumn.1
        exact Or.inl ⟨i, k, _, by omega, by omega, current, hfound, by omega, rfl⟩
      · exact Or.inr (Or.inr (if_neg (by simpa using hcolumn)))

theorem ofLineColumn_eq_ok_iff {line column : Int} : ofLineColumn text line column = .ok o ↔
    o ≤ text.length ∧ line = lineOf text o ∧ column = columnOf text o := by
  constructor
  · intro h
    rcases ofLineColumn_cases text line column with ⟨i, k, o', rfl, rfl, hat⟩ | hrefused | hrefused
    · obtain rfl := Except.ok.inj ((ofLineColumn_of_isAt hat).symm.trans h)
      obtain ⟨ho, hline, hcolumn⟩ := isAt_iff_lineOf.1 hat
      exact ⟨ho, by omega, by omega⟩
    · cases hrefused.symm.trans h
    · cases hrefused.symm.trans h
  · rintro ⟨ho, rfl, rfl⟩
    obtain ⟨i, k, hat, hline, hcolumn⟩ := exists_isAt_lineOf ho
    rw [hline, hcolumn]
    exact ofLineColumn_of_isAt hat

theorem ofOffset_eq_ok_iff {offset : Int} : ofOffset text offset = .ok o ↔ o ≤ text.length ∧ offset = o := by
  rw [ofOffset]
  split
  · next h =>
    simp only [Bool.and_eq_true, decide_eq_true_eq] at h
    rw [Except.ok.injEq]
    omega
  · next h =>
    simp only [Bool.and_eq_true, decide_eq_true_eq] at h
    refine iff_of_false nofun ?_
    omega

/-! ### Positions as texts -/

section

variable {position first second : Text}

theorem parse_of_cut? (text : Text) {line column : Int} (hcut : position.strip.cut? ':' = some (first, second))
    (hfirst : readNumber first = .ok line) (hsecond : readNumber second = .ok column) :
    parse text position = ofLineColumn text line column := by
  simp only [parse, hcut, hfirst, hsecond]
  rfl

theorem exists_of_parse (h : parse text position = .ok o) :
    (position.strip.cut? ':' = none ∧ ∃ offset, readNumber position.strip = .ok offset ∧ ofOffset text offset = .ok o) ∨
    ∃ first second line column, position.strip.cut? ':' = some (first, second) ∧ readNumber first = .ok line ∧
      readNumber second = .ok column ∧ ofLineColumn text line column = .ok o := by
  unfold parse at h
  dsimp only at h
  split at h
  · next hcut =>
    cases hoffset : readNumber position.strip with
    | error e => rw [hoffset] at h; cases h
    | ok offset => rw [hoffset] at h; exact Or.inl ⟨hcut, offset, rfl, h⟩
  · next first second hcut =>
    cases hfirst : readNumber first with
    | error e => rw [hfirst] at h; cases h
    | ok line =>
      cases hsecond : readNumber second with
      | error e => rw [hfirst, hsecond] at h; cases h
      | ok column =>
        rw [hfirst, hsecond] at h
        exact Or.inr ⟨first, second, line, column, hcut, hfirst, hsecond, h⟩

end

/-! ### Numerals -/

theorem not_isBlank_of_isDigit {c : CodePoint} (h : c.isDigit = true) : isBlank c = false := by
  have hbounds := CodePoint.bounds_of_isDigit h
  cases hblank : isBlank c with
  | false => rfl
  | true =>
    rcases isBlank_cases hblank with hlow | hwide
    · omega
    · have hle := le_of_mem_wideBlanks _ hwide
      omega

theorem colon_not_mem_ofNat (n : Nat) : CodePoint.char ':' ∉ Text.ofNat n := fun h =>
  absurd (isDigit_of_mem_ofNat h) (by decide)

theorem readNumber_ofNat {n : Nat} (h : (Text.ofNat n).length ≤ Integer.maxDigits) :
    readNumber (Text.ofNat n) = .ok (n : Int) := by
  rw [readNumber, Integer.read_ofNat h]
  rfl

/-- The numeral of an offset is read back. -/
theorem parse_ofNat (ho : o ≤ text.length) (h : (Text.ofNat o).length ≤ Integer.maxDigits) :
    parse text (Text.ofNat o) = .ok o := by
  have hstrip : (Text.ofNat o).strip = Text.ofNat o :=
    strip_eq_self fun c hc => not_isBlank_of_isDigit (isDigit_of_mem_ofNat hc)
  have hoffset : ofOffset text (o : Int) = .ok o := ofOffset_eq_ok_iff.2 ⟨ho, rfl⟩
  simp only [parse, hstrip, cut?_of_not_mem (colon_not_mem_ofNat o), readNumber_ofNat h]
  exact hoffset

/-- The numerals of a line and a column are read back. -/
theorem parse_ofNat_ofNat (text : Text) {line column : Nat} (hline : (Text.ofNat line).length ≤ Integer.maxDigits)
    (hcolumn : (Text.ofNat column).length ≤ Integer.maxDigits) :
    parse text (Text.ofNat line ++ CodePoint.char ':' :: Text.ofNat column) = ofLineColumn text line column := by
  have hstrip : (Text.ofNat line ++ CodePoint.char ':' :: Text.ofNat column).strip =
      Text.ofNat line ++ CodePoint.char ':' :: Text.ofNat column := by
    refine strip_eq_self fun c hc => ?_
    rcases List.mem_append.1 hc with hc | hc
    · exact not_isBlank_of_isDigit (isDigit_of_mem_ofNat hc)
    · rcases List.mem_cons.1 hc with rfl | hc
      · decide
      · exact not_isBlank_of_isDigit (isDigit_of_mem_ofNat hc)
  refine parse_of_cut? text ?_ (readNumber_ofNat hline) (readNumber_ofNat hcolumn)
  rw [hstrip, cut?_append_cons _ (colon_not_mem_ofNat line)]

/-- **Positions are in bijection with the offsets of the text.** The numeral of an offset means the offset, and so do the
numerals of its line and its column with a colon between them, as long as no numeral is too long to be converted. A
position that is accepted means an offset of the text: the integer that is given, or else the offset whose line and
column are the two integers. Two integers that are the line and the column of no offset are refused, because the line
lies outside the text or the column outside the line. -/
theorem parse_bijective (text : Text) :
    (∀ o ≤ text.length,
      ((Text.ofNat o).length ≤ Integer.maxDigits → parse text (Text.ofNat o) = .ok o) ∧
      ((Text.ofNat (lineOf text o)).length ≤ Integer.maxDigits →
        (Text.ofNat (columnOf text o)).length ≤ Integer.maxDigits →
        parse text (Text.ofNat (lineOf text o) ++ CodePoint.char ':' :: Text.ofNat (columnOf text o)) = .ok o)) ∧
    (∀ position o, parse text position = .ok o → o ≤ text.length ∧
      (position.strip.cut? ':' = none → readNumber position.strip = .ok (o : Int)) ∧
      ∀ first second, position.strip.cut? ':' = some (first, second) →
        readNumber first = .ok (lineOf text o : Int) ∧ readNumber second = .ok (columnOf text o : Int)) ∧
    ∀ position first second line column, position.strip.cut? ':' = some (first, second) →
      readNumber first = .ok line → readNumber second = .ok column →
      (¬ ∃ o ≤ text.length, line = lineOf text o ∧ column = columnOf text o) →
      parse text position = .error (.lineOutside line text.lines.length) ∨
        parse text position = .error (.columnOutside column line) := by
  refine ⟨fun o ho => ⟨parse_ofNat ho, fun hline hcolumn => ?_⟩, fun position o h => ?_,
    fun position first second line column hcut hfirst hsecond hnone => ?_⟩
  · rw [parse_ofNat_ofNat text hline hcolumn]
    exact ofLineColumn_eq_ok_iff.2 ⟨ho, rfl, rfl⟩
  · rcases exists_of_parse h with ⟨hcut, offset, hread, hoffset⟩ |
      ⟨first, second, line, column, hcut, hfirst, hsecond, hpair⟩
    · obtain ⟨ho, rfl⟩ := ofOffset_eq_ok_iff.1 hoffset
      refine ⟨ho, fun _ => hread, fun first second hpair => ?_⟩
      rw [hcut] at hpair
      cases hpair
    · obtain ⟨ho, rfl, rfl⟩ := ofLineColumn_eq_ok_iff.1 hpair
      refine ⟨ho, fun hnone => ?_, fun first' second' hcut' => ?_⟩
      · rw [hcut] at hnone
        cases hnone
      · obtain ⟨rfl, rfl⟩ := Prod.mk.inj (Option.some.inj (hcut.symm.trans hcut'))
        exact ⟨hfirst, hsecond⟩
  · rw [parse_of_cut? text hcut hfirst hsecond]
    rcases ofLineColumn_cases text line column with ⟨i, k, o, rfl, rfl, hat⟩ | hrefused
    · obtain ⟨ho, hline, hcolumn⟩ := isAt_iff_lineOf.1 hat
      exact absurd ⟨o, ho, by omega, by omega⟩ hnone
    · exact hrefused

/-- The end of the text is on its last line, behind an empty one; digits of another script denote it, too; and the empty
line has no second column. -/
theorem parse_bijective_of_empty_line :
    let text := Text.lit "ab\n\ncd"
    lineOf text 6 = 3 ∧ columnOf text 6 = 3 ∧ parse text (Text.lit "3:3") = .ok 6 ∧ parse text (Text.lit "6") = .ok 6 ∧
      parse text (Text.lit " +3:\u0663 ") = .ok 6 ∧ readNumber (Text.lit "\u0663") = .ok (columnOf text 6 : Int) ∧
      (parse text (Text.lit "2:2") = .error (.lineOutside 2 3) ∨
        parse text (Text.lit "2:2") = .error (.columnOutside 2 2)) := by
  intro text
  obtain ⟨hback, haccepted, hrefused⟩ := parse_bijective text
  have hline : Text.ofNat (lineOf text 6) = Text.lit "3" := by decide +kernel
  have hcolumn : Text.ofNat (columnOf text 6) = Text.lit "3" := by decide +kernel
  have hoffset : Text.ofNat 6 = Text.lit "6" := by decide +kernel
  have hend : 6 ≤ text.length := by decide
  have hpair := (hback 6 hend).2 (by rw [hline]; decide) (by rw [hcolumn]; decide)
  have hsingle := (hback 6 hend).1 (by rw [hoffset]; decide)
  rw [hline, hcolumn] at hpair
  rw [hoffset] at hsingle
  have hmeans : parse text (Text.lit " +3:\u0663 ") = .ok 6 := by decide +kernel
  have hcut : (Text.lit " +3:\u0663 ").strip.cut? ':' = some (Text.lit "+3", Text.lit "\u0663") := by decide +kernel
  have hcut' : (Text.lit "2:2").strip.cut? ':' = some (Text.lit "2", Text.lit "2") := by decide +kernel
  have htwo : readNumber (Text.lit "2") = .ok 2 := by decide +kernel
  have hnone : ¬ ∃ o ≤ text.length, (2 : Int) = lineOf text o ∧ (2 : Int) = columnOf text o := by decide +kernel
  exact ⟨by decide +kernel, by decide +kernel, hpair, hsingle, hmeans, ((haccepted _ 6 hmeans).2.2 _ _ hcut).2,
    hrefused _ _ _ 2 2 hcut' htwo htwo hnone⟩

end SourceJump.Position
