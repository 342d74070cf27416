import SourceJump.Proofs.Buffer.Runs
import SourceJump.Proofs.Position

/-!
# The line of a position

A line number counts the pieces between the line feeds of the text, and the line of the cursor is what stands around an
offset up to the next line feed on either side. The two mean the same line: the offset of a line and a column lies in
the line with that number, whatever the column, so that the line of the cursor is this piece of the text but for the
carriage returns at its end. Any other offset belongs to the line whose number is one more than the line feeds before it
(`lineAt_is_line_of_position`).
-/

namespace SourceJump.Position

open Text Buffer

variable {text : Text} {o : Nat}

/-- The line of the cursor is the piece of the text with as many line feeds before it as there are before the offset. -/
theorem exists_line_of_lineAt (text : Text) (offset : Int) :
    ∃ line, text.lines[(text.take (clamp text offset)).count (CodePoint.char '\n')]? = some line ∧
      lineAt text offset = line.trimEnd (· = '\r') := by
  obtain ⟨i, k, hat⟩ := exists_isAt (clamp_le text offset)
  obtain ⟨-, hcount, -⟩ := isAt_iff.1 hat
  have ⟨line, hline, _, _⟩ := hat
  exact ⟨line, by rw [hcount, hline], lineAt_of_isAt hat hline⟩

/-- The line number of an accepted position is that of the line that holds its offset. -/
theorem line_eq_of_parse {position first second : Text} {line : Int}
    (hcut : position.strip.cut? ':' = some (first, second)) (hline : readNumber first = .ok line)
    (h : parse text position = .ok o) : o ≤ text.length ∧ line = lineOf text o := by
  rcases exists_of_parse h with ⟨hnone, -⟩ | ⟨first', second', line', column, hcut', hfirst, -, hpair⟩
  · rw [hcut] at hnone
    cases hnone
  · obtain ⟨rfl, -⟩ := Prod.mk.inj (Option.some.inj (hcut.symm.trans hcut'))
    obtain rfl := Except.ok.inj (hline.symm.trans hfirst)
    obtain ⟨ho, hnumber, -⟩ := ofLineColumn_eq_ok_iff.1 hpair
    exact ⟨ho, hnumber⟩

/-- Every column of every line is a position, from the first character to the place behind the last one. -/
theorem exists_parse_of_lines {line : Text} {i k : Nat} (hline : text.lines[i]? = some line) (hk : k ≤ line.length)
    (hnumber : (Text.ofNat (i + 1)).length ≤ Integer.maxDigits)
    (hcolumn : (Text.ofNat (k + 1)).length ≤ Integer.maxDigits) :
    ∃ o, parse text (Text.ofNat (i + 1) ++ CodePoint.char ':' :: Text.ofNat (k + 1)) = .ok o ∧
      lineAt text o = line.trimEnd (· = '\r') := by
  have hat : IsAt text i k (spanOf (text.lines.take i) + k) := ⟨line, hline, hk, rfl⟩
  have hwithin := (isAt_iff.1 hat).1
  refine ⟨_, ?_, lineAt_of_isAt (by rwa [clamp_natCast hwithin]) hline⟩
  rw [parse_ofNat_ofNat text hnumber hcolumn]
  push_cast
  exact ofLineColumn_of_isAt hat

/-- The line of the cursor is found by going back and on from the offset to the nearest line feeds. -/
theorem lineAt_eq_scan (text : Text) (offset : Int) : lineAt text offset =
    (slice text (scanBack (· ≠ '\n') text (clamp text offset)) (scanOn (· ≠ '\n') text (clamp text offset))).trimEnd
      (· = '\r') := by
  have ho := clamp_le text offset
  rw [slice_of_isRun (isLongestRun_scan (· ≠ '\n') ho).1.toIsRun, ← runAround_eq_scan _ ho]
  rfl

/-- **A position and its offset mean the same line.** Where a line and a column are accepted as a position, the line of
the cursor at its offset is the piece of the text with that number, without the carriage returns at its end; and every
column of every line is such a position, also the one behind the last character and the only one of an empty last line.
At any offset the line of the cursor is the piece with one more than the number of line feeds before the offset, moved
into the text; it is found by going back and on from there to the nearest line feeds. -/
theorem lineAt_is_line_of_position (text : Text) :
    (∀ position first second line o, position.strip.cut? ':' = some (first, second) → readNumber first = .ok line →
      parse text position = .ok o →
      ∃ piece, 1 ≤ line ∧ text.lines[(line - 1).toNat]? = some piece ∧ lineAt text o = piece.trimEnd (· = '\r')) ∧
    (∀ piece i k, text.lines[i]? = some piece → k ≤ piece.length →
      (Text.ofNat (i + 1)).length ≤ Integer.maxDigits → (Text.ofNat (k + 1)).length ≤ Integer.maxDigits →
      ∃ o, parse text (Text.ofNat (i + 1) ++ CodePoint.char ':' :: Text.ofNat (k + 1)) = .ok o ∧
        lineAt text o = piece.trimEnd (· = '\r')) ∧
    ∀ offset : Int, ∃ o : Nat, o = max 0 (min offset text.length) ∧
      (∃ piece, text.lines[(text.take o).count (CodePoint.char '\n')]? = some piece ∧
        lineAt text offset = piece.trimEnd (· = '\r')) ∧
      lineAt text offset =
        (slice text (scanBack (· ≠ '\n') text o) (scanOn (· ≠ '\n') text o)).trimEnd (· = '\r') := by
  refine ⟨fun position first second line o hcut hline h => ?_,
    fun piece i k hpiece hk hnumber hcolumn => exists_parse_of_lines hpiece hk hnumber hcolumn, fun offset => ?_⟩
  · obtain ⟨ho, rfl⟩ := line_eq_of_parse hcut hline h
    obtain ⟨piece, hpiece, hat⟩ := exists_line_of_lineAt text o
    rw [clamp_natCast ho] at hpiece
    have hindex : ((lineOf text o : Int) - 1).toNat = (text.take o).count (CodePoint.char '\n') := by
      rw [lineOf]
      omega
    exact ⟨piece, by rw [lineOf]; omega, by rw [hindex, hpiece], hat⟩
  · exact ⟨clamp text offset, by rw [clamp]; omega, exists_line_of_lineAt text offset, lineAt_eq_scan text offset⟩

/-- The column behind the carriage returns of a line, and the empty line behind the last line feed. -/
theorem lineAt_is_line_of_position_at_ends :
    let text := Text.lit "ab\r\r\n\ncd\n"
    parse text (Text.lit " 1:5") = .ok 4 ∧ lineAt text (4 : Nat) = Text.lit "ab" ∧ parse text (Text.lit "4:1") = .ok 9 ∧
      lineAt text (9 : Nat) = [] := by
  intro text
  obtain ⟨hposition, hcolumns, -⟩ := lineAt_is_line_of_position text
  have hfirst : parse text (Text.lit " 1:5") = .ok 4 := by decide +kernel
  have hcut : (Text.lit " 1:5").strip.cut? ':' = some (Text.lit "1", Text.lit "5") := by decide +kernel
  have hone : readNumber (Text.lit "1") = .ok 1 := by decide +kernel
  obtain ⟨piece, -, hpiece, hline⟩ := hposition _ _ _ 1 4 hcut hone hfirst
  have hzero : text.lines[0]? = some (Text.lit "ab\r\r") := by decide
  obtain rfl : Text.lit "ab\r\r" = piece := Option.some.inj (hzero.symm.trans hpiece)
  have hlast : text.lines[3]? = some [] := by decide
  have hfour : Text.ofNat 4 = Text.lit "4" := by decide +kernel
  have hdigit : Text.ofNat 1 = Text.lit "1" := by decide +kernel
  obtain ⟨o, ho, hempty⟩ := hcolumns [] 3 0 hlast (Nat.zero_le _) (by rw [hfour]; decide) (by rw [hdigit]; decide)
  rw [hfour, hdigit] at ho
  have hnine : parse text (Text.lit "4:1") = .ok 9 := by decide +kernel
  obtain rfl := Except.ok.inj (hnine.symm.trans ho)
  exact ⟨hfirst, hline, hnine, hempty⟩

end SourceJump.Position
