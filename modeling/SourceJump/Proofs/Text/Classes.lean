import SourceJump.Text.Classes
import Mathlib.Data.List.Basic
import Mathlib.Data.List.TakeWhile

/-!
# The classes of characters exclude each other

A blank is no character of a dotted name, so that a run of blanks and a name that follows it are cut
apart in one way only. Below U+0080 this is arithmetic; the blanks beyond it are looked up in the
table of word characters.
-/

namespace SourceJump

/-- The numbers of the blanks beyond U+007F. -/
def wideBlanks : List Nat :=
  [0x85, 0xa0, 0x1680, 0x2000, 0x2001, 0x2002, 0x2003, 0x2004, 0x2005, 0x2006, 0x2007, 0x2008, 0x2009, 0x200a,
    0x2028, 0x2029, 0x202f, 0x205f, 0x3000]

theorem not_word_of_wideBlanks : ∀ n ∈ wideBlanks,
    (CodePointSet.countUpTo wordSet.changes n 32 0 wordSet.changes.size % 2 == 1) = false := by
  decide +kernel

theorem isBlank_cases {c : CodePoint} (h : isBlank c = true) : c.toNat ≤ 0x20 ∨ c.toNat ∈ wideBlanks := by
  simp only [isBlank, wideBlanks, Bool.or_eq_true, Bool.and_eq_true, decide_eq_true_eq, beq_iff_eq, List.mem_cons,
    List.not_mem_nil, or_false] at h ⊢
  omega

theorem le_of_mem_wideBlanks : ∀ n ∈ wideBlanks, 0x80 ≤ n := by decide

theorem CodePoint.isAlphanum_eq_false {c : CodePoint} (h : c.toNat ≤ 0x20) : c.isAlphanum = false := by
  cases c with
  | half place => rfl
  | char d =>
    change d.toNat ≤ 0x20 at h
    change d.isAlphanum = false
    have hall : ∀ n < 0x21, (Char.ofNat n).isAlphanum = false := by decide
    rw [← Char.ofNat_toNat d]
    exact hall _ (by omega)

theorem not_isWordChar_of_isBlank {c : CodePoint} (h : isBlank c = true) : isWordChar c = false := by
  unfold isWordChar
  rcases isBlank_cases h with hlow | hwide
  · have hne : c ≠ '_' := by rintro rfl; revert hlow; decide
    rw [if_pos (by omega), CodePoint.isAlphanum_eq_false hlow, Bool.false_or]
    exact beq_eq_false_iff_ne.2 hne
  · have := le_of_mem_wideBlanks _ hwide
    rw [if_neg (by omega)]
    exact not_word_of_wideBlanks _ hwide

/-- No blank is part of a dotted name. -/
theorem not_isDottedChar_of_isBlank {c : CodePoint} (h : isBlank c = true) : isDottedChar c = false := by
  have hdollar : c ≠ '$' := by rintro rfl; revert h; decide
  have hdot : c ≠ '.' := by rintro rfl; revert h; decide
  simp [isDottedChar, isNameChar, not_isWordChar_of_isBlank h, hdollar, hdot]

theorem not_isBlank_of_isDottedChar {c : CodePoint} (h : isDottedChar c = true) : isBlank c = false := by
  cases hb : isBlank c with
  | false => rfl
  | true => rw [not_isDottedChar_of_isBlank hb] at h; exact absurd h (by simp)

theorem isDottedChar_of_isNameChar {c : CodePoint} (h : isNameChar c = true) : isDottedChar c = true := by
  rw [isDottedChar, h, Bool.true_or]

theorem not_isNameChar_of_isBlank {c : CodePoint} (h : isBlank c = true) : isNameChar c = false := by
  cases hchar : isNameChar c with
  | false => rfl
  | true =>
    have hdotted := isDottedChar_of_isNameChar hchar
    rw [not_isDottedChar_of_isBlank h] at hdotted
    exact absurd hdotted (by decide)

/-- A line feed is a blank. -/
theorem isBlank_newline : isBlank '\n' = true := by decide

theorem ne_newline_of_not_isBlank {c : CodePoint} (h : isBlank c = false) : c ≠ '\n' := by
  rintro rfl
  rw [isBlank_newline] at h
  exact absurd h (by simp)

/-! ### Runs -/

namespace Text

/-- A run at the front of a text that goes on with another character is its longest one. -/
theorem takeWhile_append_of_stop {p : CodePoint → Bool} {run rest : Text} (hrun : ∀ c ∈ run, p c = true)
    (hrest : ∀ c ∈ rest.head?, p c = false) : (run ++ rest).takeWhile p = run := by
  rw [List.takeWhile_append_of_pos hrun]
  cases rest with
  | nil => simp
  | cons c rest => rw [List.takeWhile_cons_of_neg (by simpa using hrest c rfl), List.append_nil]

theorem dropWhile_append_of_stop {p : CodePoint → Bool} {run rest : Text} (hrun : ∀ c ∈ run, p c = true)
    (hrest : ∀ c ∈ rest.head?, p c = false) : (run ++ rest).dropWhile p = rest := by
  rw [List.dropWhile_append_of_pos hrun]
  cases rest with
  | nil => rfl
  | cons c rest => exact List.dropWhile_cons_of_neg (by simpa using hrest c rfl)

/-- A text is cut at the first separator. -/
theorem cut?_append_cons {sep : CodePoint} {front : Text} (rest : Text) (h : sep ∉ front) :
    cut? sep (front ++ sep :: rest) = some (front, rest) := by
  have hfront : ∀ c ∈ front, decide (c ≠ sep) = true := fun c hc => decide_eq_true fun heq => h (heq ▸ hc)
  have hstop : ∀ c ∈ (sep :: rest).head?, decide (c ≠ sep) = false := by simp
  rw [cut?, dropWhile_append_of_stop hfront hstop, takeWhile_append_of_stop hfront hstop]

theorem cut?_of_not_mem {sep : CodePoint} {t : Text} (h : sep ∉ t) : cut? sep t = none := by
  have hall : ∀ c ∈ t, decide (c ≠ sep) = true := fun c hc => decide_eq_true fun heq => h (heq ▸ hc)
  rw [cut?, List.dropWhile_eq_nil_iff.2 hall]

theorem take_length_takeWhile (p : CodePoint → Bool) (t : Text) : t.take (t.takeWhile p).length = t.takeWhile p :=
  (List.prefix_iff_eq_take.1 (List.takeWhile_prefix p)).symm

theorem drop_length_takeWhile (p : CodePoint → Bool) (t : Text) : t.drop (t.takeWhile p).length = t.dropWhile p := by
  have h : (t.takeWhile p ++ t.dropWhile p).drop (t.takeWhile p).length = t.dropWhile p := List.drop_left
  rwa [List.takeWhile_append_dropWhile] at h

/-- Behind a longest run something else stands. -/
theorem stop_dropWhile (p : CodePoint → Bool) (t : Text) : ∀ c ∈ (t.dropWhile p).head?, p c = false := by
  intro c hc
  have hnot := List.head?_dropWhile_not p t
  rw [hc] at hnot
  simpa using hnot

theorem stop_append {p : CodePoint → Bool} {s t : Text} (hs : ∀ c ∈ s.head?, p c = false)
    (ht : ∀ c ∈ t.head?, p c = false) : ∀ c ∈ (s ++ t).head?, p c = false := by
  intro c hc
  rw [List.head?_append] at hc
  rcases Option.or_eq_some_iff.1 hc with hc | ⟨-, hc⟩
  · exact hs c hc
  · exact ht c hc

theorem mem_dropWhile {p : CodePoint → Bool} {t : Text} {c : CodePoint} (hc : c ∈ t) (hp : p c = false) :
    c ∈ t.dropWhile p := by
  rw [← List.takeWhile_append_dropWhile (p := p) (l := t), List.mem_append] at hc
  refine hc.resolve_left fun h => ?_
  rw [List.mem_takeWhile_imp h] at hp
  cases hp

theorem dropWhile_eq_self {p : CodePoint → Bool} {t : Text} (h : ∀ c ∈ t, p c = false) : t.dropWhile p = t := by
  cases t with
  | nil => rfl
  | cons c t => exact List.dropWhile_cons_of_neg (by simp [h c List.mem_cons_self])

theorem strip_eq_self {t : Text} (h : ∀ c ∈ t, isBlank c = false) : t.strip = t := by
  have hback : ∀ c ∈ t.reverse, isBlank c = false := fun c hc => h c (List.mem_reverse.1 hc)
  rw [strip, trim, dropWhile_eq_self h, trimEnd, dropWhile_eq_self hback, List.reverse_reverse]

/-- Stripping takes blanks away and nothing else. -/
theorem mem_strip {t : Text} {c : CodePoint} (hc : c ∈ t) (hblank : isBlank c = false) : c ∈ t.strip := by
  rw [strip, trim, trimEnd, List.mem_reverse]
  exact mem_dropWhile (List.mem_reverse.2 (mem_dropWhile hc hblank)) hblank

theorem mem_of_mem_strip {t : Text} {c : CodePoint} (hc : c ∈ t.strip) : c ∈ t := by
  rw [strip, trim, trimEnd, List.mem_reverse] at hc
  exact (List.dropWhile_sublist _).mem (List.mem_reverse.1 ((List.dropWhile_sublist _).mem hc))

theorem lastRun_append_singleton (p : CodePoint → Bool) (t : Text) (c : CodePoint) :
    lastRun p (t ++ [c]) = if p c then lastRun p t ++ [c] else [] := by
  unfold lastRun
  rw [List.reverse_append, List.reverse_singleton, List.singleton_append]
  cases h : p c <;> simp [h]

end Text

/-- A text that begins with a run of dotted characters does not begin with a blank. -/
theorem head?_not_blank_of_run {t : Text} (h : t.takeWhile isDottedChar ≠ []) : ∀ c ∈ t.head?, isBlank c = false := by
  cases t with
  | nil => exact absurd rfl h
  | cons c t =>
    intro d hd
    obtain rfl : c = d := by simpa using hd
    cases hc : isDottedChar c with
    | true => exact not_isBlank_of_isDottedChar hc
    | false => exact absurd (List.takeWhile_cons_of_neg (by simp [hc])) h

end SourceJump
