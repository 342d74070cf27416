import SourceJump.Proofs.Buffer.Runs

/-!
# The word under the cursor

A word of a text is a longest run of name characters. The name under the cursor is the word that the offset touches, be
it inside the word, before its first character or right behind its last one. No offset touches two words, so that there
is nothing to choose; where it touches none, the name is empty (`wordAt_is_touched_word`).

The name is also what two scans find that start at the offset and take one character after the other. A cursor right
behind a word has to be moved onto the last character of the word first, because the scans begin on a name character
(`scannedWordAt_eq`).
-/

namespace SourceJump.Buffer

open Text

variable {text : Text} {offset : Int} {s e : Nat}

/-- A longest run of name characters, not empty. -/
structure IsWord (text : Text) (s e : Nat) : Prop extends IsLongestRun isNameChar text s e where
  lt : s < e

/-- The offset, or the end of the text that is next to it, lies between the two places, both of them included. -/
def Touches (text : Text) (offset : Int) (s e : Nat) : Prop :=
  s ≤ max 0 (min offset text.length) ∧ max 0 (min offset text.length) ≤ e

theorem touches_iff : Touches text offset s e ↔ s ≤ clamp text offset ∧ clamp text offset ≤ e := by
  rw [Touches, clamp]
  omega

theorem IsWord.slice_ne_nil (h : IsWord text s e) : slice text s e ≠ [] := by
  have hlt := h.lt
  rw [slice_of_isRun h.toIsRun]
  intro hnil
  have hlength := congrArg List.length hnil
  rw [List.length_drop, List.length_take_of_le h.le_length, List.length_nil] at hlength
  omega

/-- The name under the cursor is the longest run of name characters that the offset touches, if only an empty one. -/
theorem wordAt_of_isLongestRun (h : IsLongestRun isNameChar text s e) (ht : Touches text offset s e) :
    wordAt text offset = slice text s e := by
  obtain ⟨hs, he⟩ := touches_iff.1 ht
  rw [slice_of_isRun h.toIsRun]
  exact h.runAround_eq hs he

/-- The name under the cursor is a word that the offset touches, unless it is empty. -/
theorem exists_isWord_of_wordAt_ne_nil (h : wordAt text offset ≠ []) :
    ∃ s e, IsWord text s e ∧ Touches text offset s e := by
  obtain ⟨hlongest, hback, hon⟩ := isLongestRun_scan isNameChar (clamp_le text offset)
  have htouches := touches_iff.2 ⟨hback, hon⟩
  refine ⟨_, _, ⟨hlongest, ?_⟩, htouches⟩
  by_contra hempty
  apply h
  rw [wordAt_of_isLongestRun hlongest htouches, slice_of_isRun hlongest.toIsRun, List.drop_eq_nil_iff, List.length_take]
  omega

/-! ### The word by scans -/

/-- The word at an offset as two scans find it. Right behind a word they start on its last character. -/
def scannedWordAt (text : Text) (offset : Int) : Text :=
  let o := clamp text offset
  let o := if !holdsAt isNameChar text o && holdsAt isNameChar text ((o : Int) - 1) then o - 1 else o
  if holdsAt isNameChar text o then slice text (scanBack isNameChar text o) (scanOn isNameChar text o) else []

/-- From a name character the scans find the word it is in, also when the cursor was moved back onto it. -/
theorem slice_scan_eq_wordAt {o : Nat} (h : holdsAt isNameChar text o = true) (hle : o ≤ clamp text offset)
    (hnext : clamp text offset ≤ o + 1) :
    slice text (scanBack isNameChar text o) (scanOn isNameChar text o) = wordAt text offset := by
  have ho := lt_length_of_holdsAt h
  obtain ⟨hlongest, hback, hon⟩ := isLongestRun_scan isNameChar ho.le
  have hbehind := (isLongestRun_iff.1 hlongest).2.2
  have hlt : o < scanOn isNameChar text o := by
    refine lt_of_le_of_ne hon fun heq => ?_
    rw [← heq, h] at hbehind
    cases hbehind
  exact (wordAt_of_isLongestRun hlongest (touches_iff.2 ⟨by omega, by omega⟩)).symm

theorem scannedWordAt_eq (text : Text) (offset : Int) : scannedWordAt text offset = wordAt text offset := by
  unfold scannedWordAt
  dsimp only
  cases hat : holdsAt isNameChar text (clamp text offset) with
  | true =>
    rw [Bool.not_true, Bool.false_and, if_neg Bool.false_ne_true, if_pos hat]
    exact slice_scan_eq_wordAt hat le_rfl (Nat.le_succ _)
  | false =>
    cases hbefore : holdsAt isNameChar text ((clamp text offset : Int) - 1) with
    | true =>
      have hpos := pos_of_holdsAt hbefore
      have hlast : holdsAt isNameChar text ((clamp text offset - 1 : Nat) : Int) = true := by
        rw [Int.natCast_sub hpos]
        exact hbefore
      rw [Bool.not_false, Bool.true_and, if_pos rfl, if_pos hlast]
      exact slice_scan_eq_wordAt hlast (Nat.sub_le _ _) (by omega)
    | false =>
      -- The run around the offset is empty: there is a name character on neither side.
      have hrun : IsRun isNameChar text (clamp text offset) (clamp text offset) := isRun_self (clamp_le text offset)
      have hempty := isLongestRun_iff.2 ⟨hrun, hbefore, hat⟩
      rw [Bool.and_false, if_neg Bool.false_ne_true, hat, if_neg Bool.false_ne_true,
        wordAt_of_isLongestRun hempty (touches_iff.2 ⟨le_rfl, le_rfl⟩), slice_of_isRun hrun, List.drop_take_self]

/-- **The name under the cursor is the word that the offset touches.** There is one such word at most, and the whole of
it is found from every offset between its start and the place right behind it. The name is empty exactly when the offset
touches no word. Two scans that take one character after the other find the same name. -/
theorem wordAt_is_touched_word (text : Text) (offset : Int) :
    (∀ s e, IsWord text s e → Touches text offset s e → wordAt text offset = slice text s e ∧
      ∀ s' e', IsWord text s' e' → Touches text offset s' e' → s' = s ∧ e' = e) ∧
    (wordAt text offset = [] ↔ ∀ s e, IsWord text s e → ¬ Touches text offset s e) ∧
    (∀ s e, IsWord text s e → ∀ o : Int, s ≤ o → o ≤ e → wordAt text o = slice text s e) ∧
    scannedWordAt text offset = wordAt text offset := by
  refine ⟨fun s e hword ht => ⟨wordAt_of_isLongestRun hword.toIsLongestRun ht, fun s' e' hword' ht' => ?_⟩,
    ⟨fun hnil s e hword ht => ?_, fun hnone => ?_⟩, fun s e hword o hs he => ?_, scannedWordAt_eq text offset⟩
  · obtain ⟨hs, he⟩ := touches_iff.1 ht
    obtain ⟨hs', he'⟩ := touches_iff.1 ht'
    exact hword.toIsLongestRun.unique hword'.toIsLongestRun hs he hs' he'
  · apply hword.slice_ne_nil
    rw [← wordAt_of_isLongestRun hword.toIsLongestRun ht, hnil]
  · by_contra hne
    obtain ⟨s, e, hword, ht⟩ := exists_isWord_of_wordAt_ne_nil hne
    exact hnone s e hword ht
  · have hlength := hword.le_length
    exact wordAt_of_isLongestRun hword.toIsLongestRun ⟨by omega, by omega⟩

/-- Right behind a word with a letter beyond the basic Latin ones, the whole word is found; and an offset before the
text touches the word that it begins with. -/
theorem wordAt_is_touched_word_behind_last :
    let text := Text.lit "a+\u00e9$9 ;"
    IsWord text 2 5 ∧ IsWord text 0 1 ∧ Touches text 5 2 5 ∧ Touches text (-3) 0 1 ∧
      wordAt text 5 = Text.lit "\u00e9$9" ∧ wordAt text (-3) = Text.lit "a" ∧ wordAt text 2 = Text.lit "\u00e9$9" := by
  intro text
  have hsecond : IsWord text 2 5 := by
    refine ⟨isLongestRun_iff.2 ⟨⟨by decide, by decide, fun i hlo hhi => ?_⟩, by decide +kernel, by decide +kernel⟩,
      by decide⟩
    have hall : ∀ i : Nat, i < 5 → 2 ≤ i → holdsAt isNameChar text i = true := by decide +kernel
    exact hall i hhi hlo
  have hfirst : IsWord text 0 1 := by
    refine ⟨isLongestRun_iff.2 ⟨⟨by decide, by decide, fun i hlo hhi => ?_⟩, by decide +kernel, by decide +kernel⟩,
      by decide⟩
    have hall : ∀ i : Nat, i < 1 → holdsAt isNameChar text i = true := by decide +kernel
    exact hall i hhi
  have hbehind : Touches text 5 2 5 := by rw [touches_iff]; decide
  have hbefore : Touches text (-3) 0 1 := by rw [touches_iff]; decide
  have hword : slice text (2 : Nat) (5 : Nat) = Text.lit "\u00e9$9" := by decide
  have hletter : slice text (0 : Nat) (1 : Nat) = Text.lit "a" := by decide
  exact ⟨hsecond, hfirst, hbehind, hbefore, (((wordAt_is_touched_word text 5).1 2 5 hsecond hbehind).1).trans hword,
    (((wordAt_is_touched_word text (-3)).1 0 1 hfirst hbefore).1).trans hletter,
    ((wordAt_is_touched_word text 0).2.2.1 2 5 hsecond 2 (by decide) (by decide)).trans hword⟩

end SourceJump.Buffer
