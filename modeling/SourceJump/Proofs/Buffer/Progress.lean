import SourceJump.Proofs.Buffer.FirstReading

/-!
# When searching again and again gets on

Every find moves the point on, by one at least. That is enough to get past a match that covers something, and past
an empty one at the point. It is not enough to get past an empty match ahead of the point, which is found
again, nor past one at the end of the text, where every later search ends up. So a loop of searches stops exactly when
nothing is read at the end of the text (`exists_finds_iff`), and its finds follow one another exactly when
the point is behind the start of each (`Finds.pairwise_before_iff`). For a pattern that reads no empty text both
are so (`searches_walk_iff`).
-/

namespace SourceJump

/-- The first match ends at or before the start of the second, and they do not start at one place. -/
def Match.Before (m n : Match) : Prop := m.start < n.start ∧ m.stop ≤ n.start

/-- Wherever the pattern reads the text it reads at least one character. -/
def Pattern.NeverEmptyOn (p : Pattern) (text : Text) : Prop :=
  ∀ offset r, p.readFrom text offset = some r → r.rest.length < text.length - offset

namespace Buffer

variable {p : Pattern} {b b' : Buffer} {m : Match} {found : List (Match × Nat)}

/-! ### One search -/

theorem search_fst_eq_none_iff : (b.search p).1 = none ↔ p.search b.text b.point = none := by
  rw [search_fst]

theorem search_eq_some_iff : b.search p = (some m, b') ↔
    p.search b.text b.point = some m ∧ b' = { b with point := max m.stop (b.point + 1) } := by
  rw [Buffer.search]
  cases p.search b.text b.point with
  | none => simp
  | some n =>
    simp only [Prod.mk.injEq, Option.some.injEq]
    constructor
    · rintro ⟨rfl, rfl⟩
      exact ⟨rfl, rfl⟩
    · rintro ⟨rfl, rfl⟩
      exact ⟨rfl, rfl⟩

/-- A match lies in the text, at or behind the point from where it was searched. -/
theorem bounds_of_search (h : p.search b.text b.point = some m) :
    min b.point b.text.length ≤ m.start ∧ m.start ≤ m.stop ∧ m.stop ≤ b.text.length := by
  obtain ⟨r, hr, hstop, -, hle, hlength, -⟩ := Pattern.search_eq_some_iff.1 h
  have hrest := Pattern.length_rest_le_of_readFrom hr
  omega

/-- Where something can be read at the end of the text, every search finds something. -/
theorem search_ne_none_of_readFrom_length (h : p.readFrom b.text b.text.length ≠ none) :
    p.search b.text b.point ≠ none := by
  intro hnone
  exact h (Pattern.search_eq_none_iff.1 hnone _ (Nat.min_le_right _ _) (Nat.le_refl _))

/-! ### Whether the loop stops -/

theorem Finds.readFrom_length_eq_none (h : Finds p b found) : p.readFrom b.text b.text.length = none := by
  induction h with
  | stop hnone =>
    by_contra hend
    exact search_ne_none_of_readFrom_length hend (search_fst_eq_none_iff.1 hnone)
  | next hsearch _ ih =>
    obtain ⟨-, rfl⟩ := search_eq_some_iff.1 hsearch
    exact ih

/-- Each search moves the point on, and from the end of the text there is nothing to find. -/
theorem exists_finds_of_readFrom_length_eq_none (hend : p.readFrom b.text b.text.length = none) :
    ∃ found, Finds p b found ∧ found.length ≤ b.text.length - b.point := by
  induction hn : b.text.length - b.point using Nat.strong_induction_on generalizing b with
  | h n ih =>
    cases hsearch : p.search b.text b.point with
    | none => exact ⟨[], .stop (search_fst_eq_none_iff.2 hsearch), Nat.zero_le _⟩
    | some m =>
      have hinside : b.point < b.text.length := by
        by_contra hle
        obtain ⟨r, hr, -, -, hstart, hlength, -⟩ := Pattern.search_eq_some_iff.1 hsearch
        have hat : m.start = b.text.length := by omega
        rw [hat, hend] at hr
        cases hr
      obtain ⟨found, hfound, hlength⟩ := ih (b.text.length - max m.stop (b.point + 1)) (by omega)
        (b := { b with point := max m.stop (b.point + 1) }) hend rfl
      refine ⟨_, .next (search_eq_some_iff.2 ⟨hsearch, rfl⟩) hfound, ?_⟩
      rw [List.length_cons]
      omega

/-- The loop stops exactly when nothing can be read at the end of the text. -/
theorem exists_finds_iff : (∃ found, Finds p b found) ↔ p.readFrom b.text b.text.length = none := by
  constructor
  · rintro ⟨found, h⟩
    exact h.readFrom_length_eq_none
  · intro h
    obtain ⟨found, hfound, -⟩ := exists_finds_of_readFrom_length_eq_none h
    exact ⟨found, hfound⟩

/-! ### Whether the finds follow one another -/

theorem Finds.min_point_le_start (h : Finds p b found) :
    ∀ i ∈ found, min b.point b.text.length ≤ i.1.start := by
  induction h with
  | stop _ => simp
  | @next b b' m found hsearch _ ih =>
    obtain ⟨hfind, rfl⟩ := search_eq_some_iff.1 hsearch
    have hbounds := bounds_of_search hfind
    intro i hi
    rcases List.mem_cons.1 hi with rfl | hi
    · exact hbounds.1
    · have hlater := ih i hi
      simp only at hlater
      omega

/-- When the point is behind the start of each match, the matches follow one another. -/
theorem Finds.pairwise_before (h : Finds p b found) (hpoint : ∀ i ∈ found, i.1.start < i.2) :
    (found.map Prod.fst).Pairwise Match.Before := by
  induction h with
  | stop _ => exact List.Pairwise.nil
  | @next b b' m found hsearch hfound ih =>
    obtain ⟨hfind, rfl⟩ := search_eq_some_iff.1 hsearch
    have hbounds := bounds_of_search hfind
    have hbehind : m.start < max m.stop (b.point + 1) := hpoint _ List.mem_cons_self
    have hinside : m.start ≠ b.text.length := by
      intro hat
      obtain ⟨r, hr, -⟩ := Pattern.search_eq_some_iff.1 hfind
      rw [hat, hfound.readFrom_length_eq_none] at hr
      cases hr
    refine List.pairwise_cons.2 ⟨fun n hn => ?_, ih fun i hi => hpoint i (List.mem_cons_of_mem _ hi)⟩
    obtain ⟨i, hi, rfl⟩ := List.mem_map.1 hn
    have hlater := hfound.min_point_le_start i hi
    simp only at hlater
    exact ⟨show m.start < i.1.start by omega, show m.stop ≤ i.1.start by omega⟩

/-- A match that the point has not passed is found again. -/
theorem search_again_of_point_le_start (hfind : p.search b.text b.point = some m)
    (hle : max m.stop (b.point + 1) ≤ m.start) : p.search b.text (max m.stop (b.point + 1)) = some m := by
  obtain ⟨r, hr, hstop, hgroups, -, hlength, -⟩ := Pattern.search_eq_some_iff.1 hfind
  have hbounds := bounds_of_search hfind
  have hpoint : max m.stop (b.point + 1) = m.start := by omega
  rw [hpoint]
  exact Pattern.search_eq_some_iff.2 ⟨r, hr, hstop, hgroups, Nat.min_le_left _ _, hlength, fun i hi hlt => by omega⟩

/-- The matches follow one another exactly when the point is behind the start of each. -/
theorem Finds.pairwise_before_iff (h : Finds p b found) :
    (found.map Prod.fst).Pairwise Match.Before ↔ ∀ i ∈ found, i.1.start < i.2 := by
  refine ⟨fun hpairs => ?_, h.pairwise_before⟩
  induction h with
  | stop _ => simp
  | @next b b' m found hsearch hfound ih =>
    obtain ⟨hfind, rfl⟩ := search_eq_some_iff.1 hsearch
    obtain ⟨hfirst, hrest⟩ := List.pairwise_cons.1 hpairs
    intro i hi
    rcases List.mem_cons.1 hi with rfl | hi
    · by_contra hbehind
      have hagain := search_again_of_point_le_start hfind (Nat.le_of_not_lt hbehind)
      cases hfound with
      | stop hnone =>
        rw [search_fst_eq_none_iff.1 hnone] at hagain
        cases hagain
      | next hsearch' _ =>
        obtain ⟨hfind', -⟩ := search_eq_some_iff.1 hsearch'
        obtain rfl := Option.some.inj (hfind'.symm.trans hagain)
        exact absurd (hfirst _ List.mem_cons_self).1 (Nat.lt_irrefl _)
    · exact ih hrest i hi

/-- A pattern that reads no empty text leaves the point behind the start of each match. -/
theorem Finds.start_lt_point (h : Finds p b found) (hne : p.NeverEmptyOn b.text) :
    ∀ i ∈ found, i.1.start < i.2 := by
  induction h with
  | stop _ => simp
  | @next b b' m found hsearch _ ih =>
    obtain ⟨hfind, rfl⟩ := search_eq_some_iff.1 hsearch
    obtain ⟨r, hr, hstop, -⟩ := Pattern.search_eq_some_iff.1 hfind
    have hcovers := hne m.start r hr
    intro i hi
    rcases List.mem_cons.1 hi with rfl | hi
    · show m.start < max m.stop (b.point + 1)
      omega
    · exact ih hne i hi

/-- **Searching again and again from the start walks through the matches, but not for every pattern.** The loop stops
exactly when nothing can be read at the end of the text. When it stops, its matches follow one another, none
found twice, exactly when the point is behind the start of each of them, which fails for an empty match ahead of
the point. A pattern that reads no empty text in the text has neither trouble. -/
theorem searches_walk_iff (p : Pattern) (b : Buffer) :
    ((∃ found, Finds p b.rewind found) ↔ p.readFrom b.text b.text.length = none) ∧
    (∀ found, Finds p b.rewind found →
      ((found.map Prod.fst).Pairwise Match.Before ↔ ∀ i ∈ found, i.1.start < i.2)) ∧
    (p.NeverEmptyOn b.text → ∃ found, Finds p b.rewind found ∧ found.length ≤ b.text.length ∧
      (found.map Prod.fst).Pairwise Match.Before) := by
  refine ⟨exists_finds_iff (b := b.rewind), fun found h => h.pairwise_before_iff, fun hne => ?_⟩
  have hend : p.readFrom b.rewind.text b.rewind.text.length = none := by
    cases hread : p.readFrom b.text b.text.length with
    | none => exact hread
    | some r =>
      have hcovers := hne _ r hread
      omega
  obtain ⟨found, hfound, hlength⟩ := exists_finds_of_readFrom_length_eq_none hend
  refine ⟨found, hfound, hlength, hfound.pairwise_before ?_⟩
  exact hfound.start_lt_point hne

/-- The end of a line: the first one is found twice, and that of the last line again and again. -/
theorem line_ends_found_again :
    let b := Buffer.ofText (Text.lit "a\nb") none
    searchAgain .lineEnd 5 b.rewind =
      [(⟨1, 1, []⟩, 1), (⟨1, 1, []⟩, 2), (⟨3, 3, []⟩, 3), (⟨3, 3, []⟩, 4), (⟨3, 3, []⟩, 5)] ∧
    ¬ ∃ found, Finds .lineEnd b.rewind found := by
  refine ⟨by decide, fun hfound => ?_⟩
  have hend := exists_finds_iff.1 hfound
  revert hend
  decide

end Buffer

end SourceJump
