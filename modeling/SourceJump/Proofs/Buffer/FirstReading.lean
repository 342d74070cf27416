import SourceJump.Proofs.Buffer.Search
import Mathlib.Data.Nat.Find

/-!
# A search finds the first offset that can be read

Where a pattern can be read depends on the text alone, offset by offset (`Pattern.readFrom`). A search from a point
finds the first of these offsets from the point on (`search_eq_some_iff`), and finds nothing only when there
is none (`search_eq_none_iff`). A point beyond the text counts as its end.
-/

namespace SourceJump.Pattern

/-- How a pattern reads a text from an offset on. -/
def readFrom (p : Pattern) (text : Text) (offset : Nat) : Option Reading :=
  p.readAt (text.take offset).reverse (text.drop offset)

variable {p : Pattern} {text : Text} {point offset : Nat}

/-- A reading leaves no more than there is behind its offset. -/
theorem length_rest_le_of_readFrom {r : Reading} (h : p.readFrom text offset = some r) :
    r.rest.length ≤ text.length - offset := by
  have hsuffix := (p.rest_suffix h).length_le
  rwa [List.length_drop] at hsuffix

/-- A pattern that is tied to the start of a line is read where a line starts. -/
theorem readFrom_onLineStart {read : Text → Option Reading} {hsuffix : ∀ {t r}, read t = some r → r.rest <:+ t}
    {r : Reading} : (onLineStart read hsuffix).readFrom text offset = some r ↔
      startsLine (text.take offset).getLast? = true ∧ read (text.drop offset) = some r := by
  simp only [readFrom, onLineStart, List.head?_reverse]
  split
  · next h => simp [h]
  · next h => simp [h]

/-! ### Finding from a place -/

/-- What stands before an offset, backwards, when the first character has been passed. -/
theorem reverse_take_succ_append (before : Text) (c : CodePoint) (t : Text) (i : Nat) :
    ((c :: t).take (i + 1)).reverse ++ before = (t.take i).reverse ++ c :: before := by
  rw [List.take_succ_cons, List.reverse_cons, List.append_assoc, List.singleton_append]

theorem findFrom_eq_some_iff {before : Text} {t : Text} {skipped : Nat} {r : Reading} :
    p.findFrom before t = some (skipped, r) ↔ skipped ≤ t.length ∧
      p.readAt ((t.take skipped).reverse ++ before) (t.drop skipped) = some r ∧
      ∀ i < skipped, p.readAt ((t.take i).reverse ++ before) (t.drop i) = none := by
  induction t generalizing before skipped with
  | nil =>
    simp only [findFrom, Option.map_eq_some_iff, Prod.mk.injEq, List.take_nil, List.drop_nil, List.reverse_nil,
      List.nil_append, List.length_nil]
    constructor
    · rintro ⟨r', hr', rfl, rfl⟩
      exact ⟨Nat.le_refl 0, hr', fun i hi => absurd hi (Nat.not_lt_zero i)⟩
    · rintro ⟨hle, hr, -⟩
      exact ⟨r, hr, (Nat.le_zero.1 hle).symm, rfl⟩
  | cons c t ih =>
    rw [findFrom]
    cases hread : p.readAt before (c :: t) with
    | some r' =>
      -- The first offset can be read: nothing is skipped.
      simp only [Option.some.injEq, Prod.mk.injEq]
      constructor
      · rintro ⟨rfl, rfl⟩
        exact ⟨Nat.zero_le _, hread, fun i hi => absurd hi (Nat.not_lt_zero i)⟩
      · rintro ⟨-, hr, hbefore⟩
        cases skipped with
        | zero => exact ⟨rfl, Option.some.inj (hread.symm.trans hr)⟩
        | succ k =>
          have hfirst : p.readAt before (c :: t) = none := hbefore 0 (Nat.succ_pos k)
          rw [hread] at hfirst
          cases hfirst
    | none =>
      -- It cannot: the offsets that follow are those of the tail.
      simp only [Option.map_eq_some_iff, Prod.exists, Prod.mk.injEq]
      constructor
      · rintro ⟨k, r', hfind, rfl, rfl⟩
        obtain ⟨hle, hr, hbefore⟩ := ih.1 hfind
        rw [reverse_take_succ_append]
        refine ⟨Nat.succ_le_succ hle, hr, fun i hi => ?_⟩
        cases i with
        | zero => exact hread
        | succ i =>
          rw [reverse_take_succ_append]
          exact hbefore i (Nat.lt_of_succ_lt_succ hi)
      · rintro ⟨hle, hr, hbefore⟩
        cases skipped with
        | zero =>
          have hfirst : p.readAt before (c :: t) = some r := hr
          rw [hread] at hfirst
          cases hfirst
        | succ k =>
          rw [reverse_take_succ_append] at hr
          refine ⟨k, r, ih.2 ⟨Nat.le_of_succ_le_succ hle, hr, fun i hi => ?_⟩, rfl, rfl⟩
          have hi' := hbefore (i + 1) (Nat.succ_lt_succ hi)
          rwa [reverse_take_succ_append] at hi'

theorem findFrom_eq_none_iff {before : Text} {t : Text} : p.findFrom before t = none ↔
    ∀ i ≤ t.length, p.readAt ((t.take i).reverse ++ before) (t.drop i) = none := by
  constructor
  · intro h
    by_contra hne
    push Not at hne
    -- The least offset that can be read would be found.
    have hleast := Nat.find_spec hne
    obtain ⟨r, hr⟩ := Option.ne_none_iff_exists'.1 hleast.2
    have hfound : p.findFrom before t = some (Nat.find hne, r) := by
      refine findFrom_eq_some_iff.2 ⟨hleast.1, hr, fun i hi => ?_⟩
      by_contra hread
      exact Nat.find_min hne hi ⟨Nat.le_trans (Nat.le_of_lt hi) hleast.1, hread⟩
    rw [h] at hfound
    cases hfound
  · intro h
    cases hfind : p.findFrom before t with
    | none => rfl
    | some found =>
      obtain ⟨hle, hr, -⟩ := findFrom_eq_some_iff.1 hfind
      rw [h found.1 hle] at hr
      cases hr

/-! ### Searching from a point -/

/-- A search from beyond the text is one from its end. -/
theorem search_min (p : Pattern) (text : Text) (point : Nat) :
    p.search text (min point text.length) = p.search text point := by
  have hmin : min (min point text.length) text.length = min point text.length := by omega
  rw [search, search, hmin]

/-- What can be read at the offsets behind a place is what can be read in the text behind that place. -/
theorem readFrom_add (p : Pattern) (text : Text) (start i : Nat) : p.readFrom text (start + i) =
    p.readAt (((text.drop start).take i).reverse ++ (text.take start).reverse) ((text.drop start).drop i) := by
  rw [readFrom, List.take_add, List.reverse_append, List.drop_drop]

theorem search_eq_map (p : Pattern) {text : Text} {start : Nat} (h : start ≤ text.length) : p.search text start =
    (p.findFrom (text.take start).reverse (text.drop start)).map fun (skipped, reading) =>
      ⟨start + skipped, text.length - reading.rest.length, reading.groups⟩ := by
  have hsearch := Buffer.search_append p (text.take start) (text.drop start)
  rwa [List.take_append_drop, List.length_take, Nat.min_eq_left h] at hsearch

/-- A search finds the first offset from the point on that can be read. -/
theorem search_eq_some_iff {m : Match} : p.search text point = some m ↔
    ∃ r, p.readFrom text m.start = some r ∧ m.stop = text.length - r.rest.length ∧ m.groups = r.groups ∧
      min point text.length ≤ m.start ∧ m.start ≤ text.length ∧
      ∀ i, min point text.length ≤ i → i < m.start → p.readFrom text i = none := by
  rw [← search_min]
  generalize hs : min point text.length = start
  have hstart : start ≤ text.length := by omega
  rw [search_eq_map p hstart, Option.map_eq_some_iff]
  constructor
  · rintro ⟨⟨skipped, r⟩, hfind, rfl⟩
    obtain ⟨hle, hr, hbefore⟩ := findFrom_eq_some_iff.1 hfind
    rw [List.length_drop] at hle
    refine ⟨r, (readFrom_add p text start skipped).trans hr, rfl, rfl, Nat.le_add_right _ _, ?_, fun i hi hlt => ?_⟩
    · show start + skipped ≤ text.length
      omega
    · obtain ⟨k, rfl⟩ := Nat.exists_eq_add_of_le hi
      rw [readFrom_add]
      exact hbefore k (Nat.lt_of_add_lt_add_left hlt)
  · rintro ⟨r, hr, hstop, hgroups, hle, hlength, hbefore⟩
    obtain ⟨first, stop, groups⟩ := m
    obtain ⟨skipped, rfl⟩ : ∃ k, first = start + k := Nat.exists_eq_add_of_le hle
    refine ⟨(skipped, r), findFrom_eq_some_iff.2 ⟨?_, ?_, fun i hi => ?_⟩, ?_⟩
    · rw [List.length_drop]
      have : start + skipped ≤ text.length := hlength
      omega
    · rw [← readFrom_add]
      exact hr
    · rw [← readFrom_add]
      exact hbefore (start + i) (Nat.le_add_right _ _) (Nat.add_lt_add_left hi start)
    · obtain ⟨rfl, rfl⟩ : stop = text.length - r.rest.length ∧ groups = r.groups := ⟨hstop, hgroups⟩
      rfl

/-- What a match leaves is the text behind it. -/
theorem exists_readFrom_of_search {m : Match} (h : p.search text point = some m) :
    ∃ r, p.readFrom text m.start = some r ∧ m.groups = r.groups ∧ text.drop m.stop = r.rest := by
  obtain ⟨r, hr, hstop, hgroups, -⟩ := search_eq_some_iff.1 h
  have hsuffix : r.rest <:+ text := (p.rest_suffix hr).trans (List.drop_suffix _ _)
  refine ⟨r, hr, hgroups, ?_⟩
  rw [hstop]
  exact (List.suffix_iff_eq_drop.1 hsuffix).symm

/-- A search finds nothing when no offset from the point on can be read. -/
theorem search_eq_none_iff : p.search text point = none ↔
    ∀ i, min point text.length ≤ i → i ≤ text.length → p.readFrom text i = none := by
  rw [← search_min]
  generalize hs : min point text.length = start
  have hstart : start ≤ text.length := by omega
  rw [search_eq_map p hstart, Option.map_eq_none_iff, findFrom_eq_none_iff, List.length_drop]
  constructor
  · intro h i hi hle
    obtain ⟨k, rfl⟩ := Nat.exists_eq_add_of_le hi
    rw [readFrom_add]
    exact h k (by omega)
  · intro h i hi
    rw [← readFrom_add]
    exact h (start + i) (Nat.le_add_right _ _) (by omega)

end SourceJump.Pattern
