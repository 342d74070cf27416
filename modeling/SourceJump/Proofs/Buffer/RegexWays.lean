import SourceJump.Proofs.Buffer.FirstReading
import SourceJump.Proofs.Buffer.RegexReaders

/-!
# Where the groups of a regular expression lie

`Regex.tries` tells what the groups of an expression capture. `Regex.ways` lists the same ways to read and tells
between which places each group lies (`tries_eq_map_ways`), so that a match has not only the texts of its groups but
their offsets (`groupSpans`). What an expression reads is one of the texts that it spells (`Spells`), part by part along
a row, and consists of the characters that its literals and classes allow (`Spells.within`). A match of a row with one
group is cut by it into three parts (`exists_cut_of_search`).
-/

namespace SourceJump.Regex

/-- A way to read from a place: the places between which its groups lie, and the place behind what is read. -/
structure Way where
  groups : List (Place × Place)
  stop : Place

namespace Way

/-- One way after the other. -/
def append (u v : Way) : Way := ⟨u.groups ++ v.groups, v.stop⟩

/-- What a way captures, and the place behind it. -/
def captured (w : Way) : List Text × Place := (w.groups.map fun g => g.1.upTo g.2, w.stop)

end Way

/-- All ways to repeat a step at most `count` times, each time reading something. -/
def repeatedWays (step : Place → List Way) : (count : Nat) → Place → List Way
  | 0, x => [⟨[], x⟩]
  | count + 1, x =>
    (((step x).filter fun y => y.stop.rest.length < x.rest.length).flatMap fun y =>
      (repeatedWays step count y.stop).map y.append) ++ [⟨[], x⟩]

/-- The same ways, the fewest repetitions first. -/
def repeatedWaysLazily (step : Place → List Way) : (count : Nat) → Place → List Way
  | 0, x => [⟨[], x⟩]
  | count + 1, x =>
    ⟨[], x⟩ :: ((step x).filter fun y => y.stop.rest.length < x.rest.length).flatMap fun y =>
      (repeatedWaysLazily step count y.stop).map y.append

/-- All ways to read from a place, in the order in which backtracking tries them. -/
def ways : Regex → Place → List Way
  | lineStart, x => if Pattern.startsLine x.before.head? then [⟨[], x⟩] else []
  | lit w, x => if (Text.after? w x.rest).isSome then [⟨[], x.skip w.length⟩] else []
  | one p, x => if x.rest.head?.any p then [⟨[], x.skip 1⟩] else []
  | seq a b, x => (a.ways x).flatMap fun y => (b.ways y.stop).map y.append
  | either a b, x => a.ways x ++ b.ways x
  | star r, x => repeatedWays r.ways x.rest.length x
  | lazyStar r, x => repeatedWaysLazily r.ways x.rest.length x
  | group r, x => (r.ways x).map fun y => ⟨(x, y.stop) :: y.groups, y.stop⟩

/-! ### The ways are those of the captures -/

theorem Way.captured_append (u v : Way) :
    (u.append v).captured = (u.captured.1 ++ v.captured.1, v.captured.2) := by
  simp [Way.append, Way.captured]

section Repetition

variable {step : Place → List Way} {tried : Place → List (List Text × Place)}

/-- The steps that read something are the same ones, with places and with captures. -/
theorem flatMap_filter_captured (h : ∀ x, tried x = (step x).map Way.captured) {ways : Place → List Way}
    {tries : Place → List (List Text × Place)} (hrest : ∀ x, tries x = (ways x).map Way.captured) (x : Place) :
    (((tried x).filter fun y => y.2.rest.length < x.rest.length).flatMap fun y =>
        (tries y.2).map fun z => (y.1 ++ z.1, z.2)) =
      (((step x).filter fun y => y.stop.rest.length < x.rest.length).flatMap fun y =>
        (ways y.stop).map y.append).map Way.captured := by
  rw [h, List.filter_map, List.flatMap_map, List.map_flatMap]
  refine List.flatMap_congr fun y _ => ?_
  rw [hrest, List.map_map, List.map_map]
  exact List.map_congr_left fun z _ => (y.captured_append z).symm

theorem repeated_eq_map_repeatedWays (h : ∀ x, tried x = (step x).map Way.captured) (count : Nat) (x : Place) :
    repeated tried count x = (repeatedWays step count x).map Way.captured := by
  induction count generalizing x with
  | zero => rfl
  | succ count ih =>
    rw [repeated, repeatedWays, List.map_append, flatMap_filter_captured h ih]
    rfl

theorem repeatedLazily_eq_map_repeatedWaysLazily (h : ∀ x, tried x = (step x).map Way.captured) (count : Nat)
    (x : Place) : repeatedLazily tried count x = (repeatedWaysLazily step count x).map Way.captured := by
  induction count generalizing x with
  | zero => rfl
  | succ count ih =>
    rw [repeatedLazily, repeatedWaysLazily, List.map_cons, flatMap_filter_captured h ih]
    rfl

theorem mem_repeatedWaysLazily_iff {count : Nat} {x : Place} {w : Way} :
    w ∈ repeatedWaysLazily step count x ↔ w ∈ repeatedWays step count x := by
  induction count generalizing x w with
  | zero => rfl
  | succ count ih =>
    simp only [repeatedWaysLazily, repeatedWays, List.mem_cons, List.mem_append, List.mem_flatMap, List.mem_map, ih,
      List.not_mem_nil, or_false]
    exact or_comm

end Repetition

/-- The ways capture what backtracking captures, one by one. -/
theorem tries_eq_map_ways (r : Regex) (x : Place) : r.tries x = (r.ways x).map Way.captured := by
  induction r generalizing x with
  | lineStart => by_cases h : Pattern.startsLine x.before.head? = true <;> simp [tries, ways, h, Way.captured]
  | lit w => by_cases h : (Text.after? w x.rest).isSome = true <;> simp [tries, ways, h, Way.captured]
  | one p => by_cases h : x.rest.head?.any p = true <;> simp [tries, ways, h, Way.captured]
  | seq a b iha ihb =>
    rw [tries, ways, iha, List.flatMap_map, List.map_flatMap]
    refine List.flatMap_congr fun y _ => ?_
    rw [ihb, List.map_map, List.map_map]
    exact List.map_congr_left fun z _ => (y.captured_append z).symm
  | either a b iha ihb => rw [tries, ways, iha, ihb, List.map_append]
  | star r ih => exact repeated_eq_map_repeatedWays ih _ x
  | lazyStar r ih => exact repeatedLazily_eq_map_repeatedWaysLazily ih _ x
  | group r ih =>
    rw [tries, ways, ih, List.map_map, List.map_map]
    rfl

/-! ### What an expression spells -/

/-- The expression reads the text somewhere, whatever stands around it. -/
def Spells (r : Regex) (t : Text) : Prop := ∃ x, ∃ w ∈ r.ways x, x.rest = t ++ w.stop.rest

/-- What a way reads is spelled. -/
theorem exists_spells_of_mem_ways {r : Regex} {x : Place} {w : Way} (h : w ∈ r.ways x) :
    ∃ t, x.rest = t ++ w.stop.rest ∧ r.Spells t := by
  have htried : w.captured ∈ r.tries x := by
    rw [tries_eq_map_ways]
    exact List.mem_map_of_mem h
  obtain ⟨t, ht⟩ := suffix_of_mem_tries htried
  exact ⟨t, ht.symm, x, w, h, ht.symm⟩

theorem exists_spells_of_mem_tries {r : Regex} {x : Place} {y : List Text × Place} (h : y ∈ r.tries x) :
    ∃ t, x.rest = t ++ y.2.rest ∧ r.Spells t := by
  rw [tries_eq_map_ways] at h
  obtain ⟨w, hw, rfl⟩ := List.mem_map.1 h
  exact exists_spells_of_mem_ways hw

theorem Spells.of_lineStart {t : Text} (h : lineStart.Spells t) : t = [] := by
  obtain ⟨x, y, hy, hx⟩ := h
  rw [ways, List.mem_ite_nil_right] at hy
  obtain rfl := List.mem_singleton.1 hy.2
  simpa using hx

theorem Spells.of_lit {w t : Text} (h : (lit w).Spells t) : t = w := by
  obtain ⟨x, y, hy, hx⟩ := h
  rw [ways, List.mem_ite_nil_right] at hy
  obtain ⟨hsome, hy⟩ := hy
  obtain rfl := List.mem_singleton.1 hy
  obtain ⟨rest, hrest⟩ := Option.isSome_iff_exists.1 hsome
  have hcut := Text.after?_eq_some_iff.1 hrest
  have hdrop : x.rest.drop w.length = rest := by rw [hcut, List.drop_left]
  rw [show (x.skip w.length).rest = rest from hdrop, hcut] at hx
  exact (List.append_cancel_right hx).symm

theorem Spells.of_one {p : CodePoint → Bool} {t : Text} (h : (one p).Spells t) : ∃ c, t = [c] ∧ p c = true := by
  obtain ⟨x, y, hy, hx⟩ := h
  rw [ways, List.mem_ite_nil_right] at hy
  obtain ⟨hsome, hy⟩ := hy
  obtain rfl := List.mem_singleton.1 hy
  obtain ⟨c, hc, hp⟩ : ∃ c, x.rest.head? = some c ∧ p c = true := by simpa [Option.any_eq_true] using hsome
  obtain ⟨rest, hrest⟩ := List.head?_eq_some_iff.1 hc
  refine ⟨c, ?_, hp⟩
  have hdrop : (x.skip 1).rest = rest := by simp [Place.skip, hrest]
  rw [hdrop, hrest] at hx
  have hcut : [c] ++ rest = t ++ rest := hx
  exact (List.append_cancel_right hcut).symm

theorem Spells.of_seq {a b : Regex} {t : Text} (h : (seq a b).Spells t) :
    ∃ u v, t = u ++ v ∧ a.Spells u ∧ b.Spells v := by
  obtain ⟨x, y, hy, hx⟩ := h
  obtain ⟨z, hz, hy⟩ := List.mem_flatMap.1 hy
  obtain ⟨w, hw, rfl⟩ := List.mem_map.1 hy
  obtain ⟨u, hu, hau⟩ := exists_spells_of_mem_ways hz
  obtain ⟨v, hv, hbv⟩ := exists_spells_of_mem_ways hw
  refine ⟨u, v, ?_, hau, hbv⟩
  rw [hu, hv, ← List.append_assoc] at hx
  exact (List.append_cancel_right hx).symm

theorem Spells.of_either {a b : Regex} {t : Text} (h : (either a b).Spells t) : a.Spells t ∨ b.Spells t := by
  obtain ⟨x, y, hy, hx⟩ := h
  rcases List.mem_append.1 hy with hy | hy
  · exact Or.inl ⟨x, y, hy, hx⟩
  · exact Or.inr ⟨x, y, hy, hx⟩

theorem Spells.of_group {r : Regex} {t : Text} (h : (group r).Spells t) : r.Spells t := by
  obtain ⟨x, y, hy, hx⟩ := h
  obtain ⟨w, hw, rfl⟩ := List.mem_map.1 hy
  exact ⟨x, w, hw, hx⟩

/-- What is repeated spells one text after the other. -/
theorem spells_of_mem_repeatedWays {r : Regex} {count : Nat} {x : Place} {w : Way}
    (h : w ∈ repeatedWays r.ways count x) :
    ∃ ts : List Text, x.rest = ts.flatten ++ w.stop.rest ∧ ∀ t ∈ ts, r.Spells t := by
  induction count generalizing x w with
  | zero =>
    obtain rfl := List.mem_singleton.1 h
    exact ⟨[], rfl, by simp⟩
  | succ count ih =>
    rw [repeatedWays, List.mem_append] at h
    rcases h with h | h
    · obtain ⟨y, hy, h⟩ := List.mem_flatMap.1 h
      obtain ⟨z, hz, rfl⟩ := List.mem_map.1 h
      obtain ⟨t, ht, hspells⟩ := exists_spells_of_mem_ways (List.mem_of_mem_filter hy)
      obtain ⟨ts, hts, hall⟩ := ih hz
      refine ⟨t :: ts, ?_, List.forall_mem_cons.2 ⟨hspells, hall⟩⟩
      rw [ht, hts, List.flatten_cons, List.append_assoc]
      rfl
    · obtain rfl := List.mem_singleton.1 h
      exact ⟨[], rfl, by simp⟩

theorem Spells.of_star {r : Regex} {t : Text} (h : (star r).Spells t) :
    ∃ ts : List Text, t = ts.flatten ∧ ∀ u ∈ ts, r.Spells u := by
  obtain ⟨x, y, hy, hx⟩ := h
  obtain ⟨ts, hts, hall⟩ := spells_of_mem_repeatedWays hy
  exact ⟨ts, (List.append_cancel_right (hx.symm.trans hts)), hall⟩

theorem Spells.of_lazyStar {r : Regex} {t : Text} (h : (lazyStar r).Spells t) : (star r).Spells t := by
  obtain ⟨x, y, hy, hx⟩ := h
  exact ⟨x, y, mem_repeatedWaysLazily_iff.1 hy, hx⟩

/-! ### The characters of what is spelled -/

/-- All characters that the expression can read satisfy `p`. -/
def Within (p : CodePoint → Prop) : Regex → Prop
  | lineStart => True
  | lit w => ∀ c ∈ w, p c
  | one q => ∀ c, q c = true → p c
  | seq a b | either a b => a.Within p ∧ b.Within p
  | star r | lazyStar r | group r => r.Within p

theorem Spells.within {p : CodePoint → Prop} {r : Regex} {t : Text} (h : r.Spells t) (hr : r.Within p) :
    ∀ c ∈ t, p c := by
  induction r generalizing t with
  | lineStart =>
    obtain rfl := h.of_lineStart
    simp
  | lit w =>
    obtain rfl := h.of_lit
    exact hr
  | one q =>
    obtain ⟨c, rfl, hc⟩ := h.of_one
    simpa using hr c hc
  | seq a b iha ihb =>
    obtain ⟨u, v, rfl, hu, hv⟩ := h.of_seq
    intro c hc
    rcases List.mem_append.1 hc with hc | hc
    · exact iha hu hr.1 c hc
    · exact ihb hv hr.2 c hc
  | either a b iha ihb =>
    rcases h.of_either with h | h
    · exact iha h hr.1
    · exact ihb h hr.2
  | star r ih =>
    obtain ⟨ts, rfl, hts⟩ := h.of_star
    intro c hc
    obtain ⟨u, hu, hc⟩ := List.mem_flatten.1 hc
    exact ih (hts u hu) hr c hc
  | lazyStar r ih =>
    obtain ⟨ts, rfl, hts⟩ := h.of_lazyStar.of_star
    intro c hc
    obtain ⟨u, hu, hc⟩ := List.mem_flatten.1 hc
    exact ih (hts u hu) hr c hc
  | group r ih => exact ih h.of_group hr

theorem within_inRow_nil (p : CodePoint → Prop) : (inRow []).Within p := fun _ hc => absurd hc List.not_mem_nil

/-- A run of a class that has to be there is not empty. -/
theorem Spells.of_plus {p : CodePoint → Bool} {t : Text} (h : (plus p).Spells t) : t ≠ [] ∧ ∀ c ∈ t, p c = true := by
  refine ⟨?_, h.within ⟨fun _ hc => hc, fun _ hc => hc⟩⟩
  obtain ⟨u, v, rfl, hu, -⟩ := h.of_seq
  obtain ⟨c, rfl, -⟩ := hu.of_one
  simp

/-! ### Rows with one group -/

/-- The expression has no group. -/
def Silent : Regex → Prop
  | lineStart | lit _ | one _ => True
  | seq a b | either a b => a.Silent ∧ b.Silent
  | star r | lazyStar r => r.Silent
  | group _ => False

theorem groups_of_mem_repeatedWays {step : Place → List Way} (hstep : ∀ x, ∀ w ∈ step x, w.groups = []) {count : Nat}
    {x : Place} {w : Way} (h : w ∈ repeatedWays step count x) : w.groups = [] := by
  induction count generalizing x w with
  | zero =>
    obtain rfl := List.mem_singleton.1 h
    rfl
  | succ count ih =>
    rw [repeatedWays, List.mem_append] at h
    rcases h with h | h
    · obtain ⟨y, hy, h⟩ := List.mem_flatMap.1 h
      obtain ⟨z, hz, rfl⟩ := List.mem_map.1 h
      simp [Way.append, hstep x y (List.mem_of_mem_filter hy), ih hz]
    · obtain rfl := List.mem_singleton.1 h
      rfl

theorem Silent.groups_eq_nil {r : Regex} (hr : r.Silent) {x : Place} {w : Way} (h : w ∈ r.ways x) : w.groups = [] := by
  induction r generalizing x w with
  | lineStart | lit _ | one _ =>
    rw [ways, List.mem_ite_nil_right] at h
    obtain rfl := List.mem_singleton.1 h.2
    rfl
  | seq a b iha ihb =>
    obtain ⟨y, hy, h⟩ := List.mem_flatMap.1 h
    obtain ⟨z, hz, rfl⟩ := List.mem_map.1 h
    simp [Way.append, iha hr.1 hy, ihb hr.2 hz]
  | either a b iha ihb =>
    rcases List.mem_append.1 h with h | h
    · exact iha hr.1 h
    · exact ihb hr.2 h
  | star r ih => exact groups_of_mem_repeatedWays (fun _ _ hw => ih hr hw) h
  | lazyStar r ih => exact groups_of_mem_repeatedWays (fun _ _ hw => ih hr hw) (mem_repeatedWaysLazily_iff.1 h)
  | group r _ => exact hr.elim

/-- What is tried without groups captures nothing. -/
theorem Silent.fst_eq_nil {r : Regex} (hr : r.Silent) {x : Place} {y : List Text × Place} (h : y ∈ r.tries x) :
    y.1 = [] := by
  rw [tries_eq_map_ways] at h
  obtain ⟨w, hw, rfl⟩ := List.mem_map.1 h
  simp [Way.captured, hr.groups_eq_nil hw]

theorem mem_ways_inRow_append {as bs : List Regex} {x : Place} {w : Way} (h : w ∈ (inRow (as ++ bs)).ways x) :
    ∃ u ∈ (inRow as).ways x, ∃ v ∈ (inRow bs).ways u.stop, w = u.append v := by
  induction as generalizing x w with
  | nil =>
    refine ⟨⟨[], x⟩, ?_, w, h, rfl⟩
    simp [inRow, ways, Text.after?, Place.skip]
  | cons a as ih =>
    obtain ⟨y, hy, h⟩ := List.mem_flatMap.1 h
    obtain ⟨z, hz, rfl⟩ := List.mem_map.1 h
    obtain ⟨u, hu, v, hv, rfl⟩ := ih hz
    refine ⟨y.append u, List.mem_flatMap.2 ⟨y, hy, List.mem_map_of_mem hu⟩, v, hv, ?_⟩
    simp [Way.append]

/-- The parts of a row spell the parts of what it spells. -/
theorem Spells.of_inRow_append {as bs : List Regex} {t : Text} (h : (inRow (as ++ bs)).Spells t) :
    ∃ u v, t = u ++ v ∧ (inRow as).Spells u ∧ (inRow bs).Spells v := by
  obtain ⟨x, w, hw, hx⟩ := h
  obtain ⟨y, hy, z, hz, rfl⟩ := mem_ways_inRow_append hw
  obtain ⟨u, hu, hasu⟩ := exists_spells_of_mem_ways hy
  obtain ⟨v, hv, hbsv⟩ := exists_spells_of_mem_ways hz
  refine ⟨u, v, ?_, hasu, hbsv⟩
  rw [hu, hv, ← List.append_assoc] at hx
  exact (List.append_cancel_right hx).symm

theorem Spells.of_inRow_nil {t : Text} (h : (inRow []).Spells t) : t = [] := Spells.of_lit h

theorem Spells.of_inRow_singleton {r : Regex} {t : Text} (h : (inRow [r]).Spells t) : r.Spells t := by
  obtain ⟨u, v, rfl, hu, hv⟩ := h.of_seq
  rwa [hv.of_inRow_nil, List.append_nil]

/-- A way through a row with one group is cut by the group. -/
theorem exists_of_mem_ways_group {as bs : List Regex} {r : Regex} (has : (inRow as).Silent) (hr : r.Silent)
    (hbs : (inRow bs).Silent) {x : Place} {w : Way} (h : w ∈ (inRow (as ++ group r :: bs)).ways x) :
    ∃ u ∈ (inRow as).ways x, ∃ v ∈ r.ways u.stop, ∃ z ∈ (inRow bs).ways v.stop,
      w = ⟨[(u.stop, v.stop)], z.stop⟩ := by
  obtain ⟨u, hu, y, hy, rfl⟩ := mem_ways_inRow_append h
  obtain ⟨v', hv', hy⟩ := List.mem_flatMap.1 hy
  obtain ⟨z, hz, rfl⟩ := List.mem_map.1 hy
  obtain ⟨v, hv, rfl⟩ := List.mem_map.1 hv'
  refine ⟨u, hu, v, hv, z, hz, ?_⟩
  simp [Way.append, has.groups_eq_nil hu, hr.groups_eq_nil hv, hbs.groups_eq_nil hz]

/-! ### Offsets of groups -/

/-- Where the groups lie that an expression captures first at an offset: the offset of the first character of each
and that of the one behind its last. -/
def groupSpans (r : Regex) (t : Text) (offset : Nat) : Option (List (Nat × Nat)) :=
  (r.ways ⟨(t.take offset).reverse, t.drop offset⟩).head?.map fun w =>
    w.groups.map fun g => (t.length - g.1.rest.length, t.length - g.2.rest.length)

/-- A text, cut by a match and its only group: what stands before the match, its three parts, of which the second is the
group, and what stands behind the match. -/
structure Cut where
  before : Text
  front : Text
  captured : Text
  back : Text
  rest : Text

namespace Cut

variable (c : Cut)

/-- The text that is cut. -/
def text : Text := c.before ++ (c.front ++ (c.captured ++ (c.back ++ c.rest)))

/-- The offset of the first character of the group. -/
def start : Nat := c.before.length + c.front.length

/-- The offset of the character behind the group. -/
def stop : Nat := c.start + c.captured.length

theorem take_before : c.text.take c.before.length = c.before := List.take_left

theorem drop_before : c.text.drop c.before.length = c.front ++ (c.captured ++ (c.back ++ c.rest)) := List.drop_left

theorem drop_start : c.text.drop c.start = c.captured ++ (c.back ++ c.rest) := by
  rw [start, ← List.drop_drop, drop_before, List.drop_left]

theorem take_start : c.text.take c.start = c.before ++ c.front := by
  rw [start, List.take_add, take_before, drop_before, List.take_left]

/-- Behind the last part stands the rest. -/
theorem drop_end : c.text.drop (c.stop + c.back.length) = c.rest := by
  rw [stop, Nat.add_assoc, ← List.drop_drop, drop_start, ← List.drop_drop, List.drop_left, List.drop_left]

/-- The group is the text between its offsets. -/
theorem slice_eq : (c.text.take c.stop).drop c.start = c.captured := by
  rw [stop, List.take_add, drop_start, List.take_left, take_start]
  exact List.drop_left' (by simp [start])

/-- A match of the expression in the text is cut in this way. -/
structure IsOf (r : Regex) (t : Text) (m : Match) : Prop where
  text_eq : t = c.text
  start_eq : m.start = c.before.length
  stop_eq : m.stop = c.stop + c.back.length
  groups_eq : m.groups = [c.captured]
  spans_eq : r.groupSpans t m.start = some [(c.start, c.stop)]

variable {c} in
/-- What is captured stands between the offsets of the group. -/
theorem IsOf.groups_eq_slice {r : Regex} {t : Text} {m : Match} (h : c.IsOf r t m) :
    m.groups = [(t.take c.stop).drop c.start] := by
  rw [h.groups_eq, h.text_eq, c.slice_eq]

variable {c} in
/-- The front stands between the start of the match and the group. -/
theorem IsOf.slice_front {r : Regex} {t : Text} {m : Match} (h : c.IsOf r t m) :
    (t.take c.start).drop m.start = c.front := by
  rw [h.text_eq, c.take_start, h.start_eq, List.drop_left]

end Cut

/-- What a search finds is the first way to read from the start of the match. -/
theorem exists_way_of_search {r : Regex} {t : Text} {point : Nat} {m : Match}
    (hm : r.pattern.search t point = some m) :
    ∃ w, (r.ways ⟨(t.take m.start).reverse, t.drop m.start⟩).head? = some w ∧ m.groups = w.captured.1 ∧
      m.stop = t.length - w.stop.rest.length ∧ m.start ≤ t.length := by
  obtain ⟨reading, hread, hstop, hgroups, -, hstart, -⟩ := Pattern.search_eq_some_iff.1 hm
  have hfirst : ((r.tries ⟨(t.take m.start).reverse, t.drop m.start⟩).map
      fun y => (⟨y.1, y.2.rest⟩ : Reading)).head? = some reading := hread
  rw [tries_eq_map_ways, List.map_map, List.head?_map] at hfirst
  obtain ⟨w, hw, rfl⟩ := Option.map_eq_some_iff.1 hfirst
  exact ⟨w, hw, hgroups, hstop, hstart⟩

/-- A match of a row with one group is cut by the group: the parts of the row before it, the group itself and the
parts behind it each spell a part of the match. -/
theorem exists_cut_of_search {as bs : List Regex} {r : Regex} (has : (inRow as).Silent) (hr : r.Silent)
    (hbs : (inRow bs).Silent) {t : Text} {point : Nat} {m : Match}
    (hm : (inRow (as ++ group r :: bs)).pattern.search t point = some m) :
    ∃ c : Cut, c.IsOf (inRow (as ++ group r :: bs)) t m ∧ (inRow as).Spells c.front ∧ r.Spells c.captured ∧
      (inRow bs).Spells c.back := by
  obtain ⟨w, hw, hgroups, hstop, hstart⟩ := exists_way_of_search hm
  obtain ⟨u, hu, v, hv, z, hz, rfl⟩ := exists_of_mem_ways_group has hr hbs (List.mem_of_mem_head? hw)
  obtain ⟨front, hfront, hasfront⟩ := exists_spells_of_mem_ways hu
  obtain ⟨captured, hcaptured, hrcaptured⟩ := exists_spells_of_mem_ways hv
  obtain ⟨back, hback, hbsback⟩ := exists_spells_of_mem_ways hz
  have hdrop : t.drop m.start = front ++ (captured ++ (back ++ z.stop.rest)) := by
    rw [← hback, ← hcaptured]
    exact hfront
  have htext : t = t.take m.start ++ (front ++ (captured ++ (back ++ z.stop.rest))) := by
    rw [← hdrop, List.take_append_drop]
  have hlength : (t.take m.start).length = m.start := by
    rw [List.length_take]
    omega
  have htotal := congrArg List.length htext
  simp only [List.length_append] at htotal
  have hfrontlength : u.stop.rest.length = captured.length + (back.length + z.stop.rest.length) := by
    rw [hcaptured, hback, List.length_append, List.length_append]
  have hbacklength : v.stop.rest.length = back.length + z.stop.rest.length := by
    rw [hback, List.length_append]
  refine ⟨⟨t.take m.start, front, captured, back, z.stop.rest⟩, ⟨htext, hlength.symm, ?_, ?_, ?_⟩, hasfront,
    hrcaptured, hbsback⟩
  · have hrest : m.stop = t.length - z.stop.rest.length := hstop
    simp only [Cut.stop, Cut.start]
    omega
  · have hgroup : u.stop.upTo v.stop = captured := upTo_eq_of_append hcaptured
    rw [hgroups]
    simp [Way.captured, hgroup]
  · have hspan : (t.length - u.stop.rest.length, t.length - v.stop.rest.length) =
        ((t.take m.start).length + front.length, (t.take m.start).length + front.length + captured.length) := by
      rw [Prod.mk.injEq]
      omega
    rw [groupSpans, hw]
    simp only [Option.map_some, List.map_cons, List.map_nil, hspan]
    rfl

end SourceJump.Regex
