import SourceJump.Buffer.Pattern
import Mathlib.Data.List.Basic
import Mathlib.Data.List.Nodup
import Mathlib.Data.List.TakeWhile

/-!
# Regular expressions with backtracking

A regular expression reads a text in several ways, and backtracking tries them in a fixed order: what
repeats does so as often as possible first. `Regex.tries` lists all ways in this order; the first of
them is what a search takes (`Regex.pattern`).

Where what follows a run of a class of characters cannot begin inside the run, backtracking into the run is
in vain, and the run reads as one piece (`tries_inRow_star_one`, `tries_inRow_plus`).
-/

namespace SourceJump

/-- A place in a text: what stands before it, the nearest character first, and the text from there on. -/
structure Place where
  before : Text
  rest : Text

namespace Place

/-- The place some characters further on. -/
def skip (x : Place) (count : Nat) : Place :=
  ⟨(x.rest.take count).reverse ++ x.before, x.rest.drop count⟩

/-- The text between two places, the second at or behind the first. -/
def upTo (x y : Place) : Text := x.rest.take (x.rest.length - y.rest.length)

end Place

/-- Regular expressions, as far as declarations need them. -/
inductive Regex where
  /-- The empty text at the start of a line. -/
  | lineStart
  /-- The literal text. -/
  | lit (w : Text)
  /-- One character of a class. -/
  | one (p : CodePoint → Bool)
  /-- One after the other. -/
  | seq (a b : Regex)
  /-- The first one, or else the second. -/
  | either (a b : Regex)
  /-- Any number of times, as often as possible first. -/
  | star (r : Regex)
  /-- Any number of times, as seldom as possible first. -/
  | lazyStar (r : Regex)
  /-- The same, and the text that it reads is captured. -/
  | group (r : Regex)

namespace Regex

/-- All ways to repeat a step at most `count` times, each time reading something. -/
def repeated (step : Place → List (List Text × Place)) : (count : Nat) → Place → List (List Text × Place)
  | 0, x => [([], x)]
  | count + 1, x =>
    (((step x).filter fun y => y.2.rest.length < x.rest.length).flatMap fun y =>
      (repeated step count y.2).map fun z => (y.1 ++ z.1, z.2)) ++ [([], x)]

/-- The same ways, the fewest repetitions first. -/
def repeatedLazily (step : Place → List (List Text × Place)) : (count : Nat) → Place → List (List Text × Place)
  | 0, x => [([], x)]
  | count + 1, x =>
    ([], x) :: ((step x).filter fun y => y.2.rest.length < x.rest.length).flatMap fun y =>
      (repeatedLazily step count y.2).map fun z => (y.1 ++ z.1, z.2)

/-- All ways to read from a place, in the order in which backtracking tries them: what is captured, and the
place behind what is read. -/
def tries : Regex → Place → List (List Text × Place)
  | lineStart, x => if Pattern.startsLine x.before.head? then [([], x)] else []
  | lit w, x => if (Text.after? w x.rest).isSome then [([], x.skip w.length)] else []
  | one p, x => if x.rest.head?.any p then [([], x.skip 1)] else []
  | seq a b, x => (a.tries x).flatMap fun y => (b.tries y.2).map fun z => (y.1 ++ z.1, z.2)
  | either a b, x => a.tries x ++ b.tries x
  | star r, x => repeated r.tries x.rest.length x
  | lazyStar r, x => repeatedLazily r.tries x.rest.length x
  | group r, x => (r.tries x).map fun y => (x.upTo y.2 :: y.1, y.2)

/-- Several expressions one after the other. -/
def inRow : List Regex → Regex
  | [] => lit []
  | r :: rs => seq r (inRow rs)

/-- At least one character of a class. -/
def plus (p : CodePoint → Bool) : Regex := seq (one p) (star (one p))

/-- All readings from a place, in the order in which backtracking tries them. -/
def readings (r : Regex) (before : Text) (t : Text) : List Reading :=
  (r.tries ⟨before, t⟩).map fun y => ⟨y.1, y.2.rest⟩

/-! ### Readings leave an end of the text -/

theorem suffix_of_mem_repeated {step : Place → List (List Text × Place)}
    (hstep : ∀ x y, y ∈ step x → y.2.rest <:+ x.rest) {count : Nat} {x : Place} {y : List Text × Place}
    (h : y ∈ repeated step count x) : y.2.rest <:+ x.rest := by
  induction count generalizing x y with
  | zero =>
    obtain rfl := List.mem_singleton.1 h
    exact List.suffix_rfl
  | succ count ih =>
    rw [repeated, List.mem_append] at h
    rcases h with h | h
    · obtain ⟨z, hz, h⟩ := List.mem_flatMap.1 h
      obtain ⟨w, hw, rfl⟩ := List.mem_map.1 h
      exact (ih hw).trans (hstep x z (List.mem_of_mem_filter hz))
    · obtain rfl := List.mem_singleton.1 h
      exact List.suffix_rfl

theorem mem_repeatedLazily_iff {step : Place → List (List Text × Place)} {count : Nat} {x : Place}
    {y : List Text × Place} : y ∈ repeatedLazily step count x ↔ y ∈ repeated step count x := by
  induction count generalizing x y with
  | zero => rfl
  | succ count ih =>
    simp only [repeatedLazily, repeated, List.mem_cons, List.mem_append, List.mem_flatMap, List.mem_map, ih,
      List.not_mem_nil, or_false]
    exact or_comm

theorem suffix_of_mem_tries {r : Regex} {x : Place} {y : List Text × Place} (h : y ∈ r.tries x) :
    y.2.rest <:+ x.rest := by
  induction r generalizing x y with
  | lineStart =>
    rw [tries, List.mem_ite_nil_right] at h
    obtain rfl := List.mem_singleton.1 h.2
    exact List.suffix_rfl
  | lit w =>
    rw [tries, List.mem_ite_nil_right] at h
    obtain rfl := List.mem_singleton.1 h.2
    exact List.drop_suffix _ _
  | one p =>
    rw [tries, List.mem_ite_nil_right] at h
    obtain rfl := List.mem_singleton.1 h.2
    exact List.drop_suffix _ _
  | seq a b iha ihb =>
    obtain ⟨z, hz, h⟩ := List.mem_flatMap.1 h
    obtain ⟨w, hw, rfl⟩ := List.mem_map.1 h
    exact (ihb hw).trans (iha hz)
  | either a b iha ihb =>
    rcases List.mem_append.1 h with h | h
    · exact iha h
    · exact ihb h
  | star r ih => exact suffix_of_mem_repeated (fun _ _ => ih) h
  | lazyStar r ih => exact suffix_of_mem_repeated (fun _ _ => ih) (mem_repeatedLazily_iff.1 h)
  | group r ih =>
    obtain ⟨z, hz, rfl⟩ := List.mem_map.1 h
    exact ih (y := z) hz

/-- The pattern that reads as a regular expression does first. -/
def pattern (r : Regex) : Pattern where
  readAt before t := (r.readings before t).head?
  rest_suffix h := by
    obtain ⟨y, hy, rfl⟩ := List.mem_map.1 (List.mem_of_mem_head? h)
    exact suffix_of_mem_tries hy

/-! ### One part after the other -/

theorem tries_inRow_cons (r : Regex) (rs : List Regex) (x : Place) : (inRow (r :: rs)).tries x =
    (r.tries x).flatMap fun y => ((inRow rs).tries y.2).map fun z => (y.1 ++ z.1, z.2) := rfl

theorem tries_inRow_lineStart (rs : List Regex) (x : Place) : (inRow (lineStart :: rs)).tries x =
    if Pattern.startsLine x.before.head? then (inRow rs).tries x else [] := by
  rw [tries_inRow_cons, tries]
  split <;> simp

/-- A literal is read where the text begins with it. -/
theorem tries_inRow_lit_of_append {w rest : Text} {before : Text} (rs : List Regex) :
    (inRow (lit w :: rs)).tries ⟨before, w ++ rest⟩ = (inRow rs).tries ⟨w.reverse ++ before, rest⟩ := by
  rw [tries_inRow_cons, tries, if_pos (by rw [Text.after?_eq_some_iff.2 rfl]; rfl)]
  simp [Place.skip]

/-- A text that begins otherwise than a literal does not begin with it. -/
theorem after?_eq_none_of_head {c : CodePoint} {word t : Text} (hword : word.head? = some c) (h : c ∉ t.head?) :
    Text.after? word t = none := by
  cases ht : Text.after? word t with
  | none => rfl
  | some rest =>
    obtain rfl := Text.after?_eq_some_iff.1 ht
    exact absurd (by simp [hword]) h

theorem tries_inRow_lit_of_none {w : Text} {x : Place} (rs : List Regex) (h : Text.after? w x.rest = none) :
    (inRow (lit w :: rs)).tries x = [] := by
  rw [tries_inRow_cons, tries, h]
  rfl

/-! ### Runs of a class -/

variable {p : CodePoint → Bool}

theorem skip_cons_succ (before : Text) (c : CodePoint) (rest : Text) (count : Nat) :
    Place.skip ⟨before, c :: rest⟩ (count + 1) = Place.skip ⟨c :: before, rest⟩ count := by
  unfold Place.skip
  rw [List.take_succ_cons, List.drop_succ_cons, List.reverse_cons, List.append_assoc, List.singleton_append]

/-- A class is repeated as often as the run of its characters is long, and then less and less often. -/
theorem repeated_one {count : Nat} {x : Place} (h : (x.rest.takeWhile p).length ≤ count) :
    repeated (one p).tries count x =
      (List.range ((x.rest.takeWhile p).length + 1)).reverse.map fun i => ([], x.skip i) := by
  obtain ⟨before, t⟩ := x
  induction t generalizing before count with
  | nil => cases count <;> rfl
  | cons c t ih =>
    by_cases hc : p c = true
    · simp only [List.takeWhile_cons_of_pos hc, List.length_cons] at h ⊢
      obtain ⟨count, rfl⟩ : ∃ k, count = k + 1 := ⟨count - 1, by omega⟩
      have hstep : (one p).tries ⟨before, c :: t⟩ = [([], ⟨c :: before, t⟩)] := by simp [tries, hc, Place.skip]
      have hrest := ih (c :: before) (Nat.le_of_succ_le_succ h)
      rw [repeated, hstep, List.range_succ_eq_map, List.reverse_cons, List.map_append, ← List.map_reverse, List.map_map]
      simp only [Function.comp_def, Nat.succ_eq_add_one, skip_cons_succ]
      rw [← hrest]
      simp [Place.skip]
    · have hstep : (one p).tries ⟨before, c :: t⟩ = [] := by simp [tries, hc]
      rw [List.takeWhile_cons_of_neg hc]
      cases count with
      | zero => rfl
      | succ count => simp [repeated, hstep, Place.skip]

theorem tries_star_one (p : CodePoint → Bool) (x : Place) : (star (one p)).tries x =
    (List.range ((x.rest.takeWhile p).length + 1)).reverse.map fun i => ([], x.skip i) :=
  repeated_one (List.takeWhile_prefix p).length_le

theorem tries_plus (p : CodePoint → Bool) (x : Place) : (plus p).tries x =
    (List.range (x.rest.takeWhile p).length).reverse.map fun i => ([], x.skip (i + 1)) := by
  obtain ⟨before, t⟩ := x
  cases t with
  | nil => rfl
  | cons c t =>
    by_cases hc : p c = true
    · have hstep : (one p).tries ⟨before, c :: t⟩ = [([], ⟨c :: before, t⟩)] := by simp [tries, hc, Place.skip]
      rw [plus, tries, hstep, List.flatMap_singleton, tries_star_one]
      simp [hc, skip_cons_succ]
    · have hstep : (one p).tries ⟨before, c :: t⟩ = [] := by simp [tries, hc]
      rw [plus, tries, hstep, List.takeWhile_cons_of_neg hc]
      rfl

theorem upTo_skip (x : Place) {count : Nat} (h : count ≤ x.rest.length) :
    x.upTo (x.skip count) = x.rest.take count := by
  rw [Place.upTo, Place.skip, List.length_drop]
  congr 1
  omega

/-- Only one member counts when the others yield nothing. -/
theorem flatMap_eq_of_unique {α β : Type} {l : List α} {f : α → List β} {a : α} (hl : l.Nodup) (ha : a ∈ l)
    (h : ∀ b ∈ l, b ≠ a → f b = []) : l.flatMap f = f a := by
  obtain ⟨before, after, rfl⟩ := List.append_of_mem ha
  rw [List.nodup_append] at hl
  obtain ⟨-, hafter, hdisjoint⟩ := hl
  have hbefore : before.flatMap f = [] := by
    rw [List.flatMap_eq_nil_iff]
    exact fun b hb => h b (by simp [hb]) (hdisjoint b hb a List.mem_cons_self)
  have hafter : after.flatMap f = [] := by
    rw [List.flatMap_eq_nil_iff]
    exact fun b hb => h b (by simp [hb]) fun hba => (List.nodup_cons.1 hafter).1 (hba ▸ hb)
  rw [List.flatMap_append, List.flatMap_cons, hbefore, hafter, List.nil_append, List.append_nil]

/-- Before the end of a run stands a character of the class. -/
theorem head?_skip_of_lt {x : Place} {count : Nat} (h : count < (x.rest.takeWhile p).length) :
    ∃ c ∈ (x.skip count).rest.head?, p c = true := by
  have hlength : count < x.rest.length := Nat.lt_of_lt_of_le h (List.takeWhile_prefix p).length_le
  refine ⟨x.rest[count], by simp [Place.skip, List.head?_drop, hlength], ?_⟩
  rw [← List.IsPrefix.getElem (List.takeWhile_prefix p) h]
  exact List.mem_takeWhile_imp (List.getElem_mem h)

/-- A run is read as one piece where what follows cannot begin with a character of the class. -/
theorem tries_inRow_star_one {rs : List Regex} (x : Place)
    (h : ∀ y : Place, (∃ c ∈ y.rest.head?, p c = true) → (inRow rs).tries y = []) :
    (inRow (star (one p) :: rs)).tries x = (inRow rs).tries (x.skip (x.rest.takeWhile p).length) := by
  rw [tries_inRow_cons, tries_star_one, List.flatMap_map]
  refine (flatMap_eq_of_unique (a := (x.rest.takeWhile p).length) ?_ (by simp) ?_).trans (by simp)
  · exact List.nodup_reverse.2 List.nodup_range
  · intro i hi hne
    rw [List.mem_reverse, List.mem_range] at hi
    rw [h _ (head?_skip_of_lt (by omega))]
    rfl

theorem tries_inRow_plus {rs : List Regex} (x : Place) (hne : x.rest.takeWhile p ≠ [])
    (h : ∀ y : Place, (∃ c ∈ y.rest.head?, p c = true) → (inRow rs).tries y = []) :
    (inRow (plus p :: rs)).tries x = (inRow rs).tries (x.skip (x.rest.takeWhile p).length) := by
  have hpos := List.length_pos_iff.2 hne
  rw [tries_inRow_cons, tries_plus, List.flatMap_map]
  refine (flatMap_eq_of_unique (a := (x.rest.takeWhile p).length - 1) ?_ (by simp; omega) ?_).trans ?_
  · exact List.nodup_reverse.2 List.nodup_range
  · intro i hi hi'
    rw [List.mem_reverse, List.mem_range] at hi
    rw [h _ (head?_skip_of_lt (by omega))]
    rfl
  · rw [Nat.sub_add_cancel hpos]
    simp

theorem tries_inRow_plus_of_empty {rs : List Regex} {x : Place} (h : x.rest.takeWhile p = []) :
    (inRow (plus p :: rs)).tries x = [] := by
  rw [tries_inRow_cons, tries_plus, h]
  rfl

/-- The ways to capture a run: the whole of it first, and then less and less of it. -/
theorem tries_inRow_group_plus (rs : List Regex) (x : Place) : (inRow (group (plus p) :: rs)).tries x =
    (List.range (x.rest.takeWhile p).length).reverse.flatMap fun i =>
      ((inRow rs).tries (x.skip (i + 1))).map fun z => (x.rest.take (i + 1) :: z.1, z.2) := by
  rw [tries_inRow_cons, tries, tries_plus, List.map_map, List.flatMap_map]
  refine List.flatMap_congr fun i hi => ?_
  rw [List.mem_reverse, List.mem_range] at hi
  have := (List.takeWhile_prefix p (l := x.rest)).length_le
  simp only [Function.comp, upTo_skip x (show i + 1 ≤ x.rest.length by omega), List.singleton_append]

end Regex

end SourceJump
