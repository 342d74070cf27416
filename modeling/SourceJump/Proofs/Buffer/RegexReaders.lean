import SourceJump.Proofs.Buffer.Regex
import SourceJump.Proofs.Text.Classes

/-!
# Regular expressions as readers

What expressions in a row read first, with all their ways to go back, is what some reader reads (`Reads`). There is
one law for each kind of expression that can stand before a row whose reader is known. Where the reader of the row
fails on a class of characters (`FailsOn`), a run of the class is given back in vain, and the law is simpler.
A row behind the start of a line is then one of the patterns that are tied to it (`pattern_lineStart`).
-/

namespace SourceJump.Regex

/-- What expressions in a row read first from a place. -/
def first (rs : List Regex) (x : Place) : Option Reading :=
  ((inRow rs).tries x).head?.map fun y => ⟨y.1, y.2.rest⟩

/-- Wherever the row of expressions is tried, it reads first what the reader reads. -/
def Reads (rs : List Regex) (read : Text → Option Reading) : Prop := ∀ x, first rs x = read x.rest

/-- The reader reads nothing where a character of the class comes next. -/
def FailsOn (p : CodePoint → Bool) (read : Text → Option Reading) : Prop :=
  ∀ c t, p c = true → read (c :: t) = none

variable {rs : List Regex} {read : Text → Option Reading} {p : CodePoint → Bool} {x : Place}

theorem first_eq_none_iff : first rs x = none ↔ (inRow rs).tries x = [] := by
  rw [first, Option.map_eq_none_iff, List.head?_eq_none_iff]

/-- The first way through a row is the first way through its first part with which the rest succeeds. -/
theorem first_cons (r : Regex) (rs : List Regex) (x : Place) : first (r :: rs) x =
    (r.tries x).findSome? fun y => (first rs y.2).map fun z => ⟨y.1 ++ z.groups, z.rest⟩ := by
  rw [first, tries_inRow_cons, List.head?_flatMap, List.map_findSome?]
  congr 1
  funext y
  rw [Function.comp, List.head?_map, first, Option.map_map, Option.map_map]
  rfl

/-- A part without groups captures nothing. -/
theorem first_cons_of_silent {r : Regex} (h : ∀ y ∈ r.tries x, y.1 = []) :
    first (r :: rs) x = (r.tries x).findSome? fun y => first rs y.2 := by
  rw [first_cons]
  generalize r.tries x = ys at h ⊢
  induction ys with
  | nil => rfl
  | cons y ys ih =>
    rw [List.findSome?_cons, List.findSome?_cons, ih fun z hz => h z (List.mem_cons_of_mem _ hz),
      h y List.mem_cons_self]
    cases first rs y.2 <;> rfl

theorem findSome?_flatMap {α β γ : Type} (l : List α) (f : α → List β) (g : β → Option γ) :
    (l.flatMap f).findSome? g = l.findSome? fun a => (f a).findSome? g := by
  induction l with
  | nil => rfl
  | cons a l ih =>
    rw [List.flatMap_cons, List.findSome?_append, ih, List.findSome?_cons]
    cases (f a).findSome? g <;> rfl

theorem FailsOn.tries_eq_nil (h : Reads rs read) (hf : FailsOn p read) (y : Place)
    (hy : ∃ c ∈ y.rest.head?, p c = true) : (inRow rs).tries y = [] := by
  obtain ⟨c, hc, hp⟩ := hy
  obtain ⟨before, t⟩ := y
  cases t with
  | nil => cases hc
  | cons d t =>
    obtain rfl : d = c := by simpa using hc
    rw [← first_eq_none_iff, h]
    exact hf d t hp

theorem FailsOn.head?_of_ne_none (hf : FailsOn p read) {t : Text} (h : read t ≠ none) : ∀ c ∈ t.head?, p c = false := by
  intro c hc
  obtain ⟨tail, rfl⟩ := List.head?_eq_some_iff.1 hc
  by_contra hp
  exact h (hf c tail (by simpa using hp))

/-- A literal fails on a class that its first character is not of. -/
theorem failsOn_lit {p : CodePoint → Bool} {w : Text} {c : CodePoint} (hw : w.head? = some c) (hc : p c = false)
    (read : Text → Option Reading) : FailsOn p fun t => (Text.after? w t).bind read := by
  intro d t hd
  have hnone : Text.after? w (d :: t) = none := by
    refine after?_eq_none_of_head hw fun hmem => ?_
    obtain rfl : d = c := by simpa using hmem
    rw [hc] at hd
    exact absurd hd (by decide)
  show (Text.after? w (d :: t)).bind read = none
  rw [hnone]
  rfl

/-! ### One law for each kind of expression -/

theorem Reads.congr {read' : Text → Option Reading} (h : Reads rs read) (heq : ∀ t, read t = read' t) :
    Reads rs read' := fun x => (h x).trans (heq x.rest)

theorem Reads.nil : Reads [] fun t => some ⟨[], t⟩ := fun _ => rfl

/-- A literal is taken off the front. -/
theorem Reads.lit (h : Reads rs read) (w : Text) : Reads (lit w :: rs) fun t => (Text.after? w t).bind read := by
  rintro ⟨before, t⟩
  cases hw : Text.after? w t with
  | none =>
    have hnone : (inRow (Regex.lit w :: rs)).tries ⟨before, t⟩ = [] := tries_inRow_lit_of_none rs hw
    simp only [hw, Option.bind_none]
    exact first_eq_none_iff.2 hnone
  | some rest =>
    obtain rfl := Text.after?_eq_some_iff.1 hw
    simp only [hw, Option.bind_some]
    rw [first, tries_inRow_lit_of_append, ← first, h]

/-- A run whose characters the rest cannot begin with is passed as a whole. -/
theorem Reads.star_one (h : Reads rs read) (hf : FailsOn p read) :
    Reads (star (one p) :: rs) fun t => read (t.dropWhile p) := by
  intro x
  rw [first, tries_inRow_star_one x (hf.tries_eq_nil h), ← first, h]
  exact congrArg read (Text.drop_length_takeWhile p x.rest)

theorem Reads.plus_one (h : Reads rs read) (hf : FailsOn p read) : Reads (plus p :: rs) fun t =>
    if t.takeWhile p = [] then none else read (t.dropWhile p) := by
  intro x
  show first (Regex.plus p :: rs) x = if x.rest.takeWhile p = [] then none else read (x.rest.dropWhile p)
  by_cases hrun : x.rest.takeWhile p = []
  · rw [if_pos hrun]
    exact first_eq_none_iff.2 (tries_inRow_plus_of_empty hrun)
  · rw [if_neg hrun, first, tries_inRow_plus x hrun (hf.tries_eq_nil h), ← first, h]
    exact congrArg read (Text.drop_length_takeWhile p x.rest)

/-- A run is tried at all its lengths, the longest first. -/
theorem Reads.plus (h : Reads rs read) (p : CodePoint → Bool) : Reads (Regex.plus p :: rs) fun t =>
    (List.range (t.takeWhile p).length).reverse.findSome? fun i => read (t.drop (i + 1)) := by
  intro x
  rw [first_cons_of_silent, tries_plus, List.findSome?_map]
  · congr 1
    funext i
    exact h _
  · intro y hy
    rw [tries_plus] at hy
    obtain ⟨i, -, rfl⟩ := List.mem_map.1 hy
    rfl

/-- A step that goes on in one way at most is repeated lazily in the reverse order. -/
theorem repeatedLazily_eq_reverse {step : Place → List (List Text × Place)} (hstep : ∀ x, (step x).length ≤ 1)
    (count : Nat) (x : Place) : repeatedLazily step count x = (repeated step count x).reverse := by
  induction count generalizing x with
  | zero => rfl
  | succ count ih =>
    rw [repeatedLazily, repeated, List.reverse_append, List.reverse_singleton, List.singleton_append]
    congr 1
    have hlength := (List.length_filter_le (fun y => decide (y.2.rest.length < x.rest.length)) (step x)).trans (hstep x)
    cases hways : (step x).filter fun y => y.2.rest.length < x.rest.length with
    | nil => rfl
    | cons y ys =>
      rw [hways, List.length_cons] at hlength
      obtain rfl : ys = [] := List.eq_nil_of_length_eq_zero (by omega)
      rw [List.flatMap_singleton, List.flatMap_singleton, ih, List.map_reverse]

/-- A run that is read lazily is tried at all its lengths, none first. -/
theorem Reads.lazyStar_one (h : Reads rs read) (p : CodePoint → Bool) : Reads (lazyStar (one p) :: rs) fun t =>
    (List.range ((t.takeWhile p).length + 1)).findSome? fun i => read (t.drop i) := by
  intro x
  have hstep : ∀ y, ((one p).tries y).length ≤ 1 := by
    intro y
    rw [tries]
    split <;> simp
  have htries : (lazyStar (one p)).tries x =
      (List.range ((x.rest.takeWhile p).length + 1)).map fun i => ([], x.skip i) := by
    rw [tries, repeatedLazily_eq_reverse hstep, ← tries, tries_star_one, ← List.map_reverse, List.reverse_reverse]
  rw [first_cons_of_silent, htries, List.findSome?_map]
  · congr 1
    funext i
    exact h _
  · intro y hy
    rw [htries] at hy
    obtain ⟨i, -, rfl⟩ := List.mem_map.1 hy
    rfl

/-- A row within a row is read part by part. -/
theorem tries_inRow_inRow (as rs : List Regex) (x : Place) :
    (inRow (inRow as :: rs)).tries x = (inRow (as ++ rs)).tries x := by
  induction as generalizing x with
  | nil =>
    rw [tries_inRow_cons]
    simp [inRow, tries, Text.after?, Place.skip]
  | cons a as ih =>
    rw [tries_inRow_cons, tries_inRow_cons, List.flatMap_assoc, List.cons_append, tries_inRow_cons]
    refine List.flatMap_congr fun y _ => ?_
    rw [← ih, tries_inRow_cons, List.flatMap_map, List.map_flatMap]
    refine List.flatMap_congr fun z _ => ?_
    rw [List.map_map]
    refine List.map_congr_left fun w _ => ?_
    simp [List.append_assoc]

/-- Of two rows the second is tried after the first. -/
theorem Reads.either {as bs : List Regex} {read' : Text → Option Reading} (ha : Reads (as ++ rs) read)
    (hb : Reads (bs ++ rs) read') : Reads (either (inRow as) (inRow bs) :: rs) fun t => (read t).or (read' t) := by
  intro x
  have htries : (inRow (Regex.either (inRow as) (inRow bs) :: rs)).tries x =
      (inRow (as ++ rs)).tries x ++ (inRow (bs ++ rs)).tries x := by
    rw [← tries_inRow_inRow, ← tries_inRow_inRow, tries_inRow_cons, tries_inRow_cons, tries_inRow_cons, tries,
      List.flatMap_append]
  show first (Regex.either (inRow as) (inRow bs) :: rs) x = (read x.rest).or (read' x.rest)
  rw [← ha x, ← hb x, first, htries, List.head?_append, first, first]
  cases ((inRow (as ++ rs)).tries x).head? <;> rfl

/-! ### First ways -/

/-- A row of one part is that part. -/
theorem tries_inRow_singleton (r : Regex) (x : Place) : (inRow [r]).tries x = r.tries x := by
  have hend : ∀ y : Place, (inRow []).tries y = [([], y)] := by
    intro y
    simp [inRow, tries, Text.after?, Place.skip]
  rw [tries_inRow_cons]
  simp [hend]

/-- A run is first read as a whole. -/
theorem head?_tries_plus {p : CodePoint → Bool} {x : Place} (h : x.rest.takeWhile p ≠ []) :
    ((plus p).tries x).head? = some ([], x.skip (x.rest.takeWhile p).length) := by
  obtain ⟨n, hn⟩ := Nat.exists_eq_succ_of_ne_zero fun hzero => h (List.eq_nil_of_length_eq_zero hzero)
  rw [tries_plus, hn, List.range_succ, List.reverse_append]
  rfl

/-- The first repetition is followed by what is first read behind it. -/
theorem head?_repeated_of_head? {step : Place → List (List Text × Place)} {count : Nat} {x : Place}
    {y z : List Text × Place} (hstep : (step x).head? = some y) (hshorter : y.2.rest.length < x.rest.length)
    (hrest : (repeated step count y.2).head? = some z) :
    (repeated step (count + 1) x).head? = some (y.1 ++ z.1, z.2) := by
  obtain ⟨ys, hys⟩ := List.head?_eq_some_iff.1 hstep
  rw [repeated, hys, List.filter_cons_of_pos (by simpa using hshorter), List.flatMap_cons, List.append_assoc,
    List.head?_append, List.head?_map, hrest]
  rfl

theorem head?_repeated_of_nil {step : Place → List (List Text × Place)} {x : Place} (count : Nat) (h : step x = []) :
    (repeated step count x).head? = some ([], x) := by
  cases count with
  | zero => rfl
  | succ count =>
    rw [repeated, h]
    rfl

/-! ### Groups -/

/-- What is captured is what stands before the place behind it. -/
theorem upTo_eq_of_append {y : Place} {front : Text} (h : x.rest = front ++ y.rest) : x.upTo y = front := by
  have hlength : x.rest.length - y.rest.length = front.length := by
    rw [h, List.length_append, Nat.add_sub_cancel]
  rw [Place.upTo, hlength, h, List.take_left]

/-- A run with a literal behind it is captured at all lengths of the run, the longest first. -/
theorem Reads.group_plus_lit (h : Reads rs read) (p : CodePoint → Bool) (w : Text) :
    Reads (group (inRow [Regex.plus p, Regex.lit w]) :: rs) fun t =>
      (List.range (t.takeWhile p).length).reverse.findSome? fun i =>
        ((Text.after? w (t.drop (i + 1))).bind read).map fun r => ⟨(t.take (i + 1) ++ w) :: r.groups, r.rest⟩ := by
  intro x
  rw [first_cons, tries, tries_inRow_cons, tries_plus, List.findSome?_map, List.flatMap_map, findSome?_flatMap]
  congr 1
  funext i
  rw [List.findSome?_map]
  cases hw : Text.after? w (x.rest.drop (i + 1)) with
  | none =>
    have hnone : (inRow [Regex.lit w]).tries (x.skip (i + 1)) = [] := tries_inRow_lit_of_none [] hw
    rw [hnone]
    rfl
  | some u =>
    have hdrop := Text.after?_eq_some_iff.1 hw
    have hrest : x.rest = (x.rest.take (i + 1) ++ w) ++ u := by
      rw [List.append_assoc, ← hdrop, List.take_append_drop]
    obtain ⟨y, hy⟩ : ∃ y : Place, y = ⟨w.reverse ++ (x.skip (i + 1)).before, u⟩ := ⟨_, rfl⟩
    have htries : (inRow [Regex.lit w]).tries (x.skip (i + 1)) = [([], y)] := by
      have hplace : x.skip (i + 1) = ⟨(x.skip (i + 1)).before, w ++ u⟩ := by
        rw [← hdrop]
        rfl
      rw [hplace, tries_inRow_lit_of_append, hy]
      rfl
    have hyrest : y.rest = u := by rw [hy]
    have hcaptured : x.upTo y = x.rest.take (i + 1) ++ w := upTo_eq_of_append (by rw [hyrest]; exact hrest)
    rw [htries, List.findSome?_singleton, Option.bind_some, ← hyrest, ← h y]
    simp only [Function.comp, List.nil_append, List.singleton_append, hcaptured]

/-! ### Patterns -/

theorem eq_of_readAt {a b : Pattern} (h : a.readAt = b.readAt) : a = b := by
  cases a
  cases b
  cases h
  rfl

/-- A row behind the start of a line is the pattern of its reader there. -/
theorem pattern_lineStart (h : Reads rs read) (hsuffix : ∀ {t r}, read t = some r → r.rest <:+ t) :
    (inRow (lineStart :: rs)).pattern = .onLineStart read hsuffix := by
  refine eq_of_readAt ?_
  funext before t
  have hread : (inRow (lineStart :: rs)).pattern.readAt before t = first (lineStart :: rs) ⟨before, t⟩ :=
    List.head?_map
  rw [hread, first, tries_inRow_lineStart]
  simp only [Pattern.onLineStart]
  split
  · rw [← first, h]
  · rfl

end SourceJump.Regex
