import SourceJump.Proofs.Java.ClassImportRegex
import SourceJump.Proofs.Java.HeaderReading

/-!
# The regular expression for the header of a class

`^\s*(?:[\w@]+\s+)*class\s+name(?:\s*<[^{]*?>)?\s+extends\s+([\w$]+(?:\.[\w$]+)*)` has many ways to read a text:
modifiers and blanks are given back one by one, and brackets are looked for from the nearest on. The readers of the
header keep those ways that can succeed: behind blanks that are given back no part of the header
begins (`reads_modifiers`), and what is looked for lazily is looked for by recursion on the text (`reads_bracket`). So
searching for the expression is searching for the header, whatever the name is (`pattern_classHeaderRegex`).
-/

namespace SourceJump.Java

open Regex

/-! ### Dotted names -/

/-- `\.[\w$]+` -/
def componentRegex : Regex := inRow [lit ['.'], plus isNameChar]

/-- `[\w$]+(?:\.[\w$]+)*` -/
def dottedNameRegex : Regex := seq (plus isNameChar) (star componentRegex)

theorem tries_componentRegex_of_dot (before : Text) (t : Text) :
    componentRegex.tries ⟨before, CodePoint.char '.' :: t⟩ = (plus isNameChar).tries ⟨CodePoint.char '.' :: before, t⟩ := by
  have hdot : componentRegex.tries ⟨before, [CodePoint.char '.'] ++ t⟩ =
      (inRow [plus isNameChar]).tries ⟨CodePoint.char '.' :: before, t⟩ := tries_inRow_lit_of_append _
  exact hdot.trans (tries_inRow_singleton _ _)

theorem tries_componentRegex_of_stop {x : Place} (h : ∀ c ∈ x.rest.head?, isDottedChar c = false) :
    componentRegex.tries x = [] := by
  refine tries_inRow_lit_of_none _ (after?_eq_none_of_head rfl fun hmem => ?_)
  have hdot := h _ hmem
  revert hdot
  decide

/-- Behind a name the components that the dotted name has there are read first, all of them. -/
theorem head?_repeated_componentRegex {count : Nat} {x : Place} (hcount : x.rest.length ≤ count)
    (hx : ∀ c ∈ x.rest.head?, isNameChar c = false) : ∃ front y,
      (repeated componentRegex.tries count x).head? = some ([], y) ∧ x.rest = front ++ y.rest ∧
      ∀ name, name ≠ [] → (∀ c ∈ name, isNameChar c = true) → dottedName (name ++ x.rest) = name ++ front := by
  induction count generalizing x with
  | zero =>
    have hnil : x.rest = [] := List.eq_nil_of_length_eq_zero (Nat.le_zero.1 hcount)
    refine ⟨[], x, rfl, rfl, fun name _ hname => ?_⟩
    rw [List.append_nil]
    exact dottedName_append_stop hname (by simp [hnil])
  | succ count ih =>
    by_cases hdot : x.rest.head? = some (CodePoint.char '.')
    · obtain ⟨before, t⟩ := x
      obtain ⟨tail, rfl⟩ : ∃ tail, t = CodePoint.char '.' :: tail := List.head?_eq_some_iff.1 hdot
      obtain ⟨next, rest, rfl, hnext, hrest⟩ := exists_names_append tail
      have hstop := not_isNameChar_of_end hrest
      have hrun : (next ++ rest).takeWhile isNameChar = next := Text.takeWhile_append_of_stop hnext hstop
      have hstep := tries_componentRegex_of_dot before (next ++ rest)
      by_cases hne : next = []
      · -- A dot without a name behind it is left over.
        subst hne
        refine ⟨[], _, head?_repeated_of_nil _ ?_, rfl, fun name hname hchars => ?_⟩
        · rw [hstep, tries_plus, hrun]
          rfl
        · have hnone : dottedName ([] ++ rest) = [] := dottedName_eq_nil hstop
          rw [dottedName_append_dot hchars, if_neg hname, if_pos hnone, List.append_nil]
      · have hfirst := head?_tries_plus (x := ⟨CodePoint.char '.' :: before, next ++ rest⟩) (by rw [hrun]; exact hne)
        rw [hrun] at hfirst
        have hbehind : (Place.skip ⟨CodePoint.char '.' :: before, next ++ rest⟩ next.length).rest = rest := List.drop_left
        generalize Place.skip ⟨CodePoint.char '.' :: before, next ++ rest⟩ next.length = z at hfirst hbehind
        subst hbehind
        simp only [List.length_cons, List.length_append] at hcount
        obtain ⟨front, y, hy, hfront, hall⟩ := ih (x := z) (by omega) hstop
        refine ⟨CodePoint.char '.' :: (next ++ front), y, ?_, ?_, fun name hname hchars => ?_⟩
        · refine head?_repeated_of_head? (y := ([], z)) (hstep ▸ hfirst) ?_ hy
          simp only [List.length_cons, List.length_append]
          omega
        · rw [List.cons_append, List.append_assoc, ← hfront]
        · rw [dottedName_append_dot hchars, if_neg hname, hall next hne hnext, if_neg (by simp [hne])]
    · have hstop : ∀ c ∈ x.rest.head?, isDottedChar c = false := by
        intro c hc
        have hne : c ≠ CodePoint.char '.' := by
          rintro rfl
          exact hdot hc
        simp [isDottedChar, hx c hc, hne]
      refine ⟨[], x, head?_repeated_of_nil _ (tries_componentRegex_of_stop hstop), rfl, fun name _ hname => ?_⟩
      rw [List.append_nil]
      exact dottedName_append_stop hname hstop

/-- The longest dotted name is captured first. -/
theorem reads_dottedName : Reads [group dottedNameRegex] readBase := by
  rintro ⟨before, t⟩
  obtain ⟨name, rest, rfl, hname, hrest⟩ := exists_names_append t
  have hstop := not_isNameChar_of_end hrest
  have hrun : (name ++ rest).takeWhile isNameChar = name := Text.takeWhile_append_of_stop hname hstop
  show first [group dottedNameRegex] ⟨before, name ++ rest⟩ = readBase (name ++ rest)
  rw [readBase, first, tries_inRow_singleton, tries, List.head?_map, dottedNameRegex, tries, List.head?_flatMap]
  by_cases hne : name = []
  · subst hne
    have hnone : dottedName ([] ++ rest) = [] := dottedName_eq_nil hstop
    rw [tries_plus, hrun, hnone]
    rfl
  · have hfirst := head?_tries_plus (x := ⟨before, name ++ rest⟩) (by rw [hrun]; exact hne)
    rw [hrun] at hfirst
    have hbehind : (Place.skip ⟨before, name ++ rest⟩ name.length).rest = rest := List.drop_left
    generalize Place.skip ⟨before, name ++ rest⟩ name.length = z at hfirst hbehind
    subst hbehind
    obtain ⟨ys, hys⟩ := List.head?_eq_some_iff.1 hfirst
    obtain ⟨front, y, hy, hfront, hall⟩ := head?_repeated_componentRegex (Nat.le_refl _) hstop
    have hcut : name ++ z.rest = (name ++ front) ++ y.rest := by rw [List.append_assoc, ← hfront]
    have hcaptured : Place.upTo ⟨before, name ++ z.rest⟩ y = name ++ front := upTo_eq_of_append hcut
    rw [hall name hne hname, if_neg (by simp [hne]), hys, List.findSome?_cons, List.head?_map, tries, hy, hcut,
      List.drop_left]
    simp only [Option.map_some, ← hcut, hcaptured, List.nil_append]

/-! ### The clause of the base class -/

/-- `\s+extends\s+([\w$]+(?:\.[\w$]+)*)` -/
def clauseRegexes : List Regex := [plus isBlank, lit extendsWord, plus isBlank, group dottedNameRegex]

theorem reads_clause : Reads clauseRegexes readExtends := by
  have hname : FailsOn isBlank readBase := by
    intro c t hc
    have hnone : dottedName (c :: t) = [] := by
      refine dottedName_eq_nil fun d hd => ?_
      obtain rfl : c = d := by simpa using hd
      exact not_isNameChar_of_isBlank hc
    rw [readBase, hnone]
    rfl
  have hword := (reads_afterBlanks reads_dottedName hname).lit extendsWord
  exact (reads_afterBlanks hword (failsOn_lit rfl (by decide) _)).congr fun t => rfl

/-! ### Type parameters -/

/-- `\s*<[^{]*?>` -/
def parametersRegexes : List Regex :=
  [star (one isBlank), lit ['<'], lazyStar (one fun c => c ≠ '{'), lit ['>']]

/-- The nearest closing bracket with which the rest succeeds is found by recursion on the text. -/
theorem reads_bracket : Reads ([lazyStar (one fun c => c ≠ '{'), lit ['>']] ++ clauseRegexes) readAfterParameters := by
  refine ((reads_clause.lit ['>']).lazyStar_one _).congr fun t => ?_
  induction t with
  | nil => rfl
  | cons c t ih =>
    rw [readAfterParameters]
    by_cases hopen : c = '{'
    · rw [if_pos hopen, List.takeWhile_cons_of_neg (by simpa using hopen)]
      subst hopen
      rfl
    · rw [if_neg hopen, List.takeWhile_cons_of_pos (by simpa using hopen), List.length_cons, List.range_succ_eq_map,
        List.findSome?_cons, List.findSome?_map]
      have hrest : (List.range ((t.takeWhile fun c : CodePoint => decide (c ≠ '{')).length + 1)).findSome?
          ((fun i => (Text.after? ['>'] ((c :: t).drop i)).bind readExtends) ∘ Nat.succ) = readAfterParameters t := ih
      rw [hrest, List.drop_zero]
      by_cases hclose : c = '>'
      · subst hclose
        have hsome : Text.after? [CodePoint.char '>'] (CodePoint.char '>' :: t) = some t :=
          Text.after?_eq_some_iff.2 rfl
        rw [if_pos rfl, hsome, Option.bind_some]
        cases readExtends t <;> rfl
      · have hnone : Text.after? [CodePoint.char '>'] (c :: t) = none := if_neg (Ne.symm hclose)
        rw [if_neg hclose, hnone]
        rfl

theorem reads_parameters : Reads (parametersRegexes ++ clauseRegexes) readParameters :=
  ((reads_bracket.lit ['<']).star_one (failsOn_lit rfl (by decide) _)).congr fun _ => rfl

/-- The end of the header, with type parameters or without. -/
theorem reads_afterName :
    Reads (either (inRow parametersRegexes) (inRow []) :: clauseRegexes) readAfterName := by
  have hbare : Reads ([] ++ clauseRegexes) readExtends := reads_clause
  exact (Reads.either reads_parameters hbare).congr fun _ => rfl

/-! ### The word `class` -/

theorem afterSomeBlanks_eq (t : Text) : afterSomeBlanks t =
    (List.range (t.takeWhile isBlank).length).reverse.map fun i => t.drop (i + 1) := by
  induction t with
  | nil => rfl
  | cons c t ih =>
    rw [afterSomeBlanks]
    by_cases hc : isBlank c = true
    · rw [if_pos hc, ih, List.takeWhile_cons_of_pos hc, List.length_cons, List.range_succ_eq_map, List.reverse_cons,
        List.map_append, ← List.map_reverse, List.map_map]
      rfl
    · rw [if_neg hc, List.takeWhile_cons_of_neg hc]
      rfl

/-- `class\s+name` and the end of the header. -/
def fromClassRegexes (name : Text) : List Regex :=
  lit classWord :: plus isBlank :: lit name :: either (inRow parametersRegexes) (inRow []) :: clauseRegexes

theorem reads_fromClass (name : Text) : Reads (fromClassRegexes name) (readFromClass name) := by
  refine (((reads_afterName.lit name).plus isBlank).lit classWord).congr fun t => ?_
  show (Text.after? classWord t).bind _ = (Text.after? classWord t).bind _
  congr 1
  funext rest
  rw [afterSomeBlanks_eq, List.findSome?_map]
  rfl

theorem failsOn_readFromClass (name : Text) : FailsOn isBlank (readFromClass name) :=
  failsOn_lit rfl (by decide) _

/-! ### Modifiers -/

/-- `[\w@]+\s+` -/
def modifierRegex : Regex := inRow [plus isModifierChar, plus isBlank]

/-- A modifier is read as a whole, and the blanks behind it are given back one by one. -/
theorem tries_modifierRegex {x : Place} (h : x.rest.takeWhile isModifierChar ≠ []) : modifierRegex.tries x =
    (List.range ((x.rest.dropWhile isModifierChar).takeWhile isBlank).length).reverse.map fun i =>
      ([], (x.skip (x.rest.takeWhile isModifierChar).length).skip (i + 1)) := by
  have hinside : ∀ y : Place, (∃ c ∈ y.rest.head?, isModifierChar c = true) → (inRow [plus isBlank]).tries y = [] := by
    rintro ⟨before, t⟩ ⟨c, hc, hmodifier⟩
    refine tries_inRow_plus_of_empty ?_
    obtain ⟨tail, rfl⟩ := List.head?_eq_some_iff.1 hc
    refine List.takeWhile_cons_of_neg fun hblank => ?_
    rw [not_isModifierChar_of_isBlank hblank] at hmodifier
    exact absurd hmodifier (by decide)
  rw [modifierRegex, tries_inRow_plus x h hinside, tries_inRow_singleton, tries_plus, rest_skip_takeWhile]

theorem tries_modifierRegex_of_empty {x : Place} (h : x.rest.takeWhile isModifierChar = []) :
    modifierRegex.tries x = [] := tries_inRow_plus_of_empty h

theorem fst_of_mem_modifierRegex {x : Place} {y : List Text × Place} (h : y ∈ modifierRegex.tries x) : y.1 = [] := by
  by_cases hrun : x.rest.takeWhile isModifierChar = []
  · rw [tries_modifierRegex_of_empty hrun] at h
    cases h
  · rw [tries_modifierRegex hrun] at h
    obtain ⟨i, -, rfl⟩ := List.mem_map.1 h
    rfl

theorem fst_of_mem_repeated {step : Place → List (List Text × Place)} (hstep : ∀ x, ∀ y ∈ step x, y.1 = [])
    {count : Nat} {x : Place} {y : List Text × Place} (h : y ∈ repeated step count x) : y.1 = [] := by
  induction count generalizing x y with
  | zero =>
    obtain rfl := List.mem_singleton.1 h
    rfl
  | succ count ih =>
    rw [repeated, List.mem_append] at h
    rcases h with h | h
    · obtain ⟨z, hz, h⟩ := List.mem_flatMap.1 h
      obtain ⟨w, hw, rfl⟩ := List.mem_map.1 h
      rw [hstep x z (List.mem_of_mem_filter hz), ih hw]
      rfl
    · obtain rfl := List.mem_singleton.1 h
      rfl

/-- Of numbers tried from the greatest down only the greatest counts when the others yield nothing. -/
theorem findSome?_reverse_range {β : Type} {n : Nat} {f : Nat → Option β} (h : ∀ i < n, f i = none) :
    (List.range (n + 1)).reverse.findSome? f = f n := by
  have hothers : (List.range n).reverse.findSome? f = none := by
    refine List.findSome?_eq_none_iff.2 fun i hi => ?_
    rw [List.mem_reverse, List.mem_range] at hi
    exact h i hi
  rw [List.range_succ, List.reverse_append, List.reverse_singleton, List.singleton_append, List.findSome?_cons, hothers]
  cases f n <;> rfl

/-- Where a blank comes next there is no modifier to skip. -/
theorem afterModifiers_of_isBlank {c : CodePoint} (steps : Nat) (t : Text) (h : isBlank c = true) :
    afterModifiers steps (c :: t) = [c :: t] := by
  cases steps with
  | zero => rfl
  | succ steps =>
    have hnone : afterModifier? (c :: t) = none := by
      rw [afterModifier?, List.takeWhile_cons_of_neg (by rw [not_isModifierChar_of_isBlank h]; decide)]
      rfl
    rw [afterModifiers, hnone]

/-- Modifiers are skipped as often as possible first. Where blanks behind a modifier are given back, the rest of the
header would have to begin with a blank, so these ways are all in vain. -/
theorem findSome?_repeated_modifierRegex {rs : List Regex} {read : Text → Option Reading} (h : Reads rs read)
    (hf : FailsOn isBlank read) (count : Nat) (x : Place) :
    (repeated modifierRegex.tries count x).findSome? (fun y => first rs y.2) =
      (afterModifiers count x.rest).findSome? read := by
  induction count generalizing x with
  | zero =>
    rw [repeated, afterModifiers, List.findSome?_singleton, List.findSome?_singleton]
    exact h x
  | succ count ih =>
    have hways : (((modifierRegex.tries x).filter fun y => y.2.rest.length < x.rest.length).flatMap fun y =>
        (repeated modifierRegex.tries count y.2).map fun z => (y.1 ++ z.1, z.2)).findSome? (fun y => first rs y.2) =
        ((modifierRegex.tries x).filter fun y => y.2.rest.length < x.rest.length).findSome? fun y =>
          (afterModifiers count y.2.rest).findSome? read := by
      rw [findSome?_flatMap]
      congr 1
      funext y
      rw [List.findSome?_map, ← ih]
      rfl
    rw [repeated, List.findSome?_append, hways, List.findSome?_singleton, afterModifiers]
    by_cases hrun : x.rest.takeWhile isModifierChar = []
    · have hnone : afterModifier? x.rest = none := by
        rw [afterModifier?, hrun]
        rfl
      rw [tries_modifierRegex_of_empty hrun, hnone]
      simp [h x]
    · -- The place behind the modifier.
      obtain ⟨z, hz⟩ : ∃ z : Place, z = x.skip (x.rest.takeWhile isModifierChar).length := ⟨_, rfl⟩
      have hrest : z.rest = x.rest.dropWhile isModifierChar := by rw [hz, rest_skip_takeWhile]
      have hbehind : afterModifier? x.rest = afterBlanks? z.rest := by
        rw [afterModifier?, if_neg (by simpa using hrun), hrest]
      have hlength : x.rest.length = (x.rest.takeWhile isModifierChar).length + z.rest.length := by
        rw [hrest, ← List.length_append, List.takeWhile_append_dropWhile]
      have hshorter : ∀ y ∈ modifierRegex.tries x, decide (y.2.rest.length < x.rest.length) = true := by
        intro y hy
        have hpos := List.length_pos_iff.2 hrun
        rw [tries_modifierRegex hrun, ← hz] at hy
        obtain ⟨i, -, rfl⟩ := List.mem_map.1 hy
        simp only [Place.skip, List.length_drop, decide_eq_true_eq]
        omega
      rw [List.filter_eq_self.2 hshorter, tries_modifierRegex hrun, ← hz, ← hrest, hbehind, List.findSome?_map,
        afterBlanks?_eq]
      by_cases hblanks : z.rest.takeWhile isBlank = []
      · rw [if_pos hblanks, hblanks]
        simp [h x]
      · obtain ⟨n, hn⟩ := Nat.exists_eq_succ_of_ne_zero fun hzero => hblanks (List.eq_nil_of_length_eq_zero hzero)
        have hwhole : (z.skip (n + 1)).rest = z.rest.dropWhile isBlank := by
          rw [← Nat.succ_eq_add_one, ← hn]
          exact rest_skip_takeWhile z isBlank
        rw [if_neg hblanks, hn, findSome?_reverse_range]
        · simp only [Function.comp, hwhole, List.findSome?_append, List.findSome?_singleton, h x]
        · intro i hi
          obtain ⟨c, hc, hblank⟩ := head?_skip_of_lt (p := isBlank) (x := z) (show i + 1 < _ by omega)
          obtain ⟨tail, htail⟩ := List.head?_eq_some_iff.1 hc
          simp only [Function.comp, htail, afterModifiers_of_isBlank count tail hblank, List.findSome?_singleton]
          exact hf c tail hblank

theorem reads_modifiers {rs : List Regex} {read : Text → Option Reading} (h : Reads rs read)
    (hf : FailsOn isBlank read) :
    Reads (star modifierRegex :: rs) fun t => (afterModifiers t.length t).findSome? read := by
  intro x
  rw [first_cons_of_silent]
  · exact findSome?_repeated_modifierRegex h hf x.rest.length x
  · intro y hy
    exact fst_of_mem_repeated (fun _ _ hz => fst_of_mem_modifierRegex hz) hy

/-! ### The whole expression -/

/-- `^\s*(?:[\w@]+\s+)*class\s+name(?:\s*<[^{]*?>)?\s+extends\s+([\w$]+(?:\.[\w$]+)*)` -/
def classHeaderRegex (name : Text) : Regex :=
  inRow (lineStart :: star (one isBlank) :: star modifierRegex :: fromClassRegexes name)

/-- Searching for the regular expression is searching for the header of the class. -/
theorem pattern_classHeaderRegex (name : Text) : (classHeaderRegex name).pattern = classHeader name := by
  have hclass := failsOn_readFromClass name
  have hmodifiers : FailsOn isBlank fun t => (afterModifiers t.length t).findSome? (readFromClass name) := by
    intro c t hc
    show (afterModifiers (c :: t).length (c :: t)).findSome? (readFromClass name) = none
    rw [afterModifiers_of_isBlank _ t hc, List.findSome?_singleton]
    exact hclass c t hc
  have hreads := (reads_modifiers (reads_fromClass name) hclass).star_one hmodifiers
  exact pattern_lineStart (hreads.congr fun _ => rfl) suffix_of_readHeader

end SourceJump.Java
