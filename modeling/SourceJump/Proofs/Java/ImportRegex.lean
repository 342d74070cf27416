import SourceJump.Proofs.Buffer.Regex
import SourceJump.Proofs.Java.PackageImports

/-!
# The regular expression for imports of packages

`^\s*import\s+([\w$.]+)\.\*\s*;` could be read in many ways: blanks may be left over for what follows, and
the name may end early. Only one way ever succeeds, because no blank begins the word `import` or a name, and
because the name must end right before the last dot of a run. So the expression reads what `readWildcard` reads
without going back (`readings_wildcardRegex`).
-/

namespace SourceJump.Java

open Regex

/-- `^\s*import\s+([\w$.]+)\.\*\s*;` -/
def wildcardRegex : Regex :=
  inRow [lineStart, star (one isBlank), lit importWord, plus isBlank, group (plus isDottedChar),
    lit ['.', '*'], star (one isBlank), lit [';']]

theorem rest_skip_takeWhile (x : Place) (p : CodePoint → Bool) :
    (x.skip (x.rest.takeWhile p).length).rest = x.rest.dropWhile p := Text.drop_length_takeWhile p x.rest

theorem tries_lit_of_blank {c : CodePoint} {word : Text} (rs : List Regex) {y : Place} (hword : word.head? = some c)
    (hc : isBlank c = false) (hy : ∃ d ∈ y.rest.head?, isBlank d = true) : (inRow (lit word :: rs)).tries y = [] := by
  obtain ⟨d, hd, hblank⟩ := hy
  refine tries_inRow_lit_of_none rs (after?_eq_none_of_head hword fun hmem => ?_)
  rw [Option.mem_unique hmem hd, hblank] at hc
  exact absurd hc (by decide)

/-- The end of a declaration: blanks and a semicolon. -/
theorem readings_semicolon (x : Place) :
    ((inRow [star (one isBlank), lit [';']]).tries x).map (fun y => (⟨y.1, y.2.rest⟩ : Reading)) =
      ((afterSemicolon? x.rest).map fun rest => (⟨[], rest⟩ : Reading)).toList := by
  rw [tries_inRow_star_one x fun y hy => tries_lit_of_blank [] rfl (by decide) hy]
  generalize hz : x.skip (x.rest.takeWhile isBlank).length = z
  have hrest : z.rest = x.rest.dropWhile isBlank := by rw [← hz, rest_skip_takeWhile]
  unfold afterSemicolon?
  rw [← hrest]
  obtain ⟨before, t⟩ := z
  split
  · next tail htail =>
    obtain rfl : t = CodePoint.char ';' :: tail := htail
    rw [show CodePoint.char ';' :: tail = [CodePoint.char ';'] ++ tail from rfl, tries_inRow_lit_of_append]
    simp [inRow, tries, Text.after?, Place.skip]
  · next hne =>
    rw [tries_inRow_lit_of_none]
    · rfl
    · refine after?_eq_none_of_head rfl fun h => ?_
      cases t with
      | nil => simp at h
      | cons c tail =>
        obtain rfl : c = CodePoint.char ';' := by simpa using h
        exact hne tail rfl

theorem readings_dotStar (x : Place) :
    ((inRow [lit ['.', '*'], star (one isBlank), lit [';']]).tries x).map (fun y => (⟨y.1, y.2.rest⟩ : Reading)) =
      (((Text.after? ['.', '*'] x.rest).bind afterSemicolon?).map fun rest => (⟨[], rest⟩ : Reading)).toList := by
  cases h : Text.after? ['.', '*'] x.rest with
  | none =>
    rw [tries_inRow_lit_of_none _ h]
    rfl
  | some u =>
    obtain ⟨before, t⟩ := x
    obtain rfl := Text.after?_eq_some_iff.1 h
    rw [tries_inRow_lit_of_append, readings_semicolon]
    rfl

/-! ### The name of the package -/

/-- A dot and an asterisk at the end of some dotted characters are at the end of the whole run. -/
theorem run_of_dotStar {body u : Text} {count : Nat} (hcount : count ≤ (body.takeWhile isDottedChar).length)
    (h : Text.after? ['.', '*'] (body.drop count) = some u) :
    body.takeWhile isDottedChar = body.take count ++ [CodePoint.char '.'] ∧
      body.dropWhile isDottedChar = CodePoint.char '*' :: u := by
  have hdrop : body.drop count = CodePoint.char '.' :: CodePoint.char '*' :: u := Text.after?_eq_some_iff.1 h
  have hbody : body = (body.take count ++ [CodePoint.char '.']) ++ CodePoint.char '*' :: u := by
    rw [List.append_assoc, List.singleton_append, ← hdrop, List.take_append_drop]
  have hdotted : ∀ c ∈ body.take count ++ [CodePoint.char '.'], isDottedChar c = true := by
    intro c hc
    rw [List.mem_append, List.mem_singleton] at hc
    rcases hc with hc | rfl
    · have hbegins : body.take count <+: body.takeWhile isDottedChar :=
        List.prefix_of_prefix_length_le (List.take_prefix _ _) (List.takeWhile_prefix _)
          ((List.length_take_le _ _).trans hcount)
      exact List.mem_takeWhile_imp (hbegins.subset hc)
    · decide
  have hstar : ∀ c ∈ (CodePoint.char '*' :: u).head?, isDottedChar c = false := by
    intro c hc
    obtain rfl : CodePoint.char '*' = c := by simpa using hc
    decide
  generalize body.take count ++ [CodePoint.char '.'] = run at hbody hdotted ⊢
  rw [hbody]
  exact ⟨Text.takeWhile_append_of_stop hdotted hstar, Text.dropWhile_append_of_stop hdotted hstar⟩

/-- Of all ways to end the name early, only the one before the last dot of the run can succeed. -/
theorem readings_package (x : Place) :
    ((inRow [group (plus isDottedChar), lit ['.', '*'], star (one isBlank), lit [';']]).tries x).map
      (fun y => (⟨y.1, y.2.rest⟩ : Reading)) = (readPackage x.rest).toList := by
  have hways : ((inRow [group (plus isDottedChar), lit ['.', '*'], star (one isBlank), lit [';']]).tries x).map
      (fun y => (⟨y.1, y.2.rest⟩ : Reading)) =
      (List.range (x.rest.takeWhile isDottedChar).length).reverse.flatMap fun i =>
        (((Text.after? ['.', '*'] (x.rest.drop (i + 1))).bind afterSemicolon?).map fun rest =>
          (⟨[x.rest.take (i + 1)], rest⟩ : Reading)).toList := by
    rw [tries_inRow_group_plus, List.map_flatMap]
    refine List.flatMap_congr fun i _ => ?_
    have h := congrArg (List.map fun r : Reading => (⟨x.rest.take (i + 1) :: r.groups, r.rest⟩ : Reading))
      (readings_dotStar (x.skip (i + 1)))
    rw [List.map_map] at h ⊢
    refine h.trans ?_
    rw [← Option.toList_map, Option.map_map]
    rfl
  rw [hways]
  cases hread : readPackage x.rest with
  | none =>
    refine List.flatMap_eq_nil_iff.2 fun i hi => ?_
    rw [List.mem_reverse, List.mem_range] at hi
    rw [Option.toList_eq_nil_iff, Option.map_eq_none_iff, Option.bind_eq_none_iff]
    intro u hu
    cases hrest : afterSemicolon? u with
    | none => rfl
    | some rest =>
      obtain ⟨hrun, htail⟩ := run_of_dotStar (by omega) hu
      have hne : x.rest.take (i + 1) ≠ [] := by
        have := (List.takeWhile_prefix isDottedChar (l := x.rest)).length_le
        rw [← List.length_pos_iff, List.length_take]
        omega
      have := (readPackage_eq_some_iff (r := ⟨[x.rest.take (i + 1)], rest⟩)).2 ⟨_, u, rfl, hne, hrun, htail, hrest⟩
      rw [hread] at this
      cases this
  | some r =>
    obtain ⟨package, u, hgroups, hne, hrun, htail, hrest⟩ := readPackage_eq_some_iff.1 hread
    have hpos := List.length_pos_iff.2 hne
    have hbody : x.rest = package ++ CodePoint.char '.' :: CodePoint.char '*' :: u := by
      rw [← List.takeWhile_append_dropWhile (p := isDottedChar) (l := x.rest), hrun, htail]
      simp
    have hlength : (x.rest.takeWhile isDottedChar).length = package.length + 1 := by
      rw [hrun, List.length_append, List.length_singleton]
    rw [flatMap_eq_of_unique (a := package.length - 1) (List.nodup_reverse.2 List.nodup_range)]
    · have hdrop : x.rest.drop package.length = [CodePoint.char '.', CodePoint.char '*'] ++ u := by
        rw [hbody, List.drop_left]
        rfl
      have htake : x.rest.take package.length = package := by rw [hbody, List.take_left]
      rw [Nat.sub_add_cancel hpos, hdrop, htake, Text.after?_eq_some_iff.2 rfl, Option.bind_some, hrest]
      obtain ⟨groups, rest⟩ := r
      obtain rfl : groups = [package] := hgroups
      rfl
    · rw [List.mem_reverse, List.mem_range, hlength]
      omega
    · intro i hi hother
      rw [List.mem_reverse, List.mem_range] at hi
      rw [Option.toList_eq_nil_iff, Option.map_eq_none_iff, Option.bind_eq_none_iff]
      intro u' hu'
      -- A success there would end the run at another place.
      have hrun' := (run_of_dotStar (by omega) hu').1
      have := congrArg List.length hrun'
      rw [hlength, List.length_append, List.length_take, List.length_singleton, hbody, List.length_append] at this
      simp only [List.length_cons] at this
      omega

/-! ### The whole expression -/

theorem tries_package_of_blank {rs : List Regex} {y : Place} (hy : ∃ c ∈ y.rest.head?, isBlank c = true) :
    (inRow (group (plus isDottedChar) :: rs)).tries y = [] := by
  obtain ⟨c, hc, hblank⟩ := hy
  have hrun : y.rest.takeWhile isDottedChar = [] := by
    cases hrest : y.rest with
    | nil => rfl
    | cons d rest =>
      obtain rfl : d = c := by simpa [hrest] using hc
      exact List.takeWhile_cons_of_neg (by rw [not_isDottedChar_of_isBlank hblank]; decide)
  rw [tries_inRow_group_plus, hrun]
  rfl

/-- The expression reads what `readWildcard` reads at the start of a line, and in this one way only. -/
theorem readings_wildcardRegex (before : Text) (t : Text) :
    wildcardRegex.readings before t = (wildcardImport.readAt before t).toList := by
  rw [readings, wildcardRegex, tries_inRow_lineStart]
  simp only [wildcardImport, Pattern.onLineStart]
  cases Pattern.startsLine before.head? with
  | false => rfl
  | true =>
    rw [if_pos rfl, if_pos rfl, tries_inRow_star_one _ fun y hy => tries_lit_of_blank _ rfl (by decide) hy]
    -- The place behind the leading blanks.
    have hfront := rest_skip_takeWhile ⟨before, t⟩ isBlank
    generalize Place.skip ⟨before, t⟩ _ = x at hfront ⊢
    obtain ⟨before', t'⟩ := x
    obtain rfl : t' = t.dropWhile isBlank := hfront
    rw [readWildcard_eq_bind, afterImport?]
    cases hword : Text.after? importWord (t.dropWhile isBlank) with
    | none =>
      rw [tries_inRow_lit_of_none _ hword]
      rfl
    | some after =>
      rw [Text.after?_eq_some_iff.1 hword, tries_inRow_lit_of_append, Option.bind_some, afterBlanks?_eq]
      by_cases hgap : after.takeWhile isBlank = []
      · rw [if_pos hgap, tries_inRow_plus_of_empty hgap]
        rfl
      · rw [if_neg hgap, tries_inRow_plus _ hgap fun y hy => tries_package_of_blank hy, readings_package,
          rest_skip_takeWhile]
        rfl

/-- Searching for the regular expression is searching for imports of packages. -/
theorem pattern_wildcardRegex : wildcardRegex.pattern = wildcardImport := by
  have h : wildcardRegex.pattern.readAt = wildcardImport.readAt := by
    funext before t
    change (wildcardRegex.readings before t).head? = _
    rw [readings_wildcardRegex]
    cases wildcardImport.readAt before t <;> rfl
  cases hp : wildcardRegex.pattern
  cases hq : wildcardImport
  rw [hp, hq] at h
  cases h
  rfl

end SourceJump.Java
