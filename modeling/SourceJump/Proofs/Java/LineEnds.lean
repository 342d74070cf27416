import SourceJump.Proofs.Java.BaseClass
import SourceJump.Proofs.Text.LineEnds

/-!
# Declarations do not depend on the kind of line ends

A line end is a blank of either kind and no part of a name. So each reader reads the text with carriage returns before
its line feeds as it reads the text without them: it captures the same and leaves the same rest, written with carriage
returns (`IgnoresLineEnds`). The one reader that could stop between the two characters is the one for the blanks before
the name of a class; a name that stays on its line and is not empty does not go on there (`readHeader_ignoresLineEnds`).
A search tries no position between the two characters either, because it is no start of a line (`findFrom_crlf`).
-/

namespace SourceJump

/-- The reading of the text with carriage returns before its line feeds. -/
def Reading.crlf (r : Reading) : Reading :=
  ⟨r.groups, Text.crlf r.rest⟩

namespace Java

open Text

/-- The reader reads both texts in the same way. -/
def IgnoresLineEnds (read : Text → Option Reading) : Prop :=
  ∀ t, read (crlf t) = (read t).map Reading.crlf

/-- Steps that agree are composed to steps that agree. -/
theorem bind_map_comm {α β γ δ : Type} {g : α → β} {k : γ → δ} {f : α → Option γ} {f' : β → Option δ}
    (h : ∀ a, f' (g a) = (f a).map k) (x : Option α) : (x.map g).bind f' = (x.bind f).map k := by
  cases x with
  | none => rfl
  | some a => exact h a

/-! ### Imports -/

theorem afterBlanks?_crlf (t : Text) : afterBlanks? (crlf t) = (afterBlanks? t).map crlf := by
  have hblank : isBlank '\r' = isBlank '\n' := rfl
  rw [afterBlanks?_eq, afterBlanks?_eq, takeWhile_crlf hblank, dropWhile_crlf hblank]
  cases t.takeWhile isBlank with
  | nil => rfl
  | cons c gap =>
    have hne : crlf (c :: gap) ≠ [] := by
      by_cases hc : c = '\n'
      · simp [hc]
      · simp [crlf_cons hc]
    rw [if_neg hne, if_neg (List.cons_ne_nil c gap), Option.map_some]

theorem afterImport?_crlf (t : Text) : afterImport? (crlf t) = (afterImport? t).map crlf := by
  have hword : StaysOnLine importWord := ⟨by decide, by decide⟩
  rw [afterImport?, dropWhile_crlf rfl, after?_crlf hword, afterImport?]
  exact bind_map_comm afterBlanks?_crlf _

theorem afterSemicolon?_eq (t : Text) : afterSemicolon? t = after? [CodePoint.char ';'] (t.dropWhile isBlank) := by
  apply Option.ext
  intro rest
  rw [afterSemicolon?_eq_some_iff, after?_eq_some_iff]
  constructor
  · rintro ⟨gap, rfl, hgap⟩
    exact dropWhile_append_of_stop hgap (by simp; decide)
  · intro h
    exact ⟨t.takeWhile isBlank, by rw [← List.singleton_append, ← h, List.takeWhile_append_dropWhile],
      fun c hc => List.mem_takeWhile_imp hc⟩

theorem afterSemicolon?_crlf (t : Text) : afterSemicolon? (crlf t) = (afterSemicolon? t).map crlf := by
  have hword : StaysOnLine [CodePoint.char ';'] := ⟨by decide, by decide⟩
  rw [afterSemicolon?_eq, afterSemicolon?_eq, dropWhile_crlf rfl, after?_crlf hword]

theorem readPackage_ignoresLineEnds : IgnoresLineEnds readPackage := by
  have hword : StaysOnLine [CodePoint.char '*'] := ⟨by decide, by decide⟩
  intro body
  have hrun : (crlf body).takeWhile isDottedChar = body.takeWhile isDottedChar := takeWhile_crlf_of_solid rfl rfl body
  simp only [readPackage, hrun, dropWhile_crlf (show isDottedChar '\r' = isDottedChar '\n' from rfl)]
  rw [after?_crlf hword]
  refine bind_map_comm (fun tail => ?_) _
  rw [afterSemicolon?_crlf]
  refine bind_map_comm (fun rest => ?_) _
  split <;> rfl

theorem readWildcard_ignoresLineEnds : IgnoresLineEnds readWildcard := by
  intro t
  rw [readWildcard_eq_bind, readWildcard_eq_bind, afterImport?_crlf]
  exact bind_map_comm readPackage_ignoresLineEnds _

/-- No line feed is among dotted characters. -/
theorem newline_not_mem_of_isDottedChar {t : Text} (h : ∀ c ∈ t, isDottedChar c = true) : CodePoint.char '\n' ∉ t := by
  intro hmem
  have hdotted := h _ hmem
  revert hdotted
  decide

theorem readNamed_crlf {name : Text} (hname : StaysOnLine name) {body : Text} {taken : Nat}
    (htaken : taken ≤ (body.takeWhile isDottedChar).length) :
    readNamed name (crlf body) taken = (readNamed name body taken).map Reading.crlf := by
  have hword : StaysOnLine (CodePoint.char '.' :: name) := hname.cons (by decide) (by decide)
  induction taken with
  | zero => rfl
  | succ taken ih =>
    have hsolid : CodePoint.char '\n' ∉ body.take (taken + 1) := by
      have hrun : body.take (taken + 1) = (body.takeWhile isDottedChar).take (taken + 1) := by
        rw [← take_length_takeWhile, List.take_take, Nat.min_eq_left htaken]
      rw [hrun]
      exact newline_not_mem_of_isDottedChar fun c hc => List.mem_takeWhile_imp (List.mem_of_mem_take hc)
    have hlength : taken + 1 ≤ body.length := htaken.trans (List.takeWhile_sublist _).length_le
    obtain ⟨htake, hdrop⟩ := take_drop_crlf hlength hsolid
    rw [readNamed, readNamed, htake, hdrop, after?_crlf hword, bind_map_comm afterSemicolon?_crlf]
    cases (after? (CodePoint.char '.' :: name) (body.drop (taken + 1))).bind afterSemicolon? with
    | none => exact ih (Nat.le_of_succ_le htaken)
    | some rest => rfl

theorem readSingleImport_ignoresLineEnds {name : Text} (hname : StaysOnLine name) :
    IgnoresLineEnds (readSingleImport name) := by
  intro t
  have hrun : ∀ body : Text, (crlf body).takeWhile isDottedChar = body.takeWhile isDottedChar :=
    takeWhile_crlf_of_solid rfl rfl
  rw [readSingleImport, readSingleImport, afterImport?_crlf]
  refine bind_map_comm (fun body => ?_) _
  rw [hrun, readNamed_crlf hname (Nat.le_refl _)]

/-! ### Headers -/

theorem afterModifier?_crlf (t : Text) : afterModifier? (crlf t) = (afterModifier? t).map crlf := by
  have hmodifier : isModifierChar '\r' = isModifierChar '\n' := rfl
  rw [afterModifier?, afterModifier?, takeWhile_crlf_of_solid rfl rfl, dropWhile_crlf hmodifier, afterBlanks?_crlf]
  split <;> rfl

theorem afterModifiers_crlf (steps : Nat) (t : Text) :
    afterModifiers steps (crlf t) = (afterModifiers steps t).map crlf := by
  induction steps generalizing t with
  | zero => rfl
  | succ steps ih =>
    rw [afterModifiers, afterModifiers, afterModifier?_crlf]
    cases afterModifier? t with
    | none => rfl
    | some rest =>
      rw [List.map_append, List.map_singleton, ← ih]
      rfl

/-- A modifier takes a character at least. -/
theorem length_lt_of_afterModifier? {t rest : Text} (h : afterModifier? t = some rest) : rest.length < t.length := by
  obtain ⟨front, rfl, hne, -⟩ := exists_of_afterModifier? h
  have hpos := List.length_pos_iff.2 hne
  rw [List.length_append]
  omega

/-- More steps than there are characters make no difference. -/
theorem afterModifiers_eq_of_le {t : Text} {steps steps' : Nat} (h : t.length ≤ steps) (h' : t.length ≤ steps') :
    afterModifiers steps t = afterModifiers steps' t := by
  have hnil : ∀ steps : Nat, afterModifiers steps [] = [[]] := fun steps => by cases steps <;> rfl
  induction steps generalizing t steps' with
  | zero =>
    obtain rfl := List.length_eq_zero_iff.1 (Nat.le_zero.1 h)
    rw [hnil, hnil]
  | succ steps ih =>
    cases steps' with
    | zero =>
      obtain rfl := List.length_eq_zero_iff.1 (Nat.le_zero.1 h')
      rw [hnil, hnil]
    | succ steps' =>
      rw [afterModifiers, afterModifiers]
      cases hrest : afterModifier? t with
      | none => rfl
      | some rest =>
        have hlt := length_lt_of_afterModifier? hrest
        have hsame : afterModifiers steps rest = afterModifiers steps' rest := ih (by omega) (by omega)
        dsimp only
        rw [hsame]

/-- The blanks before a name are left in the same places: what stands between the two characters of a line end begins
with a line feed, where nothing can be read on. -/
theorem findSome?_afterSomeBlanks_crlf {f : Text → Option Reading} (hf : IgnoresLineEnds f)
    (hnewline : ∀ t, f (CodePoint.char '\n' :: t) = none) (t : Text) :
    (afterSomeBlanks (crlf t)).findSome? f = ((afterSomeBlanks t).findSome? f).map Reading.crlf := by
  induction t using newline_induction with
  | nil => rfl
  | newline t ih =>
    have hgaps : afterSomeBlanks (crlf (CodePoint.char '\n' :: t)) =
        afterSomeBlanks (crlf t) ++ [crlf t] ++ [CodePoint.char '\n' :: crlf t] := rfl
    have hgaps' : afterSomeBlanks (CodePoint.char '\n' :: t) = afterSomeBlanks t ++ [t] := rfl
    rw [hgaps, hgaps', List.findSome?_append, List.findSome?_append, List.findSome?_append, ih,
      List.findSome?_singleton, List.findSome?_singleton, List.findSome?_singleton, hf t, hnewline, Option.or_none,
      Option.map_or]
  | other c t hc ih =>
    rw [crlf_cons hc, afterSomeBlanks, afterSomeBlanks]
    split
    · rw [List.findSome?_append, List.findSome?_append, ih, List.findSome?_singleton, List.findSome?_singleton, hf t,
        Option.map_or]
    · rfl

theorem readBase_ignoresLineEnds : IgnoresLineEnds readBase := by
  intro t
  have hname : dottedName (crlf t) = dottedName t := by
    rw [dottedName, dottedName, takeWhile_crlf_of_solid rfl rfl]
  have hprefix : dottedName t <+: t := dottedName_prefix t
  have hsolid : CodePoint.char '\n' ∉ t.take (dottedName t).length := by
    rw [← List.prefix_iff_eq_take.1 hprefix]
    by_cases hne : dottedName t = []
    · simp [hne]
    · exact newline_not_mem_of_isDottedChar (isDottedName_dottedName hne).isDottedChar
  obtain ⟨-, hdrop⟩ := take_drop_crlf hprefix.length_le hsolid
  rw [readBase, readBase, hname, hdrop]
  split <;> rfl

theorem readExtends_ignoresLineEnds : IgnoresLineEnds readExtends := by
  have hword : StaysOnLine extendsWord := ⟨by decide, by decide⟩
  intro t
  rw [readExtends_eq_bind, readExtends_eq_bind, afterBlanks?_crlf]
  refine bind_map_comm (fun u => ?_) _
  rw [after?_crlf hword]
  refine bind_map_comm (fun v => ?_) _
  rw [afterBlanks?_crlf]
  exact bind_map_comm readBase_ignoresLineEnds _

theorem readAfterParameters_ignoresLineEnds : IgnoresLineEnds readAfterParameters := by
  intro t
  induction t using newline_induction with
  | nil => rfl
  | newline t ih => exact ih
  | other c t hc ih =>
    rw [crlf_cons hc, readAfterParameters, readAfterParameters, readExtends_ignoresLineEnds t, ih]
    cases readExtends t <;> split_ifs <;> rfl

theorem readAfterName_ignoresLineEnds : IgnoresLineEnds readAfterName := by
  have hword : StaysOnLine [CodePoint.char '<'] := ⟨by decide, by decide⟩
  intro t
  have hparameters : readParameters (crlf t) = (readParameters t).map Reading.crlf := by
    rw [readParameters, readParameters, dropWhile_crlf rfl, after?_crlf hword]
    exact bind_map_comm readAfterParameters_ignoresLineEnds _
  rw [readAfterName, readAfterName, hparameters, readExtends_ignoresLineEnds t]
  cases readParameters t <;> rfl

theorem readFromClass_ignoresLineEnds {name : Text} (hne : name ≠ []) (hname : StaysOnLine name) :
    IgnoresLineEnds (readFromClass name) := by
  have hword : StaysOnLine classWord := ⟨by decide, by decide⟩
  intro t
  rw [readFromClass, readFromClass, after?_crlf hword]
  refine bind_map_comm (fun rest => ?_) _
  refine findSome?_afterSomeBlanks_crlf (fun u => ?_) (fun u => ?_) rest
  · rw [after?_crlf hname]
    exact bind_map_comm readAfterName_ignoresLineEnds _
  · obtain ⟨c, name, rfl⟩ := List.exists_cons_of_ne_nil hne
    have hc : c ≠ CodePoint.char '\n' := fun hc => hname.newline (hc ▸ List.mem_cons_self)
    rw [after?, if_neg hc]
    rfl

/-- **A header is read in the same way with either kind of line ends.** -/
theorem readHeader_ignoresLineEnds {name : Text} (hne : name ≠ []) (hname : StaysOnLine name) :
    IgnoresLineEnds (readHeader name) := by
  intro t
  have hsteps : (t.dropWhile isBlank).length ≤ (crlf (t.dropWhile isBlank)).length := by
    rw [length_crlf]
    exact Nat.le_add_right _ _
  have hclass : readFromClass name ∘ crlf = fun u => (readFromClass name u).map Reading.crlf :=
    funext (readFromClass_ignoresLineEnds hne hname)
  show (afterModifiers ((crlf t).dropWhile isBlank).length ((crlf t).dropWhile isBlank)).findSome? _ =
    ((afterModifiers (t.dropWhile isBlank).length (t.dropWhile isBlank)).findSome? _).map _
  rw [dropWhile_crlf rfl, afterModifiers_crlf, afterModifiers_eq_of_le hsteps (Nat.le_refl _), List.findSome?_map, hclass,
    List.map_findSome?]
  rfl

/-! ### Searches -/

/-- What is read at the first position, or else further on. -/
theorem map_findFrom_cons (p : Pattern) (before : Text) (c : CodePoint) (t : Text) :
    (p.findFrom before (c :: t)).map (·.2) =
      (p.readAt before (c :: t)).or ((p.findFrom (c :: before) t).map (·.2)) := by
  rw [Pattern.findFrom]
  cases p.readAt before (c :: t) with
  | some r => rfl
  | none =>
    rw [Option.map_map, Option.none_or]
    rfl

/-- **A search reads the same in both texts.** -/
theorem findFrom_crlf {read : Text → Option Reading} {hsuffix : ∀ {t r}, read t = some r → r.rest <:+ t}
    (hread : IgnoresLineEnds read) (t : Text) {before before' : Text}
    (hbefore : Pattern.startsLine before'.head? = Pattern.startsLine before.head?) :
    ((Pattern.onLineStart read hsuffix).findFrom before' (crlf t)).map (·.2) =
      (((Pattern.onLineStart read hsuffix).findFrom before t).map (·.2)).map Reading.crlf := by
  have hat : ∀ (before before' : Text) (t : Text), Pattern.startsLine before'.head? = Pattern.startsLine before.head? →
      (Pattern.onLineStart read hsuffix).readAt before' (crlf t) =
        ((Pattern.onLineStart read hsuffix).readAt before t).map Reading.crlf := by
    intro before before' t hbefore
    show (if _ then read (crlf t) else none) = (if _ then read t else none).map Reading.crlf
    rw [hbefore, hread t]
    split <;> rfl
  induction t using newline_induction generalizing before before' with
  | nil =>
    have hnil : ∀ before, ((Pattern.onLineStart read hsuffix).findFrom before []).map (·.2) =
        (Pattern.onLineStart read hsuffix).readAt before [] := by
      intro before
      rw [Pattern.findFrom, Option.map_map]
      exact Option.map_id'
    rw [crlf_nil, hnil, hnil]
    exact hat before before' [] hbefore
  | newline t ih =>
    -- No line starts between the two characters.
    have hhere := hat before before' (CodePoint.char '\n' :: t) hbefore
    have hbetween : (Pattern.onLineStart read hsuffix).readAt (CodePoint.char '\r' :: before')
        (CodePoint.char '\n' :: crlf t) = none := rfl
    have hbehind : Pattern.startsLine (CodePoint.char '\n' :: CodePoint.char '\r' :: before').head? =
        Pattern.startsLine (CodePoint.char '\n' :: before).head? := rfl
    rw [crlf_newline] at hhere
    rw [crlf_newline, map_findFrom_cons, map_findFrom_cons, map_findFrom_cons, hhere, hbetween, Option.none_or,
      ih hbehind, Option.map_or]
  | other c t hc ih =>
    have hhere := hat before before' (c :: t) hbefore
    have hbehind : Pattern.startsLine (c :: before').head? = Pattern.startsLine (c :: before).head? := rfl
    rw [crlf_cons hc] at hhere
    rw [crlf_cons hc, map_findFrom_cons, map_findFrom_cons, hhere, ih hbehind, Option.map_or]

/-- The groups of the first match are the same in both texts. -/
theorem groups_search_crlf {read : Text → Option Reading} {hsuffix : ∀ {t r}, read t = some r → r.rest <:+ t}
    (hread : IgnoresLineEnds read) (t : Text) :
    ((Pattern.onLineStart read hsuffix).search (crlf t) 0).map (·.groups) =
      ((Pattern.onLineStart read hsuffix).search t 0).map (·.groups) := by
  have hgroups : ∀ t, ((Pattern.onLineStart read hsuffix).search t 0).map (·.groups) =
      (((Pattern.onLineStart read hsuffix).findFrom [] t).map (·.2)).map (·.groups) := by
    intro t
    rw [Pattern.search, Nat.zero_min, List.drop_zero, Option.map_map, Option.map_map]
    rfl
  have hfound : ((Pattern.onLineStart read hsuffix).findFrom [] (crlf t)).map (·.2) =
      (((Pattern.onLineStart read hsuffix).findFrom [] t).map (·.2)).map Reading.crlf := findFrom_crlf hread t rfl
  rw [hgroups, hgroups, hfound, Option.map_map]
  rfl

/-! ### Imported packages -/

theorem packageAt?_crlf (t : Text) : packageAt? (crlf t) = packageAt? t := by
  have hword : StaysOnLine importWord := ⟨by decide, by decide⟩
  rw [packageAt?, packageAt?, after?_crlf hword, readWildcard_ignoresLineEnds t]
  cases after? importWord t with
  | none => rfl
  | some rest =>
    rw [Option.map_some, Option.bind_map]
    rfl

theorem packageImportsFrom_crlf (t : Text) (offset offset' : Nat) (blankSoFar : Bool) :
    (packageImportsFrom offset' blankSoFar (crlf t)).map (·.2) = (packageImportsFrom offset blankSoFar t).map (·.2) := by
  induction t using newline_induction generalizing offset offset' blankSoFar with
  | nil => rfl
  | newline t ih =>
    have hreturn : blankSoFar = true → packageAt? (CodePoint.char '\r' :: CodePoint.char '\n' :: crlf t) = none :=
      fun _ => packageAt?_eq_none_of_ne _ (by decide)
    have hline : ∀ (rest : Text) (offset : Nat) (blankSoFar : Bool),
        packageImportsFrom offset blankSoFar (CodePoint.char '\n' :: rest) = packageImportsFrom (offset + 1) true rest :=
      fun rest offset _ => packageImportsFrom_cons_of_none offset fun _ => packageAt?_eq_none_of_ne rest (by decide)
    rw [crlf_newline, packageImportsFrom_cons_of_none offset' hreturn, hline, hline, ih]
  | other c t hc ih =>
    have hhere := packageAt?_crlf (c :: t)
    rw [crlf_cons hc] at hhere
    rw [crlf_cons hc, packageImportsFrom, packageImportsFrom, hhere]
    simp only [List.map_append, ih (offset + 1) (offset' + 1), ← Option.toList_map, Option.map_map]
    rfl

theorem packageImports_crlf (t : Text) : (packageImports (crlf t)).map (·.2) = (packageImports t).map (·.2) :=
  packageImportsFrom_crlf t 0 0 true

end Java

end SourceJump
