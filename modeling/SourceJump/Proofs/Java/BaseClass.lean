import SourceJump.Proofs.Buffer.FirstReading
import SourceJump.Proofs.Java.HeaderRegex

/-!
# The base class behind type parameters of any nesting

A text holds the header of a class: modifiers, the word `class`, the name, type parameters or none, and what follows
(`HeaderIn`). A reading of the regular expression for headers leads to some place where the word `class` and the name
stand. It cannot be before the header, where there is none, and it cannot be behind it, because modifiers would have to
lead from the header to another word `class` (`hasWord_of_later_class`). So the reading ends as the header does, and
what is captured is the whole name behind `extends`, never a bound inside the brackets
(`search_captures_base_class`).
-/

namespace SourceJump.Java

/-- The word stands somewhere in the text, not as a part of a longer name. -/
def HasWord (word t : Text) : Prop :=
  ∃ before after : Text, t = before ++ (word ++ after) ∧ (∀ c ∈ before.getLast?, isNameChar c = false) ∧
    ∀ c ∈ after.head?, isNameChar c = false

/-- The word `class`, blanks and the name stand at the offset. -/
def NamesClassAt (t : Text) (offset : Nat) (name : Text) : Prop :=
  ∃ gap rest : Text, t.drop offset = classWord ++ (gap ++ (name ++ rest)) ∧ gap ≠ [] ∧ IsGap gap

/-- The word `extends` at the front, blanks before it aside, and then the base class: the longest dotted name that
stands there. -/
def ExtendsBase (t base : Text) : Prop :=
  ∃ gap gap' rest : Text, t = gap ++ (extendsWord ++ (gap' ++ (base ++ rest))) ∧ gap ≠ [] ∧ IsGap gap ∧ gap' ≠ [] ∧
    IsGap gap' ∧ IsDottedName base ∧ ∀ more, more <+: rest → IsDottedName (base ++ more) → more = []

/-- The header of the class `name` in a text, cut into its parts. The word `class` does not stand between the name and
the next brace, and before the header nothing looks like the name of the class. -/
structure HeaderIn (text name : Text) where
  /-- The lines before. -/
  before : Text
  modifiers : Text
  gap : Text
  parameters : Text
  /-- All that follows the name and its type parameters. -/
  rest : Text
  text_eq : text = before ++ (modifiers ++ (classWord ++ (gap ++ (name ++ (parameters ++ rest)))))
  startsLine : Pattern.startsLine before.getLast? = true
  isModifiers : IsModifiers modifiers
  gap_ne_nil : gap ≠ []
  isGap : IsGap gap
  isTypeParameters : parameters = [] ∨ IsTypeParameters parameters
  first : ∀ p, NamesClassAt text p name → (before ++ modifiers).length ≤ p
  classless : ¬ HasWord classWord ((parameters ++ rest).takeWhile (· ≠ CodePoint.char '{'))

theorem HasWord.isInfix {word t : Text} (h : HasWord word t) : word <:+: t := by
  obtain ⟨before, after, rfl, -, -⟩ := h
  exact ⟨before, after, List.append_assoc _ _ _⟩

/-- Whether the name of the class stands somewhere can be read off. -/
theorem namesClassAt_iff {t name : Text} {offset : Nat} (hname : IsName name) : NamesClassAt t offset name ↔
    (((Text.after? classWord (t.drop offset)).bind afterBlanks?).bind (Text.after? name)).isSome = true := by
  constructor
  · rintro ⟨gap, rest, hdrop, hne, hgap⟩
    rw [Text.after?_eq_some_iff.2 hdrop, Option.bind_some,
      afterBlanks?_eq_some hne hgap (hname.head?_not_blank rest), Option.bind_some, Text.after?_eq_some_iff.2 rfl]
    rfl
  · intro h
    obtain ⟨rest, hrest⟩ := Option.isSome_iff_exists.1 h
    obtain ⟨u, hu, hnamed⟩ := Option.bind_eq_some_iff.1 hrest
    obtain ⟨v, hv, hblanks⟩ := Option.bind_eq_some_iff.1 hu
    obtain ⟨gap, rfl, hne, hgap⟩ := exists_of_afterBlanks? hblanks
    obtain rfl := Text.after?_eq_some_iff.1 hnamed
    exact ⟨gap, rest, Text.after?_eq_some_iff.1 hv, hne, hgap⟩

/-! ### The clause of the base class -/

theorem IsDottedName.head?_not_blank {name : Text} (h : IsDottedName name) (rest : Text) :
    ∀ c ∈ (name ++ rest).head?, isBlank c = false := by
  cases h with
  | single hname => exact hname.head?_not_blank rest
  | qualified hname _ =>
    rw [List.append_assoc]
    exact hname.head?_not_blank _

/-- What the clause says is what is read. -/
theorem ExtendsBase.exists_readExtends {t base : Text} (h : ExtendsBase t base) :
    ∃ r, readExtends t = some r ∧ r.groups = [base] := by
  obtain ⟨gap, gap', rest, rfl, hne, hgap, hne', hgap', hbase, hlongest⟩ := h
  have hword : ∀ c ∈ (extendsWord ++ (gap' ++ (base ++ rest))).head?, isBlank c = false := by
    intro c hc
    obtain rfl : CodePoint.char 'e' = c := by simpa [extendsWord] using hc
    decide
  have hread : readBase (base ++ rest) = some ⟨[base], rest⟩ := by
    rw [readBase, hbase.dottedName_eq hlongest, List.drop_left, if_neg (by simpa using hbase.ne_nil)]
  refine ⟨⟨[base], rest⟩, ?_, rfl⟩
  rw [readExtends_eq_bind, afterBlanks?_eq_some hne hgap hword, Option.bind_some, Text.after?_eq_some_iff.2 rfl,
    Option.bind_some, afterBlanks?_eq_some hne' hgap' (hbase.head?_not_blank rest), Option.bind_some, hread]

theorem exists_of_readExtends {t : Text} {r : Reading} (h : readExtends t = some r) :
    ∃ gap gap' rest : Text, t = gap ++ (extendsWord ++ (gap' ++ rest)) ∧ gap ≠ [] ∧ IsGap gap ∧ gap' ≠ [] ∧
      IsGap gap' := by
  rw [readExtends_eq_bind] at h
  obtain ⟨u, hu, hclause⟩ := Option.bind_eq_some_iff.1 h
  obtain ⟨v, hv, hname⟩ := Option.bind_eq_some_iff.1 hclause
  obtain ⟨w, hw, -⟩ := Option.bind_eq_some_iff.1 hname
  obtain ⟨gap, rfl, hne, hgap⟩ := exists_of_afterBlanks? hu
  obtain ⟨gap', rfl, hne', hgap'⟩ := exists_of_afterBlanks? hw
  obtain rfl := Text.after?_eq_some_iff.1 hv
  exact ⟨gap, gap', w, rfl, hne, hgap, hne', hgap'⟩

/-- Behind closing brackets the header goes on before any brace. -/
theorem exists_of_readAfterParameters {t : Text} {r : Reading} (h : readAfterParameters t = some r) :
    ∃ front rest : Text, t = front ++ rest ∧ (∀ c ∈ front, c ≠ CodePoint.char '{') ∧ readExtends rest = some r := by
  induction t with
  | nil => cases h
  | cons c t ih =>
    rw [readAfterParameters] at h
    split at h
    · cases h
    · next hc =>
      have hlater : readAfterParameters t = some r → ∃ front rest : Text, c :: t = front ++ rest ∧
          (∀ c ∈ front, c ≠ CodePoint.char '{') ∧ readExtends rest = some r := by
        intro hread
        obtain ⟨front, rest, rfl, hfront, hrest⟩ := ih hread
        exact ⟨c :: front, rest, rfl, List.forall_mem_cons.2 ⟨hc, hfront⟩, hrest⟩
      split at h
      · split at h
        · next reading hreading =>
          obtain rfl := Option.some.inj h
          exact ⟨[c], t, rfl, List.forall_mem_singleton.2 hc, hreading⟩
        · exact hlater h
      · exact hlater h

/-! ### Words before the next brace -/

/-- A word between blanks stands before the next brace if no brace stands before it. -/
theorem hasWord_takeWhile {word front rest : Text} (hfront : ∀ c ∈ front, c ≠ CodePoint.char '{')
    (hword : ∀ c ∈ word, c ≠ CodePoint.char '{') (hlast : ∀ c ∈ front.getLast?, isBlank c = true)
    (hrest : ∀ c ∈ rest.head?, isBlank c = true) :
    HasWord word ((front ++ (word ++ rest)).takeWhile (· ≠ CodePoint.char '{')) := by
  refine ⟨front, rest.takeWhile (· ≠ CodePoint.char '{'), ?_, fun c hc => not_isNameChar_of_isBlank (hlast c hc), ?_⟩
  · rw [List.takeWhile_append_of_pos fun c hc => decide_eq_true (hfront c hc),
      List.takeWhile_append_of_pos fun c hc => decide_eq_true (hword c hc)]
  · intro c hc
    rw [List.head?_takeWhile] at hc
    exact not_isNameChar_of_isBlank (hrest c (Option.mem_filter_iff.1 hc).1)

/-- Where a clause is read before any brace, the word `extends` stands there. -/
theorem hasWord_of_readExtends {front t : Text} {r : Reading} (h : readExtends t = some r)
    (hfront : ∀ c ∈ front, c ≠ CodePoint.char '{') :
    HasWord extendsWord ((front ++ t).takeWhile (· ≠ CodePoint.char '{')) := by
  obtain ⟨gap, gap', rest, rfl, hne, hgap, hne', hgap'⟩ := exists_of_readExtends h
  rw [← List.append_assoc]
  refine hasWord_takeWhile ?_ (fun c hc => (isUnclosed_extendsWord c hc).1) ?_ ?_
  · intro c hc
    rcases List.mem_append.1 hc with hc | hc
    · exact hfront c hc
    · exact (hgap.isUnclosed c hc).1
  · intro c hc
    rw [List.getLast?_append_of_ne_nil _ hne] at hc
    exact hgap c (List.mem_of_mem_getLast? hc)
  · intro c hc
    rw [List.head?_append_of_ne_nil _ hne'] at hc
    exact hgap' c (List.mem_of_mem_head? hc)

theorem hasWord_of_readAfterParameters {front t : Text} {r : Reading} (h : readAfterParameters t = some r)
    (hfront : ∀ c ∈ front, c ≠ CodePoint.char '{') :
    HasWord extendsWord ((front ++ t).takeWhile (· ≠ CodePoint.char '{')) := by
  obtain ⟨passed, rest, rfl, hpassed, hrest⟩ := exists_of_readAfterParameters h
  rw [← List.append_assoc]
  refine hasWord_of_readExtends hrest fun c hc => ?_
  rcases List.mem_append.1 hc with hc | hc
  · exact hfront c hc
  · exact hpassed c hc

/-- Behind a name with its type parameters nothing is read without the word `extends`. -/
theorem hasWord_of_readAfterName {parameters rest : Text} {r : Reading}
    (hparameters : parameters = [] ∨ IsTypeParameters parameters) (h : readAfterName (parameters ++ rest) = some r) :
    HasWord extendsWord (rest.takeWhile (· ≠ CodePoint.char '{')) := by
  have hnone : ∀ c ∈ ([] : Text), c ≠ CodePoint.char '{' := by simp
  rcases hparameters with rfl | hparameters
  · rcases Option.or_eq_some_iff.1 h with h | ⟨-, h⟩
    · -- Something in brackets is read as type parameters.
      obtain ⟨u, hu, hread⟩ := Option.bind_eq_some_iff.1 h
      have hcut : rest = (rest.takeWhile isBlank ++ [CodePoint.char '<']) ++ u := by
        rw [List.append_assoc, ← Text.after?_eq_some_iff.1 hu]
        exact List.takeWhile_append_dropWhile.symm
      rw [hcut]
      refine hasWord_of_readAfterParameters hread fun c hc => ?_
      rcases List.mem_append.1 hc with hc | hc
      · exact ((isGap_takeWhile rest).isUnclosed c hc).1
      · obtain rfl := List.mem_singleton.1 hc
        decide
    · exact hasWord_of_readExtends h hnone
  · rw [readAfterName_of_typeParameters hparameters] at h
    rcases Option.or_eq_some_iff.1 h with h | ⟨-, h⟩
    · exact hasWord_of_readExtends h hnone
    · exact hasWord_of_readAfterParameters h hnone

/-! ### Later places that look like the header -/

/-- The name does not begin another word `class` before something that begins otherwise. -/
theorem classWord_append_ne {name gap rest tail : Text} (hname : IsName name) (hne : gap ≠ []) (hgap : IsGap gap)
    (hstop : ∀ c ∈ tail.head?, isNameChar c = false)
    (hother : ∀ c ∈ (tail.dropWhile isBlank).head?, c ≠ CodePoint.char 'c') :
    classWord ++ (gap ++ (name ++ rest)) ≠ name ++ tail := by
  intro h
  have hgapstop : ∀ c ∈ (gap ++ (name ++ rest)).head?, isNameChar c = false := by
    intro c hc
    rw [List.head?_append_of_ne_nil _ hne] at hc
    exact not_isNameChar_of_isBlank (hgap c (List.mem_of_mem_head? hc))
  have htake := congrArg (List.takeWhile isNameChar) h
  rw [Text.takeWhile_append_of_stop (by decide) hgapstop, Text.takeWhile_append_of_stop hname.chars hstop] at htake
  -- The class would be called `class`, and its name would follow its header.
  subst htake
  have htail := List.append_cancel_left h
  rw [← htail, Text.dropWhile_append_of_stop hgap (hname.head?_not_blank rest)] at hother
  exact hother (CodePoint.char 'c') rfl rfl

/-- Where modifiers lead from a header to another place that looks like it, the word `class` stands behind the
name. -/
theorem hasWord_of_later_class {between gap gap' name rest tail : Text} (hname : IsName name)
    (hbetween : IsModifiers between) (hne : between ≠ []) (hgap : IsGap gap) (hne' : gap' ≠ []) (hgap' : IsGap gap')
    (hstop : ∀ c ∈ tail.head?, isNameChar c = false)
    (hother : ∀ c ∈ (tail.dropWhile isBlank).head?, c ≠ CodePoint.char 'c')
    (h : classWord ++ (gap ++ (name ++ tail)) = between ++ (classWord ++ (gap' ++ (name ++ rest)))) :
    HasWord classWord (tail.takeWhile (· ≠ CodePoint.char '{')) := by
  have hnot : classWord ++ (gap' ++ (name ++ rest)) ≠ name ++ tail :=
    classWord_append_ne hname hne' hgap' hstop hother
  rcases List.append_eq_append_iff.1 h with ⟨m, rfl, hm⟩ | ⟨m, hm, -⟩
  · have hm' := hbetween.of_append
    rcases List.append_eq_append_iff.1 hm with ⟨n, rfl, hn⟩ | ⟨n, rfl, hn⟩
    · have hn' := hm'.of_append
      rcases List.append_eq_append_iff.1 hn with ⟨front, rfl, htail⟩ | ⟨back, hback, hlater⟩
      · -- The other place is behind the name.
        have hfront := hn'.of_append
        rw [htail]
        refine hasWord_takeWhile hfront.ne_brace (by decide) hfront.ends_blank ?_
        intro c hc
        rw [List.head?_append_of_ne_nil _ hne'] at hc
        exact hgap' c (List.mem_of_mem_head? hc)
      · -- It is inside the name, so it is the name.
        have hnil : n = [] := hn'.eq_nil fun c hc => hname.not_blank c (by rw [hback]; exact List.mem_append_left _ hc)
        subst hnil
        rw [List.nil_append] at hback
        rw [← hback] at hlater
        exact absurd hlater hnot
    · -- It is inside the blanks, so it is behind them.
      cases n with
      | nil => exact absurd hn hnot
      | cons c n =>
        have hc : CodePoint.char 'c' = c := (List.cons.inj hn).1
        have hblank := hgap c (List.mem_append_right _ List.mem_cons_self)
        rw [← hc] at hblank
        exact absurd hblank (by decide)
  · -- It is inside the word `class`, where there are no blanks.
    refine absurd (hbetween.eq_nil fun c hc => ?_) hne
    have hsolid : ∀ c ∈ classWord, isBlank c = false := by decide
    exact hsolid c (by rw [hm]; exact List.mem_append_left _ hc)

/-! ### Headers in a text -/

namespace HeaderIn

variable {text name : Text}

/-- Where the word `class` of the header stands. -/
def start (h : HeaderIn text name) : Nat := (h.before ++ h.modifiers).length

theorem drop_start (h : HeaderIn text name) :
    text.drop h.start = classWord ++ (h.gap ++ (name ++ (h.parameters ++ h.rest))) := by
  have hdrop := congrArg (List.drop h.start) h.text_eq
  rw [← List.append_assoc] at hdrop
  exact hdrop.trans List.drop_left

theorem drop_before (h : HeaderIn text name) : text.drop h.before.length =
    h.modifiers ++ (classWord ++ (h.gap ++ (name ++ (h.parameters ++ h.rest)))) :=
  (congrArg (List.drop h.before.length) h.text_eq).trans List.drop_left

theorem take_before (h : HeaderIn text name) : text.take h.before.length = h.before :=
  (congrArg (List.take h.before.length) h.text_eq).trans List.take_left

/-- A reading that leads to the word `class` of the header ends as the header does. -/
theorem readAfterName_of_eq_start (h : HeaderIn text name) (hname : IsName name) {i : Nat} {front gap rest : Text}
    {r : Reading} (hdrop : text.drop i = front ++ (classWord ++ (gap ++ (name ++ rest)))) (hgap : IsGap gap)
    (hread : readAfterName rest = some r) (hstart : i + front.length = h.start) :
    readAfterName (h.parameters ++ h.rest) = some r := by
  have hclass : text.drop h.start = classWord ++ (gap ++ (name ++ rest)) := by
    rw [← hstart, ← List.drop_drop, hdrop, List.drop_left]
  have hbehind := List.append_cancel_left (h.drop_start.symm.trans hclass)
  obtain ⟨-, hnamed⟩ := gap_append_inj h.isGap hgap (hname.head?_not_blank _) (hname.head?_not_blank _) hbehind
  rw [List.append_cancel_left hnamed]
  exact hread

theorem namesClassAt_of_drop {i : Nat} {front gap rest : Text}
    (hdrop : text.drop i = front ++ (classWord ++ (gap ++ (name ++ rest)))) (hne : gap ≠ []) (hgap : IsGap gap) :
    NamesClassAt text (i + front.length) name :=
  ⟨gap, rest, by rw [← List.drop_drop, hdrop, List.drop_left], hne, hgap⟩

/-- A reading from the line of the header, or from a line before it, leads to the word `class` of the header. -/
theorem eq_start (h : HeaderIn text name) (hname : IsName name)
    (hstop : ∀ c ∈ (h.parameters ++ h.rest).head?, isNameChar c = false)
    (hother : ∀ c ∈ ((h.parameters ++ h.rest).dropWhile isBlank).head?, c ≠ CodePoint.char 'c') {i : Nat}
    {front gap rest : Text} (hi : i ≤ h.before.length)
    (hdrop : text.drop i = front ++ (classWord ++ (gap ++ (name ++ rest)))) (hfront : IsModifiers front) (hne : gap ≠ [])
    (hgap : IsGap gap) : i + front.length = h.start := by
  have hfirst : h.start ≤ i + front.length := h.first _ (namesClassAt_of_drop hdrop hne hgap)
  have hstart : h.start = h.before.length + h.modifiers.length := List.length_append
  by_contra hlater
  obtain ⟨skipped, hskipped⟩ : ∃ skipped, h.start = i + skipped := Nat.exists_eq_add_of_le (by omega)
  have hcut : text.drop h.start = front.drop skipped ++ (classWord ++ (gap ++ (name ++ rest))) := by
    rw [hskipped, ← List.drop_drop, hdrop, List.drop_append_of_le_length (by omega)]
  refine h.classless (hasWord_of_later_class hname ?_ ?_ h.isGap hne hgap hstop hother (h.drop_start.symm.trans hcut))
  · rw [← List.take_append_drop skipped front] at hfront
    exact hfront.of_append
  · rw [← List.length_pos_iff, List.length_drop]
    omega

/-- Before the clause of the base class, behind the name or its type parameters, no name goes on and no word `class`
follows. -/
theorem stops_of_extendsBase (h : HeaderIn text name) {base : Text} (hbase : ExtendsBase h.rest base) :
    (∀ c ∈ (h.parameters ++ h.rest).head?, isNameChar c = false) ∧
      ∀ c ∈ ((h.parameters ++ h.rest).dropWhile isBlank).head?, c ≠ CodePoint.char 'c' := by
  obtain ⟨gap, t, hcut, hgap, hhead, hbegins⟩ : ∃ gap t : Text, h.parameters ++ h.rest = gap ++ t ∧ IsGap gap ∧
      (t.head? = some (CodePoint.char '<') ∨ t.head? = some (CodePoint.char 'e')) ∧
      (gap = [] → t.head? = some (CodePoint.char '<')) := by
    rcases h.isTypeParameters with hnone | ⟨front, gap, row, gap', hfront, -, -, -, hsome⟩
    · obtain ⟨gap, gap', rest, hrest, hne, hgap, -⟩ := hbase
      rw [hnone, hrest]
      exact ⟨gap, _, rfl, hgap, Or.inr rfl, fun hnil => absurd hnil hne⟩
    · rw [hsome, List.append_assoc]
      exact ⟨front, _, rfl, hfront, Or.inl rfl, fun _ => rfl⟩
  have hblank : ∀ c ∈ t.head?, isBlank c = false := by
    intro c hc
    rcases hhead with hhead | hhead
    · obtain rfl := Option.some.inj (hhead.symm.trans hc)
      decide
    · obtain rfl := Option.some.inj (hhead.symm.trans hc)
      decide
  rw [hcut]
  constructor
  · intro c hc
    cases gap with
    | nil =>
      obtain rfl := Option.some.inj ((hbegins rfl).symm.trans hc)
      decide
    | cons d gap =>
      obtain rfl : d = c := by simpa using hc
      exact not_isNameChar_of_isBlank (hgap d List.mem_cons_self)
  · rw [Text.dropWhile_append_of_stop hgap hblank]
    rintro c hc rfl
    rcases hhead with hhead | hhead
    · rw [hhead] at hc
      revert hc
      decide
    · rw [hhead] at hc
      revert hc
      decide

/-- The end of the header is read with its base class. -/
theorem exists_readAfterName (h : HeaderIn text name) {base : Text} (hbase : ExtendsBase h.rest base) :
    ∃ r, readAfterName (h.parameters ++ h.rest) = some r ∧ r.groups = [base] := by
  obtain ⟨r, hr, hgroups⟩ := hbase.exists_readExtends
  refine ⟨r, ?_, hgroups⟩
  rcases h.isTypeParameters with hnone | hsome
  · obtain ⟨gap, gap', rest, hrest, -, hgap, -⟩ := hbase
    have hparameters : readParameters h.rest = none := by
      rw [hrest]
      refine readParameters_eq_none hgap fun c hc => ?_
      obtain rfl : CodePoint.char 'e' = c := by simpa [extendsWord] using hc
      decide
    rw [hnone, List.nil_append, readAfterName, hparameters, Option.none_or, hr]
  · rw [readAfterName_of_typeParameters hsome, hr, Option.some_or]

/-- The line of the header can be read. -/
theorem readFrom_before_ne_none (h : HeaderIn text name) (hread : readAfterName (h.parameters ++ h.rest) ≠ none) :
    (classHeader name).readFrom text h.before.length ≠ none := by
  obtain ⟨r, hr⟩ := Option.ne_none_iff_exists'.1 (readHeader_ne_none h.isModifiers h.gap_ne_nil h.isGap hread)
  rw [← h.drop_before] at hr
  have hline : Pattern.startsLine (text.take h.before.length).getLast? = true := by
    rw [h.take_before]
    exact h.startsLine
  have hfrom : (classHeader name).readFrom text h.before.length = some r := Pattern.readFrom_onLineStart.2 ⟨hline, hr⟩
  rw [hfrom]
  exact Option.some_ne_none r

/-- Behind an `extends` the search captures the base class: it cannot stop before the header, nor lead beyond it. -/
theorem exists_search_of_extendsBase (h : HeaderIn text name) (hname : IsName name) {base : Text}
    (hbase : ExtendsBase h.rest base) : ∃ m, (classHeader name).search text 0 = some m ∧ m.groups = [base] := by
  obtain ⟨r, hr, hgroups⟩ := h.exists_readAfterName hbase
  have hline : (classHeader name).readFrom text h.before.length ≠ none :=
    h.readFrom_before_ne_none (by rw [hr]; exact Option.some_ne_none r)
  have hlength : h.before.length ≤ text.length := by
    rw [← h.take_before]
    exact List.length_take_le' _ _
  cases hm : (classHeader name).search text 0 with
  | none => exact absurd (Pattern.search_eq_none_iff.1 hm _ (by omega) hlength) hline
  | some m =>
    obtain ⟨r', hr', -, hgroups', -, -, hbefore⟩ := Pattern.search_eq_some_iff.1 hm
    have hstart : m.start ≤ h.before.length := by
      by_contra hlater
      exact hline (hbefore _ (by omega) (by omega))
    obtain ⟨-, hheader⟩ := Pattern.readFrom_onLineStart.1 hr'
    obtain ⟨front, gap, rest, hdrop, hfront, hne, hgap, hread⟩ := exists_of_readHeader hheader
    obtain ⟨hstop, hother⟩ := h.stops_of_extendsBase hbase
    have hclass := h.eq_start hname hstop hother hstart hdrop hfront hne hgap
    have hsame := h.readAfterName_of_eq_start hname hdrop hgap hread hclass
    obtain rfl := Option.some.inj (hsame.symm.trans hr)
    exact ⟨m, rfl, hgroups'.trans hgroups⟩

/-- Without an `extends` before the next brace there is nothing to capture, whatever stands in the brackets. -/
theorem search_eq_none (h : HeaderIn text name) (hname : IsName name) (honly : ∀ p, NamesClassAt text p name → p = h.start)
    (hword : ¬ HasWord extendsWord (h.rest.takeWhile (· ≠ CodePoint.char '{'))) :
    (classHeader name).search text 0 = none := by
  cases hm : (classHeader name).search text 0 with
  | none => rfl
  | some m =>
    obtain ⟨r, hr, -⟩ := Pattern.search_eq_some_iff.1 hm
    obtain ⟨-, hheader⟩ := Pattern.readFrom_onLineStart.1 hr
    obtain ⟨front, gap, rest, hdrop, -, hne, hgap, hread⟩ := exists_of_readHeader hheader
    have hclass := honly _ (namesClassAt_of_drop hdrop hne hgap)
    have hsame := h.readAfterName_of_eq_start hname hdrop hgap hread hclass
    exact absurd (hasWord_of_readAfterName h.isTypeParameters hsame) hword

end HeaderIn

/-- **The search for the header of a class captures its base class behind type parameters of any nesting.** Searching
from the start for the regular expression that is made from the name captures the longest dotted name behind the word
`extends` that follows the name and its type parameters. If the word `extends` does not follow them before the next
brace, and nothing else in the text looks like the name of the class, the search finds nothing, whatever bounds stand
inside the brackets. -/
theorem search_captures_base_class (b : Buffer) {name : Text} (hname : IsName name) (h : HeaderIn b.text name) :
    (∀ base, ExtendsBase h.rest base →
      ∃ m, (b.rewind.search (classHeaderRegex name).pattern).1 = some m ∧ m.groups = [base]) ∧
    ((∀ p, NamesClassAt b.text p name → p = h.start) →
      ¬ HasWord extendsWord (h.rest.takeWhile (· ≠ CodePoint.char '{')) →
      (b.rewind.search (classHeaderRegex name).pattern).1 = none) := by
  rw [pattern_classHeaderRegex, Buffer.search_fst]
  exact ⟨fun base hbase => h.exists_search_of_extendsBase hname hbase,
    fun honly hword => h.search_eq_none hname honly hword⟩

/-- A bound whose arguments are nested twice, behind a modifier on a line of its own and another class. -/
theorem search_captures_base_class_of_nested :
    let b := Buffer.ofText
      (Text.lit "class M \x7b \x7d\n@A\n class N<K extends L<L<? super K>>, V>\n extends a.B \x7b") none
    IsName (Text.lit "N") ∧ ∃ h : HeaderIn b.text (Text.lit "N"), ExtendsBase h.rest (Text.lit "a.B") ∧
      ∃ m, (b.rewind.search (classHeaderRegex (Text.lit "N")).pattern).1 = some m ∧ m.groups = [Text.lit "a.B"] := by
  intro b
  have hname : IsName (Text.lit "N") := ⟨by decide, by decide⟩
  have hL : IsDottedName (Text.lit "L") := .single ⟨by decide, by decide⟩
  have hgap : IsGap [] := by decide
  have hblank : IsGap (Text.lit " ") := by decide
  have hwildcard : Spelled .argument (Text.lit "? super K") :=
    .lower hblank hblank (by decide) (.plain (.single ⟨by decide, by decide⟩))
  have hinner : Spelled .type (Text.lit "L<? super K>") := .applied hL hgap hgap hgap (.last hwildcard)
  have houter : Spelled .type (Text.lit "L<L<? super K>>") := .applied hL hgap hgap hgap (.last (.given hinner))
  have hrow : Spelled (.row .comma .parameter) (Text.lit "K extends L<L<? super K>>, V") :=
    .more (.bounded (⟨by decide, by decide⟩ : IsName (Text.lit "K")) hblank (by decide) hblank (by decide) (.last houter))
      hgap hblank (.last (.free ⟨by decide, by decide⟩))
  have hbase : ExtendsBase (Text.lit "\n extends a.B \x7b") (Text.lit "a.B") := by
    refine ⟨Text.lit "\n ", Text.lit " ", Text.lit " \x7b", rfl, by decide, by decide, by decide, by decide,
      .qualified (⟨by decide, by decide⟩ : IsName (Text.lit "a")) (.single ⟨by decide, by decide⟩), ?_⟩
    exact fun more hmore hdotted => eq_nil_of_stop (by decide) hmore hdotted
  have hfirst : ∀ p < 16, (((Text.after? classWord (b.text.drop p)).bind afterBlanks?).bind
      (Text.after? (Text.lit "N"))).isSome = false := by decide +kernel
  let h : HeaderIn b.text (Text.lit "N") := {
    before := Text.lit "class M \x7b \x7d\n"
    modifiers := Text.lit "@A\n "
    gap := Text.lit " "
    parameters := Text.lit "<K extends L<L<? super K>>, V>"
    rest := Text.lit "\n extends a.B \x7b"
    text_eq := rfl
    startsLine := by decide
    isModifiers := ⟨by decide, by decide⟩
    gap_ne_nil := by decide
    isGap := hblank
    isTypeParameters := Or.inr ⟨[], [], _, [], hgap, hgap, hgap, hrow, rfl⟩
    first := by
      intro p hp
      by_contra hlt
      have hsome := (namesClassAt_iff hname).1 hp
      rw [hfirst p (Nat.lt_of_lt_of_le (Nat.lt_of_not_le hlt) (by decide))] at hsome
      exact absurd hsome (by decide)
    classless := fun hword => absurd hword.isInfix (by decide +kernel) }
  exact ⟨hname, h, hbase, (search_captures_base_class b hname h).1 _ hbase⟩

end SourceJump.Java
