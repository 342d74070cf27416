import SourceJump.Proofs.Java.TypeParameters

/-!
# How a header is read

A header is read by skipping modifiers and blanks up to the word `class`, which blanks, the name and the end of the
header follow. `exists_of_readHeader` says what has been skipped when something is read, and `readHeader_ne_none` that
modifiers and blanks never hinder a reading behind them.
-/

namespace SourceJump.Java

/-- Modifiers, each with blanks behind it, and blanks before the first. -/
structure IsModifiers (t : Text) : Prop where
  chars : ∀ c ∈ t, isBlank c = true ∨ isModifierChar c = true
  ends_blank : ∀ c ∈ t.getLast?, isBlank c = true

theorem isGap_takeWhile (t : Text) : IsGap (t.takeWhile isBlank) := fun _ hc => List.mem_takeWhile_imp hc

theorem not_isModifierChar_of_isBlank {c : CodePoint} (h : isBlank c = true) : isModifierChar c = false := by
  have hat : c ≠ '@' := by
    rintro rfl
    revert h
    decide
  simp [isModifierChar, not_isWordChar_of_isBlank h, hat]

theorem isModifiers_nil : IsModifiers [] := ⟨by simp, by simp⟩

theorem IsGap.isModifiers {gap : Text} (h : IsGap gap) : IsModifiers gap :=
  ⟨fun c hc => Or.inl (h c hc), fun c hc => h c (List.mem_of_mem_getLast? hc)⟩

theorem IsModifiers.append {s t : Text} (hs : IsModifiers s) (ht : IsModifiers t) : IsModifiers (s ++ t) := by
  constructor
  · intro c hc
    rcases List.mem_append.1 hc with hc | hc
    · exact hs.chars c hc
    · exact ht.chars c hc
  · intro c hc
    rw [List.getLast?_append] at hc
    rcases Option.or_eq_some_iff.1 hc with hc | ⟨-, hc⟩
    · exact ht.ends_blank c hc
    · exact hs.ends_blank c hc

/-- What follows a part of some modifiers is modifiers again. -/
theorem IsModifiers.of_append {s t : Text} (h : IsModifiers (s ++ t)) : IsModifiers t := by
  constructor
  · exact fun c hc => h.chars c (List.mem_append_right _ hc)
  · intro c hc
    refine h.ends_blank c ?_
    rw [List.getLast?_append, hc]
    rfl

/-- Without blanks there are no modifiers. -/
theorem IsModifiers.eq_nil {t : Text} (h : IsModifiers t) (hsolid : ∀ c ∈ t, isBlank c = false) : t = [] := by
  by_contra hne
  have hlast := h.ends_blank (t.getLast hne) (List.getLast?_eq_some_getLast hne)
  rw [hsolid _ (List.getLast_mem hne)] at hlast
  exact absurd hlast (by decide)

theorem IsModifiers.ne_brace {t : Text} (h : IsModifiers t) : ∀ c ∈ t, c ≠ CodePoint.char '{' := by
  rintro c hc rfl
  rcases h.chars _ hc with hblank | hmodifier
  · revert hblank
    decide
  · revert hmodifier
    decide

/-- Blanks before something else are cut off in one way. -/
theorem gap_append_inj {gap gap' t t' : Text} (hgap : IsGap gap) (hgap' : IsGap gap')
    (ht : ∀ c ∈ t.head?, isBlank c = false) (ht' : ∀ c ∈ t'.head?, isBlank c = false)
    (h : gap ++ t = gap' ++ t') : gap = gap' ∧ t = t' := by
  have htake := congrArg (List.takeWhile isBlank) h
  rw [Text.takeWhile_append_of_stop hgap ht, Text.takeWhile_append_of_stop hgap' ht'] at htake
  subst htake
  exact ⟨rfl, List.append_cancel_left h⟩

theorem IsName.not_blank {name : Text} (h : IsName name) : ∀ c ∈ name, isBlank c = false := fun c hc =>
  not_isBlank_of_isDottedChar (isDottedChar_of_isNameChar (h.chars c hc))

theorem IsName.head?_not_blank {name : Text} (h : IsName name) (rest : Text) :
    ∀ c ∈ (name ++ rest).head?, isBlank c = false := by
  intro c hc
  cases hname : name with
  | nil => exact absurd hname h.ne_nil
  | cons d name =>
    rw [hname] at hc
    obtain rfl : d = c := by simpa using hc
    exact h.not_blank d (by rw [hname]; exact List.mem_cons_self)

/-! ### What has been skipped -/

theorem exists_of_mem_afterSomeBlanks {t rest : Text} (h : rest ∈ afterSomeBlanks t) :
    ∃ gap : Text, t = gap ++ rest ∧ gap ≠ [] ∧ IsGap gap := by
  induction t with
  | nil => cases h
  | cons c t ih =>
    rw [afterSomeBlanks] at h
    split at h
    · next hc =>
      rcases List.mem_append.1 h with h | h
      · obtain ⟨gap, rfl, -, hgap⟩ := ih h
        exact ⟨c :: gap, rfl, by simp, List.forall_mem_cons.2 ⟨hc, hgap⟩⟩
      · obtain rfl := List.mem_singleton.1 h
        exact ⟨[c], rfl, by simp, List.forall_mem_singleton.2 hc⟩
    · cases h

theorem exists_of_afterModifier? {t rest : Text} (h : afterModifier? t = some rest) :
    ∃ front : Text, t = front ++ rest ∧ front ≠ [] ∧ IsModifiers front := by
  rw [afterModifier?] at h
  split at h
  · cases h
  · obtain ⟨gap, hgap, hne, hblank⟩ := exists_of_afterBlanks? h
    refine ⟨t.takeWhile isModifierChar ++ gap, ?_, by simp [hne], ?_, ?_⟩
    · rw [List.append_assoc, ← hgap, List.takeWhile_append_dropWhile]
    · intro c hc
      rcases List.mem_append.1 hc with hc | hc
      · exact Or.inr (List.mem_takeWhile_imp hc)
      · exact Or.inl (hblank c hc)
    · intro c hc
      rw [List.getLast?_append_of_ne_nil _ hne] at hc
      exact hblank c (List.mem_of_mem_getLast? hc)

theorem exists_of_mem_afterModifiers {steps : Nat} {t rest : Text} (h : rest ∈ afterModifiers steps t) :
    ∃ front : Text, t = front ++ rest ∧ IsModifiers front := by
  induction steps generalizing t with
  | zero =>
    obtain rfl := List.mem_singleton.1 h
    exact ⟨[], rfl, isModifiers_nil⟩
  | succ steps ih =>
    rw [afterModifiers] at h
    split at h
    · next tail htail =>
      rcases List.mem_append.1 h with hrest | hrest
      · obtain ⟨front, rfl, hfront⟩ := ih hrest
        obtain ⟨first, rfl, -, hfirst⟩ := exists_of_afterModifier? htail
        exact ⟨first ++ front, (List.append_assoc _ _ _).symm, hfirst.append hfront⟩
      · obtain rfl := List.mem_singleton.1 hrest
        exact ⟨[], rfl, isModifiers_nil⟩
    · obtain rfl := List.mem_singleton.1 h
      exact ⟨[], rfl, isModifiers_nil⟩

theorem exists_of_readFromClass {name t : Text} {r : Reading} (h : readFromClass name t = some r) :
    ∃ gap rest : Text, t = classWord ++ (gap ++ (name ++ rest)) ∧ gap ≠ [] ∧ IsGap gap ∧ readAfterName rest = some r := by
  obtain ⟨u, hu, hfound⟩ := Option.bind_eq_some_iff.1 h
  obtain ⟨v, hv, hnamed⟩ := List.exists_of_findSome?_eq_some hfound
  obtain ⟨rest, hrest, hread⟩ := Option.bind_eq_some_iff.1 hnamed
  obtain ⟨gap, rfl, hne, hgap⟩ := exists_of_mem_afterSomeBlanks hv
  obtain rfl := Text.after?_eq_some_iff.1 hrest
  exact ⟨gap, rest, Text.after?_eq_some_iff.1 hu, hne, hgap, hread⟩

/-- What is read is read behind modifiers, the word `class`, blanks and the name. -/
theorem exists_of_readHeader {name t : Text} {r : Reading} (h : readHeader name t = some r) :
    ∃ front gap rest : Text, t = front ++ (classWord ++ (gap ++ (name ++ rest))) ∧ IsModifiers front ∧ gap ≠ [] ∧
      IsGap gap ∧ readAfterName rest = some r := by
  obtain ⟨u, hu, hfound⟩ := List.exists_of_findSome?_eq_some h
  obtain ⟨front, hfront, hmodifiers⟩ := exists_of_mem_afterModifiers hu
  obtain ⟨gap, rest, rfl, hne, hgap, hread⟩ := exists_of_readFromClass hfound
  refine ⟨t.takeWhile isBlank ++ front, gap, rest, ?_, (isGap_takeWhile t).isModifiers.append hmodifiers, hne, hgap, hread⟩
  rw [List.append_assoc, ← hfront, List.takeWhile_append_dropWhile]

/-! ### What can be skipped -/

theorem mem_afterSomeBlanks {gap : Text} (hne : gap ≠ []) (hgap : IsGap gap) (rest : Text) :
    rest ∈ afterSomeBlanks (gap ++ rest) := by
  induction gap with
  | nil => exact absurd rfl hne
  | cons c gap ih =>
    rw [List.cons_append, afterSomeBlanks, if_pos (hgap c List.mem_cons_self), List.mem_append]
    cases gap with
    | nil => exact Or.inr (List.mem_singleton.2 rfl)
    | cons d gap => exact Or.inl (ih (by simp) fun e he => hgap e (List.mem_cons_of_mem _ he))

theorem self_mem_afterModifiers (steps : Nat) (t : Text) : t ∈ afterModifiers steps t := by
  cases steps with
  | zero => exact List.mem_singleton.2 rfl
  | succ steps =>
    rw [afterModifiers]
    split
    · exact List.mem_append_right _ (List.mem_singleton.2 rfl)
    · exact List.mem_singleton.2 rfl

theorem findSome?_ne_none {α β : Type} {l : List α} {f : α → Option β} {a : α} (ha : a ∈ l) (hf : f a ≠ none) :
    l.findSome? f ≠ none := fun h => hf (List.findSome?_eq_none_iff.1 h a ha)

/-- Modifiers that begin with one are one modifier, blanks, and modifiers that begin with one or end there. -/
theorem IsModifiers.exists_first {front : Text} (h : IsModifiers front) (hne : front ≠ [])
    (hhead : ∀ c ∈ front.head?, isBlank c = false) : ∃ rest : Text, rest.length < front.length ∧ IsModifiers rest ∧
      (∀ c ∈ rest.head?, isBlank c = false) ∧
      ∀ t : Text, (∀ c ∈ t.head?, isBlank c = false) → afterModifier? (front ++ t) = some (rest ++ t) := by
  obtain ⟨word, behind, hword, hbehind, hcut⟩ : ∃ word behind : Text, (∀ c ∈ word, isModifierChar c = true) ∧
      (∀ c ∈ behind.head?, isModifierChar c = false) ∧ front = word ++ behind := by
    exact ⟨front.takeWhile isModifierChar, front.dropWhile isModifierChar, fun c hc => List.mem_takeWhile_imp hc,
      Text.stop_dropWhile isModifierChar front, List.takeWhile_append_dropWhile.symm⟩
  subst hcut
  have hwordne : word ≠ [] := by
    rintro rfl
    obtain ⟨c, tail, rfl⟩ := List.exists_cons_of_ne_nil hne
    rcases h.chars c List.mem_cons_self with hblank | hmodifier
    · rw [hhead c rfl] at hblank
      exact absurd hblank (by decide)
    · rw [hbehind c rfl] at hmodifier
      exact absurd hmodifier (by decide)
  have hbehindne : behind ≠ [] := by
    rintro rfl
    -- The last character would be both a blank and a character of the modifier.
    have hlast := h.ends_blank (word.getLast hwordne) (by rw [List.append_nil]; exact List.getLast?_eq_some_getLast hwordne)
    have hmodifier := hword _ (List.getLast_mem hwordne)
    rw [not_isModifierChar_of_isBlank hlast] at hmodifier
    exact absurd hmodifier (by decide)
  have hgapne : behind.takeWhile isBlank ≠ [] := by
    obtain ⟨c, tail, rfl⟩ := List.exists_cons_of_ne_nil hbehindne
    rcases h.chars c (List.mem_append_right _ List.mem_cons_self) with hblank | hmodifier
    · rw [List.takeWhile_cons_of_pos hblank]
      simp
    · rw [hbehind c rfl] at hmodifier
      exact absurd hmodifier (by decide)
  have hstop := Text.stop_dropWhile isBlank behind
  have hbehindcut : behind = behind.takeWhile isBlank ++ behind.dropWhile isBlank :=
    List.takeWhile_append_dropWhile.symm
  refine ⟨behind.dropWhile isBlank, ?_, ?_, hstop, fun t ht => ?_⟩
  · have hpos := List.length_pos_iff.2 hwordne
    have hle := (List.dropWhile_suffix isBlank (l := behind)).length_le
    rw [List.length_append]
    omega
  · rw [hbehindcut, ← List.append_assoc] at h
    exact h.of_append
  · have hinside : ∀ c ∈ (behind ++ t).head?, isModifierChar c = false := by
      intro c hc
      rw [List.head?_append_of_ne_nil _ hbehindne] at hc
      exact hbehind c hc
    rw [afterModifier?, List.append_assoc, Text.takeWhile_append_of_stop hword hinside, if_neg (by simpa using hwordne),
      Text.dropWhile_append_of_stop hword hinside]
    conv_lhs => rw [hbehindcut, List.append_assoc]
    exact afterBlanks?_eq_some hgapne (isGap_takeWhile behind) (Text.stop_append hstop ht)

/-- Skipping modifiers comes upon what follows them. -/
theorem mem_afterModifiers {front t : Text} (h : IsModifiers front) (hhead : ∀ c ∈ front.head?, isBlank c = false)
    (ht : ∀ c ∈ t.head?, isBlank c = false) {steps : Nat} (hsteps : front.length ≤ steps) :
    t ∈ afterModifiers steps (front ++ t) := by
  induction steps generalizing front with
  | zero =>
    obtain rfl := List.eq_nil_of_length_eq_zero (Nat.le_zero.1 hsteps)
    exact self_mem_afterModifiers 0 t
  | succ steps ih =>
    by_cases hne : front = []
    · subst hne
      exact self_mem_afterModifiers _ t
    · obtain ⟨rest, hlength, hrest, hrhead, hstep⟩ := h.exists_first hne hhead
      rw [afterModifiers, hstep t ht]
      exact List.mem_append_left _ (ih hrest hrhead (by omega))

/-- Modifiers do not hinder a reading behind them. -/
theorem readHeader_ne_none {name front gap rest : Text} (hfront : IsModifiers front) (hne : gap ≠ []) (hgap : IsGap gap)
    (hread : readAfterName rest ≠ none) :
    readHeader name (front ++ (classWord ++ (gap ++ (name ++ rest)))) ≠ none := by
  have hclass : readFromClass name (classWord ++ (gap ++ (name ++ rest))) ≠ none := by
    rw [readFromClass, Text.after?_eq_some_iff.2 rfl]
    refine findSome?_ne_none (mem_afterSomeBlanks hne hgap (name ++ rest)) ?_
    rw [Text.after?_eq_some_iff.2 rfl]
    exact hread
  have hword : ∀ c ∈ (classWord ++ (gap ++ (name ++ rest))).head?, isBlank c = false := by
    intro c hc
    obtain rfl : CodePoint.char 'c' = c := by simpa [classWord] using hc
    decide
  generalize classWord ++ (gap ++ (name ++ rest)) = t at hclass hword
  -- The blanks at the front are skipped before the modifiers.
  have hcut : front = front.takeWhile isBlank ++ front.dropWhile isBlank := List.takeWhile_append_dropWhile.symm
  have hmodifiers : IsModifiers (front.dropWhile isBlank) := by
    rw [hcut] at hfront
    exact hfront.of_append
  have hstop := Text.stop_dropWhile isBlank front
  have hskip : (front ++ t).dropWhile isBlank = front.dropWhile isBlank ++ t := by
    conv_lhs => rw [hcut, List.append_assoc]
    exact Text.dropWhile_append_of_stop (isGap_takeWhile front) (Text.stop_append hstop hword)
  rw [readHeader, hskip]
  refine findSome?_ne_none (mem_afterModifiers hmodifiers hstop hword ?_) hclass
  rw [List.length_append]
  omega

end SourceJump.Java
