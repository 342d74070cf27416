import SourceJump.Java.ClassHeader
import SourceJump.Proofs.Text.Classes
import SourceJump.Proofs.Text.Split

/-!
# Dotted names

A dotted name is a row of names with single dots between them (`IsDottedName`). The reader of headers cuts the run of
dotted characters at its dots and keeps what stands before the first empty piece. Read from the left this
takes one name after the other (`dottedName_append_dot`), so that it takes a dotted name, and the longest one that begins
the text (`IsDottedName.prefix_dottedName`).
-/

namespace SourceJump.Java

/-- Name characters, one at least. -/
structure IsName (t : Text) : Prop where
  ne_nil : t ≠ []
  chars : ∀ c ∈ t, isNameChar c = true

/-- Names with single dots between them. -/
inductive IsDottedName : Text → Prop where
  | single {name : Text} : IsName name → IsDottedName name
  | qualified {name rest : Text} : IsName name → IsDottedName rest → IsDottedName (name ++ CodePoint.char '.' :: rest)

theorem IsDottedName.ne_nil {t : Text} (h : IsDottedName t) : t ≠ [] := by
  cases h with
  | single hname => exact hname.ne_nil
  | qualified hname _ => simp

theorem dot_not_mem {name : Text} (h : ∀ c ∈ name, isNameChar c = true) : CodePoint.char '.' ∉ name := by
  intro hdot
  have hchar := h _ hdot
  revert hchar
  decide

theorem slash_not_mem_of_isDottedChar {t : Text} (h : ∀ c ∈ t, isDottedChar c = true) : CodePoint.char '/' ∉ t := by
  intro hmem
  have hdotted := h _ hmem
  revert hdotted
  decide

/-! ### One name after the other -/

/-- A text begins with name characters, and then either a dot follows or the dotted characters end. -/
theorem exists_names_append (t : Text) : ∃ name rest : Text, t = name ++ rest ∧ (∀ c ∈ name, isNameChar c = true) ∧
    ((∀ c ∈ rest.head?, isDottedChar c = false) ∨ ∃ tail, rest = CodePoint.char '.' :: tail) := by
  refine ⟨t.takeWhile isNameChar, t.dropWhile isNameChar, List.takeWhile_append_dropWhile.symm,
    fun c hc => List.mem_takeWhile_imp hc, ?_⟩
  have hstop := List.head?_dropWhile_not isNameChar t
  cases hrest : t.dropWhile isNameChar with
  | nil => exact Or.inl (by simp)
  | cons c tail =>
    rw [hrest] at hstop
    by_cases hc : c = CodePoint.char '.'
    · exact Or.inr ⟨tail, by rw [hc]⟩
    · refine Or.inl fun d hd => ?_
      obtain rfl : c = d := by simpa using hd
      have hname : isNameChar c = false := by simpa using hstop
      simp [isDottedChar, hname, hc]

/-- Induction along the names of a text: a claim holds of every text when it holds wherever the dotted characters end
behind a name, and goes from what follows a dot to the name before it. -/
theorem names_induction {motive : Text → Prop}
    (stop : ∀ name rest : Text, (∀ c ∈ name, isNameChar c = true) → (∀ c ∈ rest.head?, isDottedChar c = false) →
      motive (name ++ rest))
    (dot : ∀ name tail : Text, (∀ c ∈ name, isNameChar c = true) → motive tail →
      motive (name ++ CodePoint.char '.' :: tail)) (t : Text) : motive t := by
  induction hlength : t.length using Nat.strong_induction_on generalizing t with
  | h n ih =>
    obtain ⟨name, rest, rfl, hname, hstop | ⟨tail, rfl⟩⟩ := exists_names_append t
    · exact stop name rest hname hstop
    · rw [List.length_append, List.length_cons] at hlength
      exact dot name tail hname (ih tail.length (by omega) tail rfl)

variable {name : Text}

/-- Where the dotted characters end behind a name, that name is taken. -/
theorem dottedName_append_stop {rest : Text} (hname : ∀ c ∈ name, isNameChar c = true)
    (hrest : ∀ c ∈ rest.head?, isDottedChar c = false) : dottedName (name ++ rest) = name := by
  have hdotted : ∀ c ∈ name, isDottedChar c = true := fun c hc => isDottedChar_of_isNameChar (hname c hc)
  rw [dottedName, Text.takeWhile_append_of_stop hdotted hrest, Text.split_of_not_mem (dot_not_mem hname)]
  cases name <;> rfl

/-- Where a dot follows, the names behind it are taken too, if there is a name on either side. -/
theorem dottedName_append_dot (hname : ∀ c ∈ name, isNameChar c = true) (tail : Text) :
    dottedName (name ++ CodePoint.char '.' :: tail) =
      if name = [] then [] else if dottedName tail = [] then name else name ++ CodePoint.char '.' :: dottedName tail := by
  have hdotted : ∀ c ∈ name, isDottedChar c = true := fun c hc => isDottedChar_of_isNameChar (hname c hc)
  rw [dottedName, List.takeWhile_append_of_pos hdotted, List.takeWhile_cons_of_pos (by decide),
    Text.split_append_sep _ (dot_not_mem hname)]
  by_cases hne : name = []
  · subst hne
    rfl
  · rw [if_neg hne, List.takeWhile_cons_of_pos (by simpa using hne)]
    have htail : dottedName tail = Text.join [CodePoint.char '.']
        ((Text.split (CodePoint.char '.') (tail.takeWhile isDottedChar)).takeWhile (! ·.isEmpty)) := rfl
    cases hpieces : (Text.split (CodePoint.char '.') (tail.takeWhile isDottedChar)).takeWhile (! ·.isEmpty) with
    | nil =>
      rw [hpieces] at htail
      have hnil : dottedName tail = [] := htail
      rw [if_pos hnil]
      rfl
    | cons piece pieces =>
      have hpiece : piece ≠ [] := by
        have hmem : piece ∈ (Text.split (CodePoint.char '.') (tail.takeWhile isDottedChar)).takeWhile (! ·.isEmpty) := by
          rw [hpieces]
          exact List.mem_cons_self
        simpa using List.mem_takeWhile_imp hmem
      rw [hpieces] at htail
      have hne : dottedName tail ≠ [] := by
        rw [htail]
        cases pieces <;> simp [Text.join, hpiece]
      rw [if_neg hne, htail, Text.join_cons_cons, List.append_assoc, List.singleton_append]

/-- Where a name ends, no name character follows. -/
theorem not_isNameChar_of_end {t : Text}
    (h : (∀ c ∈ t.head?, isDottedChar c = false) ∨ ∃ tail, t = CodePoint.char '.' :: tail) :
    ∀ c ∈ t.head?, isNameChar c = false := by
  intro c hc
  rcases h with hstop | ⟨tail, rfl⟩
  · cases hname : isNameChar c with
    | false => rfl
    | true =>
      have hdotted := hstop c hc
      rw [isDottedChar_of_isNameChar hname] at hdotted
      exact hdotted
  · obtain rfl : CodePoint.char '.' = c := by simpa using hc
    decide

/-- Without a name before the first dot there is no dotted name. -/
theorem dottedName_eq_nil {t : Text} (h : ∀ c ∈ t.head?, isNameChar c = false) : dottedName t = [] := by
  obtain ⟨name, rest, rfl, hname, hrest⟩ := exists_names_append t
  obtain rfl : name = [] := by
    cases name with
    | nil => rfl
    | cons c name =>
      have hchar := hname c List.mem_cons_self
      rw [h c rfl] at hchar
      exact absurd hchar (by decide)
  rcases hrest with hstop | ⟨tail, rfl⟩
  · exact dottedName_append_stop hname hstop
  · exact dottedName_append_dot hname tail

/-! ### The longest dotted name -/

theorem dottedName_prefix (t : Text) : dottedName t <+: t := by
  induction t using names_induction with
  | stop name rest hname hrest =>
    rw [dottedName_append_stop hname hrest]
    exact List.prefix_append _ _
  | dot name tail hname ih =>
    rw [dottedName_append_dot hname]
    split
    · exact List.nil_prefix
    · split
      · exact List.prefix_append _ _
      · exact (List.prefix_append_right_inj _).2 (List.cons_prefix_cons.2 ⟨rfl, ih⟩)

/-- Behind what is taken no name goes on. -/
theorem head?_drop_dottedName (t : Text) : ∀ c ∈ (t.drop (dottedName t).length).head?, isNameChar c = false := by
  induction t using names_induction with
  | stop name rest hname hrest =>
    rw [dottedName_append_stop hname hrest, List.drop_left]
    exact not_isNameChar_of_end (Or.inl hrest)
  | dot name tail hname ih =>
    have hend : ∀ c ∈ (CodePoint.char '.' :: tail).head?, isNameChar c = false :=
      not_isNameChar_of_end (Or.inr ⟨tail, rfl⟩)
    rw [dottedName_append_dot hname]
    by_cases hne : name = []
    · simpa [hne] using hend
    · by_cases htail : dottedName tail = []
      · simpa [hne, htail] using hend
      · have hdrop : (name ++ CodePoint.char '.' :: tail).drop (name ++ CodePoint.char '.' :: dottedName tail).length =
            tail.drop (dottedName tail).length := by simp
        rw [if_neg hne, if_neg htail, hdrop]
        exact ih

/-- What is taken is a dotted name. -/
theorem isDottedName_dottedName {t : Text} (h : dottedName t ≠ []) : IsDottedName (dottedName t) := by
  induction t using names_induction with
  | stop name rest hname hrest =>
    rw [dottedName_append_stop hname hrest] at h ⊢
    exact .single ⟨h, hname⟩
  | dot name tail hname ih =>
    rw [dottedName_append_dot hname] at h ⊢
    split at h
    · exact absurd rfl h
    · next hne =>
      rw [if_neg hne]
      split
      · exact .single ⟨hne, hname⟩
      · next htail => exact .qualified ⟨hne, hname⟩ (ih htail)

/-- Every dotted name that begins the text is taken, or a longer one. -/
theorem IsDottedName.prefix_dottedName {t : Text} (h : IsDottedName t) (rest : Text) : t <+: dottedName (t ++ rest) := by
  induction h with
  | @single name hname =>
    -- The name may go on in what follows.
    obtain ⟨front, rest, rfl, hfront, hrest⟩ := exists_names_append rest
    have hchars : ∀ c ∈ name ++ front, isNameChar c = true := by
      intro c hc
      rcases List.mem_append.1 hc with hc | hc
      · exact hname.chars c hc
      · exact hfront c hc
    have hbegins : name <+: name ++ front := List.prefix_append _ _
    rw [← List.append_assoc]
    rcases hrest with hstop | ⟨tail, rfl⟩
    · rw [dottedName_append_stop hchars hstop]
      exact hbegins
    · rw [dottedName_append_dot hchars, if_neg (by simp [hname.ne_nil])]
      split
      · exact hbegins
      · exact hbegins.trans (List.prefix_append _ _)
  | @qualified name rest' hname hrest' ih =>
    have hne : dottedName (rest' ++ rest) ≠ [] := by
      intro hnil
      rw [hnil] at ih
      exact hrest'.ne_nil (List.prefix_nil.1 ih)
    rw [List.append_assoc, List.cons_append, dottedName_append_dot hname.chars, if_neg hname.ne_nil, if_neg hne]
    exact (List.prefix_append_right_inj _).2 (List.cons_prefix_cons.2 ⟨rfl, ih⟩)

/-- A dotted name that cannot be made longer is taken as it stands. -/
theorem IsDottedName.dottedName_eq {t rest : Text} (h : IsDottedName t)
    (hlongest : ∀ more, more <+: rest → IsDottedName (t ++ more) → more = []) : dottedName (t ++ rest) = t := by
  obtain ⟨more, hmore⟩ := h.prefix_dottedName rest
  have hne : dottedName (t ++ rest) ≠ [] := by
    rw [← hmore]
    simp [h.ne_nil]
  have hprefix := dottedName_prefix (t ++ rest)
  have hdotted := isDottedName_dottedName hne
  rw [← hmore] at hprefix hdotted ⊢
  rw [hlongest more ((List.prefix_append_right_inj _).1 hprefix) hdotted, List.append_nil]

theorem IsDottedName.isDottedChar {t : Text} (h : IsDottedName t) : ∀ c ∈ t, isDottedChar c = true := by
  induction h with
  | single hname => exact fun c hc => isDottedChar_of_isNameChar (hname.chars c hc)
  | qualified hname _ ih =>
    intro c hc
    rcases List.mem_append.1 hc with hc | hc
    · exact isDottedChar_of_isNameChar (hname.chars c hc)
    · rcases List.mem_cons.1 hc with rfl | hc
      · decide
      · exact ih c hc

/-- No dotted name is longer than one behind which the dotted characters end. -/
theorem eq_nil_of_stop {t more rest : Text} (hrest : ∀ c ∈ rest.head?, isDottedChar c = false) (hmore : more <+: rest)
    (h : IsDottedName (t ++ more)) : more = [] := by
  cases more with
  | nil => rfl
  | cons c more =>
    obtain ⟨tail, rfl⟩ := hmore
    have hdotted := h.isDottedChar c (List.mem_append_right _ List.mem_cons_self)
    rw [hrest c rfl] at hdotted
    exact absurd hdotted (by decide)

/-- What `readExtends` reads behind the blanks after `extends`. -/
def readBase (t : Text) : Option Reading :=
  if (dottedName t).isEmpty then none else some ⟨[dottedName t], t.drop (dottedName t).length⟩

theorem readExtends_eq_bind (t : Text) : readExtends t = (afterBlanks? t).bind fun u =>
    (Text.after? extendsWord u).bind fun v => (afterBlanks? v).bind readBase := rfl

end SourceJump.Java
