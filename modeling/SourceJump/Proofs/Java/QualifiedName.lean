import SourceJump.Proofs.Buffer.RegexWays
import SourceJump.Proofs.Java.HeaderRegex

/-!
# Dotted names and the expressions for them

What the expression for dotted names spells is a dotted name (`isDottedName_of_spells`), and the expression for
names with a package before them spells qualified names, which begin with a name and a dot
(`isQualifiedName_of_spells`). Both can be read as a whole wherever the dotted characters end behind them. Dotted
characters are a qualified name when no piece between their dots is empty and there is a dot
(`isQualified_iff`).
-/

namespace SourceJump.Java

open Regex

/-! ### Qualified names -/

/-- A name, a dot and a dotted name. -/
def IsQualifiedName (t : Text) : Prop :=
  ∃ name rest, t = name ++ CodePoint.char '.' :: rest ∧ IsName name ∧ IsDottedName rest

theorem IsQualifiedName.isDottedName {t : Text} (h : IsQualifiedName t) : IsDottedName t := by
  obtain ⟨name, rest, rfl, hname, hrest⟩ := h
  exact .qualified hname hrest

/-- The name before the first dot is cut off in one way. -/
theorem isQualifiedName_append_dot_iff {name tail : Text} (hname : ∀ c ∈ name, isNameChar c = true) :
    IsQualifiedName (name ++ CodePoint.char '.' :: tail) ↔ name ≠ [] ∧ IsDottedName tail := by
  constructor
  · rintro ⟨first, rest, hcut, hfirst, hrest⟩
    have hsplit := congrArg (Text.split '.') hcut
    have htake : name = first := by
      rw [Text.split_append_sep _ (dot_not_mem hname), Text.split_append_sep _ (dot_not_mem hfirst.chars)] at hsplit
      exact (List.cons.inj hsplit).1
    subst htake
    obtain rfl : tail = rest := by simpa using hcut
    exact ⟨hfirst.ne_nil, hrest⟩
  · rintro ⟨hne, htail⟩
    exact ⟨name, tail, rfl, ⟨hne, hname⟩, htail⟩

theorem not_isQualifiedName_of_not_mem {t : Text} (h : CodePoint.char '.' ∉ t) : ¬ IsQualifiedName t := by
  rintro ⟨name, rest, rfl, -, -⟩
  simp at h

theorem isDottedName_append_dot_iff {name tail : Text} (hname : ∀ c ∈ name, isNameChar c = true) :
    IsDottedName (name ++ CodePoint.char '.' :: tail) ↔ name ≠ [] ∧ IsDottedName tail := by
  rw [← isQualifiedName_append_dot_iff hname]
  constructor
  · intro h
    generalize ht : name ++ CodePoint.char '.' :: tail = t at h
    cases h with
    | single hsingle => exact absurd (by simp [← ht]) (dot_not_mem hsingle.chars)
    | qualified hfirst hrest => exact ⟨_, _, rfl, hfirst, hrest⟩
  · exact IsQualifiedName.isDottedName

/-- A dotted name without a dot is a name. -/
theorem IsDottedName.isName {t : Text} (h : IsDottedName t) (hdot : CodePoint.char '.' ∉ t) : IsName t := by
  cases h with
  | single hname => exact hname
  | qualified _ _ => simp at hdot

/-- Nothing follows the dotted characters of a text that consists of them. -/
theorem eq_nil_of_isDottedChar {t : Text} (hstop : ∀ c ∈ t.head?, isDottedChar c = false)
    (h : ∀ c ∈ t, isDottedChar c = true) : t = [] := by
  cases t with
  | nil => rfl
  | cons c t => simp [hstop c rfl] at h

/-- No piece between the dots is empty exactly when the dotted characters are a dotted name. -/
theorem all_split_iff {t : Text} (h : ∀ c ∈ t, isDottedChar c = true) :
    (Text.split '.' t).all (! ·.isEmpty) = true ↔ IsDottedName t := by
  induction t using names_induction with
  | stop name rest hname hrest =>
    obtain rfl := eq_nil_of_isDottedChar hrest fun c hc => h c (List.mem_append_right _ hc)
    rw [List.append_nil, Text.split_of_not_mem (dot_not_mem hname)]
    constructor
    · intro hne
      exact .single ⟨by simpa using hne, hname⟩
    · intro hdotted
      simpa using hdotted.ne_nil
  | dot name tail hname ih =>
    have htail := ih fun c hc => h c (List.mem_append_right _ (List.mem_cons_of_mem _ hc))
    rw [isDottedName_append_dot_iff hname, ← htail, Text.split_append_sep _ (dot_not_mem hname)]
    simp

theorem isQualified_iff {t : Text} (h : ∀ c ∈ t, isDottedChar c = true) : isQualified t = true ↔ IsQualifiedName t := by
  obtain ⟨name, rest, rfl, hname, hstop | ⟨tail, rfl⟩⟩ := exists_names_append t
  · obtain rfl := eq_nil_of_isDottedChar hstop fun c hc => h c (List.mem_append_right _ hc)
    have hdot : CodePoint.char '.' ∉ name ++ [] := by simpa using dot_not_mem hname
    rw [isQualified, Text.split_of_not_mem hdot]
    simp [not_isQualifiedName_of_not_mem (dot_not_mem hname)]
  · have htail := all_split_iff fun c hc => h c (List.mem_append_right _ (List.mem_cons_of_mem _ hc))
    have hpos := List.length_pos_iff.2 (Text.split_ne_nil '.' tail)
    rw [isQualifiedName_append_dot_iff hname, ← htail, isQualified, Text.split_append_sep _ (dot_not_mem hname)]
    simp [hpos]

/-- The last component of a dotted name is a name, and something stands before its dot. -/
theorem IsDottedName.last {package name : Text} (h : IsDottedName (package ++ CodePoint.char '.' :: name))
    (hdot : CodePoint.char '.' ∉ name) : package ≠ [] ∧ IsName name := by
  induction package using names_induction with
  | stop first rest hfirst hrest =>
    obtain rfl := eq_nil_of_isDottedChar hrest fun c hc => h.isDottedChar c (by simp [hc])
    rw [List.append_nil, isDottedName_append_dot_iff hfirst] at h
    exact ⟨by simpa using h.1, h.2.isName hdot⟩
  | dot first tail hfirst ih =>
    rw [List.append_assoc, List.cons_append, isDottedName_append_dot_iff hfirst] at h
    exact ⟨by simp, (ih h.2).2⟩

/-! ### What the expressions read -/

/-- `[\w$]+(?:\.[\w$]+)+` -/
def qualifiedNameRegex : Regex := seq (plus isNameChar) (seq componentRegex (star componentRegex))

/-- A component is a dot and a name. -/
theorem exists_of_spells_componentRegex {t : Text} (h : componentRegex.Spells t) :
    ∃ name, t = CodePoint.char '.' :: name ∧ IsName name := by
  obtain ⟨u, v, rfl, hu, hv⟩ := h.of_seq
  obtain rfl := hu.of_lit
  obtain ⟨hne, hchars⟩ := hv.of_inRow_singleton.of_plus
  exact ⟨v, rfl, hne, hchars⟩

/-- A name with components behind it is a dotted name. -/
theorem isDottedName_append_flatten {name : Text} (hname : IsName name) {components : List Text}
    (h : ∀ u ∈ components, componentRegex.Spells u) : IsDottedName (name ++ components.flatten) := by
  induction components generalizing name with
  | nil =>
    rw [List.flatten_nil, List.append_nil]
    exact .single hname
  | cons u components ih =>
    obtain ⟨hu, hrest⟩ := List.forall_mem_cons.1 h
    obtain ⟨next, rfl, hnext⟩ := exists_of_spells_componentRegex hu
    exact .qualified hname (ih hnext hrest)

/-- What the expression for dotted names spells is a dotted name. -/
theorem isDottedName_of_spells {t : Text} (h : dottedNameRegex.Spells t) : IsDottedName t := by
  obtain ⟨name, behind, rfl, hname, hbehind⟩ := h.of_seq
  obtain ⟨components, rfl, hcomponents⟩ := hbehind.of_star
  obtain ⟨hne, hchars⟩ := hname.of_plus
  exact isDottedName_append_flatten ⟨hne, hchars⟩ hcomponents

theorem isQualifiedName_of_spells {t : Text} (h : qualifiedNameRegex.Spells t) : IsQualifiedName t := by
  obtain ⟨name, behind, rfl, hname, hbehind⟩ := h.of_seq
  obtain ⟨first, others, rfl, hfirst, hothers⟩ := hbehind.of_seq
  obtain ⟨components, rfl, hcomponents⟩ := hothers.of_star
  obtain ⟨next, rfl, hnext⟩ := exists_of_spells_componentRegex hfirst
  obtain ⟨hne, hchars⟩ := hname.of_plus
  exact ⟨name, _, rfl, ⟨hne, hchars⟩, isDottedName_append_flatten hnext hcomponents⟩

/-- A run of a class can be read as a whole. -/
theorem exists_tries_plus {p : CodePoint → Bool} (before : Text) {run rest : Text} (hne : run ≠ [])
    (hrun : ∀ c ∈ run, p c = true) (hrest : ∀ c ∈ rest.head?, p c = false) :
    ∃ y ∈ (plus p).tries ⟨before, run ++ rest⟩, y.2.rest = rest := by
  have htake : (run ++ rest).takeWhile p = run := Text.takeWhile_append_of_stop hrun hrest
  have hfirst := head?_tries_plus (x := ⟨before, run ++ rest⟩) (by rw [htake]; exact hne)
  rw [htake] at hfirst
  exact ⟨_, List.mem_of_mem_head? hfirst, List.drop_left⟩

/-- A dotted name can be read as a whole where the dotted characters end behind it. -/
theorem exists_tries_dottedName (before : Text) {t rest : Text} (h : IsDottedName t)
    (hrest : ∀ c ∈ rest.head?, isDottedChar c = false) :
    ∃ y ∈ dottedNameRegex.tries ⟨before, t ++ rest⟩, y.2.rest = rest := by
  have hread : first [group dottedNameRegex] ⟨before, t ++ rest⟩ = readBase (t ++ rest) := reads_dottedName _
  rw [readBase, h.dottedName_eq fun more hmore => eq_nil_of_stop hrest hmore, if_neg (by simpa using h.ne_nil),
    first, tries_inRow_singleton] at hread
  obtain ⟨z, hz, hreading⟩ := Option.map_eq_some_iff.1 hread
  obtain ⟨y, hy, rfl⟩ := List.mem_map.1 (List.mem_of_mem_head? hz)
  refine ⟨y, hy, ?_⟩
  rw [List.drop_left] at hreading
  exact (Reading.mk.inj hreading).2

theorem exists_tries_qualifiedName (before : Text) {t rest : Text} (h : IsQualifiedName t)
    (hrest : ∀ c ∈ rest.head?, isDottedChar c = false) :
    ∃ y ∈ qualifiedNameRegex.tries ⟨before, t ++ rest⟩, y.2.rest = rest := by
  obtain ⟨name, tail, rfl, hname, htail⟩ := h
  have hdot : ∀ c ∈ (CodePoint.char '.' :: (tail ++ rest)).head?, isNameChar c = false :=
    not_isNameChar_of_end (Or.inr ⟨_, rfl⟩)
  obtain ⟨⟨captured, x⟩, hx, hxrest⟩ := exists_tries_plus before hname.ne_nil hname.chars hdot
  obtain ⟨before', t'⟩ := x
  obtain rfl : t' = CodePoint.char '.' :: (tail ++ rest) := hxrest
  -- Behind the dot the first component and those that follow it are a dotted name.
  obtain ⟨y, hy, hyrest⟩ := exists_tries_dottedName (CodePoint.char '.' :: before') htail hrest
  have hcomponents : y ∈
      (seq componentRegex (star componentRegex)).tries ⟨before', CodePoint.char '.' :: (tail ++ rest)⟩ := by
    rw [tries, tries_componentRegex_of_dot]
    exact hy
  refine ⟨(captured ++ y.1, y.2), ?_, hyrest⟩
  rw [List.append_assoc, qualifiedNameRegex, tries]
  exact List.mem_flatMap.2 ⟨_, hx, List.mem_map.2 ⟨y, hcomponents, rfl⟩⟩

end SourceJump.Java
