import SourceJump.Path.Basic
import SourceJump.Proofs.Text.Classes
import SourceJump.Proofs.Text.Split

/-!
# The parts of a path

The parts of a path are the pieces between its slashes that name something. When a relative path is put behind a
directory, its parts come last, whatever the directory is and whether or not it ends with a slash, so that the two have
the same name (`name_ofText_join`). The name without its suffix is what the suffix was put behind
(`withoutSuffix_withSuffix`). Writing a path in normal form changes none of this: read again, it is the same path
(`ofText_toText`).
-/

namespace SourceJump.Path

/-! ### Roots -/

/-- A path has no root, or the slashes of its root stand at its front. -/
theorem rootOf_cases (p : Text) : (rootOf p = [] ∧ p.head? ≠ some separator) ∨
    (∃ rest, rootOf p = [separator] ∧ p = separator :: rest) ∨
    ∃ rest, rootOf p = [separator, separator] ∧ p = separator :: separator :: rest := by
  rw [rootOf]
  cases p with
  | nil => exact Or.inl ⟨rfl, by simp⟩
  | cons c rest =>
    by_cases hc : c = separator
    · subst hc
      refine Or.inr ?_
      cases rest with
      | nil => exact Or.inl ⟨[], rfl, rfl⟩
      | cons d rest =>
        by_cases hd : d = separator
        · subst hd
          cases hslashes : rest.takeWhile (· = separator) with
          | nil => exact Or.inr ⟨rest, by simp [hslashes], rfl⟩
          | cons e slashes => exact Or.inl ⟨_, by simp [hslashes], rfl⟩
        · exact Or.inl ⟨_, by simp [hd], rfl⟩
    · exact Or.inl ⟨by simp [hc], by simp [hc]⟩

/-- The root of a path is the root of anything that begins with it and goes on without a slash. -/
theorem rootOf_rootOf_append (p : Text) {body : Text} (hbody : body.head? ≠ some separator) :
    rootOf (rootOf p ++ body) = rootOf p := by
  have hstop : ∀ c ∈ body.head?, decide (c = separator) = false :=
    fun c hc => decide_eq_false fun heq => hbody (heq ▸ hc)
  have hslashes : ∀ c ∈ rootOf p, decide (c = separator) = true := by
    rcases rootOf_cases p with ⟨hroot, -⟩ | ⟨rest, hroot, -⟩ | ⟨rest, hroot, -⟩ <;> rw [hroot] <;> simp
  rw [rootOf, Text.takeWhile_append_of_stop hslashes hstop]
  rcases rootOf_cases p with ⟨hroot, -⟩ | ⟨rest, hroot, -⟩ | ⟨rest, hroot, -⟩ <;> rw [hroot]

/-! ### Parts -/

theorem not_mem_of_mem_parts {p part : Text} (h : part ∈ (ofText p).parts) : separator ∉ part :=
  Text.not_mem_of_mem_split (List.mem_of_mem_filter h)

/-- The pieces of a relative path come last when it is put behind a directory. -/
theorem exists_split_join (base : Text) {rel : Text} (h : rel.head? ≠ some separator) :
    ∃ front, (join base rel).split separator = front ++ rel.split separator := by
  rw [join, if_neg h]
  by_cases hlast : base.getLast? = some separator
  · rw [decide_eq_true hlast, Bool.or_true, if_pos rfl]
    obtain ⟨start, rfl⟩ := List.getLast?_eq_some_iff.1 hlast
    rw [List.append_assoc, List.singleton_append, Text.split_append_cons]
    exact ⟨_, rfl⟩
  · rw [decide_eq_false hlast, Bool.or_false]
    cases base with
    | nil => exact ⟨[], rfl⟩
    | cons c base =>
      rw [List.isEmpty_cons, if_neg Bool.false_ne_true, Text.split_append_cons]
      exact ⟨_, rfl⟩

/-- The last part of a relative path names what lies there below any directory. -/
theorem name_ofText_join (base : Text) {rel last : Text} {front : List Text} (h : rel.head? ≠ some separator)
    (hsplit : rel.split separator = front ++ [last]) (hlast : isPart last = true) :
    (ofText (join base rel)).name = last := by
  obtain ⟨before, hjoin⟩ := exists_split_join base h
  rw [name, ofText, hjoin, hsplit, List.filter_append, List.filter_append, List.filter_cons_of_pos hlast,
    List.filter_nil, ← List.append_assoc, List.getLast?_concat, Option.getD_some]

/-- Something with a suffix is no empty part and no single dot. -/
theorem isPart_withSuffix {base : Text} (h : base ≠ []) (suffix : Text) : isPart (withSuffix base suffix) = true := by
  have hlong : 1 < (withSuffix base suffix).length := by
    have hpos := List.length_pos_of_ne_nil h
    rw [withSuffix, List.length_append, List.length_cons]
    omega
  rw [isPart, Bool.and_eq_true, Bool.not_eq_true', List.isEmpty_eq_false_iff, decide_eq_true_eq]
  constructor
  · exact List.ne_nil_of_length_pos (by omega)
  · intro hdot
    rw [hdot] at hlong
    exact absurd hlong (by decide)

/-- A suffix without dots is taken away again. -/
theorem withoutSuffix_withSuffix {base suffix : Text} (hbase : base ≠ []) (hsuffix : suffix ≠ [])
    (hdot : suffixMark ∉ suffix) : withoutSuffix (withSuffix base suffix) = base := by
  have hback : (withSuffix base suffix).reverse.takeWhile (· ≠ suffixMark) = suffix.reverse := by
    have hreverse : (withSuffix base suffix).reverse = suffix.reverse ++ suffixMark :: base.reverse := by
      simp [withSuffix]
    rw [hreverse]
    apply Text.takeWhile_append_of_stop
    · exact fun c hc => decide_eq_true fun heq => hdot (heq ▸ List.mem_reverse.1 hc)
    · simp
  have hlength : (withSuffix base suffix).length = base.length + (suffix.length + 1) := by simp [withSuffix]
  have htake : (withSuffix base suffix).take ((withSuffix base suffix).length - suffix.reverse.length - 1) = base := by
    rw [hlength, List.length_reverse, withSuffix]
    exact List.take_left' (by omega)
  have hempty : (suffix.reverse.isEmpty || base.isEmpty || suffix.reverse.length = (withSuffix base suffix).length) =
      false := by
    have hne : suffix.length ≠ base.length + (suffix.length + 1) := by omega
    rw [hlength, List.length_reverse]
    simp [hbase, hsuffix, hne]
  rw [withoutSuffix, hback, htake, hempty]
  rfl

/-! ### The normal form -/

/-- The slashes of a root leave no part. -/
theorem filter_split_rootOf_append (p body : Text) :
    ((rootOf p ++ body).split separator).filter isPart = (body.split separator).filter isPart := by
  have hempty : ¬ isPart [] = true := by decide
  rcases rootOf_cases p with ⟨hroot, -⟩ | ⟨rest, hroot, -⟩ | ⟨rest, hroot, -⟩
  · rw [hroot, List.nil_append]
  · rw [hroot, List.singleton_append, Text.split_cons_self, List.filter_cons_of_neg hempty]
  · rw [hroot, List.cons_append, List.singleton_append, Text.split_cons_self, Text.split_cons_self,
      List.filter_cons_of_neg hempty, List.filter_cons_of_neg hempty]

/-- The normal form is the normal form of its own text. -/
theorem ofText_toText (p : Text) : ofText (ofText p).toText = ofText p := by
  have hform : ofText p = ⟨rootOf p, (ofText p).parts⟩ := rfl
  cases hparts : (ofText p).parts with
  | nil =>
    rw [hform, hparts]
    rcases rootOf_cases p with ⟨hroot, -⟩ | ⟨rest, hroot, -⟩ | ⟨rest, hroot, -⟩ <;> rw [hroot] <;> decide
  | cons first rest =>
    have hkept : ∀ part ∈ first :: rest, isPart part = true :=
      fun part hpart => (List.mem_filter.1 (hparts ▸ hpart : part ∈ (ofText p).parts)).2
    have hslash : ∀ part ∈ first :: rest, separator ∉ part := fun part hpart => not_mem_of_mem_parts (hparts ▸ hpart)
    have hfirst : first ≠ [] := by
      rintro rfl
      exact absurd (hkept [] List.mem_cons_self) (by decide)
    have hhead : (Text.join [separator] (first :: rest)).head? ≠ some separator := by
      rw [Text.head?_join hfirst]
      exact fun h => hslash first List.mem_cons_self (List.mem_of_mem_head? h)
    have htext : toText ⟨rootOf p, first :: rest⟩ = rootOf p ++ Text.join [separator] (first :: rest) := by
      rw [toText, List.isEmpty_cons, Bool.and_false, if_neg Bool.false_ne_true]
    rw [hform, hparts, htext, ofText, rootOf_rootOf_append p hhead, filter_split_rootOf_append,
      Text.split_join (by simp) hslash, List.filter_eq_self.2 hkept]

end SourceJump.Path
