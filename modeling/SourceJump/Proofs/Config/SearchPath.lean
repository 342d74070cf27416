import SourceJump.Config.Preferences
import SourceJump.Proofs.Text.Classes
import Mathlib.Data.List.Basic

/-!
# The search path keeps the order of its sources

The lists of source roots are run through one after the other, and a root that has been there is not added again. So the
search path holds the roots of all lists, each once and in the order in which they first occur (`isFirsts_mergeRoots`),
and whoever looks for the first root with some property finds the same in it as in the lists written one after the
other (`IsFirsts.find?_eq`).
-/

namespace SourceJump.Config

/-- The roots are those of the plain list, in the order in which they first occur there. -/
structure IsFirsts (plain roots : List Text) : Prop where
  mem_iff : ∀ root, root ∈ roots ↔ root ∈ plain
  sorted : roots.Pairwise fun a b => plain.idxOf a < plain.idxOf b

variable {plain roots : List Text} {root : Text}

/-- A root has one first place, so that none is there twice. -/
theorem IsFirsts.nodup (h : IsFirsts plain roots) : roots.Nodup := by
  refine h.sorted.imp fun hlt heq => ?_
  rw [heq] at hlt
  exact Nat.lt_irrefl _ hlt

/-- What is written behind the plain list does not move the first places in it. -/
theorem IsFirsts.sorted_append (h : IsFirsts plain roots) (more : List Text) :
    roots.Pairwise fun a b => (plain ++ more).idxOf a < (plain ++ more).idxOf b := by
  refine h.sorted.imp_of_mem fun ha hb hlt => ?_
  rw [List.idxOf_append_of_mem ((h.mem_iff _).1 ha), List.idxOf_append_of_mem ((h.mem_iff _).1 hb)]
  exact hlt

theorem IsFirsts.skip (h : IsFirsts plain roots) (hold : root ∈ roots) : IsFirsts (plain ++ [root]) roots := by
  refine ⟨fun a => ?_, h.sorted_append [root]⟩
  rw [List.mem_append, List.mem_singleton, h.mem_iff a]
  refine ⟨Or.inl, ?_⟩
  rintro (ha | rfl)
  · exact ha
  · exact (h.mem_iff a).1 hold

theorem IsFirsts.add (h : IsFirsts plain roots) (hnew : root ∉ roots) :
    IsFirsts (plain ++ [root]) (roots ++ [root]) := by
  refine ⟨fun a => ?_, List.pairwise_append.2 ⟨h.sorted_append [root], List.pairwise_singleton _ _, ?_⟩⟩
  · rw [List.mem_append, List.mem_append, h.mem_iff a]
  · intro a ha b hb
    obtain rfl := List.mem_singleton.1 hb
    have hold : a ∈ plain := (h.mem_iff a).1 ha
    have hplain : b ∉ plain := fun hb => hnew ((h.mem_iff b).2 hb)
    rw [List.idxOf_append_of_mem hold, List.idxOf_append_of_notMem hplain]
    exact Nat.lt_add_right _ (List.idxOf_lt_length_iff.2 hold)

/-- Running through more roots, those that are new being added, is running through a longer list. -/
theorem IsFirsts.foldl (h : IsFirsts plain roots) (more : List Text) :
    IsFirsts (plain ++ more)
      (more.foldl (fun seen root => if seen.contains root then seen else seen ++ [root]) roots) := by
  induction more generalizing plain roots with
  | nil => rwa [List.append_nil]
  | cons root more ih =>
    rw [List.append_cons, List.foldl_cons]
    split
    · next hold => exact ih (h.skip (by simpa using hold))
    · next hnew => exact ih (h.add (by simpa using hnew))

/-- **The search path holds the roots of its sources, each at its first place.** -/
theorem isFirsts_mergeRoots (sources : List (List Text)) : IsFirsts sources.flatten (mergeRoots sources) :=
  IsFirsts.foldl ⟨fun _ => Iff.rfl, List.Pairwise.nil⟩ sources.flatten

/-- The first root with a property is the same in both lists. -/
theorem IsFirsts.find?_eq (h : IsFirsts plain roots) (p : Text → Bool) : roots.find? p = plain.find? p := by
  cases hfind : plain.find? p with
  | none =>
    rw [List.find?_eq_none] at hfind ⊢
    exact fun root hroot => hfind root ((h.mem_iff root).1 hroot)
  | some root =>
    obtain ⟨hp, before, after, hplain, hbefore⟩ := List.find?_eq_some_iff_append.1 hfind
    obtain ⟨front, back, hroots⟩ := List.append_of_mem ((h.mem_iff root).2 (by simp [hplain]))
    refine List.find?_eq_some_iff_append.2 ⟨hp, front, back, hroots, fun a ha => hbefore a ?_⟩
    -- A root before this one has its first place before it, and so among those that do not have the property.
    have hlt : plain.idxOf a < plain.idxOf root := by
      have hsorted := h.sorted
      rw [hroots] at hsorted
      exact (List.pairwise_append.1 hsorted).2.2 a ha root List.mem_cons_self
    have hroot : root ∉ before := fun hmem => by simpa [hp] using hbefore root hmem
    by_contra hnot
    rw [hplain, List.idxOf_append_of_notMem hnot, List.idxOf_append_of_notMem hroot, List.idxOf_cons_self] at hlt
    omega

/-! ### The list in the environment -/

/-- The pieces between colons in which something else than a blank stands, as they are. -/
def environmentRoots (value : Option Text) : List Text :=
  ((value.getD []).split ':').filter fun piece => piece.any (! isBlank ·)

/-- Nothing is left of a text without the blanks around it exactly when there are only blanks. -/
theorem isEmpty_strip (t : Text) : t.strip.isEmpty = t.all isBlank := by
  rw [Bool.eq_iff_iff, List.isEmpty_iff, List.all_eq_true]
  constructor
  · intro h c hc
    by_contra hblank
    have hmem : c ∈ t.strip := Text.mem_strip hc (by simpa using hblank)
    rw [h] at hmem
    cases hmem
  · intro h
    rw [Text.strip, Text.trim, List.dropWhile_eq_nil_iff.2 h]
    rfl

theorem splitPathList_eq (value : Option Text) : splitPathList value = environmentRoots value := by
  have hfilter : ∀ t : Text,
      (t.split ':').filter (fun entry => !entry.strip.isEmpty) = environmentRoots (some t) := by
    intro t
    refine List.filter_congr fun piece _ => ?_
    rw [isEmpty_strip, List.not_all_eq_any_not]
  unfold splitPathList
  split
  · rfl
  · rfl
  · exact hfilter _

end SourceJump.Config
