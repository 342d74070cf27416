import SourceJump.Text.Basic
import Mathlib.Data.List.Basic

/-!
# Splitting and joining

Pieces that do not hold the separator can be joined and split again without loss. Pieces that are left out
before joining leave gaps, and nothing else.
-/

namespace SourceJump.Text

theorem not_mem_append_cons {c mark : CodePoint} {s t : Text} (hs : c ∉ s) (hmark : c ≠ mark) (ht : c ∉ t) :
    c ∉ s ++ mark :: t := by
  rw [List.mem_append, List.mem_cons, not_or, not_or]
  exact ⟨hs, hmark, ht⟩

theorem split_cons_self (sep : CodePoint) (rest : Text) : split sep (sep :: rest) = [] :: split sep rest := by
  rw [split, if_pos rfl]

/-- No piece holds the separator. -/
theorem not_mem_of_mem_split {sep : CodePoint} {t piece : Text} (h : piece ∈ split sep t) : sep ∉ piece := by
  induction t generalizing piece with
  | nil =>
    obtain rfl := List.mem_singleton.1 h
    exact List.not_mem_nil
  | cons c rest ih =>
    rw [split] at h
    split at h
    · rcases List.mem_cons.1 h with rfl | h
      · exact List.not_mem_nil
      · exact ih h
    · next hc =>
      split at h
      · obtain rfl := List.mem_singleton.1 h
        rw [List.mem_singleton]
        exact Ne.symm hc
      · next first pieces hsplit =>
        rcases List.mem_cons.1 h with rfl | h
        · rw [List.mem_cons, not_or]
          exact ⟨Ne.symm hc, ih (by rw [hsplit]; exact List.mem_cons_self)⟩
        · exact ih (by rw [hsplit]; exact List.mem_cons_of_mem _ h)

theorem split_of_not_mem {sep : CodePoint} {t : Text} (h : sep ∉ t) : split sep t = [t] := by
  induction t with
  | nil => rfl
  | cons c rest ih =>
    rw [List.mem_cons, not_or] at h
    rw [split, if_neg (Ne.symm h.1), ih h.2]

/-- A separator ends the pieces before it and begins those behind it. -/
theorem split_append_cons (sep : CodePoint) (s t : Text) : split sep (s ++ sep :: t) = split sep s ++ split sep t := by
  induction s with
  | nil => exact split_cons_self sep t
  | cons c s ih =>
    rw [List.cons_append, split, split, ih]
    by_cases hc : c = sep
    · rw [if_pos hc, if_pos hc, List.cons_append]
    · rw [if_neg hc, if_neg hc]
      cases hs : split sep s with
      | nil => exact absurd hs (split_ne_nil sep s)
      | cons piece pieces => rfl

theorem split_append_sep {sep : CodePoint} {piece : Text} (rest : Text) (h : sep ∉ piece) :
    split sep (piece ++ sep :: rest) = piece :: split sep rest := by
  rw [split_append_cons, split_of_not_mem h, List.singleton_append]

/-- Splitting undoes joining of pieces that do not hold the separator. -/
theorem split_join {sep : CodePoint} {pieces : List Text} (hne : pieces ≠ [])
    (h : ∀ piece ∈ pieces, sep ∉ piece) : split sep (join [sep] pieces) = pieces := by
  induction pieces with
  | nil => exact absurd rfl hne
  | cons piece pieces ih =>
    have hpiece := h piece List.mem_cons_self
    cases pieces with
    | nil => exact split_of_not_mem hpiece
    | cons next pieces =>
      have hrest := ih (by simp) fun q hq => h q (List.mem_cons_of_mem _ hq)
      rw [join, List.append_assoc, List.singleton_append, split_append_sep _ hpiece, hrest]
      simp

theorem join_cons_cons (sep piece next : Text) (pieces : List Text) :
    join sep (piece :: next :: pieces) = piece ++ sep ++ join sep (next :: pieces) := rfl

theorem head?_join {sep piece : Text} {pieces : List Text} (h : piece ≠ []) :
    (join sep (piece :: pieces)).head? = piece.head? := by
  cases pieces with
  | nil => rfl
  | cons next pieces => rw [join_cons_cons, List.append_assoc, List.head?_append_of_ne_nil _ h]

theorem mem_join {sep : Text} {pieces : List Text} {c : CodePoint} (h : c ∈ join sep pieces) :
    c ∈ sep ∨ ∃ piece ∈ pieces, c ∈ piece := by
  induction pieces with
  | nil => exact absurd h List.not_mem_nil
  | cons piece pieces ih =>
    cases pieces with
    | nil => exact Or.inr ⟨piece, List.mem_cons_self, h⟩
    | cons next pieces =>
      rw [join_cons_cons, List.mem_append, List.mem_append] at h
      rcases h with (h | h) | h
      · exact Or.inr ⟨piece, List.mem_cons_self, h⟩
      · exact Or.inl h
      · exact (ih h).imp_right fun ⟨q, hq, hc⟩ => ⟨q, List.mem_cons_of_mem _ hq, hc⟩

theorem mem_join_of_mem {sep : Text} {pieces : List Text} {piece : Text} {c : CodePoint} (hpiece : piece ∈ pieces)
    (hc : c ∈ piece) : c ∈ join sep pieces := by
  induction pieces with
  | nil => cases hpiece
  | cons first pieces ih =>
    cases pieces with
    | nil =>
      obtain rfl := List.mem_singleton.1 hpiece
      exact hc
    | cons next pieces =>
      rw [join_cons_cons, List.mem_append, List.mem_append]
      rcases List.mem_cons.1 hpiece with rfl | hpiece
      · exact Or.inl (Or.inl hc)
      · exact Or.inr (ih hpiece)

/-- The pieces hold characters of the text only. -/
theorem mem_of_mem_split {sep : CodePoint} {t piece : Text} {c : CodePoint} (hpiece : piece ∈ split sep t)
    (hc : c ∈ piece) : c ∈ t := by
  rw [← join_split sep t]
  exact mem_join_of_mem hpiece hc

/-- Every character but the separator is in one of the pieces. -/
theorem exists_mem_split {sep : CodePoint} {t : Text} {c : CodePoint} (hc : c ∈ t) (hne : c ≠ sep) :
    ∃ piece ∈ split sep t, c ∈ piece := by
  rw [← join_split sep t] at hc
  exact (mem_join hc).resolve_left fun h => hne (List.mem_singleton.1 h)

/-- What is written behind joined pieces belongs to the last one. -/
theorem join_append (sep last tail : Text) (pieces : List Text) :
    join sep (pieces ++ [last]) ++ tail = join sep (pieces ++ [last ++ tail]) := by
  induction pieces with
  | nil => rfl
  | cons piece pieces ih =>
    cases pieces with
    | nil => simp [join]
    | cons next pieces =>
      rw [List.cons_append, List.cons_append, List.cons_append, List.cons_append, join_cons_cons, join_cons_cons,
        List.append_assoc, ← List.cons_append, ih, List.cons_append]

theorem join_sublist_join_cons (sep piece : Text) (pieces : List Text) :
    (join sep pieces).Sublist (join sep (piece :: pieces)) := by
  cases pieces with
  | nil => exact List.nil_sublist _
  | cons next pieces =>
    rw [join_cons_cons]
    exact List.sublist_append_right _ _

/-- Leaving out pieces leaves out characters. -/
theorem join_filter_sublist (sep : Text) (p : Text → Bool) (pieces : List Text) :
    (join sep (pieces.filter p)).Sublist (join sep pieces) := by
  induction pieces with
  | nil => exact List.Sublist.refl _
  | cons piece pieces ih =>
    by_cases hp : p piece = true
    · rw [List.filter_cons_of_pos hp]
      cases hrest : pieces.filter p with
      | nil =>
        cases pieces with
        | nil => exact List.Sublist.refl _
        | cons next pieces =>
          rw [join_cons_cons, List.append_assoc]
          exact List.sublist_append_left _ _
      | cons next kept =>
        rw [hrest] at ih
        cases pieces with
        | nil => cases hrest
        | cons d pieces =>
          rw [join_cons_cons, join_cons_cons]
          exact ih.append_left _
    · rw [List.filter_cons_of_neg hp]
      exact ih.trans (join_sublist_join_cons sep piece pieces)

end SourceJump.Text
