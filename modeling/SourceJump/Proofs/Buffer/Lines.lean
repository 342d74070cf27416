import SourceJump.Proofs.Buffer.Cursor
import SourceJump.Proofs.Text.Split
import SourceJump.Text.Basic
import Mathlib.Data.List.Induction

/-!
# Lines and offsets

Every offset of a text lies in one of its lines, and a line has one offset more than it has characters: the one behind
its last character, before the line feed. So the offsets of a text are the pairs of a line and a place in that line. The
line is the number of line feeds before the offset, and the place is the number of characters behind the last of these
line feeds (`isAt_iff`). The line of the cursor is the one that its offset lies in (`lineAt_of_isAt`).
-/

namespace SourceJump

namespace Text

/-- Induction along the lines: a claim holds of every text when it holds of each last line, and goes from what follows a
line feed to the line before it. -/
theorem lines_induction {motive : Text → Prop} (last : ∀ line : Text, CodePoint.char '\n' ∉ line → motive line)
    (next : ∀ line rest : Text, CodePoint.char '\n' ∉ line → motive rest → motive (line ++ CodePoint.char '\n' :: rest))
    (t : Text) : motive t := by
  have hall : ∀ pieces : List Text, pieces ≠ [] → (∀ piece ∈ pieces, CodePoint.char '\n' ∉ piece) →
      motive (join ['\n'] pieces) := by
    intro pieces
    induction pieces with
    | nil => exact fun hne => absurd rfl hne
    | cons piece pieces ih =>
      intro _ hpieces
      obtain ⟨hpiece, hrest⟩ := List.forall_mem_cons.1 hpieces
      cases pieces with
      | nil => exact last piece hpiece
      | cons following pieces =>
        rw [join_cons_cons, List.append_assoc, List.singleton_append]
        exact next piece _ hpiece (ih (by simp) hrest)
  have ht := hall (split '\n' t) (split_ne_nil '\n' t) fun piece hpiece => not_mem_of_mem_split hpiece
  rwa [join_split] at ht

theorem lines_last {line : Text} (h : CodePoint.char '\n' ∉ line) : line.lines = [line] := split_of_not_mem h

theorem lines_next {line : Text} (rest : Text) (h : CodePoint.char '\n' ∉ line) :
    (line ++ CodePoint.char '\n' :: rest).lines = line :: rest.lines := split_append_sep rest h

/-- What lines with their line feeds take. -/
def spanOf (lines : List Text) : Nat := (lines.map (·.length + 1)).foldr (· + ·) 0

theorem spanOf_cons (line : Text) (lines : List Text) : spanOf (line :: lines) = line.length + 1 + spanOf lines := rfl

/-- The offset is `k` characters behind the start of line `i`, both counted from zero. -/
def IsAt (t : Text) (i k o : Nat) : Prop :=
  ∃ line, t.lines[i]? = some line ∧ k ≤ line.length ∧ o = spanOf (t.lines.take i) + k

theorem trimEnd_of_not_mem {line : Text} (h : CodePoint.char '\n' ∉ line) : line.trimEnd (· ≠ '\n') = [] := by
  have hrun : ∀ c ∈ line.reverse, decide (c ≠ CodePoint.char '\n') = true := by
    intro c hc
    exact decide_eq_true fun heq => h (heq ▸ List.mem_reverse.1 hc)
  rw [trimEnd, List.dropWhile_eq_nil_iff.2 hrun, List.reverse_nil]

theorem trimEnd_append_newline (line t : Text) : (line ++ CodePoint.char '\n' :: t).trimEnd (· ≠ '\n') =
    line ++ CodePoint.char '\n' :: t.trimEnd (· ≠ '\n') := by
  have hmark : decide (CodePoint.char '\n' ≠ CodePoint.char '\n') = false := by decide
  induction t using List.reverseRecOn with
  | nil => simp [trimEnd]
  | append_singleton t c ih =>
    rw [← List.cons_append, ← List.append_assoc, trimEnd, trimEnd, List.reverse_append, List.reverse_append]
    by_cases hc : c = CodePoint.char '\n'
    · simp [hc]
    · simpa [hc, trimEnd] using ih

/-- **The offsets of a text are the places in its lines.** -/
theorem isAt_iff {t : Text} {i k o : Nat} : IsAt t i k o ↔ o ≤ t.length ∧
    (t.take o).count (CodePoint.char '\n') = i ∧ (trimEnd (· ≠ '\n') (t.take o)).length + k = o := by
  induction t using lines_induction generalizing i k o with
  | last line hline =>
    have hfront : CodePoint.char '\n' ∉ line.take o := fun hmem => hline (List.mem_of_mem_take hmem)
    rw [IsAt, lines_last hline, List.count_eq_zero.2 hfront, trimEnd_of_not_mem hfront]
    cases i with
    | zero => simp [spanOf]; omega
    | succ i => simp
  | next line rest hline ih =>
    rw [IsAt, lines_next rest hline]
    rcases Nat.lt_or_ge line.length o with hlater | hwithin
    · -- The offset lies behind the line feed.
      obtain ⟨o, rfl⟩ := Nat.exists_eq_add_of_lt hlater
      have htake : (line ++ CodePoint.char '\n' :: rest).take (line.length + o + 1) =
          line ++ CodePoint.char '\n' :: rest.take o := by
        rw [Nat.add_assoc, List.take_length_add_append, List.take_succ_cons]
      rw [htake, trimEnd_append_newline, List.count_append, List.count_cons_self, List.count_eq_zero.2 hline]
      cases i with
      | zero => simp [spanOf]; omega
      | succ i =>
        have hspan : ∀ span, line.length + o + 1 = line.length + 1 + span + k ↔ o = span + k := fun span => by omega
        have hrest := @ih i k o
        rw [IsAt] at hrest
        simp only [List.getElem?_cons_succ, List.take_succ_cons, spanOf_cons, List.length_append, List.length_cons,
          hspan, hrest]
        constructor
        · rintro ⟨hle, hcount, hplace⟩
          exact ⟨by omega, by omega, by omega⟩
        · rintro ⟨hle, hcount, hplace⟩
          exact ⟨by omega, by omega, by omega⟩
    · have hfront : CodePoint.char '\n' ∉ line.take o := fun hmem => hline (List.mem_of_mem_take hmem)
      rw [List.take_append_of_le_length hwithin, List.count_eq_zero.2 hfront, trimEnd_of_not_mem hfront]
      cases i with
      | zero => simp [spanOf]; omega
      | succ i => simp [spanOf_cons]; omega

theorem exists_isAt {t : Text} {o : Nat} (h : o ≤ t.length) : ∃ i k, IsAt t i k o := by
  have hstart := (List.dropWhile_sublist (fun c : CodePoint => decide (c ≠ '\n')) (l := (t.take o).reverse)).length_le
  rw [List.length_reverse, List.length_take] at hstart
  refine ⟨_, o - (trimEnd (· ≠ '\n') (t.take o)).length, isAt_iff.2 ⟨h, rfl, ?_⟩⟩
  rw [trimEnd, List.length_reverse]
  omega

/-- A line stands between line feeds, or at an end of the text. -/
theorem exists_cut_of_lines {t line : Text} {i : Nat} (h : t.lines[i]? = some line) : ∃ before rest : Text,
    t = before ++ (line ++ rest) ∧ before.length = spanOf (t.lines.take i) ∧
      (∀ c ∈ before.getLast?, c = CodePoint.char '\n') ∧ ∀ c ∈ rest.head?, c = CodePoint.char '\n' := by
  induction t using lines_induction generalizing i with
  | last first hfirst =>
    rw [lines_last hfirst] at h ⊢
    cases i with
    | zero =>
      obtain rfl : first = line := by simpa using h
      exact ⟨[], [], by simp, rfl, by simp, by simp⟩
    | succ i => simp at h
  | next first rest hfirst ih =>
    rw [lines_next rest hfirst] at h ⊢
    cases i with
    | zero =>
      obtain rfl : first = line := by simpa using h
      exact ⟨[], CodePoint.char '\n' :: rest, rfl, rfl, by simp, by simp⟩
    | succ i =>
      obtain ⟨before, back, hcut, hlength, hbefore, hback⟩ := ih h
      refine ⟨first ++ CodePoint.char '\n' :: before, back, by rw [hcut]; simp, ?_, ?_, hback⟩
      · rw [List.take_succ_cons, spanOf_cons, List.length_append, List.length_cons, hlength]
        omega
      · intro c hc
        rw [List.getLast?_append_of_ne_nil _ (by simp), List.getLast?_cons, Option.mem_some_iff] at hc
        cases hlast : before.getLast? with
        | none => simpa [hlast] using hc.symm
        | some d => exact hbefore c (by rw [hlast, ← hc, hlast]; rfl)

theorem newline_not_mem_of_lines {t line : Text} {i : Nat} (h : t.lines[i]? = some line) : CodePoint.char '\n' ∉ line :=
  not_mem_of_mem_split (List.mem_of_getElem? h)

end Text

namespace Buffer

open Text

/-- The line of the cursor is the line that its offset lies in, without the carriage returns at its end. -/
theorem lineAt_of_isAt {t line : Text} {offset : Int} {i k : Nat} (h : IsAt t i k (clamp t offset))
    (hline : t.lines[i]? = some line) : lineAt t offset = line.trimEnd (· = '\r') := by
  obtain ⟨line', hline', hk, ho⟩ := h
  obtain rfl := Option.some.inj (hline'.symm.trans hline)
  obtain ⟨before, rest, hcut, hlength, hbefore, hrest⟩ := exists_cut_of_lines hline
  have hrun : Text.runAround (fun c : CodePoint => c ≠ '\n') t (clamp t offset) = line' := by
    rw [ho, ← hlength, hcut]
    apply Text.runAround_of_cut
    · exact fun c hc => decide_eq_true fun heq => newline_not_mem_of_lines hline (heq ▸ hc)
    · exact fun c hc => by simpa using hbefore c hc
    · exact fun c hc => by simpa using hrest c hc
    · omega
    · omega
  exact congrArg (Text.trimEnd (· = '\r')) hrun

end Buffer

end SourceJump
