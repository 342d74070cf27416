import SourceJump.Buffer.Basic
import SourceJump.Proofs.Text.Classes
import SourceJump.Text.Basic
import Mathlib.Data.List.Induction

/-!
# The two kinds of line ends

A text with line feeds for line ends can be written with a carriage return before each of them (`Text.crlf`). A class of
characters that makes no difference between the two cuts both texts in the same places (`takeWhile_crlf`), and so does a
word that stays on its line (`after?_crlf`). An offset moves by the line feeds before it (`crlfOffset`).
-/

namespace SourceJump

namespace Text

/-- The text with a carriage return before every line feed. -/
def crlf (t : Text) : Text :=
  t.flatMap fun c : CodePoint => if c = '\n' then ['\r', '\n'] else [c]

/-- Where an offset of a text comes to lie when carriage returns are put before the line feeds. -/
def crlfOffset (t : Text) (offset : Int) : Int :=
  offset + (t.take offset.toNat).count (CodePoint.char '\n')

@[simp] theorem crlf_nil : crlf [] = [] := rfl

@[simp] theorem crlf_newline (t : Text) :
    crlf (CodePoint.char '\n' :: t) = CodePoint.char '\r' :: CodePoint.char '\n' :: crlf t := rfl

theorem crlf_cons {c : CodePoint} (h : c ≠ '\n') (t : Text) : crlf (c :: t) = c :: crlf t := by
  rw [crlf, List.flatMap_cons, if_neg h, List.singleton_append, crlf]

theorem crlf_append (s t : Text) : crlf (s ++ t) = crlf s ++ crlf t := List.flatMap_append ..

/-- Induction along a text, with a case for the line feeds, which are the ones that change. -/
theorem newline_induction {motive : Text → Prop} (nil : motive [])
    (newline : ∀ t : Text, motive t → motive (CodePoint.char '\n' :: t))
    (other : ∀ (c : CodePoint) (t : Text), c ≠ '\n' → motive t → motive (c :: t)) (t : Text) : motive t := by
  induction t with
  | nil => exact nil
  | cons c t ih =>
    by_cases hc : c = '\n'
    · exact hc ▸ newline t ih
    · exact other c t hc ih

/-- A text on one line stays as it is. -/
theorem crlf_eq_self {t : Text} (h : CodePoint.char '\n' ∉ t) : crlf t = t := by
  induction t with
  | nil => rfl
  | cons c t ih =>
    rw [List.mem_cons, not_or] at h
    rw [crlf_cons (Ne.symm h.1), ih h.2]

theorem length_crlf (t : Text) : (crlf t).length = t.length + t.count (CodePoint.char '\n') := by
  induction t using newline_induction with
  | nil => rfl
  | newline t ih =>
    simp [ih]
    omega
  | other c t hc ih =>
    simp [crlf_cons hc, ih, hc]
    omega

/-- Reading the text from a file unifies the line ends again. -/
theorem unifyNewlines_crlf {t : Text} (h : CodePoint.char '\r' ∉ t) : (crlf t).unifyNewlines = t := by
  induction t using newline_induction with
  | nil => rfl
  | newline t ih =>
    rw [List.mem_cons, not_or] at h
    rw [crlf_newline, unifyNewlines, ih h.2]
  | other c t hc ih =>
    rw [List.mem_cons, not_or] at h
    rw [crlf_cons hc, unifyNewlines, ih h.2]
    · rintro rest rfl
      exact absurd rfl h.1
    · rintro rfl
      exact absurd rfl h.1

/-! ### Runs -/

variable {p : CodePoint → Bool}

/-- A class that holds both or none of the line ends has its longest run in the same place. -/
theorem takeWhile_crlf (h : p '\r' = p '\n') (t : Text) : (crlf t).takeWhile p = crlf (t.takeWhile p) := by
  induction t using newline_induction with
  | nil => rfl
  | newline t ih => cases hp : p '\n' <;> simp [h, hp, ih]
  | other c t hc ih =>
    rw [crlf_cons hc]
    cases hp : p c <;> simp [hp, ih, crlf_cons hc]

theorem dropWhile_crlf (h : p '\r' = p '\n') (t : Text) : (crlf t).dropWhile p = crlf (t.dropWhile p) := by
  induction t using newline_induction with
  | nil => rfl
  | newline t ih => cases hp : p '\n' <;> simp [h, hp, ih]
  | other c t hc ih =>
    rw [crlf_cons hc]
    cases hp : p c <;> simp [hp, ih, crlf_cons hc]

/-- A class without line ends has the same longest run. -/
theorem takeWhile_crlf_of_solid (hr : p '\r' = false) (hn : p '\n' = false) (t : Text) :
    (crlf t).takeWhile p = t.takeWhile p := by
  rw [takeWhile_crlf (hr.trans hn.symm), crlf_eq_self]
  intro hmem
  rw [List.mem_takeWhile_imp hmem] at hn
  cases hn

/-- The longest run at the end never reaches back over a line feed. -/
theorem lastRun_crlf (hn : p '\n' = false) (t : Text) : lastRun p (crlf t) = lastRun p t := by
  have hstop : ∀ s : Text, lastRun p (s ++ [CodePoint.char '\n']) = [] := by
    intro s
    rw [lastRun_append_singleton, hn, if_neg Bool.false_ne_true]
  induction t using List.reverseRecOn with
  | nil => rfl
  | append_singleton t c ih =>
    by_cases hc : c = '\n'
    · subst hc
      have hcut : crlf (t ++ [CodePoint.char '\n']) = (crlf t ++ [CodePoint.char '\r']) ++ [CodePoint.char '\n'] := by
        simp [crlf_append]
      rw [hcut, hstop, hstop]
    · rw [crlf_append, crlf_cons hc, crlf_nil, lastRun_append_singleton, lastRun_append_singleton, ih]

theorem trimEnd_append_of_pos {c : CodePoint} (h : p c = true) (t : Text) : trimEnd p (t ++ [c]) = trimEnd p t := by
  rw [trimEnd, List.reverse_append, List.reverse_singleton, List.singleton_append, List.dropWhile_cons_of_pos h, trimEnd]

/-! ### Words -/

/-- The word holds no line feed, and no carriage return that one could follow. -/
structure StaysOnLine (word : Text) : Prop where
  newline : CodePoint.char '\n' ∉ word
  last : word.getLast? ≠ some (CodePoint.char '\r')

theorem StaysOnLine.of_cons {c : CodePoint} {word : Text} (h : StaysOnLine (c :: word)) : StaysOnLine word := by
  refine ⟨fun hn => h.newline (List.mem_cons_of_mem c hn), fun hlast => h.last ?_⟩
  rw [List.getLast?_cons, hlast, Option.getD_some]

theorem StaysOnLine.cons {c : CodePoint} {word : Text} (h : StaysOnLine word) (hn : c ≠ '\n') (hr : c ≠ '\r') :
    StaysOnLine (c :: word) := by
  refine ⟨?_, fun hlast => ?_⟩
  · rw [List.mem_cons, not_or]
    exact ⟨hn.symm, h.newline⟩
  · rw [List.getLast?_cons, Option.some.injEq] at hlast
    cases hword : word.getLast? with
    | none =>
      rw [hword] at hlast
      exact hr hlast
    | some d =>
      rw [hword] at hlast
      exact h.last (hword.trans (congrArg some hlast))

theorem after?_crlf {word : Text} (h : StaysOnLine word) (t : Text) :
    after? word (crlf t) = (after? word t).map crlf := by
  induction word generalizing t with
  | nil => rfl
  | cons c word ih =>
    have hc : CodePoint.char '\n' ≠ c := fun hc => h.newline (hc ▸ List.mem_cons_self)
    cases t with
    | nil => rfl
    | cons d t =>
      by_cases hd : d = '\n'
      · -- The word does not go on behind a carriage return.
        subst hd
        rw [after?, if_neg hc.symm, crlf_newline, after?]
        split
        · next hreturn =>
          subst hreturn
          cases word with
          | nil => exact absurd rfl h.last
          | cons e word =>
            have he : e ≠ CodePoint.char '\n' := fun he => h.newline (he ▸ by simp)
            rw [after?, if_neg he, Option.map_none]
        · rfl
      · rw [crlf_cons hd, after?, after?]
        split
        · exact ih h.of_cons t
        · rfl

/-- Behind characters of one line the texts go on in the same way. -/
theorem take_drop_crlf {t : Text} {n : Nat} (hn : n ≤ t.length) (h : CodePoint.char '\n' ∉ t.take n) :
    (crlf t).take n = t.take n ∧ (crlf t).drop n = crlf (t.drop n) := by
  have hcut : crlf t = t.take n ++ crlf (t.drop n) := by
    conv_lhs => rw [← List.take_append_drop n t]
    rw [crlf_append, crlf_eq_self h]
  have hlength : (t.take n).length = n := List.length_take_of_le hn
  rw [hcut]
  exact ⟨List.take_left' hlength, List.drop_left' hlength⟩

end Text

namespace Buffer

open Text

/-! ### The cursor -/

theorem clamp_crlf (t : Text) (offset : Int) :
    clamp (crlf t) (crlfOffset t offset) = (crlf (t.take (clamp t offset))).length := by
  have hshift : (crlfOffset t offset).toNat = offset.toNat + (t.take offset.toNat).count (CodePoint.char '\n') := by
    rw [crlfOffset]
    rcases Int.le_total 0 offset with hpos | hneg
    · omega
    · have hzero : offset.toNat = 0 := Int.toNat_of_nonpos hneg
      simp [hzero]
  rw [clamp, clamp, hshift]
  rcases Nat.le_total offset.toNat t.length with hle | hle
  · have hcount : (t.take offset.toNat).count (CodePoint.char '\n') ≤ t.count (CodePoint.char '\n') :=
      (List.take_sublist _ _).count_le _
    rw [Nat.min_eq_left hle, length_crlf, length_crlf, List.length_take_of_le hle]
    omega
  · rw [List.take_of_length_le hle, Nat.min_eq_right hle, List.take_length, length_crlf]
    omega

/-- The offset cuts both texts in the same place. -/
theorem take_drop_clamp_crlf (t : Text) (offset : Int) :
    (crlf t).take (clamp (crlf t) (crlfOffset t offset)) = crlf (t.take (clamp t offset)) ∧
    (crlf t).drop (clamp (crlf t) (crlfOffset t offset)) = crlf (t.drop (clamp t offset)) := by
  have hcut : crlf t = crlf (t.take (clamp t offset)) ++ crlf (t.drop (clamp t offset)) := by
    rw [← crlf_append, List.take_append_drop]
  rw [clamp_crlf]
  constructor
  · exact (congrArg _ hcut).trans List.take_left
  · exact (congrArg _ hcut).trans List.drop_left

theorem wordAt_crlf (t : Text) (offset : Int) : wordAt (crlf t) (crlfOffset t offset) = wordAt t offset := by
  obtain ⟨htake, hdrop⟩ := take_drop_clamp_crlf t offset
  show lastRun isNameChar ((crlf t).take _) ++ ((crlf t).drop _).takeWhile isNameChar = _
  rw [htake, hdrop, lastRun_crlf rfl, takeWhile_crlf_of_solid rfl rfl, wordAt]

/-- The first line is the same but for the carriage return at its end. -/
theorem takeWhile_line_crlf (t : Text) : ∃ tail : Text, (tail = [] ∨ tail = [CodePoint.char '\r']) ∧
    (crlf t).takeWhile (fun c : CodePoint => c ≠ '\n') = t.takeWhile (fun c : CodePoint => c ≠ '\n') ++ tail := by
  induction t using newline_induction with
  | nil => exact ⟨[], Or.inl rfl, rfl⟩
  | newline t ih => exact ⟨[CodePoint.char '\r'], Or.inr rfl, rfl⟩
  | other c t hc ih =>
    obtain ⟨tail, htail, hline⟩ := ih
    refine ⟨tail, htail, ?_⟩
    rw [crlf_cons hc, List.takeWhile_cons_of_pos (by simpa using hc), List.takeWhile_cons_of_pos (by simpa using hc),
      hline, List.cons_append]

theorem lineAt_crlf (t : Text) (offset : Int) : lineAt (crlf t) (crlfOffset t offset) = lineAt t offset := by
  obtain ⟨htake, hdrop⟩ := take_drop_clamp_crlf t offset
  obtain ⟨tail, htail, hline⟩ := takeWhile_line_crlf (t.drop (clamp t offset))
  have hbefore : lastRun (fun c : CodePoint => c ≠ '\n') (crlf (t.take (clamp t offset))) =
      lastRun (fun c : CodePoint => c ≠ '\n') (t.take (clamp t offset)) := lastRun_crlf rfl _
  simp only [lineAt, htake, hdrop, hbefore, hline]
  rcases htail with rfl | rfl
  · rw [List.append_nil]
  · rw [← List.append_assoc, trimEnd_append_of_pos rfl]

end Buffer

end SourceJump
