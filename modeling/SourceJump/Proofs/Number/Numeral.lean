import SourceJump.Number.Integer
import SourceJump.Proofs.Text.Classes
import SourceJump.Proofs.Text.Split

/-!
# Decimal numerals

A row of digits 0 to 9 is an integer as it stands: there are no blanks to leave out, no sign and no underscores, and in
base ten no mark comes before the digits. So the decimal numeral of a number is read as that number, if it is not too
long to be converted (`Integer.read_ofNat`).
-/

namespace SourceJump

theorem CodePoint.bounds_of_isDigit {c : CodePoint} (h : c.isDigit = true) : 0x30 ≤ c.toNat ∧ c.toNat ≤ 0x39 := by
  cases c with
  | half place => cases h
  | char d =>
    have hdigit : d.isDigit = true := h
    rw [Char.isDigit, Bool.and_eq_true, decide_eq_true_eq, decide_eq_true_eq] at hdigit
    exact hdigit

/-- The numeral of a number: digits, one at least. -/
theorem Text.ofNat_eq_map (n : Nat) : Text.ofNat n = (Nat.toDigits 10 n).map CodePoint.char := by
  rw [Text.ofNat, Text.lit, Nat.toList_repr]

theorem Text.ofNat_ne_nil (n : Nat) : Text.ofNat n ≠ [] := by
  rw [Text.ofNat_eq_map, Ne, List.map_eq_nil_iff]
  exact Nat.toDigits_ne_nil

theorem Text.isDigit_of_mem_ofNat {n : Nat} {c : CodePoint} (h : c ∈ Text.ofNat n) : c.isDigit = true := by
  rw [Text.ofNat_eq_map] at h
  obtain ⟨d, hd, rfl⟩ := List.mem_map.1 h
  exact Nat.isDigit_of_mem_toDigits (by decide) (by decide) hd

namespace Integer

variable {t : Text}

/-! ### Nothing is taken off a row of digits -/

theorem plainChar_of_isDigit {c : CodePoint} (h : c.isDigit = true) : plainChar c = c := by
  have hbounds := CodePoint.bounds_of_isDigit h
  rw [plainChar, if_pos (by omega)]

theorem not_isPadding_of_isDigit {c : CodePoint} (h : c.isDigit = true) : isPadding c = false := by
  have hbounds := CodePoint.bounds_of_isDigit h
  have hspace : c ≠ CodePoint.char ' ' := by
    rintro rfl
    exact absurd h (by decide)
  rw [isPadding, Bool.or_eq_false_iff, Bool.and_eq_false_iff]
  refine ⟨beq_eq_false_iff_ne.2 hspace, Or.inr (decide_eq_false ?_)⟩
  omega

theorem ne_of_isDigit {c mark : CodePoint} (h : c.isDigit = true) (hmark : mark.isDigit = false) : c ≠ mark := by
  rintro rfl
  rw [h] at hmark
  cases hmark

theorem map_plainChar_dropWhile (h : ∀ c ∈ t, c.isDigit = true) : (t.map plainChar).dropWhile isPadding = t := by
  rw [List.map_congr_left fun c hc => plainChar_of_isDigit (h c hc), List.map_id']
  exact Text.dropWhile_eq_self fun c hc => not_isPadding_of_isDigit (h c hc)

theorem takeSign_of_isDigit (h : ∀ c ∈ t, c.isDigit = true) : takeSign t = (false, t) := by
  cases t with
  | nil => rfl
  | cons c t =>
    have hc := h c List.mem_cons_self
    have hminus : c ≠ '-' := ne_of_isDigit hc (by decide)
    have hplus : c ≠ '+' := ne_of_isDigit hc (by decide)
    simp [takeSign, hminus, hplus]

/-- Base ten has no mark. -/
theorem dropBaseMark_ten (t : Text) : dropBaseMark 10 t = t := by
  simp only [dropBaseMark]
  split <;> simp

/-! ### What the digits denote -/

theorem digit_lt_of_isDigit {c : CodePoint} (h : c.isDigit = true) : digit c < 10 := by
  have hbounds := CodePoint.bounds_of_isDigit h
  have hzero : Char.toNat '0' = 0x30 := rfl
  rw [digit, if_pos h, hzero]
  omega

theorem withoutSeparators_of_isDigit (h : ∀ c ∈ t, c.isDigit = true) : withoutSeparators t = t :=
  List.filter_eq_self.2 fun c hc => decide_eq_true (ne_of_isDigit (h c hc) (by decide))

theorem wellSeparated_of_isDigit (hne : t ≠ []) (h : ∀ c ∈ t, c.isDigit = true) : wellSeparated t = true := by
  have hnot : CodePoint.char '_' ∉ t := fun hmem => absurd (h _ hmem) (by decide)
  rw [wellSeparated, Text.split_of_not_mem hnot]
  simp [hne]

/-- A row of digits is read as it stands, or refused for its length. -/
theorem read_of_isDigit (hne : t ≠ []) (h : ∀ c ∈ t, c.isDigit = true) :
    read 10 t = if maxDigits < t.length then .error (.tooLong t.length) else .ok (ofDigits 10 t) := by
  have hrow : ∀ c ∈ t, (decide (digit c < 10) || c == CodePoint.char '_') = true := by
    intro c hc
    rw [decide_eq_true (digit_lt_of_isDigit (h c hc)), Bool.true_or]
  simp only [read, map_plainChar_dropWhile h, takeSign_of_isDigit h, dropBaseMark_ten, List.takeWhile_eq_self_iff.2 hrow,
    List.dropWhile_eq_nil_iff.2 hrow, withoutSeparators_of_isDigit h, wellSeparated_of_isDigit hne h]
  simp [hne]

/-- The digits of a numeral denote its number. -/
theorem ofDigits_ofNat (n : Nat) : ofDigits 10 (Text.ofNat n) = n := by
  have hstep : ∀ sofar : Nat, ∀ d ∈ Nat.toDigits 10 n,
      sofar * 10 + digit (CodePoint.char d) = 10 * sofar + (d.toNat - '0'.toNat) := by
    intro sofar d hd
    have hdigit : (CodePoint.char d).isDigit = true := Nat.isDigit_of_mem_toDigits (by decide) (by decide) hd
    rw [digit, if_pos hdigit, Nat.mul_comm]
    rfl
  rw [ofDigits, withoutSeparators_of_isDigit fun c hc => Text.isDigit_of_mem_ofNat hc, Text.ofNat_eq_map,
    List.foldl_map, List.foldl_ext _ _ 0 hstep, ← Nat.ofDigitChars_eq_foldl, Nat.ofDigitChars_ten_toDigits]

/-- **The numeral of a number is read as the number.** -/
theorem read_ofNat {n : Nat} (h : (Text.ofNat n).length ≤ maxDigits) : read 10 (Text.ofNat n) = .ok (n : Int) := by
  rw [read_of_isDigit (Text.ofNat_ne_nil n) fun c hc => Text.isDigit_of_mem_ofNat hc, if_neg (Nat.not_lt.2 h),
    ofDigits_ofNat]

end Integer

end SourceJump
