import SourceJump.Buffer.Pattern
import Mathlib.Data.List.Induction

/-!
# Comments

Two slashes begin a comment that reaches to the end of its line, a slash and an asterisk one that reaches to the next
asterisk before a slash. A scan from the start of a text tells for every offset in which zone it lies, inside a comment
or not (`zoneAt`); strings and characters in quotes, where slashes mean nothing, are not told apart. At the start of
a line no comment of the first kind is open (`zoneAt_of_startsLine`), but one of the second kind may be. A text without
slashes neither opens nor closes a comment, except that the end of a line closes one (`scan_code`, `isBlock_scan`,
`scan_line`).
-/

namespace SourceJump.Java

/-- What a scan knows of the place it has come to. -/
inductive Zone where
  /-- Outside of comments. -/
  | code
  /-- Outside of comments, behind a slash. -/
  | slash
  /-- In a comment that ends with the line. -/
  | line
  /-- In a comment that an asterisk and a slash end. -/
  | block
  /-- In such a comment, behind an asterisk. -/
  | star
  deriving DecidableEq

/-- The characters that end a line. -/
def isLineEnd (c : CodePoint) : Bool := c = '\n' || c = '\r'

namespace Zone

/-- The zone behind a character. -/
def next (z : Zone) (c : CodePoint) : Zone :=
  match z with
  | code => if c = '/' then slash else code
  | slash => if c = '/' then line else if c = '*' then block else code
  | line => if isLineEnd c then code else line
  | block => if c = '*' then star else block
  | star => if c = '/' then code else if c = '*' then star else block

/-- What comes next lies in a comment. -/
def isInside : Zone → Bool
  | code | slash => false
  | line | block | star => true

/-- A comment is open that the end of the line does not close. -/
def isBlock : Zone → Bool
  | code | slash | line => false
  | block | star => true

theorem isInside_iff {z : Zone} : z.isInside = true ↔ z.isBlock = true ∨ z = line := by
  cases z <;> simp [isInside, isBlock]

end Zone

/-- The zone behind a text. -/
def scan (z : Zone) (t : Text) : Zone := t.foldl Zone.next z

/-- The zone of an offset. -/
def zoneAt (t : Text) (offset : Nat) : Zone := scan .code (t.take offset)

/-- All characters from `start` to `stop` lie in comments, and there are some. -/
def InComment (t : Text) (start stop : Nat) : Prop :=
  start < stop ∧ ∀ i < stop, start ≤ i → (zoneAt t i).isInside = true

instance (t : Text) (start stop : Nat) : Decidable (InComment t start stop) :=
  inferInstanceAs (Decidable (start < stop ∧ ∀ i < stop, start ≤ i → (zoneAt t i).isInside = true))

theorem scan_append (z : Zone) (s t : Text) : scan z (s ++ t) = scan (scan z s) t := List.foldl_append

theorem scan_cons (z : Zone) (c : CodePoint) (t : Text) : scan z (c :: t) = scan (z.next c) t := rfl

theorem zoneAt_append (s t : Text) (count : Nat) :
    zoneAt (s ++ t) (s.length + count) = scan (scan .code s) (t.take count) := by
  rw [zoneAt, List.take_length_add_append, scan_append]

theorem zoneAt_length (s t : Text) : zoneAt (s ++ t) s.length = scan .code s := by
  rw [zoneAt, List.take_left]

/-! ### Texts without slashes -/

/-- At the start of a line no comment is open but one that runs over lines. -/
theorem zoneAt_of_startsLine {t : Text} {offset : Nat} (h : Pattern.startsLine (t.take offset).getLast? = true) :
    zoneAt t offset = .code ∨ zoneAt t offset = .block := by
  rw [zoneAt]
  generalize t.take offset = before at h
  cases before using List.reverseRecOn with
  | nil => exact Or.inl rfl
  | append_singleton before c =>
    obtain rfl : c = '\n' := by simpa [Pattern.startsLine] using h
    rw [scan_append]
    cases scan .code before <;> simp [scan, Zone.next, isLineEnd]

variable {t : Text}

theorem scan_code (h : CodePoint.char '/' ∉ t) : scan .code t = .code := by
  induction t with
  | nil => rfl
  | cons c t ih =>
    rw [List.mem_cons, not_or] at h
    rw [scan_cons, Zone.next, if_neg (Ne.symm h.1), ih h.2]

theorem isBlock_scan {z : Zone} (hz : z.isBlock = true) (h : CodePoint.char '/' ∉ t) : (scan z t).isBlock = true := by
  induction t generalizing z with
  | nil => exact hz
  | cons c t ih =>
    rw [List.mem_cons, not_or] at h
    refine ih ?_ h.2
    cases z <;> by_cases hc : c = '*' <;> simp_all [Zone.next, Zone.isBlock, Ne.symm h.1]

/-- The end of a line closes a comment. -/
theorem scan_line (h : CodePoint.char '/' ∉ t) : scan .line t = if t.any isLineEnd then .code else .line := by
  induction t with
  | nil => rfl
  | cons c t ih =>
    rw [List.mem_cons, not_or] at h
    by_cases hc : isLineEnd c = true
    · simp [scan_cons, Zone.next, hc, scan_code h.2]
    · simp [scan_cons, Zone.next, hc, ih h.2]

/-! ### Texts within comments -/

variable {s : Text}

/-- What begins outside of comments does not lie in one. -/
theorem InComment.isInside_start {start stop : Nat} (h : InComment t start stop) : (zoneAt t start).isInside = true :=
  h.2 start h.1 (Nat.le_refl _)

/-- A text without slashes in a comment that runs over lines lies in it as a whole. -/
theorem inComment_of_isBlock (rest : Text) (hne : t ≠ []) (h : CodePoint.char '/' ∉ t)
    (hs : (scan .code s).isBlock = true) : InComment (s ++ (t ++ rest)) s.length (s.length + t.length) := by
  refine ⟨Nat.lt_add_of_pos_right (List.length_pos_iff.2 hne), fun i hstop hstart => ?_⟩
  obtain ⟨k, rfl⟩ := Nat.exists_eq_add_of_le hstart
  rw [zoneAt_append, List.take_append_of_le_length (by omega)]
  exact Zone.isInside_iff.2 (Or.inl (isBlock_scan hs fun hmem => h (List.mem_of_mem_take hmem)))

/-- A text on one line, in a comment that ends with the line, lies in it as a whole. -/
theorem inComment_of_line (rest : Text) (hne : t ≠ []) (h : CodePoint.char '/' ∉ t)
    (hline : ∀ c ∈ t, isLineEnd c = false) (hs : scan .code s = .line) :
    InComment (s ++ (t ++ rest)) s.length (s.length + t.length) := by
  refine ⟨Nat.lt_add_of_pos_right (List.length_pos_iff.2 hne), fun i hstop hstart => ?_⟩
  obtain ⟨k, rfl⟩ := Nat.exists_eq_add_of_le hstart
  have hnone : (t.take k).any isLineEnd = false := by
    rw [List.any_eq_false]
    intro c hc
    simp [hline c (List.mem_of_mem_take hc)]
  rw [zoneAt_append, List.take_append_of_le_length (by omega), hs,
    scan_line fun hmem => h (List.mem_of_mem_take hmem), hnone]
  rfl

end SourceJump.Java
