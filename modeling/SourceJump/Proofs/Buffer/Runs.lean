import SourceJump.Proofs.Buffer.Cursor

/-!
# Runs between two places of a text

The characters between two places are a run of a class when all of them are of the class. A run is a longest one when no
run of the class reaches further on either side. Two longest runs that touch the same place are one, because together
they are a run again (`IsLongestRun.unique`).

The ends of the longest run that touches a place are found character by character: back as long as the character before
is of the class, and on as long as the next one is. A step of either kind makes a run out of a run (`IsRun.back`,
`IsRun.on`), and where no step is left the run is a longest one (`isLongestRun_scan`). So the two scans find what
`Text.runAround` cuts out (`runAround_eq_scan`).
-/

namespace SourceJump.Text

variable {p : CodePoint → Bool} {t : Text} {s e o : Nat}

/-- A character of the class stands at the place. None stands before the start of the text or behind its end. -/
def holdsAt (p : CodePoint → Bool) (t : Text) (place : Int) : Bool :=
  if place < 0 then false else t[place.toNat]?.any p

theorem holdsAt_natCast (i : Nat) : holdsAt p t i = t[i]?.any p := by
  rw [holdsAt, if_neg (by omega), Int.toNat_natCast]

theorem holdsAt_of_getElem? {i : Nat} {c : CodePoint} (h : t[i]? = some c) : holdsAt p t i = p c := by
  rw [holdsAt_natCast, h, Option.any_some]

theorem lt_length_of_holdsAt {i : Nat} (h : holdsAt p t i = true) : i < t.length := by
  by_contra hbehind
  rw [holdsAt_natCast, List.getElem?_eq_none (Nat.le_of_not_lt hbehind)] at h
  cases h

theorem pos_of_holdsAt {i : Nat} (h : holdsAt p t ((i : Int) - 1) = true) : 0 < i := by
  by_contra hzero
  have hneg : (i : Int) - 1 < 0 := by omega
  rw [holdsAt, if_pos hneg] at h
  cases h

/-! ### Runs -/

/-- All characters from the place `s` up to the place `e` are of the class. -/
structure IsRun (p : CodePoint → Bool) (t : Text) (s e : Nat) : Prop where
  le : s ≤ e
  le_length : e ≤ t.length
  holds : ∀ i, s ≤ i → i < e → holdsAt p t i = true

/-- A run that is no proper part of another one. -/
structure IsLongestRun (p : CodePoint → Bool) (t : Text) (s e : Nat) : Prop extends IsRun p t s e where
  longest : ∀ s' e', IsRun p t s' e' → s' ≤ s → e ≤ e' → s' = s ∧ e' = e

theorem isRun_self (h : o ≤ t.length) : IsRun p t o o := ⟨le_rfl, h, fun i hlo hhi => by omega⟩

/-- A run grows by the character before it. -/
theorem IsRun.back (h : IsRun p t s e) (hp : holdsAt p t ((s : Int) - 1) = true) : IsRun p t (s - 1) e := by
  have hs := pos_of_holdsAt hp
  refine ⟨by have := h.le; omega, h.le_length, fun i hlo hhi => ?_⟩
  by_cases hi : i = s - 1
  · rw [hi, Int.natCast_sub hs]
    exact hp
  · exact h.holds i (by omega) hhi

/-- A run grows by the character behind it. -/
theorem IsRun.on (h : IsRun p t s e) (hp : holdsAt p t e = true) : IsRun p t s (e + 1) := by
  refine ⟨by have := h.le; omega, lt_length_of_holdsAt hp, fun i hlo hhi => ?_⟩
  by_cases hi : i = e
  · rw [hi]
    exact hp
  · exact h.holds i hlo (by omega)

/-- Two runs that touch the same place are one run together. -/
theorem IsRun.union {s' e' : Nat} (h : IsRun p t s e) (h' : IsRun p t s' e') (hs : s ≤ o) (he : o ≤ e) (hs' : s' ≤ o)
    (he' : o ≤ e') : IsRun p t (min s s') (max e e') := by
  refine ⟨by omega, Nat.max_le.2 ⟨h.le_length, h'.le_length⟩, fun i hlo hhi => ?_⟩
  by_cases hi : s ≤ i ∧ i < e
  · exact h.holds i hi.1 hi.2
  · exact h'.holds i (by omega) (by omega)

/-- A place is touched by one longest run at most. -/
theorem IsLongestRun.unique {s' e' : Nat} (h : IsLongestRun p t s e) (h' : IsLongestRun p t s' e') (hs : s ≤ o)
    (he : o ≤ e) (hs' : s' ≤ o) (he' : o ≤ e') : s' = s ∧ e' = e := by
  have hunion := h.toIsRun.union h'.toIsRun hs he hs' he'
  obtain ⟨hfirst, hlast⟩ := h.longest _ _ hunion (Nat.min_le_left _ _) (Nat.le_max_left _ _)
  obtain ⟨hfirst', hlast'⟩ := h'.longest _ _ hunion (Nat.min_le_right _ _) (Nat.le_max_right _ _)
  exact ⟨hfirst'.symm.trans hfirst, hlast'.symm.trans hlast⟩

/-- A run is a longest one when it cannot grow by a character. -/
theorem isLongestRun_iff : IsLongestRun p t s e ↔
    IsRun p t s e ∧ holdsAt p t ((s : Int) - 1) = false ∧ holdsAt p t e = false := by
  constructor
  · intro h
    refine ⟨h.toIsRun, ?_, ?_⟩
    · by_contra hbefore
      have hbefore := eq_true_of_ne_false hbefore
      have hs := pos_of_holdsAt hbefore
      obtain ⟨hsame, -⟩ := h.longest _ _ (h.toIsRun.back hbefore) (Nat.sub_le _ _) le_rfl
      omega
    · by_contra hbehind
      obtain ⟨-, hsame⟩ := h.longest _ _ (h.toIsRun.on (eq_true_of_ne_false hbehind)) le_rfl (Nat.le_succ _)
      omega
  · rintro ⟨hrun, hbefore, hbehind⟩
    refine ⟨hrun, fun s' e' hrun' hs he => ⟨?_, ?_⟩⟩
    · by_contra hne
      have hlt : s' < s := by omega
      have hholds := hrun'.holds (s - 1) (by omega) (by have := hrun.le; omega)
      rw [Int.natCast_sub (by omega), Int.natCast_one, hbefore] at hholds
      cases hholds
    · by_contra hne
      have hholds := hrun'.holds e (by have := hrun.le; omega) (by omega)
      rw [hbehind] at hholds
      cases hholds

/-! ### Scans -/

/-- Back from the place, as long as the character before is of the class. -/
def scanBack (p : CodePoint → Bool) (t : Text) (i : Nat) : Nat :=
  if holdsAt p t ((i : Int) - 1) then scanBack p t (i - 1) else i
termination_by i
decreasing_by
  next h =>
    have := pos_of_holdsAt h
    omega

/-- On from the place, as long as the next character is of the class. -/
def scanOn (p : CodePoint → Bool) (t : Text) (i : Nat) : Nat :=
  if holdsAt p t i then scanOn p t (i + 1) else i
termination_by t.length - i
decreasing_by
  next h =>
    have := lt_length_of_holdsAt h
    omega

/-- The scan back makes a run out of a run, and stops where it cannot grow any more. -/
theorem IsRun.scanBack (h : IsRun p t s e) :
    IsRun p t (scanBack p t s) e ∧ scanBack p t s ≤ s ∧ holdsAt p t ((Text.scanBack p t s : Int) - 1) = false := by
  fun_induction Text.scanBack p t s with
  | case1 s hholds ih =>
    obtain ⟨hrun, hle, hstop⟩ := ih (h.back hholds)
    exact ⟨hrun, by omega, hstop⟩
  | case2 s hholds => exact ⟨h, le_rfl, Bool.eq_false_iff.2 hholds⟩

theorem IsRun.scanOn (h : IsRun p t s e) :
    IsRun p t s (scanOn p t e) ∧ e ≤ scanOn p t e ∧ holdsAt p t (Text.scanOn p t e) = false := by
  fun_induction Text.scanOn p t e with
  | case1 e hholds ih =>
    obtain ⟨hrun, hle, hstop⟩ := ih (h.on hholds)
    exact ⟨hrun, by omega, hstop⟩
  | case2 e hholds => exact ⟨h, le_rfl, Bool.eq_false_iff.2 hholds⟩

/-- Between the ends of the two scans from a place lies the longest run that touches it. -/
theorem isLongestRun_scan (p : CodePoint → Bool) (h : o ≤ t.length) :
    IsLongestRun p t (scanBack p t o) (scanOn p t o) ∧ scanBack p t o ≤ o ∧ o ≤ scanOn p t o := by
  obtain ⟨hback, hle, hbefore⟩ := (isRun_self (p := p) h).scanBack
  obtain ⟨hrun, hge, hbehind⟩ := hback.scanOn
  exact ⟨isLongestRun_iff.2 ⟨hrun, hbefore, hbehind⟩, hle, hge⟩

/-! ### The run around a place -/

theorem IsRun.chars (h : IsRun p t s e) : ∀ c ∈ (t.take e).drop s, p c = true := by
  intro c hc
  obtain ⟨i, hi⟩ := List.mem_iff_getElem?.1 hc
  rw [List.getElem?_drop, List.getElem?_take, Option.ite_none_right_eq_some] at hi
  rw [← holdsAt_of_getElem? (p := p) hi.2]
  exact h.holds (s + i) (Nat.le_add_right _ _) hi.1

/-- Before a longest run stands a character of another class, if any. -/
theorem IsLongestRun.before (h : IsLongestRun p t s e) : ∀ c ∈ (t.take s).getLast?, p c = false := by
  intro c hc
  have hlength : (t.take s).length = s := List.length_take_of_le (h.le.trans h.le_length)
  rw [List.getLast?_eq_getElem?, hlength, Option.mem_def, List.getElem?_take, Option.ite_none_right_eq_some] at hc
  rw [← holdsAt_of_getElem? (p := p) hc.2, Int.natCast_sub (by omega)]
  exact (isLongestRun_iff.1 h).2.1

/-- Behind a longest run stands a character of another class, if any. -/
theorem IsLongestRun.behind (h : IsLongestRun p t s e) : ∀ c ∈ (t.drop e).head?, p c = false := by
  intro c hc
  rw [List.head?_drop] at hc
  rw [← holdsAt_of_getElem? (p := p) hc]
  exact (isLongestRun_iff.1 h).2.2

/-- The run around a place is the longest run that touches it. -/
theorem IsLongestRun.runAround_eq (h : IsLongestRun p t s e) (hs : s ≤ o) (he : o ≤ e) :
    runAround p t o = (t.take e).drop s := by
  have hle := h.le
  have hlength := h.le_length
  have hcut : t.take s ++ ((t.take e).drop s ++ t.drop e) = t := by
    have hfront : t.take s = (t.take e).take s := by rw [List.take_take, Nat.min_eq_left hle]
    rw [hfront, ← List.append_assoc, List.take_append_drop, List.take_append_drop]
  have hstart : (t.take s).length = s := List.length_take_of_le (hle.trans hlength)
  have hstop : (t.take s).length + ((t.take e).drop s).length = e := by
    rw [List.length_drop, List.length_take_of_le hlength, hstart]
    omega
  have haround := runAround_of_cut h.chars h.before h.behind (o := o) (by omega) (by omega)
  rwa [hcut] at haround

/-- The two scans from a place find the run around it. -/
theorem runAround_eq_scan (p : CodePoint → Bool) (h : o ≤ t.length) :
    runAround p t o = (t.take (scanOn p t o)).drop (scanBack p t o) := by
  obtain ⟨hlongest, hback, hon⟩ := isLongestRun_scan p h
  exact hlongest.runAround_eq hback hon

end SourceJump.Text

namespace SourceJump.Buffer

open Text

theorem clamp_le (text : Text) (offset : Int) : clamp text offset ≤ text.length := Nat.min_le_right _ _

theorem clamp_natCast {text : Text} {o : Nat} (h : o ≤ text.length) : clamp text o = o := Nat.min_eq_left h

/-- The text between the ends of a run. -/
theorem slice_of_isRun {p : CodePoint → Bool} {text : Text} {s e : Nat} (h : IsRun p text s e) :
    slice text s e = (text.take e).drop s := by
  have hs : ¬ (s : Int) < 0 := by omega
  have he : ¬ (e : Int) < 0 := by omega
  rw [slice, place, place, if_neg hs, if_neg he, Int.toNat_natCast, Int.toNat_natCast, Nat.min_eq_left h.le_length,
    Nat.min_eq_left (h.le.trans h.le_length)]

end SourceJump.Buffer
