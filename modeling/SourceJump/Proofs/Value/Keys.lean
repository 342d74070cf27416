import Mathlib
import SourceJump.Value.Basic

/-!
# Equal keys

Two keys can be the same without being the same value: a truth value and a number, an integer and a floating-point
number, the two zeros, two times with different offsets. The undefined number is not even the same key as itself. But
what is the same key as one of two equal keys is the same as the other (`Value.sameKey_congr`). So it does not matter
under which of them an entry is looked up or put in (`Entries.find?_congr`, `Entries.find?_insert`).
-/

namespace SourceJump

theorem Float.beq_comm (x y : Float) : (x == y) = (y == x) := by
  rw [Bool.eq_iff_iff, Float.beq_iff_ne_nan_and_eq, Float.beq_iff_ne_nan_and_eq]
  tauto

theorem Float.beq_congr {x y : Float} (h : (x == y) = true) (z : Float) : (x == z) = (y == z) := by
  rw [Bool.eq_iff_iff, Float.beq_iff_ne_nan_and_eq, Float.beq_iff_ne_nan_and_eq]
  rw [Float.beq_iff_ne_nan_and_eq] at h
  grind

namespace DateTime

theorem sameMoment_comm (s t : DateTime) : s.sameMoment t = t.sameMoment s := by
  unfold sameMoment
  cases s.offset <;> cases t.offset <;> simp [eq_comm]

theorem sameMoment_congr {s t : DateTime} (h : s.sameMoment t = true) (u : DateTime) :
    s.sameMoment u = t.sameMoment u := by
  unfold sameMoment at h ⊢
  cases hs : s.offset <;> cases ht : t.offset <;> cases hu : u.offset <;> simp_all

end DateTime

namespace Value

theorem sameKey_comm (a b : Value) : a.sameKey b = b.sameKey a := by
  unfold sameKey
  cases a.integer? <;> cases b.integer? <;> simp only []
  · cases a <;> cases b <;> simp [eq_comm, Float.beq_comm, DateTime.sameMoment_comm]
  · simp [eq_comm]

theorem integer?_eq_of_sameKey {a b : Value} (h : a.sameKey b = true) : a.integer? = b.integer? := by
  unfold sameKey at h
  split at h <;> simp_all

/-- Of two equal keys both are the same as a third one, or neither is. -/
theorem sameKey_congr {a b : Value} (h : a.sameKey b = true) (c : Value) : a.sameKey c = b.sameKey c := by
  have hint := integer?_eq_of_sameKey h
  unfold sameKey at h ⊢
  rw [hint] at h ⊢
  cases hb : b.integer? with
  | some n => cases c.integer? <;> rfl
  | none =>
    -- Keys that are no numbers are of one kind, and only times can differ then.
    rw [hb] at h
    dsimp only at h
    cases hc : c.integer? with
    | some n => rfl
    | none =>
      split at h
      · rfl
      · cases c <;> simp [Float.beq_congr h]
      · cases c <;> simp_all
      · cases c <;> simp_all
      · cases c <;> simp [DateTime.sameMoment_congr h]
      · cases c <;> simp_all
      · cases h

end Value

namespace Entries

theorem find?_cons (key value : Value) (rest : Entries) (sought : Value) :
    find? ((key, value) :: rest) sought = if key.sameKey sought then some value else find? rest sought := by
  rw [find?, List.find?_cons]
  cases key.sameKey sought <;> rfl

theorem find?_congr {key key' : Value} (h : key.sameKey key' = true) (entries : Entries) :
    find? entries key = find? entries key' := by
  have hsame : (fun e : Value × Value => e.1.sameKey key) = fun e => e.1.sameKey key' := by
    funext e
    rw [Value.sameKey_comm, Value.sameKey_congr h, Value.sameKey_comm]
  rw [find?, hsame, find?]

/-- Under a key that is put in the new value is found, and under other keys what was there before. -/
theorem find?_insert (entries : Entries) (key value sought : Value) :
    find? (insert entries key value) sought = if key.sameKey sought then some value else find? entries sought := by
  induction entries with
  | nil => rw [insert, find?_cons]
  | cons entry rest ih =>
    obtain ⟨k, v⟩ := entry
    rw [insert]
    split
    · next hk =>
      rw [find?_cons, find?_cons, Value.sameKey_congr hk]
      split <;> rfl
    · next hk =>
      rw [find?_cons, find?_cons, ih]
      split
      · next hsought => rw [if_neg (by rwa [Value.sameKey_comm, ← Value.sameKey_congr hsought])]
      · rfl

end Entries

end SourceJump
