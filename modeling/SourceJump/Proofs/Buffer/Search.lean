import SourceJump.Buffer.Basic
import Mathlib.Data.List.Basic

/-!
# Searching again and again

A loop that searches from the point until nothing is found makes a definite row of finds and then
stops, or never stops. `Finds` says that it stops after these finds. `Buffer.searchAgain` computes the finds of
a bounded number of searches, which are those of the loop whenever the bound is not below the number of finds
(`searchAgain_eq_of_finds`).
-/

namespace SourceJump.Buffer

/-- What repeated searches find, at most `count` of them, each match with the point after it. -/
def searchAgain (p : Pattern) : (count : Nat) → Buffer → List (Match × Nat)
  | 0, _ => []
  | count + 1, b =>
    match b.search p with
    | (none, _) => []
    | (some m, b') => (m, b'.point) :: searchAgain p count b'

/-- What repeated searches from the start find. No more searches than characters are made: a pattern
that reads at least one character is found no more often. -/
def searchAll (b : Buffer) (p : Pattern) : List (Match × Nat) :=
  searchAgain p b.text.length b.rewind

/-- Searches for the pattern, each from where the one before has left the point, find these matches, with
the point after each, and then nothing. -/
inductive Finds (p : Pattern) : Buffer → List (Match × Nat) → Prop where
  /-- The next search finds nothing. -/
  | stop {b : Buffer} : (b.search p).1 = none → Finds p b []
  /-- The next search finds a match, and the search goes on behind it. -/
  | next {b b' : Buffer} {m : Match} {found : List (Match × Nat)} :
      b.search p = (some m, b') → Finds p b' found → Finds p b ((m, b'.point) :: found)

variable {p : Pattern} {b : Buffer}

/-- As many searches as there are finds suffice. -/
theorem searchAgain_eq_of_finds {found : List (Match × Nat)} {count : Nat} (h : Finds p b found)
    (hcount : found.length ≤ count) : searchAgain p count b = found := by
  induction h generalizing count with
  | @stop b hnone =>
    cases count with
    | zero => rfl
    | succ count =>
      cases hs : b.search p with
      | mk o b' =>
        obtain rfl : o = none := by rw [hs] at hnone; exact hnone
        simp only [searchAgain, hs]
  | @next b b' m found hs _ ih =>
    cases count with
    | zero => simp at hcount
    | succ count =>
      simp only [searchAgain, hs]
      rw [ih (Nat.le_of_succ_le_succ hcount)]

/-- The loop has one course only. -/
theorem Finds.unique {found found' : List (Match × Nat)} (h : Finds p b found) (h' : Finds p b found') :
    found = found' :=
  (searchAgain_eq_of_finds h (Nat.le_max_left _ found'.length)).symm.trans
    (searchAgain_eq_of_finds h' (Nat.le_max_right found.length _))

theorem search_fst (b : Buffer) (p : Pattern) : (b.search p).1 = p.search b.text b.point := by
  rw [Buffer.search]
  cases p.search b.text b.point <;> rfl

theorem text_search (b : Buffer) (p : Pattern) : (b.search p).2.text = b.text := by
  rw [Buffer.search]
  split <;> rfl

/-- What repeated searches find, one search in the same text finds from some point. -/
theorem exists_search_of_mem_searchAgain {count : Nat} {i : Match × Nat} (h : i ∈ b.searchAgain p count) :
    ∃ point, p.search b.text point = some i.1 := by
  induction count generalizing b with
  | zero => cases h
  | succ count ih =>
    have hfound := search_fst b p
    have htext := text_search b p
    rw [searchAgain] at h
    cases hs : b.search p with
    | mk found b' =>
      rw [hs] at h hfound htext
      cases found with
      | none => cases h
      | some m =>
        rcases List.mem_cons.1 h with rfl | h
        · exact ⟨b.point, hfound.symm⟩
        · obtain ⟨point, hpoint⟩ := ih h
          rw [htext] at hpoint
          exact ⟨point, hpoint⟩

/-- A search from inside a text reads what stands behind the point, with what stands before it in view. -/
theorem search_append (p : Pattern) (done rest : Text) : p.search (done ++ rest) done.length =
    (p.findFrom done.reverse rest).map fun (skipped, reading) =>
      ⟨done.length + skipped, (done ++ rest).length - reading.rest.length, reading.groups⟩ := by
  unfold Pattern.search
  have hmin : min done.length (done ++ rest).length = done.length := by simp
  simp only [hmin, List.take_left, List.drop_left]

theorem search_eq_none_of_findFrom {done rest : Text} (filePath : Option Text)
    (h : p.findFrom done.reverse rest = none) :
    (Buffer.search ⟨done ++ rest, filePath, done.length⟩ p).1 = none := by
  have hsearch := search_append p done rest
  rw [h] at hsearch
  rw [Buffer.search, hsearch]
  rfl

/-- A match that covers something leaves the point at its end. -/
theorem search_eq_some_of_findFrom {done covered : Text} {skipped : Nat} {r : Reading} (filePath : Option Text)
    (h : p.findFrom done.reverse (covered ++ r.rest) = some (skipped, r)) (hne : covered ≠ []) :
    Buffer.search ⟨done ++ (covered ++ r.rest), filePath, done.length⟩ p =
      (some ⟨done.length + skipped, (done ++ covered).length, r.groups⟩,
        ⟨done ++ (covered ++ r.rest), filePath, (done ++ covered).length⟩) := by
  have hsearch := search_append p done (covered ++ r.rest)
  rw [h] at hsearch
  have hstop : (done ++ (covered ++ r.rest)).length - r.rest.length = (done ++ covered).length := by
    simp only [List.length_append]
    omega
  have hpoint : max (done ++ covered).length (done.length + 1) = (done ++ covered).length := by
    have := List.length_pos_iff.2 hne
    rw [List.length_append]
    omega
  simp only [Buffer.search, hsearch, Option.map_some, hstop, hpoint]

end SourceJump.Buffer
