import SourceJump.Lookup.Command
import SourceJump.Proofs.Buffer.Search
import SourceJump.Proofs.Java.PackageImports

/-!
# Searching for imports of packages

A search tries the pattern at the starts of lines only and reads leading blanks, which may run over
several lines. Its finds begin elsewhere than the declarations, but they are the declarations: a search
from the start of the text or from behind a find meets what one pass over the text lists next
(`findFrom_wildcardImport`), and searching again and again meets all of it and stops
(`finds_wildcardImport`).
-/

namespace SourceJump.Java

theorem DeclaresPackage.exists_covered {t package rest : Text} (h : DeclaresPackage t package rest) :
    ∃ covered : Text, t = covered ++ CodePoint.char ';' :: rest := by
  obtain ⟨gap, body, gap', rfl, -, -, hrun, -, htail, -⟩ := h
  refine ⟨importWord ++ (gap ++ ((package ++ [CodePoint.char '.']) ++ CodePoint.char '*' :: gap')), ?_⟩
  rw [← List.takeWhile_append_dropWhile (p := isDottedChar) (l := body), hrun, htail]
  simp

/-- Reading at a place where the line is blank so far meets what the pass lists next. -/
theorem packageImportsFrom_of_readWildcard {t : Text} {r : Reading} (h : readWildcard t = some r) (offset : Nat) :
    ∃ p q, r.groups = [q] ∧ packageImportsFrom offset true t =
      (p, q) :: packageImportsFrom (offset + (t.length - r.rest.length)) false r.rest := by
  obtain ⟨q, hgroups, hd⟩ := readWildcard_eq_some_iff.1 h
  obtain ⟨b, hb, hblanks⟩ := packageImportsFrom_blanks offset
    (t.dropWhile isBlank) (fun c hc => List.mem_takeWhile_imp hc) true
  obtain rfl : b = true := hb rfl
  rw [List.takeWhile_append_dropWhile, hd.packageImportsFrom] at hblanks
  refine ⟨offset + (t.takeWhile isBlank).length, q, hgroups, hblanks.trans ?_⟩
  have hle : r.rest.length ≤ (t.dropWhile isBlank).length := by
    obtain ⟨covered, hcovered⟩ := hd.exists_covered
    rw [hcovered]
    simp
    omega
  have hlength := congrArg List.length (List.takeWhile_append_dropWhile (p := isBlank) (l := t))
  rw [List.length_append] at hlength
  congr 2
  omega

theorem exists_covered_of_readWildcard {t : Text} {r : Reading} (h : readWildcard t = some r) :
    ∃ covered : Text, t = covered ++ CodePoint.char ';' :: r.rest := by
  obtain ⟨q, -, hd⟩ := readWildcard_eq_some_iff.1 h
  obtain ⟨covered, hcovered⟩ := hd.exists_covered
  refine ⟨t.takeWhile isBlank ++ covered, ?_⟩
  rw [List.append_assoc, ← hcovered, List.takeWhile_append_dropWhile]

theorem readWildcard_cons_of_isBlank {c : CodePoint} (t : Text) (h : isBlank c = true) :
    readWildcard (c :: t) = readWildcard t := by
  simp only [readWildcard, afterImport?, List.dropWhile_cons_of_pos h]

theorem packageAt?_eq_none_of_readWildcard {t : Text} (h : readWildcard t = none) : packageAt? t = none := by
  unfold packageAt?
  split
  · rw [h]; rfl
  · rfl

/-- What a search from a place yields: nothing when the pass lists nothing from there on, and
otherwise what it lists first, with the rest of the text behind that. -/
def FindsFirst (offset : Nat) (blankSoFar : Bool) (t : Text) : Option (Nat × Reading) → Prop
  | none => packageImportsFrom offset blankSoFar t = []
  | some (_, r) => (∃ covered : Text, t = covered ++ CodePoint.char ';' :: r.rest) ∧ ∃ p q, r.groups = [q] ∧
      packageImportsFrom offset blankSoFar t =
        (p, q) :: packageImportsFrom (offset + (t.length - r.rest.length)) false r.rest

/-- A search tries the starts of lines only. On a line that is blank so far that is enough, because the
reading from the start of the line has failed before and skips the same blanks. -/
theorem findFrom_wildcardImport (t : Text) (before : Text) (blankSoFar : Bool) (offset : Nat)
    (hstart : Pattern.startsLine before.head? = true → blankSoFar = true)
    (hmissed : blankSoFar = true → Pattern.startsLine before.head? = false → readWildcard t = none) :
    FindsFirst offset blankSoFar t (wildcardImport.findFrom before t) := by
  induction t generalizing before blankSoFar offset with
  | nil => simp [Pattern.findFrom, wildcardImport, Pattern.onLineStart, readWildcard, afterImport?, Text.after?,
      importWord, FindsFirst, packageImportsFrom]
  | cons c t ih =>
    cases hread : wildcardImport.readAt before (c :: t) with
    | some r =>
      simp only [wildcardImport, Pattern.onLineStart] at hread
      split at hread
      · next hline =>
        simp only [Pattern.findFrom, wildcardImport, Pattern.onLineStart, hline, hread, if_true, FindsFirst]
        rw [hstart hline]
        exact ⟨exists_covered_of_readWildcard hread, packageImportsFrom_of_readWildcard hread offset⟩
      · simp at hread
    | none =>
      -- Wherever the line is blank so far, nothing can be read.
      have hnone : blankSoFar = true → readWildcard (c :: t) = none := by
        intro hb
        cases hline : Pattern.startsLine before.head? with
        | false => exact hmissed hb hline
        | true => simpa [wildcardImport, Pattern.onLineStart, hline] using hread
      have hpass := packageImportsFrom_cons_of_none offset
        fun hb => packageAt?_eq_none_of_readWildcard (hnone hb)
      have hrest := ih (c :: before) (c = '\n' || (blankSoFar && isBlank c)) (offset + 1)
        (fun hline => by simp [show c = '\n' by simpa [Pattern.startsLine] using hline]) (by
          intro hb hline
          have hc : c ≠ '\n' := by simpa [Pattern.startsLine] using hline
          obtain ⟨hb, hblank⟩ : blankSoFar = true ∧ isBlank c = true := by simpa [hc] using hb
          rw [← readWildcard_cons_of_isBlank t hblank]
          exact hnone hb)
      simp only [Pattern.findFrom, hread]
      cases hfind : wildcardImport.findFrom (c :: before) t with
      | none =>
        rw [hfind] at hrest
        simp only [Option.map_none, FindsFirst, hpass]
        exact hrest
      | some found =>
        obtain ⟨k, r⟩ := found
        rw [hfind] at hrest
        obtain ⟨⟨covered, hcovered⟩, p, q, hgroups, hlist⟩ := hrest
        simp only [Option.map_some, FindsFirst, hpass]
        refine ⟨⟨c :: covered, by rw [hcovered]; rfl⟩, p, q, hgroups, hlist.trans ?_⟩
        have hle : r.rest.length ≤ t.length := by rw [hcovered]; simp; omega
        rw [List.length_cons]
        congr 2
        omega

/-- What a loop of searches from behind `done` finds is what the pass lists from there on. -/
theorem exists_finds_wildcardImport (filePath : Option Text) (rest done : Text) (blankSoFar : Bool)
    (hstart : Pattern.startsLine done.reverse.head? = true → blankSoFar = true)
    (hmissed : blankSoFar = true → Pattern.startsLine done.reverse.head? = false → readWildcard rest = none) :
    ∃ found, Buffer.Finds wildcardImport ⟨done ++ rest, filePath, done.length⟩ found ∧
      found.map (·.1.groups) = (packageImportsFrom done.length blankSoFar rest).map (fun i => [i.2]) ∧
      found.length ≤ rest.length := by
  induction hn : rest.length using Nat.strong_induction_on generalizing rest done blankSoFar with
  | h n ih =>
    have hfirst := findFrom_wildcardImport rest done.reverse blankSoFar done.length hstart hmissed
    cases hfind : wildcardImport.findFrom done.reverse rest with
    | none =>
      rw [hfind] at hfirst
      refine ⟨[], .stop (Buffer.search_eq_none_of_findFrom filePath hfind), ?_, Nat.zero_le _⟩
      rw [show packageImportsFrom done.length blankSoFar rest = [] from hfirst]
      rfl
    | some first =>
      obtain ⟨skipped, r⟩ := first
      rw [hfind] at hfirst
      obtain ⟨⟨before, hbefore⟩, i, package, hgroups, hlist⟩ := hfirst
      obtain ⟨covered, hcovered⟩ : ∃ covered, covered = before ++ [CodePoint.char ';'] := ⟨_, rfl⟩
      obtain rfl : rest = covered ++ r.rest := by rw [hbefore, hcovered]; simp
      have hne : covered ≠ [] := by rw [hcovered]; simp
      -- The search goes on behind the semicolon, on a line that is not blank.
      have hline : Pattern.startsLine (done ++ covered).reverse.head? = false := by
        rw [hcovered, ← List.append_assoc, List.reverse_concat]
        rfl
      have hshorter : r.rest.length < n := by
        have := List.length_pos_iff.2 hne
        rw [← hn, List.length_append]
        omega
      obtain ⟨found, hfound, hpackages, hlength⟩ := ih r.rest.length hshorter r.rest (done ++ covered)
        false (fun h => absurd (h.symm.trans hline) (by decide)) (fun h => absurd h (by decide)) rfl
      rw [List.append_assoc] at hfound
      refine ⟨_, .next (Buffer.search_eq_some_of_findFrom filePath hfind hne) hfound, ?_, ?_⟩
      · rw [List.length_append, Nat.add_sub_cancel, ← List.length_append] at hlist
        rw [hlist, List.map_cons, List.map_cons, hpackages, hgroups]
      · rw [List.length_cons]
        omega

/-- Searching from the start for imports of packages finds what one pass over the text lists, and
stops. -/
theorem finds_wildcardImport (b : Buffer) : ∃ found, Buffer.Finds wildcardImport b.rewind found ∧
    found.map (·.1.groups) = (packageImports b.text).map (fun i => [i.2]) ∧ found.length ≤ b.text.length :=
  exists_finds_wildcardImport b.filePath b.text [] true (fun _ => rfl)
    (fun _ h => absurd h (by decide))

end SourceJump.Java
