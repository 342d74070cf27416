import SourceJump.Proofs.Buffer.Cursor
import SourceJump.Proofs.Java.BaseClass
import SourceJump.Proofs.Java.QualifiedName

/-!
# The parts of a header

A match of the expression for headers consists of the header up to the name of the class, type parameters or none, a
clause with the word `extends`, and the base class, which is the group (`HeaderCut`). The base class is the longest
dotted name behind the clause, and a blank stands before it. So a base class without a dot is the name under the cursor
wherever the cursor touches it (`HeaderCut.wordAt_eq`).
-/

namespace SourceJump.Java

open Regex

/-- `^\s*(?:[\w@]+\s+)*class\s+name` -/
def namingRegexes (name : Text) : List Regex :=
  [lineStart, star (one isBlank), star modifierRegex, lit classWord, plus isBlank, lit name]

/-- `\s+extends\s+` -/
def extendsRegexes : List Regex := [plus isBlank, lit extendsWord, plus isBlank]

/-- The expression is a row with the base class as its last part. -/
theorem classHeaderRegex_eq (name : Text) : classHeaderRegex name = inRow ((namingRegexes name ++
    ([either (inRow parametersRegexes) (inRow [])] ++ extendsRegexes)) ++ group dottedNameRegex :: []) := rfl

/-- A match of the expression for the header of the class `name`, cut into its parts. -/
structure HeaderCut (name t : Text) (m : Match) where
  cut : Cut
  /-- The header up to the name of the class. -/
  naming : Text
  /-- The type parameters, if any. -/
  parameters : Text
  /-- The word `extends` with blanks around it. -/
  clause : Text
  isOf : cut.IsOf (classHeaderRegex name) t m
  front_eq : cut.front = naming ++ (parameters ++ clause)
  naming_spelled : (inRow (namingRegexes name)).Spells naming
  parameters_spelled : parameters = [] ∨ (inRow parametersRegexes).Spells parameters
  clause_spelled : (inRow extendsRegexes).Spells clause
  captured_spelled : dottedNameRegex.Spells cut.captured
  back_eq : cut.back = []
  /-- No name goes on behind the base class. -/
  stops : ∀ c ∈ cut.rest.head?, isNameChar c = false

/-- What is read behind the name of a class ends with a base class. -/
theorem exists_readBase_of_readExtends {t : Text} {r : Reading} (h : readExtends t = some r) :
    ∃ u, readBase u = some r := by
  rw [readExtends_eq_bind] at h
  obtain ⟨_, -, h⟩ := Option.bind_eq_some_iff.1 h
  obtain ⟨_, -, h⟩ := Option.bind_eq_some_iff.1 h
  obtain ⟨u, -, h⟩ := Option.bind_eq_some_iff.1 h
  exact ⟨u, h⟩

theorem exists_readBase_of_readAfterName {t : Text} {r : Reading} (h : readAfterName t = some r) :
    ∃ u, readBase u = some r := by
  rcases Option.or_eq_some_iff.1 h with h | ⟨-, h⟩
  · obtain ⟨_, -, h⟩ := Option.bind_eq_some_iff.1 h
    obtain ⟨_, _, -, -, h⟩ := exists_of_readAfterParameters h
    exact exists_readBase_of_readExtends h
  · exact exists_readBase_of_readExtends h

/-- No name goes on behind a header. -/
theorem head?_rest_of_readHeader {name t : Text} {r : Reading} (h : readHeader name t = some r) :
    ∀ c ∈ r.rest.head?, isNameChar c = false := by
  obtain ⟨_, _, _, -, -, -, -, hname⟩ := exists_of_readHeader h
  obtain ⟨u, hu⟩ := exists_readBase_of_readAfterName hname
  rw [readBase] at hu
  split at hu
  · cases hu
  · obtain rfl := Option.some.inj hu
    exact head?_drop_dottedName u

/-- Every match is cut in this way. -/
theorem exists_headerCut {name t : Text} {point : Nat} {m : Match}
    (h : (classHeaderRegex name).pattern.search t point = some m) : Nonempty (HeaderCut name t m) := by
  obtain ⟨r, hread, -, hrest⟩ := Pattern.exists_readFrom_of_search h
  rw [pattern_classHeaderRegex] at hread
  have hstops := head?_rest_of_readHeader (Pattern.readFrom_onLineStart.1 hread).2
  have hsilent : (inRow (namingRegexes name ++
      ([either (inRow parametersRegexes) (inRow [])] ++ extendsRegexes))).Silent := by
    simp [namingRegexes, extendsRegexes, parametersRegexes, modifierRegex, plus, inRow, Silent]
  have hbase : dottedNameRegex.Silent := by simp [dottedNameRegex, componentRegex, plus, inRow, Silent]
  have hend : (inRow []).Silent := trivial
  rw [classHeaderRegex_eq] at h
  obtain ⟨cut, hcut, hfront, hcaptured, hback⟩ := exists_cut_of_search hsilent hbase hend h
  obtain ⟨naming, behind, hfronteq, hnaming, hbehind⟩ := hfront.of_inRow_append
  obtain ⟨parameters, clause, rfl, hparameters, hclause⟩ := hbehind.of_inRow_append
  refine ⟨⟨cut, naming, parameters, clause, hcut, hfronteq, hnaming, ?_, hclause, hcaptured,
    hback.of_inRow_nil, ?_⟩⟩
  · rcases hparameters.of_inRow_singleton.of_either with hparameters | hparameters
    · exact Or.inr hparameters
    · exact Or.inl hparameters.of_inRow_nil
  · have hsame : r.rest = cut.rest := by
      rw [← hrest, hcut.stop_eq, hcut.text_eq, cut.drop_end]
    rwa [hsame] at hstops

namespace HeaderCut

variable {name t : Text} {m : Match} (h : HeaderCut name t m)
include h

/-- Before the base class stands a blank. -/
theorem getLast?_before : ∀ c ∈ (h.cut.before ++ h.cut.front).getLast?, isBlank c = true := by
  have hrow : extendsRegexes = [plus isBlank, lit extendsWord] ++ [plus isBlank] := rfl
  have hclause := h.clause_spelled
  rw [hrow] at hclause
  obtain ⟨word, gap, hcut, -, hgap⟩ := hclause.of_inRow_append
  obtain ⟨hne, hblank⟩ := hgap.of_inRow_singleton.of_plus
  intro c hc
  rw [h.front_eq, hcut, ← List.append_assoc, ← List.append_assoc, ← List.append_assoc,
    List.getLast?_append_of_ne_nil _ hne] at hc
  exact hblank c (List.mem_of_mem_getLast? hc)

theorem isDottedName_captured : IsDottedName h.cut.captured := isDottedName_of_spells h.captured_spelled

/-- A base class without a dot is the name under the cursor from its start to its end. -/
theorem wordAt_eq (hdot : CodePoint.char '.' ∉ h.cut.captured) {o : Nat} (hstart : h.cut.start ≤ o)
    (hstop : o ≤ h.cut.stop) : Buffer.wordAt t o = h.cut.captured := by
  have htext : t = (h.cut.before ++ h.cut.front) ++ (h.cut.captured ++ h.cut.rest) :=
    h.isOf.text_eq.trans (by simp [Cut.text, h.back_eq])
  have hlength : (h.cut.before ++ h.cut.front).length = h.cut.start := List.length_append
  refine (congrArg (Buffer.wordAt · o) htext).trans ?_
  apply Buffer.wordAt_of_cut (h.isDottedName_captured.isName hdot).chars
  · exact fun c hc => not_isNameChar_of_isBlank (h.getLast?_before c hc)
  · exact h.stops
  · rwa [hlength]
  · rwa [hlength]

end HeaderCut

end SourceJump.Java
