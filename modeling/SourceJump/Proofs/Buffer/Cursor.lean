import SourceJump.Buffer.Basic
import SourceJump.Proofs.Text.Classes

/-!
# What lies around the cursor

The name under the cursor and the line of the cursor are runs of a class of characters: the longest one that touches the
offset on either side (`Text.runAround`). A run that nothing of its class stands next to is found from every offset
between its two ends, both of them included (`Text.runAround_of_cut`). So a name is the name under the cursor wherever
the cursor stands in it or right behind it (`Buffer.wordAt_of_cut`), and the line of the cursor stands behind a
line feed or at the start of the text (`Buffer.exists_cut_lineAt`).
-/

namespace SourceJump

namespace Text

variable {p : CodePoint → Bool}

/-- The longest run of the class that touches the offset on either side. -/
def runAround (p : CodePoint → Bool) (t : Text) (o : Nat) : Text :=
  lastRun p (t.take o) ++ (t.drop o).takeWhile p

/-- A run behind another character is the longest one at the end. -/
theorem lastRun_append_of_stop {before run : Text} (hrun : ∀ c ∈ run, p c = true)
    (hbefore : ∀ c ∈ before.getLast?, p c = false) : lastRun p (before ++ run) = run := by
  rw [lastRun, List.reverse_append, takeWhile_append_of_stop, List.reverse_reverse]
  · exact fun c hc => hrun c (List.mem_reverse.1 hc)
  · rw [List.head?_reverse]
    exact hbefore

theorem lastRun_suffix (p : CodePoint → Bool) (t : Text) : lastRun p t <:+ t := by
  rw [lastRun, ← List.reverse_prefix, List.reverse_reverse]
  exact List.takeWhile_prefix p

/-- The longest run at the end does not go back beyond a character of another class. -/
theorem lastRun_append (t : Text) {before : Text} (hbefore : ∀ c ∈ before.getLast?, p c = false) :
    lastRun p (before ++ t) = lastRun p t := by
  have hstop : before.reverse.takeWhile p = [] := by
    cases hreverse : before.reverse with
    | nil => rfl
    | cons c rest =>
      refine List.takeWhile_cons_of_neg ?_
      rw [hbefore c (by rw [← List.head?_reverse, hreverse]; rfl)]
      decide
  rw [lastRun, List.reverse_append, List.takeWhile_append, lastRun, hstop]
  split
  · next hall => rw [List.append_nil, (List.takeWhile_prefix p).eq_of_length hall]
  · rfl

/-- A text is what is left of it without its longest run at the end, and that run. -/
theorem trimEnd_append_lastRun (p : CodePoint → Bool) (t : Text) : trimEnd p t ++ lastRun p t = t := by
  rw [trimEnd, lastRun, ← List.reverse_append, List.takeWhile_append_dropWhile, List.reverse_reverse]

/-- Before the longest run at the end another character stands, if any. -/
theorem getLast?_trimEnd (p : CodePoint → Bool) (t : Text) : ∀ c ∈ (trimEnd p t).getLast?, p c = false := by
  rw [trimEnd, List.getLast?_reverse]
  exact stop_dropWhile p t.reverse

/-- A run between other characters is the one that touches each of its offsets. -/
theorem runAround_of_cut {before run rest : Text} (hrun : ∀ c ∈ run, p c = true)
    (hbefore : ∀ c ∈ before.getLast?, p c = false) (hrest : ∀ c ∈ rest.head?, p c = false) {o : Nat}
    (hstart : before.length ≤ o) (hstop : o ≤ before.length + run.length) :
    runAround p (before ++ (run ++ rest)) o = run := by
  obtain ⟨k, rfl⟩ := Nat.exists_eq_add_of_le hstart
  have hk : k ≤ run.length := by omega
  have htake : (before ++ (run ++ rest)).take (before.length + k) = before ++ run.take k := by
    rw [List.take_length_add_append, List.take_append_of_le_length hk]
  have hdrop : (before ++ (run ++ rest)).drop (before.length + k) = run.drop k ++ rest := by
    rw [List.drop_length_add_append, List.drop_append_of_le_length hk]
  have hleft := lastRun_append_of_stop (fun c hc => hrun c (List.mem_of_mem_take (i := k) hc)) hbefore
  have hright := takeWhile_append_of_stop (fun c hc => hrun c (List.mem_of_mem_drop (i := k) hc)) hrest
  rw [runAround, htake, hdrop, hleft, hright, List.take_append_drop]

/-- The run that touches an offset is cut out of the text. -/
theorem trimEnd_append_runAround (p : CodePoint → Bool) (t : Text) (o : Nat) :
    trimEnd p (t.take o) ++ (runAround p t o ++ (t.drop o).dropWhile p) = t := by
  rw [runAround, List.append_assoc, List.takeWhile_append_dropWhile, ← List.append_assoc, trimEnd_append_lastRun,
    List.take_append_drop]

end Text

namespace Buffer

/-- A name between other characters is the name under the cursor from its start to its end. -/
theorem wordAt_of_cut {before name rest : Text} (hname : ∀ c ∈ name, isNameChar c = true)
    (hbefore : ∀ c ∈ before.getLast?, isNameChar c = false) (hrest : ∀ c ∈ rest.head?, isNameChar c = false) {o : Nat}
    (hstart : before.length ≤ o) (hstop : o ≤ before.length + name.length) :
    wordAt (before ++ (name ++ rest)) o = name := by
  have hclamp : clamp (before ++ (name ++ rest)) o = o := by
    simp only [clamp, Int.toNat_natCast, List.length_append]
    omega
  show Text.runAround isNameChar (before ++ (name ++ rest)) (clamp (before ++ (name ++ rest)) o) = name
  rw [hclamp]
  exact Text.runAround_of_cut hname hbefore hrest hstart hstop

/-- Where the line of the offset starts. -/
def lineStart (text : Text) (offset : Int) : Nat :=
  (Text.trimEnd (· ≠ '\n') (text.take (clamp text offset))).length

/-- The line of an offset is cut out of the text at the start of a line. -/
theorem exists_cut_lineAt (t : Text) (offset : Int) : ∃ before rest, t = before ++ (lineAt t offset ++ rest) ∧
    before.length = lineStart t offset ∧ Pattern.startsLine before.getLast? = true := by
  have hcut := Text.trimEnd_append_runAround (fun c : CodePoint => c ≠ '\n') t (clamp t offset)
  have hline := Text.trimEnd_append_lastRun (fun c : CodePoint => c = '\r')
    (Text.runAround (fun c : CodePoint => c ≠ '\n') t (clamp t offset))
  rw [← hline, List.append_assoc] at hcut
  refine ⟨_, _, hcut.symm, rfl, ?_⟩
  have hbefore := Text.getLast?_trimEnd (fun c : CodePoint => c ≠ '\n') (t.take (clamp t offset))
  cases hlast : (Text.trimEnd (fun c : CodePoint => decide (c ≠ '\n')) (t.take (clamp t offset))).getLast? with
  | none => rfl
  | some c => simpa [Pattern.startsLine] using hbefore c hlast

end Buffer

end SourceJump
