import SourceJump.Proofs.Java.HeaderCut
import SourceJump.Proofs.Lookup.Chain

/-!
# The base class and the name under the cursor

The command for the base class takes the name from the header, the command at the cursor takes it from the characters
around the offset. Both get the same name when the cursor touches the base class in the header, and then go through the
same chain: the point of the buffer, which the search for the header moves, has no part in it (`runChain_agrees`). So
the two commands do the same (`baseClass_agrees_with_atCursor`).
-/

namespace SourceJump.Lookup

open Java Regex

/-- The runs ask the same of the file system, tell the same and end in the same way, wherever they leave the point. -/
structure Run.Agrees (r r' : Run) : Prop where
  events : r.events = r'.events
  outcome : r.outcome = r'.outcome

theorem Run.Agrees.orFail {r r' : Run} (h : r.Agrees r') (failure : Failure) :
    (r.orFail failure).Agrees (r'.orFail failure) :=
  ⟨h.events, congrArg (fun outcome : Option Outcome => some (outcome.getD (.failed failure))) h.outcome⟩

/-- What a stage asks and tells, wherever it leaves the point. -/
def Stage.content (stage : Stage) : List Candidate × List Event :=
  (stage.candidates, stage.whenMissed)

/-- What stages do depends on their contents alone. -/
theorem runStages_agrees_of_content (access : FileAccess) {stages stages' : List Stage}
    (h : stages.map Stage.content = stages'.map Stage.content) (point point' : Nat) :
    (runStages access point stages).Agrees (runStages access point' stages') := by
  induction stages generalizing stages' point point' with
  | nil =>
    obtain rfl := List.map_eq_nil_iff.1 h.symm
    exact ⟨rfl, rfl⟩
  | cons stage rest ih =>
    obtain ⟨stage', rest', rfl, hstage, hrest⟩ := List.map_eq_cons_iff.1 h.symm
    obtain ⟨hcandidates, hmissed⟩ := Prod.mk.inj hstage
    obtain ⟨hevents, houtcome⟩ := ih hrest.symm (stage.point.getD point) (stage'.point.getD point')
    cases hp : probe access stage.candidates with
    | mk events outcome =>
      cases outcome with
      | some o => constructor <;> simp [runStages, hcandidates, hp]
      | none => constructor <;> simp [runStages, hcandidates, hmissed, hp, hevents, houtcome]

/-- What stages do does not depend on the point. -/
theorem runStages_agrees (access : FileAccess) (stages : List Stage) (point point' : Nat) :
    (runStages access point stages).Agrees (runStages access point' stages) :=
  runStages_agrees_of_content access rfl point point'

/-- The chain depends on the text and the file of the buffer alone. -/
theorem chain_congr (s : Settings) {b b' : Buffer} (name : Text) (htext : b'.text = b.text)
    (hfile : b'.filePath = b.filePath) : chain s b' name = chain s b name := by
  cases b
  cases b'
  subst htext hfile
  rfl

theorem runChain_agrees (s : Settings) (access : FileAccess) {b b' : Buffer} (name : Text) (htext : b'.text = b.text)
    (hfile : b'.filePath = b.filePath) : (runChain s access b' name).Agrees (runChain s access b name) := by
  rw [runChain_eq, runChain_eq, chain_congr s name htext hfile]
  exact (runStages_agrees access (chain s b name) b'.point b.point).orFail _

/-- Where the search finds no header, the command fails at once. -/
theorem exists_run_baseClass_eq_failed (s : Settings) (access : FileAccess) {b : Buffer} {file : Text}
    (hfile : b.filePath = some file) (hne : file ≠ [])
    (hm : (classHeader (Path.ofText file).stem).search b.text 0 = none) :
    ∃ point, run s access b .baseClass = .failed (.noBaseClass (Path.ofText file).stem) point := by
  have hfound := (Buffer.search_fst b.rewind (classHeader (Path.ofText file).stem)).trans hm
  obtain ⟨c, tail, rfl⟩ := List.exists_cons_of_ne_nil hne
  cases hsearch : b.rewind.search (classHeader (Path.ofText (c :: tail)).stem) with
  | mk found b' =>
    rw [hsearch] at hfound
    obtain rfl : found = none := hfound
    exact ⟨b'.point, by simp [run, runBaseClass, hfile, hsearch]⟩

/-- A base class without a dot goes through the chain. -/
theorem baseClass_agrees_with_runChain (s : Settings) (access : FileAccess) (b : Buffer) {file : Text}
    (hfile : b.filePath = some file) (hne : file ≠ []) {m : Match} {base : Text}
    (hm : (classHeader (Path.ofText file).stem).search b.text 0 = some m) (hgroups : m.groups = [base])
    (hdot : CodePoint.char '.' ∉ base) : (run s access b .baseClass).Agrees (runChain s access b base) := by
  have hfound := Buffer.search_fst b.rewind (classHeader (Path.ofText file).stem)
  have htext := Buffer.text_search b.rewind (classHeader (Path.ofText file).stem)
  have hpath := filePath_search b.rewind (classHeader (Path.ofText file).stem)
  rw [show (classHeader (Path.ofText file).stem).search b.rewind.text b.rewind.point = some m from hm] at hfound
  show (runBaseClass s access b).Agrees _
  obtain ⟨c, tail, rfl⟩ := List.exists_cons_of_ne_nil hne
  cases hsearch : b.rewind.search (classHeader (Path.ofText (c :: tail)).stem) with
  | mk found b' =>
    rw [hsearch] at hfound htext hpath
    obtain rfl : found = some m := hfound
    have hrun : runBaseClass s access b = runChain s access b' base := by
      simp [runBaseClass, hfile, hsearch, hgroups, hdot]
    rw [hrun]
    exact runChain_agrees s access base htext hpath

/-- A base class with a dot is looked for as it stands. -/
theorem baseClass_agrees_with_runDirect (s : Settings) (access : FileAccess) (b : Buffer) {file : Text}
    (hfile : b.filePath = some file) (hne : file ≠ []) {m : Match} {base : Text}
    (hm : (classHeader (Path.ofText file).stem).search b.text 0 = some m) (hgroups : m.groups = [base])
    (hdot : CodePoint.char '.' ∈ base) :
    (run s access b .baseClass).Agrees (runDirect s access b.point .searchPath base) := by
  have hfound := (Buffer.search_fst b.rewind (classHeader (Path.ofText file).stem)).trans hm
  obtain ⟨c, tail, rfl⟩ := List.exists_cons_of_ne_nil hne
  cases hsearch : b.rewind.search (classHeader (Path.ofText (c :: tail)).stem) with
  | mk found b' =>
    rw [hsearch] at hfound
    obtain rfl : found = some m := hfound
    have hrun : run s access b .baseClass = runDirect s access b'.point .searchPath base := by
      simp [run, runBaseClass, hfile, hsearch, hgroups, hdot]
    rw [hrun, runDirect, runDirect]
    exact (runStages_agrees access _ b'.point b.point).orFail _

theorem atCursor_eq_runChain (s : Settings) (access : FileAccess) (b : Buffer) {offset : Int} {name : Text}
    (hname : Buffer.wordAt b.text offset = name) (hne : name ≠ []) :
    run s access b (.atCursor offset) = runChain s access b name := by
  simp only [run, hname]

/-- **The command for the base class does what the command at the cursor does on the base class.** Where searching for
the expression for the header of the buffer's class finds something, its group lies between two offsets; if there is
no dot between them, then at every offset from the one to the other the lookup at the cursor asks the same of the file
system in the same order and has the same outcome. -/
theorem baseClass_agrees_with_atCursor (s : Settings) (access : FileAccess) (b : Buffer) {file : Text}
    (hfile : b.filePath = some file) (hne : file ≠ []) {m : Match}
    (hm : (classHeaderRegex (Path.ofText file).stem).pattern.search b.text 0 = some m) :
    ∃ start stop, (classHeaderRegex (Path.ofText file).stem).groupSpans b.text m.start = some [(start, stop)] ∧
      m.groups = [(b.text.take stop).drop start] ∧
      (CodePoint.char '.' ∉ (b.text.take stop).drop start → ∀ o : Nat, start ≤ o → o ≤ stop →
        (run s access b .baseClass).events = (run s access b (.atCursor o)).events ∧
        (run s access b .baseClass).outcome = (run s access b (.atCursor o)).outcome) := by
  obtain ⟨h⟩ := exists_headerCut hm
  have hgroups := h.isOf.groups_eq_slice
  refine ⟨h.cut.start, h.cut.stop, h.isOf.spans_eq, hgroups, fun hdot o hstart hstop => ?_⟩
  have hcaptured : (b.text.take h.cut.stop).drop h.cut.start = h.cut.captured := by
    rw [h.isOf.groups_eq] at hgroups
    exact (List.singleton_inj.1 hgroups).symm
  rw [hcaptured] at hdot
  rw [pattern_classHeaderRegex] at hm
  rw [atCursor_eq_runChain s access b (h.wordAt_eq hdot hstart hstop) h.isDottedName_captured.ne_nil]
  obtain ⟨hevents, houtcome⟩ := baseClass_agrees_with_runChain s access b hfile hne hm h.isOf.groups_eq hdot
  exact ⟨hevents, houtcome⟩

/-- The base class stands behind type parameters and before a comment, and the point is at the end of the text. -/
theorem baseClass_agrees_with_atCursor_behind_parameters :
    let s : Settings := ⟨[Text.lit "a"], Text.lit "java", none⟩
    let b : Buffer := ⟨Text.lit "import q.B;\nclass M<T extends A>\n extends B/**/", some (Text.lit "d/M.java"), 47⟩
    let access : FileAccess := ⟨fun path => path ∈ [Text.lit "d/B.java"], some⟩
    let header := classHeaderRegex (Path.ofText (Text.lit "d/M.java")).stem
    Text.lit "d/M.java" ≠ [] ∧ header.pattern.search b.text 0 = some ⟨12, 43, [Text.lit "B"]⟩ ∧
      header.groupSpans b.text 12 = some [(42, 43)] ∧
      ∀ o : Nat, 42 ≤ o → o ≤ 43 → (run s access b .baseClass).events = (run s access b (.atCursor o)).events ∧
        (run s access b .baseClass).outcome = (run s access b (.atCursor o)).outcome := by
  intro s b access header
  have hm : header.pattern.search b.text 0 = some ⟨12, 43, [Text.lit "B"]⟩ := by
    rw [show header.pattern = _ from pattern_classHeaderRegex _]
    decide +kernel
  have hspan : header.groupSpans b.text 12 = some [(42, 43)] := by decide +kernel
  obtain ⟨start, stop, hfound, -, hagree⟩ := baseClass_agrees_with_atCursor s access b rfl (by decide) hm
  obtain ⟨rfl, rfl⟩ : start = 42 ∧ stop = 43 := by
    have hsame := hfound.symm.trans hspan
    simpa using hsame
  exact ⟨by decide, hm, hspan, hagree (by decide)⟩

end SourceJump.Lookup
