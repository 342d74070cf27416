import SourceJump.Proofs.Lookup.BaseClassAtCursor
import SourceJump.Proofs.Lookup.ClassImport
import SourceJump.Proofs.Lookup.Discipline

/-!
# Lookups forget what was done before

Searches and lookups leave the point of the buffer anywhere, even behind the end of the text. Every lookup starts its
own searches at the start, so the point has no part in what it asks and finds (`run_agrees`). A session differs in the
point alone from the one in which nothing but the changes of files and buffers took place
(`Session.after_sameButPoint`). So a lookup does what it would do in a buffer that has just been opened
(`lookup_forgets_history`).
-/

namespace SourceJump.Lookup

/-! ### A lookup does not depend on the point -/

theorem runDirect_agrees (s : Settings) (access : FileAccess) (point point' : Nat) (strategy : Strategy)
    (name : Text) : (runDirect s access point strategy name).Agrees (runDirect s access point' strategy name) :=
  (runStages_agrees access [s.directStage strategy name] point point').orFail _

/-- **A command asks and finds the same wherever the point is.** -/
theorem run_agrees (s : Settings) (access : FileAccess) {b b' : Buffer} (htext : b'.text = b.text)
    (hfile : b'.filePath = b.filePath) (c : Command) : (run s access b' c).Agrees (run s access b c) := by
  have hfailed : ∀ failure point point', (Run.failed failure point').Agrees (Run.failed failure point) :=
    fun _ _ _ => ⟨rfl, rfl⟩
  obtain ⟨text, file, point⟩ := b
  obtain ⟨_, _, point'⟩ := b'
  obtain rfl : _ = text := htext
  obtain rfl : _ = file := hfile
  cases c with
  | resolve name => exact runDirect_agrees s access point' point .searchPath name
  | inWildcards name => exact ⟨rfl, rfl⟩
  | atCursor offset =>
    simp only [run]
    split
    · exact hfailed _ _ _
    · exact runChain_agrees s access _ rfl rfl
  | importAt offset =>
    simp only [run]
    split
    · exact hfailed _ _ _
    · exact runDirect_agrees s access point' point .singleImport _
  | baseClass =>
    -- Only a buffer without a file leaves the point where it is; the search for the header starts at the start.
    simp only [run, runBaseClass]
    split
    · exact hfailed _ _ _
    · exact hfailed _ _ _
    · exact ⟨rfl, rfl⟩

theorem findImport_agrees {b b' : Buffer} (htext : b'.text = b.text) (name : Text) :
    (findImport b' name).1 = (findImport b name).1 := by
  rw [findImport_fst, findImport_fst, htext]

/-! ### Sessions that differ in the point -/

/-- The action changes the files or takes another buffer. -/
def Action.isChange : Action → Bool
  | .addFile _ | .removeFile _ | .visit _ => true
  | .command _ | .findImport _ | .search _ => false

/-- The action looks for a class or for its import. A bare search is no lookup: it goes on from the point. -/
def Action.isLookup : Action → Bool
  | .command _ | .findImport _ => true
  | .search _ | .addFile _ | .removeFile _ | .visit _ => false

theorem Action.isChange_of_isLookup {a : Action} (h : a.isLookup = true) : a.isChange = false := by
  cases a with
  | command c => rfl
  | findImport name => rfl
  | search p => rfl
  | addFile path => cases h
  | removeFile path => cases h
  | visit b => cases h

namespace Session

/-- The sessions are the same but for the point of the buffer. -/
structure SameButPoint (s s' : Session) : Prop where
  settings : s'.settings = s.settings
  access : s'.access = s.access
  text : s'.buffer.text = s.buffer.text
  filePath : s'.buffer.filePath = s.buffer.filePath

theorem SameButPoint.refl (s : Session) : s.SameButPoint s := ⟨rfl, rfl, rfl, rfl⟩

theorem SameButPoint.symm {s s' : Session} (h : s.SameButPoint s') : s'.SameButPoint s :=
  ⟨h.settings.symm, h.access.symm, h.text.symm, h.filePath.symm⟩

theorem SameButPoint.trans {s t u : Session} (h : s.SameButPoint t) (h' : t.SameButPoint u) : s.SameButPoint u :=
  ⟨h'.settings.trans h.settings, h'.access.trans h.access, h'.text.trans h.text, h'.filePath.trans h.filePath⟩

/-- What is no change moves the point at most. -/
theorem step_sameButPoint (s : Session) {a : Action} (ha : a.isChange = false) :
    s.SameButPoint (s.step a).session := by
  cases a with
  | command c => exact ⟨rfl, rfl, rfl, rfl⟩
  | findImport name =>
    exact ⟨rfl, rfl, Buffer.text_search s.buffer.rewind _, filePath_search s.buffer.rewind _⟩
  | search p => exact ⟨rfl, rfl, Buffer.text_search s.buffer p, filePath_search s.buffer p⟩
  | addFile path => cases ha
  | removeFile path => cases ha
  | visit b => cases ha

/-- A change comes to the same wherever the point was. -/
theorem SameButPoint.step {s s' : Session} (h : s.SameButPoint s') {a : Action} (ha : a.isChange = true) :
    (s.step a).session.SameButPoint (s'.step a).session := by
  cases a with
  | command c => cases ha
  | findImport name => cases ha
  | search p => cases ha
  | addFile path => exact ⟨h.settings, congrArg (·.adding path) h.access, h.text, h.filePath⟩
  | removeFile path => exact ⟨h.settings, congrArg (·.removing path) h.access, h.text, h.filePath⟩
  | visit b => exact ⟨h.settings, h.access, rfl, rfl⟩

/-- Lookups and searches left out, a row of actions leads to the same session but for the point. -/
theorem SameButPoint.after_filter {s s' : Session} (h : s.SameButPoint s') (before : List Action) :
    (s.after before).SameButPoint (s'.after (before.filter Action.isChange)) := by
  induction before generalizing s s' with
  | nil => exact h
  | cons a before ih =>
    cases ha : a.isChange with
    | true =>
      rw [List.filter_cons_of_pos ha]
      exact ih (h.step ha)
    | false =>
      rw [List.filter_cons_of_neg (by simp [ha])]
      exact ih ((s.step_sameButPoint ha).symm.trans h)

theorem after_append (s : Session) (before later : List Action) :
    s.after (before ++ later) = (s.after before).after later := by
  induction before generalizing s with
  | nil => rfl
  | cons a before ih => exact ih (s.step a).session

/-- A lookup does the same wherever the point is. -/
theorem SameButPoint.lookup {s s' : Session} (h : s.SameButPoint s') {a : Action} (ha : a.isLookup = true) :
    (s'.step a).events = (s.step a).events ∧ (s'.step a).answer = (s.step a).answer := by
  cases a with
  | command c =>
    obtain ⟨hevents, houtcome⟩ := run_agrees s.settings s.access h.text h.filePath c
    simp only [Session.step, h.settings, h.access]
    exact ⟨hevents, congrArg Answer.outcome houtcome⟩
  | findImport name => exact ⟨rfl, congrArg Answer.name (findImport_agrees h.text name)⟩
  | search p => cases ha
  | addFile path => cases ha
  | removeFile path => cases ha
  | visit b => cases ha

/-- The session without a past: the files and the current buffer are those after the actions, but nothing has been
looked up or searched for, and the buffer has just been opened. -/
def untouched (s : Session) (before : List Action) : Session :=
  let changed := s.after (before.filter Action.isChange)
  ⟨s.settings, changed.access, .ofText changed.buffer.text changed.buffer.filePath⟩

theorem settings_after (s : Session) (actions : List Action) : (s.after actions).settings = s.settings := by
  induction actions generalizing s with
  | nil => rfl
  | cons a actions ih => rw [after, ih]; cases a <;> rfl

theorem sameButPoint_untouched (s : Session) (before : List Action) :
    (s.after before).SameButPoint (s.untouched before) := by
  obtain ⟨-, haccess, htext, hfile⟩ := (SameButPoint.refl s).after_filter before
  exact ⟨(s.settings_after before).symm, haccess, htext, hfile⟩

theorem buffer_after_filter (s : Session) {before : List Action} (h : ∀ b, Action.visit b ∉ before) :
    (s.after (before.filter Action.isChange)).buffer = s.buffer := by
  induction before generalizing s with
  | nil => rfl
  | cons a before ih =>
    have hrest : ∀ b, Action.visit b ∉ before := fun b hb => h b (List.mem_cons_of_mem a hb)
    cases a with
    | visit b => exact absurd List.mem_cons_self (h b)
    | addFile path => exact ih (s.step (.addFile path)).session hrest
    | removeFile path => exact ih (s.step (.removeFile path)).session hrest
    | command c => exact ih s hrest
    | findImport name => exact ih s hrest
    | search p => exact ih s hrest

/-- As long as no other buffer is taken, the current one has the text and the file that it had at the start. -/
theorem buffer_untouched (s : Session) {before : List Action} (h : ∀ b, Action.visit b ∉ before) :
    (s.untouched before).buffer = .ofText s.buffer.text s.buffer.filePath := by
  rw [untouched, s.buffer_after_filter h]

/-- Without a change, the session is the same but for the point. -/
theorem sameButPoint_after (s : Session) {between : List Action} (h : ∀ x ∈ between, x.isChange = false) :
    s.SameButPoint (s.after between) := by
  induction between generalizing s with
  | nil => exact .refl s
  | cons a between ih =>
    obtain ⟨ha, hrest⟩ := List.forall_mem_cons.1 h
    exact (s.step_sameButPoint ha).trans (ih _ hrest)

end Session

/-- **A lookup does not depend on what was done before.** In a session of any length, it asks the same of the file
system and gives the same answer as in a buffer that has just been opened, with the same settings and the files that
there are; while no other buffer is taken, this buffer has the text and the file of the first one. When the lookup is
repeated before a file or the buffer changes, whatever lookups and searches lie between, it asks and answers the same
again. -/
theorem lookup_forgets_history (s : Session) (before : List Action) {a : Action} (ha : a.isLookup = true) :
    (∀ later, ∃ step, (s.run (before ++ a :: later))[before.length]? = some step ∧
      step.events = ((s.untouched before).step a).events ∧ step.answer = ((s.untouched before).step a).answer) ∧
    ((∀ b, Action.visit b ∉ before) → (s.untouched before).buffer = .ofText s.buffer.text s.buffer.filePath) ∧
    ∀ between later, (∀ x ∈ between, x.isChange = false) → ∃ step again,
      (s.run (before ++ a :: (between ++ a :: later)))[before.length]? = some step ∧
      (s.run (before ++ a :: (between ++ a :: later)))[(before ++ a :: between).length]? = some again ∧
      again.events = step.events ∧ again.answer = step.answer := by
  refine ⟨fun later => ?_, s.buffer_untouched, fun between later hbetween => ?_⟩
  · obtain ⟨hevents, hanswer⟩ := (s.sameButPoint_untouched before).lookup ha
    exact ⟨_, s.getElem?_run before a later, hevents.symm, hanswer.symm⟩
  · have hunchanged : ∀ x ∈ a :: between, x.isChange = false := by
      refine List.forall_mem_cons.2 ⟨?_, hbetween⟩
      exact Action.isChange_of_isLookup ha
    obtain ⟨hevents, hanswer⟩ := ((s.after before).sameButPoint_after hunchanged).lookup ha
    refine ⟨_, _, s.getElem?_run before a _, ?_, hevents, hanswer⟩
    rw [← s.after_append, ← s.getElem?_run (before ++ a :: between) a later, List.append_assoc, List.cons_append]

/-- The loop over the imported packages stops at the first import, and a bare search goes on to the second. The files
change, and the lookup opens what it would open at first sight, also when it is repeated after another bare search. -/
theorem lookup_forgets_stopped_loop :
    let s : Session := ⟨⟨[Text.lit "r"], Text.lit "java", none⟩, ⟨fun path => path = Text.lit "r/p/C.java", some⟩,
      .ofText (Text.lit "import p.*;\nimport q.*;\nC") (some (Text.lit "d/M.java"))⟩
    let lookup : Action := .command (.atCursor 24)
    let before := [lookup, .search Java.wildcardImport, .removeFile (Text.lit "r/p/C.java"),
      .addFile (Text.lit "r/q/C.java")]
    (s.after [lookup]).buffer.point = 11 ∧ (s.after before).buffer.point = 23 ∧ lookup.isLookup = true ∧
      ∃ step again, (s.run (before ++ [lookup, .search .nothing, lookup]))[4]? = some step ∧
        (s.run (before ++ [lookup, .search .nothing, lookup]))[6]? = some again ∧
        step.events = ((s.untouched before).step lookup).events ∧
        (s.untouched before).buffer = s.buffer ∧ opens step.events = [Text.lit "r/q/C.java"] ∧
        again.events = step.events ∧ again.answer = step.answer := by
  intro s lookup before
  obtain ⟨hfresh, hbuffer, hrepeat⟩ := lookup_forgets_history s before (a := lookup) rfl
  obtain ⟨step, again, hstep, hagain, hsame⟩ := hrepeat [.search .nothing] [] (by simp [Action.isChange])
  obtain ⟨first, hfirst, hevents, -⟩ := hfresh [.search .nothing, lookup]
  obtain rfl : first = step := Option.some.inj (hfirst.symm.trans hstep)
  have hopens : opens ((s.untouched before).step lookup).events = [Text.lit "r/q/C.java"] := by decide +kernel
  refine ⟨by decide +kernel, by decide +kernel, rfl, first, again, hstep, hagain, hevents, ?_, ?_, hsame⟩
  · exact hbuffer (by simp [before, lookup])
  · rw [hevents, hopens]

end SourceJump.Lookup
