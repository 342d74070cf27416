import SourceJump.Proofs.CommandLine.Inputs
import SourceJump.Proofs.CommandLine.Words
import SourceJump.Proofs.File.Walk
import SourceJump.Proofs.Lookup.Chain

/-!
# Which failures a run tells

A run is to end with exit status 0, or with exit status 1 and a line that says why (`Ending.IsTold`). A file that
cannot be read, a position outside the text, a class that is not found and an editor that fails are all told. A run
ends untold exactly when the editor's command has an open quotation or a lone backslash at its end, when a value that is
to be used as text cannot be shown, when the path of the file or a word of the command cannot be passed to the system,
when the position was given as two hyphens and got lost, when the file beside the buffer lies below the home directory of
someone unknown, and when the output does not take the line that says what was opened (`run_isTold_iff`).
-/

namespace SourceJump

/-! ### Reading a file -/

namespace FileTree

variable {tree : FileTree} {fault : NameFault}

/-- Entering a component finds out nothing about what cannot be passed to the system. -/
theorem enter_ne_name (path : Text) (place : List Text) (entry : FileEntry) (part : Text) :
    tree.enter path place entry part ≠ .error (.name fault) := by
  unfold enter
  split <;> repeat' split
  all_goals simp

theorem walk_ne_name (path : Text) (place : List Text) (entry : FileEntry) (parts : List Text) :
    tree.walk path place entry parts ≠ .error (.name fault) := by
  induction parts generalizing place entry with
  | nil => nofun
  | cons part rest ih =>
    rw [walk_cons]
    cases henter : tree.enter path place entry part with
    | error e =>
      intro h
      obtain rfl := Except.error.inj h
      exact enter_ne_name path place entry part henter
    | ok found => exact ih found.1 found.2

theorem locate_eq_name_iff {path : Text} : tree.locate path = .error (.name fault) ↔ nameFault? path = some fault := by
  unfold locate
  cases nameFault? path with
  | some fault' => simp
  | none =>
    refine iff_of_false ?_ (by simp)
    dsimp only
    split
    · simp
    · split
      · simp
      · exact walk_ne_name _ _ _ _

/-- Reading fails for the name exactly when the path cannot be passed to the system. -/
theorem readText_eq_name_iff {path : Text} :
    tree.readText path = .error (.file (.name fault)) ↔ nameFault? path = some fault := by
  have hlocate : tree.locate path = .error (.name fault) ↔ nameFault? path = some fault := locate_eq_name_iff
  rw [← hlocate]
  unfold readText read lookup
  cases tree.locate path with
  | error e => simp [Except.map]
  | ok found =>
    obtain ⟨place, entry⟩ := found
    refine iff_of_false ?_ (by simp)
    cases entry with
    | directory => simp [Except.map]
    | file content readable =>
      cases readable with
      | false => simp [Except.map]
      | true => cases hdecode : Utf8.decode content <;> simp [Except.map, hdecode]

/-- What has been read has a path that can be passed to the system. -/
theorem nameFault?_of_readText {path text : Text} (h : tree.readText path = .ok text) : nameFault? path = none := by
  refine Option.eq_none_iff_forall_ne_some.2 fun fault hfault => ?_
  rw [readText_eq_name_iff.2 hfault] at h
  cases h

end FileTree

namespace Path

/-- Bringing a path to its normal form adds nothing but slashes and dots. -/
theorem mem_of_mem_toText_ofText {p : Text} {c : CodePoint} (h : c ∈ (ofText p).toText) (hslash : c ≠ separator)
    (hdot : c ≠ '.') : c ∈ p := by
  have hroot : c ∉ rootOf p := by
    intro hc
    rcases rootOf_cases p with ⟨hroot, -⟩ | ⟨rest, hroot, -⟩ | ⟨rest, hroot, -⟩ <;> rw [hroot] at hc <;> simp_all
  unfold toText at h
  split at h
  · exact absurd (List.mem_singleton.1 h) hdot
  · rcases List.mem_append.1 h with h | h
    · exact absurd h hroot
    · rcases Text.mem_join h with h | ⟨part, hpart, hc⟩
      · exact absurd (List.mem_singleton.1 h) hslash
      · exact Text.mem_of_mem_split (List.mem_of_mem_filter hpart) hc

end Path

namespace Lookup

/-- A lookup that asks for a class ends with an outcome. -/
theorem exists_outcome_run (s : Settings) (access : FileAccess) (b : Buffer) {command : Command}
    (h : ∀ name, command ≠ .inWildcards name) : ∃ outcome, (run s access b command).outcome = some outcome := by
  have hcomes := run_comesTo s access b command
  generalize run s access b command = r at hcomes ⊢
  cases hcomes with
  | failure failure point => exact ⟨_, rfl⟩
  | direct point _ _ => exact ⟨_, rfl⟩
  | chain _ _ _ _ => exact ⟨_, rfl⟩
  | wildcards name => exact absurd rfl (h name)

/-- The words for a failure are never empty. -/
theorem Failure.detail_ne_nil (failure : Failure) : failure.detail ≠ [] := by
  cases failure with
  | noNameAtCursor | noFile => exact List.cons_ne_nil _ _
  | notAnImport | undeclared | noBaseClass => exact List.append_ne_nil_of_left_ne_nil (List.cons_ne_nil _ _) _
  | notOnSearchPath => exact List.append_ne_nil_of_right_ne_nil _ (List.cons_ne_nil _ _)

end Lookup

namespace CommandLine

/-! ### Ends that are told -/

/-- The end of a run that went well, or of one that says why it did not. -/
def Ending.IsTold (e : Ending) : Prop :=
  e.unforeseen = none ∧
    (e.exit = 0 ∨ e.exit = 1 ∧ ∃ log message, e.err = log ++ message ++ Text.lit "\n" ∧ message ≠ [])

theorem Log.isTold_fail (log : Log) {message : Text} (h : message ≠ []) : (log.fail message).IsTold :=
  ⟨rfl, Or.inr ⟨rfl, log.text, message, rfl, h⟩⟩

theorem Log.not_isTold_abort (log : Log) (failure : Unforeseen) : ¬ (log.abort failure).IsTold := by
  rintro ⟨h, -⟩
  cases h

/-- What becomes of a file that was found is told: the words of the launch can be passed to the editor, if there is one,
and the output takes the line that says what was opened, if it comes to that. -/
structure IsForeseenOpening (world : World) (words : List Text) (path : Text) : Prop where
  launch : words ≠ [] → IsPassable (words ++ [path])
  output : (words ≠ [] → world.launch = .exited 0) → world.prints (openedLine path) = true

/-- Apart from that, however launching the editor ends, it is told. -/
theorem OpenEnds.isTold_iff {world : World} {words : List Text} {path : Text} {e : Ending}
    (h : OpenEnds world words path e) : e.IsTold ↔ IsForeseenOpening world words path := by
  cases h with
  | opened log htakes hprints =>
    exact iff_of_true ⟨rfl, Or.inl rfl⟩ ⟨fun hwords => (launch_eq_ok_iff.1 (htakes hwords)).2, fun _ => hprints⟩
  | unprinted log htakes hprints =>
    refine iff_of_false (fun htold => log.not_isTold_abort .output ⟨htold.1, htold.2⟩) fun hforeseen => ?_
    rw [hforeseen.output fun hwords => (launch_eq_ok_iff.1 (htakes hwords)).1] at hprints
    cases hprints
  | unpassable log hwords hlaunch =>
    refine iff_of_false (fun htold => log.not_isTold_abort (.name _) ⟨htold.1, htold.2⟩) fun hforeseen => ?_
    exact exists_launch_eq_name_iff.1 ⟨_, hlaunch⟩ (hforeseen.launch hwords)
  | @unlaunched log error hwords hlaunch hname =>
    have hpassable : IsPassable (words ++ [path]) := by
      by_contra hfaulty
      obtain ⟨fault, hfault⟩ := exists_launch_eq_name_iff.2 hfaulty
      exact hname fault (Except.error.inj (hlaunch.symm.trans hfault))
    have hmessage : Text.lit "Error launching editor: " ++ Text.lit error.message ≠ [] :=
      List.append_ne_nil_of_left_ne_nil (List.cons_ne_nil _ _) _
    have htold := log.isTold_fail hmessage
    refine iff_of_true ⟨htold.1, htold.2⟩ ⟨fun _ => hpassable, fun hexit => ?_⟩
    rw [launch_eq_ok_iff.2 ⟨hexit hwords, hpassable⟩] at hlaunch
    cases hlaunch

/-- A lookup whose end is told: the file that it opens has an absolute path, a package that cannot be shown as text is
not asked about, and what becomes of the file is told. -/
structure IsForeseenLookup (world : World) (preferences : Config.Preferences) (words : List Text) (r : Lookup.Run) :
    Prop where
  home : r.outcome ≠ some .homeUnknown
  package : ∀ error, preferences.package world.room = .error error → eventsBeforePackage? r = none
  opening : ∀ found, r.outcome = some (.opened found) → IsForeseenOpening world words found.path

theorem isTold_openCommand_iff (world : World) (preferences : Config.Preferences) (words : List Text) (log : Log)
    (buffer : Buffer) {command : Lookup.Command} (h : ∀ name, command ≠ .inWildcards name) :
    (openCommand world preferences words log buffer command).IsTold ↔ IsForeseenLookup world preferences words
      (Lookup.run (preferences.settings world.room) (.ofTree world.tree) buffer command) := by
  obtain ⟨outcome, hsome⟩ := Lookup.exists_outcome_run (preferences.settings world.room) (.ofTree world.tree) buffer h
  have hends := openCommand_ends world preferences words log buffer command
  generalize openCommand world preferences words log buffer command = e at hends ⊢
  cases hends with
  | package log _ hturn =>
    exact iff_of_false (log.not_isTold_abort _) fun hforeseen => hturn hforeseen.package
  | @opened found e _ hwaits houtcome hopens =>
    have htold : e.IsTold ↔ IsForeseenOpening world words found.path := hopens.isTold_iff
    refine Iff.trans htold ⟨fun hopening => ⟨by simp [houtcome], hwaits, fun found' hfound' => ?_⟩,
      fun hforeseen => hforeseen.opening found houtcome⟩
    obtain rfl := Lookup.Outcome.opened.inj (Option.some.inj (houtcome.symm.trans hfound'))
    exact hopening
  | failed log _ hwaits houtcome =>
    exact iff_of_true (log.isTold_fail (Lookup.Failure.detail_ne_nil _))
      ⟨by simp [houtcome], hwaits, fun found hfound => by simp [houtcome] at hfound⟩
  | homeUnknown log _ houtcome =>
    exact iff_of_false (log.not_isTold_abort _) fun hforeseen => hforeseen.home houtcome
  | nothing _ _ hnone =>
    rw [hsome] at hnone
    cases hnone

/-! ### The command on its file -/

/-- A position gets lost only for a command that needs one. -/
theorem lookupCommand_lost_iff {i : Invocation} {text : Text} :
    lookupCommand i text = .error none ↔ i.command ≠ .baseClass ∧ i.position = none := by
  unfold lookupCommand
  cases hcommand : i.command <;> cases hposition : i.position <;> simp <;> split <;> simp

theorem lookupCommand_ne_inWildcards {i : Invocation} {text : Text} {command : Lookup.Command}
    (h : lookupCommand i text = .ok command) (name : Text) : command ≠ .inWildcards name := by
  rintro rfl
  unfold lookupCommand at h
  cases hcommand : i.command <;> cases hposition : i.position <;> simp only [hcommand, hposition] at h
  all_goals first | cases h | (split at h <;> cases h)

/-- What the command of an invocation does to a text is told: its position is there, and so is the end of its lookup. -/
structure IsForeseenCommand (world : World) (i : Invocation) (preferences : Config.Preferences) (words : List Text)
    (text : Text) : Prop where
  position : i.command ≠ .baseClass → i.position ≠ none
  lookup : ∀ command, i.Asks text command → IsForeseenLookup world preferences words
    (Lookup.run (preferences.settings world.room) (.ofTree world.tree) (.ofText text (some i.path)) command)

section

variable {world : World} {i : Invocation} {preferences : Config.Preferences} {words : List Text} {text : Text}

theorem position_ne_none (text : Text) (h : lookupCommand i text ≠ .error none) (hneeded : i.command ≠ .baseClass) :
    i.position ≠ none := fun hlost => h (lookupCommand_lost_iff.2 ⟨hneeded, hlost⟩)

/-- With a position that is refused there is no lookup. -/
theorem isForeseenCommand_of_refused {error : PositionError} (h : lookupCommand i text = .error (some error)) :
    IsForeseenCommand world i preferences words text := by
  refine ⟨position_ne_none text (by simp [h]), fun command hasks => ?_⟩
  rw [asks_iff.1 hasks] at h
  cases h

theorem isForeseenCommand_iff_of_ok {command : Lookup.Command} (h : lookupCommand i text = .ok command) :
    IsForeseenCommand world i preferences words text ↔ IsForeseenLookup world preferences words
      (Lookup.run (preferences.settings world.room) (.ofTree world.tree) (.ofText text (some i.path)) command) := by
  refine ⟨fun hforeseen => hforeseen.lookup command (asks_iff.2 h),
    fun hlookup => ⟨position_ne_none text (by simp [h]), fun command' hasks => ?_⟩⟩
  obtain rfl := Except.ok.inj (h.symm.trans (asks_iff.1 hasks))
  exact hlookup

/-- A file that cannot be read is told, and what a command does to one that can be read, when it is foreseen; but the
path has to be one that can be passed to the system. -/
theorem isTold_runOnFile_iff (words : List Text) (log : Log) (hnul : ('\x00' : CodePoint) ∉ i.path) :
    (runOnFile world i preferences words log).IsTold ↔ (∀ c ∈ i.path, (nameBytesOf? c).isSome) ∧
      ∀ text, world.tree.readText i.path = .ok text → IsForeseenCommand world i preferences words text := by
  have hpassable : (∀ c ∈ i.path, (nameBytesOf? c).isSome) ↔ nameFault? i.path = none := by
    refine Iff.trans ⟨fun h c hc => ⟨fun heq => hnul (heq ▸ hc), h c hc⟩, fun h c hc => (h c hc).2⟩
      nameFault?_eq_none_iff.symm
  have hends := runOnFile_ends world i preferences words log
  generalize runOnFile world i preferences words log = e at hends ⊢
  rw [hpassable]
  cases hends with
  | unpassable hread =>
    refine iff_of_false (log.not_isTold_abort _) fun h => ?_
    rw [FileTree.readText_eq_name_iff, h.1] at hread
    cases hread
  | unreadable hread hname =>
    have hnone : nameFault? i.path = none := by
      refine Option.eq_none_iff_forall_ne_some.2 fun fault hfault => ?_
      rw [FileTree.readText_eq_name_iff.2 hfault] at hread
      exact hname fault (Except.error.inj hread).symm
    refine iff_of_true (log.isTold_fail (List.append_ne_nil_of_left_ne_nil (by simp) _)) ⟨hnone, fun text htext => ?_⟩
    rw [hread] at htext
    cases htext
  | positionLost hread hlost =>
    obtain ⟨hneeded, hposition⟩ := lookupCommand_lost_iff.1 hlost
    exact iff_of_false (log.not_isTold_abort _) fun h => (h.2 _ hread).position hneeded hposition
  | refused hread hrefused =>
    refine iff_of_true (log.isTold_fail (List.append_ne_nil_of_left_ne_nil (by simp) _))
      ⟨FileTree.nameFault?_of_readText hread, fun text htext => ?_⟩
    obtain rfl := Except.ok.inj (hread.symm.trans htext)
    exact isForeseenCommand_of_refused hrefused
  | lookup hread hcommand =>
    rw [isTold_openCommand_iff _ _ _ _ _ (lookupCommand_ne_inWildcards hcommand),
      ← isForeseenCommand_iff_of_ok hcommand]
    refine ⟨fun h => ⟨FileTree.nameFault?_of_readText hread, fun text htext => ?_⟩, fun h => h.2 _ hread⟩
    obtain rfl := Except.ok.inj (hread.symm.trans htext)
    exact h

end

/-! ### A whole run -/

/-- All that a run does with its configuration is told. -/
structure IsForeseen (world : World) (i : Invocation) (config : Entries) : Prop where
  /-- The extension of source files can be shown as text. -/
  extension : Config.IsShowable world.room .extension (Config.extension config)
  /-- The command of the editor can be shown as text, and has words. -/
  editor : ∃ words, i.HasEditor world.room config words
  /-- The path of the file can be passed to the system. -/
  path : ∀ c ∈ i.path, (nameBytesOf? c).isSome
  /-- What the command does to a file that can be read is told. -/
  command : ∀ preferences words text,
    Config.Preferences.ofConfig world.room config i.searchPath world.roots = .ok preferences →
    i.HasEditor world.room config words → world.tree.readText i.path = .ok text →
    IsForeseenCommand world i preferences words text

/-- With a configuration that is loaded, a run is told exactly when all that it does is foreseen. -/
theorem isTold_runInvocation_iff (world : World) {i : Invocation} {config : Entries}
    (hconfig : (Config.load world.yaml world.tree i.config).config = .ok config)
    (hnul : ('\x00' : CodePoint) ∉ i.path) :
    (runInvocation world i).IsTold ↔ IsForeseen world i config := by
  have hextension : (∃ p, Config.Preferences.ofConfig world.room config i.searchPath world.roots = .ok p) ↔ _ :=
    Config.exists_ofConfig_iff (Config.isChecked_of_load hconfig) i.searchPath world.roots
  have hends := runInvocation_ends world i
  generalize runInvocation world i = e at hends ⊢
  cases hends with
  | unloaded _ hfailed _ | unexpected _ hfailed _ =>
    rw [hconfig] at hfailed
    cases hfailed
  | unusable log hconfig' hpreferences =>
    obtain rfl := Except.ok.inj (hconfig.symm.trans hconfig')
    refine iff_of_false (log.not_isTold_abort _) fun h => ?_
    obtain ⟨preferences, hread⟩ := hextension.2 h.extension
    rw [hpreferences] at hread
    cases hread
  | editor log hconfig' heditor =>
    obtain rfl := Except.ok.inj (hconfig.symm.trans hconfig')
    refine iff_of_false (log.not_isTold_abort _) fun h => ?_
    obtain ⟨words, hwords⟩ := h.editor
    obtain ⟨command, hcommand, -⟩ := hasEditor_iff.1 hwords
    rw [heditor] at hcommand
    cases hcommand
  | words log hconfig' heditor hwords =>
    obtain rfl := Except.ok.inj (hconfig.symm.trans hconfig')
    refine iff_of_false (log.not_isTold_abort _) fun h => ?_
    obtain ⟨words, hhas⟩ := h.editor
    obtain ⟨command, hcommand, hsplit⟩ := hasEditor_iff.1 hhas
    obtain rfl := Except.ok.inj (heditor.symm.trans hcommand)
    rw [hwords] at hsplit
    cases hsplit
  | @file _ preferences _ words log hconfig' hpreferences heditor hwords =>
    obtain rfl := Except.ok.inj (hconfig.symm.trans hconfig')
    have hhas : i.HasEditor world.room config words := hasEditor_iff.2 ⟨_, heditor, hwords⟩
    rw [isTold_runOnFile_iff _ log hnul]
    refine ⟨fun h => ⟨hextension.1 ⟨_, hpreferences⟩, ⟨_, hhas⟩, h.1, fun preferences' words' text hread hhas' => ?_⟩,
      fun h => ⟨h.path, fun text => h.command _ _ text hpreferences hhas⟩⟩
    obtain rfl := Except.ok.inj (hpreferences.symm.trans hread)
    obtain rfl := hhas.unique hhas'
    exact h.2 text

/-- What is wrong with the form of a document, or with a value in it. The other errors are those of a reader that did
not expect such a document. -/
inductive IsDocumentFault : Yaml.Error → Prop
  | form : IsDocumentFault .malformed
  | integer (error : IntegerError) : IsDocumentFault (.integer error)
  | float (text : Text) : IsDocumentFault (.notFloat text)
  | calendar (error : CalendarError) : IsDocumentFault (.calendar error)
  | codePoint (code : Nat) (h : code < Nat.pow 2 31) : IsDocumentFault (.noCodePoint code)

/-- A configuration that is not loaded is told, when the reader of the document expected the fault. -/
theorem isToldLoadError_of_isDocumentFault {error : Config.LoadError}
    (h : ∀ fault, error = .yaml fault → IsDocumentFault fault) : isToldLoadError error = true := by
  cases error with
  | yaml fault =>
    cases h fault rfl with
    | codePoint code hcode => exact decide_eq_true hcode
    | _ => rfl
  | _ => rfl

theorem isTold_runInvocation_of_error {world : World} {i : Invocation} {error : Config.LoadError}
    (hconfig : (Config.load world.yaml world.tree i.config).config = .error error) (h : isToldLoadError error = true) :
    (runInvocation world i).IsTold := by
  have hends := runInvocation_ends world i
  generalize runInvocation world i = e at hends ⊢
  cases hends with
  | unloaded log _ _ => exact log.isTold_fail (List.append_ne_nil_of_left_ne_nil (List.cons_ne_nil _ _) _)
  | unexpected _ hconfig' huntold =>
    obtain rfl := Except.error.inj (hconfig.symm.trans hconfig')
    exact absurd h huntold
  | unusable _ hconfig' _ | editor _ hconfig' _ | words _ hconfig' _ _ | file _ hconfig' _ _ _ =>
    rw [hconfig] at hconfig'
    cases hconfig'

/-- The normal form of the file holds NUL only when a word of the command line does. -/
theorem not_mem_path_of_parse {edition : Edition} {arguments : List Text} {i : Invocation}
    (hparse : parse edition arguments = .invocation i) (hnul : ∀ word ∈ arguments, ('\x00' : CodePoint) ∉ word) :
    ('\x00' : CodePoint) ∉ i.path := by
  intro hpath
  have hfile : ('\x00' : CodePoint) ∈ i.file := Path.mem_of_mem_toText_ofText hpath (by decide) (by decide)
  rcases file_of_parse hparse with hlost | hword
  · rw [hlost] at hfile
    exact absurd hfile (by decide)
  · exact hnul i.file hword hfile

/-- **A run that reads its command line is told, exactly when all that it does is foreseen.** The words hold no NUL, and
the document of the configuration, if it cannot be read, has a fault that its reader expects. Then a run ends well or
says why it does not, whatever stands in the files and whatever the editor does, if and only if the configuration
does not load or `IsForeseen` holds of it. What reads the document, how much room there is for showing values and what
the output takes belong to the world, and can be anything. -/
theorem run_isTold_iff {world : World} {arguments : List Text} {i : Invocation}
    (hparse : parse world.edition arguments = .invocation i) (hnul : ∀ word ∈ arguments, ('\x00' : CodePoint) ∉ word)
    (hfault : ∀ fault, (Config.load world.yaml world.tree i.config).config = .error (.yaml fault) →
      IsDocumentFault fault) :
    (run world arguments).IsTold ↔
      ∀ config, (Config.load world.yaml world.tree i.config).config = .ok config → IsForeseen world i config := by
  rw [run, hparse]
  dsimp only
  cases hconfig : (Config.load world.yaml world.tree i.config).config with
  | error error =>
    have htold : isToldLoadError error = true := isToldLoadError_of_isDocumentFault fun fault h =>
      hfault fault (by rw [hconfig, h])
    exact iff_of_true (isTold_runInvocation_of_error hconfig htold) fun config h => by cases h
  | ok config =>
    rw [isTold_runInvocation_iff world hconfig (not_mem_path_of_parse hparse hnul)]
    constructor
    · rintro h config' hconfig'
      obtain rfl := Except.ok.inj hconfig'
      exact h
    · exact fun h => h config rfl

/-- The file beside the buffer is found, and there is no such editor: the run says so. -/
theorem run_isTold_iff_of_missing_editor :
    let world := worldOfFiles [("Main.java", "Helper"), ("Helper.java", "")] .missing
    let arguments := [Text.lit "--editor", Text.lit "vi", Text.lit "at-point", Text.lit "Main.java", Text.lit "0"]
    let i : Invocation :=
      ⟨some (Text.lit ".class-opener.yml"), [], some (Text.lit "vi"), false, .atPoint, Text.lit "Main.java",
        some (Text.lit "0")⟩
    (parse world.edition arguments = .invocation i ∧ (∀ word ∈ arguments, ('\x00' : CodePoint) ∉ word) ∧
      ∀ fault, (Config.load world.yaml world.tree i.config).config = .error (.yaml fault) → IsDocumentFault fault) ∧
    ((run world arguments).IsTold ↔
      ∀ config, (Config.load world.yaml world.tree i.config).config = .ok config → IsForeseen world i config) ∧
    (run world arguments).launches = [[Text.lit "vi", Text.lit "/work/Helper.java"]] := by
  intro world arguments i
  have hparse : parse world.edition arguments = .invocation i := rfl
  have hnul : ∀ word ∈ arguments, ('\x00' : CodePoint) ∉ word := by decide
  have hload : (Config.load world.yaml world.tree i.config).config.isOk = true := by decide +kernel
  have hfault : ∀ fault, (Config.load world.yaml world.tree i.config).config = .error (.yaml fault) →
      IsDocumentFault fault := by
    intro fault h
    rw [h] at hload
    cases hload
  exact ⟨⟨hparse, hnul, hfault⟩, run_isTold_iff hparse hnul hfault, by decide +kernel⟩

/-- An apostrophe for an editor: the run breaks off before it looks at the file, and nothing is told. -/
theorem run_untold_of_open_quotation :
    let world := worldOfFiles [("Main.java", "Helper")] (.exited 0)
    let arguments := [Text.lit "--editor", Text.lit "'", Text.lit "at-point", Text.lit "Main.java", Text.lit "0"]
    (∃ i, parse world.edition arguments = .invocation i) ∧ (∀ word ∈ arguments, ('\x00' : CodePoint) ∉ word) ∧
    (Config.load world.yaml world.tree (some Config.defaultFile)).config.isOk = true ∧
    (run world arguments).unforeseen = some (.editor .openQuotation) ∧ (run world arguments).err = [] ∧
    ¬ (run world arguments).IsTold := by
  intro world arguments
  have hunforeseen : (run world arguments).unforeseen = some (.editor .openQuotation) := by decide +kernel
  refine ⟨⟨_, rfl⟩, by decide, by decide +kernel, hunforeseen, by decide +kernel, fun htold => ?_⟩
  rw [htold.1] at hunforeseen
  cases hunforeseen

end CommandLine

end SourceJump
