import SourceJump.Proofs.CommandLine.Stages
import SourceJump.Proofs.Config.Usable

/-!
# What a run takes in

Which editor a run uses and what it looks up are said here without a word about how the run finds out: the editor is the
one of the command line, or else the one of the configuration (`Invocation.HasEditor`), and the lookup is that of the
command at its position (`Invocation.Asks`). The functions of the run find exactly these (`hasEditor_iff`, `asks_iff`).
-/

namespace SourceJump

namespace Config

/-- The text that a value is shown as where it is used: a text as it is, and any other value in written form, if there is
room for that and no integer in it has too many digits. -/
inductive Shows (room : Room) (use : Use) : Value → Text → Prop where
  | text (t : Text) : Shows room use (.text t) t
  | written {v : Value} : (∀ t, v ≠ .text t) → room use v = true → v.isWritable = true → Shows room use v v.display

theorem asText_eq_ok_iff_shows {room : Room} {use : Use} {v : Value} {t : Text} :
    asText room use v = .ok t ↔ Shows room use v t := by
  constructor
  · intro h
    by_cases htext : ∃ t, v = .text t
    · obtain ⟨t', rfl⟩ := htext
      obtain rfl := Except.ok.inj h
      exact .text t'
    · have hnot := not_exists.1 htext
      rw [asText_of_not_text hnot] at h
      split at h
      · next hroom =>
        split at h
        · next hwritable =>
          obtain rfl := Except.ok.inj h
          exact .written hnot hroom hwritable
        · cases h
      · cases h
  · rintro (_ | ⟨hnot, hroom, hwritable⟩)
    · rfl
    · rw [asText_of_not_text hnot, if_pos hroom, if_pos hwritable]

end Config

namespace Editor

/-- The words of a command; those of the empty one are none. -/
theorem words_some (command : Text) : words (some command) = ShellWords.read command := by
  cases command <;> rfl

end Editor

namespace CommandLine

/-- The words of the editor that a run uses: those of the command that the invocation gives, or else those of the one
that the configuration has in its section, as a text or under `command`. A command that counts as false is none. -/
inductive Invocation.HasEditor (i : Invocation) (room : Config.Room) (config : Entries) : List Text → Prop where
  | given {command : Text} {words : List Text} : i.editor = some command → command ≠ [] →
      ShellWords.read command = .ok words → HasEditor i room config words
  | configured {command : Text} {words : List Text} : i.editor = none ∨ i.editor = some [] →
      (Config.editorValue config).truthy = true → Config.Shows room .editor (Config.editorValue config) command →
      ShellWords.read command = .ok words → HasEditor i room config words
  | none : i.editor = none ∨ i.editor = some [] → (Config.editorValue config).truthy = false →
      HasEditor i room config []

variable {i : Invocation} {room : Config.Room} {config : Entries}

theorem Invocation.editorCommand_of_given {command : Text} (h : i.editor = some command) (hne : command ≠ []) :
    i.editorCommand room config = .ok (some command) := by
  obtain ⟨c, rest, rfl⟩ := List.exists_cons_of_ne_nil hne
  rw [Invocation.editorCommand, h]

theorem Invocation.editorCommand_of_not_given (h : i.editor = none ∨ i.editor = some []) :
    i.editorCommand room config = Config.editorCommand room config := by
  rcases h with h | h <;> rw [Invocation.editorCommand, h]

/-- A run finds the words of its editor. -/
theorem hasEditor_iff {words : List Text} : i.HasEditor room config words ↔
    ∃ command, i.editorCommand room config = .ok command ∧ Editor.words command = .ok words := by
  constructor
  · rintro (⟨hgiven, hne, hread⟩ | ⟨hnot, htruthy, hshows, hread⟩ | ⟨hnot, hfalse⟩)
    · exact ⟨_, Invocation.editorCommand_of_given hgiven hne, (Editor.words_some _).trans hread⟩
    · refine ⟨_, ?_, (Editor.words_some _).trans hread⟩
      rw [Invocation.editorCommand_of_not_given hnot]
      exact Config.editorCommand_eq_ok_iff.2 (Or.inr ⟨htruthy, _, Config.asText_eq_ok_iff_shows.2 hshows, rfl⟩)
    · refine ⟨none, ?_, rfl⟩
      rw [Invocation.editorCommand_of_not_given hnot]
      exact Config.editorCommand_eq_ok_iff.2 (Or.inl ⟨hfalse, rfl⟩)
  · rintro ⟨command, hcommand, hwords⟩
    by_cases hgiven : i.editor = none ∨ i.editor = some []
    · rw [Invocation.editorCommand_of_not_given hgiven] at hcommand
      rcases Config.editorCommand_eq_ok_iff.1 hcommand with ⟨hfalse, rfl⟩ | ⟨htruthy, shown, hshown, rfl⟩
      · obtain rfl := Except.ok.inj hwords
        exact .none hgiven hfalse
      · rw [Editor.words_some] at hwords
        exact .configured hgiven htruthy (Config.asText_eq_ok_iff_shows.1 hshown) hwords
    · rw [not_or] at hgiven
      obtain ⟨given, hsome⟩ := Option.ne_none_iff_exists'.1 hgiven.1
      have hne : given ≠ [] := by
        rintro rfl
        exact hgiven.2 hsome
      rw [Invocation.editorCommand_of_given hsome hne] at hcommand
      obtain rfl := Except.ok.inj hcommand
      rw [Editor.words_some] at hwords
      exact .given hsome hne hwords

/-- A run has no more than one editor. -/
theorem Invocation.HasEditor.unique {words words' : List Text} (h : i.HasEditor room config words)
    (h' : i.HasEditor room config words') : words = words' := by
  obtain ⟨command, hcommand, hwords⟩ := hasEditor_iff.1 h
  obtain ⟨command', hcommand', hwords'⟩ := hasEditor_iff.1 h'
  obtain rfl := Except.ok.inj (hcommand.symm.trans hcommand')
  exact Except.ok.inj (hwords.symm.trans hwords')

/-- The lookup that an invocation asks for: that of its command, at its position if the command needs one. -/
inductive Invocation.Asks (i : Invocation) (text : Text) : Lookup.Command → Prop where
  | baseClass : i.command = .baseClass → Asks i text .baseClass
  | atCursor {position : Text} {offset : Nat} : i.command = .atPoint → i.position = some position →
      Position.parse text position = .ok offset → Asks i text (.atCursor offset)
  | importAt {position : Text} {offset : Nat} : i.command = .importAtPoint → i.position = some position →
      Position.parse text position = .ok offset → Asks i text (.importAt offset)

/-- A run finds the lookup that it is asked for. -/
theorem asks_iff {text : Text} {command : Lookup.Command} :
    i.Asks text command ↔ lookupCommand i text = .ok command := by
  constructor
  · rintro (hcommand | ⟨hcommand, hposition, hparse⟩ | ⟨hcommand, hposition, hparse⟩)
    · rw [lookupCommand, hcommand]
    · simp [lookupCommand, hcommand, hposition, hparse]
    · simp [lookupCommand, hcommand, hposition, hparse]
  · intro h
    unfold lookupCommand at h
    cases hcommand : i.command with
    | baseClass =>
      rw [hcommand] at h
      obtain rfl := Except.ok.inj h
      exact .baseClass hcommand
    | atPoint | importAtPoint =>
      cases hposition : i.position with
      | none => simp [hcommand, hposition] at h
      | some position =>
        cases hparse : Position.parse text position with
        | error e => simp [hcommand, hposition, hparse] at h
        | ok offset =>
          simp only [hcommand, hposition, hparse] at h
          obtain rfl := Except.ok.inj h
          first | exact .atCursor hcommand hposition hparse | exact .importAt hcommand hposition hparse

/-- A world for examples: these files, no other roots and no homes; the editor does as said, and there is room for
everything. -/
def worldOfFiles (files : List (String × String)) (launch : Editor.Outcome) : World where
  tree := .ofFiles (files.map fun file => (Text.lit file.1, Text.lit file.2))
  roots := none
  launch := launch
  yaml := Yaml.load 490 2
  room := fun _ _ => true
  prints := fun _ => true
  edition := .later

end CommandLine

end SourceJump
