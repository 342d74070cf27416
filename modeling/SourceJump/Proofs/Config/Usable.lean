import SourceJump.Proofs.Config.Merging
import SourceJump.Proofs.Config.SearchPath
import SourceJump.Proofs.Text.Classes

/-!
# What is loaded can be used

The defaults have all sections, a merge keeps them, and what has the wrong form is rejected. So a configuration that is
loaded has a list of texts for its search path, a language section with an extension and a package that are not null,
and a text or a mapping for its editor; all other entries of the file are there as they stand in it (`IsUsable`). Its
preferences and its editor command can be read then, but for values that cannot be shown as text: integers with too many
digits, and collections nested too deeply (`load_gives_usable`).
-/

namespace SourceJump.Config

open Entries

/-! ### The shape of what is loaded -/

/-- The mapping that a path gives: that of the file at the path. No path, the empty one and a path that leads to nothing
give the empty mapping. -/
inductive GivesMapping (yaml : Yaml.Loader) (tree : FileTree) : Option Text → Entries → Prop where
  | noPath : GivesMapping yaml tree none []
  | emptyPath : GivesMapping yaml tree (some []) []
  | noFile {source : Text} : source ≠ [] → tree.reaches (Path.ofText source).toText = .ok false →
      GivesMapping yaml tree (some source) []
  | file {source : Text} {user : Entries} : source ≠ [] → tree.reaches (Path.ofText source).toText = .ok true →
      readMapping yaml tree (Path.ofText source).toText = .ok user → GivesMapping yaml tree (some source) user

/-- A configuration with all its sections, and with the entries of the user's mapping for which there is no default. -/
structure IsUsable (user config : Entries) : Prop where
  /-- The search path is a list of texts. -/
  roots : ∃ roots : List Text, config.get? "search_path" = some (.list (roots.map .text))
  /-- The language is a mapping in which the extension and the package are present and not null. -/
  language : ∃ language extension package, config.get? "language" = some (.map language) ∧
    Entries.get? language "extension" = some extension ∧ extension ≠ .null ∧
    Entries.get? language "implicit_package" = some package ∧ package ≠ .null
  /-- The editor is a text or a mapping. -/
  editor : ∃ editor, config.get? "editor" = some editor ∧
    ((∃ t, editor = .text t) ∨ ∃ entries, editor = .map entries)
  /-- All else is as the user has it. -/
  others : ∃ sections, sections.map (·.1) = defaults.map (·.1) ∧
    config = sections ++ user.filter fun e => (find? defaults e.1).isNone

variable {yaml : Yaml.Loader} {room : Room}

theorem distinctKeys_of_readMapping (hyaml : yaml.GivesDistinctKeys) {tree : FileTree} {path : Text} {user : Entries}
    (h : readMapping yaml tree path = .ok user) : user.HasDistinctKeys := by
  cases htext : tree.readText path with
  | error e =>
    rw [readMapping, htext] at h
    cases h
  | ok text =>
    cases hv : yaml text with
    | error e =>
      rw [readMapping, htext] at h
      simp only [Except.mapError, hv, bind, Except.bind] at h
      cases h
    | ok v =>
      rw [readMapping_of_readText htext hv] at h
      cases hmapping : mappingOf? v with
      | none =>
        rw [hmapping] at h
        cases h
      | some entries =>
        rw [hmapping] at h
        obtain rfl := Except.ok.inj h
        exact hasDistinctKeys_of_mappingOf? hyaml hv hmapping

/-- What is loaded is the mapping that the path gives, merged over the defaults and checked. -/
theorem exists_checkSections_of_load (hyaml : yaml.GivesDistinctKeys) {tree : FileTree} {path : Option Text}
    {config : Entries} (h : (load yaml tree path).config = .ok config) :
    ∃ user source, GivesMapping yaml tree path user ∧ user.HasDistinctKeys ∧
      checkSections (merge defaults user) source = .ok config := by
  unfold load at h
  split at h
  · exact ⟨[], [], .noPath, .nil, h⟩
  · exact ⟨[], [], .emptyPath, .nil, h⟩
  · next source hne =>
    have hsource : source ≠ [] := by simpa using hne
    dsimp only at h
    split at h
    · cases h
    · next hreaches => exact ⟨[], source, .noFile hsource hreaches, .nil, h⟩
    · next hreaches =>
      split at h
      · cases h
      · next user hread =>
        exact ⟨user, source, .file hsource hreaches hread, distinctKeys_of_readMapping hyaml hread, h⟩

theorem checkSections_eq_ok_iff {config checked : Entries} {source : Text} :
    checkSections config source = .ok checked ↔
      isTextList (normalRoots (sectionOf config "search_path")) = true ∧
        (∃ entries, sectionOf config "language" = .map entries) ∧ isEditor (sectionOf config "editor") = true ∧
        checked = Entries.insert config (.lit "search_path") (normalRoots (sectionOf config "search_path")) := by
  rw [checkSections_eq]
  cases isTextList (normalRoots (sectionOf config "search_path")) with
  | false => simp
  | true =>
    cases sectionOf config "language" with
    | map entries => cases isEditor (sectionOf config "editor") <;> simp [eq_comm]
    | _ => simp

/-- What is not null in a section by default is not null in the section that is loaded. -/
theorem exists_find?_of_updated {base language : Entries} {v : Value} (h : updated (.map base) v = .map language)
    {t : Text} {old : Value} (hold : find? base (.text t) = some old) (hne : old ≠ .null) :
    ∃ new, find? language (.text t) = some new ∧ new ≠ .null := by
  cases v with
  | null =>
    rw [updated_null] at h
    obtain rfl := Value.map.inj h
    exact ⟨old, hold, hne⟩
  | map entries =>
    rw [updated] at h
    obtain rfl := Value.map.inj h
    exact exists_find?_merge entries hold hne
  | _ => simp [updated] at h

theorem text_or_map_of_isEditor {v : Value} (h : isEditor v = true) (hne : v ≠ .null) :
    (∃ t, v = .text t) ∨ ∃ entries, v = .map entries := by
  cases v with
  | null => exact absurd rfl hne
  | text t => exact Or.inl ⟨t, rfl⟩
  | map entries => exact Or.inr ⟨entries, rfl⟩
  | _ => cases h

theorem lit_ne {a b : String} (h : Text.lit a ≠ Text.lit b) : Value.lit a ≠ Value.lit b :=
  fun heq => h (Value.text.inj heq)

theorem hasDistinctKeys_defaults : defaults.HasDistinctKeys := by
  rw [hasDistinctKeys_iff]
  decide

/-- What passes the checks after the merge is usable. -/
theorem isUsable_of_checkSections {user config : Entries} {source : Text} (huser : user.HasDistinctKeys)
    (h : checkSections (merge defaults user) source = .ok config) : IsUsable user config := by
  obtain ⟨hroots, ⟨language, hlanguage⟩, heditor, rfl⟩ := checkSections_eq_ok_iff.1 h
  have hother : ∀ {key : String} {old : Value}, Value.lit "search_path" ≠ .lit key → defaults.get? key = some old →
      Entries.get? (Entries.insert (merge defaults user) (.lit "search_path")
        (normalRoots (sectionOf (merge defaults user) "search_path"))) key = some (updated old (sectionOf user key)) := by
    intro key old hkey hold
    have hold' : find? defaults (.lit key) = some old := hold
    exact (find?_insert_of_ne _ hkey _).trans (by rw [← Value.lit, find?_merge huser, hold']; rfl)
  constructor
  · obtain ⟨texts, htexts⟩ := exists_texts_of_isTextList hroots
    exact ⟨texts, by rw [htexts]; exact find?_insert_self _ _ _⟩
  · rw [sectionOf_merge huser rfl] at hlanguage
    obtain ⟨extension, hextension⟩ :=
      exists_find?_of_updated hlanguage (find?_cons_self (Text.lit "extension") _ _) nofun
    obtain ⟨package, hpackage⟩ := exists_find?_of_updated hlanguage
      (find?_cons_of_ne (lit_ne (by decide)) _ _ |>.trans (find?_cons_self (Text.lit "implicit_package") _ _)) nofun
    refine ⟨language, extension, package, ?_, hextension.1, hextension.2, hpackage.1, hpackage.2⟩
    rw [← hlanguage]
    exact hother (lit_ne (by decide)) rfl
  · rw [sectionOf_merge huser rfl] at heditor
    have hne : Value.map [(.lit "command", .null)] ≠ .null := nofun
    exact ⟨_, hother (lit_ne (by decide)) rfl, text_or_map_of_isEditor heditor (updated_ne_null hne _)⟩
  · have hmerge : merge defaults user = defaults.map (updatedEntry user) ++
        user.filter fun u => (find? defaults u.1).isNone :=
      merge_eq hasDistinctKeys_defaults huser
    refine ⟨(.lit "search_path", normalRoots (sectionOf (merge defaults user) "search_path")) ::
      defaults.tail.map (updatedEntry user), rfl, ?_⟩
    generalize normalRoots (sectionOf (merge defaults user) "search_path") = roots
    rw [hmerge]
    exact if_pos (sameKey_text_iff.2 rfl)

/-! ### Using what is loaded -/

/-- Preferences with distinct roots, an extension without dots at its front, and a package that does not count as
false, if any. -/
structure Preferences.IsSound (p : Preferences) : Prop where
  roots : p.searchPath.Nodup
  extension : p.extension.head? ≠ some '.'
  package : ∀ v, p.implicitPackage = some v → v.truthy = true

/-- Whatever preferences are read are sound. -/
theorem isSound_of_ofConfig {config : Entries} {commandRoots : List Text} {environment : Option Text} {p : Preferences}
    (h : Preferences.ofConfig room config commandRoots environment = .ok p) : p.IsSound := by
  obtain ⟨roots, language, suffix, -, -, -, rfl⟩ := ofConfig_eq_ok_iff.1 h
  refine ⟨(isFirsts_mergeRoots _).nodup, ?_, fun v hv => (Option.filter_eq_some_iff.1 hv).2⟩
  intro hdot
  have hstop := Text.stop_dropWhile (fun c : CodePoint => decide (c = '.')) suffix _ hdot
  simp at hstop

theorem isChecked_of_isUsable {user config : Entries} (h : IsUsable user config) : IsChecked config := by
  obtain ⟨texts, htexts⟩ := h.roots
  obtain ⟨language, -, -, hlanguage, -⟩ := h.language
  exact ⟨⟨_, htexts, by simp [isTextList]⟩, language, hlanguage⟩

/-- All that keeps the preferences of a usable configuration from being read is an extension that cannot be shown. -/
theorem eq_of_ofConfig_eq_error {config : Entries} (hchecked : IsChecked config) {commandRoots : List Text}
    {environment : Option Text} {e : PreferenceError}
    (h : Preferences.ofConfig room config commandRoots environment = .error e) :
    e = if room .extension (extension config) then .integerTooLong else .nestedTooDeeply := by
  obtain ⟨roots, hroots⟩ : ∃ roots, configuredRoots room config = .ok roots := exists_configuredRoots hchecked
  obtain ⟨language, hlanguage⟩ := hchecked.language
  have hsection : languageSection config = .ok language := by rw [languageSection, hlanguage]
  rw [extension_of_languageSection hsection]
  unfold Preferences.ofConfig at h
  simp only [hroots, hsection, bind, Except.bind, pure, Except.pure] at h
  split at h
  · next hextension => exact Except.error.inj h ▸ eq_of_asText_eq_error hextension
  · cases h

/-- The command of the editor: the section itself, or what stands under `command` in it. -/
def editorValue (config : Entries) : Value :=
  match sectionOf config "editor" with
  | .map entries => sectionOf entries "command"
  | v => v

theorem editorCommand_eq (config : Entries) : editorCommand room config =
    if (editorValue config).truthy then some <$> asText room .editor (editorValue config) else .ok none := by
  rfl

/-- What the command of the editor can be. -/
theorem editorCommand_eq_ok_iff {config : Entries} {command : Option Text} :
    editorCommand room config = .ok command ↔
      (editorValue config).truthy = false ∧ command = none ∨
      (editorValue config).truthy = true ∧ ∃ t, asText room .editor (editorValue config) = .ok t ∧ command = some t := by
  rw [editorCommand_eq]
  cases (editorValue config).truthy with
  | false => simp [eq_comm]
  | true => cases asText room .editor (editorValue config) <;> simp [Functor.map, Except.map, eq_comm]

/-- A command that counts as false is none, and needs not be shown. -/
theorem exists_editorCommand_iff (config : Entries) : (∃ command, editorCommand room config = .ok command) ↔
    (editorValue config).truthy = false ∨ IsShowable room .editor (editorValue config) := by
  rw [← asText_eq_ok_iff]
  cases htruthy : (editorValue config).truthy <;> simp [editorCommand_eq_ok_iff, htruthy]

theorem eq_of_editorCommand_eq_error {config : Entries} {e : PreferenceError}
    (h : editorCommand room config = .error e) :
    e = if room .editor (editorValue config) then .integerTooLong else .nestedTooDeeply := by
  rw [editorCommand_eq] at h
  split at h
  · cases htext : asText room .editor (editorValue config) with
    | error e' =>
      rw [htext] at h
      exact Except.error.inj h ▸ eq_of_asText_eq_error htext
    | ok t =>
      rw [htext] at h
      cases h
  · cases h

/-- **Whatever is loaded can be used.** The sections are there and have their form, and all else is as the user has it.
With any roots from the command line and the environment, the preferences can be read, and they are sound, exactly when
the extension can be shown as text; the editor command can be read exactly when it is none or can be shown. What cannot
be shown holds an integer with too many digits, or nests deeper than there is room for. -/
theorem load_gives_usable (hyaml : yaml.GivesDistinctKeys) (room : Room) {tree : FileTree} {path : Option Text}
    {config : Entries} (h : (load yaml tree path).config = .ok config) :
    (∃ user, GivesMapping yaml tree path user ∧ IsUsable user config) ∧
    (∀ commandRoots environment,
      ((∃ p, Preferences.ofConfig room config commandRoots environment = .ok p) ↔
        IsShowable room .extension (extension config)) ∧
      (∀ e, Preferences.ofConfig room config commandRoots environment = .error e →
        e = if room .extension (extension config) then .integerTooLong else .nestedTooDeeply) ∧
      ∀ p, Preferences.ofConfig room config commandRoots environment = .ok p → p.IsSound) ∧
    ((∃ command, editorCommand room config = .ok command) ↔
      (editorValue config).truthy = false ∨ IsShowable room .editor (editorValue config)) ∧
    ∀ e, editorCommand room config = .error e →
      e = if room .editor (editorValue config) then .integerTooLong else .nestedTooDeeply := by
  obtain ⟨user, source, hgives, hdistinct, hcheck⟩ := exists_checkSections_of_load hyaml h
  have husable := isUsable_of_checkSections hdistinct hcheck
  have hchecked := isChecked_of_isUsable husable
  refine ⟨⟨user, hgives, husable⟩, fun commandRoots environment => ⟨?_, ?_, ?_⟩, ?_, ?_⟩
  · exact exists_ofConfig_iff hchecked commandRoots environment
  · exact fun e => eq_of_ofConfig_eq_error hchecked
  · exact fun p => isSound_of_ofConfig
  · exact exists_editorCommand_iff config
  · exact fun e => eq_of_editorCommand_eq_error

/-- Nulls in the sections, a section that is left out, and an entry that no section is. -/
theorem load_gives_usable_of_nulls :
    let yaml := Yaml.load 490 2
    let room : Room := fun _ _ => true
    let tree := loneConfiguration (Text.lit "search_path: a\nlanguage: \x7bextension: null\x7d\neditor:\n3: \x7bx: 1\x7d")
    let path := some (Text.lit "c.yml")
    yaml.GivesDistinctKeys ∧ ∃ config, (load yaml tree path).config = .ok config ∧
      (∃ user, GivesMapping yaml tree path user ∧ IsUsable user config) ∧
      (∃ p, Preferences.ofConfig room config [Text.lit "b", Text.lit "b"] none = .ok p ∧ p.IsSound) ∧
      ∃ command, editorCommand room config = .ok command := by
  intro yaml room tree path
  have hyaml : yaml.GivesDistinctKeys := Yaml.load_distinctKeys 490 2
  have hread : ((load yaml tree path).config.toOption.any fun config =>
    (extension config).isWritable && (editorValue config).isWritable) = true := by decide +kernel
  cases hload : (load yaml tree path).config with
  | error e =>
    rw [hload] at hread
    cases hread
  | ok config =>
    rw [hload] at hread
    have hwritable : (extension config).isWritable = true ∧ (editorValue config).isWritable = true := by
      simpa [Except.toOption] using hread
    obtain ⟨husable, hpreferences, heditor, -⟩ := load_gives_usable hyaml room hload
    obtain ⟨hreads, -, hsound⟩ := hpreferences [Text.lit "b", Text.lit "b"] none
    obtain ⟨p, hp⟩ := hreads.2 (Or.inr ⟨rfl, hwritable.1⟩)
    exact ⟨hyaml, config, rfl, husable, ⟨p, hp, hsound p hp⟩, heditor.2 (Or.inr (Or.inr ⟨rfl, hwritable.2⟩))⟩

set_option maxRecDepth 100000 in
/-- The extension is a hexadecimal numeral that is read as an integer and would have 4302 decimal digits: what the
checks pass cannot be used, however much room there is. -/
theorem load_gives_unusable_of_long_numeral :
    let yaml := Yaml.load 490 2
    let document := Text.lit "language: \x7bextension: 0x1" ++ List.replicate 3572 (CodePoint.char '0') ++ Text.lit "\x7d"
    (((yaml document).toOption.bind mappingOf?).any fun user =>
      (checkSections (merge defaults user) []).toOption.any fun config =>
        match Preferences.ofConfig (fun _ _ => true) config [] none with
        | .error error => error = .integerTooLong
        | .ok _ => false) = true := by
  decide +kernel

end SourceJump.Config
