import SourceJump.Config.Load
import SourceJump.Config.Preferences
import SourceJump.Proofs.Value.Keys

/-!
# What a loaded configuration holds

The sections of a configuration are checked when it is loaded: its search path is a list of texts and its language
section a mapping (`isChecked_of_load`). So all that can still go wrong when its preferences are read is that the
extension cannot be shown as text: it holds an integer with too many digits, or nests too deeply to be written
(`exists_ofConfig_iff`).
-/

namespace SourceJump

namespace Entries

/-- Of two keys that are the same, both are a text or none. -/
theorem eq_text_iff_of_sameKey {a b : Value} {t : Text} (h : a.sameKey b = true) : a = .text t ↔ b = .text t := by
  have hnumber : ∀ {v : Value} {n : Int}, v.integer? = some n → v ≠ .text t := by
    rintro v n hv rfl
    cases hv
  unfold Value.sameKey at h
  split at h
  · next m n ha hb => exact iff_of_false (hnumber ha) (hnumber hb)
  · -- Values that are no numbers are compared with their own kind only.
    split at h <;> simp_all
  · cases h

/-- A text is the same key as itself only. -/
theorem sameKey_text_iff {a : Value} {t : Text} : a.sameKey (.text t) = true ↔ a = .text t := by
  refine ⟨fun h => (eq_text_iff_of_sameKey h).2 rfl, ?_⟩
  rintro rfl
  simp [Value.sameKey, Value.integer?]

theorem find?_insert_self (entries : Entries) (t : Text) (value : Value) :
    find? (insert entries (.text t) value) (.text t) = some value := by
  rw [find?_insert, if_pos (sameKey_text_iff.2 rfl)]

theorem find?_insert_of_ne (entries : Entries) {key : Value} {t : Text} (h : key ≠ .text t) (value : Value) :
    find? (insert entries key value) (.text t) = find? entries (.text t) := by
  rw [find?_insert, if_neg fun hsame => h (sameKey_text_iff.1 hsame)]

end Entries

namespace Config

/-- A configuration whose search path is a list of texts and whose language section is a mapping. -/
structure IsChecked (config : Entries) : Prop where
  roots : ∃ items, Entries.get? config "search_path" = some (.list items) ∧ isTextList (.list items) = true
  language : ∃ entries, Entries.get? config "language" = some (.map entries)

/-- What is loaded has been checked. -/
theorem isChecked_of_checkSections {config checked : Entries} {source : Text}
    (h : checkSections config source = .ok checked) : IsChecked checked := by
  unfold checkSections at h
  dsimp only at h
  split at h
  · cases h
  · next hroots =>
    split at h
    · next entries hlanguage =>
      split at h
      · obtain rfl := Except.ok.inj h
        refine ⟨?_, entries, ?_⟩
        · have htexts : isTextList (normalRoots ((Entries.get? config "search_path").getD .null)) = true := by
            simpa using hroots
          generalize normalRoots ((Entries.get? config "search_path").getD .null) = roots at htexts
          cases roots with
          | list items => exact ⟨items, Entries.find?_insert_self _ _ _, htexts⟩
          | _ => simp [isTextList] at htexts
        · rw [← hlanguage]
          exact Entries.find?_insert_of_ne _ (fun h => absurd (Value.text.inj h) (by decide)) _
      · cases h
    · cases h

theorem isChecked_of_load {yaml : Yaml.Loader} {tree : FileTree} {path : Option Text} {config : Entries}
    (h : (load yaml tree path).config = .ok config) : IsChecked config := by
  have hsections : ∀ {file entries source}, (⟨file, checkSections entries source⟩ : Loaded).config = .ok config →
      IsChecked config := fun hchecked => isChecked_of_checkSections hchecked
  unfold load at h
  split at h
  · exact hsections h
  · exact hsections h
  · dsimp only at h
    split at h
    · cases h
    · exact hsections h
    · split at h
      · cases h
      · exact hsections h

/-! ### Preferences -/

/-- The extension that a configuration asks for, `java` unless it says otherwise. -/
def extension (config : Entries) : Value :=
  match Entries.get? config "language" with
  | some (.map entries) => (Entries.get? entries "extension").getD (.lit "java")
  | _ => .lit "java"

variable {room : Room}

/-- A value that can be shown as text where it is used: a text, or one that there is room for writing and that holds no
integer with too many digits. -/
def IsShowable (room : Room) (use : Use) (v : Value) : Prop :=
  (∃ t, v = .text t) ∨ room use v = true ∧ v.isWritable = true

theorem asText_text (use : Use) (t : Text) : asText room use (.text t) = .ok t := rfl

theorem asText_of_not_text {use : Use} {v : Value} (h : ∀ t, v ≠ .text t) : asText room use v =
    if room use v then if v.isWritable then .ok v.display else .error .integerTooLong else .error .nestedTooDeeply := by
  unfold asText Value.display?
  split
  · next t => exact absurd rfl (h t)
  · cases v.isWritable <;> rfl

theorem asText_eq_ok_iff {use : Use} {v : Value} : (∃ t, asText room use v = .ok t) ↔ IsShowable room use v := by
  by_cases htext : ∃ t, v = .text t
  · obtain ⟨t, rfl⟩ := htext
    exact iff_of_true ⟨t, rfl⟩ (Or.inl ⟨t, rfl⟩)
  · rw [asText_of_not_text (not_exists.1 htext), IsShowable, or_iff_right htext]
    cases room use v <;> cases v.isWritable <;> simp

/-- Why a value cannot be shown as text. -/
theorem eq_of_asText_eq_error {use : Use} {v : Value} {e : PreferenceError} (h : asText room use v = .error e) :
    e = if room use v then .integerTooLong else .nestedTooDeeply := by
  by_cases htext : ∃ t, v = .text t
  · obtain ⟨t, rfl⟩ := htext
    cases h
  · rw [asText_of_not_text (not_exists.1 htext)] at h
    cases hroom : room use v <;> cases hwritable : v.isWritable <;> simp_all

/-- Texts are shown as they are. -/
theorem mapM_asText (use : Use) (texts : List Text) : (texts.map Value.text).mapM (asText room use) = .ok texts := by
  induction texts with
  | nil => rfl
  | cons t texts ih =>
    rw [List.map_cons, List.mapM_cons, asText_text, ih]
    rfl

theorem exists_texts_of_isTextList {v : Value} (h : isTextList v = true) :
    ∃ texts : List Text, v = .list (texts.map .text) := by
  cases v with
  | list items =>
    rw [isTextList] at h
    induction items with
    | nil => exact ⟨[], rfl⟩
    | cons item items ih =>
      rw [List.all_cons, Bool.and_eq_true] at h
      obtain ⟨texts, htexts⟩ := ih h.2
      cases item with
      | text t => exact ⟨t :: texts, by rw [List.map_cons, Value.list.inj htexts]⟩
      | _ => cases h.1
  | _ => cases h

/-- A list of texts gives these roots. -/
theorem configuredRoots_of_list {config : Entries} {roots : List Text}
    (h : Entries.get? config "search_path" = some (.list (roots.map .text))) :
    configuredRoots room config = .ok roots := by
  rw [configuredRoots, h]
  cases roots with
  | nil => rfl
  | cons root roots => exact mapM_asText .root (root :: roots)

/-- Roots that are texts can be read. -/
theorem exists_configuredRoots {config : Entries} (h : IsChecked config) :
    ∃ roots, configuredRoots room config = .ok roots := by
  obtain ⟨items, hitems, htexts⟩ := h.roots
  obtain ⟨roots, hroots⟩ := exists_texts_of_isTextList htexts
  exact ⟨roots, configuredRoots_of_list (hitems.trans (congrArg some hroots))⟩

theorem extension_of_languageSection {config language : Entries} (h : languageSection config = .ok language) :
    extension config = (Entries.get? language "extension").getD (.lit "java") := by
  unfold languageSection at h
  unfold extension
  split at h
  · next hnone =>
    obtain rfl := Except.ok.inj h
    rw [hnone]
    rfl
  · next entries hmap =>
    obtain rfl := Except.ok.inj h
    rw [hmap]
  · cases h

/-- What the preferences of a configuration are made of. -/
theorem ofConfig_eq_ok_iff {config : Entries} {commandRoots : List Text} {environment : Option Text}
    {p : Preferences} :
    Preferences.ofConfig room config commandRoots environment = .ok p ↔
      ∃ roots language suffix, configuredRoots room config = .ok roots ∧ languageSection config = .ok language ∧
        asText room .extension (extension config) = .ok suffix ∧
        p = ⟨mergeRoots [commandRoots, splitPathList environment, roots], suffix.dropWhile (· = '.'),
          (Entries.get? language "implicit_package").filter Value.truthy⟩ := by
  unfold Preferences.ofConfig
  cases configuredRoots room config with
  | error e => simp [bind, Except.bind]
  | ok roots =>
    cases hlanguage : languageSection config with
    | error e => simp [bind, Except.bind]
    | ok language =>
      rw [extension_of_languageSection hlanguage]
      simp only [bind, Except.bind, pure, Except.pure]
      cases asText room .extension ((Entries.get? language "extension").getD (.lit "java")) with
      | error e => simp
      | ok suffix => simp [eq_comm]

/-- With roots that can be read, the preferences can be read exactly when the language section, if there is one, is a
mapping and the extension can be shown as text. -/
theorem exists_ofConfig_iff_of_roots {config : Entries} {roots : List Text} (h : configuredRoots room config = .ok roots)
    (commandRoots : List Text) (environment : Option Text) :
    (∃ p, Preferences.ofConfig room config commandRoots environment = .ok p) ↔
      (∃ language, languageSection config = .ok language) ∧ IsShowable room .extension (extension config) := by
  rw [← asText_eq_ok_iff]
  constructor
  · rintro ⟨p, hp⟩
    obtain ⟨-, language, suffix, -, hlanguage, hsuffix, -⟩ := ofConfig_eq_ok_iff.1 hp
    exact ⟨⟨language, hlanguage⟩, suffix, hsuffix⟩
  · rintro ⟨⟨language, hlanguage⟩, suffix, hsuffix⟩
    exact ⟨_, ofConfig_eq_ok_iff.2 ⟨roots, language, suffix, h, hlanguage, hsuffix, rfl⟩⟩

/-- The preferences of a loaded configuration can be read exactly when the extension can be shown as text. -/
theorem exists_ofConfig_iff {config : Entries} (h : IsChecked config) (commandRoots : List Text)
    (environment : Option Text) :
    (∃ p, Preferences.ofConfig room config commandRoots environment = .ok p) ↔
      IsShowable room .extension (extension config) := by
  obtain ⟨roots, hroots⟩ := exists_configuredRoots h
  obtain ⟨entries, hentries⟩ := h.language
  have hsection : languageSection config = .ok entries := by rw [languageSection, hentries]
  rw [exists_ofConfig_iff_of_roots hroots]
  exact and_iff_right ⟨entries, hsection⟩

end Config

end SourceJump
