import SourceJump.Proofs.Config.Sections
import SourceJump.Proofs.Yaml.DistinctKeys

/-!
# Which documents are configurations

A configuration is nothing at all or a mapping whose sections have the right form (`isDocument`). Loading rejects no
such document, but not every other one: a document that counts as false is the empty mapping, whatever it is, and a
search path that counts as false lists no roots, whatever it is (`isOverlooked`). All other documents are rejected
(`load_rejects_iff`). A mapping that is read from a document has distinct keys, so that each section of the merged
configuration comes from the one of the document and the default below it alone (`sectionOf_merge`). Nothing else is
asked of what reads the document.
-/

namespace SourceJump

namespace Entries

/-- The value of a section; one that is not there is null. -/
def sectionOf (entries : Entries) (key : String) : Value :=
  (entries.get? key).getD .null

theorem find?_cons_self (t : Text) (value : Value) (rest : Entries) :
    find? ((.text t, value) :: rest) (.text t) = some value := by
  rw [find?_cons, if_pos (sameKey_text_iff.2 rfl)]

theorem find?_cons_of_ne {key : Value} {t : Text} (h : key ≠ .text t) (value : Value) (rest : Entries) :
    find? ((key, value) :: rest) (.text t) = find? rest (.text t) := by
  rw [find?_cons, if_neg fun hsame => h (sameKey_text_iff.1 hsame)]

/-- Behind an entry there is no other with its key. -/
theorem HasDistinctKeys.find?_eq_none {key value : Value} {rest : Entries}
    (h : HasDistinctKeys ((key, value) :: rest)) : find? rest key = none := by
  rw [find?, Option.map_eq_none_iff, List.find?_eq_none]
  intro e he hsame
  have hne : key.sameKey e.1 = false := List.rel_of_pairwise_cons h he
  rw [Value.sameKey_comm, hsame] at hne
  cases hne

end Entries

namespace Config

open Entries

/-! ### Merging -/

theorem updated_null (base : Value) : updated base .null = base := by
  rw [updated]

theorem merge_cons (base : Entries) (key value : Value) (rest : Entries) : merge base ((key, value) :: rest) =
    merge (insert base key (((find? base key).map (updated · value)).getD value)) rest := by
  rw [merge]
  cases find? base key <;> rfl

/-- What a value becomes depends on the update under its own key alone; what has no value gets that of the update. -/
theorem find?_merge {update : Entries} (h : update.HasDistinctKeys) (base : Entries) (key : Value) :
    find? (merge base update) key =
      match find? base key with
      | some old => some (updated old ((find? update key).getD .null))
      | none => find? update key := by
  induction update generalizing base with
  | nil =>
    have hnil : find? [] key = none := rfl
    rw [merge, hnil]
    cases find? base key <;> simp [updated_null]
  | cons entry rest ih =>
    obtain ⟨k, v⟩ := entry
    rw [merge_cons, ih h.of_cons, find?_insert, find?_cons]
    by_cases hk : k.sameKey key = true
    · -- The rest of the update holds nothing under this key.
      rw [if_pos hk, if_pos hk, ← find?_congr hk base, ← find?_congr hk rest, h.find?_eq_none]
      cases find? base k <;> simp [updated_null]
    · rw [if_neg hk, if_neg hk]

theorem sectionOf_merge {update : Entries} (h : update.HasDistinctKeys) {base : Entries} {key : String} {old : Value}
    (hold : base.get? key = some old) :
    (merge base update).sectionOf key = updated old (update.sectionOf key) := by
  have hold' : find? base (.lit key) = some old := hold
  rw [sectionOf, get?, find?_merge h, hold', Option.getD_some]
  rfl

/-! ### Sections -/

/-- A value that can be the search path of a document. -/
def isRoots : Value → Bool
  | .null | .text _ => true
  | v => isTextList v

/-- A value that can be the language of a document. -/
def isLanguage : Value → Bool
  | .null | .map _ => true
  | _ => false

/-- A document that is nothing at all, or a mapping whose sections have the right form. -/
def isDocument : Value → Bool
  | .null => true
  | .map entries =>
    isRoots (sectionOf entries "search_path") && isLanguage (sectionOf entries "language") &&
      isEditor (sectionOf entries "editor")
  | _ => false

/-- A document whose form is not looked into: one that counts as false, or one whose search path does while its other
sections have the right form. -/
def isOverlooked : Value → Bool
  | .map entries =>
    !(sectionOf entries "search_path").truthy && isLanguage (sectionOf entries "language") &&
      isEditor (sectionOf entries "editor")
  | v => !v.truthy

/-- What is wrong with the form of a document. -/
inductive LoadError.IsRejection (source : Text) : LoadError → Prop
  | document (path : Text) : IsRejection source (.notMapping path)
  | roots : IsRejection source (.searchPathNotRoots source)
  | language : IsRejection source (.languageNotMapping source)
  | editor : IsRejection source (.editorNotCommand source)

theorem checkSections_eq (config : Entries) (source : Text) :
    checkSections config source =
      if !isTextList (normalRoots (sectionOf config "search_path")) then .error (.searchPathNotRoots source)
      else
        match sectionOf config "language" with
        | .map _ =>
          if isEditor (sectionOf config "editor") then
            .ok (Entries.insert config (.lit "search_path") (normalRoots (sectionOf config "search_path")))
          else .error (.editorNotCommand source)
        | _ => .error (.languageNotMapping source) := by
  unfold checkSections sectionOf
  dsimp only
  split
  · rfl
  · cases Entries.get? config "language" with
    | none => rfl
    | some v => cases v <;> rfl

/-- Checking finds nothing wrong exactly when the three sections have their form. -/
theorem exists_checkSections_iff (config : Entries) (source : Text) :
    (∃ checked, checkSections config source = .ok checked) ↔
      isTextList (normalRoots (sectionOf config "search_path")) = true ∧
        (∃ entries, sectionOf config "language" = .map entries) ∧ isEditor (sectionOf config "editor") = true := by
  rw [checkSections_eq]
  cases isTextList (normalRoots (sectionOf config "search_path")) with
  | false => simp
  | true =>
    cases sectionOf config "language" with
    | map entries => cases isEditor (sectionOf config "editor") <;> simp
    | _ => simp

theorem isRejection_of_checkSections {config : Entries} {source : Text} {e : LoadError}
    (h : checkSections config source = .error e) : e.IsRejection source := by
  rw [checkSections_eq] at h
  split at h
  · cases h
    exact .roots
  · split at h
    · split at h
      · cases h
      · cases h
        exact .editor
    · cases h
      exact .language

/-- Over the default, a search path passes when it is one or counts as false. -/
theorem isTextList_normalRoots_updated (v : Value) :
    isTextList (normalRoots (updated (.list []) v)) = (isRoots v || !v.truthy) := by
  cases htruthy : v.truthy with
  | false => cases v <;> simp_all [updated, normalRoots, Value.truthy, isTextList, isRoots]
  | true => cases v <;> simp_all [updated, normalRoots, Value.truthy, isTextList, isRoots]

theorem updated_map_iff {v : Value} {base : Entries} :
    (∃ entries, updated (.map base) v = .map entries) ↔ isLanguage v = true := by
  cases v <;> simp [updated, isLanguage]

theorem isEditor_updated_map (v : Value) (base : Entries) : isEditor (updated (.map base) v) = isEditor v := by
  cases v <;> simp [updated, isEditor]

/-- A document that is a mapping passes when its sections have their form or are overlooked. -/
theorem exists_checkSections_merge_iff {update : Entries} (h : update.HasDistinctKeys) (source : Text) :
    (∃ checked, checkSections (merge defaults update) source = .ok checked) ↔
      isDocument (.map update) = true ∨ isOverlooked (.map update) = true := by
  rw [exists_checkSections_iff, sectionOf_merge h rfl, sectionOf_merge h rfl, sectionOf_merge h rfl,
    isTextList_normalRoots_updated, updated_map_iff, isEditor_updated_map, isDocument, isOverlooked]
  grind

/-! ### Loading -/

theorem reaches_of_readText {tree : FileTree} {path text : Text} (h : tree.readText path = .ok text) :
    tree.reaches path = .ok true := by
  unfold FileTree.readText FileTree.read at h
  unfold FileTree.reaches
  cases hlookup : tree.lookup path with
  | ok entry => rfl
  | error e =>
    rw [hlookup] at h
    cases h

/-- The mapping that a document counts as. -/
def mappingOf? : Value → Option Entries
  | .map entries => some entries
  | v => if v.truthy then none else some []

variable {yaml : Yaml.Loader}

theorem readMapping_of_readText {tree : FileTree} {path text : Text} {v : Value}
    (htext : tree.readText path = .ok text) (hv : yaml text = .ok v) :
    readMapping yaml tree path = (mappingOf? v).elim (.error (.notMapping path)) .ok := by
  rw [readMapping, htext]
  simp only [Except.mapError, hv, bind, Except.bind]
  cases htruthy : v.truthy with
  | false =>
    cases v with
    | map entries =>
      obtain rfl : entries = [] := by simpa [Value.truthy] using htruthy
      rfl
    | _ => simp [mappingOf?, htruthy, pure, Except.pure]
  | true => cases v <;> simp [mappingOf?, htruthy, pure, Except.pure, throw, throwThe, MonadExceptOf.throw]

/-- What loading comes to once the document of the file is known. -/
theorem load_config_of_readText {tree : FileTree} {source text : Text} {v : Value} (hsource : source ≠ [])
    (htext : tree.readText (Path.ofText source).toText = .ok text) (hv : yaml text = .ok v) :
    (load yaml tree (some source)).config =
      (mappingOf? v).elim (.error (.notMapping (Path.ofText source).toText))
        fun update => checkSections (merge defaults update) source := by
  obtain ⟨c, rest, rfl⟩ := List.exists_cons_of_ne_nil hsource
  unfold load
  dsimp only
  rw [reaches_of_readText htext, readMapping_of_readText htext hv]
  cases mappingOf? v <;> rfl

/-- A document passes when the mapping that it counts as does. -/
theorem isDocument_or_isOverlooked_iff (v : Value) :
    isDocument v = true ∨ isOverlooked v = true ↔
      ∃ update, mappingOf? v = some update ∧ (isDocument (.map update) = true ∨ isOverlooked (.map update) = true) := by
  have hnothing : isDocument (.map []) = true := rfl
  cases v with
  | map entries => simp [mappingOf?]
  | null => exact iff_of_true (Or.inl rfl) ⟨[], rfl, Or.inl rfl⟩
  | _ =>
    change false = true ∨ _ ↔ _
    simp only [mappingOf?, isOverlooked, Bool.false_eq_true, false_or, Bool.not_eq_true']
    split <;> simp_all

theorem hasDistinctKeys_of_mappingOf? (hyaml : yaml.GivesDistinctKeys) {text : Text} {v : Value} {update : Entries}
    (hv : yaml text = .ok v) (hupdate : mappingOf? v = some update) : update.HasDistinctKeys := by
  cases v with
  | map entries =>
    obtain rfl : entries = update := by simpa [mappingOf?] using hupdate
    exact hyaml hv
  | _ =>
    obtain rfl : [] = update := by
      unfold mappingOf? at hupdate
      split at hupdate <;> simp_all
    exact .nil

/-- **Exactly the documents of a wrong form are rejected**, but for those that are overlooked; and whatever is rejected
is rejected for its form. -/
theorem load_rejects_iff (hyaml : yaml.GivesDistinctKeys) {tree : FileTree} {source text : Text} {v : Value}
    (hsource : source ≠ []) (htext : tree.readText (Path.ofText source).toText = .ok text)
    (hv : yaml text = .ok v) :
    ((∃ e, (load yaml tree (some source)).config = .error e) ↔ isDocument v = false ∧ isOverlooked v = false) ∧
      ∀ e, (load yaml tree (some source)).config = .error e → e.IsRejection source := by
  have hpasses : (∃ config, (load yaml tree (some source)).config = .ok config) ↔
      isDocument v = true ∨ isOverlooked v = true := by
    rw [load_config_of_readText hsource htext hv, isDocument_or_isOverlooked_iff]
    cases hupdate : mappingOf? v with
    | none => simp
    | some update =>
      rw [Option.elim_some, exists_checkSections_merge_iff (hasDistinctKeys_of_mappingOf? hyaml hv hupdate)]
      simp
  constructor
  · cases hload : (load yaml tree (some source)).config with
    | error e =>
      have hno : ¬ (isDocument v = true ∨ isOverlooked v = true) := by
        rw [← hpasses, hload]
        simp
      simpa [not_or] using hno
    | ok config =>
      have hyes : isDocument v = true ∨ isOverlooked v = true := hpasses.1 ⟨config, hload⟩
      simpa [imp_iff_not_or] using hyes
  · intro e he
    rw [load_config_of_readText hsource htext hv] at he
    cases hupdate : mappingOf? v with
    | none =>
      rw [hupdate] at he
      cases he
      exact .document _
    | some update =>
      rw [hupdate] at he
      exact isRejection_of_checkSections he

end Config

/-- A tree for examples: these files in the directory `/work`, and no homes. -/
def FileTree.ofFiles (files : List (Text × Text)) : FileTree where
  workingDirectory := [Text.lit "work"]
  homes := fun _ => none
  entries := files.map fun file => (Text.lit "work" :: (Path.ofText file.1).parts, .file (Utf8.encode file.2))

namespace Config

/-- The working directory holds a configuration and nothing else. -/
def loneConfiguration (document : Text) : FileTree :=
  .ofFiles [(Text.lit "c.yml", document)]

/-- A number among the source roots: the document is no configuration, nothing is overlooked, and it is rejected. -/
theorem load_rejects_iff_of_number_among_roots :
    let yaml := Yaml.load 490 2
    let document := Text.lit "search_path: [src, 3]"
    let tree := loneConfiguration document
    let source := Text.lit "c.yml"
    (yaml.GivesDistinctKeys ∧ source ≠ [] ∧ tree.readText (Path.ofText source).toText = .ok document) ∧
      ∃ v, yaml document = .ok v ∧ (isDocument v = false ∧ isOverlooked v = false) ∧
        ((∃ e, (load yaml tree (some source)).config = .error e) ↔ isDocument v = false ∧ isOverlooked v = false) ∧
        ∀ e, (load yaml tree (some source)).config = .error e → e.IsRejection source := by
  intro yaml document tree source
  have hyaml : yaml.GivesDistinctKeys := Yaml.load_distinctKeys 490 2
  have hsource : source ≠ [] := by decide
  have htext : tree.readText (Path.ofText source).toText = .ok document := by decide +kernel
  have hread : ((yaml document).toOption.any fun v => !isDocument v && !isOverlooked v) = true := by
    decide +kernel
  cases hv : yaml document with
  | error e =>
    rw [hv] at hread
    cases hread
  | ok v =>
    rw [hv] at hread
    have hwrong : isDocument v = false ∧ isOverlooked v = false := by simpa [Except.toOption] using hread
    exact ⟨⟨hyaml, hsource, htext⟩, v, rfl, hwrong, load_rejects_iff hyaml hsource htext hv⟩

/-- An empty list or a false for the document, and an empty mapping or a zero for the search path, are configurations
to the one who loads them. -/
theorem load_accepts_wrong_forms :
    let yaml := Yaml.load 490 2
    let hasWrongForm (document : Text) := (yaml document).toOption.any fun v => !isDocument v
    let isLoaded (document : Text) := (load yaml (loneConfiguration document) (some (Text.lit "c.yml"))).config.isOk
    (["[]", "false", "search_path: \x7b\x7d", "search_path: 0"].map Text.lit).all
      (fun document => hasWrongForm document && isLoaded document) = true := by
  decide +kernel

end Config

end SourceJump
