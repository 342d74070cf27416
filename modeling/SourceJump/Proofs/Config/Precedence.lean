import SourceJump.Proofs.Config.SearchPath
import SourceJump.Proofs.Config.Sections
import SourceJump.Proofs.Lookup.BelowRoots

/-!
# Roots keep their precedence

The roots of the command line go before those of the environment, and these before those of the configuration. Merging
them drops repetitions and nothing else. So a dotted name is found below the first root of the three lists, written one
after the other, below which its file can be read, and no root is tried twice on the way (`ofConfig_keeps_precedence`).
-/

namespace SourceJump.Config

/-! ### The configured roots -/

/-- The roots that a search path in a configuration lists: a text that is not empty is one root, null and the empty
text are none. -/
inductive ListsRoots : Option Value → List Text → Prop where
  | absent : ListsRoots none []
  | null : ListsRoots (some .null) []
  | emptyText : ListsRoots (some (.text [])) []
  | text {t : Text} : t ≠ [] → ListsRoots (some (.text t)) [t]
  | list (roots : List Text) : ListsRoots (some (.list (roots.map .text))) roots

variable {room : Room}

theorem configuredRoots_of_listsRoots {config : Entries} {roots : List Text}
    (h : ListsRoots (Entries.get? config "search_path") roots) : configuredRoots room config = .ok roots := by
  generalize hpath : Entries.get? config "search_path" = path at h
  cases h with
  | absent => rw [configuredRoots, hpath]
  | null => rw [configuredRoots, hpath]; rfl
  | emptyText => rw [configuredRoots, hpath]; rfl
  | text hne =>
    obtain ⟨c, t, rfl⟩ := List.exists_cons_of_ne_nil hne
    rw [configuredRoots, hpath]
    exact mapM_asText .root [c :: t]
  | list => exact configuredRoots_of_list hpath

/-- The roots of the command line, of the environment and of the configuration, one after the other. -/
def plainRoots (commandRoots : List Text) (environment : Option Text) (configured : List Text) : List Text :=
  commandRoots ++ environmentRoots environment ++ configured

theorem isFirsts_of_ofConfig {config : Entries} {configured commandRoots : List Text} {environment : Option Text}
    {p : Preferences} (hroots : configuredRoots room config = .ok configured)
    (hp : Preferences.ofConfig room config commandRoots environment = .ok p) :
    IsFirsts (plainRoots commandRoots environment configured) p.searchPath := by
  obtain ⟨roots, language, suffix, hroots', -, -, rfl⟩ := ofConfig_eq_ok_iff.1 hp
  obtain rfl := Except.ok.inj (hroots.symm.trans hroots')
  have hplain : plainRoots commandRoots environment configured =
      [commandRoots, splitPathList environment, configured].flatten := by
    rw [plainRoots, splitPathList_eq, List.flatten_cons, List.flatten_cons, List.flatten_singleton, List.append_assoc]
  rw [hplain]
  exact isFirsts_mergeRoots _

/-- **Merging keeps the precedence of the roots.** For any search path that is a text or a list of texts, the preferences
can be read unless the language section forbids it. Their search path has the roots of the plain list, each once and by
first occurrence. A class is found below the first root of the plain list with a readable file, and the lookup fails
exactly when there is none; no root is tried twice. -/
theorem ofConfig_keeps_precedence (room : Room) {config : Entries} {configured : List Text}
    (h : ListsRoots (Entries.get? config "search_path") configured) (commandRoots : List Text)
    (environment : Option Text) :
    let plain := plainRoots commandRoots environment configured
    ((∃ p, Preferences.ofConfig room config commandRoots environment = .ok p) ↔
      (∃ language, languageSection config = .ok language) ∧ IsShowable room .extension (extension config)) ∧
    ∀ p, Preferences.ofConfig room config commandRoots environment = .ok p →
      p.searchPath.Nodup ∧ (∀ root, root ∈ p.searchPath ↔ root ∈ plain) ∧
      p.searchPath.Pairwise (fun a b => plain.idxOf a < plain.idxOf b) ∧
      ∀ (access : Lookup.FileAccess) (b : Buffer) (name : Text),
        let path (root : Text) := Path.join root (Java.relativePath name p.extension)
        let lookup := Lookup.run (p.settings room) access b (.resolve name)
        (∀ root, plain.find? (fun r => access.readable (path r)) = some root →
          lookup.outcome = some (.opened ⟨path root, .searchPath, name⟩)) ∧
        (lookup.outcome = some (.failed (.notOnSearchPath name)) ↔
          ∀ root ∈ plain, access.readable (path root) = false) ∧
        ∃ tried, tried <+: p.searchPath ∧ Lookup.probes lookup.events = tried.map path := by
  intro plain
  have hroots : configuredRoots room config = .ok configured := configuredRoots_of_listsRoots h
  refine ⟨exists_ofConfig_iff_of_roots hroots commandRoots environment, fun p hp => ?_⟩
  have hfirsts : IsFirsts plain p.searchPath := isFirsts_of_ofConfig hroots hp
  refine ⟨hfirsts.nodup, hfirsts.mem_iff, hfirsts.sorted, fun access b name => ⟨fun root hroot => ?_, ?_, ?_⟩⟩
  · exact Lookup.run_resolve_of_find? ((hfirsts.find?_eq _).trans hroot)
  · refine Lookup.run_resolve_failed_iff.trans (forall_congr' fun root => ?_)
    exact imp_congr_left (hfirsts.mem_iff root)
  · exact Lookup.exists_tried (p.settings room) access b name

/-- A root of the configuration stands on the command line as well, and another one in the environment beside a blank
entry. The file is there below two of the roots; the one that comes first is from the environment. -/
theorem ofConfig_keeps_precedence_of_repeated_roots :
    let room : Room := fun _ _ => true
    let config : Entries := [(.lit "search_path", .list [.lit "a", .lit "b"])]
    let access : Lookup.FileAccess := ⟨fun path => path ∈ [Text.lit "b/p/C.java", Text.lit "a/p/C.java"], some⟩
    ∃ p, Preferences.ofConfig room config [Text.lit "c"] (some (Text.lit "a: :c")) = .ok p ∧
      ListsRoots (Entries.get? config "search_path") [Text.lit "a", Text.lit "b"] ∧
      p.searchPath = [Text.lit "c", Text.lit "a", Text.lit "b"] ∧
      (Lookup.run (p.settings room) access (.ofText [] none) (.resolve (Text.lit "p.C"))).outcome =
        some (.opened ⟨Text.lit "a/p/C.java", .searchPath, Text.lit "p.C"⟩) := by
  intro room config access
  have hlists : ListsRoots (Entries.get? config "search_path") [Text.lit "a", Text.lit "b"] :=
    ListsRoots.list [Text.lit "a", Text.lit "b"]
  have hp : Preferences.ofConfig room config [Text.lit "c"] (some (Text.lit "a: :c")) =
      .ok ⟨[Text.lit "c", Text.lit "a", Text.lit "b"], Text.lit "java", none⟩ := by rfl
  obtain ⟨-, hkeeps⟩ := ofConfig_keeps_precedence room hlists [Text.lit "c"] (some (Text.lit "a: :c"))
  have hfound := ((hkeeps _ hp).2.2.2 access (.ofText [] none) (Text.lit "p.C")).1 (Text.lit "a") (by decide)
  exact ⟨_, hp, hlists, rfl, hfound⟩

end SourceJump.Config
