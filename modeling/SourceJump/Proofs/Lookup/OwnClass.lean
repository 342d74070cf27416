import SourceJump.Proofs.Java.SourceName
import SourceJump.Proofs.Lookup.BaseClassAtCursor
import SourceJump.Proofs.Lookup.BelowRoots
import SourceJump.Proofs.Lookup.NamesInBuffer

/-!
# The class of a file that was opened

The command for the base class takes the name of the buffer's class from the path of the buffer. For a file that was
opened as the source of a class this is the last component of the name of that class, as long as the extension is one
word: not empty and without dots and slashes. So the command looks for the header of this class and of no other one
(`opened_source_names_class`), whether the buffer has the path as it was opened or in normal form.
-/

namespace SourceJump.Lookup

open Java

/-- The command for the base class looks for the header of the class `own`. It fails without a look at the file system
where there is none; otherwise it looks for the class that the first such header extends. -/
structure LooksForHeader (s : Settings) (access : FileAccess) (b : Buffer) (own : Text) : Prop where
  missed : (classHeader own).search b.text 0 = none →
    ∃ point, run s access b .baseClass = .failed (.noBaseClass own) point
  found : ∀ m, (classHeader own).search b.text 0 = some m → ∃ base, m.groups = [base] ∧
    (CodePoint.char '.' ∈ base → (run s access b .baseClass).Agrees (runDirect s access b.point .searchPath base)) ∧
    (CodePoint.char '.' ∉ base → (run s access b .baseClass).Agrees (runChain s access b base))

/-- The command looks for the header of the class that the file of the buffer is named for. -/
theorem looksForHeader_stem (s : Settings) (access : FileAccess) {b : Buffer} {file : Text}
    (hfile : b.filePath = some file) (hne : file ≠ []) : LooksForHeader s access b (Path.ofText file).stem := by
  refine ⟨exists_run_baseClass_eq_failed s access hfile hne, fun m hm => ?_⟩
  obtain ⟨base, hgroups, -⟩ := isDottedName_of_classHeader hm
  exact ⟨base, hgroups, baseClass_agrees_with_runDirect s access b hfile hne hm hgroups,
    baseClass_agrees_with_runChain s access b hfile hne hm hgroups⟩

variable {s : Settings} {access : FileAccess} {b : Buffer} {name : Text}

/-- What is opened for a dotted name lies below a root under the path of the class. -/
theorem exists_root_of_resolve {found : Found} (h : (run s access b (.resolve name)).outcome = some (.opened found)) :
    ∃ root ∈ s.searchPath, found.path = s.sourcePath name root := by
  rcases searchPath_cases s access name with hmissed | ⟨front, root, back, hsplit, hfront, hroot⟩
  · rw [(run_resolve_of_missed hmissed).1] at h
    cases h
  · rw [(run_resolve_of_first hsplit hfront hroot).1] at h
    obtain rfl := Outcome.opened.inj (Option.some.inj h)
    exact ⟨root, by simp [hsplit], rfl⟩

/-- A path with a stem is not empty, and its normal form is not, either. -/
theorem ne_nil_of_stem_ne_nil {path : Text} (h : (Path.ofText path).stem ≠ []) :
    path ≠ [] ∧ (Path.ofText path).toText ≠ [] := by
  have hempty : (Path.ofText []).stem = [] := by decide
  refine ⟨?_, fun hnil => ?_⟩
  · rintro rfl
    exact h hempty
  · rw [← Path.ofText_toText, hnil] at h
    exact h hempty

/-- **The path of a class gives its name back.** The extension is one word, and two names of classes are given. Their
paths are the same exactly when the names have the same components; the path without the extension has the components
between its slashes; and below any root the stem of the path is the last component. So the command for the base class,
when it is run on the file that was opened for the name, looks for the header of the class with this last component as
its name. -/
theorem opened_source_names_class (s : Settings) (hne : s.extension ≠ []) (hdot : CodePoint.char '.' ∉ s.extension)
    (hslash : CodePoint.char '/' ∉ s.extension) {name name' : Text} (h : NamesClass name) (h' : NamesClass name') :
    (relativePath name s.extension = relativePath name' s.extension ↔ pieces name = pieces name') ∧
    (∃ path, relativePath name s.extension = path ++ CodePoint.char '.' :: s.extension ∧
      path.split '/' = pieces name) ∧
    ∃ own, (pieces name).getLast? = some own ∧
      (∀ root, (Path.ofText (Path.join root (relativePath name s.extension))).stem = own) ∧
      ∀ access b found, (run s access b (.resolve name)).outcome = some (.opened found) →
        ∀ s' access' b', b'.filePath = some found.path ∨ b'.filePath = some (Path.ofText found.path).toText →
          LooksForHeader s' access' b' own := by
  have hcomponents := components_eq_pieces h.chars
  obtain ⟨front, own, hcut⟩ := h.namesFile.exists_components
  have hown : own ≠ [] := (mem_components (by rw [hcut]; simp : own ∈ components name)).1
  have hstem : ∀ root, (Path.ofText (Path.join root (relativePath name s.extension))).stem = own :=
    fun root => stem_ofText_join h.namesFile hne hdot hslash hcut
  refine ⟨?_, ⟨Text.join [Path.separator] (components name), ?_, ?_⟩, own, ?_, hstem, ?_⟩
  · rw [relativePath_eq_iff h.namesFile h'.namesFile, hcomponents, components_eq_pieces h'.chars]
  · rw [relativePath, dropWhile_suffixMark_of_not_mem hdot]
    rfl
  · rw [← hcomponents]
    exact split_join_components h.namesFile
  · rw [← hcomponents, hcut, List.getLast?_concat]
  · intro access b found hfound s' access' b' hfile
    obtain ⟨root, -, hpath⟩ := exists_root_of_resolve hfound
    have hopened : (Path.ofText found.path).stem = own := by
      rw [hpath]
      exact hstem root
    obtain ⟨hnonempty, hnormal⟩ := ne_nil_of_stem_ne_nil (hopened.symm ▸ hown)
    rcases hfile with hfile | hfile
    · rw [← hopened]
      exact looksForHeader_stem s' access' hfile hnonempty
    · rw [← hopened, ← Path.ofText_toText found.path]
      exact looksForHeader_stem s' access' hfile hnormal

/-- A name with empty components is the name of the same file. The file is opened below a root with a dot in it, and the
header of its class stands behind that of another class. -/
theorem opened_source_names_class_below_dotted_root :
    let s : Settings := ⟨[Text.lit "x", Text.lit "r/./"], Text.lit "java", none⟩
    let access : FileAccess := ⟨(· ∈ [Text.lit "r/./a/b$/C.java", Text.lit "r/./p/D.java"]), some⟩
    let b := Buffer.ofText [] none
    let b' := Buffer.ofText (Text.lit "class b$ extends X\nclass C extends p.D") (some (Text.lit "r/a/b$/C.java"))
    (s.extension ≠ [] ∧ CodePoint.char '.' ∉ s.extension ∧ CodePoint.char '/' ∉ s.extension) ∧
      (NamesClass (Text.lit ".a..b$.C.") ∧ NamesClass (Text.lit "a.b$.C")) ∧
      relativePath (Text.lit ".a..b$.C.") s.extension = relativePath (Text.lit "a.b$.C") s.extension ∧
      (run s access b (.resolve (Text.lit ".a..b$.C."))).outcome =
        some (.opened ⟨Text.lit "r/./a/b$/C.java", .searchPath, Text.lit ".a..b$.C."⟩) ∧
      (run s access b' .baseClass).outcome = some (.opened ⟨Text.lit "r/./p/D.java", .searchPath, Text.lit "p.D"⟩) := by
  intro s access b b'
  have hextension : s.extension ≠ [] ∧ CodePoint.char '.' ∉ s.extension ∧ CodePoint.char '/' ∉ s.extension := by decide
  have hname : NamesClass (Text.lit ".a..b$.C.") := ⟨by decide, by decide⟩
  have hname' : NamesClass (Text.lit "a.b$.C") := ⟨by decide, by decide⟩
  obtain ⟨hsame, -, own, hown, -, hlooks⟩ :=
    opened_source_names_class s hextension.1 hextension.2.1 hextension.2.2 hname hname'
  have hlast : (pieces (Text.lit ".a..b$.C.")).getLast? = some (Text.lit "C") := by decide
  obtain rfl : Text.lit "C" = own := Option.some.inj (hlast.symm.trans hown)
  have hopened : (run s access b (.resolve (Text.lit ".a..b$.C."))).outcome =
      some (.opened ⟨Text.lit "r/./a/b$/C.java", .searchPath, Text.lit ".a..b$.C."⟩) := by decide
  have hheader : (classHeader (Text.lit "C")).search b'.text 0 = some ⟨19, 38, [Text.lit "p.D"]⟩ := by decide +kernel
  obtain ⟨base, hbase, hqualified, -⟩ := (hlooks access b _ hopened s access b' (Or.inr (by decide))).found _ hheader
  obtain rfl : Text.lit "p.D" = base := List.singleton_inj.1 hbase
  refine ⟨hextension, ⟨hname, hname'⟩, hsame.2 (by decide), hopened, ?_⟩
  rw [(hqualified (by decide)).outcome]
  decide

end SourceJump.Lookup
