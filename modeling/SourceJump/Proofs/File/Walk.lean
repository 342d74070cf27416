import SourceJump.File.Tree
import SourceJump.Proofs.Path.Parts

/-!
# Paths that lead to the same file

A path that leads to a file still does so when its empty components and single dots are left out
(`walk_filter_isPart`), and a relative one when the working directory is put before it
(`walk_workingDirectory`). The one thing that can go wrong on the way is that the path becomes too long. So
the normal form of an absolute path leads to the same file (`locate_normal`), and so does the absolute form of a
relative one that is short enough (`locate_below_workingDirectory`).
-/

namespace SourceJump

/-! ### The bytes of a path -/

theorem nameBytes?_cons (c : CodePoint) (t : Text) :
    nameBytes? (c :: t) = (nameBytesOf? c).bind fun bytes => (nameBytes? t).map (bytes ++ ·) := by
  simp only [nameBytes?, List.mapM_cons, Option.pure_def, Option.bind_eq_bind]
  cases nameBytesOf? c with
  | none => rfl
  | some bytes => cases t.mapM nameBytesOf? <;> rfl

/-- A text has bytes when all its code points have. -/
theorem isSome_nameBytes?_iff {t : Text} : (nameBytes? t).isSome ↔ ∀ c ∈ t, (nameBytesOf? c).isSome := by
  induction t with
  | nil => simp [nameBytes?]
  | cons c t ih =>
    rw [nameBytes?_cons, List.forall_mem_cons, ← ih]
    cases nameBytesOf? c with
    | none => simp
    | some bytes => cases nameBytes? t <;> simp

/-- A shorter text has no more bytes. -/
theorem exists_nameBytes?_of_sublist {a b : Text} (h : a.Sublist b) {bytes : Bytes} (hb : nameBytes? b = some bytes) :
    ∃ fewer, nameBytes? a = some fewer ∧ fewer.length ≤ bytes.length := by
  induction h generalizing bytes with
  | slnil => exact ⟨bytes, hb, Nat.le_refl _⟩
  | cons c _ ih =>
    rw [nameBytes?_cons] at hb
    obtain ⟨head, -, hb⟩ := Option.bind_eq_some_iff.1 hb
    obtain ⟨tail, htail, rfl⟩ := Option.map_eq_some_iff.1 hb
    obtain ⟨fewer, hfewer, hle⟩ := ih htail
    exact ⟨fewer, hfewer, by rw [List.length_append]; omega⟩
  | cons_cons c _ ih =>
    rw [nameBytes?_cons] at hb
    obtain ⟨head, hhead, hb⟩ := Option.bind_eq_some_iff.1 hb
    obtain ⟨tail, htail, rfl⟩ := Option.map_eq_some_iff.1 hb
    obtain ⟨fewer, hfewer, hle⟩ := ih htail
    refine ⟨head ++ fewer, by rw [nameBytes?_cons, hhead, hfewer]; rfl, ?_⟩
    rw [List.length_append, List.length_append]
    omega

/-! ### Names of entries -/

theorem isPart_of_isEntryName {name : Text} (h : isEntryName name = true) : Path.isPart name = true := by
  simp only [isEntryName, Bool.and_eq_true] at h
  exact h.1.1.1

theorem ne_of_isEntryName {name : Text} (h : isEntryName name = true) : name ≠ Text.lit ".." := by
  simp only [isEntryName, Bool.and_eq_true, decide_eq_true_eq] at h
  exact h.1.1.2

theorem chars_of_isEntryName {name : Text} (h : isEntryName name = true) :
    ∀ c ∈ name, c ≠ Path.separator ∧ c ≠ '\x00' ∧ c.isHalf = false := by
  intro c hc
  simp only [isEntryName, Bool.and_eq_true, List.all_eq_true] at h
  have := h.1.2 c hc
  simpa [and_assoc] using this

theorem length_of_isEntryName {name : Text} (h : isEntryName name = true) :
    ((nameBytes? name).getD []).length ≤ maxNameBytes := by
  simp only [isEntryName, Bool.and_eq_true, decide_eq_true_eq] at h
  exact h.2

/-- A name without halves is its own plain name. -/
theorem plainName?_of_isEntryName {name : Text} (h : isEntryName name = true) : plainName? name = some name := by
  have hhalf : name.any CodePoint.isHalf = false := by
    rw [List.any_eq_false]
    intro c hc
    rw [(chars_of_isEntryName h c hc).2.2]
    exact Bool.false_ne_true
  rw [plainName?, hhalf]
  rfl

theorem isSome_nameBytesOf? {c : CodePoint} (h : c.isHalf = false) : (nameBytesOf? c).isSome := by
  rw [nameBytesOf?, h]
  rfl

/-! ### Names for the system -/

theorem unencodable?_eq_none_iff {position : Nat} {name : Text} :
    unencodable? position name = none ↔ ∀ c ∈ name, (nameBytesOf? c).isSome := by
  induction name generalizing position with
  | nil => simp [unencodable?]
  | cons c rest ih => cases hbytes : nameBytesOf? c <;> simp [unencodable?, hbytes, ih]

/-- Only a text without NUL whose code points all have bytes can be passed to the system. -/
theorem nameFault?_eq_none_iff {name : Text} :
    nameFault? name = none ↔ ∀ c ∈ name, c ≠ '\x00' ∧ (nameBytesOf? c).isSome := by
  have hnul : name.contains '\x00' = true ↔ CodePoint.char '\x00' ∈ name := List.contains_iff_mem
  rw [nameFault?]
  cases hencodable : unencodable? 0 name with
  | some fault =>
    refine iff_of_false (by simp) fun h => ?_
    rw [unencodable?_eq_none_iff.2 fun c hc => (h c hc).2] at hencodable
    cases hencodable
  | none =>
    have hbytes := unencodable?_eq_none_iff.1 hencodable
    simp only [ite_eq_right_iff, reduceCtorEq, imp_false, hnul]
    exact ⟨fun h c hc => ⟨fun heq => h (heq ▸ hc), hbytes c hc⟩, fun h hmem => (h _ hmem).1 rfl⟩

namespace FileTree

variable {tree : FileTree}

/-! ### Walks -/

/-- What a component leads to: it names nothing and is passed over, or the directory may be searched and has the parent
or the entry that the component names. -/
theorem enter_eq_ok_iff {path : Text} {place : List Text} {searchable : Bool} {part : Text}
    {found : List Text × FileEntry} : tree.enter path place (.directory searchable) part = .ok found ↔
      Path.isPart part = false ∧ found = (place, .directory searchable) ∨
      Path.isPart part = true ∧ searchable = true ∧
        (part = Text.lit ".." ∧ found = (place.dropLast, .directory) ∨
          part ≠ Text.lit ".." ∧ ((nameBytes? part).getD []).length ≤ maxNameBytes ∧
            ∃ name, plainName? part = some name ∧ found.1 = place ++ [name] ∧
              tree.entryAt? (place ++ [name]) = some found.2) := by
  obtain ⟨goal, there⟩ := found
  by_cases hpart : Path.isPart part = true
  · cases searchable with
    | false => simp [enter, hpart]
    | true =>
      by_cases hup : part = Text.lit ".."
      · subst hup
        rw [enter, hpart]
        simp [eq_comm]
      · by_cases hlong : maxNameBytes < ((nameBytes? part).getD []).length
        · simp [enter, hpart, hup, hlong, Nat.not_le.2 hlong]
        · -- What is left is a name, and the entry of that name is there or is not.
          have hshort := Nat.not_lt.1 hlong
          cases hname : plainName? part with
          | none => simp [enter, hpart, hup, hlong, hname]
          | some name =>
            cases hentry : tree.entryAt? (place ++ [name]) with
            | none => simp [enter, hpart, hup, hlong, hname, hentry]
            | some entry => simp [enter, hpart, hup, hlong, hshort, hname, hentry, eq_comm]
  · simp [enter, Bool.eq_false_iff.2 hpart, eq_comm]

/-- What a component leads to does not depend on what the path is called in errors. -/
theorem enter_eq_ok_of_eq_ok {path : Text} (path' : Text) {place : List Text} {entry : FileEntry} {part : Text}
    {found : List Text × FileEntry} (h : tree.enter path place entry part = .ok found) :
    tree.enter path' place entry part = .ok found := by
  cases entry with
  | file content readable => cases h
  | directory searchable => exact enter_eq_ok_iff.2 (enter_eq_ok_iff.1 h)

theorem walk_cons (path : Text) (place : List Text) (entry : FileEntry) (part : Text) (rest : List Text) :
    tree.walk path place entry (part :: rest) =
      (tree.enter path place entry part).bind fun x => tree.walk path x.1 x.2 rest := by
  rw [walk]
  cases tree.enter path place entry part <;> rfl

theorem walk_append (path : Text) (place : List Text) (entry : FileEntry) (a b : List Text) :
    tree.walk path place entry (a ++ b) = (tree.walk path place entry a).bind fun x => tree.walk path x.1 x.2 b := by
  induction a generalizing place entry with
  | nil => rfl
  | cons part rest ih =>
    rw [List.cons_append, walk_cons, walk_cons]
    cases tree.enter path place entry part with
    | error e => rfl
    | ok found => exact ih found.1 found.2

/-- A walk that ends at a file ends there without the components that name nothing, whatever the path is called
in errors. -/
theorem walk_filter_isPart {path : Text} (path' : Text) {place goal : List Text} {entry : FileEntry} {content : Bytes}
    {readable : Bool} {pieces : List Text}
    (h : tree.walk path place entry pieces = .ok (goal, .file content readable)) :
    tree.walk path' place entry (pieces.filter Path.isPart) = .ok (goal, .file content readable) := by
  induction pieces generalizing place entry with
  | nil => exact h
  | cons part rest ih =>
    rw [walk_cons] at h
    by_cases hpart : Path.isPart part = true
    · rw [List.filter_cons_of_pos hpart, walk_cons]
      cases henter : tree.enter path place entry part with
      | error e => rw [henter] at h; cases h
      | ok found =>
        rw [henter] at h
        rw [enter_eq_ok_of_eq_ok path' henter]
        exact ih h
    · rw [List.filter_cons_of_neg hpart]
      cases entry with
      | file content readable => cases h
      | directory searchable =>
        rw [enter_eq_ok_iff.2 (Or.inl ⟨Bool.eq_false_iff.2 hpart, rfl⟩)] at h
        exact ih h

/-- The working directory is reached from the root through its components. -/
theorem walk_workingDirectory (path : Text) :
    tree.walk path [] .directory tree.workingDirectory = .ok (tree.workingDirectory, .directory) := by
  have hnames : ∀ name ∈ tree.workingDirectory, isEntryName name = true :=
    List.all_eq_true.1 tree.workingDirectory_valid
  suffices h : ∀ after before, tree.workingDirectory = before ++ after →
      tree.walk path before .directory after = .ok (tree.workingDirectory, .directory) from h _ [] rfl
  intro after
  induction after with
  | nil =>
    intro before h
    rw [List.append_nil] at h
    rw [h]
    rfl
  | cons name after ih =>
    intro before h
    have hname : isEntryName name = true := hnames name (by rw [h]; simp)
    have hentry : tree.entryAt? (before ++ [name]) = some .directory := by
      have hbelow : (before ++ [name]).isPrefixOf tree.workingDirectory = true := by
        rw [List.isPrefixOf_iff_prefix, h]
        exact ⟨after, by simp⟩
      rw [entryAt?, if_pos hbelow]
    have henter : tree.enter path before .directory name = .ok (before ++ [name], .directory) :=
      enter_eq_ok_iff.2 (Or.inr ⟨isPart_of_isEntryName hname, rfl, Or.inr ⟨ne_of_isEntryName hname,
        length_of_isEntryName hname, name, plainName?_of_isEntryName hname, rfl, hentry⟩⟩)
    rw [walk_cons, henter]
    exact ih _ (by rw [h]; simp)

/-! ### Where paths lead -/

/-- The two paths lead to one and the same file, and it may be read. -/
def SameFile (tree : FileTree) (p q : Text) : Prop :=
  ∃ place content, tree.locate p = .ok (place, .file content) ∧ tree.locate q = .ok (place, .file content)

theorem isReadable_iff {path : Text} : tree.isReadable path = true ↔
    ∃ place content, tree.locate path = .ok (place, .file content) := by
  rw [isReadable, lookup]
  cases tree.locate path with
  | error e => simp [Except.map]
  | ok found =>
    obtain ⟨place, entry⟩ := found
    cases entry <;> simp [Except.map]

theorem SameFile.refl {path : Text} (h : tree.isReadable path = true) : tree.SameFile path path := by
  obtain ⟨place, content, h⟩ := isReadable_iff.1 h
  exact ⟨place, content, h, h⟩

theorem SameFile.isReadable {p q : Text} (h : tree.SameFile p q) : tree.isReadable p = true := by
  obtain ⟨place, content, h, -⟩ := h
  exact isReadable_iff.2 ⟨place, content, h⟩

/-- The start of a walk along a path. -/
def start (tree : FileTree) (path : Text) : List Text :=
  if path.head? = some Path.separator then [] else tree.workingDirectory

/-- A path leads somewhere when it can be passed to the system and the walk along it gets there. -/
theorem locate_eq_ok_iff {path : Text} {found : List Text × FileEntry} : tree.locate path = .ok found ↔
    nameFault? path = none ∧
      (∃ bytes, nameBytes? path = some bytes ∧ bytes ≠ [] ∧ bytes.length ≤ maxPathBytes) ∧
      tree.walk path (tree.start path) .directory (path.split Path.separator) = .ok found := by
  rw [locate, start]
  cases hfault : nameFault? path with
  | some fault => simp
  | none =>
    obtain ⟨bytes, hbytes⟩ := Option.isSome_iff_exists.1
      (isSome_nameBytes?_iff.2 fun c hc => (nameFault?_eq_none_iff.1 hfault c hc).2)
    simp only [hbytes, Option.getD_some, Option.some.injEq, exists_eq_left', true_and]
    by_cases hempty : bytes = []
    · simp [hempty]
    · by_cases hlong : maxPathBytes < bytes.length
      · simp [hempty, hlong, Nat.not_le.2 hlong]
      · simp [hempty, hlong, Nat.not_lt.1 hlong]

/-- The system takes a path whose code points are bytes of a name or characters, that is no longer than it may be
and not empty. -/
theorem locate_eq_ok_of_walk {path : Text} {found : List Text × FileEntry} (hhead : path.head? = some Path.separator)
    (hchars : ∀ c ∈ path, c ≠ '\x00' ∧ (nameBytesOf? c).isSome)
    (hlength : ∀ bytes, nameBytes? path = some bytes → bytes.length ≤ maxPathBytes)
    (h : tree.walk path [] .directory (path.split Path.separator) = .ok found) : tree.locate path = .ok found := by
  obtain ⟨bytes, hbytes⟩ := Option.isSome_iff_exists.1 (isSome_nameBytes?_iff.2 fun c hc => (hchars c hc).2)
  have hne : bytes ≠ [] := by
    cases path with
    | nil => cases hhead
    | cons c rest =>
      obtain rfl : c = Path.separator := by simpa using hhead
      rw [nameBytes?_cons, show nameBytesOf? Path.separator = some [0x2f] by decide +kernel, Option.bind_some] at hbytes
      obtain ⟨tail, -, rfl⟩ := Option.map_eq_some_iff.1 hbytes
      simp
  refine locate_eq_ok_iff.2 ⟨nameFault?_eq_none_iff.2 hchars, ⟨bytes, hbytes, hne, hlength bytes hbytes⟩, ?_⟩
  rw [start, if_pos hhead]
  exact h

/-- A path in normal form leads where the walk through its components leads. -/
theorem locate_toText {p : Path} {place : List Text} {content : Bytes}
    (hroot : p.root = [Path.separator] ∨ p.root = [Path.separator, Path.separator])
    (hparts : ∀ part ∈ p.parts, Path.separator ∉ part)
    (hchars : ∀ c ∈ p.toText, c ≠ '\x00' ∧ (nameBytesOf? c).isSome)
    (hlength : ∀ bytes, nameBytes? p.toText = some bytes → bytes.length ≤ maxPathBytes)
    (h : tree.walk p.toText [] .directory p.parts = .ok (place, .file content)) :
    tree.locate p.toText = .ok (place, .file content) := by
  have hne : p.parts ≠ [] := by
    intro hnil
    rw [hnil] at h
    cases h
  have htext : p.toText = p.root ++ Text.join [Path.separator] p.parts := by
    rw [Path.toText, if_neg (by simp [hne])]
  have hskip : ∀ rest, tree.walk p.toText [] .directory ([] :: rest) = tree.walk p.toText [] .directory rest := by
    intro rest
    rw [walk_cons, enter_eq_ok_iff.2 (Or.inl ⟨rfl, rfl⟩)]
    rfl
  have hsplit : tree.walk p.toText [] .directory ((p.root ++ Text.join [Path.separator] p.parts).split Path.separator) =
      tree.walk p.toText [] .directory p.parts := by
    rcases hroot with hroot | hroot
    · rw [hroot, List.singleton_append, Text.split_cons_self, hskip, Text.split_join hne hparts]
    · rw [hroot, List.cons_append, List.singleton_append, Text.split_cons_self, Text.split_cons_self, hskip, hskip,
        Text.split_join hne hparts]
  refine locate_eq_ok_of_walk ?_ hchars hlength ?_
  · rw [htext]
    rcases hroot with hroot | hroot <;> rw [hroot] <;> rfl
  · rw [← htext] at hsplit
    rw [hsplit, h]

/-- The normal form of a path that starts at the root is written with fewer characters. -/
theorem toText_ofText_sublist {path : Text} (hroot : Path.rootOf path ≠ []) :
    (Path.ofText path).toText.Sublist path := by
  have htext : (Path.ofText path).toText = Path.rootOf path ++
      Text.join [Path.separator] ((path.split Path.separator).filter Path.isPart) := by
    have hne : (Path.rootOf path).isEmpty = false := by simpa using hroot
    simp only [Path.toText, Path.ofText, hne, Bool.false_and, Bool.false_eq_true, if_false]
  have hempty : Path.isPart [] = false := rfl
  have hrest : ∀ rest : Text,
      (Text.join [Path.separator] ((rest.split Path.separator).filter Path.isPart)).Sublist rest := by
    intro rest
    have h := Text.join_filter_sublist [Path.separator] Path.isPart (rest.split Path.separator)
    rwa [Text.join_split] at h
  rw [htext]
  rcases Path.rootOf_cases path with ⟨hnone, -⟩ | ⟨rest, hone, hpath⟩ | ⟨rest, htwo, hpath⟩
  · exact absurd hnone hroot
  · rw [hone, hpath, Text.split_cons_self, List.filter_cons_of_neg (by simp [hempty])]
    exact (hrest rest).cons_cons _
  · rw [htwo, hpath, Text.split_cons_self, Text.split_cons_self, List.filter_cons_of_neg (by simp [hempty]),
      List.filter_cons_of_neg (by simp [hempty])]
    exact ((hrest rest).cons_cons _).cons_cons _

/-- The code points of a path that leads somewhere can be passed to the system. -/
theorem chars_of_locate {path : Text} {found : List Text × FileEntry} (h : tree.locate path = .ok found) :
    ∀ c ∈ path, c ≠ '\x00' ∧ (nameBytesOf? c).isSome :=
  nameFault?_eq_none_iff.1 (locate_eq_ok_iff.1 h).1

/-- The normal form of an absolute path that leads to a file leads there too. -/
theorem locate_normal {path : Text} {place : List Text} {content : Bytes} (hroot : Path.rootOf path ≠ [])
    (h : tree.locate path = .ok (place, .file content)) :
    tree.locate (Path.ofText path).toText = .ok (place, .file content) := by
  have hsublist := toText_ofText_sublist hroot
  obtain ⟨-, ⟨bytes, hbytes, -, hlong⟩, hwalk⟩ := locate_eq_ok_iff.1 h
  obtain ⟨hslashes, hstart⟩ : (Path.rootOf path = [Path.separator] ∨
      Path.rootOf path = [Path.separator, Path.separator]) ∧ tree.start path = [] := by
    rcases Path.rootOf_cases path with ⟨hnone, -⟩ | ⟨rest, hone, hpath⟩ | ⟨rest, htwo, hpath⟩
    · exact absurd hnone hroot
    · exact ⟨Or.inl hone, by rw [start, hpath]; rfl⟩
    · exact ⟨Or.inr htwo, by rw [start, hpath]; rfl⟩
  refine locate_toText hslashes (fun part => Path.not_mem_of_mem_parts) ?_ ?_ ?_
  · exact fun c hc => chars_of_locate h c (hsublist.subset hc)
  · intro fewer hfewer
    obtain ⟨fewer', hfewer', hle⟩ := exists_nameBytes?_of_sublist hsublist hbytes
    obtain rfl : fewer' = fewer := Option.some.inj (hfewer'.symm.trans hfewer)
    exact Nat.le_trans hle hlong
  · rw [hstart] at hwalk
    exact walk_filter_isPart _ hwalk

/-- The absolute form of a relative path that leads to a file leads there too, if it is short enough. -/
theorem locate_below_workingDirectory {path : Text} {place : List Text} {content : Bytes}
    (hroot : Path.rootOf path = []) (h : tree.locate path = .ok (place, .file content))
    (hlength : ∀ bytes, nameBytes? (tree.workingPath.absolute (Path.ofText path)).toText = some bytes →
      bytes.length ≤ maxPathBytes) :
    tree.locate (tree.workingPath.absolute (Path.ofText path)).toText = .ok (place, .file content) := by
  have hnames : ∀ name ∈ tree.workingDirectory, isEntryName name = true :=
    List.all_eq_true.1 tree.workingDirectory_valid
  obtain ⟨-, -, hwalk⟩ := locate_eq_ok_iff.1 h
  have hstart : tree.start path = tree.workingDirectory := by
    rcases Path.rootOf_cases path with ⟨-, hhead⟩ | ⟨rest, hone, -⟩ | ⟨rest, htwo, -⟩
    · rw [start, if_neg hhead]
    · rw [hone] at hroot; cases hroot
    · rw [htwo] at hroot; cases hroot
  have habsolute : tree.workingPath.absolute (Path.ofText path) =
      ⟨[Path.separator], tree.workingDirectory ++ (Path.ofText path).parts⟩ := by
    have hempty : (Path.ofText path).root.isEmpty = true := by rw [Path.ofText, hroot]; rfl
    rw [Path.absolute, if_pos hempty, workingPath]
  rw [habsolute] at hlength ⊢
  refine locate_toText (Or.inl rfl) ?_ ?_ hlength ?_
  · intro part hpart hsep
    rcases List.mem_append.1 hpart with hpart | hpart
    · exact (chars_of_isEntryName (hnames part hpart) _ hsep).1 rfl
    · exact Path.not_mem_of_mem_parts hpart hsep
  · intro c hc
    have hseparator : Path.separator ≠ '\x00' ∧ (nameBytesOf? Path.separator).isSome :=
      ⟨by decide, isSome_nameBytesOf? rfl⟩
    rw [Path.toText, if_neg (by simp), List.singleton_append, List.mem_cons] at hc
    rcases hc with rfl | hc
    · exact hseparator
    · rcases Text.mem_join hc with hc | ⟨part, hpart, hc⟩
      · rw [List.mem_singleton.1 hc]
        exact hseparator
      · rcases List.mem_append.1 hpart with hpart | hpart
        · obtain ⟨-, hnul, hhalf⟩ := chars_of_isEntryName (hnames part hpart) c hc
          exact ⟨hnul, isSome_nameBytesOf? hhalf⟩
        · exact chars_of_locate h c (Text.mem_of_mem_split (List.mem_of_mem_filter hpart) hc)
  · rw [hstart] at hwalk
    rw [walk_append, walk_workingDirectory]
    exact walk_filter_isPart _ hwalk

end FileTree

end SourceJump
