import SourceJump.Proofs.File.Walk
import SourceJump.Proofs.Lookup.Chain

/-!
# Whether the file that is opened is the file that was found

A lookup opens what it found under the very path that it asked about, save for the file beside the buffer,
which it opens under an absolute path. A `~` in front, with the name of a user or without, stands for a home
directory there, but not in the question whether the file is readable. So the two paths can lead to different
files, the second to none, or the second may not exist (`opened_readable_iff`).
-/

namespace SourceJump

namespace FileTree

variable {tree : FileTree}

/-- The absolute form of the path exists and leads where the path leads. -/
def KeepsFile (tree : FileTree) (path : Text) : Prop :=
  let first := (Path.ofText path).parts.headD []
  Path.rootOf path ≠ [] ∨
  first.head? ≠ some '~' ∧ (∀ bytes, nameBytes? (tree.workingPath.absolute (Path.ofText path)).toText = some bytes →
    bytes.length ≤ maxPathBytes) ∨
  ∃ user home, first = CodePoint.char '~' :: user ∧ tree.home? user = some home ∧
    tree.SameFile (tree.workingPath.absolute ((Path.ofText path).below home)).toText path

theorem homeUser?_of_root {path : Text} (h : Path.rootOf path ≠ []) : (Path.ofText path).homeUser? = none := by
  rw [Path.homeUser?]
  split
  · next hroot _ => exact absurd hroot h
  · rfl

theorem homeUser?_of_plain {path : Text} (h : ((Path.ofText path).parts.headD []).head? ≠ some '~') :
    (Path.ofText path).homeUser? = none := by
  rw [Path.homeUser?]
  split
  · next hparts =>
    rw [hparts] at h
    exact absurd rfl h
  · rfl

theorem homeUser?_of_tilde {path user : Text} (hroot : Path.rootOf path = [])
    (h : (Path.ofText path).parts.headD [] = CodePoint.char '~' :: user) :
    (Path.ofText path).homeUser? = some user := by
  rw [Path.homeUser?, show (Path.ofText path).root = [] from hroot]
  cases hparts : (Path.ofText path).parts with
  | nil => rw [hparts] at h; cases h
  | cons first rest =>
    rw [hparts, List.headD_cons] at h
    rw [h]
    rfl

theorem absolute?_of_no_user {path : Text} (h : (Path.ofText path).homeUser? = none) :
    tree.absolute? path = some (tree.workingPath.absolute (Path.ofText path)).toText := by
  rw [absolute?, expand]
  simp only [h]
  rfl

theorem absolute?_of_root {path : Text} (h : Path.rootOf path ≠ []) :
    tree.absolute? path = some (Path.ofText path).toText := by
  have hroot : (Path.ofText path).root.isEmpty = false := by simpa [Path.ofText] using h
  rw [absolute?_of_no_user (homeUser?_of_root h), Path.absolute, hroot, if_neg Bool.false_ne_true]

theorem absolute?_of_user {path user : Text} (h : (Path.ofText path).homeUser? = some user)
    (hfault : nameFault? user = none) : tree.absolute? path =
      (tree.home? user).map fun home => (tree.workingPath.absolute ((Path.ofText path).below home)).toText := by
  rw [absolute?, expand]
  simp only [h, hfault]
  cases tree.home? user <;> rfl

/-- The name of a user in a path that leads somewhere can be passed to the system. -/
theorem nameFault?_user {path user : Text} {found : List Text × FileEntry} (hlocate : tree.locate path = .ok found)
    (h : (Path.ofText path).parts.headD [] = CodePoint.char '~' :: user) : nameFault? user = none := by
  refine nameFault?_eq_none_iff.2 fun c hc => chars_of_locate hlocate c ?_
  cases hparts : (Path.ofText path).parts with
  | nil => rw [hparts] at h; cases h
  | cons first rest =>
    rw [hparts, List.headD_cons] at h
    have hpart : first ∈ (path.split Path.separator).filter Path.isPart := by
      rw [show (path.split Path.separator).filter Path.isPart = first :: rest from hparts]
      exact List.mem_cons_self
    refine Text.mem_of_mem_split (List.mem_of_mem_filter hpart) ?_
    rw [h]
    exact List.mem_cons_of_mem _ hc

/-- The condition is exact: the absolute form leads to the same file under it, and not otherwise. -/
theorem exists_sameFile_absolute?_iff {path : Text} (hfile : tree.isReadable path = true) :
    (∃ opened, tree.absolute? path = some opened ∧ tree.SameFile opened path) ↔ tree.KeepsFile path := by
  obtain ⟨place, content, hlocate⟩ := isReadable_iff.1 hfile
  by_cases hroot : Path.rootOf path = []
  · by_cases hhead : ((Path.ofText path).parts.headD []).head? = some '~'
    · -- A home directory takes the place of the first component, if the user has one.
      obtain ⟨user, huser⟩ := List.head?_eq_some_iff.1 hhead
      rw [absolute?_of_user (homeUser?_of_tilde hroot huser) (nameFault?_user hlocate huser)]
      constructor
      · rintro ⟨opened, hopened, hsame⟩
        obtain ⟨home, hhome, rfl⟩ := Option.map_eq_some_iff.1 hopened
        exact Or.inr (Or.inr ⟨user, home, huser, hhome, hsame⟩)
      · rintro (habsolute | ⟨hplain, -⟩ | ⟨user', home, huser', hhome, hsame⟩)
        · exact absurd hroot habsolute
        · exact absurd hhead hplain
        · obtain rfl : user = user' := by
            rw [huser] at huser'
            exact (List.cons.inj huser').2
          exact ⟨_, by rw [hhome]; rfl, hsame⟩
    · -- The working directory is put before the path.
      rw [absolute?_of_no_user (homeUser?_of_plain hhead)]
      constructor
      · rintro ⟨opened, hopened, goal, _, hgoal, -⟩
        obtain rfl := Option.some.inj hopened
        obtain ⟨-, ⟨bytes, hbytes, -, hlong⟩, -⟩ := locate_eq_ok_iff.1 hgoal
        refine Or.inr (Or.inl ⟨hhead, fun bytes' hbytes' => ?_⟩)
        obtain rfl := Option.some.inj (hbytes'.symm.trans hbytes)
        exact hlong
      · rintro (habsolute | ⟨-, hlength⟩ | ⟨user, home, huser, -⟩)
        · exact absurd hroot habsolute
        · exact ⟨_, rfl, place, content, locate_below_workingDirectory hroot hlocate hlength, hlocate⟩
        · rw [huser] at hhead
          exact absurd rfl hhead
  · rw [absolute?_of_root hroot]
    constructor
    · rintro -
      exact Or.inl hroot
    · rintro -
      exact ⟨_, rfl, place, content, locate_normal hroot hlocate, hlocate⟩

end FileTree

namespace Lookup

variable {access : FileAccess} {r : Run} {cs misses rest : List Candidate} {c : Candidate}
  {missed : Option Outcome}

/-! ### Which paths are made absolute -/

theorem mem_fileCalls_madeAbsolute {events : List Event} {path : Text} :
    .madeAbsolute path ∈ fileCalls events ↔ .madeAbsolute path ∈ events := by
  rw [fileCalls, List.mem_filter]
  exact and_iff_left rfl

theorem Run.Follows.not_madeAbsolute (h : r.Follows access cs missed)
    (hm : ∀ c ∈ cs, access.readable c.path = false) (path : Text) : .madeAbsolute path ∉ r.events := by
  rw [← mem_fileCalls_madeAbsolute, (h.of_missed hm).1]
  simp

theorem Candidate.madeAbsolute_mem_select_iff (access : FileAccess) (c : Candidate) (path : Text) :
    .madeAbsolute path ∈ (c.select access).1 ↔ c.strategy = .sameDirectory ∧ path = c.path := by
  by_cases hs : c.strategy = .sameDirectory
  · rw [Candidate.select, if_pos hs]
    cases access.absolute? c.path <;> simp [hs]
  · rw [Candidate.select, if_neg hs]
    simp [hs]

theorem Run.Follows.madeAbsolute_iff (h : r.Follows access (misses ++ c :: rest) missed)
    (hm : ∀ m ∈ misses, access.readable m.path = false) (hc : access.readable c.path = true) (path : Text) :
    .madeAbsolute path ∈ r.events ↔ c.strategy = .sameDirectory ∧ path = c.path := by
  rw [← mem_fileCalls_madeAbsolute, (h.of_first hm hc).1, ← c.madeAbsolute_mem_select_iff access]
  simp

/-- **The file that is opened is the file that was found, exactly under `KeepsFile`.** A command ends without a
break and opens a readable file, the one it asked about, if and only if the path of every file beside the buffer that
it found keeps its file when it is made absolute. All else that is opened is the file that was found. -/
theorem opened_readable_iff (tree : FileTree) (s : Settings) (b : Buffer) (c : Command) :
    (((run s (.ofTree tree) b c).outcome ≠ some .homeUnknown ∧
      ∀ found, (run s (.ofTree tree) b c).outcome = some (.opened found) → tree.isReadable found.path = true ∧
        ∃ probed, (probes (run s (.ofTree tree) b c).events).getLast? = some probed ∧
          tree.SameFile found.path probed) ↔
      ∀ path, .madeAbsolute path ∈ (run s (.ofTree tree) b c).events → tree.KeepsFile path) ∧
    ∀ path, .madeAbsolute path ∈ (run s (.ofTree tree) b c).events →
      tree.isReadable path = true ∧ BesideBuffer s b path := by
  obtain ⟨cs, missed, hfollows, hmissed, hbeside⟩ := run_searches s (.ofTree tree) b c
  generalize run s (.ofTree tree) b c = r at hfollows ⊢
  rcases first_readable_cases (.ofTree tree) cs with hm | ⟨misses, d, rest, rfl, hm, hd⟩
  · -- Nothing is readable, and nothing is opened.
    have hunopened : ∀ o, r.outcome = some o → ∃ failure, o = .failed failure := by
      intro o ho
      rw [(hfollows.of_missed hm).2] at ho
      rcases hmissed with rfl | ⟨failure, rfl⟩
      · cases ho
      · exact ⟨failure, (Option.some.inj ho).symm⟩
    refine ⟨⟨fun _ path hpath => absurd hpath (hfollows.not_madeAbsolute hm path), fun _ => ⟨?_, ?_⟩⟩,
      fun path hpath => absurd hpath (hfollows.not_madeAbsolute hm path)⟩
    · intro hhome
      obtain ⟨failure, h⟩ := hunopened _ hhome
      cases h
    · intro found hfound
      obtain ⟨failure, h⟩ := hunopened _ hfound
      cases h
  · have hfile : tree.isReadable d.path = true := hd
    have hlast : (probes r.events).getLast? = some d.path := by
      rw [hfollows.probes_of_first hm hd, List.getLast?_concat]
    have habsolute := hfollows.madeAbsolute_iff hm hd
    have houtcome := hfollows.outcome_of_first hm hd
    refine ⟨?_, fun path hpath => ?_⟩
    · by_cases hs : d.strategy = .sameDirectory
      · -- The file beside the buffer: opened by its absolute path.
        rw [Candidate.openedPath?, if_pos hs] at houtcome
        have hkeeps : (∀ path, .madeAbsolute path ∈ r.events → tree.KeepsFile path) ↔ tree.KeepsFile d.path := by
          constructor
          · exact fun h => h d.path ((habsolute d.path).2 ⟨hs, rfl⟩)
          · rintro h path hpath
            obtain ⟨-, rfl⟩ := (habsolute path).1 hpath
            exact h
        rw [hkeeps, ← FileTree.exists_sameFile_absolute?_iff hfile, houtcome]
        constructor
        · rintro ⟨hhome, hopened⟩
          cases hpath : (FileAccess.ofTree tree).absolute? d.path with
          | none => rw [hpath] at hhome; exact absurd rfl hhome
          | some opened =>
            rw [hpath] at hopened
            obtain ⟨-, probed, hprobed, hsame⟩ := hopened _ rfl
            obtain rfl := Option.some.inj (hlast.symm.trans hprobed)
            exact ⟨opened, hpath, hsame⟩
        · rintro ⟨opened, hpath, hsame⟩
          rw [show (FileAccess.ofTree tree).absolute? d.path = some opened from hpath]
          refine ⟨by simp, fun found hfound => ?_⟩
          obtain rfl := Outcome.opened.inj (Option.some.inj hfound)
          exact ⟨hsame.isReadable, d.path, hlast, hsame⟩
      · -- Any other file: opened by the path that was asked about.
        rw [Candidate.openedPath?, if_neg hs] at houtcome
        refine ⟨fun _ path hpath => absurd ((habsolute path).1 hpath).1 hs, fun _ => ⟨by rw [houtcome]; simp, ?_⟩⟩
        intro found hfound
        obtain rfl := Outcome.opened.inj (Option.some.inj (houtcome.symm.trans hfound))
        exact ⟨hfile, d.path, hlast, .refl hfile⟩
    · obtain ⟨hs, rfl⟩ := (habsolute path).1 hpath
      exact ⟨hfile, hbeside d (by simp) hs⟩

/-- A directory named `~` below the working directory: the file beside the buffer is found there, but looked for below
the home directory when it is opened. -/
theorem opened_unreadable_below_tilde :
    let tree : FileTree :=
      { workingDirectory := [Text.lit "work"]
        homes := fun user => if user.isEmpty then some (Text.lit "/home/user") else none
        entries := [([Text.lit "work", Text.lit "~", Text.lit "Main.java"], .file []),
          ([Text.lit "work", Text.lit "~", Text.lit "Helper.java"], .file [])] }
    let b := Buffer.ofText (Text.lit "Helper") (some (Text.lit "~/Main.java"))
    let r := run ⟨[], Text.lit "java", some (Text.lit "java.lang")⟩ (.ofTree tree) b (.atCursor 0)
    probes r.events = [Text.lit "~/Helper.java"] ∧ tree.isReadable (Text.lit "~/Helper.java") = true ∧
      r.outcome = some (.opened ⟨Text.lit "/home/user/Helper.java", .sameDirectory, Text.lit "Helper"⟩) ∧
      tree.isReadable (Text.lit "/home/user/Helper.java") = false := by
  decide +kernel

end Lookup

end SourceJump
