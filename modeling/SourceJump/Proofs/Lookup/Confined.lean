import SourceJump.Proofs.Lookup.Chain
import SourceJump.Proofs.Lookup.NamesInBuffer

/-!
# A buffer cannot lead a lookup out of the source roots

The names that the commands take from a buffer can be names of classes: they hold a name character and no slash. A file
with such a name is looked for below a source root, or under a single file name beside the file of the buffer
(`Candidate.Confined`). So whatever the text of the buffer is, no other path is asked about, and none is opened
(`lookup_stays_below_roots`).
-/

namespace SourceJump.Lookup

open Java

variable {s : Settings} {access : FileAccess} {b : Buffer} {name : Text}

/-! ### Candidates -/

/-- The path is that of something below one of the source roots. -/
def BelowRoot (s : Settings) (path : Text) : Prop :=
  ∃ root ∈ s.searchPath, Path.IsBelow root path

/-- The path is that of a file beside the file of the buffer: a name with the extension, without a slash, put behind the
directory of that file. -/
def IsSibling (s : Settings) (b : Buffer) (path : Text) : Prop :=
  ∃ file name, b.filePath = some file ∧ IsName name ∧ CodePoint.char '/' ∉ Path.withSuffix name s.extension ∧
    path = Path.join (Path.directory file) (Path.withSuffix name s.extension)

/-- What is looked for over the search path lies below a root, and what is looked for beside the buffer lies there. -/
def Candidate.Confined (s : Settings) (b : Buffer) (c : Candidate) : Prop :=
  if c.strategy = .sameDirectory then IsSibling s b c.path else BelowRoot s c.path

theorem Candidate.Confined.of_filePath {b' : Buffer} {c : Candidate} (h : c.Confined s b')
    (hfile : b'.filePath = b.filePath) : c.Confined s b := by
  simpa only [Candidate.Confined, IsSibling, hfile] using h

theorem confined_of_mem_candidates {strategy : Strategy} {fullName : Text} (hext : CodePoint.char '/' ∉ s.extension)
    (hname : NamesFile fullName) (hne : strategy ≠ .sameDirectory) :
    ∀ c ∈ s.candidates strategy name fullName, c.Confined s b := by
  intro c hc
  obtain ⟨root, hroot, rfl⟩ := List.mem_map.1 hc
  rw [Candidate.Confined, if_neg hne]
  exact ⟨root, hroot, (staysBelow_relativePath hname hext).isBelow root⟩

/-- All files that the chain may come to are confined. -/
theorem confined_of_mem_searchOrder (hext : CodePoint.char '/' ∉ s.extension)
    (himplicit : ∀ package, s.implicitPackage = some package → CodePoint.char '/' ∉ package) (hname : IsName name) :
    ∀ c ∈ searchOrder s b name, c.Confined s b := by
  intro c hc
  rw [searchOrder, List.mem_append, List.mem_append, List.mem_append] at hc
  rcases hc with ((hc | hc) | hc) | hc
  · obtain ⟨full, hfull, hc⟩ := List.mem_flatMap.1 hc
    exact confined_of_mem_candidates hext (namesFile_findImport hname (Option.mem_toList.1 hfull)) (by decide) c hc
  · obtain ⟨⟨p, package⟩, hpackage, hc⟩ := List.mem_flatMap.1 hc
    have hfull := namesFile_memberName hname (slash_not_mem_of_packageImports hpackage)
    exact confined_of_mem_candidates hext hfull (by decide) c hc
  · obtain ⟨package, hpackage, hc⟩ := List.mem_flatMap.1 hc
    obtain ⟨hpackage, -⟩ := Option.filter_eq_some_iff.1 (Option.mem_toList.1 hpackage)
    exact confined_of_mem_candidates hext (namesFile_memberName hname (himplicit package hpackage)) (by decide) c hc
  · obtain ⟨file, hfile, rfl⟩ := List.mem_map.1 hc
    obtain ⟨hfile, -⟩ := Option.filter_eq_some_iff.1 (Option.mem_toList.1 hfile)
    rw [Candidate.Confined, if_pos rfl]
    have hslash : CodePoint.char '/' ∉ name := (namesFile_of_isDottedName (.single hname)).slash
    exact ⟨file, name, hfile, hname, Text.not_mem_append_cons hslash (by decide) hext, rfl⟩

/-! ### Runs -/

/-- The run goes through a row of confined candidates. -/
def StaysInside (s : Settings) (access : FileAccess) (b : Buffer) (run : Run) : Prop :=
  ∃ cs missed, run.Follows access cs missed ∧ ∀ c ∈ cs, c.Confined s b

theorem staysInside_failed (failure : Failure) (point : Nat) :
    StaysInside s access b (.failed failure point) :=
  ⟨[], _, Run.failed_follows failure point, by simp⟩

theorem staysInside_runDirect (hext : CodePoint.char '/' ∉ s.extension) (point : Nat) {strategy : Strategy}
    (hne : strategy ≠ .sameDirectory) (hname : IsDottedName name) :
    StaysInside s access b (runDirect s access point strategy name) :=
  ⟨_, _, runDirect_follows s access point strategy name,
    confined_of_mem_candidates hext (namesFile_of_isDottedName hname) hne⟩

theorem staysInside_run (hext : CodePoint.char '/' ∉ s.extension)
    (himplicit : ∀ package, s.implicitPackage = some package → CodePoint.char '/' ∉ package) {c : Command}
    (hc : c.readsName = true) : StaysInside s access b (run s access b c) := by
  have hcomes := run_comesTo s access b c
  generalize run s access b c = r at hcomes ⊢
  cases hcomes with
  | failure failure point => exact staysInside_failed failure point
  | direct point hlooks hne => exact staysInside_runDirect hext point hne (hlooks.isDottedName hc)
  | chain hlooks hdot _ hfile =>
    have hname := (hlooks.isDottedName hc).isName hdot
    refine ⟨_, _, runChain_follows s access _ _, fun candidate hmem => ?_⟩
    exact (confined_of_mem_searchOrder hext himplicit hname candidate hmem).of_filePath hfile
  | wildcards name => cases hc

/-- **The text of a buffer cannot lead a lookup out of the source roots.** Where neither the extension nor the package
that needs no import holds a slash, every path that a command asks about is a root with a path below it, which has no
empty part and no dots for parts, or the name of a single file put behind the directory of the buffer's own file. What
is opened is of the first kind, or the absolute form of a path of the second. -/
theorem lookup_stays_below_roots (s : Settings) (access : FileAccess) (b : Buffer) {c : Command}
    (hc : c.readsName = true) (hext : CodePoint.char '/' ∉ s.extension)
    (himplicit : ∀ package, s.implicitPackage = some package → CodePoint.char '/' ∉ package) :
    (∀ path ∈ probes (run s access b c).events, BelowRoot s path ∨ IsSibling s b path) ∧
    ∀ path ∈ opens (run s access b c).events, BelowRoot s path ∨
      ∃ sibling, IsSibling s b sibling ∧ access.absolute? sibling = some path := by
  have hstays : StaysInside s access b (run s access b c) := staysInside_run hext himplicit hc
  obtain ⟨cs, missed, hfollows, hconfined⟩ := hstays
  constructor
  · intro path hpath
    obtain ⟨candidate, hmem, rfl⟩ := hfollows.mem_of_probes hpath
    have hcandidate := hconfined candidate hmem
    rw [Candidate.Confined] at hcandidate
    split at hcandidate
    · exact Or.inr hcandidate
    · exact Or.inl hcandidate
  · intro path hpath
    obtain ⟨candidate, hmem, hopened⟩ := hfollows.mem_of_opens hpath
    have hcandidate := hconfined candidate hmem
    rw [Candidate.Confined] at hcandidate
    rw [Candidate.openedPath?] at hopened
    split at hcandidate
    · next hs =>
      rw [if_pos hs] at hopened
      exact Or.inr ⟨candidate.path, hcandidate, hopened⟩
    · next hs =>
      rw [if_neg hs] at hopened
      exact Or.inl (Option.some.inj hopened ▸ hcandidate)

/-- Packages with dots at both ends are imported and need no import, and the extension begins with dots: the paths stay
below the root. -/
theorem lookup_stays_below_roots_of_dots :
    let s : Settings := ⟨[Text.lit "r"], Text.lit "..java", some (Text.lit "..")⟩
    let b : Buffer := .ofText (Text.lit "import ..a....*;\nC") (some (Text.lit "d/M.java"))
    let access : FileAccess := ⟨fun path => path = Text.lit "r/C.java", some⟩
    let c : Command := .atCursor 17
    c.readsName = true ∧ CodePoint.char '/' ∉ s.extension ∧
      (∀ package, s.implicitPackage = some package → CodePoint.char '/' ∉ package) ∧
      probes (run s access b c).events = [Text.lit "r/a/C.java", Text.lit "r/C.java"] ∧
      opens (run s access b c).events = [Text.lit "r/C.java"] ∧
      (BelowRoot s (Text.lit "r/a/C.java") ∨ IsSibling s b (Text.lit "r/a/C.java")) := by
  intro s b access c
  have hslash : CodePoint.char '/' ∉ s.extension := by decide
  have hdots : ∀ package, s.implicitPackage = some package → CodePoint.char '/' ∉ package := by
    rintro package h
    obtain rfl := Option.some.inj h
    decide
  have hprobes : probes (run s access b c).events = [Text.lit "r/a/C.java", Text.lit "r/C.java"] := by decide +kernel
  obtain ⟨hasked, -⟩ := lookup_stays_below_roots s access b (c := c) rfl hslash hdots
  refine ⟨rfl, hslash, hdots, hprobes, by decide +kernel, hasked _ ?_⟩
  rw [hprobes]
  exact List.mem_cons_self

end SourceJump.Lookup
