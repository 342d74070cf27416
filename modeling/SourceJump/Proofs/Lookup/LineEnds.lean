import SourceJump.File.Tree
import SourceJump.Proofs.Java.LineEnds
import SourceJump.Proofs.Lookup.History
import SourceJump.Proofs.Lookup.NamesInBuffer

/-!
# Lookups do not depend on the kind of line ends

In a text with carriage returns before its line feeds, the commands at the cursor find the same name and the same line
when the offset is moved along, and the searches read the same declarations. So every lookup makes the same calls with
the same outcome in both texts, as long as the name that is put into an expression stays on its line
(`lookup_ignores_line_ends`): the name of a file can hold line ends of its own, and these make a difference
(`lookup_minds_line_ends_in_name`).
-/

namespace SourceJump.Lookup

open Java Text

/-- The buffer holds the text of the other one with carriage returns before its line feeds, and belongs to the same
file. -/
structure IsCrlfOf (b' b : Buffer) : Prop where
  text : b'.text = crlf b.text
  filePath : b'.filePath = b.filePath

/-- The file, if there is one, names a class, and the name stays on its line. -/
def NamesClassOnLine (filePath : Option Text) : Prop :=
  ∀ file, filePath = some file → file ≠ [] → (Path.ofText file).stem ≠ [] ∧ StaysOnLine (Path.ofText file).stem

variable {s : Settings} {access : FileAccess} {b b' : Buffer} {name : Text}

theorem staysOnLine_of_isDottedChar {t : Text} (h : ∀ c ∈ t, isDottedChar c = true) : StaysOnLine t := by
  refine ⟨newline_not_mem_of_isDottedChar h, fun hlast => ?_⟩
  have hdotted := h _ (List.mem_of_mem_getLast? hlast)
  revert hdotted
  decide

/-! ### The chain -/

theorem IsCrlfOf.findImport (h : IsCrlfOf b' b) (hname : StaysOnLine name) :
    (findImport b' name).1 = (Lookup.findImport b name).1 := by
  have hgroups : ∀ t : Text, ((singleImport name).search t 0).map (·.groups.headD []) =
      (((singleImport name).search t 0).map (·.groups)).map (·.headD []) := by
    intro t
    rw [Option.map_map]
    rfl
  rw [findImport_fst, findImport_fst, h.text, hgroups, hgroups,
    show ((singleImport name).search (crlf b.text) 0).map (·.groups) = _ from
      groups_search_crlf (readSingleImport_ignoresLineEnds hname) b.text]
  rfl

/-- What is asked and told about the import of the class. -/
theorem content_importStages (s : Settings) (b : Buffer) (name : Text) :
    (importStages s b name).map Stage.content = (findImport b name).1.toList.map fun fullName =>
      (s.candidates .singleImport name fullName, [.importMissed fullName]) := by
  unfold importStages
  cases findImport b name with
  | mk found b' => cases found <;> rfl

/-- What is asked about the imported packages. -/
theorem content_wildcardStages (s : Settings) (b : Buffer) (name : Text) :
    (wildcardStages s b name).map Stage.content = ([], []) :: ((packageImports b.text).map (·.2)).map fun package =>
      (s.candidates .wildcardImport name (memberName package name), []) := by
  rw [← importedPackages_eq, wildcardStages, List.map_cons, List.map_map, List.map_map]
  rfl

theorem IsCrlfOf.content_wildcardStages (h : IsCrlfOf b' b) :
    (wildcardStages s b' name).map Stage.content = (wildcardStages s b name).map Stage.content := by
  rw [Lookup.content_wildcardStages, Lookup.content_wildcardStages, h.text, packageImports_crlf]

theorem IsCrlfOf.content_chain (h : IsCrlfOf b' b) (hname : StaysOnLine name) :
    (chain s b' name).map Stage.content = (chain s b name).map Stage.content := by
  have hsibling : siblingStages s b' name = siblingStages s b name := by rw [siblingStages, siblingStages, h.filePath]
  rw [chain, chain, hsibling]
  simp only [List.map_append, content_importStages, h.findImport hname, h.content_wildcardStages]

theorem IsCrlfOf.runChain_agrees (h : IsCrlfOf b' b) (hname : StaysOnLine name) :
    (runChain s access b' name).Agrees (runChain s access b name) := by
  rw [runChain_eq, runChain_eq]
  exact (runStages_agrees_of_content access (h.content_chain hname) b'.point b.point).orFail _

/-! ### Commands -/

theorem IsCrlfOf.atCursor_agrees (h : IsCrlfOf b' b) (offset : Int) :
    (run s access b' (.atCursor (crlfOffset b.text offset))).Agrees (run s access b (.atCursor offset)) := by
  have hword : Buffer.wordAt b'.text (crlfOffset b.text offset) = Buffer.wordAt b.text offset := by
    rw [h.text, Buffer.wordAt_crlf]
  by_cases hne : Buffer.wordAt b.text offset = []
  · simp only [run, hword, hne]
    exact ⟨rfl, rfl⟩
  · have hname := isName_wordAt rfl hne
    rw [atCursor_eq_runChain s access b' hword hne, atCursor_eq_runChain s access b rfl hne]
    exact h.runChain_agrees (staysOnLine_of_isDottedChar fun c hc => isDottedChar_of_isNameChar (hname.chars c hc))

theorem IsCrlfOf.importAt_agrees (h : IsCrlfOf b' b) (offset : Int) :
    (run s access b' (.importAt (crlfOffset b.text offset))).Agrees (run s access b (.importAt offset)) := by
  have hline : Buffer.lineAt b'.text (crlfOffset b.text offset) = Buffer.lineAt b.text offset := by
    rw [h.text, Buffer.lineAt_crlf]
  simp only [run, hline]
  split
  · exact ⟨rfl, rfl⟩
  · exact runDirect_agrees s access b'.point b.point .singleImport _

/-- The searches for the header of the class capture the same, and neither changes the text or the file of its
buffer. -/
theorem IsCrlfOf.search_classHeader (h : IsCrlfOf b' b) {own : Text} (hne : own ≠ []) (hown : StaysOnLine own) :
    (b'.rewind.search (classHeader own)).1.map (·.groups) = (b.rewind.search (classHeader own)).1.map (·.groups) ∧
      IsCrlfOf (b'.rewind.search (classHeader own)).2 (b.rewind.search (classHeader own)).2 := by
  refine ⟨?_, ?_, ?_⟩
  · rw [Buffer.search_fst, Buffer.search_fst]
    show ((classHeader own).search b'.text 0).map _ = _
    rw [h.text]
    exact groups_search_crlf (readHeader_ignoresLineEnds hne hown) b.text
  · rw [Buffer.text_search, Buffer.text_search]
    exact h.text
  · rw [filePath_search, filePath_search]
    exact h.filePath

theorem IsCrlfOf.baseClass_agrees (h : IsCrlfOf b' b) (hclass : NamesClassOnLine b.filePath) :
    (run s access b' .baseClass).Agrees (run s access b .baseClass) := by
  simp only [run, runBaseClass, h.filePath]
  split
  · exact ⟨rfl, rfl⟩
  · exact ⟨rfl, rfl⟩
  · next file hnonempty hfile =>
    obtain ⟨hne, hown⟩ := hclass file hfile (by simpa using hnonempty)
    obtain ⟨hgroups, hsame⟩ := h.search_classHeader hne hown
    cases hsearch' : b'.rewind.search (classHeader (Path.ofText file).stem) with
    | mk found' c' =>
      cases hsearch : b.rewind.search (classHeader (Path.ofText file).stem) with
      | mk found c =>
        rw [hsearch', hsearch] at hgroups hsame
        have hfound := (Buffer.search_fst b.rewind (classHeader (Path.ofText file).stem)).symm
        rw [hsearch] at hfound
        cases found with
        | none =>
          obtain rfl : found' = none := by simpa using hgroups
          exact ⟨rfl, rfl⟩
        | some m =>
          obtain ⟨m', rfl, hm⟩ : ∃ m', found' = some m' ∧ m'.groups = m.groups := by simpa using hgroups
          obtain ⟨base, hbase, hname⟩ := isDottedName_of_classHeader hfound
          simp only [hm, hbase, List.headD_cons]
          split
          · exact runDirect_agrees s access c'.point c.point .searchPath base
          · exact hsame.runChain_agrees (staysOnLine_of_isDottedChar hname.isDottedChar)

/-- The command in the text with carriage returns before its line feeds: the offset moves along. -/
def Command.inCrlf (text : Text) : Command → Command
  | .atCursor offset => .atCursor (crlfOffset text offset)
  | .importAt offset => .importAt (crlfOffset text offset)
  | command => command

/-- **A lookup does not depend on the kind of line ends.** In a text, and in the same text with carriage returns before
its line feeds, a command asks the same of the file system in the same order and has the same outcome, when its offset
is moved along; for the base class, the name of the file has to stay on its line. So does the search for the import of
a class, when the name of the class stays on its line. And a file that holds the text with the carriage returns is read
as the text without them. -/
theorem lookup_ignores_line_ends (s : Settings) (access : FileAccess) (text : Text) (filePath : Option Text)
    (point point' : Nat) :
    let b : Buffer := ⟨text, filePath, point⟩
    let b' : Buffer := ⟨crlf text, filePath, point'⟩
    (∀ command : Command, (command = .baseClass → NamesClassOnLine filePath) →
      (run s access b' (command.inCrlf text)).events = (run s access b command).events ∧
      (run s access b' (command.inCrlf text)).outcome = (run s access b command).outcome) ∧
    (∀ name, StaysOnLine name → (findImport b' name).1 = (findImport b name).1) ∧
    ∀ (tree : FileTree) (path : Text) (content : Bytes), tree.read path = .ok content →
      Utf8.decode content = .ok (crlf text) → CodePoint.char '\r' ∉ text → tree.readText path = .ok text := by
  intro b b'
  have h : IsCrlfOf b' b := ⟨rfl, rfl⟩
  refine ⟨fun command hclass => ?_, fun name => h.findImport, fun tree path content hread hdecode hreturn => ?_⟩
  · suffices hagrees : (run s access b' (command.inCrlf text)).Agrees (run s access b command) from
      ⟨hagrees.events, hagrees.outcome⟩
    cases command with
    | resolve name => exact runDirect_agrees s access point' point .searchPath name
    | inWildcards name =>
      show (run s access b' (.inWildcards name)).Agrees _
      rw [run_inWildcards_eq s access b' name point', run_inWildcards_eq s access b name point]
      exact runStages_agrees_of_content access h.content_wildcardStages point' point
    | atCursor offset => exact h.atCursor_agrees offset
    | importAt offset => exact h.importAt_agrees offset
    | baseClass => exact h.baseClass_agrees (hclass rfl)
  · simp only [FileTree.readText, hread, hdecode, unifyNewlines_crlf hreturn]

/-- The header goes over two lines, and the file with the carriage returns stands beside. The base class is found
through a package imported before it, the cursor is on its name, and another cursor is on the second import. -/
theorem lookup_ignores_line_ends_of_header_on_two_lines :
    let s : Settings := ⟨[Text.lit "r"], Text.lit "java", none⟩
    let access : FileAccess := ⟨fun path => path = Text.lit "r/p/B.java", some⟩
    let text := Text.lit "import p.*;\nimport q.C;\nclass M\n extends B {}"
    let b : Buffer := .ofText text (some (Text.lit "d/M.java"))
    let b' : Buffer := .ofText (crlf text) (some (Text.lit "d/M.java"))
    let tree : FileTree := ⟨[Text.lit "d"], fun _ => none,
      [([Text.lit "d", Text.lit "M"], .file [105, 13, 10, 59])], by decide +kernel⟩
    NamesClassOnLine b.filePath ∧ StaysOnLine (Text.lit "C") ∧
      (run s access b' .baseClass).events = (run s access b .baseClass).events ∧
      (run s access b' .baseClass).outcome = (run s access b .baseClass).outcome ∧
      opens (run s access b .baseClass).events = [Text.lit "r/p/B.java"] ∧
      (run s access b' (.atCursor 45)).outcome = (run s access b (.atCursor 42)).outcome ∧
      (run s access b' (.importAt 16)).outcome = (run s access b (.importAt 15)).outcome ∧
      (findImport b' (Text.lit "C")).1 = (findImport b (Text.lit "C")).1 ∧
      (findImport b (Text.lit "C")).1 = some (Text.lit "q.C") ∧
      tree.readText (Text.lit "/d/M") = .ok (Text.lit "i\n;") := by
  intro s access text b b' tree
  have hclass : NamesClassOnLine b.filePath := by
    rintro file hfile -
    obtain rfl := Option.some.inj hfile
    exact ⟨by decide +kernel, by decide +kernel, by decide +kernel⟩
  have hname : StaysOnLine (Text.lit "C") := ⟨by decide +kernel, by decide +kernel⟩
  obtain ⟨hcommands, himport, -⟩ := lookup_ignores_line_ends s access text (some (Text.lit "d/M.java")) 0 0
  obtain ⟨-, -, hread⟩ := lookup_ignores_line_ends s access (Text.lit "i\n;") none 0 0
  obtain ⟨hevents, houtcome⟩ := hcommands .baseClass fun _ => hclass
  refine ⟨hclass, hname, hevents, houtcome, by decide +kernel, (hcommands (.atCursor 42) nofun).2,
    (hcommands (.importAt 15) nofun).2, himport _ hname, by decide +kernel, ?_⟩
  exact hread tree (Text.lit "/d/M") [105, 13, 10, 59] (by decide +kernel) (by decide +kernel) (by decide +kernel)

/-- A name with line ends of its own makes a difference: one with a line feed inside is not in the text with the
carriage returns, one with a carriage return at its end is only in that text, and where there is no name, a line end is
one blank in the first text and two in the second. -/
theorem lookup_minds_line_ends_in_name :
    let s : Settings := ⟨[], Text.lit "java", none⟩
    let access : FileAccess := ⟨fun path => path = Text.lit "Base.java", some⟩
    let opened (text file : Text) := opens (run s access (.ofText text (some file)) .baseClass).events
    let inside := Text.lit "class A\nB extends Base {}"
    let behind := Text.lit "class A\n extends Base {}"
    let alone := Text.lit "class\nextends Base {}"
    (CodePoint.char '\r' ∉ inside ∧ CodePoint.char '\r' ∉ behind ∧ CodePoint.char '\r' ∉ alone) ∧
      (opened inside (Text.lit "A\nB.java") = [Text.lit "Base.java"] ∧ opened (crlf inside) (Text.lit "A\nB.java") = []) ∧
      (opened behind (Text.lit "A\r.java") = [] ∧ opened (crlf behind) (Text.lit "A\r.java") = [Text.lit "Base.java"]) ∧
      (opened alone (Text.lit ".") = [] ∧ opened (crlf alone) (Text.lit ".") = [Text.lit "Base.java"]) ∧
      (findImport (.ofText (Text.lit "import p.A\nB;") none) (Text.lit "A\nB")).1 = some (Text.lit "p.A\nB") ∧
      (findImport (.ofText (crlf (Text.lit "import p.A\nB;")) none) (Text.lit "A\nB")).1 = none := by
  decide +kernel

end SourceJump.Lookup
