import SourceJump.Proofs.Config.Usable
import SourceJump.Proofs.Java.SourcePath
import SourceJump.Proofs.Lookup.BelowRoots

/-!
# The file beside the buffer and the file below a root

The last step of the chain asks for a file beside the buffer, whose name is made from the name of the class and the
extension as it stands. Below the roots the dots at the front of the extension are left out. So the two files of an
unqualified class have the same name exactly when the extension does not begin with a dot
(`sibling_named_like_source_iff`); the extension of a configuration never does, because its dots are left out when the
preferences are read.
-/

namespace SourceJump

namespace Path

/-- Different names give different paths in the same directory. -/
theorem join_right_inj {base p q : Text} (hp : p.head? ≠ some separator) (hq : q.head? ≠ some separator) :
    join base p = join base q ↔ p = q := by
  rw [join, join, if_neg hp, if_neg hq]
  split <;> simp

end Path

namespace Java

/-- An unqualified name is its only component. -/
theorem components_of_isName {name : Text} (h : IsName name) : components name = [name] := by
  rw [components, Text.strip_eq_self fun c hc => not_isBlank_of_isNameChar (h.chars c hc),
    Text.split_of_not_mem (dot_not_mem h.chars)]
  exact List.filter_cons_of_pos (by simpa using h.ne_nil)

theorem relativePath_of_isName {name : Text} (h : IsName name) (extension : Text) :
    relativePath name extension = Path.withSuffix name (extension.dropWhile (· = Path.suffixMark)) := by
  rw [relativePath, components_of_isName h]
  rfl

theorem IsName.head?_ne_separator {name : Text} (h : IsName name) (suffix : Text) :
    (Path.withSuffix name suffix).head? ≠ some Path.separator := by
  obtain ⟨c, rest, rfl⟩ := List.exists_cons_of_ne_nil h.ne_nil
  intro hslash
  obtain rfl : c = Path.separator := Option.some.inj hslash
  have hchar := h.chars _ List.mem_cons_self
  revert hchar
  decide

/-- Dropping the dots at the front leaves the extension as it is exactly when there are none. -/
theorem dropWhile_suffixMark_eq_self_iff {extension : Text} :
    extension.dropWhile (· = Path.suffixMark) = extension ↔ extension.head? ≠ some Path.suffixMark := by
  rw [List.dropWhile_eq_self_iff]
  cases extension <;> simp

/-- The name with the extension as it stands is the path of the class exactly when no dot begins the extension. -/
theorem withSuffix_eq_relativePath_iff {name : Text} (h : IsName name) (extension : Text) :
    Path.withSuffix name extension = relativePath name extension ↔ extension.head? ≠ some Path.suffixMark := by
  rw [relativePath_of_isName h, Path.withSuffix, Path.withSuffix, List.append_cancel_left_eq, List.cons.injEq,
    and_iff_right rfl, eq_comm]
  exact dropWhile_suffixMark_eq_self_iff

end Java

namespace Lookup

variable {s : Settings} {access : FileAccess} {b : Buffer} {file name : Text}

/-- The file beside the buffer is the last candidate, and the only one of its kind. -/
theorem exists_searchOrder_eq_append (s : Settings) (name : Text) (hfile : b.filePath = some file) (hne : file ≠ []) :
    ∃ earlier, searchOrder s b name = earlier ++
        [⟨Path.join (Path.directory file) (Path.withSuffix name s.extension), .sameDirectory, name, name⟩] ∧
      ∀ c ∈ earlier, c.strategy ≠ .sameDirectory := by
  refine ⟨_, by rw [searchOrder, hfile, Option.filter_some, if_pos (by simpa using hne)]; rfl, fun c hc hs => ?_⟩
  rw [List.mem_append, List.mem_append] at hc
  have hstrategy : c.strategy ∈ [Strategy.singleImport, .wildcardImport, .implicitPackage] := by
    rcases hc with (hc | hc) | hc <;> rw [strategy_of_mem_flatMap hc] <;> decide
  rw [hs] at hstrategy
  revert hstrategy
  decide

/-- When nothing is found before it, the last path that the chain asks about is that of the file beside the buffer. -/
theorem getLast?_probes_runChain (hfile : b.filePath = some file) (hne : file ≠ [])
    (hmissed : ∀ c ∈ searchOrder s b name, c.strategy ≠ .sameDirectory → access.readable c.path = false) :
    (probes (runChain s access b name).events).getLast? =
      some (Path.join (Path.directory file) (Path.withSuffix name s.extension)) := by
  obtain ⟨earlier, horder, hearlier⟩ := exists_searchOrder_eq_append s name hfile hne
  have hfollows := runChain_follows s access b name
  have hm : ∀ c ∈ earlier, access.readable c.path = false := fun c hc =>
    hmissed c (by rw [horder]; exact List.mem_append_left _ hc) (hearlier c hc)
  rw [horder] at hfollows
  cases hreadable : access.readable (Path.join (Path.directory file) (Path.withSuffix name s.extension)) with
  | true => rw [hfollows.probes_of_first hm hreadable, List.getLast?_concat]
  | false =>
    rw [hfollows.probes_of_missed, List.map_append, List.map_singleton, List.getLast?_concat]
    exact List.forall_mem_append.2 ⟨hm, List.forall_mem_singleton.2 hreadable⟩

/-- **The file beside the buffer is named like the source of the class, exactly when no dot begins the extension.** The
chain asks for it by the name of the class with the extension as it stands, and a lookup below the roots by the path of
the class. The two are the same unless a dot begins the extension, which that of a configuration never does. -/
theorem sibling_named_like_source_iff (s : Settings) (hfile : b.filePath = some file) (hne : file ≠ [])
    (hname : Java.IsName name) :
    (∀ access, (∀ c ∈ searchOrder s b name, c.strategy ≠ .sameDirectory → access.readable c.path = false) →
      (probes (runChain s access b name).events).getLast? =
          some (Path.join (Path.directory file) (Path.withSuffix name s.extension)) ∧
        ((probes (runChain s access b name).events).getLast? =
            some (Path.join (Path.directory file) (Java.relativePath name s.extension)) ↔
          s.extension.head? ≠ some Path.suffixMark)) ∧
    (∀ access b', ∃ tried, tried <+: s.searchPath ∧ probes (run s access b' (.resolve name)).events =
      tried.map fun root => Path.join root (Java.relativePath name s.extension)) ∧
    (Path.withSuffix name s.extension = Java.relativePath name s.extension ↔
      s.extension.head? ≠ some Path.suffixMark) ∧
    ∀ room config commandRoots environment p, Config.Preferences.ofConfig room config commandRoots environment = .ok p →
      s = p.settings room → s.extension.head? ≠ some Path.suffixMark := by
  have hiff := Java.withSuffix_eq_relativePath_iff hname s.extension
  refine ⟨fun access hmissed => ?_, fun access b' => exists_tried s access b' name, hiff, ?_⟩
  · have hlast := getLast?_probes_runChain hfile hne hmissed
    refine ⟨hlast, ?_⟩
    have hsource : (Java.relativePath name s.extension).head? ≠ some Path.separator := by
      rw [Java.relativePath_of_isName hname]
      exact hname.head?_ne_separator _
    rw [hlast, Option.some.injEq, Path.join_right_inj (hname.head?_ne_separator _) hsource]
    exact hiff
  · rintro room config commandRoots environment p hp rfl
    exact (Config.isSound_of_ofConfig hp).extension

/-- A class with a dollar sign in its name, an extension without a dot: beside the buffer and below a root the file is
`C$1.kt`. -/
theorem sibling_named_like_source_iff_of_plain_extension :
    let s : Settings := ⟨[Text.lit "r"], Text.lit "kt", none⟩
    let b := Buffer.ofText (Text.lit "C$1") (some (Text.lit "d/M.kt"))
    let access : FileAccess := ⟨fun _ => false, some⟩
    (b.filePath = some (Text.lit "d/M.kt") ∧ Text.lit "d/M.kt" ≠ [] ∧ Java.IsName (Text.lit "C$1")) ∧
    (probes (runChain s access b (Text.lit "C$1")).events).getLast? =
      some (Path.join (Text.lit "d") (Java.relativePath (Text.lit "C$1") s.extension)) ∧
    Path.withSuffix (Text.lit "C$1") s.extension = Java.relativePath (Text.lit "C$1") s.extension := by
  intro s b access
  have hname : Java.IsName (Text.lit "C$1") := ⟨by decide, by decide⟩
  have hne : Text.lit "d/M.kt" ≠ [] := by decide
  obtain ⟨hchain, -, hiff, -⟩ := sibling_named_like_source_iff s (b := b) rfl hne hname
  have hlast := (hchain access fun c _ _ => rfl).2.2 (by decide)
  exact ⟨⟨rfl, hne, hname⟩, hlast, hiff.2 (by decide)⟩

/-- An extension that begins with a dot: the chain asks for `Helper..java` beside the buffer, and the class is not found
though its file is there under the path that it would have below a root. -/
theorem sibling_with_two_dots :
    let s : Settings := ⟨[], Text.lit ".java", none⟩
    let b := Buffer.ofText (Text.lit "Helper") (some (Text.lit "Main.java"))
    let access : FileAccess := ⟨(· ∈ [Text.lit "Helper.java"]), fun path => some (Text.lit "/cwd/" ++ path)⟩
    Java.IsName (Text.lit "Helper") ∧ Java.relativePath (Text.lit "Helper") s.extension = Text.lit "Helper.java" ∧
    probes (run s access b (.atCursor 0)).events = [Text.lit "Helper..java"] ∧
    (run s access b (.atCursor 0)).outcome = some (.failed (.undeclared (Text.lit "Helper"))) :=
  ⟨⟨by decide, by decide⟩, by decide, by decide +kernel, by decide +kernel⟩

end Lookup

end SourceJump
