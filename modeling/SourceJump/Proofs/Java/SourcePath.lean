import SourceJump.Java.Import
import SourceJump.Proofs.Text.Classes
import SourceJump.Proofs.Text.Split

/-!
# Source files lie below their root

The file of a class is looked for below a source root under a path that is made from the name of the class. Empty
components are left out, and the dots are cut away, so that no component of the path is `.` or `..` and the path does
not begin with a slash, whatever dots and blanks the name has. All it takes is that neither the name nor the extension
holds a slash and that there is something else than dots in the name (`staysBelow_relativePath`).
-/

namespace SourceJump

namespace Path

/-- The path does not begin with a slash, and none of the parts between its slashes is empty, a dot or two dots. -/
structure StaysBelow (rel : Text) : Prop where
  relative : rel.head? ≠ some separator
  parts : ∀ part ∈ rel.split separator, part ≠ [] ∧ part ≠ Text.lit "." ∧ part ≠ Text.lit ".."

/-- The path is that of something below the directory `root`, which it begins with. -/
def IsBelow (root path : Text) : Prop :=
  ∃ rel, path = join root rel ∧ StaysBelow rel ∧ root <+: path

/-- Nothing is thrown away of the directory when a path that does not begin with a slash is put behind it. -/
theorem prefix_join (root : Text) {rel : Text} (h : rel.head? ≠ some separator) : root <+: join root rel := by
  rw [join, if_neg h]
  split
  · exact List.prefix_append root rel
  · exact List.prefix_append root _

theorem StaysBelow.isBelow {rel : Text} (h : StaysBelow rel) (root : Text) : IsBelow root (join root rel) :=
  ⟨rel, rfl, h, prefix_join root h.relative⟩

/-- A path with no empty part does not begin with a slash. -/
theorem StaysBelow.of_parts {rel : Text}
    (h : ∀ part ∈ rel.split separator, part ≠ [] ∧ part ≠ Text.lit "." ∧ part ≠ Text.lit "..") : StaysBelow rel := by
  refine ⟨fun hhead => ?_, h⟩
  cases rel with
  | nil => cases hhead
  | cons c rel =>
    obtain rfl : c = separator := by simpa using hhead
    rw [Text.split_cons_self] at h
    exact (h [] List.mem_cons_self).1 rfl

/-- A part that begins with something else than a dot leads further down. -/
theorem part_of_head {part : Text} {c : CodePoint} (h : part.head? = some c) (hne : c ≠ suffixMark) :
    part ≠ [] ∧ part ≠ Text.lit "." ∧ part ≠ Text.lit ".." := by
  refine ⟨?_, ?_, ?_⟩ <;> rintro rfl
  · cases h
  · exact hne (Option.some.inj h).symm
  · exact hne (Option.some.inj h).symm

end Path

namespace Java

/-- The text can be the name of a class: it holds a name character and no slash. -/
structure NamesFile (name : Text) : Prop where
  slash : CodePoint.char '/' ∉ name
  named : ∃ c ∈ name, isNameChar c = true

theorem ne_dot_of_isNameChar {c : CodePoint} (h : isNameChar c = true) : c ≠ '.' := by
  rintro rfl
  revert h
  decide

theorem not_isBlank_of_isNameChar {c : CodePoint} (h : isNameChar c = true) : isBlank c = false :=
  not_isBlank_of_isDottedChar (isDottedChar_of_isNameChar h)

theorem mem_components {name component : Text} (h : component ∈ components name) :
    component ≠ [] ∧ CodePoint.char '.' ∉ component ∧ ∀ c ∈ component, c ∈ name := by
  obtain ⟨hsplit, hne⟩ := List.mem_filter.1 h
  exact ⟨by simpa using hne, Text.not_mem_of_mem_split hsplit,
    fun c hc => Text.mem_of_mem_strip (Text.mem_of_mem_split hsplit hc)⟩

/-- A component begins with something else than a dot. -/
theorem head?_of_mem_components {name component : Text} (h : component ∈ components name) :
    ∃ c, component.head? = some c ∧ c ≠ Path.suffixMark := by
  obtain ⟨hne, hdot, -⟩ := mem_components h
  obtain ⟨c, rest, rfl⟩ := List.exists_cons_of_ne_nil hne
  exact ⟨c, rfl, fun hc => hdot (hc ▸ List.mem_cons_self)⟩

theorem NamesFile.components_ne_nil {name : Text} (h : NamesFile name) : components name ≠ [] := by
  obtain ⟨c, hc, hchar⟩ := h.named
  obtain ⟨piece, hpiece, hmem⟩ :=
    Text.exists_mem_split (Text.mem_strip hc (not_isBlank_of_isNameChar hchar)) (ne_dot_of_isNameChar hchar)
  have hcomponent : piece ∈ components name := List.mem_filter.2 ⟨hpiece, by cases piece <;> simp_all⟩
  exact List.ne_nil_of_mem hcomponent

/-- The pieces between the slashes of the path of a class are the components of its name, the last one with the
extension. -/
theorem split_relativePath {name extension last : Text} {front : List Text} (hname : CodePoint.char '/' ∉ name)
    (hextension : CodePoint.char '/' ∉ extension) (hcut : components name = front ++ [last]) :
    (relativePath name extension).split Path.separator =
      front ++ [Path.withSuffix last (extension.dropWhile (· = Path.suffixMark))] := by
  have hslash : ∀ component ∈ front ++ [last], Path.separator ∉ component := fun component h hc =>
    hname ((mem_components (hcut ▸ h)).2.2 _ hc)
  rw [relativePath, hcut, Path.withSuffix, Path.withSuffix, Text.join_append, Text.split_join (by simp)]
  intro part hpart
  rcases List.mem_append.1 hpart with hpart | hpart
  · exact hslash part (List.mem_append_left _ hpart)
  · obtain rfl := List.mem_singleton.1 hpart
    exact Text.not_mem_append_cons (hslash last (by simp)) (by decide) fun hc =>
      hextension ((List.dropWhile_sublist _).mem hc)

theorem NamesFile.exists_components {name : Text} (h : NamesFile name) :
    ∃ front last, components name = front ++ [last] :=
  (List.eq_nil_or_concat' (components name)).resolve_left h.components_ne_nil

/-- **The path of a class below a source root does not lead out of it.** -/
theorem staysBelow_relativePath {name extension : Text} (hname : NamesFile name)
    (hextension : CodePoint.char '/' ∉ extension) : Path.StaysBelow (relativePath name extension) := by
  obtain ⟨front, last, hcut⟩ := hname.exists_components
  have hparts := split_relativePath hname.slash hextension hcut
  have hcomponents : ∀ component ∈ front ++ [last], component ∈ components name := fun _ h => hcut ▸ h
  refine Path.StaysBelow.of_parts fun part hpart => ?_
  rw [hparts] at hpart
  rcases List.mem_append.1 hpart with hpart | hpart
  · obtain ⟨c, hhead, hne⟩ := head?_of_mem_components (hcomponents part (List.mem_append_left _ hpart))
    exact Path.part_of_head hhead hne
  · -- The last component begins the last part, so that its first character does.
    obtain rfl := List.mem_singleton.1 hpart
    obtain ⟨c, hhead, hne⟩ := head?_of_mem_components (hcomponents last (by simp))
    exact Path.part_of_head (by rw [Path.withSuffix, List.head?_append, hhead, Option.some_or]) hne

end Java

end SourceJump
