import SourceJump.Proofs.Java.DottedName
import SourceJump.Proofs.Java.SourcePath
import SourceJump.Proofs.Path.Parts

/-!
# The path of a class gives its name back

The path of a class is made of the components of its name with slashes between them and the extension behind the last
one. No component holds a slash, so that the components are the pieces of the path again once the extension is taken
away, and two classes have the same path only when their names have the same components (`relativePath_eq_iff`). The
last component is the name of the file without its suffix, below whatever root the path is put (`stem_ofText_join`): the
extension holds no dot, so that nothing but the extension is the suffix.
-/

namespace SourceJump.Java

/-- The pieces between the dots of a name, the empty ones left out. -/
def pieces (name : Text) : List Text :=
  (name.split '.').filter (! ·.isEmpty)

/-- Characters of dotted names, with something between or beside the dots. -/
structure NamesClass (name : Text) : Prop where
  chars : ∀ c ∈ name, isDottedChar c = true
  named : pieces name ≠ []

variable {name name' extension own root : Text} {front : List Text}

theorem components_eq_pieces (h : ∀ c ∈ name, isDottedChar c = true) : components name = pieces name := by
  rw [components, Text.strip_eq_self fun c hc => not_isBlank_of_isDottedChar (h c hc), pieces]

theorem NamesClass.namesFile (h : NamesClass name) : NamesFile name := by
  refine ⟨slash_not_mem_of_isDottedChar h.chars, ?_⟩
  obtain ⟨piece, hpiece⟩ := List.exists_mem_of_ne_nil _ h.named
  obtain ⟨hsplit, hne⟩ := List.mem_filter.1 hpiece
  obtain ⟨c, rest, rfl⟩ := List.exists_cons_of_ne_nil (by simpa using hne : piece ≠ [])
  have hmem : c ∈ name := Text.mem_of_mem_split hsplit List.mem_cons_self
  have hdot : c ≠ '.' := fun heq => Text.not_mem_of_mem_split hsplit (heq ▸ List.mem_cons_self)
  refine ⟨c, hmem, ?_⟩
  have hchar := h.chars c hmem
  rw [isDottedChar, Bool.or_eq_true, beq_iff_eq] at hchar
  exact hchar.resolve_right hdot

/-- There are no dots to drop from an extension without dots. -/
theorem dropWhile_suffixMark_of_not_mem (h : Path.suffixMark ∉ extension) :
    extension.dropWhile (· = Path.suffixMark) = extension :=
  Text.dropWhile_eq_self fun _ hc => decide_eq_false fun heq => h (heq ▸ hc)

/-- Without the extension, the pieces of the path are the components of the name. -/
theorem split_join_components (h : NamesFile name) :
    (Text.join [Path.separator] (components name)).split Path.separator = components name :=
  Text.split_join h.components_ne_nil fun _ hcomponent hc => h.slash ((mem_components hcomponent).2.2 _ hc)

/-- Two classes have the same path when their names have the same components, and only then. -/
theorem relativePath_eq_iff (h : NamesFile name) (h' : NamesFile name') (extension : Text) :
    relativePath name extension = relativePath name' extension ↔ components name = components name' := by
  constructor
  · intro heq
    have hjoin := List.append_cancel_right heq
    rw [← split_join_components h, hjoin, split_join_components h']
  · intro heq
    rw [relativePath, heq, relativePath]

/-- The file of a class is named for the last component of the class's name. -/
theorem stem_ofText_join (h : NamesFile name) (hne : extension ≠ []) (hdot : Path.suffixMark ∉ extension)
    (hslash : CodePoint.char '/' ∉ extension) (hcut : components name = front ++ [own]) :
    (Path.ofText (Path.join root (relativePath name extension))).stem = own := by
  have hown : own ≠ [] := (mem_components (by rw [hcut]; simp : own ∈ components name)).1
  have hsplit := split_relativePath h.slash hslash hcut
  rw [dropWhile_suffixMark_of_not_mem hdot] at hsplit
  have hname := Path.name_ofText_join root (staysBelow_relativePath h hslash).relative hsplit
    (Path.isPart_withSuffix hown extension)
  rw [Path.stem, hname, Path.withoutSuffix_withSuffix hown hne hdot]

end SourceJump.Java
