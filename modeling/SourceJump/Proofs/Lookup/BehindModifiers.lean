import SourceJump.Proofs.Java.Modifiers
import SourceJump.Proofs.Lookup.BaseClassAtCursor

/-!
# The base class behind modifiers and annotations

The command for the base class looks for what the class extends, unless a modifier hides it. One does when it stands on
the line of the word `class` and has a hyphen or a dollar sign in it, as `non-sealed` has and some annotations; the same
modifiers on lines of their own do not (`baseClass_behind_modifiers_iff`).
-/

namespace SourceJump.Lookup

open Java

/-- **Which modifiers hide the base class.** The text of the buffer declares the class of its file behind modifiers and
marker annotations, in any order and over any lines, and the word `class` stands nowhere else. The command for the base
class determines what the class extends, and does with it what the chain does, exactly when no hyphen and no dollar sign
stand before the word `class` on its line. Otherwise it fails and asks for no file. -/
theorem baseClass_behind_modifiers_iff (s : Settings) (access : FileAccess) (b : Buffer) {file : Text}
    (hfile : b.filePath = some file) (hne : file ≠ []) {base : Text}
    (d : ClassDeclaration b.text (Path.ofText file).stem base) :
    ((∀ failure, (run s access b .baseClass).outcome = some (.failed failure) →
      failure.kind ≠ .baseClassNotDetermined) ↔ d.IsPlain) ∧
    (d.IsPlain → (run s access b .baseClass).Agrees (runChain s access b base)) ∧
    (¬ d.IsPlain → ∃ point, run s access b .baseClass = .failed (.noBaseClass (Path.ofText file).stem) point) := by
  have hdetermined : d.IsPlain → (run s access b .baseClass).Agrees (runChain s access b base) := by
    intro h
    obtain ⟨m, hm, hgroups⟩ := d.exists_search h
    exact baseClass_agrees_with_runChain s access b hfile hne hm hgroups (dot_not_mem d.isName_base.chars)
  have hhidden : ¬ d.IsPlain → ∃ point,
      run s access b .baseClass = .failed (.noBaseClass (Path.ofText file).stem) point :=
    fun h => exists_run_baseClass_eq_failed s access hfile hne (d.search_eq_none h)
  refine ⟨⟨fun h => ?_, fun h failure hfailed => ?_⟩, hdetermined, hhidden⟩
  · by_contra hplain
    obtain ⟨point, hrun⟩ := hhidden hplain
    exact h _ (congrArg Run.outcome hrun) rfl
  · rw [(hdetermined h).outcome] at hfailed
    obtain rfl : Failure.undeclared base = failure := by
      simpa using (runChain_follows s access b base).missed_of_failed hfailed
    nofun

/-- Modifiers that would hide the base class stand on the lines before. -/
theorem baseClass_behind_modifiers_iff_of_lines :
    let s : Settings := ⟨[], Text.lit "java", none⟩
    let b : Buffer := ⟨Text.lit "\n@A$ non-sealed\npublic\tclass N extends B \x7b", some (Text.lit "d/N.java"), 9⟩
    let access : FileAccess := ⟨fun path => path ∈ [Text.lit "d/B.java"], some⟩
    (b.filePath = some (Text.lit "d/N.java") ∧ Text.lit "d/N.java" ≠ []) ∧
      (∃ d : ClassDeclaration b.text (Path.ofText (Text.lit "d/N.java")).stem (Text.lit "B"), d.IsPlain) ∧
      (run s access b .baseClass).outcome = some (.opened ⟨Text.lit "d/B.java", .sameDirectory, Text.lit "B"⟩) := by
  intro s b access
  have hannotation : IsModifier (Text.lit "@A$") := Or.inr ⟨Text.lit "A$", rfl, by decide, by decide⟩
  have hsealed : IsModifier (Text.lit "non-sealed") := Or.inl (by decide)
  have hpublic : IsModifier (Text.lit "public") := Or.inl (by decide)
  have hrow : IsModifierRow (Text.lit "@A$" ++ (Text.lit " " ++ (Text.lit "non-sealed" ++ (Text.lit "\n" ++
      (Text.lit "public" ++ (Text.lit "\t" ++ [])))))) :=
    .cons hannotation (by decide) (by decide) (.cons hsealed (by decide) (by decide)
      (.cons hpublic (by decide) (by decide) .nil))
  let d : ClassDeclaration b.text (Path.ofText (Text.lit "d/N.java")).stem (Text.lit "B") := {
    before := Text.lit "\n"
    modifiers := Text.lit "@A$ non-sealed\npublic\t"
    gap := Text.lit " "
    gap₁ := Text.lit " "
    gap₂ := Text.lit " "
    gap₃ := Text.lit " "
    rest := []
    text_eq := by decide +kernel
    startsLine := by decide
    isModifierRow := hrow
    gap_ne_nil := by decide
    isGap := by decide
    gap₁_ne_nil := by decide
    isGap₁ := by decide
    gap₂_ne_nil := by decide
    isGap₂ := by decide
    isGap₃ := by decide
    isName_base := ⟨by decide, by decide⟩
    only := fun p hp => hp.eq_of_forall_lt (by decide) (by decide +kernel) }
  have hline : CodePoint.char '-' ∉ Text.lastRun (· ≠ '\n') (Text.lit "@A$ non-sealed\npublic\t") ∧
      CodePoint.char '$' ∉ Text.lastRun (· ≠ '\n') (Text.lit "@A$ non-sealed\npublic\t") := by decide +kernel
  have hplain : d.IsPlain := hline
  have hne : Text.lit "d/N.java" ≠ [] := by decide
  refine ⟨⟨rfl, hne⟩, ⟨d, hplain⟩, ?_⟩
  rw [((baseClass_behind_modifiers_iff s access b rfl hne d).2.1 hplain).outcome]
  decide +kernel

/-- The modifier `non-sealed` on the line of the word `class`: the base class is not determined, though its file is
there. -/
theorem baseClass_hidden_by_modifier :
    let s : Settings := ⟨[], Text.lit "java", some (Text.lit "java.lang")⟩
    let b := Buffer.ofText (Text.lit "public non-sealed class N extends Base \x7b\x7d") (some (Text.lit "N.java"))
    let access : FileAccess := ⟨(· ∈ [Text.lit "Base.java"]), fun path => some (Text.lit "/cwd/" ++ path)⟩
    Nonempty (ClassDeclaration b.text (Path.ofText (Text.lit "N.java")).stem (Text.lit "Base")) ∧
      (run s access b .baseClass).outcome = some (.failed (.noBaseClass (Text.lit "N"))) ∧
      (Failure.noBaseClass (Text.lit "N")).kind = .baseClassNotDetermined := by
  intro s b access
  have hpublic : IsModifier (Text.lit "public") := Or.inl (by decide)
  have hsealed : IsModifier (Text.lit "non-sealed") := Or.inl (by decide)
  have hrow : IsModifierRow (Text.lit "public" ++ (Text.lit " " ++ (Text.lit "non-sealed" ++ (Text.lit " " ++ [])))) :=
    .cons hpublic (by decide) (by decide) (.cons hsealed (by decide) (by decide) .nil)
  refine ⟨⟨{
    before := []
    modifiers := Text.lit "public non-sealed "
    gap := Text.lit " "
    gap₁ := Text.lit " "
    gap₂ := Text.lit " "
    gap₃ := Text.lit " "
    rest := Text.lit "\x7d"
    text_eq := by decide +kernel
    startsLine := by decide
    isModifierRow := hrow
    gap_ne_nil := by decide
    isGap := by decide
    gap₁_ne_nil := by decide
    isGap₁ := by decide
    gap₂_ne_nil := by decide
    isGap₂ := by decide
    isGap₃ := by decide
    isName_base := ⟨by decide, by decide⟩
    only := fun p hp => hp.eq_of_forall_lt (by decide) (by decide +kernel) }⟩, ?_, rfl⟩
  decide +kernel

end SourceJump.Lookup
