import SourceJump.CommandLine.Invocation
import Mathlib.Data.List.Basic

/-!
# What an invocation names stands on the command line

Reading a command line sorts its words and takes them one after the other. What a command is told are words that
were given for it, as they were given, and two hyphens stand for a file that got lost. So the file of an invocation is
a word of the command line, or two hyphens (`file_of_parse`).
-/

namespace SourceJump.CommandLine

variable {edition : Edition}

theorem exists_of_bind_eq_ok {ε α β : Type} {x : Except ε α} {f : α → Except ε β} {b : β} (h : x >>= f = .ok b) :
    ∃ a, x = .ok a ∧ f a = .ok b := by
  cases x with
  | error e => cases h
  | ok a => exact ⟨a, rfl, h⟩

theorem eq_ok_of_mapError_eq_ok {ε ε' α : Type} {x : Except ε α} {f : ε → ε'} {a : α} (h : x.mapError f = .ok a) :
    x = .ok a := by
  cases x with
  | error e => cases h
  | ok b => rw [Except.ok.inj h]

/-! ### Sorting and taking words -/

/-- The texts of some words. -/
def texts (words : List Word) : List Text := words.map (·.text)

/-- What the positional words say are texts from the list. -/
def FromTexts (values : List (Option Text)) (all : List Text) : Prop := ∀ value ∈ values, ∀ t ∈ value, t ∈ all

theorem FromTexts.mono {values : List (Option Text)} {all all' : List Text} (h : FromTexts values all)
    (hsubset : all ⊆ all') : FromTexts values all' := fun value hvalue t ht => hsubset (h value hvalue t ht)

theorem FromTexts.append {values values' : List (Option Text)} {all : List Text} (h : FromTexts values all)
    (h' : FromTexts values' all) : FromTexts (values ++ values') all := by
  intro value hvalue
  rcases List.mem_append.1 hvalue with hvalue | hvalue
  · exact h value hvalue
  · exact h' value hvalue

theorem fromTexts_nil (all : List Text) : FromTexts [] all := by simp [FromTexts]

theorem FromTexts.headD {values : List (Option Text)} {all : List Text} (h : FromTexts values all) (t : Text) :
    (values.headD none).getD t = t ∨ (values.headD none).getD t ∈ all := by
  cases values with
  | nil => exact Or.inl rfl
  | cons value values =>
    cases value with
    | none => exact Or.inl rfl
    | some said => exact Or.inr (h (some said) List.mem_cons_self said rfl)

theorem texts_subset_of_suffix {words words' : List Word} (h : words' <:+ words) : texts words' ⊆ texts words :=
  List.map_subset _ h.subset

/-- Sorting leaves the texts of the words as they are. -/
theorem texts_classifyAll {g : Grammar} {arguments : List Text} {words : List Word}
    (h : classifyAll g arguments = .ok words) : texts words = arguments := by
  induction arguments generalizing words with
  | nil =>
    obtain rfl := Except.ok.inj h
    rfl
  | cons word rest ih =>
    rw [classifyAll] at h
    split at h
    · obtain rfl := Except.ok.inj h
      simp [texts, Function.comp_def]
    · obtain ⟨kind, -, h⟩ := exists_of_bind_eq_ok h
      obtain ⟨others, hothers, h⟩ := exists_of_bind_eq_ok h
      obtain rfl := Except.ok.inj h
      exact congrArg (word :: ·) (ih hothers)

/-- Options take words from the front. -/
theorem suffix_of_useOptions {g : Grammar} {steps : Nat} {spec : OptionSpec} {spelling : Text}
    {attached : Option Attached} {rest : List Word} {used : Used}
    (h : useOptions edition g steps spec spelling attached rest = .ok used) : used.rest <:+ rest := by
  fun_induction useOptions edition g steps spec spelling attached rest generalizing used with
  | case1 | case4 | case9 =>
    obtain rfl := Except.ok.inj h
    exact List.suffix_rfl
  | case2 | case3 | case6 | case8 => cases h
  | case5 =>
    rename_i ih
    obtain ⟨others, hothers, h⟩ := exists_of_bind_eq_ok h
    obtain rfl := Except.ok.inj h
    exact @ih others hothers
  | case7 =>
    rename_i hrest
    obtain rfl := Except.ok.inj h
    rw [hrest]
    exact List.suffix_cons _ _

theorem exists_of_takePositional? {words rest : List Word} {taken : List Text}
    (h : takePositional? words = some (taken, rest)) : ∃ used, words = used ++ rest ∧ taken = texts used := by
  unfold takePositional? at h
  split at h
  · obtain ⟨rfl, rfl⟩ := Prod.mk.inj (Option.some.inj h)
    exact ⟨[_, _], rfl, rfl⟩
  · obtain ⟨rfl, rfl⟩ := Prod.mk.inj (Option.some.inj h)
    exact ⟨[_, _], rfl, rfl⟩
  · obtain ⟨rfl, rfl⟩ := Prod.mk.inj (Option.some.inj h)
    exact ⟨[_], rfl, rfl⟩
  · cases h

/-- What positional words say is taken from the words. -/
theorem fromTexts_takePositionals (count : Nat) (words : List Word) :
    FromTexts (takePositionals count words).1 (texts words) := by
  induction count generalizing words with
  | zero => exact fromTexts_nil _
  | succ count ih =>
    rw [takePositionals]
    split
    · exact fromTexts_nil _
    · next taken rest htaken =>
      obtain ⟨used, rfl, rfl⟩ := exists_of_takePositional? htaken
      have hrest : FromTexts (takePositionals count rest).1 (texts (used ++ rest)) :=
        (ih rest).mono (texts_subset_of_suffix (List.suffix_append _ _))
      intro value hvalue t ht
      rcases List.mem_cons.1 hvalue with rfl | hvalue
      · have hused : t ∈ texts used := List.mem_of_mem_erase (List.mem_of_mem_head? ht)
        rw [texts, List.map_append]
        exact List.mem_append_left _ hused
      · exact hrest value hvalue t ht

/-! ### The words of a command -/

theorem untilOption_append {words run rest : List Word} (h : untilOption words = (run, rest)) :
    words = run ++ rest := by
  obtain ⟨rfl, rfl⟩ := Prod.mk.inj h
  exact List.takeWhile_append_dropWhile.symm

theorem fromTexts_readCommandWords {command : CommandName} {steps wanted : Nat} {words : List Word}
    {found : CommandWords} (h : readCommandWords edition command steps wanted words = .ok found) :
    FromTexts found.values (texts words) := by
  fun_induction readCommandWords edition command steps wanted words generalizing found with
  | case1 | case2 =>
    obtain rfl := Except.ok.inj h
    exact fromTexts_nil _
  | case3 =>
    rename_i ih
    obtain ⟨others, hothers, h⟩ := exists_of_bind_eq_ok h
    obtain rfl := Except.ok.inj h
    exact (ih hothers).mono (List.subset_cons_self _ _)
  | case4 =>
    obtain ⟨_, -, h⟩ := exists_of_bind_eq_ok h
    cases h
  | case5 _ wanted =>
    rename_i run rest hrun values left htaken ih
    obtain ⟨others, hothers, h⟩ := exists_of_bind_eq_ok h
    obtain rfl := Except.ok.inj h
    have hvalues : FromTexts values (texts run) := by
      have htexts := fromTexts_takePositionals wanted run
      rwa [htaken] at htexts
    rw [untilOption_append hrun]
    refine FromTexts.append (hvalues.mono ?_) ((ih hothers).mono ?_)
    · exact List.map_subset _ (List.subset_append_left _ _)
    · exact List.map_subset _ (List.subset_append_right _ _)

theorem fromTexts_readCommand {command : CommandName} {arguments : List Text} {found : CommandWords}
    (h : readCommand edition command arguments = .ok found) : FromTexts found.values arguments := by
  obtain ⟨words, hwords, h⟩ := exists_of_bind_eq_ok h
  obtain ⟨read, hread, h⟩ := exists_of_bind_eq_ok h
  dsimp only at h
  split at h
  · obtain rfl := Except.ok.inj h
    have hvalues := fromTexts_readCommandWords hread
    rwa [texts_classifyAll (eq_ok_of_mapError_eq_ok hwords)] at hvalues
  · cases h

/-! ### The words of the program -/

/-- Two hyphens stand for a file that got lost. -/
theorem file_of_readInvocation {o : ProgramOptions} {extras words : List Text} {i : Invocation}
    (h : readInvocation edition o extras words = .ok i) : i.file = longMark ∨ i.file ∈ words := by
  unfold readInvocation at h
  split at h
  · cases h
  · next word arguments =>
    split at h
    · cases h
    · next command hcommand =>
      obtain ⟨found, hfound, h⟩ := exists_of_bind_eq_ok h
      dsimp only at h
      split at h
      · cases h
      · obtain rfl := Except.ok.inj h
        exact ((fromTexts_readCommand hfound).headD longMark).imp_right (List.mem_cons_of_mem word)

theorem file_of_readProgramWords {steps : Nat} {o : ProgramOptions} {extras : List Text} {words : List Word}
    {i : Invocation} (h : readProgramWords edition steps o extras words = .ok i) :
    i.file = longMark ∨ i.file ∈ texts words := by
  have hnone : ∀ {o extras}, readInvocation edition o extras [] = .ok i → i.file = longMark := fun hread =>
    (file_of_readInvocation hread).resolve_right List.not_mem_nil
  fun_induction readProgramWords edition steps o extras words with
  | case1 | case2 | case3 => exact Or.inl (hnone h)
  | case4 =>
    rename_i ih
    exact (ih h).imp_right (List.mem_cons_of_mem _)
  | case5 =>
    rename_i ih
    obtain ⟨used, hused, h⟩ := exists_of_bind_eq_ok h
    obtain ⟨o, -, h⟩ := exists_of_bind_eq_ok h
    have hsuffix := suffix_of_useOptions (eq_ok_of_mapError_eq_ok hused)
    exact (ih used o h).imp_right fun hfile => texts_subset_of_suffix (hsuffix.trans (List.suffix_cons _ _)) hfile
  | case6 => exact file_of_readInvocation h

/-- The file of an invocation stands on the command line, unless two hyphens stand for it. -/
theorem file_of_parse {arguments : List Text} {i : Invocation} (h : parse edition arguments = .invocation i) :
    i.file = longMark ∨ i.file ∈ arguments := by
  unfold parse at h
  dsimp only at h
  split at h
  · next j hread =>
    obtain rfl := Parsed.invocation.inj h
    obtain ⟨words, hwords, hread⟩ := exists_of_bind_eq_ok hread
    have hfile := file_of_readProgramWords hread
    rwa [texts_classifyAll (eq_ok_of_mapError_eq_ok hwords)] at hfile
  · cases h
  · cases h

end SourceJump.CommandLine
