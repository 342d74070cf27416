import SourceJump.Proofs.Lookup.Chain

/-!
# More files and roots lose no class

The candidates of the chain come in the order of its steps (`orderedUpTo_searchOrder`), and more roots only add
candidates (`searchOrder_subset`). So a candidate that was readable is still there and still readable when files and
roots are added, and what is found then stands before it or is the candidate itself: the class is found by the same step
or by an earlier one (`atCursor_keeps_found`).
-/

namespace SourceJump.Lookup

/-- The steps of the chain, first to last. -/
def chainSteps : List Strategy := [.singleImport, .wildcardImport, .implicitPackage, .sameDirectory]

/-- The place of a step in the chain. -/
def Strategy.rank (strategy : Strategy) : Nat := chainSteps.idxOf strategy

/-! ### The search order follows the chain -/

/-- The candidates are in the order of the chain and come from no step after the given one. -/
structure OrderedUpTo (step : Strategy) (cs : List Candidate) : Prop where
  sorted : cs.Pairwise fun c d => c.strategy.rank ≤ d.strategy.rank
  le : ∀ c ∈ cs, c.strategy.rank ≤ step.rank

theorem OrderedUpTo.of_strategy {step : Strategy} {cs : List Candidate} (h : ∀ c ∈ cs, c.strategy = step) :
    OrderedUpTo step cs := by
  refine ⟨List.pairwise_of_forall_mem_list fun c hc d hd => ?_, fun c hc => ?_⟩
  · rw [h c hc, h d hd]
  · rw [h c hc]

/-- The candidates of a later step stand behind. -/
theorem OrderedUpTo.append (step next : Strategy) {cs ds : List Candidate} (h : OrderedUpTo step cs)
    (hle : step.rank ≤ next.rank) (hds : ∀ d ∈ ds, d.strategy = next) : OrderedUpTo next (cs ++ ds) := by
  have hbefore : ∀ c ∈ cs, c.strategy.rank ≤ next.rank := fun c hc => (h.le c hc).trans hle
  have hlast : OrderedUpTo next ds := .of_strategy hds
  refine ⟨List.pairwise_append.2 ⟨h.sorted, hlast.sorted, fun c hc d hd => ?_⟩, ?_⟩
  · rw [hds d hd]
    exact hbefore c hc
  · exact List.forall_mem_append.2 ⟨hbefore, hlast.le⟩

theorem orderedUpTo_searchOrder (s : Settings) (b : Buffer) (name : Text) :
    OrderedUpTo .sameDirectory (searchOrder s b name) := by
  have hsource : ∀ {α : Type} {sources : List α} {fullName : α → Text} (strategy : Strategy),
      ∀ c ∈ sources.flatMap fun i => s.candidates strategy name (fullName i), c.strategy = strategy :=
    fun strategy c hc => strategy_of_mem_flatMap hc
  refine .append .implicitPackage _ (.append .wildcardImport _ (.append .singleImport _ ?_ ?_ ?_) ?_ ?_) ?_ ?_
  · exact .of_strategy (hsource _)
  · decide
  · exact hsource _
  · decide
  · exact hsource _
  · decide
  · intro c hc
    obtain ⟨file, -, rfl⟩ := List.mem_map.1 hc
    rfl

/-- All candidates come from steps of the chain. -/
theorem strategy_mem_chainSteps {s : Settings} {b : Buffer} {name : Text} {c : Candidate}
    (h : c ∈ searchOrder s b name) : c.strategy ∈ chainSteps := by
  have hle := (orderedUpTo_searchOrder s b name).le c h
  rw [← List.idxOf_lt_length_iff]
  exact hle.trans_lt (by decide)

/-! ### More roots -/

/-- What is a candidate below some roots is one below more roots. -/
theorem mem_flatMap_candidates_of_subset {α : Type} {roots roots' : List Text} (h : roots ⊆ roots')
    {extension : Text} {package : Option Text} {strategy : Strategy} {name : Text} {sources : List α}
    {fullName : α → Text} {c : Candidate}
    (hc : c ∈ sources.flatMap fun i =>
      Settings.candidates ⟨roots, extension, package⟩ strategy name (fullName i)) :
    c ∈ sources.flatMap fun i => Settings.candidates ⟨roots', extension, package⟩ strategy name (fullName i) := by
  obtain ⟨i, hi, hc⟩ := List.mem_flatMap.1 hc
  exact List.mem_flatMap.2 ⟨i, hi, List.map_subset _ h hc⟩

/-- More roots leave no candidate out. -/
theorem searchOrder_subset {roots roots' : List Text} (h : roots ⊆ roots') (extension : Text) (package : Option Text)
    (b : Buffer) (name : Text) :
    searchOrder ⟨roots, extension, package⟩ b name ⊆ searchOrder ⟨roots', extension, package⟩ b name := by
  intro c hc
  rw [searchOrder, List.mem_append, List.mem_append, List.mem_append] at hc ⊢
  rcases hc with ((himport | hwildcard) | hpackage) | hsibling
  · exact .inl (.inl (.inl (mem_flatMap_candidates_of_subset h himport)))
  · exact .inl (.inl (.inr (mem_flatMap_candidates_of_subset h hwildcard)))
  · exact .inl (.inr (mem_flatMap_candidates_of_subset h hpackage))
  · exact .inr hsibling

/-! ### What is found with more files and roots -/

/-- The step of the file beside the buffer is the last. -/
theorem eq_sameDirectory_of_rank_le {strategy : Strategy} (h : strategy ∈ chainSteps)
    (hle : Strategy.sameDirectory.rank ≤ strategy.rank) : strategy = .sameDirectory := by
  revert hle h
  cases strategy <;> decide

/-- There is one file beside the buffer that is asked about. -/
theorem path_eq_of_sameDirectory {s : Settings} {b : Buffer} {name : Text} {c d : Candidate}
    (hc : c ∈ searchOrder s b name) (hd : d ∈ searchOrder s b name) (hcs : c.strategy = .sameDirectory)
    (hds : d.strategy = .sameDirectory) : c.path = d.path := by
  rcases mem_searchOrder_cases hc with ⟨strategy, fullName, hne, hmem⟩ | ⟨file, hfile, rfl⟩
  · exact absurd ((strategy_of_mem_candidates hmem).symm.trans hcs) hne
  · rcases mem_searchOrder_cases hd with ⟨strategy, fullName, hne, hmem⟩ | ⟨file', hfile', rfl⟩
    · exact absurd ((strategy_of_mem_candidates hmem).symm.trans hds) hne
    · obtain rfl := Option.some.inj (hfile.symm.trans hfile')
      rfl

/-- A readable candidate of an ordered row does not stand before the first readable one. -/
theorem exists_first_rank_le (access : FileAccess) {step : Strategy} {cs : List Candidate} (h : OrderedUpTo step cs)
    {c : Candidate} (hc : c ∈ cs) (hreadable : access.readable c.path = true) :
    ∃ misses d rest, cs = misses ++ d :: rest ∧ (∀ m ∈ misses, access.readable m.path = false) ∧
      access.readable d.path = true ∧ d.strategy.rank ≤ c.strategy.rank := by
  rcases first_readable_cases access cs with hm | ⟨misses, d, rest, rfl, hm, hd⟩
  · rw [hm c hc] at hreadable
    cases hreadable
  · refine ⟨misses, d, rest, rfl, hm, hd, ?_⟩
    rcases List.mem_append.1 hc with hmiss | hlater
    · rw [hm c hmiss] at hreadable
      cases hreadable
    · rcases List.mem_cons.1 hlater with rfl | hlater
      · exact le_rfl
      · exact List.rel_of_pairwise_cons (List.pairwise_append.1 h.sorted).2.1 hlater

/-- What a lookup at the cursor has found is a readable candidate. -/
theorem exists_candidate_of_opened {s : Settings} {access : FileAccess} {b : Buffer} {offset : Int} {found : Found}
    (h : (run s access b (.atCursor offset)).outcome = some (.opened found)) :
    Buffer.wordAt b.text offset ≠ [] ∧ ∃ c ∈ searchOrder s b (Buffer.wordAt b.text offset),
      access.readable c.path = true ∧ c.openedPath? access = some found.path ∧ c.strategy = found.strategy ∧
      found.className = Buffer.wordAt b.text offset := by
  have hne : Buffer.wordAt b.text offset ≠ [] := by
    intro hword
    simp only [run, hword] at h
    cases h
  have hfollows := run_atCursor_follows s access b rfl hne
  refine ⟨hne, ?_⟩
  rcases first_readable_cases access (searchOrder s b (Buffer.wordAt b.text offset)) with
    hm | ⟨misses, c, rest, hsplit, hm, hc⟩
  · rw [(hfollows.of_missed hm).2] at h
    cases h
  · have hmem : c ∈ searchOrder s b (Buffer.wordAt b.text offset) := by simp [hsplit]
    rw [hsplit] at hfollows
    rw [hfollows.outcome_of_first hm hc] at h
    cases hpath : c.openedPath? access with
    | none =>
      rw [hpath] at h
      cases h
    | some path =>
      rw [hpath] at h
      obtain rfl := Outcome.opened.inj (Option.some.inj h)
      exact ⟨c, hmem, hc, hpath, rfl, className_of_mem_searchOrder hmem⟩

/-- **More files and roots lose no class.** What the lookup at the cursor finds with some readable files and roots, it
finds with more of them in any order, by the same step of the chain or by an earlier one. The absolute forms of paths are
the same both times, as they do not depend on the files. -/
theorem atCursor_keeps_found {roots roots' : List Text} (hroots : roots ⊆ roots') {readable readable' : Text → Bool}
    (hreadable : ∀ path, readable path = true → readable' path = true) (absolute? : Text → Option Text)
    (extension : Text) (package : Option Text) (b : Buffer) (offset : Int) {found : Found}
    (h : (run ⟨roots, extension, package⟩ ⟨readable, absolute?⟩ b (.atCursor offset)).outcome =
      some (.opened found)) :
    ∃ found', (run ⟨roots', extension, package⟩ ⟨readable', absolute?⟩ b (.atCursor offset)).outcome =
        some (.opened found') ∧ found'.className = found.className ∧
      found.strategy ∈ chainSteps ∧ found'.strategy ∈ chainSteps ∧ found'.strategy.rank ≤ found.strategy.rank := by
  obtain ⟨hne, c, hc, hcreadable, hcpath, hcstrategy, hclass⟩ := exists_candidate_of_opened h
  have hc' := searchOrder_subset hroots extension package b _ hc
  obtain ⟨misses, d, rest, hsplit, hm, hd, hrank⟩ := exists_first_rank_le ⟨readable', absolute?⟩
    (orderedUpTo_searchOrder _ _ _) hc' (hreadable _ hcreadable)
  have hmem : d ∈ searchOrder ⟨roots', extension, package⟩ b (Buffer.wordAt b.text offset) := by simp [hsplit]
  have hfollows := run_atCursor_follows ⟨roots', extension, package⟩ ⟨readable', absolute?⟩ b rfl hne
  rw [hsplit] at hfollows
  -- Only the file beside the buffer can be without a path to open, and that one has been opened before.
  obtain ⟨path, hpath⟩ : ∃ path, d.openedPath? ⟨readable', absolute?⟩ = some path := by
    unfold Candidate.openedPath?
    split
    · next hds =>
      have hcs : c.strategy = .sameDirectory :=
        eq_sameDirectory_of_rank_le (strategy_mem_chainSteps hc) (hds ▸ hrank)
      rw [← path_eq_of_sameDirectory hc' hmem hcs hds]
      rw [Candidate.openedPath?, if_pos hcs] at hcpath
      exact ⟨_, hcpath⟩
    · exact ⟨_, rfl⟩
  refine ⟨⟨path, d.strategy, d.className⟩, ?_, ?_, ?_, strategy_mem_chainSteps hmem, ?_⟩
  · rw [hfollows.outcome_of_first hm hd, hpath]
    rfl
  · exact (className_of_mem_searchOrder hmem).trans hclass.symm
  · exact hcstrategy ▸ strategy_mem_chainSteps hc
  · exact hcstrategy ▸ hrank

/-- A class is beside the buffer; with one more root in front and one more file it is in an imported package. -/
theorem atCursor_keeps_found_of_new_root :
    let b := Buffer.ofText (Text.lit "import q.*;\nC") (some (Text.lit "d/M.java"))
    let readable : Text → Bool := (· ∈ [Text.lit "d/C.java"])
    let readable' : Text → Bool := (· ∈ [Text.lit "a/q/C.java", Text.lit "d/C.java"])
    (run ⟨[Text.lit "b"], Text.lit "java", none⟩ ⟨readable, some⟩ b (.atCursor 12)).outcome =
      some (.opened ⟨Text.lit "d/C.java", .sameDirectory, Text.lit "C"⟩) ∧
    ∃ found', (run ⟨[Text.lit "a", Text.lit "b"], Text.lit "java", none⟩ ⟨readable', some⟩ b (.atCursor 12)).outcome =
        some (.opened found') ∧ found'.path = Text.lit "a/q/C.java" ∧
      found'.strategy.rank ≤ Strategy.sameDirectory.rank := by
  intro b readable readable'
  have hreadable : ∀ path, readable path = true → readable' path = true := by
    intro path hpath
    simp only [readable, readable', decide_eq_true_eq] at hpath ⊢
    exact List.mem_cons_of_mem _ hpath
  have hfound : (run ⟨[Text.lit "b"], Text.lit "java", none⟩ ⟨readable, some⟩ b (.atCursor 12)).outcome =
      some (.opened ⟨Text.lit "d/C.java", .sameDirectory, Text.lit "C"⟩) := by decide +kernel
  obtain ⟨found', hfound', -, -, -, hrank⟩ := atCursor_keeps_found (List.subset_cons_self (Text.lit "a") [Text.lit "b"])
    hreadable some (Text.lit "java") none b 12 hfound
  have hpath : ((run ⟨[Text.lit "a", Text.lit "b"], Text.lit "java", none⟩ ⟨readable', some⟩ b (.atCursor 12)).outcome =
    some (.opened ⟨Text.lit "a/q/C.java", .wildcardImport, Text.lit "C"⟩)) := by decide +kernel
  refine ⟨hfound, found', hfound', ?_, hrank⟩
  rw [hpath] at hfound'
  obtain rfl := Outcome.opened.inj (Option.some.inj hfound')
  rfl

end SourceJump.Lookup
