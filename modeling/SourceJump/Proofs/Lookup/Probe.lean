import SourceJump.Lookup.Probe
import Mathlib.Data.List.Basic

/-!
# Probing is a search for the first readable candidate

A lookup probes stage by stage, and each stage candidate by candidate. What it asks of the file
system and what comes of it do not depend on the division into stages: `runStages` does what
`probe` does with all candidates in one row (`runStages_eq_probe`). Probing a row either meets
unreadable files only (`probe_of_missed`), or asks about every candidate up to the first readable one
and selects that (`probe_of_first`).
-/

namespace SourceJump.Lookup

/-- The file system takes part in the event; it has no part in what is only told. -/
def Event.isFileCall : Event → Bool
  | .importMissed _ => false
  | .probed _ | .madeAbsolute _ | .opened _ _ => true

/-- What the events ask of the file system, in order. -/
def fileCalls (events : List Event) : List Event := events.filter Event.isFileCall

@[simp] theorem fileCalls_append (a b : List Event) : fileCalls (a ++ b) = fileCalls a ++ fileCalls b :=
  List.filter_append ..

/-- The paths that the file system is asked about, in order. -/
def probes (events : List Event) : List Text :=
  events.filterMap fun | .probed path => some path | _ => none

/-- The paths that are opened, in order. -/
def opens (events : List Event) : List Text :=
  events.filterMap fun | .opened path _ => some path | _ => none

theorem probes_fileCalls (events : List Event) : probes (fileCalls events) = probes events := by
  rw [probes, fileCalls, List.filterMap_filter, probes]
  congr 1
  funext event
  cases event <;> rfl

theorem opens_fileCalls (events : List Event) : opens (fileCalls events) = opens events := by
  rw [opens, fileCalls, List.filterMap_filter, opens]
  congr 1
  funext event
  cases event <;> rfl

@[simp] theorem probes_append (a b : List Event) : probes (a ++ b) = probes a ++ probes b :=
  List.filterMap_append ..

@[simp] theorem opens_append (a b : List Event) : opens (a ++ b) = opens a ++ opens b :=
  List.filterMap_append ..

@[simp] theorem probes_map_probed (cs : List Candidate) : probes (cs.map (.probed ·.path)) = cs.map (·.path) := by
  simp [probes, List.filterMap_map]

@[simp] theorem opens_map_probed (cs : List Candidate) : opens (cs.map (.probed ·.path)) = [] := by
  simp [opens]

variable {access : FileAccess}

/-! ### One row of candidates -/

/-- The path under which a candidate is opened: its own, or the absolute form of a file beside the buffer. -/
def Candidate.openedPath? (access : FileAccess) (c : Candidate) : Option Text :=
  if c.strategy = .sameDirectory then access.absolute? c.path else some c.path

/-- What is asked of the file system before a candidate is opened. -/
def Candidate.preparation (c : Candidate) : List Event :=
  if c.strategy = .sameDirectory then [.madeAbsolute c.path] else []

/-- A candidate with a path to open is opened once, under that path and last of all. -/
theorem Candidate.select_of_openedPath? {c : Candidate} {path : Text} (h : c.openedPath? access = some path) :
    c.select access = (c.preparation ++ [.opened path c.lookedUp], .opened ⟨path, c.strategy, c.className⟩) := by
  unfold Candidate.openedPath? at h
  unfold Candidate.select Candidate.preparation
  by_cases hs : c.strategy = .sameDirectory
  · rw [if_pos hs] at h
    simp only [if_pos hs, h, List.singleton_append]
  · rw [if_neg hs, Option.some.injEq] at h
    simp only [if_neg hs, h, List.nil_append]

/-- A candidate without a path to open lies beside a buffer under the home of someone unknown. -/
theorem Candidate.select_of_no_openedPath {c : Candidate} (h : c.openedPath? access = none) :
    c.select access = ([.madeAbsolute c.path], .homeUnknown) := by
  unfold Candidate.openedPath? at h
  unfold Candidate.select
  by_cases hs : c.strategy = .sameDirectory
  · rw [if_pos hs] at h
    simp only [if_pos hs, h]
  · rw [if_neg hs] at h
    cases h

@[simp] theorem Candidate.probes_preparation (c : Candidate) : probes c.preparation = [] := by
  unfold Candidate.preparation
  split <;> rfl

@[simp] theorem Candidate.opens_preparation (c : Candidate) : opens c.preparation = [] := by
  unfold Candidate.preparation
  split <;> rfl

/-- What a selection ends with. -/
theorem Candidate.select_outcome (access : FileAccess) (c : Candidate) :
    (c.select access).2 = (c.openedPath? access).elim .homeUnknown fun path =>
      .opened ⟨path, c.strategy, c.className⟩ := by
  cases h : c.openedPath? access with
  | some path => rw [Candidate.select_of_openedPath? h]; rfl
  | none => rw [Candidate.select_of_no_openedPath h]; rfl

/-- Nothing is asked about once a candidate is selected. -/
theorem Candidate.probes_select (access : FileAccess) (c : Candidate) : probes (c.select access).1 = [] := by
  cases h : c.openedPath? access with
  | some path => rw [Candidate.select_of_openedPath? h, probes_append, c.probes_preparation]; rfl
  | none => rw [Candidate.select_of_no_openedPath h]; rfl

/-- What is opened once a candidate is selected. -/
theorem Candidate.opens_select (access : FileAccess) (c : Candidate) :
    opens (c.select access).1 = (c.openedPath? access).toList := by
  cases h : c.openedPath? access with
  | some path => rw [Candidate.select_of_openedPath? h, opens_append, c.opens_preparation]; rfl
  | none => rw [Candidate.select_of_no_openedPath h]; rfl

/-- Selecting has nothing to tell. -/
theorem Candidate.fileCalls_select (access : FileAccess) (c : Candidate) :
    fileCalls (c.select access).1 = (c.select access).1 := by
  cases h : c.openedPath? access with
  | some path =>
    rw [Candidate.select_of_openedPath? h, Candidate.preparation]
    split <;> rfl
  | none => rw [Candidate.select_of_no_openedPath h]; rfl

theorem probe_cons_of_readable {c : Candidate} (rest : List Candidate) (h : access.readable c.path = true) :
    probe access (c :: rest) = (.probed c.path :: (c.select access).1, some (c.select access).2) := by
  simp only [probe, h, if_true]

theorem probe_cons_of_missed {c : Candidate} (rest : List Candidate) (h : access.readable c.path = false) :
    probe access (c :: rest) = (.probed c.path :: (probe access rest).1, (probe access rest).2) := by
  simp only [probe, h, Bool.false_eq_true, if_false]

/-- When no candidate is readable, all are asked about and nothing comes of it. -/
theorem probe_of_missed {cs : List Candidate} (h : ∀ c ∈ cs, access.readable c.path = false) :
    probe access cs = (cs.map (.probed ·.path), none) := by
  induction cs with
  | nil => rfl
  | cons c rest ih =>
    rw [probe_cons_of_missed rest (h c List.mem_cons_self), ih fun d hd => h d (List.mem_cons_of_mem _ hd)]
    rfl

/-- Candidates are asked about up to the first readable one, which is selected. -/
theorem probe_of_first {misses rest : List Candidate} {c : Candidate}
    (hm : ∀ m ∈ misses, access.readable m.path = false) (hc : access.readable c.path = true) :
    probe access (misses ++ c :: rest) =
      (misses.map (.probed ·.path) ++ .probed c.path :: (c.select access).1, some (c.select access).2) := by
  induction misses with
  | nil => exact probe_cons_of_readable rest hc
  | cons m misses ih =>
    rw [List.cons_append, probe_cons_of_missed _ (hm m List.mem_cons_self),
      ih fun d hd => hm d (List.mem_cons_of_mem _ hd)]
    rfl

/-- A row has no readable member, or a first one. -/
theorem first_readable_cases (access : FileAccess) (cs : List Candidate) :
    (∀ c ∈ cs, access.readable c.path = false) ∨
    ∃ misses c rest, cs = misses ++ c :: rest ∧ (∀ m ∈ misses, access.readable m.path = false) ∧
      access.readable c.path = true := by
  induction cs with
  | nil => exact Or.inl (by simp)
  | cons c rest ih =>
    cases hc : access.readable c.path with
    | true => exact Or.inr ⟨[], c, rest, rfl, by simp, hc⟩
    | false =>
      rcases ih with h | ⟨misses, d, tail, rfl, hm, hd⟩
      · exact Or.inl (List.forall_mem_cons.2 ⟨hc, h⟩)
      · exact Or.inr ⟨c :: misses, d, tail, rfl, List.forall_mem_cons.2 ⟨hc, hm⟩, hd⟩

theorem fileCalls_probe (access : FileAccess) (cs : List Candidate) :
    fileCalls (probe access cs).1 = (probe access cs).1 := by
  induction cs with
  | nil => rfl
  | cons c rest ih =>
    cases hc : access.readable c.path with
    | false => rw [probe_cons_of_missed rest hc]; simpa [fileCalls, Event.isFileCall] using ih
    | true =>
      rw [probe_cons_of_readable rest hc]
      simpa [fileCalls, Event.isFileCall] using c.fileCalls_select access

/-! ### Stages -/

theorem probe_append_of_none {a : List Candidate} (b : List Candidate) (h : (probe access a).2 = none) :
    probe access (a ++ b) = ((probe access a).1 ++ (probe access b).1, (probe access b).2) := by
  induction a with
  | nil => rfl
  | cons c rest ih =>
    cases hc : access.readable c.path with
    | true => rw [probe_cons_of_readable rest hc] at h; simp at h
    | false =>
      rw [probe_cons_of_missed rest hc] at h
      rw [List.cons_append, probe_cons_of_missed _ hc, ih h, probe_cons_of_missed rest hc]
      rfl

theorem probe_append_of_some {a : List Candidate} (b : List Candidate) {o : Outcome}
    (h : (probe access a).2 = some o) : probe access (a ++ b) = probe access a := by
  induction a with
  | nil => simp [probe] at h
  | cons c rest ih =>
    cases hc : access.readable c.path with
    | true => rw [List.cons_append, probe_cons_of_readable _ hc, probe_cons_of_readable rest hc]
    | false =>
      rw [probe_cons_of_missed rest hc] at h
      rw [List.cons_append, probe_cons_of_missed _ hc, ih h, probe_cons_of_missed rest hc]

/-- A stage that has something to tell when it is missed tells it without the file system. -/
def Stage.Quiet (stage : Stage) : Prop := fileCalls stage.whenMissed = []

/-- Stages ask and find what one row of all their candidates asks and finds. -/
theorem runStages_eq_probe (access : FileAccess) {stages : List Stage} (hq : ∀ stage ∈ stages, stage.Quiet)
    (point : Nat) :
    fileCalls (runStages access point stages).events = (probe access (stages.flatMap (·.candidates))).1 ∧
      (runStages access point stages).outcome = (probe access (stages.flatMap (·.candidates))).2 := by
  induction stages generalizing point with
  | nil => exact ⟨rfl, rfl⟩
  | cons stage rest ih =>
    obtain ⟨hcalls, houtcome⟩ := ih (fun s hs => hq s (List.mem_cons_of_mem _ hs)) (stage.point.getD point)
    have hstage : fileCalls stage.whenMissed = [] := hq stage List.mem_cons_self
    rw [List.flatMap_cons]
    cases hp : probe access stage.candidates with
    | mk events outcome =>
      have hself := fileCalls_probe access stage.candidates
      rw [hp] at hself
      cases outcome with
      | some o =>
        rw [probe_append_of_some _ (o := o) (by rw [hp]), hp]
        simp only [runStages, hp, and_true]
        exact hself
      | none =>
        rw [probe_append_of_none _ (by rw [hp]), hp]
        simp only [runStages, hp]
        refine ⟨?_, houtcome⟩
        rw [fileCalls_append, fileCalls_append, hself, hstage, List.append_nil, hcalls]

/-- Stages without a readable candidate are gone through to the last, each telling what it missed. -/
theorem runStages_of_missed {stages : List Stage}
    (h : ∀ stage ∈ stages, ∀ c ∈ stage.candidates, access.readable c.path = false) (point : Nat) :
    (runStages access point stages).events =
        stages.flatMap (fun stage => stage.candidates.map (.probed ·.path) ++ stage.whenMissed) ∧
      (runStages access point stages).outcome = none := by
  induction stages generalizing point with
  | nil => exact ⟨rfl, rfl⟩
  | cons stage rest ih =>
    have hstage := probe_of_missed (h stage List.mem_cons_self)
    obtain ⟨hevents, houtcome⟩ := ih (fun s hs => h s (List.mem_cons_of_mem _ hs)) (stage.point.getD point)
    simp only [runStages, hstage, hevents, List.flatMap_cons]
    exact ⟨trivial, houtcome⟩

/-! ### Runs -/

/-- The run asks what one row of candidates asks and ends with what is selected there, or with `missed`
when nothing is. -/
structure Run.Follows (run : Run) (access : FileAccess) (cs : List Candidate) (missed : Option Outcome) : Prop where
  calls : fileCalls run.events = (probe access cs).1
  outcome : run.outcome = (probe access cs).2.or missed

variable {run : Run} {cs misses rest : List Candidate} {c : Candidate} {missed : Option Outcome}

theorem runStages_follows (access : FileAccess) {stages : List Stage} (hq : ∀ stage ∈ stages, stage.Quiet)
    (point : Nat) : (runStages access point stages).Follows access (stages.flatMap (·.candidates)) none := by
  obtain ⟨hcalls, houtcome⟩ := runStages_eq_probe access hq point
  exact ⟨hcalls, by rw [houtcome, Option.or_none]⟩

theorem Run.Follows.orFail (h : run.Follows access cs none) (failure : Failure) :
    (run.orFail failure).Follows access cs (some (.failed failure)) := by
  refine ⟨h.calls, ?_⟩
  rw [Run.orFail, h.outcome, Option.or_none]
  cases (probe access cs).2 <;> rfl

theorem Run.failed_follows (failure : Failure) (point : Nat) :
    (Run.failed failure point).Follows access [] (some (.failed failure)) := ⟨rfl, rfl⟩

/-! ### A run without a readable candidate -/

theorem Run.Follows.of_missed (h : run.Follows access cs missed) (hm : ∀ c ∈ cs, access.readable c.path = false) :
    fileCalls run.events = cs.map (.probed ·.path) ∧ run.outcome = missed := by
  rw [h.calls, h.outcome, probe_of_missed hm]
  exact ⟨rfl, rfl⟩

theorem Run.Follows.probes_of_missed (h : run.Follows access cs missed)
    (hm : ∀ c ∈ cs, access.readable c.path = false) : probes run.events = cs.map (·.path) := by
  rw [← probes_fileCalls, (h.of_missed hm).1, probes_map_probed]

theorem Run.Follows.opens_of_missed (h : run.Follows access cs missed)
    (hm : ∀ c ∈ cs, access.readable c.path = false) : opens run.events = [] := by
  rw [← opens_fileCalls, (h.of_missed hm).1, opens_map_probed]

/-! ### A run with a first readable candidate -/

theorem Run.Follows.of_first (h : run.Follows access (misses ++ c :: rest) missed)
    (hm : ∀ m ∈ misses, access.readable m.path = false) (hc : access.readable c.path = true) :
    fileCalls run.events = misses.map (.probed ·.path) ++ .probed c.path :: (c.select access).1 ∧
      run.outcome = some (c.select access).2 := by
  rw [h.calls, h.outcome, probe_of_first hm hc]
  exact ⟨rfl, rfl⟩

/-- The run asks about the paths up to the first readable one and about no other. -/
theorem Run.Follows.probes_of_first (h : run.Follows access (misses ++ c :: rest) missed)
    (hm : ∀ m ∈ misses, access.readable m.path = false) (hc : access.readable c.path = true) :
    probes run.events = misses.map (·.path) ++ [c.path] := by
  rw [← probes_fileCalls, (h.of_first hm hc).1, probes_append, probes_map_probed]
  exact congrArg (misses.map (·.path) ++ c.path :: ·) (c.probes_select access)

/-- The run opens the path of the first readable candidate and no other. -/
theorem Run.Follows.opens_of_first (h : run.Follows access (misses ++ c :: rest) missed)
    (hm : ∀ m ∈ misses, access.readable m.path = false) (hc : access.readable c.path = true) :
    opens run.events = (c.openedPath? access).toList := by
  rw [← opens_fileCalls, (h.of_first hm hc).1, opens_append, opens_map_probed, List.nil_append]
  exact c.opens_select access

theorem Run.Follows.outcome_of_first (h : run.Follows access (misses ++ c :: rest) missed)
    (hm : ∀ m ∈ misses, access.readable m.path = false) (hc : access.readable c.path = true) :
    run.outcome = some ((c.openedPath? access).elim .homeUnknown fun path =>
      .opened ⟨path, c.strategy, c.className⟩) := by
  rw [(h.of_first hm hc).2, c.select_outcome]

/-- A run that fails does so because no candidate is readable. -/
theorem Run.Follows.missed_of_failed (h : run.Follows access cs missed) {failure : Failure}
    (hfailed : run.outcome = some (.failed failure)) : missed = some (.failed failure) := by
  rcases first_readable_cases access cs with hm | ⟨misses, c, rest, rfl, hm, hc⟩
  · exact (h.of_missed hm).2.symm.trans hfailed
  · rw [h.outcome_of_first hm hc] at hfailed
    cases hpath : c.openedPath? access <;> simp [hpath] at hfailed

/-! ### What a run may ask about and open -/

/-- The run asks about paths of candidates only. -/
theorem Run.Follows.mem_of_probes (h : run.Follows access cs missed) {path : Text} (hpath : path ∈ probes run.events) :
    ∃ c ∈ cs, c.path = path := by
  rcases first_readable_cases access cs with hm | ⟨misses, c, rest, rfl, hm, hc⟩
  · rw [h.probes_of_missed hm] at hpath
    exact List.mem_map.1 hpath
  · rw [h.probes_of_first hm hc, List.mem_append] at hpath
    rcases hpath with hpath | hpath
    · obtain ⟨m, hmem, hm⟩ := List.mem_map.1 hpath
      exact ⟨m, List.mem_append_left _ hmem, hm⟩
    · obtain rfl := List.mem_singleton.1 hpath
      exact ⟨c, by simp, rfl⟩

/-- The run opens paths under which candidates are opened, and no others. -/
theorem Run.Follows.mem_of_opens (h : run.Follows access cs missed) {path : Text} (hpath : path ∈ opens run.events) :
    ∃ c ∈ cs, c.openedPath? access = some path := by
  rcases first_readable_cases access cs with hm | ⟨misses, c, rest, rfl, hm, hc⟩
  · rw [h.opens_of_missed hm] at hpath
    cases hpath
  · rw [h.opens_of_first hm hc] at hpath
    exact ⟨c, by simp, Option.mem_toList.1 hpath⟩

end SourceJump.Lookup
