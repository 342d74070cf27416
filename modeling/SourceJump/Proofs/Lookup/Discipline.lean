import SourceJump.Lookup.Session
import SourceJump.Proofs.Lookup.Chain

/-!
# Nothing is opened without success

A lookup asks about files until one is readable, opens that one last of all, and otherwise opens nothing
(`Disciplined`). Every command keeps to this because it goes through a row of candidates, and so does
every action of a session, whatever came before it (`session_disciplined`).
-/

namespace SourceJump.Lookup

/-- What a lookup with this outcome may ask of the file system. -/
structure Disciplined (access : FileAccess) (events : List Event) (outcome : Option Outcome) : Prop where
  /-- At most one file is opened. -/
  opens_le_one : (opens events).length ≤ 1
  /-- A file is opened exactly when the lookup succeeds. -/
  opens_iff : (opens events).length = 1 ↔ ∃ found, outcome = some (.opened found)
  /-- The file of the outcome is opened, and that is the last call. -/
  opened_last : ∀ found, outcome = some (.opened found) →
    ∃ name, (fileCalls events).getLast? = some (.opened found.path name)
  /-- Of the paths asked about only the last is readable, and it is the path of the outcome, or its absolute form is. -/
  probed_until_readable : ∀ found, outcome = some (.opened found) →
    ∃ misses last, probes events = misses ++ [last] ∧ (∀ path ∈ misses, access.readable path = false) ∧
      access.readable last = true ∧
      if found.strategy = .sameDirectory then access.absolute? last = some found.path else last = found.path
  /-- A lookup that finds nothing or fails opens nothing and has met no readable file. -/
  missed : (outcome = none ∨ ∃ failure, outcome = some (.failed failure)) →
    opens events = [] ∧ ∀ path ∈ probes events, access.readable path = false

variable {access : FileAccess} {r : Run} {cs misses rest : List Candidate} {c : Candidate}
  {missed : Option Outcome}

/-! ### Commands -/

theorem Disciplined.of_unopened {events : List Event} {outcome : Option Outcome} (hopens : opens events = [])
    (houtcome : ∀ found, outcome ≠ some (.opened found)) (hm : ∀ path ∈ probes events, access.readable path = false) :
    Disciplined access events outcome where
  opens_le_one := by simp [hopens]
  opens_iff := by
    constructor
    · intro h
      rw [hopens] at h
      cases h
    · rintro ⟨found, h⟩
      exact absurd h (houtcome found)
  opened_last found h := absurd h (houtcome found)
  probed_until_readable found h := absurd h (houtcome found)
  missed _ := ⟨hopens, hm⟩

/-- A row with a readable candidate is gone through with discipline. -/
theorem Run.Follows.disciplined_of_first (h : r.Follows access (misses ++ c :: rest) missed)
    (hm : ∀ m ∈ misses, access.readable m.path = false) (hc : access.readable c.path = true) :
    Disciplined access r.events r.outcome := by
  have hopens := h.opens_of_first hm hc
  have houtcome := h.outcome_of_first hm hc
  cases hpath : c.openedPath? access with
  | none =>
    -- The file has no absolute path: the lookup breaks off without an answer.
    rw [hpath] at hopens houtcome
    have hunopened : opens r.events = [] := hopens
    have hbroken : r.outcome = some .homeUnknown := houtcome
    refine ⟨by simp [hunopened], by simp [hunopened, hbroken], ?_, ?_, ?_⟩ <;> simp [hbroken]
  | some path =>
    rw [hpath] at hopens houtcome
    have hopened : opens r.events = [path] := hopens
    have hfound : r.outcome = some (.opened ⟨path, c.strategy, c.className⟩) := houtcome
    refine ⟨by simp [hopened], by simp [hopened, hfound], ?_, ?_, by simp [hfound]⟩
    · intro found hf
      obtain rfl := Outcome.opened.inj (Option.some.inj (hfound.symm.trans hf))
      refine ⟨c.lookedUp, ?_⟩
      rw [(h.of_first hm hc).1, Candidate.select_of_openedPath? hpath, ← List.cons_append, ← List.append_assoc,
        List.getLast?_concat]
    · intro found hf
      obtain rfl := Outcome.opened.inj (Option.some.inj (hfound.symm.trans hf))
      refine ⟨misses.map (·.path), c.path, h.probes_of_first hm hc, ?_, hc, ?_⟩
      · intro missedPath hmem
        obtain ⟨m, hm', rfl⟩ := List.mem_map.1 hmem
        exact hm m hm'
      · unfold Candidate.openedPath? at hpath
        split at hpath
        · next hs => rw [if_pos hs]; exact hpath
        · next hs => rw [if_neg hs]; exact Option.some.inj hpath

/-- Going through a row of candidates is disciplined. -/
theorem Run.Follows.disciplined (h : r.Follows access cs missed)
    (hmissed : missed = none ∨ ∃ failure, missed = some (.failed failure)) : Disciplined access r.events r.outcome := by
  rcases first_readable_cases access cs with hm | ⟨misses, c, rest, rfl, hm, hc⟩
  · refine .of_unopened (h.opens_of_missed hm) (fun found hfound => ?_) fun path hpath => ?_
    · rw [(h.of_missed hm).2] at hfound
      rcases hmissed with rfl | ⟨failure, rfl⟩
      · cases hfound
      · cases hfound
    · rw [h.probes_of_missed hm] at hpath
      obtain ⟨c, hc, rfl⟩ := List.mem_map.1 hpath
      exact hm c hc
  · exact h.disciplined_of_first hm hc

theorem run_disciplined (s : Settings) (access : FileAccess) (b : Buffer) (c : Command) :
    Disciplined access (run s access b c).events (run s access b c).outcome := by
  obtain ⟨cs, missed, hfollows, hmissed, -⟩ := run_searches s access b c
  exact hfollows.disciplined hmissed

/-- A lookup that finds a file opens this file and no other, and opens it once. -/
theorem opens_eq_of_opened {s : Settings} {access : FileAccess} {b : Buffer} {c : Command} {found : Found}
    (h : (run s access b c).outcome = some (.opened found)) : opens (run s access b c).events = [found.path] := by
  have hdisciplined := run_disciplined s access b c
  obtain ⟨path, hopens⟩ := List.length_eq_one_iff.1 (hdisciplined.opens_iff.2 ⟨found, h⟩)
  obtain ⟨name, hlast⟩ := hdisciplined.opened_last found h
  have hmem : found.path ∈ opens (run s access b c).events := by
    rw [← opens_fileCalls]
    exact List.mem_filterMap.2 ⟨_, List.mem_of_getLast? hlast, rfl⟩
  rw [hopens, List.mem_singleton] at hmem
  rw [hopens, hmem]

/-! ### Sessions -/

/-- The outcome in an answer, if there is one. -/
def Answer.outcome? : Answer → Option Outcome
  | .outcome result => result
  | .name _ | .place _ | .done => none

namespace Session

/-- The session after some actions. -/
def after (s : Session) : List Action → Session
  | [] => s
  | action :: rest => (s.step action).session.after rest

theorem step_disciplined (s : Session) (action : Action) :
    Disciplined s.access (s.step action).events (s.step action).answer.outcome? := by
  have hsilent : Disciplined s.access [] none :=
    .of_unopened rfl (by simp) fun path hpath => absurd hpath List.not_mem_nil
  cases action with
  | command c => exact run_disciplined s.settings s.access s.buffer c
  | findImport name => exact hsilent
  | search p => exact hsilent
  | addFile path => exact hsilent
  | removeFile path => exact hsilent
  | visit b => exact hsilent

/-- The step at a place of a run is the step of its action after the actions before it. -/
theorem getElem?_run (s : Session) (before : List Action) (action : Action) (later : List Action) :
    (s.run (before ++ action :: later))[before.length]? = some ((s.after before).step action) := by
  induction before generalizing s with
  | nil => rfl
  | cons first before ih => exact ih (s.step first).session

end Session

/-- **Every action of a session is disciplined**, with regard to the files that there are when its turn comes. -/
theorem session_disciplined (s : Session) (before : List Action) (action : Action) (later : List Action) :
    ∃ step, (s.run (before ++ action :: later))[before.length]? = some step ∧
      Disciplined (s.after before).access step.events step.answer.outcome? :=
  ⟨_, s.getElem?_run before action later, (s.after before).step_disciplined action⟩

end SourceJump.Lookup
