import SourceJump.Proofs.Lookup.Chain

/-!
# A dotted name below the roots

A dotted name is looked for below one root after the other, under the same path each time. The lookup opens the file
below the first root with a readable one (`run_resolve_of_find?`), fails exactly when there is none
(`run_resolve_failed_iff`), and tries each place of the search path once at most (`exists_tried`).
-/

namespace SourceJump.Lookup

/-- Where the class with a dotted name lies below a root. -/
def Settings.sourcePath (s : Settings) (name root : Text) : Text :=
  Path.join root (Java.relativePath name s.extension)

variable {s : Settings} {access : FileAccess} {b : Buffer} {name : Text}

/-- Without a readable file below a root, all roots are tried and the lookup fails. -/
theorem run_resolve_of_missed (h : ∀ root ∈ s.searchPath, access.readable (s.sourcePath name root) = false) :
    (run s access b (.resolve name)).outcome = some (.failed (.notOnSearchPath name)) ∧
      probes (run s access b (.resolve name)).events = s.searchPath.map (s.sourcePath name) := by
  have hfollows := runDirect_follows s access b.point .searchPath name
  have hm : ∀ c ∈ s.candidates .searchPath name name, access.readable c.path = false := by
    intro c hc
    obtain ⟨root, hroot, rfl⟩ := List.mem_map.1 hc
    exact h root hroot
  refine ⟨(hfollows.of_missed hm).2, (hfollows.probes_of_missed hm).trans ?_⟩
  rw [Settings.candidates, List.map_map]
  rfl

/-- The roots are tried up to the first one with a readable file, which is opened. -/
theorem run_resolve_of_first {front back : List Text} {root : Text} (hsplit : s.searchPath = front ++ root :: back)
    (hfront : ∀ r ∈ front, access.readable (s.sourcePath name r) = false)
    (hroot : access.readable (s.sourcePath name root) = true) :
    (run s access b (.resolve name)).outcome = some (.opened ⟨s.sourcePath name root, .searchPath, name⟩) ∧
      probes (run s access b (.resolve name)).events = (front ++ [root]).map (s.sourcePath name) := by
  let candidate (r : Text) : Candidate := ⟨s.sourcePath name r, .searchPath, name, name⟩
  have hcandidates : s.candidates .searchPath name name = front.map candidate ++ candidate root :: back.map candidate := by
    rw [Settings.candidates, hsplit, List.map_append, List.map_cons]
    rfl
  have hfollows := runDirect_follows s access b.point .searchPath name
  rw [hcandidates] at hfollows
  have hm : ∀ c ∈ front.map candidate, access.readable c.path = false := by
    intro c hc
    obtain ⟨r, hr, rfl⟩ := List.mem_map.1 hc
    exact hfront r hr
  refine ⟨(hfollows.of_first hm hroot).2, (hfollows.probes_of_first hm hroot).trans ?_⟩
  rw [List.map_map, List.map_append]
  rfl

/-- Either no file below a root is readable, or there is a first root with a readable one. -/
theorem searchPath_cases (s : Settings) (access : FileAccess) (name : Text) :
    (∀ root ∈ s.searchPath, access.readable (s.sourcePath name root) = false) ∨
    ∃ front root back, s.searchPath = front ++ root :: back ∧
      (∀ r ∈ front, access.readable (s.sourcePath name r) = false) ∧
      access.readable (s.sourcePath name root) = true := by
  cases hfind : s.searchPath.find? fun root => access.readable (s.sourcePath name root) with
  | none => exact Or.inl (by simpa using List.find?_eq_none.1 hfind)
  | some root =>
    obtain ⟨hroot, front, back, hsplit, hfront⟩ := List.find?_eq_some_iff_append.1 hfind
    exact Or.inr ⟨front, root, back, hsplit, by simpa using hfront, hroot⟩

theorem run_resolve_of_find? {root : Text}
    (h : (s.searchPath.find? fun root => access.readable (s.sourcePath name root)) = some root) :
    (run s access b (.resolve name)).outcome = some (.opened ⟨s.sourcePath name root, .searchPath, name⟩) := by
  obtain ⟨hroot, front, back, hsplit, hfront⟩ := List.find?_eq_some_iff_append.1 h
  exact (run_resolve_of_first hsplit (by simpa using hfront) hroot).1

theorem run_resolve_failed_iff :
    (run s access b (.resolve name)).outcome = some (.failed (.notOnSearchPath name)) ↔
      ∀ root ∈ s.searchPath, access.readable (s.sourcePath name root) = false := by
  rcases searchPath_cases s access name with hm | ⟨front, root, back, hsplit, hfront, hroot⟩
  · exact iff_of_true (run_resolve_of_missed hm).1 hm
  · rw [(run_resolve_of_first hsplit hfront hroot).1]
    refine iff_of_false nofun fun hm => ?_
    have hmissed := hm root (by simp [hsplit])
    rw [hroot] at hmissed
    cases hmissed

/-- Each place of the search path is tried once at most. -/
theorem exists_tried (s : Settings) (access : FileAccess) (b : Buffer) (name : Text) :
    ∃ tried, tried <+: s.searchPath ∧
      probes (run s access b (.resolve name)).events = tried.map (s.sourcePath name) := by
  rcases searchPath_cases s access name with hm | ⟨front, root, back, hsplit, hfront, hroot⟩
  · exact ⟨s.searchPath, List.prefix_rfl, (run_resolve_of_missed hm).2⟩
  · refine ⟨front ++ [root], ⟨back, ?_⟩, (run_resolve_of_first hsplit hfront hroot).2⟩
    rw [hsplit, List.append_assoc, List.singleton_append]

end SourceJump.Lookup
