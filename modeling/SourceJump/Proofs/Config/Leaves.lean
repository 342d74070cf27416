import SourceJump.Proofs.Config.Merging

/-!
# The leaves of a merge

Nested mappings are trees, with keys on the way down and values other than mappings for leaves. Under a key of the merge
stands what the base has there, updated with what the update has there (`child?_updated`). So a path is walked down in
the three trees at once, and what holds at its end is shown by induction along it. A leaf of the update is in the merge,
unless it is null; a leaf of the base is in it exactly when the update spares it (`Spares`) or has the same leaf; there
are no other leaves; and the keys of each mapping come in the order of the base, the new ones last
(`merge_keeps_leaves`).
-/

namespace SourceJump

namespace Value

/-- The value under a key of a mapping. -/
def child? (v key : Value) : Option Value :=
  match v with
  | .map entries => Entries.find? entries key
  | _ => none

/-- The value at the end of a path of keys. -/
def at? (v : Value) : List Value → Option Value
  | [] => some v
  | key :: path => (v.child? key).bind (at? · path)

/-- The keys of the mapping at the end of a path; none where no mapping is. -/
def keysAt (v : Value) (path : List Value) : List Value :=
  match v.at? path with
  | some (.map entries) => entries.map (·.1)
  | _ => []

/-- A value that is no mapping. -/
def IsLeaf (v : Value) : Prop := ∀ entries, v ≠ .map entries

/-- No two keys are the same, in no mapping at the end of a path. -/
def HasDistinctKeys (v : Value) : Prop :=
  ∀ path entries, v.at? path = some (.map entries) → Entries.HasDistinctKeys entries

variable {v w key : Value} {path : List Value}

@[simp]
theorem child?_map (entries : Entries) (key : Value) : (Value.map entries).child? key = Entries.find? entries key := rfl

theorem IsLeaf.child?_eq_none (h : v.IsLeaf) (key : Value) : v.child? key = none := by
  cases v with
  | map entries => exact absurd rfl (h entries)
  | _ => rfl

theorem HasDistinctKeys.top {entries : Entries} (h : HasDistinctKeys (.map entries)) :
    Entries.HasDistinctKeys entries :=
  h [] entries rfl

theorem HasDistinctKeys.child (h : v.HasDistinctKeys) (hw : v.child? key = some w) : w.HasDistinctKeys := by
  intro path entries hentries
  refine h (key :: path) entries ?_
  rw [at?, hw]
  exact hentries

/-- Keys are distinct throughout a mapping when they are at its top and throughout its values. -/
theorem hasDistinctKeys_map {entries : Entries} (h : Entries.HasDistinctKeys entries)
    (hbelow : ∀ e ∈ entries, e.2.HasDistinctKeys) : HasDistinctKeys (.map entries) := by
  intro path below hpath
  cases path with
  | nil =>
    obtain rfl : entries = below := Value.map.inj (Option.some.inj hpath)
    exact h
  | cons key path =>
    obtain ⟨w, hw, hpath⟩ := Option.bind_eq_some_iff.1 hpath
    obtain ⟨e, he, rfl⟩ := Option.map_eq_some_iff.1 hw
    exact hbelow e (List.mem_of_find?_eq_some he) path below hpath

theorem isLeaf_or_exists_map (v : Value) : v.IsLeaf ∨ ∃ entries, v = .map entries := by
  cases v with
  | map entries => exact Or.inr ⟨entries, rfl⟩
  | _ => exact Or.inl nofun

theorem at?_cons_eq_some_iff : v.at? (key :: path) = some w ↔ ∃ u, v.child? key = some u ∧ u.at? path = some w := by
  rw [at?, Option.bind_eq_some_iff]

theorem keysAt_of_at?_eq_map {entries : Entries} (h : v.at? path = some (.map entries)) :
    v.keysAt path = entries.map (·.1) := by
  rw [keysAt, h]

theorem keysAt_cons (v key : Value) (path : List Value) :
    v.keysAt (key :: path) = ((v.child? key).map (·.keysAt path)).getD [] := by
  rw [keysAt, at?]
  cases v.child? key <;> rfl

theorem IsLeaf.at?_ne_map (h : v.IsLeaf) (path : List Value) (entries : Entries) :
    v.at? path ≠ some (.map entries) := by
  cases path with
  | nil => exact fun heq => h entries (Option.some.inj heq)
  | cons key path => simp [at?, h.child?_eq_none]

theorem IsLeaf.hasDistinctKeys (h : v.IsLeaf) : v.HasDistinctKeys :=
  fun path entries hentries => absurd hentries (h.at?_ne_map path entries)

theorem IsLeaf.keysAt_eq_nil (h : v.IsLeaf) (path : List Value) : v.keysAt path = [] := by
  unfold keysAt
  split
  · next entries hentries => exact absurd hentries (h.at?_ne_map path entries)
  · rfl

end Value

namespace Config

open Entries Value

/-- On the way down the path a missing key or a null is met, and only mappings before it. -/
inductive Spares : Value → List Value → Prop where
  | null (path : List Value) : Spares .null path
  | missing {entries : Entries} {key : Value} (path : List Value) : find? entries key = none →
      Spares (.map entries) (key :: path)
  | deeper {entries : Entries} {key v : Value} {path : List Value} : find? entries key = some v → Spares v path →
      Spares (.map entries) (key :: path)

/-! ### One key down -/

/-- What comes of a value under an update, where either may be missing. -/
def updated? : Option Value → Option Value → Option Value
  | some old, some new => some (updated old new)
  | some old, none => some old
  | none, new => new

/-- A leaf replaces what it is put over. -/
theorem updated_of_isLeaf {v : Value} (h : v.IsLeaf) (hne : v ≠ .null) (base : Value) : updated base v = v := by
  cases v with
  | null => exact absurd rfl hne
  | map entries => exact absurd rfl (h entries)
  | _ => simp [updated]

/-- A mapping replaces a leaf that it is put over. -/
theorem updated_map_of_isLeaf {base : Value} (h : base.IsLeaf) (update : Entries) :
    updated base (.map update) = .map update := by
  cases base with
  | map entries => exact absurd rfl (h entries)
  | _ => simp [updated]

/-- What stands under a key of an updated value depends on what stands under this key before and in the update. -/
theorem child?_updated {update : Entries} (h : Entries.HasDistinctKeys update) (base key : Value) :
    (updated base (.map update)).child? key = updated? (base.child? key) (find? update key) := by
  rcases isLeaf_or_exists_map base with hbase | ⟨entries, rfl⟩
  · rw [updated_map_of_isLeaf hbase, hbase.child?_eq_none, updated?]
    rfl
  · rw [updated, child?, child?, find?_merge h]
    cases find? entries key with
    | none => rfl
    | some old => cases find? update key <;> simp [updated?, updated_null]

theorem at?_updated_cons {update : Entries} (h : Entries.HasDistinctKeys update) (base key : Value)
    (path : List Value) : (updated base (.map update)).at? (key :: path) =
      (updated? (base.child? key) (find? update key)).bind (·.at? path) := by
  rw [at?, child?_updated h]

/-! ### Down a path -/

theorem eq_null_of_spares {u v : Value} {path : List Value} (h : Spares u path) (hv : u.at? path = some v) :
    v = .null := by
  induction h with
  | null path =>
    cases path with
    | nil => exact (Option.some.inj hv).symm
    | cons key path => cases hv
  | missing path hfind => simp [at?, child?, hfind] at hv
  | deeper hfind _ ih =>
    rw [at?, child?, hfind] at hv
    exact ih hv

theorem spares_of_at?_eq_null {u : Value} {path : List Value} (h : u.at? path = some .null) : Spares u path := by
  induction path generalizing u with
  | nil =>
    obtain rfl : u = .null := Option.some.inj h
    exact .null []
  | cons key path ih =>
    obtain ⟨w, hw, hbelow⟩ := at?_cons_eq_some_iff.1 h
    rcases isLeaf_or_exists_map u with hleaf | ⟨entries, rfl⟩
    · rw [hleaf.child?_eq_none] at hw
      cases hw
    · exact .deeper hw (ih hbelow)

/-- What is spared stays, and where nothing is there comes what the update has. -/
theorem at?_updated_of_spares {u : Value} (hu : u.HasDistinctKeys) {path : List Value} (h : Spares u path)
    (base : Value) : (updated base u).at? path = (base.at? path).or (u.at? path) := by
  -- The base goes down together with the walk through the update.
  induction h generalizing base with
  | null path =>
    rw [updated_null]
    cases path with
    | nil => rfl
    | cons key path => exact Option.or_none.symm
  | @missing entries key path hfind =>
    rw [at?_updated_cons hu.top, at?, at?, child?_map, hfind]
    cases base.child? key <;> simp [updated?]
  | @deeper entries key v path hfind _ ih =>
    rw [at?_updated_cons hu.top, at?, at?, child?_map, hfind]
    cases base.child? key with
    | none => rfl
    | some old => exact ih (hu.child hfind) old

/-- Where the update does not spare anything, the leaves are its own. -/
theorem at?_updated_of_not_spares {u : Value} (hu : u.HasDistinctKeys) {path : List Value} (h : ¬ Spares u path)
    {v : Value} (hv : v.IsLeaf) (base : Value) : (updated base u).at? path = some v ↔ u.at? path = some v := by
  have hne : u ≠ .null := by
    rintro rfl
    exact h (.null path)
  induction path generalizing u base with
  | nil =>
    rcases isLeaf_or_exists_map u with hleaf | ⟨entries, rfl⟩
    · rw [updated_of_isLeaf hleaf hne]
    · -- A mapping becomes a mapping, and that is no leaf.
      refine iff_of_false (fun heq => ?_) fun heq => hv entries (Option.some.inj heq).symm
      rcases isLeaf_or_exists_map base with hbase | ⟨below, rfl⟩
      · rw [updated_map_of_isLeaf hbase] at heq
        exact hv entries (Option.some.inj heq).symm
      · rw [updated] at heq
        exact hv _ (Option.some.inj heq).symm
  | cons key path ih =>
    rcases isLeaf_or_exists_map u with hleaf | ⟨entries, rfl⟩
    · rw [updated_of_isLeaf hleaf hne]
    · rw [at?_updated_cons hu.top, at?, child?_map]
      cases hfind : find? entries key with
      | none => exact absurd (.missing path hfind) h
      | some w =>
        have hbelow : ¬ Spares w path := fun hspares => h (.deeper hfind hspares)
        have hw : w ≠ .null := by
          rintro rfl
          exact hbelow (.null path)
        cases base.child? key with
        | none => rfl
        | some old => exact ih (hu.child hfind) hbelow old hw

/-! ### The keys of a level -/

theorem isNone_find?_eq (entries : Entries) (key : Value) :
    (find? entries key).isNone = !(entries.map (·.1)).any (·.sameKey key) := by
  induction entries with
  | nil => rfl
  | cons entry rest ih =>
    obtain ⟨k, v⟩ := entry
    rw [find?_cons, List.map_cons, List.any_cons]
    cases k.sameKey key <;> simp [ih]

/-- The keys of the base come first, and then the new ones of the update. -/
theorem keys_merge {update : Entries} (h : Entries.HasDistinctKeys update) (base : Entries) :
    (merge base update).map (·.1) =
      base.map (·.1) ++ (update.map (·.1)).filter fun key => (find? base key).isNone := by
  induction update generalizing base with
  | nil => rw [merge, List.map_nil, List.filter_nil, List.append_nil]
  | cons entry rest ih =>
    obtain ⟨key, v⟩ := entry
    rw [merge_cons, ih h.of_cons, List.map_cons]
    cases hfind : find? base key with
    | none =>
      have hnew : ∀ k ∈ rest.map (·.1), (find? (insert base key v) k).isNone = (find? base k).isNone := by
        intro k hk
        obtain ⟨e, he, rfl⟩ := List.mem_map.1 hk
        rw [find?_insert, if_neg (by rw [List.rel_of_pairwise_cons h he]; decide)]
      rw [Option.map_none, Option.getD_none, List.filter_congr hnew, insert_of_find?_eq_none hfind,
        List.filter_cons_of_pos (by simp [hfind])]
      simp
    | some old =>
      have hsame : ∀ k, (find? (insert base key (updated old v)) k).isNone = (find? base k).isNone := by
        intro k
        rw [find?_insert]
        split
        · next hk => rw [← find?_congr hk, hfind]; rfl
        · rfl
      obtain ⟨front, k, back, rfl, hk, hfront⟩ := exists_append_of_find? hfind
      simp only [Option.map_some, Option.getD_some, hsame]
      rw [List.filter_cons_of_neg (by simp [hfind]), insert_append_of_sameKey hk hfront]
      simp

/-- An update that is a leaf adds no keys. -/
theorem keysAt_updated_of_isLeaf {u : Value} (hleaf : u.IsLeaf) {path : List Value} {entries : Entries} {base : Value}
    (h : (updated base u).at? path = some (.map entries)) : entries.map (·.1) = base.keysAt path := by
  by_cases hne : u = .null
  · rw [hne, updated_null] at h
    exact (keysAt_of_at?_eq_map h).symm
  · rw [updated_of_isLeaf hleaf hne] at h
    exact absurd h (hleaf.at?_ne_map path entries)

/-- In a mapping of the merge the keys of the base come first, in their order, and then the new ones of the update. -/
theorem keysAt_updated {u : Value} (hu : u.HasDistinctKeys) {path : List Value} {entries : Entries} {base : Value}
    (h : (updated base u).at? path = some (.map entries)) : entries.map (·.1) =
      base.keysAt path ++ (u.keysAt path).filter fun key => !(base.keysAt path).any (·.sameKey key) := by
  induction path generalizing base u with
  | nil =>
    rcases isLeaf_or_exists_map u with hleaf | ⟨update, rfl⟩
    · rw [keysAt_updated_of_isLeaf hleaf h, hleaf.keysAt_eq_nil, List.filter_nil, List.append_nil]
    · have hkeys : (Value.map update).keysAt [] = update.map (·.1) := rfl
      rcases isLeaf_or_exists_map base with hbase | ⟨below, rfl⟩
      · rw [updated_map_of_isLeaf hbase] at h
        obtain rfl : update = entries := Value.map.inj (Option.some.inj h)
        simp [hbase.keysAt_eq_nil, hkeys]
      · rw [updated] at h
        obtain rfl : merge below update = entries := Value.map.inj (Option.some.inj h)
        rw [keys_merge hu.top, hkeys]
        simp only [isNone_find?_eq]
        rfl
  | cons key path ih =>
    rcases isLeaf_or_exists_map u with hleaf | ⟨update, rfl⟩
    · rw [keysAt_updated_of_isLeaf hleaf h, hleaf.keysAt_eq_nil, List.filter_nil, List.append_nil]
    · rw [at?_updated_cons hu.top] at h
      rw [keysAt_cons, keysAt_cons, child?_map]
      cases hbase : base.child? key with
      | none =>
        rw [hbase, updated?] at h
        obtain ⟨w, hfind, hw⟩ := Option.bind_eq_some_iff.1 h
        simp [hfind, keysAt_of_at?_eq_map hw]
      | some old =>
        cases hfind : find? update key with
        | none =>
          rw [hbase, hfind] at h
          have hold : old.at? path = some (.map entries) := h
          simp [keysAt_of_at?_eq_map hold]
        | some w =>
          rw [hbase, hfind] at h
          exact ih (hu.child hfind) h

/-! ### The merge -/

/-- A merge with exactly the right leaves. -/
structure KeepsLeaves (base update merged : Value) : Prop where
  /-- A leaf of the update is there, unless it is null. -/
  update_leaf : ∀ path v, update.at? path = some v → v.IsLeaf → v ≠ .null → merged.at? path = some v
  /-- A leaf of the base is there exactly when the update spares it or has the same leaf. -/
  base_leaf : ∀ path v, base.at? path = some v → v.IsLeaf →
    (merged.at? path = some v ↔ Spares update path ∨ update.at? path = some v)
  /-- No other leaf is there. -/
  leaf : ∀ path v, merged.at? path = some v → v.IsLeaf → base.at? path = some v ∨ update.at? path = some v
  /-- Under a null of the update the base stays, a leaf or a mapping. -/
  null : ∀ path v, update.at? path = some .null → base.at? path = some v → merged.at? path = some v
  /-- At every level the keys of the base come first, in their order, and then the new ones of the update in theirs. -/
  keys : ∀ path entries, merged.at? path = some (.map entries) → entries.map (·.1) =
    base.keysAt path ++ (update.keysAt path).filter fun key => !(base.keysAt path).any (·.sameKey key)

/-- **A merge keeps exactly the right leaves.** The update is a mapping with distinct keys throughout; the depth of the
two and the shapes of their values are arbitrary. -/
theorem merge_keeps_leaves (base update : Entries) (h : (Value.map update).HasDistinctKeys) :
    KeepsLeaves (.map base) (.map update) (.map (merge base update)) := by
  have hmerged : Value.map (merge base update) = updated (.map base) (.map update) := by rw [updated]
  rw [hmerged]
  constructor
  · intro path v hu hv hne
    exact (at?_updated_of_not_spares h (fun hs => hne (eq_null_of_spares hs hu)) hv _).2 hu
  · intro path v hb hv
    by_cases hs : Spares (.map update) path
    · simp [at?_updated_of_spares h hs, hb, hs]
    · simp [at?_updated_of_not_spares h hs hv, hs]
  · intro path v hm hv
    by_cases hs : Spares (.map update) path
    · rw [at?_updated_of_spares h hs, Option.or_eq_some_iff] at hm
      exact hm.imp_right And.right
    · exact Or.inr ((at?_updated_of_not_spares h hs hv _).1 hm)
  · intro path v hu hb
    rw [at?_updated_of_spares h (spares_of_at?_eq_null hu), hb, Option.some_or]
  · intro path entries hm
    exact keysAt_updated h hm

/-- A section is replaced in part, a null leaves another one as it is, and a third one is new. -/
theorem merge_keeps_leaves_of_three_sections :
    let base : Entries := [
      (.lit "language", .map [(.lit "extension", .lit "java"), (.lit "package", .lit "java.lang")]),
      (.lit "editor", .map [(.lit "command", .lit "vi")])]
    let update : Entries := [(.int 1, .null), (.lit "language", .map [(.lit "extension", .lit "groovy")]),
      (.lit "editor", .null)]
    KeepsLeaves (.map base) (.map update) (.map (merge base update)) ∧
      (Value.map (merge base update)).at? [.lit "language", .lit "package"] = some (.lit "java.lang") ∧
      (Value.map (merge base update)).at? [.lit "editor", .lit "command"] = some (.lit "vi") := by
  intro base update
  have hleaf : ∀ t, (Value.lit t).IsLeaf := fun t entries => nofun
  have hnull : Value.null.IsLeaf := fun entries => nofun
  have hlanguage : (Value.map [(.lit "extension", .lit "groovy")]).HasDistinctKeys :=
    hasDistinctKeys_map (List.pairwise_singleton _ _) (by simpa using (hleaf _).hasDistinctKeys)
  have hupdate : (Value.map update).HasDistinctKeys := by
    refine hasDistinctKeys_map ?_ ?_
    · unfold Entries.HasDistinctKeys
      decide
    · simp [update, hlanguage, hnull.hasDistinctKeys]
  have hmerge := merge_keeps_leaves base update hupdate
  refine ⟨hmerge, ?_, ?_⟩
  · exact (hmerge.base_leaf _ _ rfl (hleaf _)).2 (Or.inl (.deeper rfl (.missing [] rfl)))
  · exact (hmerge.base_leaf _ _ rfl (hleaf _)).2 (Or.inl (.deeper rfl (.null _)))

end Config

end SourceJump
