import SourceJump.Proofs.Config.Documents
import Mathlib.Data.List.Nodup

/-!
# What a merge comes to

An update over entries with distinct keys leaves these keys where they are, each with the value that the update makes of
it, and puts the entries with other keys behind them, in their order and as they are (`merge_eq`). A value that is not
null never becomes null (`exists_find?_merge`).
-/

namespace SourceJump

namespace Entries

/-- A key that is there is found behind entries with other keys. -/
theorem exists_append_of_find? {entries : Entries} {key old : Value} (h : find? entries key = some old) :
    ∃ front k back, entries = front ++ (k, old) :: back ∧ k.sameKey key = true ∧
      ∀ e ∈ front, e.1.sameKey key = false := by
  obtain ⟨⟨k, v⟩, hfind, rfl⟩ := Option.map_eq_some_iff.1 h
  obtain ⟨hsame, front, back, hcut, hfront⟩ := List.find?_eq_some_iff_append.1 hfind
  exact ⟨front, k, back, hcut, hsame, fun e he => by simpa using hfront e he⟩

theorem insert_append_of_sameKey {front back : Entries} {k key old value : Value} (hsame : k.sameKey key = true)
    (hfront : ∀ e ∈ front, e.1.sameKey key = false) :
    insert (front ++ (k, old) :: back) key value = front ++ (k, value) :: back := by
  induction front with
  | nil => simp [insert, hsame]
  | cons e front ih =>
    obtain ⟨he, hrest⟩ := List.forall_mem_cons.1 hfront
    simp [insert, he, ih hrest]

/-- A key that is not there is added at the end. -/
theorem insert_of_find?_eq_none {entries : Entries} {key value : Value} (h : find? entries key = none) :
    insert entries key value = entries ++ [(key, value)] := by
  induction entries with
  | nil => rfl
  | cons e entries ih =>
    rw [find?, Option.map_eq_none_iff, List.find?_eq_none, List.forall_mem_cons] at h
    rw [insert, if_neg h.1, ih (by rw [find?, Option.map_eq_none_iff, List.find?_eq_none]; exact h.2), List.cons_append]

/-- Whether keys are distinct does not depend on the values. -/
theorem hasDistinctKeys_iff {entries : Entries} : entries.HasDistinctKeys ↔
    (entries.map (·.1)).Pairwise fun k k' => k.sameKey k' = false := by
  rw [HasDistinctKeys, List.pairwise_map]

/-- Whether a key is there does not depend on the values. -/
theorem isNone_find?_append_cons (front back : Entries) (k old value key : Value) :
    (find? (front ++ (k, value) :: back) key).isNone = (find? (front ++ (k, old) :: back) key).isNone := by
  simp only [find?, List.find?_append, List.find?_cons]
  cases k.sameKey key <;> cases List.find? (fun e => e.1.sameKey key) front <;> rfl

theorem find?_append_of_find?_eq_none {entries extra : Entries} {key : Value}
    (hextra : ∀ e ∈ extra, e.1.sameKey key = false) : find? (entries ++ extra) key = find? entries key := by
  have hnone : List.find? (fun e => e.1.sameKey key) extra = none := by simpa using hextra
  rw [find?, List.find?_append, hnone, Option.or_none, find?]

end Entries

namespace Config

open Entries

/-- What becomes of an entry under an update. -/
def updatedEntry (update : Entries) (e : Value × Value) : Value × Value :=
  (e.1, updated e.2 ((find? update e.1).getD .null))

theorem updatedEntry_nil (e : Value × Value) : updatedEntry [] e = e := by
  rw [updatedEntry, find?, List.find?_nil, Option.map_none, Option.getD_none, updated_null]

theorem updatedEntry_cons_of_ne {key : Value} (value : Value) (rest : Entries) {e : Value × Value}
    (hne : key.sameKey e.1 = false) : updatedEntry ((key, value) :: rest) e = updatedEntry rest e := by
  rw [updatedEntry, updatedEntry, find?_cons, if_neg (by rw [hne]; decide)]

/-- The first entry of an update counts for the entry with its key, and for the others the rest does. -/
theorem map_updatedEntry_cons {front back rest : Entries} {k key old value : Value} (hsame : k.sameKey key = true)
    (hbase : HasDistinctKeys (front ++ (k, old) :: back)) (h : HasDistinctKeys ((key, value) :: rest)) :
    (front ++ (k, old) :: back).map (updatedEntry ((key, value) :: rest)) =
      (front ++ (k, updated old value) :: back).map (updatedEntry rest) := by
  obtain ⟨-, hback, hcross⟩ := List.pairwise_append.1 hbase
  have hother : ∀ e, k.sameKey e.1 = false → updatedEntry ((key, value) :: rest) e = updatedEntry rest e :=
    fun e he => updatedEntry_cons_of_ne value rest ((Value.sameKey_congr hsame e.1).symm.trans he)
  have hself : updatedEntry ((key, value) :: rest) (k, old) = updatedEntry rest (k, updated old value) := by
    have hkey : key.sameKey k = true := by rwa [Value.sameKey_comm]
    simp only [updatedEntry, find?_cons, if_pos hkey, find?_congr hsame rest, h.find?_eq_none, Option.getD_some,
      Option.getD_none, updated_null]
  rw [List.map_append, List.map_append, List.map_cons, List.map_cons, hself,
    List.map_congr_left fun e he => hother e (by rw [Value.sameKey_comm]; exact hcross e he _ List.mem_cons_self),
    List.map_congr_left fun e he => hother e (List.rel_of_pairwise_cons hback he)]

/-- Merging, entry by entry. The keys of `base` are distinct; `extra` is what the merge has added so far. -/
theorem merge_append {base extra update : Entries} (hbase : base.HasDistinctKeys) (h : update.HasDistinctKeys)
    (hextra : ∀ e ∈ extra, ∀ u ∈ update, e.1.sameKey u.1 = false) :
    merge (base ++ extra) update =
      base.map (updatedEntry update) ++ (extra ++ update.filter fun u => (find? base u.1).isNone) := by
  induction update generalizing base extra with
  | nil =>
    rw [merge, List.filter_nil, List.append_nil, List.map_congr_left fun e _ => updatedEntry_nil e, List.map_id']
  | cons u rest ih =>
    obtain ⟨key, value⟩ := u
    have hrest : ∀ e ∈ extra, ∀ u ∈ rest, e.1.sameKey u.1 = false :=
      fun e he u hu => hextra e he u (List.mem_cons_of_mem _ hu)
    have hfind : find? (base ++ extra) key = find? base key :=
      find?_append_of_find?_eq_none fun e he => hextra e he _ List.mem_cons_self
    rw [merge_cons, hfind]
    cases hold : find? base key with
    | none =>
      -- A new key comes behind what has been added before.
      have hnew : ∀ e ∈ extra ++ [(key, value)], ∀ u ∈ rest, e.1.sameKey u.1 = false := by
        intro e he u hu
        rcases List.mem_append.1 he with he | he
        · exact hrest e he u hu
        · obtain rfl := List.mem_singleton.1 he
          exact List.rel_of_pairwise_cons h hu
      have hsame : base.map (updatedEntry ((key, value) :: rest)) = base.map (updatedEntry rest) := by
        refine List.map_congr_left fun e he => updatedEntry_cons_of_ne value rest ?_
        rw [find?, Option.map_eq_none_iff, List.find?_eq_none] at hold
        rw [Value.sameKey_comm]
        exact Bool.eq_false_iff.2 (hold e he)
      rw [Option.map_none, Option.getD_none, insert_of_find?_eq_none (hfind.trans hold), List.append_assoc,
        ih hbase h.of_cons hnew, hsame, List.filter_cons_of_pos (by simp [hold]), List.append_assoc,
        List.singleton_append]
    | some old =>
      -- A key of the base stays in its place.
      obtain ⟨front, k, back, rfl, hsame, hfront⟩ := exists_append_of_find? hold
      have hbase' : HasDistinctKeys (front ++ (k, updated old value) :: back) := by
        rw [hasDistinctKeys_iff] at hbase ⊢
        simpa using hbase
      have hfilter : (fun u : Value × Value => (find? (front ++ (k, updated old value) :: back) u.1).isNone) =
          fun u => (find? (front ++ (k, old) :: back) u.1).isNone :=
        funext fun u => isNone_find?_append_cons front back _ old _ u.1
      rw [Option.map_some, Option.getD_some, List.append_assoc, List.cons_append, insert_append_of_sameKey hsame hfront,
        ← List.cons_append, ← List.append_assoc, ih hbase' h.of_cons hrest, hfilter,
        List.filter_cons_of_neg (by simp [hold]), map_updatedEntry_cons hsame hbase h]

/-- **Merging, said without recursion.** -/
theorem merge_eq {base update : Entries} (hbase : base.HasDistinctKeys) (h : update.HasDistinctKeys) :
    merge base update = base.map (updatedEntry update) ++ update.filter fun u => (find? base u.1).isNone := by
  have hextra : ∀ e ∈ ([] : Entries), ∀ u ∈ update, e.1.sameKey u.1 = false := by simp
  have hmerge := merge_append hbase h hextra
  rwa [List.append_nil, List.nil_append] at hmerge

/-! ### Null keeps what is there -/

theorem updated_ne_null {old : Value} (h : old ≠ .null) (update : Value) : updated old update ≠ .null := by
  cases update with
  | null => rwa [updated_null]
  | map entries => cases old <;> simp [updated]
  | _ => simp [updated]

/-- A value that is not null is never lost. -/
theorem exists_find?_merge (update : Entries) {base : Entries} {key old : Value} (hold : find? base key = some old)
    (hne : old ≠ .null) : ∃ new, find? (merge base update) key = some new ∧ new ≠ .null := by
  induction update generalizing base old with
  | nil => exact ⟨old, by rw [merge, hold], hne⟩
  | cons u rest ih =>
    obtain ⟨k, value⟩ := u
    rw [merge_cons]
    by_cases hk : k.sameKey key = true
    · have hnew : find? (insert base k (((find? base k).map (updated · value)).getD value)) key =
          some (updated old value) := by
        rw [find?_insert, if_pos hk, find?_congr hk, hold, Option.map_some, Option.getD_some]
      exact ih hnew (updated_ne_null hne value)
    · exact ih (by rw [find?_insert, if_neg hk, hold]) hne

end Config

end SourceJump
