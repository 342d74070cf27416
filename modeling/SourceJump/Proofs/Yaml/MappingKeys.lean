import SourceJump.Yaml.Object
import Mathlib.Data.List.Basic

/-!
# The keys of a mapping

Entries are put into a mapping one by one: a key that is there already gets another value, any other is added. So no
two keys are the same, and as a key is no collection, objects that come into being later or are filled later change
nothing about it. Among sound objects the value of a mapping has distinct keys too (`Objects.IsSound.distinct`).
-/

namespace SourceJump

namespace Yaml.Objects

variable {objects objects' : Objects}

/-- Every object that is no collection is there still. -/
def Keeps (objects objects' : Objects) : Prop :=
  ∀ ⦃id : ObjectId⦄ ⦃v : Value⦄, objects.all[id]? = some (.value v) → objects'.all[id]? = some (.value v)

/-- The keys of a mapping: none is a collection, and no two are the same. -/
structure IsKeyed (objects : Objects) (keys : List ObjectId) : Prop where
  scalar : ∀ key ∈ keys, ∃ v, objects.all[key]? = some (.value v)
  distinct : keys.Pairwise fun a b => objects.sameKey a b = false

/-- Objects among which mappings have such keys, and what is no collection is no mapping. -/
structure IsSound (objects : Objects) : Prop where
  scalar : ∀ {id : ObjectId} {v : Value}, objects.all[id]? = some (.value v) → ∀ entries, v ≠ .map entries
  keyed : ∀ {id : ObjectId} {entries : List (ObjectId × ObjectId)}, objects.all[id]? = some (.map entries) →
    objects.IsKeyed (entries.map (·.1))

theorem get_of_getElem? {id : ObjectId} {object : Object} (h : objects.all[id]? = some object) :
    objects.get id = object := by
  rw [get, Array.getD_eq_getD_getElem?, h, Option.getD_some]

theorem exists_of_isKey {id : ObjectId} (hsize : id < objects.all.size) (h : (objects.get id).isKey = true) :
    ∃ v, objects.all[id]? = some (.value v) := by
  have hid := Array.getElem?_eq_getElem hsize
  rw [get_of_getElem? hid] at h
  cases hobject : objects.all[id] with
  | value v => exact ⟨v, by rw [hid, hobject]⟩
  | _ =>
    rw [hobject] at h
    cases h

theorem isKeyed_nil : objects.IsKeyed [] :=
  ⟨by simp, .nil⟩

/-! ### Keys stay keys -/

theorem IsKeyed.of_keeps {keys : List ObjectId} (h : objects.IsKeyed keys) (hkeeps : objects.Keeps objects') :
    objects'.IsKeyed keys := by
  refine ⟨fun key hkey => ?_, h.distinct.imp_of_mem fun {a b} ha hb hab => ?_⟩
  · obtain ⟨v, hv⟩ := h.scalar key hkey
    exact ⟨v, hkeeps hv⟩
  · obtain ⟨v, hv⟩ := h.scalar a ha
    obtain ⟨w, hw⟩ := h.scalar b hb
    rw [sameKey, get_of_getElem? hv, get_of_getElem? hw] at hab
    rw [sameKey, get_of_getElem? (hkeeps hv), get_of_getElem? (hkeeps hw)]
    exact hab

/-- Putting an entry in either keeps the keys or adds one that none of them is. -/
theorem keys_insert (entries : List (ObjectId × ObjectId)) (key value : ObjectId) :
    (objects.insert entries key value).map (·.1) = entries.map (·.1) ∨
      (∀ k ∈ entries.map (·.1), objects.sameKey k key = false) ∧
        (objects.insert entries key value).map (·.1) = entries.map (·.1) ++ [key] := by
  induction entries with
  | nil => exact Or.inr ⟨by simp, rfl⟩
  | cons entry rest ih =>
    obtain ⟨k, v⟩ := entry
    rw [insert]
    by_cases hk : objects.sameKey k key = true
    · exact Or.inl (by simp [hk])
    · rw [if_neg hk]
      rw [Bool.not_eq_true] at hk
      rcases ih with hkeys | ⟨hother, hkeys⟩
      · exact Or.inl (by simp [hkeys])
      · exact Or.inr ⟨by simpa [hk] using hother, by simp [hkeys]⟩

theorem IsKeyed.insert {entries : List (ObjectId × ObjectId)} (h : objects.IsKeyed (entries.map (·.1)))
    {key : ObjectId} {v : Value} (hkey : objects.all[key]? = some (.value v)) (value : ObjectId) :
    objects.IsKeyed ((objects.insert entries key value).map (·.1)) := by
  rcases keys_insert entries key value with hkeys | ⟨hother, hkeys⟩
  · rwa [hkeys]
  · rw [hkeys]
    refine ⟨fun k hk => ?_, ?_⟩
    · rcases List.mem_append.1 hk with hk | hk
      · exact h.scalar k hk
      · obtain rfl := List.mem_singleton.1 hk
        exact ⟨v, hkey⟩
    · refine List.pairwise_append.2 ⟨h.distinct, List.pairwise_singleton _ _, fun a ha b hb => ?_⟩
      obtain rfl := List.mem_singleton.1 hb
      exact hother a ha

/-! ### Objects that are added or filled -/

theorem keeps_push (object : Object) : objects.Keeps ⟨objects.all.push object⟩ := by
  intro id v h
  obtain ⟨hid, -⟩ := Array.getElem?_eq_some_iff.1 h
  rw [Array.getElem?_push_lt hid]
  simpa [hid] using h

/-- Filling a collection keeps what is none. -/
theorem keeps_set {id : ObjectId} {object content : Object} (h : objects.all[id]? = some object)
    (hobject : object.isKey = false) : objects.Keeps ⟨objects.all.setIfInBounds id content⟩ := by
  intro key v hkey
  have hne : id ≠ key := by
    rintro rfl
    rw [h] at hkey
    obtain rfl := Option.some.inj hkey
    cases hobject
  rwa [Array.getElem?_setIfInBounds_ne hne]

/-- An object that can be added, or put in the place of another, among sound objects. -/
structure Fits (objects : Objects) (object : Object) : Prop where
  scalar : ∀ {v : Value}, object = .value v → ∀ entries, v ≠ .map entries
  keyed : ∀ {entries : List (ObjectId × ObjectId)}, object = .map entries → objects.IsKeyed (entries.map (·.1))

theorem fits_value {v : Value} (h : ∀ entries, v ≠ .map entries) : objects.Fits (.value v) := by
  refine ⟨fun {w} hvalue => ?_, fun {entries} hmap => by cases hmap⟩
  obtain rfl := Object.value.inj hvalue
  exact h

/-- A collection can be added when it is no mapping or one with the keys of a mapping. -/
theorem fits_of_isKey_eq_false {object : Object} (h : object.isKey = false)
    (hkeyed : ∀ {entries : List (ObjectId × ObjectId)}, object = .map entries → objects.IsKeyed (entries.map (·.1))) :
    objects.Fits object := by
  refine ⟨fun {v} hvalue => ?_, hkeyed⟩
  rw [hvalue] at h
  cases h

/-- Objects stay sound when they change in one place, to an object that fits, and keep what is no collection. -/
theorem IsSound.of_keeps (h : objects.IsSound) {object : Object} (hobject : objects.Fits object)
    (hkeeps : objects.Keeps objects')
    (hcases : ∀ {id : ObjectId} {found : Object}, objects'.all[id]? = some found →
      objects.all[id]? = some found ∨ object = found) : objects'.IsSound := by
  refine ⟨fun hv => ?_, fun hentries => ?_⟩
  · rcases hcases hv with hv | hv
    · exact h.scalar hv
    · exact hobject.scalar hv
  · rcases hcases hentries with hentries | hentries
    · exact (h.keyed hentries).of_keeps hkeeps
    · exact (hobject.keyed hentries).of_keeps hkeeps

theorem IsSound.push (h : objects.IsSound) {object : Object} (hobject : objects.Fits object) :
    IsSound ⟨objects.all.push object⟩ := by
  refine h.of_keeps hobject (keeps_push object) fun {id found} hfound => ?_
  rw [Array.getElem?_push] at hfound
  split at hfound
  · exact Or.inr (Option.some.inj hfound)
  · exact Or.inl hfound

theorem IsSound.set (h : objects.IsSound) {id : ObjectId} {object content : Object}
    (hid : objects.all[id]? = some object) (hobject : object.isKey = false) (hcontent : objects.Fits content) :
    IsSound ⟨objects.all.setIfInBounds id content⟩ := by
  refine h.of_keeps hcontent (keeps_set hid hobject) fun {other found} hfound => ?_
  rw [Array.getElem?_setIfInBounds] at hfound
  split at hfound
  · split at hfound
    · exact Or.inr (Option.some.inj hfound)
    · cases hfound
  · exact Or.inl hfound

/-! ### The value of a mapping -/

/-- Members whose values, where they are known, are those of the objects that are no collections. -/
def Tells (objects : Objects) (member : ObjectId → Option Value) : Prop :=
  ∀ ⦃id : ObjectId⦄ ⦃v w : Value⦄, objects.all[id]? = some (.value v) → member id = some w → w = v

/-- The value that an object has when its members have values. -/
def Denotes (objects : Objects) (id : ObjectId) (v : Value) : Prop :=
  ∃ member, objects.Tells member ∧ (objects.get id).toValue? member = some v

theorem distinct_of_mapM {member : ObjectId → Option Value} (hmember : objects.Tells member)
    {entries : List (ObjectId × ObjectId)} {found : Entries} (h : objects.IsKeyed (entries.map (·.1)))
    (hfound : entries.mapM (fun (k, v) => do return (← member k, ← member v)) = some found) :
    found.HasDistinctKeys ∧ ∀ e ∈ found, ∃ key ∈ entries.map (·.1), objects.all[key]? = some (.value e.1) := by
  induction entries generalizing found with
  | nil =>
    obtain rfl : [] = found := by simpa using hfound
    exact ⟨.nil, by simp⟩
  | cons entry rest ih =>
    obtain ⟨k, v⟩ := entry
    simp only [List.mapM_cons, bind, Option.bind_eq_some_iff, pure, Option.some.injEq] at hfound
    obtain ⟨e, ⟨key, hkey, value, -, rfl⟩, tail, htail, rfl⟩ := hfound
    rw [List.map_cons] at h
    obtain ⟨hdistinct, hrest⟩ := ih ⟨fun a ha => h.scalar a (List.mem_cons_of_mem _ ha), h.distinct.of_cons⟩ htail
    obtain ⟨w, hw⟩ := h.scalar k List.mem_cons_self
    obtain rfl := hmember hw hkey
    refine ⟨List.pairwise_cons.2 ⟨fun f hf => ?_, hdistinct⟩, fun e he => ?_⟩
    · obtain ⟨other, hother, hf⟩ := hrest f hf
      have hne := List.rel_of_pairwise_cons h.distinct hother
      rw [sameKey, get_of_getElem? hw, get_of_getElem? hf, Bool.or_eq_false_iff] at hne
      exact hne.2
    · rcases List.mem_cons.1 he with rfl | he
      · exact ⟨k, by simp, hw⟩
      · obtain ⟨other, hother, he⟩ := hrest e he
        exact ⟨other, List.mem_cons_of_mem _ hother, he⟩

/-- A mapping that is the value of one of sound objects has distinct keys. -/
theorem IsSound.distinct_of_denotes (h : objects.IsSound) {id : ObjectId} {entries : Entries}
    (hentries : objects.Denotes id (.map entries)) : entries.HasDistinctKeys := by
  obtain ⟨member, hmember, hvalue⟩ := hentries
  cases hid : objects.all[id]? with
  | none =>
    rw [get, Array.getD_eq_getD_getElem?, hid] at hvalue
    simp [Object.toValue?] at hvalue
  | some object =>
    rw [get_of_getElem? hid] at hvalue
    cases object with
    | value v => exact absurd (Option.some.inj hvalue) (h.scalar hid entries)
    | map found =>
      have hfound : found.mapM (fun (k, v) => do return (← member k, ← member v)) = some entries := by
        simpa [Object.toValue?] using hvalue
      exact (distinct_of_mapM hmember (h.keyed hid) hfound).1
    | _ => simp [Object.toValue?] at hvalue

/-- Values that settled objects have. -/
def IsSettled (objects : Objects) (settled : Settled) : Prop :=
  ∀ ⦃id : ObjectId⦄ ⦃v : Value⦄, settled.getD id none = some v → objects.Denotes id v

theorem Denotes.eq_of_value {id : ObjectId} {v w : Value} (h : objects.Denotes id w)
    (hv : objects.all[id]? = some (.value v)) : w = v := by
  obtain ⟨member, -, hvalue⟩ := h
  rw [get_of_getElem? hv] at hvalue
  exact (Option.some.inj hvalue).symm

theorem IsSettled.tells {settled : Settled} (h : objects.IsSettled settled) :
    objects.Tells fun id => settled.getD id none :=
  fun _ _ _ hv hw => (h hw).eq_of_value hv

theorem isSettled_replicate (count : Nat) : objects.IsSettled (Array.replicate count none) := by
  intro id v h
  simp [Array.getD_eq_getD_getElem?, Array.getElem?_replicate] at h
  split at h <;> simp at h

theorem IsSettled.settleOnce {settled : Settled} (h : objects.IsSettled settled) :
    objects.IsSettled (objects.settleOnce settled) := by
  unfold Objects.settleOnce
  induction List.range objects.all.size with
  | nil => exact h
  | cons id ids ih =>
    rw [List.foldr_cons]
    generalize ids.foldr _ settled = later at ih
    split
    · exact ih
    · intro other v hv
      rw [Array.getD_eq_getD_getElem?, Array.getElem?_setIfInBounds] at hv
      by_cases hid : id = other
      · subst hid
        by_cases hsize : id < later.size
        · exact ⟨_, ih.tells, by simpa [hsize] using hv⟩
        · simp [hsize] at hv
      · rw [if_neg hid, ← Array.getD_eq_getD_getElem?] at hv
        exact ih hv

theorem IsSettled.settle {settled : Settled} (h : objects.IsSettled settled) (steps : Nat) :
    objects.IsSettled (objects.settle steps settled) := by
  induction steps generalizing settled with
  | zero => exact h
  | succ steps ih =>
    rw [Objects.settle]
    split
    · exact h.settleOnce
    · exact ih h.settleOnce

/-- Where an object is spelled out outside of itself, what is no collection is spelled out as its value. -/
theorem spell_of_value {settled : Settled} (h : objects.IsSettled settled) {id : ObjectId} {v : Value}
    (hid : objects.all[id]? = some (.value v)) (fresh steps level : Nat) {around : List ObjectId}
    (haround : id ∉ around) : objects.spell settled fresh (steps + 1) level around id = v := by
  rw [spell]
  split
  · next w hw => exact (h hw).eq_of_value hid
  · simp [haround, get_of_getElem? hid, Object.toValue?]

/-- The members of a collection tell, spelled out inside it: no key is the collection, and a step is left to spell
one out. -/
theorem IsSettled.tells_spell {settled : Settled} (h : objects.IsSettled settled) {id : ObjectId}
    (hid : ¬ ∃ v, objects.all[id]? = some (.value v)) (fresh level : Nat) {around : List ObjectId}
    (haround : around ⊆ [id]) :
    objects.Tells fun m => some (objects.spell settled fresh (fresh + objects.all.size) level around m) := by
  intro m v w hm hw
  dsimp only at hw
  have hoff : m ∉ around := by
    intro hmem
    obtain rfl := List.mem_singleton.1 (haround hmem)
    exact hid ⟨v, hm⟩
  obtain ⟨hsize, -⟩ := Array.getElem?_eq_some_iff.1 hm
  obtain ⟨steps, hsteps⟩ : ∃ steps, fresh + objects.all.size = steps + 1 := ⟨fresh + objects.all.size - 1, by omega⟩
  rw [hsteps, spell_of_value h hm _ _ _ hoff] at hw
  exact (Option.some.inj hw).symm

/-- An object that is no collection denotes its value. -/
theorem denotes_of_value {id : ObjectId} {v : Value} (hid : objects.all[id]? = some (.value v)) :
    objects.Denotes id v :=
  ⟨fun _ => none, by simp [Tells], by rw [get_of_getElem? hid, Object.toValue?]⟩

/-- An object is spelled out as what it denotes, unless it is spelled out as nothing. -/
theorem denotes_toValue (objects : Objects) (fresh : Nat) (id : ObjectId) :
    objects.toValue fresh id = .null ∨ objects.Denotes id (objects.toValue fresh id) := by
  unfold toValue
  dsimp only
  have hsettled : objects.IsSettled (objects.settle objects.all.size (Array.replicate objects.all.size none)) :=
    (isSettled_replicate _).settle _
  generalize objects.settle objects.all.size _ = settled at hsettled ⊢
  by_cases hscalar : ∃ v, objects.all[id]? = some (.value v)
  · obtain ⟨v, hv⟩ := hscalar
    rw [spell_of_value hsettled hv _ _ _ List.not_mem_nil]
    exact Or.inr (denotes_of_value hv)
  · rw [spell]
    split
    · next w hw => exact Or.inr (hsettled hw)
    · simp only [List.contains_nil, Bool.false_eq_true, if_false]
      have haround : (if 0 < fresh then [] else [id]) ⊆ [id] := by split <;> simp
      have htells := hsettled.tells_spell hscalar fresh (0 + 1) haround
      cases hvalue : (objects.get id).toValue? fun m =>
          some (objects.spell settled fresh (fresh + objects.all.size) (0 + 1) (if 0 < fresh then [] else [id]) m) with
      | none => exact Or.inl rfl
      | some v => exact Or.inr ⟨_, htells, hvalue⟩

/-- **A mapping has distinct keys** when it is the value of one of sound objects. -/
theorem IsSound.distinct (h : objects.IsSound) {fresh : Nat} {id : ObjectId} {entries : Entries}
    (hentries : objects.toValue fresh id = .map entries) : entries.HasDistinctKeys := by
  have hdenotes := objects.denotes_toValue fresh id
  rw [hentries] at hdenotes
  rcases hdenotes with hnull | hdenotes
  · cases hnull
  · exact h.distinct_of_denotes hdenotes

end Yaml.Objects

end SourceJump
