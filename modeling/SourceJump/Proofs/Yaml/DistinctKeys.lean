import SourceJump.Proofs.Yaml.MappingKeys
import SourceJump.Yaml.Load

/-!
# Documents have distinct keys

Building adds objects and fills those that wait, and no object that waits is a scalar. So the objects stay sound from
step to step (`Builder.Extends`, `Builder.isSound_fillAll`), and a document that is a mapping has distinct keys
(`load_distinctKeys`).
-/

namespace SourceJump.Yaml

namespace Builder

/-- A state with sound objects, in which every object that a node has is there and those that wait are collections. -/
structure IsSound (b : Builder) : Prop where
  objects : b.objects.IsSound
  undefined : undefinedNumber < b.objects.all.size
  made : ∀ {id : NodeId} {object : ObjectId}, b.made.getD id none = some object → object < b.objects.all.size
  waits : ∀ {id : NodeId} {object : ObjectId}, (id, object) ∈ b.waiting ++ b.later →
    ∃ empty : Object, b.objects.all[object]? = some empty ∧ empty.isKey = false

/-- A sound state that has come from another by adding objects. -/
structure Extends (b b' : Builder) : Prop where
  sound : b'.IsSound
  grows : ∀ ⦃id : ObjectId⦄ ⦃object : Object⦄, b.objects.all[id]? = some object → b'.objects.all[id]? = some object

theorem IsSound.extends_self {b : Builder} (h : b.IsSound) : b.Extends b :=
  ⟨h, fun _ _ h => h⟩

theorem Extends.trans {b b' b'' : Builder} (h : b.Extends b') (h' : b'.Extends b'') : b.Extends b'' :=
  ⟨h'.sound, fun _ _ hobject => h'.grows (h.grows hobject)⟩

theorem Extends.keeps {b b' : Builder} (h : b.Extends b') : b.objects.Keeps b'.objects :=
  fun _ _ hv => h.grows hv

/-! ### Runs in parts -/

theorem exists_of_bind {α β : Type} {x : BuilderM α} {f : α → BuilderM β} {b b'' : Builder} {r : β}
    (h : (x >>= f).run b = .ok (r, b'')) : ∃ a b', x.run b = .ok (a, b') ∧ (f a).run b' = .ok (r, b'') := by
  rw [StateT.run_bind] at h
  cases hx : x.run b with
  | error e =>
    rw [hx] at h
    cases h
  | ok p =>
    rw [hx] at h
    exact ⟨p.1, p.2, rfl, h⟩

theorem run_get_bind {β : Type} (f : Builder → BuilderM β) (b : Builder) : (get >>= f).run b = (f b).run b := rfl

theorem exists_of_map {α β : Type} {x : BuilderM α} {f : α → β} {b b' : Builder} {r : β}
    (h : (f <$> x).run b = .ok (r, b')) : ∃ a, x.run b = .ok (a, b') ∧ f a = r := by
  rw [map_eq_pure_bind] at h
  obtain ⟨a, b₁, hx, h⟩ := exists_of_bind h
  cases h
  exact ⟨a, hx, rfl⟩

theorem extends_mapM {α β : Type} {f : α → BuilderM β}
    (hf : ∀ {x b r b'}, b.IsSound → (f x).run b = .ok (r, b') → b.Extends b') {xs : List α} {b b' : Builder}
    {r : List β} (hb : b.IsSound) (h : (xs.mapM f).run b = .ok (r, b')) : b.Extends b' := by
  induction xs generalizing b r with
  | nil =>
    rw [List.mapM_nil] at h
    cases h
    exact hb.extends_self
  | cons x xs ih =>
    rw [List.mapM_cons] at h
    obtain ⟨y, b₁, hx, h⟩ := exists_of_bind h
    obtain ⟨ys, b₂, hxs, h⟩ := exists_of_bind h
    cases h
    have hhead := hf hb hx
    exact hhead.trans (ih hhead.sound hxs)

/-- What reading yields, without a look at the state. -/
theorem eq_ok_of_lift {α : Type} {x : Except Error α} {b b' : Builder} {r : α}
    (h : (liftM x : BuilderM α).run b = .ok (r, b')) : x = .ok r ∧ b' = b := by
  cases x with
  | error e => cases h
  | ok a =>
    cases h
    exact ⟨rfl, rfl⟩

/-! ### Adding objects -/

theorem extends_add {b b' : Builder} {object : Object} {id : ObjectId} (hb : b.IsSound)
    (hobject : b.objects.Fits object) (h : (add object).run b = .ok (id, b')) :
    b.Extends b' ∧ b'.objects.all[id]? = some object := by
  cases h
  have hgrows : ∀ ⦃id : ObjectId⦄ ⦃found : Object⦄, b.objects.all[id]? = some found →
      (b.objects.all.push object)[id]? = some found := by
    intro id found hfound
    obtain ⟨hid, -⟩ := Array.getElem?_eq_some_iff.1 hfound
    rw [Array.getElem?_push, if_neg (by omega)]
    exact hfound
  refine ⟨⟨⟨hb.objects.push hobject, ?_, fun hmade => ?_, fun hwaits => ?_⟩, hgrows⟩, by simp⟩
  · simpa using Nat.lt_succ_of_lt hb.undefined
  · simpa using Nat.lt_succ_of_lt (hb.made hmade)
  · obtain ⟨empty, hempty, hkey⟩ := hb.waits hwaits
    exact ⟨empty, hgrows hempty, hkey⟩

theorem exists_of_map_eq_ok {α β : Type} {f : α → β} {x : Except Error α} {r : β} (h : f <$> x = .ok r) :
    ∃ a, f a = r := by
  cases x with
  | error e => cases h
  | ok a => exact ⟨a, Except.ok.inj h⟩

/-- What a scalar is read as is no mapping. -/
theorem ne_map_of_scalarReader {tag : Tag} {read : Text → Except Error Value} (hread : scalarReader? tag = some read)
    {content : Text} {v : Value} (hv : read content = .ok v) (entries : Entries) : v ≠ .map entries := by
  rintro rfl
  cases tag with
  | null | str =>
    cases hread
    cases hv
  | bool | int | float | binary =>
    cases hread
    obtain ⟨_, hvalue⟩ := exists_of_map_eq_ok hv
    cases hvalue
  | timestamp =>
    cases hread
    unfold readTimestamp at hv
    split at hv
    · cases hv
    · split at hv
      · obtain ⟨_, hvalue⟩ := exists_of_map_eq_ok hv
        cases hvalue
      · simp only [bind, Except.bind] at hv
        split at hv
        · cases hv
        · obtain ⟨_, hvalue⟩ := exists_of_map_eq_ok hv
          cases hvalue
  | _ => cases hread

theorem extends_makeScalar {b b' : Builder} {node : NodeId} {id : ObjectId} (hb : b.IsSound)
    (h : (makeScalar node).run b = .ok (id, b')) : b.Extends b' ∧ id < b'.objects.all.size := by
  unfold makeScalar at h
  rw [run_get_bind] at h
  dsimp only at h
  split at h
  · cases h
  · next read hread =>
    obtain ⟨content, b₃, hcontent, h⟩ := exists_of_bind h
    obtain ⟨-, rfl⟩ := eq_ok_of_lift hcontent
    split at h
    · cases h
    · obtain ⟨v, b₄, hv, h⟩ := exists_of_bind h
      obtain ⟨hread', rfl⟩ := eq_ok_of_lift hv
      split at h
      · cases h
        exact ⟨hb.extends_self, hb.undefined⟩
      · obtain ⟨hextends, hid⟩ := extends_add hb (Objects.fits_value (ne_map_of_scalarReader hread hread')) h
        obtain ⟨hsize, -⟩ := Array.getElem?_eq_some_iff.1 hid
        exact ⟨hextends, hsize⟩

/-- Noting the object of a node. -/
theorem IsSound.note {b : Builder} (h : b.IsSound) {object : ObjectId} (hobject : object < b.objects.all.size)
    (node : NodeId) : IsSound { b with made := b.made.setIfInBounds node (some object) } := by
  refine ⟨h.objects, h.undefined, fun {id found} hfound => ?_, h.waits⟩
  dsimp only at hfound ⊢
  rw [Array.getD_eq_getD_getElem?, Array.getElem?_setIfInBounds] at hfound
  by_cases hid : node = id
  · rw [if_pos hid] at hfound
    split at hfound
    · obtain rfl : object = found := by simpa using hfound
      exact hobject
    · cases hfound
  · rw [if_neg hid, ← Array.getD_eq_getD_getElem?] at hfound
    exact h.made hfound

/-- A collection waits to be filled. -/
theorem IsSound.wait {b : Builder} (h : b.IsSound) {object : ObjectId} {empty : Object}
    (hobject : b.objects.all[object]? = some empty) (hempty : empty.isKey = false) (node : NodeId) :
    IsSound { b with later := (node, object) :: b.later } := by
  refine ⟨h.objects, h.undefined, h.made, fun hwaits => ?_⟩
  dsimp only at hwaits ⊢
  rcases List.mem_append.1 hwaits with hwaits | hwaits
  · exact h.waits (List.mem_append_left _ hwaits)
  · rcases List.mem_cons.1 hwaits with heq | hwaits
    · cases heq
      exact ⟨empty, hobject, hempty⟩
    · exact h.waits (List.mem_append_right _ hwaits)

theorem extends_make {b b' : Builder} {node : NodeId} {id : ObjectId} (hb : b.IsSound)
    (h : (make node).run b = .ok (id, b')) : b.Extends b' ∧ id < b'.objects.all.size := by
  unfold make at h
  rw [run_get_bind] at h
  dsimp only at h
  split at h
  · next object hmade =>
    cases h
    exact ⟨hb.extends_self, hb.made hmade⟩
  · split at h
    · next empty hempty =>
      obtain ⟨object, b₁, hadd, h⟩ := exists_of_bind h
      have hkey : empty.isKey = false := by
        split at hempty <;> cases hempty <;> rfl
      have hfits : b.objects.Fits empty := by
        refine Objects.fits_of_isKey_eq_false hkey fun {entries} hmap => ?_
        obtain rfl : [] = entries := by
          split at hempty <;> cases hempty <;> cases hmap
          rfl
        exact Objects.isKeyed_nil
      obtain ⟨hextends, hobject⟩ := extends_add hb hfits hadd
      obtain ⟨hsize, -⟩ := Array.getElem?_eq_some_iff.1 hobject
      cases h
      exact ⟨⟨(hextends.sound.wait hobject hkey node).note hsize node, hextends.grows⟩, hsize⟩
    · obtain ⟨object, b₁, hscalar, h⟩ := exists_of_bind h
      obtain ⟨hextends, hsize⟩ := extends_makeScalar hb hscalar
      cases h
      exact ⟨⟨hextends.sound.note hsize node, hextends.grows⟩, hsize⟩

/-! ### Filling collections -/

theorem extends_makeEntries {nodes : List (NodeId × NodeId)} {entries found : List (ObjectId × ObjectId)}
    {b b' : Builder} (hb : b.IsSound) (hentries : b.objects.IsKeyed (entries.map (·.1)))
    (h : (makeEntries nodes entries).run b = .ok (found, b')) :
    b.Extends b' ∧ b'.objects.IsKeyed (found.map (·.1)) := by
  induction nodes generalizing entries b with
  | nil =>
    cases h
    exact ⟨hb.extends_self, hentries⟩
  | cons node rest ih =>
    obtain ⟨keyNode, valueNode⟩ := node
    rw [makeEntries] at h
    obtain ⟨key, b₁, hkey, h⟩ := exists_of_bind h
    obtain ⟨hextends, hsize⟩ := extends_make hb hkey
    rw [run_get_bind] at h
    split at h
    · cases h
    · next hscalar =>
      obtain ⟨value, b₄, hvalue, h⟩ := exists_of_bind h
      obtain ⟨hextends', -⟩ := extends_make hextends.sound hvalue
      rw [run_get_bind] at h
      have hkeyed : b₄.objects.IsKeyed ((b₄.objects.insert entries key value).map (·.1)) := by
        obtain ⟨v, hv⟩ := Objects.exists_of_isKey hsize (by simpa using hscalar)
        exact (hentries.of_keeps (hextends.trans hextends').keeps).insert (hextends'.grows hv) value
      obtain ⟨hrest, hfound⟩ := ih hextends'.sound hkeyed h
      exact ⟨(hextends.trans hextends').trans hrest, hfound⟩

theorem extends_makeMapping {node : NodeId} {entries : List (ObjectId × ObjectId)} {b b' : Builder} (hb : b.IsSound)
    (h : (makeMapping node).run b = .ok (entries, b')) : b.Extends b' ∧ b'.objects.IsKeyed (entries.map (·.1)) := by
  unfold makeMapping at h
  rw [run_get_bind] at h
  split at h
  · obtain ⟨⟨⟨⟩, graph⟩, b₃, hmerge, h⟩ := exists_of_bind h
    obtain ⟨-, rfl⟩ := eq_ok_of_lift hmerge
    obtain ⟨⟨⟩, b₄, hset, h⟩ := exists_of_bind h
    cases hset
    have hgraph : IsSound { b₃ with graph := graph } := ⟨hb.objects, hb.undefined, hb.made, hb.waits⟩
    obtain ⟨hextends, hkeyed⟩ := extends_makeEntries hgraph Objects.isKeyed_nil h
    exact ⟨⟨hextends.sound, hextends.grows⟩, hkeyed⟩
  · cases h

theorem extends_makePair {node : NodeId} {pair : ObjectId × ObjectId} {b b' : Builder} (hb : b.IsSound)
    (h : (makePair node).run b = .ok (pair, b')) : b.Extends b' := by
  unfold makePair at h
  rw [run_get_bind] at h
  split at h
  · obtain ⟨key, b₃, hkey, h⟩ := exists_of_bind h
    obtain ⟨value, b₄, hvalue, h⟩ := exists_of_bind h
    cases h
    obtain ⟨hextends, -⟩ := extends_make hb hkey
    obtain ⟨hextends', -⟩ := extends_make hextends.sound hvalue
    exact hextends.trans hextends'
  · cases h

theorem extends_filled {node : NodeId} {empty content : Object} {b b' : Builder} (hb : b.IsSound)
    (h : (filled node empty).run b = .ok (content, b')) :
    b.Extends b' ∧ content.isKey = false ∧ b'.objects.Fits content := by
  unfold filled at h
  rw [run_get_bind] at h
  split at h
  · obtain ⟨items, hitems, rfl⟩ := exists_of_map h
    exact ⟨extends_mapM (fun hb h => (extends_make hb h).1) hb hitems, rfl, Objects.fits_of_isKey_eq_false rfl nofun⟩
  · obtain ⟨pairs, hpairs, rfl⟩ := exists_of_map h
    exact ⟨extends_mapM extends_makePair hb hpairs, rfl, Objects.fits_of_isKey_eq_false rfl nofun⟩
  · obtain ⟨entries, hentries, rfl⟩ := exists_of_map h
    obtain ⟨hextends, hkeyed⟩ := extends_makeMapping hb hentries
    refine ⟨hextends, rfl, Objects.fits_of_isKey_eq_false rfl fun {found} hmap => ?_⟩
    obtain rfl := Object.map.inj hmap
    exact hkeyed
  · obtain ⟨entries, hentries, rfl⟩ := exists_of_map h
    exact ⟨(extends_makeMapping hb hentries).1, rfl, Objects.fits_of_isKey_eq_false rfl nofun⟩
  · cases h

/-- Another row of collections that wait, all of them from the row before. -/
theorem IsSound.row {b : Builder} (h : b.IsSound) {waiting later : List (NodeId × ObjectId)}
    (hrow : ∀ pending ∈ waiting ++ later, pending ∈ b.waiting ++ b.later) :
    IsSound { b with waiting := waiting, later := later } :=
  ⟨h.objects, h.undefined, h.made, fun hwaits => h.waits (hrow _ hwaits)⟩

/-- Filling a collection. -/
theorem IsSound.fill {b : Builder} (h : b.IsSound) {object : ObjectId} {empty content : Object}
    (hempty : b.objects.all[object]? = some empty) (hempty' : empty.isKey = false) (hcontent : content.isKey = false)
    (hfits : b.objects.Fits content) :
    IsSound { b with objects := ⟨b.objects.all.setIfInBounds object content⟩ } := by
  refine ⟨h.objects.set hempty hempty' hfits, by simpa using h.undefined, fun hmade => by simpa using h.made hmade,
    fun {node other} hwaits => ?_⟩
  obtain ⟨found, hfound, hkey⟩ := h.waits hwaits
  dsimp only
  rw [Array.getElem?_setIfInBounds]
  obtain ⟨hsize, -⟩ := Array.getElem?_eq_some_iff.1 hfound
  by_cases hother : object = other
  · subst hother
    rw [if_pos rfl, if_pos hsize]
    exact ⟨content, rfl, hcontent⟩
  · rw [if_neg hother]
    exact ⟨found, hfound, hkey⟩

/-- **The objects stay sound** while the collections that wait are filled. -/
theorem isSound_fillAll {steps : Nat} {b b' : Builder} (hb : b.IsSound) (h : (fillAll steps).run b = .ok ((), b')) :
    b'.IsSound := by
  induction steps generalizing b with
  | zero =>
    cases h
    exact hb
  | succ steps ih =>
    rw [fillAll] at h
    rw [run_get_bind] at h
    split at h
    · cases h
      exact hb
    · obtain ⟨⟨⟩, b₃, hset, h⟩ := exists_of_bind h
      cases hset
      refine ih (hb.row fun pending hpending => List.mem_append_right _ ?_) h
      simpa using hpending
    · next node object waiting hwaiting =>
      obtain ⟨⟨⟩, b₃, hset, h⟩ := exists_of_bind h
      cases hset
      obtain ⟨content, b₄, hfilled, h⟩ := exists_of_bind h
      obtain ⟨⟨⟩, b₅, hset, h⟩ := exists_of_bind h
      cases hset
      have hrow : IsSound { b with waiting := waiting } := hb.row fun pending hpending => by
        rw [hwaiting]
        exact List.mem_cons_of_mem _ hpending
      obtain ⟨hextends, hcontent, hfits⟩ := extends_filled hrow hfilled
      have hwaits : (node, object) ∈ b.waiting ++ b.later := by
        rw [hwaiting]
        exact List.mem_cons_self
      obtain ⟨empty, hempty, hkey⟩ := hb.waits hwaits
      exact ih (hextends.sound.fill (hextends.grows hempty) hkey hcontent hfits) h

theorem isSound_start (graph : Graph) : (start graph).IsSound := by
  have hnothing : Objects.IsSound ⟨#[]⟩ := ⟨fun h => by simp at h, fun h => by simp at h⟩
  refine ⟨hnothing.push (Objects.fits_value nofun), Nat.one_pos, fun {id object} hmade => ?_,
    fun hwaits => by cases hwaits⟩
  rw [start, Array.getD_eq_getD_getElem?, Array.getElem?_replicate] at hmade
  split at hmade <;> cases hmade

end Builder

/-- **A document that is a mapping has distinct keys.** -/
theorem load_distinctKeys (depth fresh : Nat) : (load depth fresh).GivesDistinctKeys := by
  intro document entries h
  unfold load at h
  cases hnodes : Node.ofDocument depth document with
  | error e =>
    rw [hnodes] at h
    cases h
  | ok found =>
    rw [hnodes] at h
    obtain - | ⟨graph, root⟩ := found
    · cases h
    · simp only [bind, Except.bind] at h
      split at h
      · cases h
      · next result hbuild =>
        obtain ⟨object, b₁, hmake, hrest⟩ := Builder.exists_of_bind hbuild
        obtain ⟨⟨⟩, b₂, hfill, hpure⟩ := Builder.exists_of_bind hrest
        cases hpure
        obtain ⟨hextends, -⟩ := Builder.extends_make (Builder.isSound_start graph) hmake
        exact (Builder.isSound_fillAll hextends.sound hfill).objects.distinct (Except.ok.inj h)

end SourceJump.Yaml
