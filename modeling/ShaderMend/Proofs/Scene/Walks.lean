import Mathlib
import ShaderMend.Scene

/-!
# The materials of an object

The walk through an object carries what it has found from one object to the next. What it has
found in the end is told by the row of all slots, which the tree alone determines.

* `SceneObject.collect_eq` — the walk goes through this row, by induction on the tree.
* `SceneObject.found_visits` — what is found behind any part of the row, by induction on it.
* `SceneObject.materials_of_slots` — every material with a shader that stands in a slot is
  found once, in the order of the first slots.
-/

namespace ShaderMend.SceneObject

/-! ### The slots of a tree -/

/-- The slots of an object and of the objects below it, empty ones included: its renderers and
their slots in order, then its children in order. -/
def slots : SceneObject → List (Option MaterialId)
  | ⟨_, _, renderers, children⟩ => renderers.flatten ++ children.flatMap slots

/-- Whether a material stands in a slot of an object or of one below it. -/
inductive Draws : SceneObject → MaterialId → Prop where
  | own {object : SceneObject} {renderer : List (Option MaterialId)} {material : MaterialId}
      (hrenderer : renderer ∈ object.renderers) (hslot : some material ∈ renderer) :
      Draws object material
  | inner {object child : SceneObject} {material : MaterialId} (hchild : child ∈ object.children)
      (h : Draws child material) : Draws object material

/-- The object with all objects of its tree active. -/
def allActive : SceneObject → SceneObject
  | ⟨name, _, renderers, children⟩ => ⟨name, true, renderers, children.map allActive⟩

theorem slots_eq (object : SceneObject) :
    object.slots = object.renderers.flatten ++ object.children.flatMap slots := by
  cases object
  rw [slots]

/-- The row has what stands in the tree, and nothing else. -/
theorem mem_slots_iff {object : SceneObject} {material : MaterialId} :
    some material ∈ object.slots ↔ object.Draws material := by
  constructor
  · intro h
    induction object using slots.induct with
    | case1 name active renderers children ih =>
        rw [slots_eq] at h
        rcases List.mem_append.mp h with h | h
        · obtain ⟨renderer, hrenderer, hslot⟩ := List.mem_flatten.mp h
          exact .own hrenderer hslot
        · obtain ⟨child, hchild, hslot⟩ := List.mem_flatMap.mp h
          exact .inner hchild (ih child hchild hslot)
  · intro h
    induction h with
    | own hrenderer hslot =>
        rw [slots_eq]
        exact List.mem_append_left _ (List.mem_flatten.mpr ⟨_, hrenderer, hslot⟩)
    | inner hchild _ ih =>
        rw [slots_eq]
        exact List.mem_append_right _ (List.mem_flatMap.mpr ⟨_, hchild, ih⟩)

/-- Which objects are active does not matter for the row. -/
theorem slots_allActive (object : SceneObject) : object.allActive.slots = object.slots := by
  induction object using slots.induct with
  | case1 name active renderers children ih =>
      rw [allActive, slots, slots, List.flatMap_map]
      congr 1
      exact List.flatMap_congr fun child hchild => ih child hchild

/-! ### The walk -/

section Walk

variable {state : Materials}

mutual

/-- **The walk goes through the row of slots**, whatever was found before. -/
theorem collect_eq (object : SceneObject) (found : List MaterialId) :
    collect state object found = object.slots.foldl (visit state) found := by
  obtain ⟨name, active, renderers, children⟩ := object
  rw [collect, collectEach_eq, slots, List.foldl_append, List.foldl_flatten]

theorem collectEach_eq (objects : List SceneObject) (found : List MaterialId) :
    collectEach state objects found = (objects.flatMap slots).foldl (visit state) found := by
  cases objects with
  | nil => rfl
  | cons object objects =>
      rw [collectEach, collect_eq, collectEach_eq, List.flatMap_cons, List.foldl_append]

end

/-- What a walk has found behind a row of slots: the materials with a shader that stand in it,
each once, in the order of their first slots. -/
structure Found (state : Materials) (row : List (Option MaterialId)) (found : List MaterialId) :
    Prop where
  distinct : found.Nodup
  mem_iff : ∀ material, material ∈ found ↔ some material ∈ row ∧ (state.shader? material).isSome
  ordered : found.Pairwise fun first second => row.idxOf (some first) < row.idxOf (some second)

/-- An earlier slot stays the first of its material. -/
theorem Found.ordered_concat {row : List (Option MaterialId)} {found : List MaterialId}
    (h : Found state row found) (slot : Option MaterialId) :
    found.Pairwise fun first second =>
      (row ++ [slot]).idxOf (some first) < (row ++ [slot]).idxOf (some second) := by
  refine h.ordered.imp_of_mem fun hfirst hsecond hless => ?_
  rwa [List.idxOf_append_of_mem ((h.mem_iff _).mp hfirst).1,
    List.idxOf_append_of_mem ((h.mem_iff _).mp hsecond).1]

/-- One more slot. -/
theorem Found.visit {row : List (Option MaterialId)} {found : List MaterialId}
    (h : Found state row found) (slot : Option MaterialId) :
    Found state (row ++ [slot]) (visit state found slot) := by
  cases slot with
  | none => exact ⟨h.distinct, by simp [SceneObject.visit, h.mem_iff], h.ordered_concat none⟩
  | some material =>
      have hmem := h.mem_iff material
      simp only [SceneObject.visit]
      split_ifs with hpassed
      · refine ⟨h.distinct, fun other => ?_, h.ordered_concat _⟩
        by_cases hother : other = material
        · subst hother
          rcases hpassed with hnone | hfound
          · simp_all
          · simpa [hfound] using (hmem.mp hfound).2
        · simp [h.mem_iff, hother]
      · obtain ⟨hshader, hnew⟩ := not_or.mp hpassed
        have hshown : (state.shader? material).isSome := by
          simpa [Option.isSome_iff_ne_none] using hshader
        have hfirst : some material ∉ row := fun hrow => hnew (hmem.mpr ⟨hrow, hshown⟩)
        refine ⟨?_, fun other => ?_, ?_⟩
        · refine List.nodup_append.mpr ⟨h.distinct, List.nodup_singleton _, ?_⟩
          intro other hother _ hsame
          obtain rfl := List.mem_singleton.mp hsame
          rintro rfl
          exact hnew hother
        · by_cases hother : other = material
          · simp [hother, hshown]
          · simp [h.mem_iff, hother]
        · refine List.pairwise_append.mpr ⟨h.ordered_concat _, List.pairwise_singleton _ _, ?_⟩
          intro other hother _ hsame
          obtain rfl := List.mem_singleton.mp hsame
          have hbefore := ((h.mem_iff other).mp hother).1
          rw [List.idxOf_append_of_mem hbefore, List.idxOf_append_of_notMem hfirst]
          exact Nat.lt_add_right _ (List.idxOf_lt_length_of_mem hbefore)

/-- **What is found behind a row of slots**, by induction from its end. -/
theorem found_visits (row : List (Option MaterialId)) :
    Found state row (row.foldl (visit state) []) := by
  induction row using List.reverseRecOn with
  | nil => exact ⟨List.nodup_nil, by simp, List.Pairwise.nil⟩
  | append_singleton row slot ih =>
      rw [List.foldl_append]
      exact ih.visit slot

end Walk

/-- **The materials of an object** are those with a shader in the slots of its tree, each once
and in the order of their first slots, whichever objects are active. -/
theorem materials_of_slots (object : SceneObject) (state : Materials) :
    (object.materials state).Nodup ∧
    (∀ material, material ∈ object.materials state ↔
      object.Draws material ∧ (state.shader? material).isSome) ∧
    ((object.materials state).Pairwise fun first second =>
      object.slots.idxOf (some first) < object.slots.idxOf (some second)) ∧
    object.allActive.materials state = object.materials state := by
  have hrow : ∀ object : SceneObject,
      object.materials state = object.slots.foldl (visit state) [] :=
    fun object => collect_eq object []
  have hfound : Found state object.slots (object.materials state) := by
    rw [hrow object]
    exact found_visits object.slots
  refine ⟨hfound.distinct, fun material => ?_, hfound.ordered, ?_⟩
  · rw [hfound.mem_iff, mem_slots_iff]
  · rw [hrow, hrow, slots_allActive]

end ShaderMend.SceneObject
