import ShaderMend.Shader.Object

/-!
# Scenes

Materials are known by their numbers; each shows its surface with a shader, or has
none. An object of a scene draws with the materials in the slots of its renderers,
and has children, which count whether they are active or not.

* `mem_map_distinctBy_iff`, `nodup_map_distinctBy` — keeping first occurrences keeps
  every key, once.
-/

namespace ShaderMend

/-! ### First occurrences -/

/-- The items of a list without those that share their key with an earlier one. -/
def distinctBy {α κ : Type} [DecidableEq κ] (key : α → κ) : List α → List α
  | [] => []
  | first :: rest => first :: (distinctBy key rest).filter (key · ≠ key first)

theorem distinctBy_sublist {α κ : Type} [DecidableEq κ] (key : α → κ) (items : List α) :
    (distinctBy key items).Sublist items := by
  induction items with
  | nil => exact List.Sublist.slnil
  | cons first rest ih => exact (List.filter_sublist.trans ih).cons_cons first

theorem nodup_map_distinctBy {α κ : Type} [DecidableEq κ] (key : α → κ) (items : List α) :
    ((distinctBy key items).map key).Nodup := by
  induction items with
  | nil => exact List.nodup_nil
  | cons first rest ih =>
      refine List.nodup_cons.mpr ⟨?_, ih.sublist (List.filter_sublist.map key)⟩
      intro hmem
      obtain ⟨item, hitem, heq⟩ := List.mem_map.mp hmem
      simpa [heq] using (List.mem_filter.mp hitem).2

theorem mem_map_distinctBy_iff {α κ : Type} [DecidableEq κ] {key : α → κ} {items : List α}
    {wanted : κ} : wanted ∈ (distinctBy key items).map key ↔ wanted ∈ items.map key := by
  induction items with
  | nil => rfl
  | cons first rest ih =>
      by_cases heq : wanted = key first
      · simp [distinctBy, heq]
      · have hfilter : wanted ∈ ((distinctBy key rest).filter (key · ≠ key first)).map key
            ↔ wanted ∈ (distinctBy key rest).map key := by
          constructor
          · exact fun h => (List.filter_sublist.map key).subset h
          · intro h
            obtain ⟨item, hitem, hkey⟩ := List.mem_map.mp h
            exact List.mem_map.mpr
              ⟨item, List.mem_filter.mpr ⟨hitem, by simpa [hkey] using heq⟩, hkey⟩
        simp only [distinctBy, List.map_cons, List.mem_cons, heq, false_or]
        exact hfilter.trans ih

/-! ### Materials -/

/-- A material, by its number. -/
abbrev MaterialId := Nat

/-- The shader of every material that has one, by the numbers of the materials. -/
abbrev Materials := List (Option Shader)

namespace Materials

/-- The shader of a material. -/
def shader? (materials : Materials) (material : MaterialId) : Option Shader :=
  materials[material]?.join

/-- Whether a material shows the shader. -/
def uses (materials : Materials) (material : MaterialId) (shader : Shader) : Bool :=
  (materials.shader? material).any (·.same shader)

/-- The materials with a shader given to one of them. -/
def assign (materials : Materials) (material : MaterialId) (shader : Shader) : Materials :=
  materials.set material (some shader)

/-- The materials after those among the given ones that show a shader got another. -/
def replace (materials : Materials) (among : List MaterialId) (old new : Shader) : Materials :=
  materials.mapIdx fun material shader =>
    if material ∈ among ∧ materials.uses material old then some new else shader

end Materials

/-! ### Objects -/

/-- An object of a scene. -/
structure SceneObject where
  name : String
  active : Bool
  /-- The slots of each renderer, of which some may be empty. -/
  renderers : List (List (Option MaterialId))
  children : List SceneObject
  deriving Repr

namespace SceneObject

/-- The materials found so far and the one in a slot, if there is one. A material without
shader does not count, and one that was found before is not found again. -/
def visit (state : Materials) (found : List MaterialId) : Option MaterialId → List MaterialId
  | none => found
  | some material =>
      if (state.shader? material).isNone ∨ material ∈ found then found else found ++ [material]

mutual

/-- The materials found so far and those of an object and of the objects below it. The
walk visits every object before its children. -/
def collect (state : Materials) : SceneObject → (found : List MaterialId) → List MaterialId
  | ⟨_, _, renderers, children⟩, found =>
      collectEach state children
        (renderers.foldl (fun found slots => slots.foldl (visit state) found) found)

/-- The materials found so far and those of some objects, one object after the other. -/
def collectEach (state : Materials) :
    List SceneObject → (found : List MaterialId) → List MaterialId
  | [], found => found
  | object :: objects, found => collectEach state objects (collect state object found)

end

/-- The materials with a shader that an object draws with, each once. -/
def materials (object : SceneObject) (state : Materials) : List MaterialId :=
  collect state object []

end SceneObject

end ShaderMend
