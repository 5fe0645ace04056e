import ShaderMend.Proofs.Repair.Rounds

/-!
# Writing to materials

* `Materials.replace_eq_assignEach` — replacing a shader gives the new one to all that show the
  old one, as often as they are listed.
* `Materials.replace_eq_writeEach` — it is a row of writes, one for each such material.
-/

namespace ShaderMend

namespace Materials

/-- A material gets a shader instead of the one that it shows. -/
structure Write where
  material : MaterialId
  old : Shader
  new : Shader

/-- The materials after writes. -/
def writeEach (writes : List Write) (materials : Materials) : Materials :=
  writes.foldl (fun materials write => materials.assign write.material write.new) materials

/-- The materials with one shader given to several of them. -/
def assignEach (users : List MaterialId) (new : Shader) (materials : Materials) : Materials :=
  users.foldl (fun materials material => materials.assign material new) materials

/-- What is written to replace a shader: each material once. -/
def writesFor (materials : Materials) (among : List MaterialId) (old new : Shader) : List Write :=
  (distinctBy id among).filterMap fun material =>
    ((materials.shader? material).filter fun shown => shown.same old).map fun shown =>
      ⟨material, shown, new⟩

theorem mem_writesFor_iff {materials : Materials} {among : List MaterialId} {old new : Shader}
    {write : Write} :
    write ∈ materials.writesFor among old new ↔
      write.material ∈ among ∧ materials.shader? write.material = some write.old ∧
        write.old.id = old.id ∧ write.new = new := by
  have hmem : ∀ material, material ∈ distinctBy id among ↔ material ∈ among := by
    intro material
    have hkeys : material ∈ (distinctBy id among).map id ↔ material ∈ among.map id :=
      mem_map_distinctBy_iff
    simpa using hkeys
  obtain ⟨material, shown, given⟩ := write
  simp only [writesFor, List.mem_filterMap, hmem, Option.map_eq_some_iff,
    Option.filter_eq_some_iff, Shader.same, beq_iff_eq, Write.mk.injEq]
  constructor
  · rintro ⟨_, hamong, _, ⟨hshown, hid⟩, rfl, rfl, rfl⟩
    exact ⟨hamong, hshown, hid, rfl⟩
  · rintro ⟨hamong, hshown, hid, rfl⟩
    exact ⟨material, hamong, shown, ⟨hshown, hid⟩, rfl, rfl, rfl⟩

theorem getElem?_assignEach (users : List MaterialId) (new : Shader) (materials : Materials)
    (material : MaterialId) :
    (materials.assignEach users new)[material]?
      = if material ∈ users then materials[material]?.map fun _ => some new
        else materials[material]? := by
  induction users generalizing materials with
  | nil => rfl
  | cons first rest ih =>
      have hrest := ih (materials.assign first new)
      rw [assignEach, List.foldl_cons]
      refine hrest.trans ?_
      by_cases hfirst : material = first
      · subst hfirst
        have hself : (materials.assign material new)[material]?
            = materials[material]?.map fun _ => some new := List.getElem?_set_self'
        simp only [hself, List.mem_cons_self, ↓reduceIte, Option.map_map]
        split <;> rfl
      · have hother : (materials.assign first new)[material]? = materials[material]? :=
          List.getElem?_set_ne fun hequal => hfirst hequal.symm
        simp only [hother, List.mem_cons, hfirst, false_or]

/-- **Replacing a shader gives the new one to all that show the old one**, one after the other
and as often as they are listed. -/
theorem replace_eq_assignEach (materials : Materials) (among : List MaterialId)
    (old new : Shader) :
    materials.replace among old new
      = materials.assignEach (among.filter fun material => materials.uses material old) new := by
  apply List.ext_getElem?
  intro material
  rw [getElem?_assignEach, replace, List.getElem?_mapIdx]
  simp only [List.mem_filter]
  split
  · rfl
  · exact Option.map_id'

/-- **Replacing a shader is writing to one material after the other.** -/
theorem replace_eq_writeEach (materials : Materials) (among : List MaterialId)
    (old new : Shader) :
    materials.replace among old new
      = materials.writeEach (materials.writesFor among old new) := by
  have heach : ∀ (writes : List Write) (materials : Materials),
      (∀ write ∈ writes, write.new = new) →
        materials.writeEach writes = materials.assignEach (writes.map Write.material) new := by
    intro writes
    induction writes with
    | nil => exact fun _ _ => rfl
    | cons write rest ih =>
        intro materials hnew
        rw [writeEach, List.foldl_cons, hnew write List.mem_cons_self]
        exact ih _ fun other hmem => hnew other (List.mem_cons_of_mem _ hmem)
  rw [heach _ _ fun write hmem => (mem_writesFor_iff.mp hmem).2.2.2]
  apply List.ext_getElem?
  intro material
  rw [replace_eq_assignEach, getElem?_assignEach, getElem?_assignEach]
  congr 1
  simp only [List.mem_filter, List.mem_map, mem_writesFor_iff, eq_iff_iff, uses,
    Option.any_eq_true, Shader.same, beq_iff_eq]
  constructor
  · rintro ⟨hamong, shown, hshown, hid⟩
    exact ⟨⟨material, shown, new⟩, ⟨hamong, hshown, hid, rfl⟩, rfl⟩
  · rintro ⟨write, ⟨hamong, hshown, hid, -⟩, rfl⟩
    exact ⟨hamong, write.old, hshown, hid⟩

end Materials

end ShaderMend
