import ShaderMend.Repository

/-!
# Entries of a repository and their cells

* `lookup?_modifyCell` — changing the cell of one entry changes that entry alone.
* `declared_modifyCell` — and nothing of what the archives declare.
-/

namespace ShaderMend

variable {σ β : Type}

/-- The entry with its cell changed. -/
def Entry.modifyCell (entry : Entry) (change : Cell → Cell) : Entry :=
  { entry with cell := change entry.cell }

/-- The manifest as it was loaded, whatever its entries hold by now. -/
def Manifest.unfilled (manifest : Manifest β) : Manifest β :=
  { manifest with entries := manifest.entries.map (·.modifyCell fun _ => .empty) }

theorem Manifest.lookup?_modifyEntry (manifest : Manifest β) (assetPath wanted : String)
    (change : Cell → Cell) :
    (manifest.modifyEntry assetPath (·.modifyCell change)).lookup? wanted
      = if wanted = assetPath then (manifest.lookup? wanted).map (·.modifyCell change)
        else manifest.lookup? wanted := by
  simp only [lookup?, modifyEntry, Catalogue.find?, List.find?_map]
  have hkey : (fun entry : Entry => entry.assetPath == wanted) ∘ (fun entry : Entry =>
      if entry.assetPath = assetPath then entry.modifyCell change else entry)
        = fun entry => entry.assetPath == wanted := by
    funext entry
    by_cases h : entry.assetPath = assetPath <;> simp [h, Entry.modifyCell]
  rw [hkey]
  cases hfound : manifest.entries.find? fun entry => entry.assetPath == wanted with
  | none => simp
  | some entry =>
      have hpath : entry.assetPath = wanted := by simpa using List.find?_some hfound
      by_cases h : wanted = assetPath <;> simp [h, hpath]

theorem Manifest.unfilled_modifyEntry (manifest : Manifest β) (assetPath : String)
    (change : Cell → Cell) :
    (manifest.modifyEntry assetPath (·.modifyCell change)).unfilled = manifest.unfilled := by
  simp only [unfilled, modifyEntry, List.map_map]
  congr 1
  refine List.map_congr_left fun entry _ => ?_
  by_cases h : entry.assetPath = assetPath <;> simp [h, Entry.modifyCell]

namespace Repository

/-- What the archives that are loaded declare, in the order of loading. -/
def declared (repository : Repository σ β) : List (Manifest β) :=
  repository.manifests.map Manifest.unfilled

theorem lookup?_modifyCell (repository : Repository σ β) (id other : EntryId)
    (change : Cell → Cell) :
    (repository.modifyCell id change).lookup? other
      = if other = id then (repository.lookup? other).map (·.modifyCell change)
        else repository.lookup? other := by
  simp only [lookup?, modifyCell, List.getElem?_modify]
  by_cases hmanifest : id.manifest = other.manifest
  · simp only [hmanifest, ↓reduceIte]
    cases repository.manifests[other.manifest]? with
    | none => simp
    | some manifest =>
        have hid : other = id ↔ other.assetPath = id.assetPath := by
          cases id; cases other; simp_all
        simp only [Option.bind_some, hid]
        exact manifest.lookup?_modifyEntry id.assetPath other.assetPath change
  · have hid : other ≠ id := fun h => hmanifest (h ▸ rfl)
    simp [hmanifest, hid]

theorem cell_modifyCell_of_ne (repository : Repository σ β) {id other : EntryId}
    (h : other ≠ id) (change : Cell → Cell) :
    (repository.modifyCell id change).cell other = repository.cell other := by
  simp [cell, lookup?_modifyCell, h]

theorem cell_modifyCell_self {repository : Repository σ β} {id : EntryId} {entry : Entry}
    (h : repository.lookup? id = some entry) (change : Cell → Cell) :
    (repository.modifyCell id change).cell id = change (repository.cell id) := by
  simp [cell, lookup?_modifyCell, h, Entry.modifyCell]

/-- An entry that does not exist has nothing to change. -/
theorem cell_modifyCell_of_none {repository : Repository σ β} {id : EntryId}
    (h : repository.lookup? id = none) (change : Cell → Cell) :
    (repository.modifyCell id change).cell id = repository.cell id := by
  simp [cell, lookup?_modifyCell, h]

/-- The cell of an entry is changed at most once, and others are not. -/
theorem cell_modifyCell_cases (repository : Repository σ β) (id other : EntryId)
    (change : Cell → Cell) :
    (repository.modifyCell id change).cell other = repository.cell other ∨
      other = id ∧ (repository.modifyCell id change).cell other
        = change (repository.cell other) := by
  by_cases hid : other = id
  · subst hid
    cases hentry : repository.lookup? other with
    | none => exact Or.inl (cell_modifyCell_of_none hentry change)
    | some entry => exact Or.inr ⟨rfl, cell_modifyCell_self hentry change⟩
  · exact Or.inl (cell_modifyCell_of_ne repository hid change)

@[simp] theorem isSome_lookup?_modifyCell (repository : Repository σ β) (id other : EntryId)
    (change : Cell → Cell) :
    ((repository.modifyCell id change).lookup? other).isSome
      = (repository.lookup? other).isSome := by
  rw [lookup?_modifyCell]
  split <;> simp

theorem cell_modifyCell {repository : Repository σ β} {id : EntryId}
    (h : (repository.lookup? id).isSome) (change : Cell → Cell) :
    (repository.modifyCell id change).cell id = change (repository.cell id) := by
  obtain ⟨entry, hentry⟩ := Option.isSome_iff_exists.mp h
  exact cell_modifyCell_self hentry change

/-- The state of the engine is no matter. -/
theorem cell_modifyCell_of_engine {repository : Repository σ β} {id : EntryId}
    (h : (repository.lookup? id).isSome) (state : σ) (change : Cell → Cell) :
    (modifyCell { repository with engine := state } id change).cell id
      = change (repository.cell id) := by
  have hpresent : (lookup? { repository with engine := state } id).isSome := h
  exact cell_modifyCell hpresent change

theorem declared_modifyCell (repository : Repository σ β) (id : EntryId)
    (change : Cell → Cell) :
    (repository.modifyCell id change).declared = repository.declared := by
  simp only [declared, modifyCell]
  apply List.ext_getElem?
  intro index
  simp only [List.getElem?_map, List.getElem?_modify]
  by_cases h : id.manifest = index
  · simp only [h, ↓reduceIte]
    cases repository.manifests[index]? with
    | none => rfl
    | some manifest => exact congrArg some (manifest.unfilled_modifyEntry id.assetPath change)
  · simp [h]

end Repository

end ShaderMend
