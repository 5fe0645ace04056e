/-!
# Lists in ascending order of a key

A catalogue holds at most one item per key, in ascending order of the keys by code
points. Inserting an item replaces the one with the same key.

* `ascending_ofList` — a catalogue is in ascending order, so its keys are distinct.
* `mem_insert_iff` — the items afterwards are the new one and those of other keys.
-/

namespace ShaderMend.Catalogue

variable {α : Type}

/-- Every key is smaller than all that follow. -/
def Ascending (key : α → String) (items : List α) : Prop :=
  items.Pairwise fun first second => key first < key second

/-- The items with a new one at its place, instead of any item with the same key. -/
def insert (key : α → String) (item : α) : List α → List α
  | [] => [item]
  | first :: rest =>
      if key item < key first then item :: first :: rest
      else if key item = key first then item :: rest
      else first :: insert key item rest

/-- The items in order; of several with one key the last. -/
def ofList (key : α → String) (items : List α) : List α :=
  items.foldl (fun catalogue item => insert key item catalogue) []

/-- The item with a key. -/
def find? (key : α → String) (wanted : String) (items : List α) : Option α :=
  items.find? fun item => key item == wanted

theorem key_lt_of_mem_insert {key : α → String} {bound : String} {item : α} {items : List α}
    (hitem : bound < key item) (hitems : ∀ other ∈ items, bound < key other) :
    ∀ other ∈ insert key item items, bound < key other := by
  induction items with
  | nil => simpa [insert] using hitem
  | cons first rest ih =>
      have hrest := ih fun other hother => hitems other (List.mem_cons_of_mem _ hother)
      intro other hother
      unfold insert at hother
      split at hother
      · rcases List.mem_cons.mp hother with rfl | hother
        · exact hitem
        · exact hitems other hother
      · split at hother
        · rcases List.mem_cons.mp hother with rfl | hother
          · exact hitem
          · exact hitems other (List.mem_cons_of_mem _ hother)
        · rcases List.mem_cons.mp hother with rfl | hother
          · exact hitems _ List.mem_cons_self
          · exact hrest other hother

theorem ascending_insert {key : α → String} {item : α} {items : List α}
    (h : Ascending key items) : Ascending key (insert key item items) := by
  induction items with
  | nil => simp [insert, Ascending]
  | cons first rest ih =>
      obtain ⟨hfirst, hrest⟩ := List.pairwise_cons.mp h
      unfold insert
      split
      · rename_i hlt
        refine List.pairwise_cons.mpr ⟨fun other hother => ?_, h⟩
        rcases List.mem_cons.mp hother with rfl | hother
        · exact hlt
        · exact String.lt_trans hlt (hfirst other hother)
      · split
        · rename_i heq
          exact List.pairwise_cons.mpr ⟨fun other hother => heq ▸ hfirst other hother, hrest⟩
        · rename_i hlt hne
          have hgt : key first < key item :=
            Decidable.byContradiction fun hngt =>
              hne (String.le_antisymm (String.not_lt.mp hngt) (String.not_lt.mp hlt))
          exact List.pairwise_cons.mpr ⟨key_lt_of_mem_insert hgt hfirst, ih hrest⟩

/-- **A catalogue is in ascending order.** -/
theorem ascending_ofList (key : α → String) (items : List α) :
    Ascending key (ofList key items) := by
  have hfold : ∀ (items catalogue : List α), Ascending key catalogue →
      Ascending key (items.foldl (fun catalogue item => insert key item catalogue) catalogue) := by
    intro items
    induction items with
    | nil => exact fun _ h => h
    | cons item items ih => exact fun catalogue h => ih _ (ascending_insert h)
  exact hfold items [] List.Pairwise.nil

/-- **Inserting puts the item in and keeps those of other keys.** -/
theorem mem_insert_iff {key : α → String} {item other : α} {items : List α}
    (h : Ascending key items) :
    other ∈ insert key item items ↔ other = item ∨ (other ∈ items ∧ key other ≠ key item) := by
  induction items with
  | nil => simp [insert]
  | cons first rest ih =>
      obtain ⟨hfirst, hrest⟩ := List.pairwise_cons.mp h
      unfold insert
      split
      · rename_i hlt
        have hne : ∀ x ∈ first :: rest, key x ≠ key item := by
          intro x hx heq
          rcases List.mem_cons.mp hx with rfl | hx
          · exact String.lt_irrefl _ (heq ▸ hlt)
          · exact String.lt_irrefl _ (heq ▸ String.lt_trans hlt (hfirst x hx))
        simp only [List.mem_cons (a := other) (b := item)]
        exact or_congr_right ⟨fun hx => ⟨hx, hne other hx⟩, fun hx => hx.1⟩
      · split
        · rename_i heq
          have hne : ∀ x ∈ rest, key x ≠ key item := by
            intro x hx hkey
            exact String.lt_irrefl _ (hkey ▸ heq ▸ hfirst x hx)
          simp only [List.mem_cons]
          constructor
          · rintro (rfl | hx)
            · exact Or.inl rfl
            · exact Or.inr ⟨Or.inr hx, hne other hx⟩
          · rintro (rfl | ⟨rfl | hx, hkey⟩)
            · exact Or.inl rfl
            · exact absurd heq.symm hkey
            · exact Or.inr hx
        · rename_i hlt hne
          simp only [List.mem_cons, ih hrest]
          constructor
          · rintro (rfl | rfl | ⟨hx, hkey⟩)
            · exact Or.inr ⟨Or.inl rfl, fun heq => hne heq.symm⟩
            · exact Or.inl rfl
            · exact Or.inr ⟨Or.inr hx, hkey⟩
          · rintro (rfl | ⟨rfl | hx, hkey⟩)
            · exact Or.inr (Or.inl rfl)
            · exact Or.inl rfl
            · exact Or.inr (Or.inr ⟨hx, hkey⟩)

end ShaderMend.Catalogue
