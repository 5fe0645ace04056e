import Mathlib

/-!
# Results of work that may fail

* `bind_eq_ok_iff` — work in parts succeeds if all parts do.
* `exists_of_anyM` — a search that may fail and finds something has found one item.
* `Refines` — one piece of work succeeds wherever another does; kept by work in parts, and by a
  search that may find more.
-/

namespace ShaderMend

variable {ε α β : Type}

/-- Work in two parts succeeds if the first part does and the second one after it. -/
theorem bind_eq_ok_iff {first : Except ε α} {next : α → Except ε β} {value : β} :
    (first >>= next) = .ok value ↔ ∃ middle, first = .ok middle ∧ next middle = .ok value := by
  cases first with
  | error error => simp [bind, Except.bind]
  | ok middle => simp [bind, Except.bind]

theorem ok_bind (value : α) (next : α → Except ε β) : (Except.ok value >>= next) = next value :=
  rfl

/-! ### Searches -/

section Searches

variable {check : α → Except ε Bool}

theorem anyM_cons_of_ok {first : α} {rest : List α} {found later : Bool}
    (hfirst : check first = .ok found) (hrest : rest.anyM check = .ok later) :
    (first :: rest).anyM check = .ok (found || later) := by
  rw [List.anyM_cons, hfirst]
  cases found with
  | false => exact hrest
  | true => rfl

theorem anyM_cons_eq_ok_iff {first : α} {rest : List α} {found : Bool} :
    (first :: rest).anyM check = .ok found ↔
      check first = .ok true ∧ found = true ∨
        check first = .ok false ∧ rest.anyM check = .ok found := by
  rw [List.anyM_cons]
  cases check first with
  | error failure => simp [bind, Except.bind]
  | ok here => cases here <;> simp [bind, Except.bind, pure, Except.pure, eq_comm]

/-- **A search that finds something has found one item.** -/
theorem exists_of_anyM {items : List α} (h : items.anyM check = .ok true) :
    ∃ item ∈ items, check item = .ok true := by
  induction items with
  | nil => cases h
  | cons first rest ih =>
      rcases anyM_cons_eq_ok_iff.mp h with ⟨hfirst, -⟩ | ⟨-, hrest⟩
      · exact ⟨first, List.mem_cons_self, hfirst⟩
      · obtain ⟨item, hitem, hfound⟩ := ih hrest
        exact ⟨item, List.mem_cons_of_mem _ hitem, hfound⟩

end Searches

/-! ### Work that succeeds wherever other work does -/

/-- Whether work succeeds wherever other work does, with a value related to the one there. -/
def Refines (Rel : α → α → Prop) (less more : Except ε α) : Prop :=
  ∀ value, less = .ok value → ∃ value', more = .ok value' ∧ Rel value value'

namespace Refines

theorem refl {Rel : α → α → Prop} [Std.Refl Rel] (result : Except ε α) :
    Refines Rel result result :=
  fun value h => ⟨value, h, Std.Refl.refl value⟩

theorem of_ok {less more : Except ε α} (h : ∀ value, less = .ok value → more = .ok value) :
    Refines Eq less more :=
  fun value hless => ⟨value, h value hless, rfl⟩

theorem map {less more : Except ε α} (h : Refines Eq less more) (change : α → β) :
    Refines Eq (less.map change) (more.map change) := by
  intro value hless
  cases less with
  | error failure => cases hless
  | ok here =>
      obtain ⟨same, hmore, rfl⟩ := h here rfl
      rw [hmore]
      exact ⟨value, hless, rfl⟩

theorem bind {Rel : α → α → Prop} {Rel' : β → β → Prop} {less more : Except ε α}
    {next next' : α → Except ε β} (h : Refines Rel less more)
    (hnext : ∀ value value', Rel value value' → Refines Rel' (next value) (next' value')) :
    Refines Rel' (less >>= next) (more >>= next') := by
  intro result hless
  obtain ⟨value, hvalue, hrest⟩ := bind_eq_ok_iff.mp hless
  obtain ⟨value', hvalue', hrel⟩ := h value hvalue
  obtain ⟨result', hresult', hrel'⟩ := hnext value value' hrel result hrest
  exact ⟨result', bind_eq_ok_iff.mpr ⟨value', hvalue', hresult'⟩, hrel'⟩

/-- Where reads give the same values, the work goes on in the same way. -/
theorem bind_eq {Rel : β → β → Prop} {less more : Except ε α} {next next' : α → Except ε β}
    (h : Refines Eq less more) (hnext : ∀ value, Refines Rel (next value) (next' value)) :
    Refines Rel (less >>= next) (more >>= next') := by
  refine h.bind ?_
  rintro value _ rfl
  exact hnext value

/-- **A search finds something wherever another does** that asks the same items and finds no
more with each of them. It may find something earlier, and then needs no later item. -/
theorem anyM {items : List α} {check check' : α → Except ε Bool}
    (h : ∀ item, Refines (· ≤ ·) (check item) (check' item)) :
    Refines (· ≤ ·) (items.anyM check) (items.anyM check') := by
  induction items with
  | nil => exact refl _
  | cons first rest ih =>
      intro found hfound
      have hfirst := h first
      rcases anyM_cons_eq_ok_iff.mp hfound with ⟨hhere, rfl⟩ | ⟨hhere, hlater⟩
      · obtain ⟨found', hfound', hle⟩ := hfirst true hhere
        obtain rfl : found' = true := hle rfl
        exact ⟨true, anyM_cons_eq_ok_iff.mpr (Or.inl ⟨hfound', rfl⟩), le_rfl⟩
      · obtain ⟨found', hfound', -⟩ := hfirst false hhere
        cases found' with
        | true => exact ⟨true, anyM_cons_eq_ok_iff.mpr (Or.inl ⟨hfound', rfl⟩), Bool.le_true found⟩
        | false =>
            obtain ⟨later, hlater', hle⟩ := ih found hlater
            exact ⟨later, anyM_cons_eq_ok_iff.mpr (Or.inr ⟨hfound', hlater'⟩), hle⟩

end Refines

end ShaderMend
