import Mathlib
import ShaderMend.Scene

/-!
# The order of first uses

* `ComesFirst` — some item with one property stands in a list before every item with another.
* `comesFirst_of_distinctBy` — first occurrences stand in the order of the list.
* `ComesFirst.of_distinctBy`, `ComesFirst.of_filter`, `ComesFirst.map_iff`,
  `ComesFirst.of_filterMap` — what is known of a list made from another, for that other.
-/

namespace ShaderMend

variable {α β κ : Type}

/-- Whether some item with one property stands before every item with another. -/
inductive ComesFirst (earlier later : α → Prop) : List α → Prop where
  | here {item : α} {rest : List α} :
      earlier item → ¬ later item → ComesFirst earlier later (item :: rest)
  | after {item : α} {rest : List α} :
      ¬ later item → ComesFirst earlier later rest → ComesFirst earlier later (item :: rest)

namespace ComesFirst

variable {earlier later earlier' later' : α → Prop} {items : List α}

theorem imp (h : ComesFirst earlier later items)
    (hearlier : ∀ item ∈ items, earlier item → earlier' item)
    (hlater : ∀ item ∈ items, later' item → later item) : ComesFirst earlier' later' items := by
  induction h with
  | here hitem hnot =>
      exact .here (hearlier _ List.mem_cons_self hitem)
        fun hl => hnot (hlater _ List.mem_cons_self hl)
  | after hnot _ ih =>
      refine .after (fun hl => hnot (hlater _ List.mem_cons_self hl)) (ih ?_ ?_)
      · exact fun item hmem => hearlier item (List.mem_cons_of_mem _ hmem)
      · exact fun item hmem => hlater item (List.mem_cons_of_mem _ hmem)

theorem map_iff {f : β → α} {sources : List β} :
    ComesFirst earlier later (sources.map f) ↔
      ComesFirst (fun source => earlier (f source)) (fun source => later (f source)) sources := by
  induction sources with
  | nil => exact ⟨nofun, nofun⟩
  | cons source rest ih =>
      constructor
      · intro h
        cases h with
        | here hitem hnot => exact .here hitem hnot
        | after hnot hrest => exact .after hnot (ih.mp hrest)
      · intro h
        cases h with
        | here hitem hnot => exact .here hitem hnot
        | after hnot hrest => exact .after hnot (ih.mpr hrest)

theorem of_filterMap {f : β → Option α} {sources : List β}
    (h : ComesFirst earlier later (sources.filterMap f)) :
    ComesFirst (fun source => ∃ item, f source = some item ∧ earlier item)
      (fun source => ∃ item, f source = some item ∧ later item) sources := by
  induction sources with
  | nil => cases h
  | cons source rest ih =>
      cases hsource : f source with
      | none =>
          rw [List.filterMap_cons_none hsource] at h
          exact .after (by simp [hsource]) (ih h)
      | some item =>
          rw [List.filterMap_cons_some hsource] at h
          cases h with
          | here hitem hnot => exact .here ⟨item, hsource, hitem⟩ (by simpa [hsource] using hnot)
          | after hnot hrest => exact .after (by simpa [hsource] using hnot) (ih hrest)

theorem of_filter {keeps : α → Bool} (h : ComesFirst earlier later (items.filter keeps)) :
    ComesFirst (fun item => keeps item = true ∧ earlier item)
      (fun item => keeps item = true ∧ later item) items := by
  induction items with
  | nil => cases h
  | cons item rest ih =>
      cases hkeeps : keeps item with
      | false =>
          rw [List.filter_cons_of_neg (by simp [hkeeps])] at h
          exact .after (by simp [hkeeps]) (ih h)
      | true =>
          rw [List.filter_cons_of_pos hkeeps] at h
          cases h with
          | here hitem hnot => exact .here ⟨hkeeps, hitem⟩ fun hl => hnot hl.2
          | after hnot hrest => exact .after (fun hl => hnot hl.2) (ih hrest)

/-- What stands first among first occurrences stands first among all items, if the key of an
item tells whether it has the later property. -/
theorem of_distinctBy [DecidableEq κ] {key : α → κ}
    (h : ComesFirst earlier later (distinctBy key items))
    (hkey : ∀ item ∈ items, ∀ other ∈ items, key item = key other → later item → later other) :
    ComesFirst earlier later items := by
  induction items with
  | nil => cases h
  | cons item rest ih =>
      cases h with
      | here hitem hnot => exact .here hitem hnot
      | after hnot hrest =>
          refine .after hnot (ih (hrest.of_filter.imp (fun _ _ h => h.2) ?_) ?_)
          · intro other hmem hlater
            have hother : other ∈ item :: rest :=
              List.mem_cons_of_mem _ ((distinctBy_sublist key rest).subset hmem)
            refine ⟨decide_eq_true fun heq => hnot ?_, hlater⟩
            exact hkey other hother item List.mem_cons_self heq hlater
          · intro other hother third hthird
            exact hkey other (List.mem_cons_of_mem _ hother) third (List.mem_cons_of_mem _ hthird)

end ComesFirst

/-- **First occurrences stand in the order of the list.** -/
theorem comesFirst_of_distinctBy [DecidableEq κ] (key : α → κ) (items : List α) :
    (distinctBy key items).Pairwise fun first second =>
      ComesFirst (fun item => key item = key first) (fun item => key item = key second) items := by
  induction items with
  | nil => exact List.Pairwise.nil
  | cons item rest ih =>
      have hother : ∀ other ∈ (distinctBy key rest).filter (key · ≠ key item),
          key item ≠ key other :=
        fun other hmem heq => by simpa [heq] using (List.mem_filter.mp hmem).2
      refine List.pairwise_cons.mpr ⟨fun other hmem => .here rfl (hother other hmem), ?_⟩
      refine (ih.sublist List.filter_sublist).imp_of_mem fun _ hsecond hfirst => ?_
      exact .after (hother _ hsecond) hfirst

end ShaderMend
