import Mathlib
import ShaderMend.Repair

/-!
# Rounds of replacements

A repair replaces one shader after the other in the same materials.

* `shader?_replaceEach` — if what is put in is never looked for again, the rounds do not
  disturb each other: a material gets what is given for the shader that it showed first.
* `distinctBy_append`, `foldl_missingAfter` — names are reported once, in the order of their
  first use.
-/

namespace ShaderMend

/-! ### Materials -/

namespace Materials

theorem shader?_replace (materials : Materials) (among : List MaterialId) (old new : Shader)
    (material : MaterialId) :
    (materials.replace among old new).shader? material
      = if material ∈ among ∧ materials.uses material old then some new
        else materials.shader? material := by
  simp only [shader?, replace, List.getElem?_mapIdx]
  cases hfound : materials[material]? with
  | none => simp [uses, shader?, hfound]
  | some shader =>
      by_cases huses : material ∈ among ∧ materials.uses material old = true
      · simp [huses]
      · simp [huses]

/-- A shader and what is given instead of it, if anything is. -/
abbrev Swap := Shader × Option Shader

/-- The materials after one shader was replaced. -/
def swap (among : List MaterialId) (materials : Materials) (swap : Swap) : Materials :=
  match swap.2 with
  | some new => materials.replace among swap.1 new
  | none => materials

/-- The materials after shaders were replaced one after the other. -/
def replaceEach (among : List MaterialId) (swaps : List Swap) (materials : Materials) :
    Materials :=
  swaps.foldl (swap among) materials

/-- What is given for a shader. -/
def given (swaps : List Swap) (shader : Shader) : Shader :=
  ((swaps.find? fun swap => swap.1.same shader).bind Prod.snd).getD shader

theorem shader?_swap_of_not_mem {among : List MaterialId} {material : MaterialId}
    (h : material ∉ among) (materials : Materials) (change : Swap) :
    (materials.swap among change).shader? material = materials.shader? material := by
  unfold swap
  cases change.2 with
  | none => rfl
  | some new => simp [shader?_replace, h]

theorem shader?_swap {among : List MaterialId} {material : MaterialId} (h : material ∈ among)
    (materials : Materials) (change : Swap) :
    (materials.swap among change).shader? material
      = (materials.shader? material).map fun shader =>
          if change.1.same shader then change.2.getD shader else shader := by
  have huses : ∀ shader, materials.shader? material = some shader →
      materials.uses material change.1 = change.1.same shader := by
    intro shader hshader
    simp [uses, hshader, Shader.same, BEq.comm]
  unfold swap
  cases hnew : change.2 with
  | none => simp
  | some new =>
      cases hshader : materials.shader? material with
      | none => simp [shader?_replace, uses, hshader]
      | some shader =>
          by_cases hsame : change.1.same shader
          · simp [shader?_replace, h, huses shader hshader, hsame]
          · simp [shader?_replace, huses shader hshader, hsame, hshader]

/-- Materials that are not concerned keep their shaders. -/
theorem shader?_replaceEach_of_not_mem {among : List MaterialId} {material : MaterialId}
    (h : material ∉ among) (swaps : List Swap) (materials : Materials) :
    (materials.replaceEach among swaps).shader? material = materials.shader? material := by
  induction swaps generalizing materials with
  | nil => rfl
  | cons change rest ih =>
      rw [replaceEach, List.foldl_cons]
      exact (ih (materials.swap among change)).trans (shader?_swap_of_not_mem h materials change)

theorem given_cons (change : Swap) (rest : List Swap) (shader : Shader) :
    given (change :: rest) shader
      = if change.1.same shader then change.2.getD shader else given rest shader := by
  by_cases hsame : change.1.same shader
  · simp [given, hsame]
  · simp [given, hsame]

/-- A shader that nothing is given for stays. -/
theorem given_of_forall {swaps : List Swap} {shader : Shader}
    (h : ∀ change ∈ swaps, change.1.id ≠ shader.id) : given swaps shader = shader := by
  have hnone : swaps.find? (fun change => change.1.same shader) = none :=
    List.find?_eq_none.mpr fun change hmem => by simpa [Shader.same] using h change hmem
  simp [given, hnone]

theorem given_of_mem {swaps : List Swap} (hdistinct : (swaps.map fun swap => swap.1.id).Nodup)
    {old : Shader} {new? : Option Shader} (hmem : (old, new?) ∈ swaps) :
    given swaps old = new?.getD old := by
  induction swaps with
  | nil => cases hmem
  | cons change rest ih =>
      obtain ⟨hnew, hrest⟩ := List.nodup_cons.mp hdistinct
      rw [given_cons]
      rcases List.mem_cons.mp hmem with rfl | hmem
      · simp [Shader.same]
      · have hne : change.1.id ≠ old.id := fun heq =>
          hnew (List.mem_map.mpr ⟨(old, new?), hmem, heq.symm⟩)
        rw [if_neg (by simpa [Shader.same] using hne)]
        exact ih hrest hmem

/-- **Rounds do not disturb each other.** Where each shader is replaced in one round only,
and no shader that is put in is replaced, a material ends with what is given for the shader
that it showed first. -/
theorem shader?_replaceEach {among : List MaterialId} {swaps : List Swap}
    (hdistinct : (swaps.map fun swap => swap.1.id).Nodup)
    (hfresh : ∀ swap ∈ swaps, ∀ new, swap.2 = some new → ∀ other ∈ swaps, other.1.id ≠ new.id)
    {material : MaterialId} (hmem : material ∈ among) (materials : Materials) :
    (materials.replaceEach among swaps).shader? material
      = (materials.shader? material).map (given swaps) := by
  induction swaps generalizing materials with
  | nil =>
      have hgiven : given [] = id := by
        funext shader
        simp [given]
      simp [replaceEach, hgiven]
  | cons change rest ih =>
      have hrest := ih (List.nodup_cons.mp hdistinct).2
        (fun swap hswap new hnew other hother => hfresh swap (List.mem_cons_of_mem _ hswap) new hnew
          other (List.mem_cons_of_mem _ hother))
        (materials.swap among change)
      rw [replaceEach, List.foldl_cons]
      refine hrest.trans ?_
      rw [shader?_swap hmem, Option.map_map]
      congr 1
      funext shader
      by_cases hsame : change.1.same shader
      · have hid : change.1.id = shader.id := by simpa [Shader.same] using hsame
        have hstays : given rest (change.2.getD shader) = change.2.getD shader := by
          refine given_of_forall fun other hother => ?_
          cases hnew : change.2 with
          | none =>
              rw [Option.getD_none, ← hid]
              intro heq
              exact (List.nodup_cons.mp hdistinct).1 (List.mem_map.mpr ⟨other, hother, heq⟩)
          | some new =>
              exact hfresh change List.mem_cons_self new hnew other (List.mem_cons_of_mem _ hother)
        simp only [Function.comp_apply, given_cons, hsame, ↓reduceIte, hstays]
      · simp only [Function.comp_apply, given_cons, hsame, Bool.false_eq_true, ↓reduceIte]

end Materials

/-! ### Names -/

/-- First occurrences after more items are those of the first items, and of the others those
that are new. -/
theorem distinctBy_append {α κ : Type} [DecidableEq κ] (key : α → κ) (first second : List α) :
    distinctBy key (first ++ second) = distinctBy key first
      ++ (distinctBy key second).filter fun item => key item ∉ first.map key := by
  induction first with
  | nil => simp [distinctBy]
  | cons item first ih =>
      simp only [List.cons_append, distinctBy, ih, List.filter_append, List.filter_filter,
        List.map_cons, List.mem_cons, not_or]
      congr 2
      refine List.filter_congr fun other _ => ?_
      simp

namespace Repair

/-- The names of the shaders without replacement, in the order of the shaders. -/
def namesMissing (found : List (Shader × Option Replacement)) : List String :=
  (found.filter fun item => item.2.isNone).map fun item => item.1.name

theorem foldl_missingAfter (found : List (Shader × Option Replacement)) (first : List String) :
    found.foldl (fun missing item => missingAfter item.1 item.2 missing) (distinctBy id first)
      = distinctBy id (first ++ namesMissing found) := by
  induction found generalizing first with
  | nil => simp [namesMissing]
  | cons item found ih =>
      obtain ⟨shader, replacement⟩ := item
      have hmem : shader.name ∈ distinctBy id first ↔ shader.name ∈ first := by
        have hkeys : shader.name ∈ (distinctBy id first).map id ↔ shader.name ∈ first.map id :=
          mem_map_distinctBy_iff
        simpa using hkeys
      cases replacement with
      | some replacement => simpa [missingAfter, namesMissing] using ih first
      | none =>
          have hstep : missingAfter shader none (distinctBy id first)
              = distinctBy id (first ++ [shader.name]) := by
            rw [distinctBy_append]
            by_cases hknown : shader.name ∈ first
            · simp [missingAfter, hmem, hknown, distinctBy]
            · simp [missingAfter, hmem, hknown, distinctBy]
          rw [List.foldl_cons, hstep, ih]
          simp [namesMissing]

end Repair

end ShaderMend
