import ShaderMend.Proofs.Repair.Loads
import ShaderMend.Proofs.Repair.Missing

/-!
# Repairs that are repeated

A repair leaves behind shaders that can stay, and those that it found nothing for.

* `Engine.Firm` — an engine that fails to load an asset fails for good, and without a trace.
* `Repository.Unmet` — over such an engine a search that comes to nothing does so again, and
  changes nothing.
* `Repository.filter_loadsForEach` — the loads that fail are those of searches that come to
  nothing.
* `Repair.unsupported_of_mended` — the shaders that a second repair looks for are those that the
  first left in place.
* `Repair.repeated_of_occurs` — so the second changes nothing, and loads nothing but what could
  not be loaded before.
-/

namespace ShaderMend

variable {σ β : Type}

/-! ### Loads that fail for good -/

namespace Engine

/-- Whether an engine has no shader for a path in a bundle, in whatever state it is, and stays in
this state when it is asked. -/
def Lacks (engine : Engine σ β) (bundle : β) (assetPath : String) : Prop :=
  ∀ state, engine.loadShader state bundle assetPath = (state, none)

/-- Whether an engine lacks what it has failed to load once. -/
def Firm (engine : Engine σ β) : Prop :=
  ∀ {state bundle assetPath}, (engine.loadShader state bundle assetPath).2 = none →
    engine.Lacks bundle assetPath

theorem firm_inMemory (bundleDelay shaderDelay : Nat) :
    (inMemory bundleDelay shaderDelay).Firm := by
  intro tally bundle assetPath hfailed other
  change (Tally.loadShader tally bundle assetPath).2 = none at hfailed
  change Tally.loadShader other bundle assetPath = (other, none)
  unfold Tally.loadShader at hfailed ⊢
  cases hname : Payload.name? bundle.assets assetPath with
  | none => rfl
  | some name =>
      rw [hname] at hfailed
      cases hfailed

end Engine

/-! ### Searches that come to nothing -/

namespace Repository

/-- Whether a search comes to nothing for good: the entry closest to the query, if there is one,
has no shader, and the engine has none for it. -/
def Unmet (engine : Engine σ β) (repository : Repository σ β) (query : Signature) : Prop :=
  ∀ candidate, repository.closest? query = some candidate →
    (repository.cell candidate.entry).stored = none ∧
      ∀ bundle, (repository.source candidate.entry.manifest).bundle = some bundle →
        engine.Lacks bundle candidate.entry.assetPath

variable {engine : Engine σ β} {repository : Repository σ β} {query : Signature}

/-- A load of what the engine lacks leaves no trace. -/
theorem materialize_of_lacks {source : Source β} {id : EntryId}
    (hempty : (repository.cell id).stored = none)
    (hlacks : ∀ bundle, source.bundle = some bundle → engine.Lacks bundle id.assetPath) :
    ∃ error, repository.materialize engine source id = (repository, .error error) := by
  unfold materialize
  rw [hempty]
  cases hbundle : source.bundle with
  | none => exact ⟨_, rfl⟩
  | some bundle =>
      dsimp only [loadShader]
      rw [hlacks bundle hbundle repository.engine]
      exact ⟨_, rfl⟩

/-- **A search that comes to nothing for good** changes nothing. -/
theorem Unmet.find_eq (h : repository.Unmet engine query) :
    (repository.find engine query).1 = repository ∧
      Repair.replacementOf (repository.find engine query).2 = none := by
  rw [fst_find, snd_find]
  cases hclosest : repository.closest? query with
  | none => exact ⟨rfl, rfl⟩
  | some candidate =>
      obtain ⟨hempty, hlacks⟩ := h candidate hclosest
      obtain ⟨error, hload⟩ := materialize_of_lacks hempty hlacks
      dsimp only
      rw [hload]
      exact ⟨rfl, rfl⟩

/-- **A search that comes to nothing** does so for good, over a firm engine. -/
theorem unmet_of_nothing (hfirm : engine.Firm)
    (h : Repair.replacementOf (repository.find engine query).2 = none) :
    repository.Unmet engine query := by
  intro candidate hclosest
  rw [snd_find, hclosest] at h
  dsimp only at h
  rw [snd_materialize] at h
  cases hstored : (repository.cell candidate.entry).stored with
  | some shader =>
      rw [hstored] at h
      cases h
  | none =>
      refine ⟨rfl, fun bundle hbundle => ?_⟩
      rw [hstored, hbundle] at h
      dsimp only at h
      cases hload : (engine.loadShader repository.engine bundle candidate.entry.assetPath).2 with
      | some shader =>
          rw [hload] at h
          cases h
      | none => exact hfirm hload

theorem unmet_of_find (hfirm : engine.Firm)
    (h : Repair.replacementOf (repository.find engine query).2 = none) :
    (repository.find engine query).1.Unmet engine query := by
  have hunmet := unmet_of_nothing hfirm h
  rwa [hunmet.find_eq.1]

/-- What comes to nothing does so after other searches as well. -/
theorem Unmet.find (h : repository.Unmet engine query) (other : Signature) :
    (repository.find engine other).1.Unmet engine query := by
  intro candidate hclosest
  have hdeclared := (repository.find_grown engine other).declared
  rw [closest?_of_declared hdeclared] at hclosest
  rw [source_of_declared hdeclared]
  obtain ⟨hempty, hlacks⟩ := h candidate hclosest
  refine ⟨?_, hlacks⟩
  rw [fst_find]
  cases hother : repository.closest? other with
  | none => exact hempty
  | some choice =>
      dsimp only
      by_cases hentry : choice.entry = candidate.entry
      · obtain ⟨error, hload⟩ := materialize_of_lacks hempty hlacks
        rw [hentry, hload]
        exact hempty
      · have hmaterialized := repository.materialized engine
          (repository.source choice.entry.manifest) choice.entry
        generalize repository.materialize engine
          (repository.source choice.entry.manifest) choice.entry = result at hmaterialized
        cases hmaterialized with
        | stored hstored => exact hempty
        | unbound hbundle => exact hempty
        | missing hcalled => exact hempty
        | loaded _ hdelivers =>
            rw [cell_modifyCell_of_ne _ (Ne.symm hentry)]
            exact hempty

theorem Unmet.findEach (h : repository.Unmet engine query) (shaders : List Shader) :
    (repository.findEach engine shaders).1.Unmet engine query := by
  induction shaders generalizing repository with
  | nil => exact h
  | cons first rest ih => exact ih (h.find first.query)

/-- Of several searches, those that come to nothing do so for good. -/
theorem unmet_of_mem_findEach (hfirm : engine.Firm) {shaders : List Shader} {shader : Shader}
    {result : Except RepositoryError (Option Replacement)}
    (hmem : (shader, result) ∈ (repository.findEach engine shaders).2)
    (hnone : Repair.replacementOf result = none) :
    (repository.findEach engine shaders).1.Unmet engine shader.query := by
  induction shaders generalizing repository with
  | nil => cases hmem
  | cons first rest ih =>
      rcases List.mem_cons.mp hmem with heq | hmem
      · obtain ⟨rfl, rfl⟩ := Prod.mk.inj heq
        exact (unmet_of_find hfirm hnone).findEach rest
      · exact ih hmem

/-- **Searches that come to nothing for good** leave the repository as it is. -/
theorem findEach_of_unmet {shaders : List Shader}
    (h : ∀ shader ∈ shaders, repository.Unmet engine shader.query) :
    (repository.findEach engine shaders).1 = repository ∧
      ∀ item ∈ (repository.findEach engine shaders).2, Repair.replacementOf item.2 = none := by
  induction shaders with
  | nil => exact ⟨rfl, fun item hmem => by cases hmem⟩
  | cons first rest ih =>
      obtain ⟨hsame, hnone⟩ := (h first List.mem_cons_self).find_eq
      obtain ⟨hrest, hnothing⟩ := ih fun shader hmem => h shader (List.mem_cons_of_mem _ hmem)
      simp only [Repository.findEach, hsame]
      refine ⟨hrest, fun item hmem => ?_⟩
      rcases List.mem_cons.mp hmem with rfl | hmem
      · exact hnone
      · exact hnothing item hmem

/-- **What every act keeps, searches keep**, if some task has nothing under way. -/
theorem findEach_keeps {P : Repository σ β → (TaskId → Hold) → Prop} (hkeeps : Act.Keeps engine P)
    {holds : TaskId → Hold} (hfree : ∃ task, holds task = .nothing) (h : P repository holds)
    (shaders : List Shader) : P (repository.findEach engine shaders).1 holds := by
  induction shaders generalizing repository with
  | nil => exact h
  | cons first rest ih => exact ih (find_keeps hkeeps hfree h first.query)

/-! ### Loads that fail -/

/-- The load of a search that comes to nothing for good, if the closest entry has a bundle. -/
def failuresFor (repository : Repository σ β) (query : Signature) : List (Load β) :=
  match repository.closest? query with
  | none => []
  | some candidate =>
      match (repository.source candidate.entry.manifest).bundle with
      | none => []
      | some bundle => [⟨bundle, candidate.entry.assetPath, none⟩]

/-- It depends on what is declared. -/
theorem failuresFor_of_declared {first second : Repository σ β}
    (h : first.declared = second.declared) (query : Signature) :
    first.failuresFor query = second.failuresFor query := by
  simp only [failuresFor, closest?_of_declared h, source_of_declared h]

theorem Unmet.loadsFor_eq (h : repository.Unmet engine query) :
    repository.loadsFor engine query = repository.failuresFor query := by
  unfold loadsFor failuresFor
  cases hclosest : repository.closest? query with
  | none => rfl
  | some candidate =>
      obtain ⟨hempty, hlacks⟩ := h candidate hclosest
      dsimp only
      unfold loadsBy
      rw [hempty]
      cases hbundle : (repository.source candidate.entry.manifest).bundle with
      | none => rfl
      | some bundle => simp only [hlacks bundle hbundle repository.engine]

theorem filter_failuresFor : (repository.failuresFor query).filter Load.failed
    = repository.failuresFor query := by
  unfold failuresFor
  cases repository.closest? query with
  | none => rfl
  | some candidate =>
      dsimp only
      cases (repository.source candidate.entry.manifest).bundle <;> rfl

/-- A search that finds a replacement makes no load that fails. -/
theorem filter_loadsFor_of_found {replacement : Replacement}
    (h : Repair.replacementOf (repository.find engine query).2 = some replacement) :
    (repository.loadsFor engine query).filter Load.failed = [] := by
  rw [snd_find] at h
  unfold loadsFor
  cases hclosest : repository.closest? query with
  | none => rfl
  | some candidate =>
      rw [hclosest] at h
      dsimp only at h ⊢
      rw [snd_materialize] at h
      unfold loadsBy
      cases hstored : (repository.cell candidate.entry).stored with
      | some shader => rfl
      | none =>
          cases hbundle : (repository.source candidate.entry.manifest).bundle with
          | none => rfl
          | some bundle =>
              rw [hstored, hbundle] at h
              dsimp only at h ⊢
              cases hload : (engine.loadShader repository.engine bundle
                  candidate.entry.assetPath).2 with
              | some shader => rfl
              | none =>
                  rw [hload] at h
                  cases h

/-- **The loads that fail** are those of the searches that come to nothing, in their order. -/
theorem filter_loadsForEach (hfirm : engine.Firm) (shaders : List Shader) :
    (repository.loadsForEach engine shaders).filter Load.failed
      = ((Repair.resolved (repository.findEach engine shaders).2).filter
          fun item => item.2.isNone).flatMap fun item => repository.failuresFor item.1.query := by
  induction shaders generalizing repository with
  | nil => rfl
  | cons first rest ih =>
      have hdeclared := (repository.find_grown engine first.query).declared
      have hrest : ∀ query, (repository.find engine first.query).1.failuresFor query
          = repository.failuresFor query := failuresFor_of_declared hdeclared
      simp only [loadsForEach, findEach, List.filter_append, ih, hrest, Repair.resolved,
        List.map_cons, List.filter_cons]
      cases hfound : Repair.replacementOf (repository.find engine first.query).2 with
      | none =>
          have hunmet := unmet_of_nothing hfirm hfound
          simp [hunmet.loadsFor_eq, filter_failuresFor]
      | some replacement => simp [filter_loadsFor_of_found hfound]

/-- **Searches that come to nothing for good** make their loads again. -/
theorem loadsForEach_of_unmet {shaders : List Shader}
    (h : ∀ shader ∈ shaders, repository.Unmet engine shader.query) :
    repository.loadsForEach engine shaders
      = shaders.flatMap fun shader => repository.failuresFor shader.query := by
  induction shaders with
  | nil => rfl
  | cons first rest ih =>
      have hfirst := h first List.mem_cons_self
      rw [loadsForEach, hfirst.find_eq.1, hfirst.loadsFor_eq, List.flatMap_cons,
        ih fun shader hmem => h shader (List.mem_cons_of_mem _ hmem)]

end Repository

/-! ### First occurrences -/

/-- Where items with one key pass together, first occurrences and items that pass can be taken in
either order. -/
theorem filter_distinctBy {α κ : Type} [DecidableEq κ] {key : α → κ} {passes : α → Bool}
    {items : List α}
    (h : ∀ first ∈ items, ∀ second ∈ items, key first = key second →
      passes first = passes second) :
    (distinctBy key items).filter passes = distinctBy key (items.filter passes) := by
  induction items with
  | nil => rfl
  | cons first rest ih =>
      have hrest := ih fun one hone other hother =>
        h one (List.mem_cons_of_mem _ hone) other (List.mem_cons_of_mem _ hother)
      rw [distinctBy, List.filter_cons, List.filter_cons]
      cases hpasses : passes first with
      | true =>
          rw [if_pos rfl, if_pos rfl, distinctBy, ← hrest, List.filter_filter, List.filter_filter]
          simp only [Bool.and_comm]
      | false =>
          rw [if_neg Bool.false_ne_true, if_neg Bool.false_ne_true, ← hrest, List.filter_filter]
          refine List.filter_congr fun item hmem => ?_
          have hitem : item ∈ rest := (distinctBy_sublist key rest).subset hmem
          by_cases hkey : key item = key first
          · have hsame := h item (List.mem_cons_of_mem _ hitem) first List.mem_cons_self hkey
            simp [hsame, hpasses]
          · simp [hkey]

/-! ### What a repair leaves in place -/

namespace Repair

/-- Whether a repair leaves shaders in place that it finds nothing for. -/
def Leaves (world : World σ β) : Prop :=
  world.config.showUnsupportedShaders = true ∨ world.repository.invalid = none

instance (world : World σ β) : Decidable (Leaves world) :=
  inferInstanceAs (Decidable (_ ∨ _))

/-- The shaders that a repair of materials finds nothing for and leaves in place. -/
def leftIn (engine : Engine σ β) (world : World σ β) (materials : List MaterialId) :
    List Shader :=
  if Leaves world then
    ((resolved (searched engine world materials).2).filter fun item => item.2.isNone).map Prod.fst
  else []

section Left

variable {engine : Engine σ β} {world after : World σ β} {materials : List MaterialId}
  {missing : List String}

theorem mem_leftIn_iff {shader : Shader} :
    shader ∈ leftIn engine world materials ↔
      Leaves world ∧ (shader, none) ∈ resolved (searched engine world materials).2 := by
  unfold leftIn
  by_cases hleaves : Leaves world
  · rw [if_pos hleaves]
    constructor
    · intro hmem
      obtain ⟨⟨other, replacement⟩, hitem, rfl⟩ := List.mem_map.mp hmem
      obtain ⟨hfound, hnone⟩ := List.mem_filter.mp hitem
      obtain rfl : replacement = none := by simpa using hnone
      exact ⟨hleaves, hfound⟩
    · rintro ⟨-, hfound⟩
      exact List.mem_map.mpr ⟨_, List.mem_filter.mpr ⟨hfound, rfl⟩, rfl⟩
  · simp [hleaves]

/-- Each shader is searched for once. -/
theorem eq_of_mem_resolved {shader : Shader} {first second : Option Replacement}
    (hfirst : (shader, first) ∈ resolved (searched engine world materials).2)
    (hsecond : (shader, second) ∈ resolved (searched engine world materials).2) :
    first = second := by
  have hdistinct : ((resolved (searched engine world materials).2).map Prod.fst).Nodup := by
    rw [map_fst_resolved]
    exact (nodup_unsupported world materials).of_map
  exact congrArg Prod.snd (List.inj_on_of_nodup_map hdistinct hfirst hsecond rfl)

/-- What is left in place cannot stay. -/
theorem isSupported_of_mem_leftIn {shader : Shader}
    (hleft : shader ∈ leftIn engine world materials) :
    shader.isSupported world.layout = false := by
  have hsearched := List.mem_map_of_mem (f := Prod.fst) (mem_leftIn_iff.mp hleft).2
  rw [map_fst_resolved] at hsearched
  exact (shown_of_mem_unsupported hsearched).2

/-- What the engine makes can stay, if its support is known. -/
theorem isSupported_of_makes
    (hmade : ∀ shader, engine.Makes shader → shader.knownSupport = some true) {shader : Shader}
    (h : engine.Makes shader) (layout : Bytecode.Layout) : shader.isSupported layout = true := by
  simp [Shader.isSupported, hmade shader h]

/-- A shader without replacement is left in place, or the invalid shader takes its place. -/
theorem filter_shader?_of_unreplaced (hmade : ∀ shader, engine.Makes shader →
      shader.knownSupport = some true) {holds : TaskId → Hold}
    (h : Tidy engine world.repository holds)
    (hmended : Mended engine materials world after missing) {material : MaterialId}
    (hmem : material ∈ materials) {shader : Shader}
    {result : Except RepositoryError (Option Replacement)}
    (hshown : world.materials.shader? material = some shader)
    (hsupport : shader.isSupported world.layout = false)
    (hitem : (shader, result) ∈ (searched engine world materials).2)
    (hnone : replacementOf result = none) :
    (after.materials.shader? material = some shader ∨
      ∃ other, engine.Makes other ∧ after.materials.shader? material = some other) ∧
    (after.materials.shader? material).filter (fun shader => !shader.isSupported world.layout)
      = (some shader).filter (fun shader => shader ∈ leftIn engine world materials) := by
  have hafter := hmended.unreplaced material hmem shader result hshown hitem hnone
  have hfound := mem_resolved hitem
  rw [hnone] at hfound
  by_cases hleaves : Leaves world
  · have hsame : (if world.config.showUnsupportedShaders then shader
        else world.repository.invalid.getD shader) = shader := by
      rcases hleaves with hshow | hnone
      · rw [if_pos hshow]
      · simp [hnone]
    have hin : shader ∈ leftIn engine world materials := mem_leftIn_iff.mpr ⟨hleaves, hfound⟩
    rw [hafter, hsame]
    refine ⟨Or.inl rfl, ?_⟩
    simp [Option.filter, hsupport, hin]
  · have hout : shader ∉ leftIn engine world materials :=
      fun hleft => hleaves (mem_leftIn_iff.mp hleft).1
    obtain ⟨hshow, hinvalid⟩ := not_or.mp hleaves
    obtain ⟨placeholder, hplaceholder⟩ := Option.ne_none_iff_exists'.mp hinvalid
    have hmakes := h.invalid hplaceholder
    rw [hafter, if_neg hshow, hplaceholder, Option.getD_some]
    refine ⟨Or.inr ⟨_, hmakes, rfl⟩, ?_⟩
    simp [Option.filter, isSupported_of_makes hmade hmakes world.layout, hout]

/-- What a material shows after a repair that cannot stay is what was left in place. -/
theorem filter_shader?_of_mended (hmade : ∀ shader, engine.Makes shader →
      shader.knownSupport = some true) {holds : TaskId → Hold}
    (h : Tidy engine world.repository holds) (hfree : ∃ task, holds task = .nothing)
    (happart : ShownApart world materials)
    (hmended : Mended engine materials world after missing) {material : MaterialId}
    (hmem : material ∈ materials) :
    (after.materials.shader? material = world.materials.shader? material ∨
      ∃ shader, engine.Makes shader ∧ after.materials.shader? material = some shader) ∧
    (after.materials.shader? material).filter (fun shader => !shader.isSupported world.layout)
      = (world.materials.shader? material).filter
          (fun shader => shader ∈ leftIn engine world materials) := by
  have hsupported := fun {shader} (hmakes : engine.Makes shader) =>
    isSupported_of_makes hmade hmakes world.layout
  cases hshown : world.materials.shader? material with
  | none =>
      have hkept := hmended.supported material fun shader hshader => by
        rw [hshown] at hshader
        cases hshader
      rw [hkept, hshown]
      exact ⟨Or.inl rfl, rfl⟩
  | some shader =>
      cases hsupport : shader.isSupported world.layout with
      | true =>
          have hkept := hmended.supported material fun other hother => by
            obtain rfl := Option.some.inj (hshown.symm.trans hother)
            exact hsupport
          have hout : shader ∉ leftIn engine world materials := by
            intro hleft
            have hunsupported := isSupported_of_mem_leftIn hleft
            rw [hsupport] at hunsupported
            cases hunsupported
          rw [hkept, hshown]
          refine ⟨Or.inl rfl, ?_⟩
          simp [Option.filter, hsupport, hout]
      | false =>
          obtain ⟨result, hitem⟩ := exists_searched engine happart hmem hshown hsupport
          have hfound := mem_resolved hitem
          cases hreplacement : replacementOf result with
          | some replacement =>
              rw [hreplacement] at hfound
              have hmakes := makes_of_mem_resolved h hfree hfound
              obtain rfl := ok_of_replacementOf hreplacement
              have hafter := hmended.replaced material hmem shader replacement hshown hitem
              have hout : shader ∉ leftIn engine world materials := by
                intro hleft
                cases eq_of_mem_resolved hfound (mem_leftIn_iff.mp hleft).2
              rw [hafter]
              refine ⟨Or.inr ⟨_, hmakes, rfl⟩, ?_⟩
              simp [Option.filter, hsupported hmakes, hout]
          | none =>
              exact filter_shader?_of_unreplaced hmade h hmended hmem hshown hsupport hitem
                hreplacement

/-- First occurrences among those searched for that are left in place. -/
theorem filter_unsupported (engine : Engine σ β) (world : World σ β)
    (materials : List MaterialId) :
    (distinctBy Shader.id (materials.filterMap world.materials.shader?)).filter
        (fun shader => shader ∈ leftIn engine world materials)
      = leftIn engine world materials := by
  have hpassed : (distinctBy Shader.id (materials.filterMap world.materials.shader?)).filter
        (fun shader => shader ∈ leftIn engine world materials)
      = (unsupported world materials).filter
          (fun shader => shader ∈ leftIn engine world materials) := by
    rw [unsupported, List.filter_filter]
    refine List.filter_congr fun shader _ => ?_
    by_cases hleft : shader ∈ leftIn engine world materials
    · simp [hleft, isSupported_of_mem_leftIn hleft]
    · simp [hleft]
  rw [hpassed, ← map_fst_resolved engine, List.filter_map]
  have hleft : ∀ item ∈ resolved (searched engine world materials).2,
      ((fun shader => decide (shader ∈ leftIn engine world materials)) ∘ Prod.fst) item
        = (decide (Leaves world) && item.2.isNone) := by
    rintro ⟨shader, replacement⟩ hitem
    have hiff : shader ∈ leftIn engine world materials
        ↔ Leaves world ∧ replacement.isNone = true := by
      rw [mem_leftIn_iff]
      refine and_congr_right fun _ => ⟨fun hnone => ?_, fun hnone => ?_⟩
      · rw [eq_of_mem_resolved hitem hnone]
        rfl
      · rw [Option.isNone_iff_eq_none] at hnone
        exact hnone ▸ hitem
    simp only [Function.comp_apply, hiff, Bool.decide_and, Bool.decide_eq_true]
  rw [List.filter_congr hleft]
  unfold leftIn
  by_cases hleaves : Leaves world
  · simp [hleaves]
  · simp [hleaves]

/-- **The shaders that a second repair looks for** are those that the first left in place. -/
theorem unsupported_of_mended (hmade : ∀ shader, engine.Makes shader →
      shader.knownSupport = some true) {holds : TaskId → Hold}
    (h : Tidy engine world.repository holds) (hfree : ∃ task, holds task = .nothing)
    (happart : ToldApart engine world materials)
    (hmended : Mended engine materials world after missing) :
    unsupported after materials = leftIn engine world materials := by
  have hshown := fun {material} (hmem : material ∈ materials) =>
    filter_shader?_of_mended hmade h hfree happart.shown hmended hmem
  have hsupported := fun {shader} (hmakes : engine.Makes shader) =>
    isSupported_of_makes hmade hmakes world.layout
  -- Objects that are shown afterwards pass together: they were shown before, or the engine made
  -- them.
  have htogether : ∀ first ∈ materials.filterMap after.materials.shader?,
      ∀ second ∈ materials.filterMap after.materials.shader?, first.id = second.id →
        (!first.isSupported world.layout) = !second.isSupported world.layout := by
    intro first hfirst second hsecond hsame
    obtain ⟨one, hone, hfirst⟩ := List.mem_filterMap.mp hfirst
    obtain ⟨other, hother, hsecond⟩ := List.mem_filterMap.mp hsecond
    congr 1
    rcases (hshown hone).1 with hone' | ⟨shader, hmakes, hafter⟩ <;>
      rcases (hshown hother).1 with hother' | ⟨shader', hmakes', hafter'⟩
    · rw [hfirst] at hone'
      rw [hsecond] at hother'
      rw [happart.shown one hone other hother first second hone'.symm hother'.symm hsame]
    · obtain rfl := Option.some.inj (hafter'.symm.trans hsecond)
      exact happart.made one hone first _ (hone'.symm.trans hfirst) hmakes' hsame
    · obtain rfl := Option.some.inj (hafter.symm.trans hfirst)
      exact (happart.made other hother second _ (hother'.symm.trans hsecond) hmakes
        hsame.symm).symm
    · obtain rfl := Option.some.inj (hafter.symm.trans hfirst)
      obtain rfl := Option.some.inj (hafter'.symm.trans hsecond)
      rw [hsupported hmakes, hsupported hmakes']
  have hbefore : ∀ first ∈ materials.filterMap world.materials.shader?,
      ∀ second ∈ materials.filterMap world.materials.shader?, first.id = second.id →
        decide (first ∈ leftIn engine world materials)
          = decide (second ∈ leftIn engine world materials) := by
    intro first hfirst second hsecond hsame
    obtain ⟨one, hone, hfirst⟩ := List.mem_filterMap.mp hfirst
    obtain ⟨other, hother, hsecond⟩ := List.mem_filterMap.mp hsecond
    rw [happart.shown one hone other hother first second hfirst hsecond hsame]
  calc unsupported after materials
      = distinctBy Shader.id ((materials.filterMap after.materials.shader?).filter
          fun shader => !shader.isSupported world.layout) := by
        rw [unsupported, hmended.layout, filter_distinctBy htogether]
    _ = distinctBy Shader.id ((materials.filterMap world.materials.shader?).filter
          fun shader => shader ∈ leftIn engine world materials) := by
        rw [List.filter_filterMap, List.filter_filterMap]
        congr 1
        exact List.filterMap_congr fun material hmem => (hshown hmem).2
    _ = leftIn engine world materials := by
        rw [← filter_distinctBy hbefore, filter_unsupported]

end Left

/-! ### The second repair -/

theorem replaceEach_of_none {swaps : List Materials.Swap} (h : ∀ swap ∈ swaps, swap.2 = none)
    (among : List MaterialId) (materials : Materials) :
    materials.replaceEach among swaps = materials := by
  induction swaps with
  | nil => rfl
  | cons swap rest ih =>
      rw [Materials.replaceEach, List.foldl_cons, Materials.swap, h swap List.mem_cons_self]
      exact ih fun other hmem => h other (List.mem_cons_of_mem _ hmem)

section Fix

variable {engine : Engine σ β} {world : World σ β} {materials : List MaterialId}
  {holds : TaskId → Hold}

/-- **A repair on the main thread**: nothing is to be done, or all searches, all swaps, and the
report. -/
theorem fix_cases (h : Tidy engine world.repository holds)
    (hfree : ∃ task, holds task = .nothing) (materials : List MaterialId) :
    (world.config.enableMultiPassRendering = true ∨ unsupported world materials = []) ∧
      fix engine .main materials world = (world, .ok .allSupported) ∨
    world.config.enableMultiPassRendering = false ∧ ∃ missing,
      missing = distinctBy id (namesMissing (resolved (searched engine world materials).2)) ∧
      fix engine .main materials world
        = ((finish ⟨world.config, materials⟩ missing
            (afterRounds ⟨world.config, materials⟩ (searched engine world materials).1
              (resolved (searched engine world materials).2) world)).1,
           .ok (.ofMissing missing)) := by
  cases hon : world.config.enableMultiPassRendering with
  | true => exact Or.inl ⟨Or.inl rfl, by simp [fix, plan?, hon]⟩
  | false =>
      cases hshaders : unsupported world materials with
      | nil => exact Or.inl ⟨Or.inr rfl, by simp [fix, plan?, hon, hshaders]⟩
      | cons first rest =>
          have hplan : plan? world materials
              = some (⟨world.config, materials⟩, unsupported world materials) := by
            simp [plan?, hon, hshaders]
          have hnames := foldl_missingAfter (resolved (searched engine world materials).2) []
          rw [List.nil_append] at hnames
          refine Or.inr ⟨rfl, _, rfl, ?_⟩
          simp only [fix, hplan]
          rw [replaceAll_eq h hfree, ← hnames]
          rfl

/-- **A repair that finds nothing, and leaves all in place**, changes no material and nothing in
the repository, and reports all that it looked for. -/
theorem fix_of_unmet (h : Tidy engine world.repository holds)
    (hfree : ∃ task, holds task = .nothing)
    (hunmet : ∀ shader ∈ unsupported world materials,
      world.repository.Unmet engine shader.query)
    (hleaves : unsupported world materials ≠ [] → Leaves world) :
    ∃ again outcome, fix engine .main materials world = (again, .ok outcome) ∧
      again.materials = world.materials ∧ again.repository = world.repository ∧
      (world.config.enableMultiPassRendering = true ∧ outcome.missingNames = [] ∨
        outcome.missingNames = distinctBy id ((unsupported world materials).map Shader.name)) := by
  obtain ⟨hrepository, hnothing⟩ := Repository.findEach_of_unmet hunmet
  rcases fix_cases h hfree materials with ⟨hidle, hfix⟩ | ⟨-, missing, hmissing, hfix⟩
  · refine ⟨world, .allSupported, hfix, rfl, rfl, ?_⟩
    rcases hidle with hoff | hempty
    · exact Or.inl ⟨hoff, rfl⟩
    · right
      rw [hempty]
      rfl
  · refine ⟨_, _, hfix, ?_, ?_, Or.inr ?_⟩
    · rw [fst_finish]
      refine replaceEach_of_none ?_ materials world.materials
      intro swap hmem
      obtain ⟨item, hitem, rfl⟩ := List.mem_map.mp hmem
      obtain ⟨found, hfound, rfl⟩ := List.mem_map.mp hitem
      have hsearched : found.1 ∈ unsupported world materials := by
        rw [← map_fst_searched engine]
        exact List.mem_map_of_mem hfound
      have hnone := hnothing found hfound
      dsimp only
      rw [hnone]
      rcases hleaves (List.ne_nil_of_mem hsearched) with hshow | hinvalid
      · simp [successor?, hshow]
      · simp [successor?, hinvalid]
    · rw [fst_finish]
      exact hrepository
    · have hall : ∀ item ∈ resolved (searched engine world materials).2, item.2.isNone = true := by
        intro item hitem
        obtain ⟨found, hfound, rfl⟩ := List.mem_map.mp hitem
        rw [hnothing found hfound]
        rfl
      change missing = _
      rw [hmissing, namesMissing, List.filter_eq_self.mpr hall, ← map_fst_resolved engine world,
        List.map_map]
      rfl

end Fix

section Mended

variable {engine : Engine σ β} {world after : World σ β} {materials : List MaterialId}
  {missing : List String} {holds : TaskId → Hold}

/-- After a repair nothing is found for what cannot stay. -/
theorem unmet_of_mended (hfirm : engine.Firm)
    (hmended : Mended engine materials world after missing)
    (hleft : unsupported after materials = leftIn engine world materials) :
    ∀ shader ∈ unsupported after materials, after.repository.Unmet engine shader.query := by
  intro shader hmem
  rw [hleft] at hmem
  obtain ⟨⟨other, result⟩, hitem, heq⟩ := List.mem_map.mp (mem_leftIn_iff.mp hmem).2
  obtain ⟨rfl, hnone⟩ := Prod.mk.inj heq
  rw [hmended.repository]
  exact Repository.unmet_of_mem_findEach hfirm hitem hnone

/-- What a second repair loads are the loads of the first that failed, if the first left shaders
in place. -/
theorem loadsOf_of_unmet (h : Tidy engine world.repository holds)
    (htidy : Tidy engine after.repository holds) (hfree : ∃ task, holds task = .nothing)
    (hfirm : engine.Firm) (hon : world.config.enableMultiPassRendering = false)
    (hconfig : after.config = world.config) (hgrown : world.repository.Grown after.repository)
    (hleft : unsupported after materials = leftIn engine world materials)
    (hunmet : ∀ shader ∈ unsupported after materials,
      after.repository.Unmet engine shader.query) :
    loadsOf engine materials after
      = if Leaves world then (loadsOf engine materials world).filter Load.failed else [] := by
  have hloads : loadsOf engine materials after
      = (leftIn engine world materials).flatMap fun shader =>
          world.repository.failuresFor shader.query := by
    rw [loadsOf_eq htidy hfree (by rwa [hconfig]), Repository.loadsForEach_of_unmet hunmet, hleft]
    simp only [Repository.failuresFor_of_declared hgrown.declared]
  rw [hloads, loadsOf_eq h hfree hon, Repository.filter_loadsForEach hfirm, leftIn]
  by_cases hkept : Leaves world
  · rw [if_pos hkept, if_pos hkept, List.flatMap_map]
  · rw [if_neg hkept, if_neg hkept]
    rfl

end Mended

/-- **A repair that is repeated changes nothing**, over a firm engine whose shaders can all
stay, and makes the loads again that failed for what was left in place. -/
theorem repeated_of_tidy {engine : Engine σ β} {world : World σ β} {materials : List MaterialId}
    {holds : TaskId → Hold} (h : Tidy engine world.repository holds)
    (hfree : ∃ task, holds task = .nothing) (hfirm : engine.Firm)
    (hmade : ∀ shader, engine.Makes shader → shader.knownSupport = some true)
    (happart : ToldApart engine world materials) :
    ∃ after outcome, fix engine .main materials world = (after, .ok outcome) ∧
      after.config = world.config ∧
      ∃ again outcome', fix engine .main materials after = (again, .ok outcome') ∧
        again.materials = after.materials ∧ again.repository = after.repository ∧
        loadsOf engine materials after
          = (if Leaves world then (loadsOf engine materials world).filter Load.failed else []) ∧
        outcome'.missingNames = if Leaves world then outcome.missingNames else [] := by
  rcases fix_cases h hfree materials with ⟨hidle, hfix⟩ | ⟨hon, missing, hmissing, hfix⟩
  · refine ⟨world, _, hfix, rfl, world, _, hfix, rfl, rfl, ?_, (ite_self _).symm⟩
    rw [loadsOf_of_idle hidle]
    exact (ite_self _).symm
  · have hmended := mended_of_rounds h hfree happart.shown (happart.foreign hmade)
    rw [← hmissing] at hmended
    refine ⟨_, _, hfix, hmended.config, ?_⟩
    generalize (finish ⟨world.config, materials⟩ missing _).1 = after at hmended
    have hleft := unsupported_of_mended hmade h hfree happart hmended
    have htidy : Tidy engine after.repository holds := by
      rw [hmended.repository]
      exact Repository.findEach_keeps (Act.keeps_tidy engine) hfree h _
    have hunmet := unmet_of_mended hfirm hmended hleft
    have hgrown : world.repository.Grown after.repository := by
      rw [hmended.repository]
      exact Repository.findEach_grown engine _ _
    have hleaves : unsupported after materials ≠ [] → Leaves after := by
      intro hne
      rw [hleft] at hne
      obtain ⟨shader, hmem⟩ := List.exists_mem_of_ne_nil _ hne
      have hworld := (mem_leftIn_iff.mp hmem).1
      rwa [Leaves, hmended.config, hgrown.invalid]
    obtain ⟨again, outcome, hagain, hmaterials, hrepository, hnames⟩ :=
      fix_of_unmet htidy hfree hunmet hleaves
    refine ⟨again, outcome, hagain, hmaterials, hrepository, ?_, ?_⟩
    · exact loadsOf_of_unmet h htidy hfree hfirm hon hmended.config hgrown hleft hunmet
    · have hreported : outcome.missingNames
          = distinctBy id ((leftIn engine world materials).map Shader.name) := by
        rcases hnames with ⟨hoff, -⟩ | hnames
        · rw [hmended.config, hon] at hoff
          cases hoff
        · rw [hnames, hleft]
      rw [hreported, leftIn]
      by_cases hkept : Leaves world
      · rw [if_pos hkept, if_pos hkept, List.map_map]
        exact hmissing.symm
      · rw [if_neg hkept, if_neg hkept]
        rfl

/-- **Repairs are idempotent, but for loads that fail.** In the repository of a session over the
engine in memory, whatever its tasks are at, a repair of some materials succeeds, and so does
the same repair right after it. The second gives no material another shader and leaves the
whole repository as it is, with the shaders of its entries and the count of the shaders that
the engine has made. If the first left shaders without replacement in place, the second makes
those loads again that failed in the first, in the same order, and they fail again; it makes no
other load, and none if the first gave the materials the invalid shader instead. It reports the
names that the first reported in the one case, and none in the other. -/
theorem repeated_of_occurs {bundleDelay shaderDelay : Nat}
    {world : World Engine.Tally Engine.MemoryBundle} {materials : List MaterialId}
    (h : world.repository.Occurs (Engine.inMemory bundleDelay shaderDelay))
    (happart : ToldApart (Engine.inMemory bundleDelay shaderDelay) world materials) :
    ∃ after outcome,
      fix (Engine.inMemory bundleDelay shaderDelay) .main materials world = (after, .ok outcome) ∧
      after.config = world.config ∧
      ∃ again outcome',
        fix (Engine.inMemory bundleDelay shaderDelay) .main materials after
          = (again, .ok outcome') ∧
        again.materials = after.materials ∧ again.repository = after.repository ∧
        loadsOf (Engine.inMemory bundleDelay shaderDelay) materials after
          = (if Leaves world then
              (loadsOf (Engine.inMemory bundleDelay shaderDelay) materials world).filter Load.failed
            else []) ∧
        outcome'.missingNames = if Leaves world then outcome.missingNames else [] := by
  obtain ⟨holds, task, hnothing, htidy⟩ :=
    h.invariant (Act.keeps_tidy _) fun start => Tidy.initial _ start fun _ => rfl
  apply repeated_of_tidy htidy ⟨task, hnothing⟩ (Engine.firm_inMemory bundleDelay shaderDelay)
  · exact fun shader hmakes => (knownSupport_of_makes hmakes).1
  · exact happart

/-! ### A repair that leaves a shader in place -/

/-- A world with two shaders that cannot stay: for one there is a replacement, the other is to be
left in place. -/
def repeatedWorld : World Engine.Tally Engine.MemoryBundle :=
  { placeholderWorld sampleShader with
    materials := [some sampleShader, some { relatedShader with id := .host 1 }]
    config := { Config.standard with showUnsupportedShaders := true } }

theorem toldApart_repeated : ToldApart Session.sampleEngine repeatedWorld [0, 1, 0] :=
  toldApart_of_own (by decide +kernel)

theorem repeated_of_sample :
    repeatedWorld.repository.Occurs Session.sampleEngine ∧
    ToldApart Session.sampleEngine repeatedWorld [0, 1, 0] ∧
    ∃ after outcome,
      fix Session.sampleEngine .main [0, 1, 0] repeatedWorld = (after, .ok outcome) ∧
      after.materials ≠ repeatedWorld.materials ∧
      ∃ again outcome',
        fix Session.sampleEngine .main [0, 1, 0] after = (again, .ok outcome') ∧
        again.materials = after.materials ∧ again.repository = after.repository ∧
        loadsOf Session.sampleEngine [0, 1, 0] after
          = (loadsOf Session.sampleEngine [0, 1, 0] repeatedWorld).filter Load.failed ∧
        outcome'.missingNames = ["S"] := by
  have hoccurs : repeatedWorld.repository.Occurs (Engine.inMemory 0 0) := Session.occurs_placeholder
  have hresult : (fix Session.sampleEngine .main [0, 1, 0] repeatedWorld).2
      = .ok ⟨false, ["S"]⟩ := by
    decide +kernel
  have hchanged : (fix Session.sampleEngine .main [0, 1, 0] repeatedWorld).1.materials
      ≠ repeatedWorld.materials := by
    decide +kernel
  obtain ⟨after, outcome, hfix, -, again, outcome', hagain, hmaterials, hrepository, hloads,
    hnames⟩ := repeated_of_occurs hoccurs toldApart_repeated
  have hnamed : outcome.missingNames = ["S"] := by
    have hsame : Except.ok outcome = _ := (congrArg Prod.snd hfix).symm.trans hresult
    rw [Except.ok.inj hsame]
  have hmoved : after.materials ≠ repeatedWorld.materials := by
    rw [← congrArg (·.1.materials) hfix]
    exact hchanged
  have hleaves : Leaves repeatedWorld := Or.inl rfl
  rw [if_pos hleaves, hnamed] at hnames
  rw [if_pos hleaves] at hloads
  exact ⟨hoccurs, toldApart_repeated, after, outcome, hfix, hmoved, again, outcome', hagain,
    hmaterials, hrepository, hloads, hnames⟩

end Repair

/-! ### An asset that is missing -/

/-- A tree with an archive at `a` whose manifest lists `S` at `x`. Its payload does not. -/
def Bundle.hollowFiles : FileTree :=
  ⟨[(["a"], .file (Zip.encode
    [⟨Bytes.ofText manifestName, Bytes.ofText "\x7b\"x\":\x7b\"name\":\"S\"\x7d\x7d"⟩,
     ⟨Bytes.ofText payloadName, Payload.encode []⟩]))]⟩

theorem Bundle.read_hollow :
    read hollowFiles ⟨"a"⟩ = .ok ⟨⟨"a"⟩, sampleContents.entries, Payload.encode []⟩ := by
  apply read_of_parts
  have hlocate : hollowFiles.locate ⟨"a"⟩ = .ok (["a"], .file (Zip.encode
      [⟨Bytes.ofText manifestName, Bytes.ofText "\x7b\"x\":\x7b\"name\":\"S\"\x7d\x7d"⟩,
       ⟨Bytes.ofText payloadName, Payload.encode []⟩])) :=
    locate_single _
  unfold read
  rw [hlocate]
  decide +kernel

theorem Session.occurs_hollow :
    (singleRepository Bundle.sampleContents.entries []).Occurs sampleEngine := by
  have hdecode : Payload.decode? (Payload.encode []) = some [] := by decide +kernel
  refine ⟨{ sampleWorld with files := Bundle.hollowFiles }, sampleMoves, ⟨⟨0, 0⟩, rfl⟩, ?_⟩
  exact congrArg (·.world.repository) (replay_single Bundle.read_hollow hdecode rfl)

namespace Repair

/-- A world with the archive and a material that shows a shader that cannot stay. -/
def hollowWorld : World Engine.Tally Engine.MemoryBundle :=
  { Session.sampleWorld with
    files := Bundle.hollowFiles
    repository := Session.singleRepository Bundle.sampleContents.entries []
    materials := [some sampleShader] }

/-- A repair asks again for an asset that the repair before it asked for in vain. -/
theorem retried_of_hollow :
    hollowWorld.repository.Occurs Session.sampleEngine ∧
    ToldApart Session.sampleEngine hollowWorld [0] ∧
    ∃ after, fix Session.sampleEngine .main [0] hollowWorld = (after, .ok ⟨false, ["S"]⟩) ∧
      loadsOf Session.sampleEngine [0] after = [⟨⟨⟨"a"⟩, []⟩, "x", none⟩] := by
  refine ⟨Session.occurs_hollow, toldApart_of_own (by decide +kernel),
    (fix Session.sampleEngine .main [0] hollowWorld).1, Prod.ext rfl ?_, ?_⟩
  · decide +kernel
  · decide +kernel

end Repair

end ShaderMend
