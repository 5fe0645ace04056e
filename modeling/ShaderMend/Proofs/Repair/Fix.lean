import ShaderMend.Proofs.Repair.Rounds
import ShaderMend.Proofs.Repository.Searches
import ShaderMend.Proofs.Scene.FirstUses

/-!
# What a repair does

* `replaceAll_eq` — a repair searches for its shaders one after the other, swaps them in the
  materials, and reports the names without replacement.
* `byFirstUse_of_shownApart` — the names are reported in the order in which the materials show
  them first.
* `fix_of_reachable` — each material ends with what was found for the shader that it showed
  at the beginning.
-/

namespace ShaderMend.Repair

variable {σ β : Type}

/-! ### One round after the other -/

/-- The replacement that a search came to, if it did. -/
def replacementOf : Except RepositoryError (Option Replacement) → Option Replacement
  | .ok replacement => replacement
  | .error _ => none

theorem ok_of_replacementOf {result : Except RepositoryError (Option Replacement)}
    {replacement : Replacement} (h : replacementOf result = some replacement) :
    result = .ok (some replacement) := by
  cases result with
  | ok found => exact congrArg Except.ok h
  | error error => cases h

/-- Shaders and the replacements that searches came to. -/
def resolved (searched : List (Shader × Except RepositoryError (Option Replacement))) :
    List (Shader × Option Replacement) :=
  searched.map fun item => (item.1, replacementOf item.2)

/-- The records after one more shader. -/
def recordOf (records : Diagnostics) (item : Shader × Option Replacement) : Diagnostics :=
  records.add
    { query := item.1.query
      replacement := item.2.map fun replacement => replacement.name
      found := item.2.map fun replacement => replacement.found }

/-- The records after shaders were looked for, if records are kept. -/
def recordEach (job : Job) (found : List (Shader × Option Replacement)) (records : Diagnostics) :
    Diagnostics :=
  if job.config.shaderDebugging then found.foldl recordOf records else records

/-- What the rounds of a repair swap. -/
def swaps (job : Job) (world : World σ β) (found : List (Shader × Option Replacement)) :
    List Materials.Swap :=
  found.map fun item => (item.1, successor? job item.2 world)

/-- The world after the rounds of a repair. -/
def afterRounds (job : Job) (repository : Repository σ β)
    (found : List (Shader × Option Replacement)) (world : World σ β) : World σ β :=
  { world with
    repository
    materials := world.materials.replaceEach job.materials (swaps job world found)
    records := recordEach job found world.records }

/-- A search of a repair ends it in no case. -/
theorem settle_find {engine : Engine σ β} {repository : Repository σ β} {holds : TaskId → Hold}
    (h : Tidy engine repository holds) (query : Signature) :
    settle (repository.find engine query).2
      = .ok (replacementOf (repository.find engine query).2) := by
  cases hresult : (repository.find engine query).2 with
  | ok replacement => rfl
  | error error =>
      obtain ⟨archive, assetPath, rfl⟩ := h.error_of_find hresult
      rfl

theorem successor?_congr (job : Job) (replacement : Option Replacement) {first second : World σ β}
    (h : first.repository.invalid = second.repository.invalid) :
    successor? job replacement first = successor? job replacement second := by
  unfold successor?
  rw [h]

theorem replace_record_eq (job : Job) (shader : Shader) (replacement : Option Replacement)
    (world : World σ β) :
    replace job shader replacement (record job shader replacement world)
      = { world with
          materials := world.materials.swap job.materials
            (shader, successor? job replacement world)
          records := recordEach job [(shader, replacement)] world.records } := by
  have hsuccessor : successor? job replacement (record job shader replacement world)
      = successor? job replacement world :=
    successor?_congr job replacement (by rw [repository_record])
  unfold replace
  rw [hsuccessor]
  cases hnew : successor? job replacement world with
  | none => by_cases hkept : job.config.shaderDebugging <;>
      simp [record, recordEach, recordOf, Materials.swap, hkept]
  | some new => by_cases hkept : job.config.shaderDebugging <;>
      simp [record, recordEach, recordOf, Materials.swap, hkept]

/-- One more round at the beginning. -/
theorem afterRounds_cons (job : Job) {repository : Repository σ β} {world : World σ β}
    (hinvalid : repository.invalid = world.repository.invalid) (shader : Shader)
    (replacement : Option Replacement) (final : Repository σ β)
    (found : List (Shader × Option Replacement)) :
    afterRounds job final found
        { world with
          repository
          materials := world.materials.swap job.materials
            (shader, successor? job replacement { world with repository })
          records := recordEach job [(shader, replacement)] world.records }
      = afterRounds job final ((shader, replacement) :: found) world := by
  have hsuccessor : ∀ replacement materials records,
      successor? job replacement { world with repository, materials, records }
        = successor? job replacement world :=
    fun replacement _ _ => successor?_congr job replacement hinvalid
  simp only [afterRounds, swaps, hsuccessor, List.map_cons, Materials.replaceEach,
    List.foldl_cons]
  by_cases hkept : job.config.shaderDebugging
  · simp [recordEach, hkept]
  · simp [recordEach, hkept]

/-- **The rounds of a repair at once**: all searches, then all swaps and the report. -/
theorem replaceAll_eq {engine : Engine σ β} {world : World σ β} {holds : TaskId → Hold}
    (h : Tidy engine world.repository holds) (hfree : ∃ task, holds task = .nothing) (job : Job)
    (shaders : List Shader) (missing : List String) :
    replaceAll engine job shaders missing world
      = (let searched := world.repository.findEach engine shaders
         let found := resolved searched.2
         let finished := finish job
           (found.foldl (fun missing item => missingAfter item.1 item.2 missing) missing)
           (afterRounds job searched.1 found world)
         (finished.1, .ok finished.2)) := by
  induction shaders generalizing world missing with
  | nil =>
      have hworld : afterRounds job world.repository [] world = world := by
        by_cases hkept : job.config.shaderDebugging <;>
          simp [afterRounds, recordEach, swaps, Materials.replaceEach, hkept]
      simp [replaceAll, Repository.findEach, resolved, hworld]
  | cons shader rest ih =>
      have hgrown := world.repository.find_grown engine shader.query
      have hrest := Repository.find_keeps (Act.keeps_tidy engine) hfree h shader.query
      have hsettle := settle_find h shader.query
      unfold replaceAll
      simp only [World.withRepository, Repository.findEach]
      cases hfind : world.repository.find engine shader.query with
      | mk repository result =>
          rw [hfind] at hsettle hrest hgrown
          dsimp only at hsettle hrest hgrown ⊢
          rw [hsettle]
          dsimp only
          rw [replace_record_eq, ih hrest]
          dsimp only
          rw [afterRounds_cons job hgrown.invalid]
          rfl

/-! ### Shaders to be replaced -/

/-- Whether the identities of shaders tell them apart: materials that show one object show
one shader, and an object that is shown has the support that the engine gives it, if the
engine made it. -/
structure ToldApart (engine : Engine σ β) (world : World σ β) (materials : List MaterialId) :
    Prop where
  shown : ∀ first ∈ materials, ∀ second ∈ materials, ∀ shader other,
    world.materials.shader? first = some shader → world.materials.shader? second = some other →
      shader.id = other.id → shader = other
  made : ∀ material ∈ materials, ∀ shader other, world.materials.shader? material = some shader →
    engine.Makes other → shader.id = other.id →
      shader.isSupported world.layout = other.isSupported world.layout

/-- Whether materials that show one object show one shader. -/
def ShownApart (world : World σ β) (materials : List MaterialId) : Prop :=
  ∀ first ∈ materials, ∀ second ∈ materials, ∀ shader other,
    world.materials.shader? first = some shader → world.materials.shader? second = some other →
      shader.id = other.id → shader = other

section Unsupported

variable {engine : Engine σ β} {world : World σ β} {materials : List MaterialId}

theorem nodup_unsupported (world : World σ β) (materials : List MaterialId) :
    ((unsupported world materials).map Shader.id).Nodup :=
  (nodup_map_distinctBy _ _).sublist (List.filter_sublist.map Shader.id)

theorem shown_of_mem_unsupported {shader : Shader} (h : shader ∈ unsupported world materials) :
    (∃ material ∈ materials, world.materials.shader? material = some shader) ∧
      shader.isSupported world.layout = false := by
  obtain ⟨hmem, hsupport⟩ := List.mem_filter.mp h
  have hshown := (distinctBy_sublist _ _).subset hmem
  exact ⟨List.mem_filterMap.mp hshown, by simpa using hsupport⟩

/-- Shaders to be replaced stand in the order in which the materials show them first. -/
theorem pairwise_unsupported (happart : ShownApart world materials) :
    (unsupported world materials).Pairwise fun first second =>
      ComesFirst (world.materials.shader? · = some first)
        (world.materials.shader? · = some second) materials := by
  have hids := comesFirst_of_distinctBy Shader.id (materials.filterMap world.materials.shader?)
  have hsublist : (unsupported world materials).Sublist
      (distinctBy Shader.id (materials.filterMap world.materials.shader?)) := List.filter_sublist
  refine (hids.sublist hsublist).imp_of_mem fun hfirst _ h => h.of_filterMap.imp ?_ ?_
  · rintro material hmem ⟨shader, hshader, hid⟩
    obtain ⟨⟨other, hother, hshown⟩, -⟩ := shown_of_mem_unsupported hfirst
    exact happart material hmem other hother shader _ hshader hshown hid ▸ hshader
  · exact fun material _ hshader => ⟨_, hshader, rfl⟩

theorem mem_unsupported_iff (happart : ShownApart world materials) {shader : Shader} :
    shader ∈ unsupported world materials ↔
      (∃ material ∈ materials, world.materials.shader? material = some shader) ∧
        shader.isSupported world.layout = false := by
  refine ⟨shown_of_mem_unsupported, ?_⟩
  rintro ⟨⟨material, hmaterial, hshader⟩, hsupport⟩
  have hshown : shader ∈ materials.filterMap world.materials.shader? :=
    List.mem_filterMap.mpr ⟨material, hmaterial, hshader⟩
  have hid : shader.id ∈ (distinctBy Shader.id
      (materials.filterMap world.materials.shader?)).map Shader.id :=
    mem_map_distinctBy_iff.mpr (List.mem_map_of_mem hshown)
  obtain ⟨other, hother, hsame⟩ := List.mem_map.mp hid
  obtain ⟨second, hsecond, hfound⟩ :=
    List.mem_filterMap.mp ((distinctBy_sublist _ _).subset hother)
  obtain rfl := happart second hsecond material hmaterial other shader hfound hshader hsame
  exact List.mem_filter.mpr ⟨hother, by simpa using hsupport⟩

/-- Whether the engine makes none of the objects that are to be replaced. -/
def Foreign (engine : Engine σ β) (world : World σ β) (materials : List MaterialId) : Prop :=
  ∀ shader ∈ unsupported world materials, ∀ made, engine.Makes made → shader.id ≠ made.id

/-- If all shaders that the engine makes can stay, none of those to be replaced is one. -/
theorem ToldApart.foreign (happart : ToldApart engine world materials)
    (hmade : ∀ shader, engine.Makes shader → shader.knownSupport = some true) :
    Foreign engine world materials := by
  intro shader hmem made hmakes hsame
  obtain ⟨⟨material, hmaterial, hshown⟩, hunsupported⟩ := shown_of_mem_unsupported hmem
  have hequal := happart.made material hmaterial shader made hshown hmakes hsame
  have hsupported : made.isSupported world.layout = true := by
    simp [Shader.isSupported, hmade made hmakes]
  rw [hsupported, hunsupported] at hequal
  cases hequal

end Unsupported

/-! ### The whole repair -/

/-- What a material shows after a repair, by what the search for its shader came to. -/
theorem shader?_afterRounds {engine : Engine σ β} {world : World σ β} {holds : TaskId → Hold}
    (h : Tidy engine world.repository holds) {materials : List MaterialId}
    (hforeign : Foreign engine world materials) {job : Job} (hjob : job.materials = materials)
    {found : List (Shader × Option Replacement)}
    (hfound : found.map Prod.fst = unsupported world materials)
    (hoffered : ∀ shader replacement, (shader, some replacement) ∈ found →
      engine.Makes replacement.shader) (repository : Repository σ β)
    {material : MaterialId} (hmem : material ∈ materials) :
    (afterRounds job repository found world).materials.shader? material
      = (world.materials.shader? material).map (Materials.given (swaps job world found)) := by
  have hshaders : (swaps job world found).map Prod.fst = unsupported world materials := by
    rw [← hfound]
    simp [swaps]
  have hmakes : ∀ swap ∈ swaps job world found, ∀ new, swap.2 = some new → engine.Makes new := by
    intro swap hswap new hnew
    obtain ⟨⟨shader, replacement⟩, hitem, rfl⟩ := List.mem_map.mp hswap
    cases replacement with
    | some replacement =>
        have hshader : replacement.shader = new := Option.some.inj hnew
        exact hshader ▸ hoffered shader replacement hitem
    | none =>
        simp only [successor?] at hnew
        split at hnew
        · cases hnew
        · exact h.invalid hnew
  have hfresh : ∀ swap ∈ swaps job world found, ∀ new, swap.2 = some new →
      ∀ other ∈ swaps job world found, other.1.id ≠ new.id := by
    intro swap hswap new hnew other hother
    have hshown := List.mem_map_of_mem (f := Prod.fst) hother
    rw [hshaders] at hshown
    exact hforeign other.1 hshown new (hmakes swap hswap new hnew)
  have hdistinct : ((swaps job world found).map fun swap => swap.1.id).Nodup := by
    have hids := nodup_unsupported world materials
    rw [← hshaders, List.map_map] at hids
    exact hids
  exact Materials.shader?_replaceEach hdistinct hfresh (hjob ▸ hmem) world.materials

/-- What the searches of a repair come to, one after the other. -/
abbrev searched (engine : Engine σ β) (world : World σ β) (materials : List MaterialId) :
    Repository σ β × List (Shader × Except RepositoryError (Option Replacement)) :=
  world.repository.findEach engine (unsupported world materials)

/-- How a repair of materials leaves the world, and the names that it reports. -/
structure Mended (engine : Engine σ β) (materials : List MaterialId) (world after : World σ β)
    (missing : List String) : Prop where
  /-- materials that are not concerned stay as they are … -/
  others : ∀ material, material ∉ materials →
    after.materials.shader? material = world.materials.shader? material
  /-- … and so do those whose shader can stay, or that have none -/
  supported : ∀ material, (∀ shader, world.materials.shader? material = some shader →
      shader.isSupported world.layout = true) →
    after.materials.shader? material = world.materials.shader? material
  replaced : ∀ material ∈ materials, ∀ shader replacement,
    world.materials.shader? material = some shader →
      (shader, .ok (some replacement)) ∈ (searched engine world materials).2 →
        after.materials.shader? material = some replacement.shader
  unreplaced : ∀ material ∈ materials, ∀ shader result,
    world.materials.shader? material = some shader →
      (shader, result) ∈ (searched engine world materials).2 → replacementOf result = none →
        after.materials.shader? material = some
          (if world.config.showUnsupportedShaders then shader
            else world.repository.invalid.getD shader)
  reported : missing = distinctBy id (namesMissing (resolved (searched engine world materials).2))
  repository : after.repository = (searched engine world materials).1
  records : after.records = if world.config.shaderDebugging then
      (resolved (searched engine world materials).2).foldl recordOf world.records
    else world.records
  notices : after.notices = if missing ≠ [] ∧ world.config.showUnresolvedNotice then
      world.notices.map fun channel => (channel.dispatch ⟨missing⟩).1
    else world.notices
  config : after.config = world.config
  layout : after.layout = world.layout
  files : after.files = world.files

/-- Whether a material shows a shader of this name for which nothing was found. -/
def Lacking (engine : Engine σ β) (world : World σ β) (materials : List MaterialId)
    (name : String) (material : MaterialId) : Prop :=
  ∃ shader result, world.materials.shader? material = some shader ∧ shader.name = name ∧
    (shader, result) ∈ (searched engine world materials).2 ∧ replacementOf result = none

/-- Whether names are those of the shaders without replacement, each once and in the order in
which the materials show them first. -/
structure ByFirstUse (engine : Engine σ β) (world : World σ β) (materials : List MaterialId)
    (missing : List String) : Prop where
  distinct : missing.Nodup
  mem_iff : ∀ name, name ∈ missing ↔
    ∃ material ∈ materials, Lacking engine world materials name material
  ordered : missing.Pairwise fun first second =>
    ComesFirst (Lacking engine world materials first) (Lacking engine world materials second)
      materials

section Whole

variable {engine : Engine σ β} {world : World σ β} {materials : List MaterialId}

theorem map_fst_searched (engine : Engine σ β) (world : World σ β)
    (materials : List MaterialId) : (searched engine world materials).2.map Prod.fst
    = unsupported world materials :=
  Repository.map_fst_findEach engine (unsupported world materials) world.repository

theorem map_fst_resolved (engine : Engine σ β) (world : World σ β)
    (materials : List MaterialId) : (resolved (searched engine world materials).2).map Prod.fst
    = unsupported world materials := by
  rw [resolved, List.map_map]
  exact map_fst_searched engine world materials

theorem mem_resolved {shader : Shader} {result : Except RepositoryError (Option Replacement)}
    (h : (shader, result) ∈ (searched engine world materials).2) :
    (shader, replacementOf result) ∈ resolved (searched engine world materials).2 :=
  List.mem_map_of_mem (f := fun item => (item.1, replacementOf item.2)) h

/-- Each shader is searched for once. -/
theorem eq_of_mem_searched {shader : Shader}
    {first second : Except RepositoryError (Option Replacement)}
    (hfirst : (shader, first) ∈ (searched engine world materials).2)
    (hsecond : (shader, second) ∈ (searched engine world materials).2) : first = second := by
  have hids := nodup_unsupported world materials
  rw [← map_fst_searched engine, List.map_map] at hids
  exact congrArg Prod.snd (List.inj_on_of_nodup_map hids hfirst hsecond rfl)

theorem mem_namesMissing_searched {name : String} :
    name ∈ namesMissing (resolved (searched engine world materials).2) ↔
      ∃ item ∈ (searched engine world materials).2,
        replacementOf item.2 = none ∧ item.1.name = name := by
  simp [namesMissing, resolved, and_assoc]

/-- A name that comes before another among those without replacement is shown before it. -/
theorem comesFirst_lacking (engine : Engine σ β) (happart : ShownApart world materials)
    {first second : String} (hnames : ComesFirst (· = first) (· = second)
      (namesMissing (resolved (searched engine world materials).2))) :
    ComesFirst (Lacking engine world materials first) (Lacking engine world materials second)
      materials := by
  have hsearched := map_fst_searched engine world materials
  -- From the names back to the searches, then to the shaders, then to the materials.
  have hsearches : ComesFirst
      (fun item => replacementOf item.2 = none ∧ item.1.name = first)
      (fun item => replacementOf item.2 = none ∧ item.1.name = second)
      (searched engine world materials).2 := by
    refine (ComesFirst.map_iff.mp (ComesFirst.map_iff.mp hnames).of_filter).imp ?_ ?_
    · exact fun item _ h => by simpa using h
    · exact fun item _ h => by simpa using h
  have hshaders : ComesFirst
      (fun shader => ∃ result, (shader, result) ∈ (searched engine world materials).2 ∧
        replacementOf result = none ∧ shader.name = first)
      (fun shader => ∃ result, (shader, result) ∈ (searched engine world materials).2 ∧
        replacementOf result = none ∧ shader.name = second)
      (unsupported world materials) := by
    rw [← hsearched, ComesFirst.map_iff]
    refine hsearches.imp (fun item hmem h => ⟨item.2, hmem, h⟩) ?_
    rintro item hmem ⟨result, hresult, hnone, hname⟩
    exact ⟨eq_of_mem_searched hresult hmem ▸ hnone, hname⟩
  have hrow := hshaders.of_filter.of_distinctBy ?_
  · refine hrow.of_filterMap.imp ?_ ?_
    · rintro material - ⟨shader, hshader, -, result, hmem, hnone, hname⟩
      exact ⟨shader, result, hshader, hname, hmem, hnone⟩
    · rintro material - ⟨shader, result, hshader, hname, hmem, hnone⟩
      have hshown : shader ∈ unsupported world materials :=
        hsearched ▸ List.mem_map_of_mem (f := Prod.fst) hmem
      exact ⟨shader, hshader, (List.mem_filter.mp hshown).2, result, hmem, hnone, hname⟩
  · intro shader hshader other hother hid hlater
    obtain ⟨material, hmaterial, hshown⟩ := List.mem_filterMap.mp hshader
    obtain ⟨second, hsecond, hseen⟩ := List.mem_filterMap.mp hother
    exact happart material hmaterial second hsecond shader other hshown hseen hid ▸ hlater

/-- **The names without replacement are reported in the order of first use.** -/
theorem byFirstUse_of_shownApart (engine : Engine σ β) (happart : ShownApart world materials) :
    ByFirstUse engine world materials
      (distinctBy id (namesMissing (resolved (searched engine world materials).2))) := by
  constructor
  case distinct =>
    simpa using nodup_map_distinctBy id
      (namesMissing (resolved (searched engine world materials).2))
  case mem_iff =>
    intro name
    have hkeys : name ∈ (distinctBy id
          (namesMissing (resolved (searched engine world materials).2))).map id ↔
        name ∈ (namesMissing (resolved (searched engine world materials).2)).map id :=
      mem_map_distinctBy_iff
    rw [List.map_id, List.map_id, mem_namesMissing_searched] at hkeys
    rw [hkeys]
    constructor
    · rintro ⟨⟨shader, result⟩, hmem, hnone, rfl⟩
      have hshown : shader ∈ unsupported world materials :=
        map_fst_searched engine world materials ▸ List.mem_map_of_mem (f := Prod.fst) hmem
      obtain ⟨⟨material, hmaterial, hshader⟩, -⟩ := shown_of_mem_unsupported hshown
      exact ⟨material, hmaterial, shader, result, hshader, rfl, hmem, hnone⟩
    · rintro ⟨material, -, shader, result, -, rfl, hmem, hnone⟩
      exact ⟨(shader, result), hmem, hnone, rfl⟩
  case ordered =>
    exact (comesFirst_of_distinctBy id _).imp fun hnames => comesFirst_lacking engine happart hnames

/-- Replacements come from the engine. -/
theorem makes_of_mem_resolved {holds : TaskId → Hold} (h : Tidy engine world.repository holds)
    (hfree : ∃ task, holds task = .nothing) {shader : Shader} {replacement : Replacement}
    (hmem : (shader, some replacement) ∈ resolved (searched engine world materials).2) :
    engine.Makes replacement.shader := by
  obtain ⟨⟨other, result⟩, hitem, heq⟩ := List.mem_map.mp hmem
  obtain ⟨rfl, hreplacement⟩ := Prod.mk.inj heq
  obtain ⟨middle, hmiddle, -, rfl⟩ :=
    Repository.mem_findEach (Act.keeps_tidy engine) hfree h hitem
  apply hmiddle.makes_of_find
  exact ok_of_replacementOf hreplacement

/-- What is given for a shader that was searched for. -/
theorem given_of_searched {job : Job} {shader : Shader}
    {result : Except RepositoryError (Option Replacement)}
    (h : (shader, result) ∈ (searched engine world materials).2) :
    Materials.given (swaps job world (resolved (searched engine world materials).2)) shader
      = (successor? job (replacementOf result) world).getD shader := by
  refine Materials.given_of_mem ?_ (List.mem_map_of_mem
    (f := fun item => (item.1, successor? job item.2 world)) (mem_resolved h))
  have hids := nodup_unsupported world materials
  rw [← map_fst_resolved engine, List.map_map] at hids
  rw [swaps, List.map_map]
  exact hids

/-- Nothing is given for a shader that can stay. -/
theorem given_of_supported (happart : ShownApart world materials) {job : Job}
    {material : MaterialId} (hmem : material ∈ materials) {shader : Shader}
    (hshader : world.materials.shader? material = some shader)
    (hsupported : shader.isSupported world.layout = true) :
    Materials.given (swaps job world (resolved (searched engine world materials).2)) shader
      = shader := by
  refine Materials.given_of_forall fun change hchange hsame => ?_
  obtain ⟨item, hitem, rfl⟩ := List.mem_map.mp hchange
  have hshown : item.1 ∈ unsupported world materials := by
    rw [← map_fst_resolved engine]
    exact List.mem_map_of_mem hitem
  obtain ⟨⟨other, hother, hfirst⟩, hunsupported⟩ := shown_of_mem_unsupported hshown
  have hequal := happart other hother material hmem item.1 shader hfirst hshader hsame
  rw [hequal, hsupported] at hunsupported
  cases hunsupported

/-- The end of a repair sends a notice at most. -/
theorem fst_finish (job : Job) (missing : List String) (world : World σ β) :
    (finish job missing world).1
      = { world with
          notices := if missing ≠ [] ∧ job.config.showUnresolvedNotice then
              world.notices.map fun channel => (channel.dispatch ⟨missing⟩).1
            else world.notices } := by
  by_cases hnotice : missing ≠ [] ∧ job.config.showUnresolvedNotice
  · simp [finish, World.modifyNotices, hnotice]
  · have hsilent : ¬ ((!missing.isEmpty) = true ∧ job.config.showUnresolvedNotice) := by
      simpa using hnotice
    rw [if_neg hnotice]
    simp only [finish, if_neg hsilent]

/-- **Rounds, then the end of a repair.** -/
theorem mended_of_rounds {holds : TaskId → Hold} (h : Tidy engine world.repository holds)
    (hfree : ∃ task, holds task = .nothing) (happart : ShownApart world materials)
    (hforeign : Foreign engine world materials) :
    Mended engine materials world
      (finish ⟨world.config, materials⟩
        (distinctBy id (namesMissing (resolved (searched engine world materials).2)))
        (afterRounds ⟨world.config, materials⟩ (searched engine world materials).1
          (resolved (searched engine world materials).2) world)).1
      (distinctBy id (namesMissing (resolved (searched engine world materials).2))) := by
  generalize hmissing :
    distinctBy id (namesMissing (resolved (searched engine world materials).2)) = missing
  have hshader : ∀ material ∈ materials,
      (afterRounds ⟨world.config, materials⟩ (searched engine world materials).1
        (resolved (searched engine world materials).2) world).materials.shader? material
      = (world.materials.shader? material).map (Materials.given (swaps
          ⟨world.config, materials⟩ world (resolved (searched engine world materials).2))) := by
    intro material hmem
    apply shader?_afterRounds h hforeign rfl (map_fst_resolved engine _ _)
    · intro shader replacement hitem
      exact makes_of_mem_resolved h hfree hitem
    · exact hmem
  have hothers : ∀ material, material ∉ materials →
      (afterRounds ⟨world.config, materials⟩ (searched engine world materials).1
        (resolved (searched engine world materials).2) world).materials.shader? material
      = world.materials.shader? material := by
    intro material hmem
    exact Materials.shader?_replaceEach_of_not_mem hmem _ _
  rw [fst_finish]
  constructor
  case others => exact hothers
  case supported =>
    intro material hsupported
    by_cases hmem : material ∈ materials
    · refine (hshader material hmem).trans ?_
      cases hshown : world.materials.shader? material with
      | none => rfl
      | some shader =>
          rw [Option.map_some]
          exact congrArg some (given_of_supported happart hmem hshown (hsupported shader hshown))
    · exact hothers material hmem
  case replaced =>
    intro material hmem shader replacement hshown hitem
    refine (hshader material hmem).trans ?_
    rw [hshown, Option.map_some, given_of_searched hitem]
    rfl
  case unreplaced =>
    intro material hmem shader result hshown hitem hnone
    refine (hshader material hmem).trans ?_
    rw [hshown, Option.map_some, given_of_searched hitem, hnone]
    by_cases hleft : world.config.showUnsupportedShaders
    · simp [successor?, hleft]
    · simp [successor?, hleft]
  case reported => exact hmissing.symm
  all_goals rfl

end Whole

/-- **A repair gives every material what was found for the shader that it showed at the
beginning.** This holds in a repository that a session leaves behind with nothing under way,
if all shaders that the engine makes can stay. The shaders searched for are those that some
of the materials show and that cannot stay, each once and in the order of first use, and so are
the names without replacement reported; each search answers for the repository at the beginning.
Where nothing is to be done, or repairs are switched off, nothing changes. -/
theorem fix_of_reachable {engine : Engine σ β} {world : World σ β} {materials : List MaterialId}
    (h : world.repository.Reachable engine)
    (hmade : ∀ shader, engine.Makes shader → shader.knownSupport = some true)
    (happart : ToldApart engine world materials) :
    (world.config.enableMultiPassRendering = true ∨
        (∀ material ∈ materials, ∀ shader, world.materials.shader? material = some shader →
          shader.isSupported world.layout = true) →
      fix engine .main materials world = (world, .ok .allSupported)) ∧
    (world.config.enableMultiPassRendering = false →
      (∃ material ∈ materials, ∃ shader, world.materials.shader? material = some shader ∧
        shader.isSupported world.layout = false) →
      ∃ after missing, fix engine .main materials world = (after, .ok ⟨missing.isEmpty, missing⟩) ∧
        Mended engine materials world after missing ∧
        ByFirstUse engine world materials missing) ∧
    (searched engine world materials).2.map Prod.fst = unsupported world materials ∧
    ((unsupported world materials).map Shader.id).Nodup ∧
    ((unsupported world materials).Pairwise fun first second =>
      ComesFirst (world.materials.shader? · = some first)
        (world.materials.shader? · = some second) materials) ∧
    (∀ shader, shader ∈ unsupported world materials ↔
      (∃ material ∈ materials, world.materials.shader? material = some shader) ∧
        shader.isSupported world.layout = false) ∧
    world.repository.Grown (searched engine world materials).1 ∧
    ∀ shader result, (shader, result) ∈ (searched engine world materials).2 →
      Repository.Answers engine world.repository (searched engine world materials).1
        shader.query result := by
  have hrest := Repository.atRest_of_reachable h
  obtain ⟨-, hgrown, hanswers⟩ := hrest.findEach_spec (unsupported world materials)
  refine ⟨?_, ?_, map_fst_searched engine world materials, nodup_unsupported world materials,
    pairwise_unsupported happart.shown, fun shader => mem_unsupported_iff happart.shown, hgrown,
    hanswers⟩
  · intro hnothing
    have hplan : plan? world materials = none := by
      rcases hnothing with hoff | hsupported
      · simp [plan?, hoff]
      · have hempty : unsupported world materials = [] := by
          refine List.eq_nil_iff_forall_not_mem.mpr fun shader hmem => ?_
          obtain ⟨⟨material, hmaterial, hshown⟩, hunsupported⟩ := shown_of_mem_unsupported hmem
          rw [hsupported material hmaterial shader hshown] at hunsupported
          cases hunsupported
        simp [plan?, hempty]
    simp [fix, hplan]
  · rintro hon ⟨material, hmaterial, shader, hshown, hunsupported⟩
    have hmem : shader ∈ unsupported world materials :=
      (mem_unsupported_iff happart.shown).mpr ⟨⟨material, hmaterial, hshown⟩, hunsupported⟩
    have hplan : plan? world materials
        = some (⟨world.config, materials⟩, unsupported world materials) := by
      cases hlist : unsupported world materials with
      | nil =>
          rw [hlist] at hmem
          cases hmem
      | cons first rest => simp [plan?, hon, hlist]
    have hfix : fix engine .main materials world
        = replaceAll engine ⟨world.config, materials⟩ (unsupported world materials) [] world := by
      simp [fix, hplan]
    refine ⟨_, _, ?_, mended_of_rounds hrest.tidy ⟨0, rfl⟩ happart.shown (happart.foreign hmade),
      byFirstUse_of_shownApart engine happart.shown⟩
    have hnames := foldl_missingAfter (resolved (searched engine world materials).2) []
    rw [hfix, replaceAll_eq hrest.tidy ⟨0, rfl⟩]
    dsimp only
    rw [show ([] : List String) = distinctBy id [] from rfl, hnames]
    rfl

/-! ### Repairs in small worlds -/

/-- A shader that cannot stay. -/
def sampleShader : Shader :=
  ⟨.host 0, "S", [], some false, none⟩

/-- A world with an archive and a material that shows the shader. -/
def sampleWorld : World Engine.Tally Engine.MemoryBundle :=
  { Session.sampleWorld with
    repository := Session.sampleRepository
    materials := [some sampleShader] }

theorem knownSupport_of_makes {bundleDelay shaderDelay : Nat} {shader : Shader}
    (h : (Engine.inMemory bundleDelay shaderDelay).Makes shader) :
    shader.knownSupport = some true ∧ ∃ index, shader.id = .created index := by
  obtain ⟨state, bundle, assetPath, hload⟩ := h
  change (Engine.Tally.loadShader state bundle assetPath).2 = some shader at hload
  unfold Engine.Tally.loadShader at hload
  cases hname : Payload.name? bundle.assets assetPath with
  | none =>
      rw [hname] at hload
      cases hload
  | some name =>
      rw [hname] at hload
      obtain rfl := Option.some.inj hload
      exact ⟨rfl, _, rfl⟩

/-- Materials tell their shaders apart where each shows an object of its own. -/
theorem toldApart_of_own {bundleDelay shaderDelay : Nat}
    {world : World Engine.Tally Engine.MemoryBundle} {materials : List MaterialId}
    (h : ∀ material ∈ materials, ∀ shader, world.materials.shader? material = some shader →
      shader.id = .host material) :
    ToldApart (Engine.inMemory bundleDelay shaderDelay) world materials where
  shown first hfirst second hsecond shader other hshader hother hsame := by
    rw [h first hfirst shader hshader, h second hsecond other hother] at hsame
    cases hsame
    exact Option.some.inj (hshader.symm.trans hother)
  made material hmem shader other hshader hother hsame := by
    obtain ⟨-, index, hid⟩ := knownSupport_of_makes hother
    rw [h material hmem shader hshader, hid] at hsame
    cases hsame

/-- A world with the archive and materials that show three shaders, of which it has one. -/
def crowdWorld : World Engine.Tally Engine.MemoryBundle :=
  { sampleWorld with
    materials := [some ⟨.host 0, "T", [], some false, none⟩,
      some ⟨.host 1, "S", [], some false, none⟩,
      some ⟨.host 2, "U", [], some false, none⟩, none] }

theorem toldApart_crowd : ToldApart Session.sampleEngine crowdWorld [2, 3, 0, 1, 2] :=
  toldApart_of_own (by decide +kernel)

theorem fix_of_sample :
    (crowdWorld.repository.Reachable Session.sampleEngine ∧
      (∀ shader, Session.sampleEngine.Makes shader → shader.knownSupport = some true) ∧
      ToldApart Session.sampleEngine crowdWorld [2, 3, 0, 1, 2]) ∧
    ∃ after, fix Session.sampleEngine .main [2, 3, 0, 1, 2] crowdWorld
        = (after, .ok ⟨false, ["U", "T"]⟩) ∧
      Mended Session.sampleEngine [2, 3, 0, 1, 2] crowdWorld after ["U", "T"] ∧
      ByFirstUse Session.sampleEngine crowdWorld [2, 3, 0, 1, 2] ["U", "T"] := by
  have hmade : ∀ shader, Session.sampleEngine.Makes shader → shader.knownSupport = some true :=
    fun shader h => (knownSupport_of_makes h).1
  have hreachable : crowdWorld.repository.Reachable Session.sampleEngine :=
    Session.reachable_sample
  refine ⟨⟨hreachable, hmade, toldApart_crowd⟩, ?_⟩
  have hfix := fix_of_reachable hreachable hmade toldApart_crowd
  obtain ⟨after, missing, hafter, hmended, hordered⟩ :=
    hfix.2.1 rfl ⟨0, by decide, ⟨.host 0, "T", [], some false, none⟩, rfl, rfl⟩
  have hreport : (fix Session.sampleEngine .main [2, 3, 0, 1, 2] crowdWorld).2
      = .ok ⟨false, ["U", "T"]⟩ := by
    decide +kernel
  rw [hafter] at hreport
  obtain rfl : missing = ["U", "T"] :=
    congrArg Outcome.missingNames (Except.ok.inj hreport)
  exact ⟨after, hafter, hmended, hordered⟩

end ShaderMend.Repair
