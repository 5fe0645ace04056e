import ShaderMend.Proofs.Matching.Points
import ShaderMend.Proofs.Repair.Placeholder
import ShaderMend.Proofs.Repository.Markers
import ShaderMend.Proofs.Repository.Undisturbed

/-!
# Repositories that have all their shaders

Where the engine has a shader for every entry, a shader of the name that is declared, every
entry can be loaded, and so no search ends for the want of an asset.

* `Repository.Furnished.materialize` — a load gives a shader of the name, and leaves the
  repository furnished.
* `Repository.Drawn.furnished` — so do loads one after the other, by induction on them.
* `Repair.fix_of_furnished` — a repair reports what nothing fits, and a full match gives the
  shader of an entry that fits, which has the same name.
-/

namespace ShaderMend

variable {σ β : Type}

/-- Whether the engine has a shader of its name for each entry of a manifest, whatever it did
before. -/
def Manifest.Supplies (engine : Engine σ β) (manifest : Manifest β) : Prop :=
  ∃ bundle, manifest.bundle = some bundle ∧ ∀ entry ∈ manifest.entries, ∀ state,
    ∃ after shader, engine.loadShader state bundle entry.assetPath = (after, some shader) ∧
      shader.name = entry.signature.name

namespace Repository

/-- Whether a repository has a shader of its name for each of its entries: the entry holds it,
or the engine has it. -/
structure Furnished (engine : Engine σ β) (repository : Repository σ β) : Prop where
  supplied : ∀ manifest ∈ repository.declared, manifest.Supplies engine
  held : ∀ {id entry shader}, repository.lookup? id = some entry →
    entry.cell.stored = some shader → shader.name = entry.signature.name

/-- Whether a repository came from another by loads for some of its entries. -/
inductive Drawn (engine : Engine σ β) (first : Repository σ β) : Repository σ β → Prop where
  | refl : Drawn engine first first
  | load {repository : Repository σ β} {id : EntryId} {entry : Entry}
      (h : Drawn engine first repository) (hentry : repository.lookup? id = some entry) :
      Drawn engine first (repository.materialize engine (repository.source id.manifest) id).1

variable {engine : Engine σ β} {repository : Repository σ β} {id : EntryId} {entry : Entry}

/-- An entry is one of those that its manifest declares. -/
theorem mem_declared_of_lookup? (hentry : repository.lookup? id = some entry) :
    ∃ manifest, repository.manifests[id.manifest]? = some manifest ∧
      manifest.unfilled ∈ repository.declared ∧ entry.unfilled ∈ manifest.unfilled.entries := by
  obtain ⟨manifest, hmanifest, hfound⟩ := Option.bind_eq_some_iff.mp hentry
  exact ⟨manifest, hmanifest, List.mem_map_of_mem (List.mem_of_getElem? hmanifest),
    List.mem_map_of_mem (List.mem_of_find?_eq_some hfound)⟩

theorem map_unfilled_lookup? (repository : Repository σ β) (id : EntryId) :
    (repository.lookup? id).map Entry.unfilled
      = repository.declared[id.manifest]?.bind (·.lookup? id.assetPath) := by
  rw [lookup?, declared, List.getElem?_map]
  cases repository.manifests[id.manifest]? with
  | none => rfl
  | some manifest =>
      simp only [Option.bind_some, Option.map_some, Manifest.lookup?, Manifest.unfilled,
        Catalogue.find?, List.find?_map]
      rfl

/-- The same entries are declared. -/
theorem lookup?_of_declared {first second : Repository σ β}
    (h : first.declared = second.declared) (hentry : first.lookup? id = some entry) :
    ∃ other, second.lookup? id = some other ∧ other.unfilled = entry.unfilled := by
  have hsame : (second.lookup? id).map Entry.unfilled = some entry.unfilled := by
    rw [map_unfilled_lookup?, ← h, ← map_unfilled_lookup?, hentry, Option.map_some]
  exact Option.map_eq_some_iff.mp hsame

namespace Furnished

/-- The source of an entry has a shader of its name. -/
theorem exists_shader (h : repository.Furnished engine)
    (hentry : repository.lookup? id = some entry) :
    ∃ bundle, (repository.source id.manifest).bundle = some bundle ∧ ∀ state, ∃ after shader,
      engine.loadShader state bundle id.assetPath = (after, some shader) ∧
        shader.name = entry.signature.name := by
  obtain ⟨manifest, hmanifest, hdeclared, hmem⟩ := mem_declared_of_lookup? hentry
  obtain ⟨bundle, hbundle, hshaders⟩ := h.supplied _ hdeclared
  refine ⟨bundle, ?_, ?_⟩
  · rw [source, hmanifest]
    exact hbundle
  · rw [← assetPath_of_lookup? hentry]
    exact hshaders entry.unfilled hmem

/-- One more shader, of the name that is declared for it. -/
theorem filled (h : repository.Furnished engine) (hentry : repository.lookup? id = some entry)
    {after : Repository σ β} {shader : Shader} (hname : shader.name = entry.signature.name)
    (hfilled : repository.Filled after id shader) : after.Furnished engine where
  supplied := hfilled.declared ▸ h.supplied
  held {other found first} hfound hstored := by
    by_cases hother : other = id
    · subst hother
      rw [hfilled.entry, hentry] at hfound
      obtain rfl := Option.some.inj hfound
      obtain rfl : shader = first := Option.some.inj hstored
      exact hname
    · rw [hfilled.others other hother] at hfound
      exact h.held hfound hstored

/-- **A load gives a shader of the name that is declared**, and leaves the repository
furnished. -/
theorem materialize (h : repository.Furnished engine) (hrest : repository.AtRest engine)
    (hentry : repository.lookup? id = some entry) :
    ∃ after shader, repository.materialize engine (repository.source id.manifest) id
        = (after, .ok shader) ∧
      shader.name = entry.signature.name ∧ after.Furnished engine := by
  obtain ⟨bundle, hbundle, hshaders⟩ := h.exists_shader hentry
  obtain ⟨state, delivered, hdelivered, hname⟩ := hshaders repository.engine
  rcases hrest.materialize_cases hbundle id with
    ⟨shader, hstored, hload⟩ | ⟨-, ⟨state', shader, after, hcall, hload, hfilled⟩ |
      ⟨state', hcall, -⟩⟩
  · rw [cell_of_lookup? hentry] at hstored
    exact ⟨repository, shader, hload, h.held hentry hstored, h⟩
  · obtain rfl : delivered = shader := by
      rw [hdelivered] at hcall
      exact Option.some.inj (congrArg Prod.snd hcall)
    exact ⟨after, delivered, hload, hname, h.filled hentry hname hfilled⟩
  · rw [hdelivered] at hcall
    cases hcall

/-- Only the manifests matter. -/
theorem congr (h : repository.Furnished engine) {other : Repository σ β}
    (hmanifests : other.manifests = repository.manifests) : other.Furnished engine where
  supplied := by
    rw [declared, hmanifests]
    exact h.supplied
  held {id entry shader} hentry hstored := by
    rw [lookup?, hmanifests] at hentry
    exact h.held hentry hstored

/-- The first marker that is there is loaded. -/
theorem cacheInvalidFrom (h : repository.Furnished engine) (hrest : repository.AtRest engine)
    (indices : List Nat) :
    (Repository.cacheInvalidFrom engine indices repository).Furnished engine ∧
      (Repository.cacheInvalidFrom engine indices repository).declared = repository.declared := by
  induction indices with
  | nil => exact ⟨h, rfl⟩
  | cons index rest ih =>
      cases hmarker : repository.marker? index with
      | none =>
          simp only [Repository.cacheInvalidFrom, hmarker]
          exact ih
      | some id =>
          obtain rfl : id.manifest = index := manifest_of_marker? hmarker
          obtain ⟨entry, hentry⟩ := Option.isSome_iff_exists.mp
            (IsMarker.isSome_lookup? (isMarker_of_marker? hmarker))
          obtain ⟨after, shader, hload, -, hafter⟩ := h.materialize hrest hentry
          have hgrown :=
            (repository.materialized engine (repository.source id.manifest) id).grown
          rw [hload] at hgrown
          simp only [Repository.cacheInvalidFrom, hmarker, hload]
          exact ⟨hafter.congr rfl, hgrown.declared⟩

theorem cacheInvalid (h : repository.Furnished engine) (hrest : repository.AtRest engine) :
    (repository.cacheInvalid engine).Furnished engine ∧
      (repository.cacheInvalid engine).declared = repository.declared := by
  unfold Repository.cacheInvalid
  split
  · exact ⟨h, rfl⟩
  · exact h.cacheInvalidFrom hrest _

/-- A search leaves the repository furnished. -/
theorem find (h : repository.Furnished engine) (hrest : repository.AtRest engine)
    (query : Signature) : (repository.find engine query).1.Furnished engine := by
  rcases repository.closest?_spec query with ⟨hnone, -⟩ | ⟨id, entry, found, hsome, hselects⟩
  · simp only [Repository.find, hnone]
    exact h
  · have hentry := (mem_entries_iff hrest.ordered).mp hselects.mem
    obtain ⟨after, shader, hload, -, hafter⟩ := h.materialize hrest hentry
    simp only [Repository.find, hsome, hload]
    exact hafter

theorem findEach (h : repository.Furnished engine) (hrest : repository.AtRest engine)
    (shaders : List Shader) : (repository.findEach engine shaders).1.Furnished engine := by
  induction shaders generalizing repository with
  | nil => exact h
  | cons shader rest ih => exact ih (h.find hrest shader.query) (hrest.find shader.query)

/-- What a search answers whose repository has grown into one that is furnished: nothing fits,
or a shader is found of the name that is declared for the choice. -/
theorem of_answers {before after : Repository σ β} (h : after.Furnished engine)
    (hordered : before.Ordered) (hdeclared : after.declared = before.declared)
    {query : Signature} {result : Except RepositoryError (Option Replacement)}
    (hanswers : Answers engine before after query result) :
    (result = .ok none ∧ ∀ other ∈ before.entries, query.match? other.2.signature = none) ∨
    ∃ id entry found shader, result = .ok (some ⟨⟨id, entry.signature.name, found⟩, shader⟩) ∧
      Selects query before.entries id entry found ∧ (after.cell id).stored = some shader ∧
      shader.name = entry.signature.name := by
  cases hanswers with
  | nothing hunmatched => exact Or.inl ⟨rfl, hunmatched⟩
  | @found id entry found shader hselects hstored =>
      have hentry := (mem_entries_iff hordered).mp hselects.mem
      obtain ⟨other, hother, hsame⟩ := lookup?_of_declared hdeclared.symm hentry
      have hname : shader.name = other.signature.name := by
        rw [cell_of_lookup? hother] at hstored
        exact h.held hother hstored
      rw [(Entry.declared_eq hsame).2] at hname
      exact Or.inr ⟨id, entry, found, shader, rfl, hselects, hstored, hname⟩
  | @missing id entry found manifest bundle hselects hmanifest hbundle hload =>
      have hentry := (mem_entries_iff hordered).mp hselects.mem
      obtain ⟨other, hother, hmem, hentries⟩ := mem_declared_of_lookup? hentry
      obtain rfl := Option.some.inj (hmanifest.symm.trans hother)
      obtain ⟨supplier, hsupplier, hshaders⟩ := h.supplied _ (hdeclared ▸ hmem)
      obtain rfl := Option.some.inj (hbundle.symm.trans hsupplier)
      obtain ⟨state, hnone⟩ := hload
      obtain ⟨_, _, hdelivered, -⟩ := hshaders _ hentries state
      have hsome := congrArg Prod.snd hdelivered
      rw [show entry.unfilled.assetPath = entry.assetPath from rfl, hnone] at hsome
      cases hsome

end Furnished

/-- **Loads one after the other** leave a repository at rest and furnished, with what it
declares. -/
theorem Drawn.furnished {first : Repository σ β} (h : first.Drawn engine repository)
    (hrest : first.AtRest engine) (hfurnished : first.Furnished engine) :
    repository.AtRest engine ∧ repository.Furnished engine ∧
      repository.declared = first.declared := by
  induction h with
  | refl => exact ⟨hrest, hfurnished, rfl⟩
  | @load repository id entry _ hentry ih =>
      obtain ⟨hrest, hfurnished, hdeclared⟩ := ih
      have hacts := repository.materialize_acts engine 0 (repository.source id.manifest) id
        .nothing 0
      have hgrown := (repository.materialized engine (repository.source id.manifest) id).grown
      obtain ⟨after, shader, hload, -, hafter⟩ := hfurnished.materialize hrest hentry
      refine ⟨hrest.of_acts hacts, ?_, hgrown.declared.trans hdeclared⟩
      rw [hload]
      exact hafter

end Repository

/-! ### Repairs -/

/-- Only a shader of the same name fits fully. -/
theorem Signature.name_of_full {query candidate : Signature}
    (h : query.match? candidate = some .full) : query.name = candidate.name :=
  (match?_eq_full_iff.mp h).1

namespace Repair

/-- Whether an entry that fits a shader fully holds another, which has the name of the first. -/
def Namesake (repository : Repository σ β) (shader new : Shader) : Prop :=
  ∃ id entry, repository.lookup? id = some entry ∧ entry.cell.stored = some new ∧
    shader.query.match? entry.signature = some .full ∧ new.name = shader.name

variable {engine : Engine σ β} {world : World σ β} {materials : List MaterialId}

/-- A repair that has something to do in a repository at rest mends its materials. -/
theorem exists_mended (hrest : world.repository.AtRest engine)
    (hon : world.config.enableMultiPassRendering = false) (happart : ShownApart world materials)
    (hforeign : Foreign engine world materials) (hsome : unsupported world materials ≠ []) :
    ∃ after missing, fix engine .main materials world = (after, .ok (.ofMissing missing)) ∧
      Mended engine materials world after missing := by
  have hplan : plan? world materials
      = some (⟨world.config, materials⟩, unsupported world materials) := by
    obtain ⟨first, rest, hlist⟩ := List.exists_cons_of_ne_nil hsome
    simp [plan?, hon, hlist]
  have hfix : fix engine .main materials world
      = replaceAll engine ⟨world.config, materials⟩ (unsupported world materials) [] world := by
    simp only [fix, hplan]
  rw [replaceAll_eq hrest.tidy ⟨0, rfl⟩] at hfix
  refine ⟨_, _, hfix, ?_⟩
  rcases mended_of_fix hrest.tidy ⟨0, rfl⟩ happart hforeign hfix with
    ⟨-, hoff | hnothing⟩ | ⟨-, hmended⟩
  · rw [hon] at hoff
    cases hoff
  · exact absurd hnothing hsome
  · exact hmended

/-- A name is reported exactly if a shader has it that was searched for in vain. -/
theorem mem_missing_iff {after : World σ β} {missing : List String}
    (hmended : Mended engine materials world after missing) {name : String} :
    name ∈ missing ↔ ∃ shader result, (shader, result) ∈ (searched engine world materials).2 ∧
      replacementOf result = none ∧ shader.name = name := by
  constructor
  · intro hmem
    rw [hmended.reported] at hmem
    obtain ⟨item, hitem, rfl⟩ := List.mem_map.mp ((distinctBy_sublist _ _).subset hmem)
    obtain ⟨hfound, hnone⟩ := List.mem_filter.mp hitem
    obtain ⟨⟨shader, result⟩, hsearched, rfl⟩ := List.mem_map.mp hfound
    exact ⟨shader, result, hsearched, by simpa using hnone, rfl⟩
  · rintro ⟨shader, result, hsearched, hnone, rfl⟩
    exact name_mem_missing hmended hsearched hnone

/-- Each search finds nothing that fits, or a shader of the name that is declared for its
choice. -/
theorem searched_cases (hrest : world.repository.AtRest engine)
    (hfurnished : world.repository.Furnished engine) {shader : Shader}
    {result : Except RepositoryError (Option Replacement)}
    (hitem : (shader, result) ∈ (searched engine world materials).2) :
    (result = .ok none ∧
      ∀ other ∈ world.repository.entries, shader.query.match? other.2.signature = none) ∨
    ∃ id entry found new, result = .ok (some ⟨⟨id, entry.signature.name, found⟩, new⟩) ∧
      Selects shader.query world.repository.entries id entry found ∧
      ((searched engine world materials).1.cell id).stored = some new ∧
      new.name = entry.signature.name := by
  obtain ⟨-, hgrown, hanswers⟩ := hrest.findEach_spec (unsupported world materials)
  have hfinal := hfurnished.findEach hrest (unsupported world materials)
  exact hfinal.of_answers hrest.ordered hgrown.declared (hanswers shader result hitem)

section Mended

variable {after : World σ β} {missing : List String}
  (hrest : world.repository.AtRest engine) (hfurnished : world.repository.Furnished engine)
  (hmended : Mended engine materials world after missing)
include hrest hfurnished hmended

/-- The names that are reported are those of the shaders that nothing fits. -/
theorem mem_missing_iff_unmatched {name : String} :
    name ∈ missing ↔ ∃ shader ∈ unsupported world materials, shader.name = name ∧
      ∀ other ∈ world.repository.entries, shader.query.match? other.2.signature = none := by
  rw [mem_missing_iff hmended]
  constructor
  · rintro ⟨shader, result, hitem, hnone, rfl⟩
    refine ⟨shader, ?_, rfl, ?_⟩
    · rw [← map_fst_searched engine]
      exact List.mem_map_of_mem hitem
    · rcases searched_cases hrest hfurnished hitem with ⟨-, hunmatched⟩ | ⟨_, _, _, _, rfl, -⟩
      · exact hunmatched
      · cases hnone
  · rintro ⟨shader, hshader, rfl, hunmatched⟩
    rw [← map_fst_searched engine] at hshader
    obtain ⟨⟨shader, result⟩, hitem, rfl⟩ := List.mem_map.mp hshader
    refine ⟨shader, result, hitem, ?_, rfl⟩
    rcases searched_cases hrest hfurnished hitem with
      ⟨rfl, -⟩ | ⟨id, entry, _, _, -, hselects, -⟩
    · rfl
    · have hmatch := hunmatched (id, entry) hselects.mem
      rw [hselects.match?_eq] at hmatch
      cases hmatch

/-- A material whose shader fits some entry fully gets the shader of such an entry. -/
theorem exists_namesake (happart : ShownApart world materials) {material : MaterialId}
    (hmem : material ∈ materials) {shader : Shader}
    (hshown : world.materials.shader? material = some shader)
    (hunsupported : shader.isSupported world.layout = false)
    (hfull : ∃ other ∈ world.repository.entries,
      shader.query.match? other.2.signature = some .full) :
    ∃ new, after.materials.shader? material = some new ∧ engine.Makes new ∧
      Namesake after.repository shader new := by
  obtain ⟨other, hother, hmatch⟩ := hfull
  obtain ⟨result, hitem⟩ := exists_searched engine happart hmem hshown hunsupported
  rcases searched_cases hrest hfurnished hitem with
    ⟨-, hunmatched⟩ | ⟨id, entry, found, new, rfl, hselects, hstored, hname⟩
  · rw [hunmatched other hother] at hmatch
    cases hmatch
  · have hmakes : engine.Makes new :=
      makes_of_mem_resolved hrest.tidy ⟨0, rfl⟩ (mem_resolved hitem)
    refine ⟨new, hmended.replaced material hmem shader _ hshown hitem, hmakes, ?_⟩
    obtain ⟨-, hgrown, -⟩ := hrest.findEach_spec (unsupported world materials)
    have hentry := (Repository.mem_entries_iff hrest.ordered).mp hselects.mem
    obtain ⟨held, hheld, hsame⟩ := Repository.lookup?_of_declared hgrown.declared.symm hentry
    rw [Repository.cell_of_lookup? hheld] at hstored
    rw [← hmended.repository] at hheld
    have hsignature := (Entry.declared_eq hsame).2
    cases hselects with
    | full _ hmatch _ =>
        exact ⟨id, held, hheld, hstored, hsignature ▸ hmatch,
          hname.trans (Signature.name_of_full hmatch).symm⟩
    | inexact _ _ hnone _ _ => exact absurd hmatch (hnone other hother)

end Mended

/-- **A repair over a furnished repository** reports exactly the names of the shaders to be
replaced that nothing fits, each once, and gives every material whose shader fits some entry
fully the shader that such an entry holds, which has the same name. -/
theorem fix_of_furnished (hrest : world.repository.AtRest engine)
    (hfurnished : world.repository.Furnished engine)
    (hon : world.config.enableMultiPassRendering = false)
    (happart : ShownApart world materials) (hforeign : Foreign engine world materials) :
    ∃ after missing, fix engine .main materials world = (after, .ok (.ofMissing missing)) ∧
      missing.Nodup ∧
      (∀ name, name ∈ missing ↔ ∃ shader ∈ unsupported world materials, shader.name = name ∧
        ∀ other ∈ world.repository.entries, shader.query.match? other.2.signature = none) ∧
      ∀ material ∈ materials, ∀ shader, world.materials.shader? material = some shader →
        shader.isSupported world.layout = false →
          (∃ other ∈ world.repository.entries,
            shader.query.match? other.2.signature = some .full) →
            ∃ new, after.materials.shader? material = some new ∧ engine.Makes new ∧
              Namesake after.repository shader new := by
  by_cases hsome : unsupported world materials = []
  · have hplan : plan? world materials = none := by simp [plan?, hon, hsome]
    refine ⟨world, [], by simp only [fix, hplan, Outcome.allSupported], List.nodup_nil, ?_, ?_⟩
    · simp [hsome]
    · intro material hmem shader hshown hunsupported
      have hshader := (mem_unsupported_iff happart).mpr ⟨⟨material, hmem, hshown⟩, hunsupported⟩
      rw [hsome] at hshader
      cases hshader
  · obtain ⟨after, missing, hfix, hmended⟩ := exists_mended hrest hon happart hforeign hsome
    have hnodup : missing.Nodup := by
      have hkeys := nodup_map_distinctBy (id : String → String)
        (namesMissing (resolved (searched engine world materials).2))
      rwa [List.map_id, ← hmended.reported] at hkeys
    exact ⟨after, missing, hfix, hnodup,
      fun name => mem_missing_iff_unmatched hrest hfurnished hmended,
      fun material hmem shader hshown hunsupported hfull =>
        exists_namesake hrest hfurnished hmended happart hmem hshown hunsupported hfull⟩

end Repair

end ShaderMend
