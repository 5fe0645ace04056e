import ShaderMend.Proofs.Repair.Fix
import ShaderMend.Proofs.Session.Identities

/-!
# The placeholder as a replacement

An entry that stands in for shaders without replacement is looked at like any other, so a
search may find it, and its shader be given as a replacement.

* `Repository.FindsPlaceholder.name` — the names of shaders whose search finds it are related
  to its own.
* `Repair.placeholders_of_occurs` — a repair reports every shader that it gives the
  placeholder for, but for those whose search finds it.
-/

namespace ShaderMend

variable {σ β : Type}

/-! ### The closest entry -/

namespace Repository

theorem scan_unfilled (query : Signature) (best : BestMatch Candidate)
    (entries : List (EntryId × Entry)) :
    scan query best (entries.map fun item => (item.1, item.2.unfilled))
      = scan query best entries := by
  induction entries generalizing best with
  | nil => rfl
  | cons first rest ih =>
      obtain ⟨id, entry⟩ := first
      rw [List.map_cons, scan, scan]
      have hsignature : entry.unfilled.signature = entry.signature := rfl
      rw [hsignature]
      cases query.match? entry.signature with
      | none => exact ih best
      | some found =>
          dsimp only
          rw [ih]

/-- **The closest entry depends on what is declared.** -/
theorem closest?_of_declared {first second : Repository σ β}
    (h : first.declared = second.declared) (query : Signature) :
    first.closest? query = second.closest? query := by
  have houtline := outline_of_declared h
  unfold closest?
  rw [← scan_unfilled query _ first.entries, ← scan_unfilled query _ second.entries]
  exact congrArg (scan query .empty) houtline

variable {repository : Repository σ β}

/-- If the closest entry has its shader, it is found. -/
theorem find_of_stored (engine : Engine σ β) {query : Signature} {candidate : Candidate}
    {shader : Shader} (hclosest : repository.closest? query = some candidate)
    (hstored : (repository.cell candidate.entry).stored = some shader) :
    (repository.find engine query).2 = .ok (some { candidate with shader }) := by
  simp [find, hclosest, materialize, hstored]

/-! ### Markers -/

/-- The marker of a manifest stands in for shaders without replacement. -/
theorem isInvalidMarker_of_isMarker (hordered : repository.Ordered) {id : EntryId} {entry : Entry}
    (hmarker : repository.IsMarker id) (hentry : repository.lookup? id = some entry) :
    entry.isInvalidMarker := by
  obtain ⟨manifest, hmanifest, hoffered⟩ := Option.bind_eq_some_iff.mp hmarker
  obtain ⟨first, hfirst, hid⟩ := Option.bind_eq_some_iff.mp hoffered
  have hpath : first.assetPath = id.assetPath := congrArg EntryId.assetPath (Option.some.inj hid)
  have hfound : repository.lookup? id = some first :=
    (hordered.lookup?_iff hmanifest).mpr ⟨List.mem_of_find?_eq_some hfirst, hpath⟩
  obtain rfl := Option.some.inj (hfound.symm.trans hentry)
  exact List.find?_some hfirst

/-- Whether the entry closest to a shader holds the one that is shown in the place of shaders
without replacement. -/
def FindsPlaceholder (repository : Repository σ β) (shader : Shader) : Prop :=
  ∃ candidate placeholder invalid, repository.closest? shader.query = some candidate ∧
    (repository.cell candidate.entry).stored = some placeholder ∧
    repository.invalid = some invalid ∧ placeholder.same invalid

/-- The name of a shader whose search finds the placeholder is related to the name that makes
an entry one. -/
theorem FindsPlaceholder.name (hordered : repository.Ordered)
    {issued : σ → ShaderId → Prop} (hdistinguished : repository.Distinguished issued)
    {shader : Shader} (h : repository.FindsPlaceholder shader) :
    (namePenalty? shader.name Shader.invalidName).isSome := by
  obtain ⟨candidate, placeholder, invalid, hclosest, hstored, hinvalid, hsame⟩ := h
  have hid : placeholder.id = invalid.id := by simpa [Shader.same] using hsame
  rcases repository.closest?_spec shader.query with
    ⟨hnone, -⟩ | ⟨id, entry, found, hsome, hselects⟩
  · rw [hnone] at hclosest
    cases hclosest
  · obtain rfl := Option.some.inj (hsome.symm.trans hclosest)
    have hentry := (mem_entries_iff hordered).mp hselects.mem
    have hmarker := hdistinguished.marker hinvalid hstored hid
    have hname := isInvalidMarker_of_isMarker hordered hmarker hentry
    have hmatch := hselects.match?_eq
    rw [Entry.isInvalidMarker, decide_eq_true_iff] at hname
    rw [← hname]
    obtain ⟨penalty, hpenalty, -⟩ := Option.bind_eq_some_iff.mp hmatch
    exact Option.isSome_iff_exists.mpr ⟨penalty, hpenalty⟩

end Repository

/-! ### Repairs -/

namespace Repair

section Placeholders

variable {engine : Engine σ β} {world : World σ β} {materials : List MaterialId}

/-- A repair that succeeds had nothing to do, or mends its materials. -/
theorem mended_of_fix {holds : TaskId → Hold} (h : Tidy engine world.repository holds)
    (hfree : ∃ task, holds task = .nothing) (happart : ShownApart world materials)
    (hforeign : Foreign engine world materials) {thread : Thread} {after : World σ β}
    {outcome : Outcome} (hfix : fix engine thread materials world = (after, .ok outcome)) :
    (after = world ∧ (world.config.enableMultiPassRendering = true ∨
      unsupported world materials = [])) ∨
    world.config.enableMultiPassRendering = false ∧
      Mended engine materials world after outcome.missingNames := by
  cases thread with
  | other => cases hfix
  | main =>
      cases hon : world.config.enableMultiPassRendering with
      | true =>
          simp only [fix, plan?, hon, if_true] at hfix
          exact Or.inl ⟨(congrArg Prod.fst hfix).symm, Or.inl rfl⟩
      | false =>
          cases hshaders : unsupported world materials with
          | nil =>
              simp only [fix, plan?, hon, Bool.false_eq_true, if_false, hshaders] at hfix
              exact Or.inl ⟨(congrArg Prod.fst hfix).symm, Or.inr rfl⟩
          | cons first rest =>
              have hplan : plan? world materials
                  = some (⟨world.config, materials⟩, unsupported world materials) := by
                simp [plan?, hon, hshaders]
              have hnames := foldl_missingAfter (resolved (searched engine world materials).2) []
              simp only [fix, hplan] at hfix
              rw [replaceAll_eq h hfree] at hfix
              obtain ⟨rfl, houtcome⟩ := Prod.mk.inj hfix
              have hmissing := congrArg Outcome.missingNames (Except.ok.inj houtcome)
              refine Or.inr ⟨rfl, ?_⟩
              rw [← hmissing]
              have hmended := mended_of_rounds h hfree happart hforeign
              rw [List.nil_append] at hnames
              rw [← hnames] at hmended
              exact hmended

/-- A shader that cannot stay is searched for. -/
theorem exists_searched (engine : Engine σ β) (happart : ShownApart world materials)
    {material : MaterialId} (hmem : material ∈ materials) {shader : Shader}
    (hshown : world.materials.shader? material = some shader)
    (hunsupported : shader.isSupported world.layout = false) :
    ∃ result, (shader, result) ∈ (searched engine world materials).2 := by
  have hshader : shader ∈ unsupported world materials :=
    (mem_unsupported_iff happart).mpr ⟨⟨material, hmem, hshown⟩, hunsupported⟩
  rw [← map_fst_searched engine] at hshader
  obtain ⟨⟨other, result⟩, hitem, rfl⟩ := List.mem_map.mp hshader
  exact ⟨result, hitem⟩

/-- A shader without replacement is reported. -/
theorem name_mem_missing {after : World σ β} {missing : List String}
    (hmended : Mended engine materials world after missing) {shader : Shader}
    {result : Except RepositoryError (Option Replacement)}
    (hitem : (shader, result) ∈ (searched engine world materials).2)
    (hnone : replacementOf result = none) : shader.name ∈ missing := by
  have hfound := mem_resolved hitem
  have hname : shader.name ∈ namesMissing (resolved (searched engine world materials).2) := by
    apply List.mem_map.mpr
    exact ⟨(shader, replacementOf result), List.mem_filter.mpr ⟨hfound, by simp [hnone]⟩, rfl⟩
  have hkey := mem_map_distinctBy_iff.mpr (List.mem_map_of_mem (f := id) hname)
  rw [List.map_id] at hkey
  rw [hmended.reported]
  exact hkey

section Searched

variable {issued : σ → ShaderId → Prop} {holds : TaskId → Hold}
  (h : Tidy engine world.repository holds) (hfree : ∃ task, holds task = .nothing)
  (hissues : engine.Issues issued) (hdistinguished : world.repository.Distinguished issued)
include h hfree hissues hdistinguished

/-- A replacement that is the invalid shader was the shader of the closest entry before. -/
theorem findsPlaceholder_of_searched {shader invalid : Shader} {replacement : Replacement}
    (hitem : (shader, .ok (some replacement)) ∈ (searched engine world materials).2)
    (hinvalid : world.repository.invalid = some invalid)
    (hsame : replacement.shader.same invalid) : world.repository.FindsPlaceholder shader := by
  have hid : replacement.shader.id = invalid.id := by simpa [Shader.same] using hsame
  have hissued : issued world.repository.engine replacement.shader.id :=
    hid ▸ hdistinguished.invalid hinvalid
  obtain ⟨middle, ⟨-, hsince⟩, hgrown, hfound⟩ :=
    Repository.mem_findEach (Act.keeps_since hissues world.repository) hfree
      ⟨h, .refl world.repository⟩ hitem
  obtain ⟨hclosest, horigin⟩ := Repository.found_cases hfound.symm
  rw [Repository.closest?_of_declared hgrown.declared] at hclosest
  rcases horigin with hstored | ⟨state, hdelivers⟩
  · exact ⟨_, _, invalid, hclosest, hsince.stored hstored hissued, hinvalid, hsame⟩
  · exact absurd (hsince.kept hissued) (hissues.fresh hdelivers)

/-- A material that shows the invalid shader after a repair, and did not before, showed a
shader that is reported, or whose search finds the placeholder. -/
theorem placeholder_of_mended (happart : ShownApart world materials) {after : World σ β}
    {missing : List String} (hmended : Mended engine materials world after missing)
    {invalid : Shader} (hinvalid : world.repository.invalid = some invalid)
    {material : MaterialId} (hmem : material ∈ materials)
    (hunused : world.materials.uses material invalid = false)
    (huses : after.materials.uses material invalid = true) :
    ∃ shader, world.materials.shader? material = some shader ∧
      shader.isSupported world.layout = false ∧
      (shader.name ∈ missing ∨ world.repository.FindsPlaceholder shader) := by
  have hchanged : after.materials.shader? material ≠ world.materials.shader? material := by
    intro hkept
    rw [Materials.uses, hkept] at huses
    rw [Materials.uses, huses] at hunused
    cases hunused
  cases hshown : world.materials.shader? material with
  | none =>
      refine absurd (hmended.supported material fun shader hshader => ?_) hchanged
      rw [hshown] at hshader
      cases hshader
  | some shader =>
      cases hsupport : shader.isSupported world.layout with
      | true =>
          refine absurd (hmended.supported material fun other hother => ?_) hchanged
          obtain rfl := Option.some.inj (hshown.symm.trans hother)
          exact hsupport
      | false =>
          refine ⟨shader, rfl, hsupport, ?_⟩
          obtain ⟨result, hitem⟩ := exists_searched engine happart hmem hshown hsupport
          cases hreplacement : replacementOf result with
          | none => exact Or.inl (name_mem_missing hmended hitem hreplacement)
          | some replacement =>
              obtain rfl := ok_of_replacementOf hreplacement
              have hafter := hmended.replaced material hmem shader replacement hshown hitem
              have hsame : replacement.shader.same invalid := by
                simpa [Materials.uses, hafter] using huses
              exact Or.inr (findsPlaceholder_of_searched h hfree hissues hdistinguished hitem
                hinvalid hsame)

omit hissues hdistinguished in
/-- Where the search for a shader finds the placeholder, this is what a material gets. -/
theorem uses_of_findsPlaceholder (happart : ShownApart world materials) {after : World σ β}
    {missing : List String} (hmended : Mended engine materials world after missing)
    {invalid : Shader} (hinvalid : world.repository.invalid = some invalid)
    {material : MaterialId} (hmem : material ∈ materials) {shader : Shader}
    (hshown : world.materials.shader? material = some shader)
    (hunsupported : shader.isSupported world.layout = false)
    (hfinds : world.repository.FindsPlaceholder shader) :
    after.materials.uses material invalid = true := by
  obtain ⟨candidate, placeholder, other, hclosest, hstored, hother, hsame⟩ := hfinds
  obtain rfl := Option.some.inj (hinvalid.symm.trans hother)
  obtain ⟨result, hitem⟩ := exists_searched engine happart hmem hshown hunsupported
  obtain ⟨middle, -, hgrown, hresult⟩ :=
    Repository.mem_findEach (Act.keeps_tidy engine) hfree h hitem
  rw [← Repository.closest?_of_declared hgrown.declared] at hclosest
  have hfound := Repository.find_of_stored engine hclosest (hgrown.stored hstored)
  rw [hfound] at hresult
  subst hresult
  have hafter := hmended.replaced material hmem shader _ hshown hitem
  simpa [Materials.uses, hafter] using hsame

end Searched

/-- **A repair passes the placeholder off as a replacement exactly where a search finds it.**
In the repository of a session, whatever its tasks are at, over an engine that makes a new
object with every load, let none of the materials show the invalid shader, and let the shaders
to be replaced be none that the engine makes. Then every material that shows the invalid shader
after the repair showed a shader that is reported, if and only if every shader that was to be
replaced and whose search finds the placeholder is reported. The names of such shaders are
related to the name that makes an entry a placeholder. -/
theorem placeholders_of_occurs {issued : σ → ShaderId → Prop}
    (h : world.repository.Occurs engine) (hissues : engine.Issues issued)
    (happart : ShownApart world materials) (hforeign : Foreign engine world materials)
    {thread : Thread} {after : World σ β} {outcome : Outcome}
    (hfix : fix engine thread materials world = (after, .ok outcome)) :
    after.repository.invalid = world.repository.invalid ∧
    (∀ invalid, world.repository.invalid = some invalid →
      (∀ material ∈ materials, world.materials.uses material invalid = false) →
      ((∀ material ∈ materials, after.materials.uses material invalid = true →
          ∃ shader, world.materials.shader? material = some shader ∧
            shader.name ∈ outcome.missingNames) ↔
        ∀ material ∈ materials, ∀ shader, world.materials.shader? material = some shader →
          world.config.enableMultiPassRendering = false →
          shader.isSupported world.layout = false →
          world.repository.FindsPlaceholder shader → shader.name ∈ outcome.missingNames)) ∧
    ∀ shader, world.repository.FindsPlaceholder shader →
      (namePenalty? shader.name Shader.invalidName).isSome := by
  obtain ⟨holds, hfree, htidy, hdistinguished⟩ := Repository.distinguished_of_occurs hissues h
  refine ⟨?invalid, fun invalid hinvalid hunused => ?exact,
    fun shader hfinds => hfinds.name htidy.ordered hdistinguished⟩
  case invalid =>
    rcases mended_of_fix htidy hfree happart hforeign hfix with ⟨rfl, -⟩ | ⟨-, hmended⟩
    · rfl
    · rw [hmended.repository]
      exact (Repository.findEach_grown engine _ _).invalid
  case exact =>
    rcases mended_of_fix htidy hfree happart hforeign hfix with ⟨rfl, hidle⟩ | ⟨hon, hmended⟩
    · constructor
      · intro _ material hmem shader hshown hon hunsupported _
        rcases hidle with hoff | hnothing
        · rw [hoff] at hon
          cases hon
        · have hshader : shader ∈ unsupported after materials :=
            (mem_unsupported_iff happart).mpr ⟨⟨material, hmem, hshown⟩, hunsupported⟩
          rw [hnothing] at hshader
          cases hshader
      · intro _ material hmem huses
        rw [hunused material hmem] at huses
        cases huses
    · constructor
      · intro hreported material hmem shader hshown _ hunsupported hfinds
        have huses := uses_of_findsPlaceholder htidy hfree happart hmended hinvalid hmem hshown
          hunsupported hfinds
        obtain ⟨other, hother, hname⟩ := hreported material hmem huses
        obtain rfl := Option.some.inj (hshown.symm.trans hother)
        exact hname
      · intro hreported material hmem huses
        obtain ⟨shader, hshown, hunsupported, hname | hfinds⟩ :=
          placeholder_of_mended htidy hfree hissues hdistinguished happart hmended hinvalid hmem
            (hunused material hmem) huses
        · exact ⟨shader, hshown, hname⟩
        · exact ⟨shader, hshown, hreported material hmem shader hshown hon hunsupported hfinds⟩

end Placeholders

end Repair

/-! ### A session with a placeholder -/

namespace Session

/-- A world with an archive that has the placeholder only, and is not loaded yet. -/
def placeholderWorld : World Engine.Tally Engine.MemoryBundle :=
  { sampleWorld with files := Bundle.placeholderFiles }

/-- The bundle of the archive. -/
def placeholderBundle : Engine.MemoryBundle :=
  ⟨⟨"a"⟩, [("x", Shader.invalidName)]⟩

/-- The placeholder. -/
def placeholderShader : Shader :=
  ⟨.created 0, Shader.invalidName, [], some true, none⟩

/-- The repository while the engine loads the placeholder for a task. -/
def cachingRepository : Repository Engine.Tally Engine.MemoryBundle where
  engine := ⟨1, 0⟩
  manifests := [⟨⟨"a"⟩, some placeholderBundle,
    [⟨"x", ⟨Shader.invalidName, [], []⟩, ⟨none, some 0, []⟩⟩]⟩]
  invalid := none
  webDone := false
  stage := .empty
  inFlight := []

/-- The repository with the placeholder. -/
def placeholderRepository : Repository Engine.Tally Engine.MemoryBundle where
  engine := ⟨1, 1⟩
  manifests := [⟨⟨"a"⟩, some placeholderBundle,
    [⟨"x", ⟨Shader.invalidName, [], []⟩, ⟨some placeholderShader, none, []⟩⟩]⟩]
  invalid := some placeholderShader
  webDone := true
  stage := .ready
  inFlight := []

/-- A task loads the archive and its placeholder. -/
def placeholderMoves : List Move :=
  sampleMoves ++ [.resume 0]

theorem arrive_placeholder :
    (WebLoad.downloading sampleDownloader).resume sampleEngine 0 0 placeholderWorld
      = ({ placeholderWorld with repository := placeholderWorld.repository.reserve ⟨"a"⟩ },
         .paused (.loading Bundle.placeholderContents [] []) (.until 0)) :=
  arrive_single Bundle.read_placeholder

theorem register_placeholder :
    (WebLoad.loading Bundle.placeholderContents [] []).resume sampleEngine 0 0
        { placeholderWorld with repository := placeholderWorld.repository.reserve ⟨"a"⟩ }
      = ({ placeholderWorld with repository := cachingRepository },
         .paused (.caching (.loading ⟨"a"⟩ placeholderBundle ⟨0, "x"⟩) [] [(⟨"a"⟩, .loaded)])
           (.until 0)) := by
  have hdecode : Payload.decode? (Payload.encode [("x", Shader.invalidName)])
      = some [("x", Shader.invalidName)] := by
    decide +kernel
  have hregister : (placeholderWorld.repository.reserve ⟨"a"⟩).register sampleEngine
      Bundle.placeholderContents
        = (singleAdded Bundle.placeholderContents.entries placeholderBundle.assets, true) :=
    register_single hdecode
  have hrelease : (singleAdded Bundle.placeholderContents.entries placeholderBundle.assets).release
      Bundle.placeholderContents.path
        = { singleAdded Bundle.placeholderContents.entries placeholderBundle.assets with
            inFlight := [] } :=
    release_single
  simp only [WebLoad.resume, hregister, hrelease, WebLoad.nextArchive, WebLoad.cacheInvalid]
  rfl

theorem keep_placeholder :
    (WebLoad.caching (.loading ⟨"a"⟩ placeholderBundle ⟨0, "x"⟩) [] [(⟨"a"⟩, .loaded)]).resume
        sampleEngine 0 0 { placeholderWorld with repository := cachingRepository }
      = ({ placeholderWorld with repository := placeholderRepository }, .done (.ok 1)) :=
  rfl

theorem replay_placeholder :
    replay sampleEngine placeholderMoves (fresh placeholderWorld)
      = ⟨{ placeholderWorld with repository := placeholderRepository }, 0, [],
          [⟨0, 0, .webLoaded (.ok 1) (some ⟨"d"⟩)⟩], 1⟩ := by
  have hstarted : move sampleEngine (move sampleEngine (fresh placeholderWorld)
      (.plan 0 .main (.loadWeb (some ⟨"d"⟩) sampleDownloader))) (.resume 0)
        = ⟨placeholderWorld, 0,
           [⟨0, .begun (.webLoad ⟨"d"⟩ (.downloading sampleDownloader)), .until 0⟩], [], 1⟩ := rfl
  simp only [replay, placeholderMoves, sampleMoves, List.cons_append, List.nil_append,
    List.foldl_cons, List.foldl_nil, hstarted]
  simp [move, activity?, resume, advance, Task.resume, arrive_placeholder, Task.step,
    Progress.within, register_placeholder, keep_placeholder]

theorem occurs_placeholder : placeholderRepository.Occurs sampleEngine := by
  refine ⟨placeholderWorld, placeholderMoves, ⟨⟨0, 0⟩, rfl⟩, ?_⟩
  rw [replay_placeholder]

end Session

/-! ### Repairs with a placeholder -/

namespace Repair

/-- A shader that cannot stay. Its name has the last segment of the name of the placeholder. -/
def relatedShader : Shader :=
  ⟨.host 0, "Custom/Invalid", [], some false, none⟩

/-- A world with the placeholder and a material that shows a shader. -/
def placeholderWorld (shader : Shader) : World Engine.Tally Engine.MemoryBundle :=
  { Session.placeholderWorld with
    repository := Session.placeholderRepository
    materials := [some shader] }

theorem shownApart_placeholder (shader : Shader) : ShownApart (placeholderWorld shader) [0] := by
  intro first hfirst second hsecond shown other hshown hother _
  obtain rfl := List.mem_singleton.mp hfirst
  obtain rfl := List.mem_singleton.mp hsecond
  exact Option.some.inj (hshown.symm.trans hother)

theorem foreign_placeholder : Foreign Session.sampleEngine (placeholderWorld sampleShader) [0] := by
  intro shader hmem made hmakes hsame
  obtain rfl : shader = sampleShader := List.mem_singleton.mp hmem
  obtain ⟨-, index, hid⟩ := knownSupport_of_makes hmakes
  rw [hid] at hsame
  cases hsame

theorem placeholders_of_sample :
    ((placeholderWorld sampleShader).repository.Occurs Session.sampleEngine ∧
      Session.sampleEngine.Issues Engine.Tally.Issued ∧
      ShownApart (placeholderWorld sampleShader) [0] ∧
      Foreign Session.sampleEngine (placeholderWorld sampleShader) [0]) ∧
    ∃ after outcome, fix Session.sampleEngine .main [0] (placeholderWorld sampleShader)
        = (after, .ok outcome) ∧
      after.materials.uses 0 Session.placeholderShader = true ∧
      ∃ shader, (placeholderWorld sampleShader).materials.shader? 0 = some shader ∧
        shader.name ∈ outcome.missingNames := by
  have hissues : Session.sampleEngine.Issues Engine.Tally.Issued := Engine.issues_inMemory 0 0
  have hfix : fix Session.sampleEngine .main [0] (placeholderWorld sampleShader)
      = ((fix Session.sampleEngine .main [0] (placeholderWorld sampleShader)).1,
         .ok ⟨false, ["S"]⟩) :=
    Prod.ext rfl (by decide +kernel)
  have huses : (fix Session.sampleEngine .main [0]
      (placeholderWorld sampleShader)).1.materials.uses 0 Session.placeholderShader = true := by
    decide +kernel
  obtain ⟨-, hexact, hnames⟩ := placeholders_of_occurs Session.occurs_placeholder hissues
    (shownApart_placeholder sampleShader) foreign_placeholder hfix
  refine ⟨⟨Session.occurs_placeholder, hissues, shownApart_placeholder sampleShader,
    foreign_placeholder⟩, _, _, hfix, huses, ?_⟩
  refine (hexact Session.placeholderShader rfl ?_).mpr ?_ 0 List.mem_cons_self huses
  · intro material hmem
    obtain rfl := List.mem_singleton.mp hmem
    rfl
  · intro material hmem shader hshown _ _ hfinds
    obtain rfl := List.mem_singleton.mp hmem
    obtain rfl : sampleShader = shader := Option.some.inj hshown
    -- "S" is not related to the name of the placeholder.
    have hrelated := hnames _ hfinds
    revert hrelated
    decide +kernel

/-- The placeholder is given for a shader that is not reported. -/
theorem placeholder_passed_off :
    (placeholderWorld relatedShader).repository.Occurs Session.sampleEngine ∧
    (placeholderWorld relatedShader).repository.invalid = some Session.placeholderShader ∧
    (placeholderWorld relatedShader).materials.uses 0 Session.placeholderShader = false ∧
    ∃ after, fix Session.sampleEngine .main [0] (placeholderWorld relatedShader)
        = (after, .ok ⟨true, []⟩) ∧
      after.materials.uses 0 Session.placeholderShader = true := by
  refine ⟨Session.occurs_placeholder, rfl, rfl,
    (fix Session.sampleEngine .main [0] (placeholderWorld relatedShader)).1, ?_, ?_⟩
  · exact Prod.ext rfl (by decide +kernel)
  · decide +kernel

end Repair

end ShaderMend
