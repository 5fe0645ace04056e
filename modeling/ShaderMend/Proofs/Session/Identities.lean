import ShaderMend.Engine.Memory
import ShaderMend.Proofs.Session.AtRest

/-!
# Identities of shaders

An engine may make a new object with every load. Then entries that hold one object are one
entry, and of all entries markers alone hold the shader that is shown in the place of shaders
without replacement.

* `Act.effect` — what an act does to the shaders that are stored.
* `Act.keeps_distinguished` — the invariant: the identities of shaders tell them apart.
* `Engine.issues_inMemory` — the engine in memory makes new objects.
* `Act.keeps_since` — what was made before is stored where it was stored before.
-/

namespace ShaderMend

variable {σ β : Type}

/-! ### Effects of acts -/

/-- What an act does to the engine, to the shaders that are stored and to the shader shown in
the place of those without replacement. -/
inductive Act.Effect (engine : Engine σ β) (before after : Repository σ β) : Prop where
  | quiet (hengine : after.engine = before.engine ∨ engine.Called before.engine after.engine)
      (hstored : ∀ {id shader}, (after.cell id).stored = some shader →
        (before.cell id).stored = some shader)
      (hinvalid : after.invalid = before.invalid)
  /-- The engine delivers a shader for an entry, which may keep it. -/
  | put (entry : EntryId) {shader : Shader}
      (hdelivers : engine.Delivers before.engine shader after.engine)
      (hstored : ∀ {id twin}, (after.cell id).stored = some twin →
        (before.cell id).stored = some twin ∨ id = entry ∧ twin = shader)
      (hinvalid : after.invalid = before.invalid ∨
        before.IsMarker entry ∧ after.invalid = some shader)
  | keep {entry : EntryId} {shader : Shader} (hmarker : before.IsMarker entry)
      (hkept : (before.cell entry).stored = some shader)
      (hengine : after.engine = before.engine)
      (hstored : ∀ {id twin}, (after.cell id).stored = some twin →
        (before.cell id).stored = some twin)
      (hinvalid : after.invalid = before.invalid ∨ after.invalid = some shader)

theorem Repository.invalid_keepInvalid (repository : Repository σ β) (shader : Shader) :
    (repository.keepInvalid shader).invalid = repository.invalid ∨
      (repository.keepInvalid shader).invalid = some shader := by
  cases h : repository.invalid with
  | none => exact Or.inr (by simp [keepInvalid, h])
  | some first => exact Or.inl (by simp [keepInvalid, h])

/-- A change of one cell that fills none leaves all shaders where they are. -/
theorem Repository.stored_of_modifyCell {repository : Repository σ β} {entry id : EntryId}
    {change : Cell → Cell} (hchange : ∀ cell : Cell, (change cell).stored = cell.stored)
    {shader : Shader} (h : ((repository.modifyCell entry change).cell id).stored = some shader) :
    (repository.cell id).stored = some shader := by
  rcases repository.cell_modifyCell_cases entry id change with hsame | ⟨-, hchanged⟩
  · rwa [hsame] at h
  · rwa [hchanged, hchange] at h

/-- A change that puts a shader into a cell, or not, puts it nowhere else. -/
theorem Repository.stored_of_put {repository : Repository σ β} {entry id : EntryId}
    {change : Cell → Cell} {shader twin : Shader} (state : σ)
    (hchange : ∀ cell : Cell, (change cell).stored = some twin →
      cell.stored = some twin ∨ twin = shader)
    (h : ((Repository.modifyCell { repository with engine := state } entry change).cell
      id).stored = some twin) :
    (repository.cell id).stored = some twin ∨ id = entry ∧ twin = shader := by
  rcases cell_modifyCell_cases { repository with engine := state } entry id change with
    hsame | ⟨rfl, hchanged⟩
  · rw [hsame] at h
    exact Or.inl h
  · rw [hchanged] at h
    rcases hchange _ h with hstored | heq
    · exact Or.inl hstored
    · exact Or.inr ⟨rfl, heq⟩

/-- **What an act does to the shaders that are stored.** -/
theorem Act.effect {engine : Engine σ β} {task : TaskId} {before after : Footing σ β}
    (hact : Act engine task before after)
    (hparsed : ∀ contents, before.hold = .read contents ∨ before.hold = .reserved contents →
      Entry.Parsed contents.entries) :
    Act.Effect engine before.repository after.repository := by
  cases hact with
  | run hcalled => exact .quiet (Or.inr hcalled) id rfl
  | @add repository contents added bundle hloaded hreserved =>
      refine .quiet (Or.inl rfl) (fun {id shader} hstored => ?_) rfl
      have hcell := repository.cell_append (hparsed contents (Or.inl rfl)) bundle id
      rwa [← hcell]
  | @addReserved repository contents added bundle =>
      refine .quiet (Or.inl rfl) (fun {id shader} hstored => ?_) rfl
      have hcell := repository.cell_append (hparsed contents (Or.inr rfl)) bundle id
      rwa [← hcell]
  | ask entry =>
      exact .quiet (Or.inl rfl)
        (Repository.stored_of_modifyCell fun cell => cell.stored_request task) rfl
  | fail =>
      exact .quiet (Or.inl rfl) (Repository.stored_of_modifyCell Cell.stored_fail) rfl
  | leave hleft =>
      exact .quiet (Or.inl rfl)
        (Repository.stored_of_modifyCell fun cell => cell.stored_leave task) rfl
  | @fill repository entry added shader state hdelivers =>
      refine .put entry hdelivers (fun {id twin} => ?_) (Or.inl rfl)
      apply Repository.stored_of_put state
      intro cell hfilled
      exact Or.inr (Option.some.inj hfilled).symm
  | @store repository hold added entry shader state hdelivers =>
      refine .put entry hdelivers (fun {id twin} => ?_) (Or.inl rfl)
      apply Repository.stored_of_put state
      intro cell hkept
      exact Cell.stored_of_store hkept
  | @keep repository hold entry added shader hmarker hstored =>
      exact .keep hmarker hstored rfl id (repository.invalid_keepInvalid shader)
  | @keepLoaded repository hold entry added shader state hmarker hempty hdelivers =>
      generalize hstore : Repository.modifyCell { repository with engine := state } entry
        (fun cell => (cell.store shader).1) = loaded
      have hengine : loaded.engine = state := by
        rw [← hstore]
        rfl
      have hsame : loaded.invalid = repository.invalid := by
        rw [← hstore]
        rfl
      refine .put entry (hengine ▸ hdelivers) (fun {id twin} hstored => ?_) ?_
      · have hcell : (loaded.cell id).stored = some twin := hstored
        rw [← hstore] at hcell
        exact Repository.stored_of_put state (fun _ => Cell.stored_of_store) hcell
      · rcases loaded.invalid_keepInvalid shader with hold | hnew
        · exact Or.inl (hold.trans hsame)
        · exact Or.inr ⟨hmarker, hnew⟩
  | _ => exact .quiet (Or.inl rfl) id rfl

/-! ### Engines that make new objects -/

/-- Whether an engine makes a new object with every load: what was issued stays so, and a
shader that it delivers is issued with the load, and was not before. -/
structure Engine.Issues (engine : Engine σ β) (issued : σ → ShaderId → Prop) : Prop where
  kept : ∀ {state after id}, engine.Called state after → issued state id → issued after id
  fresh : ∀ {state shader after}, engine.Delivers state shader after → ¬ issued state shader.id
  counted : ∀ {state shader after}, engine.Delivers state shader after → issued after shader.id

theorem Engine.Delivers.called {engine : Engine σ β} {state after : σ} {shader : Shader}
    (h : engine.Delivers state shader after) : engine.Called state after := by
  obtain ⟨bundle, assetPath, hload⟩ := h
  have hcalled : engine.Called state (engine.loadShader state bundle assetPath).1 :=
    .shader bundle assetPath
  rwa [hload] at hcalled

/-- Whether a shader is one of those that the engine in memory has created. -/
def Engine.Tally.Issued (tally : Tally) (id : ShaderId) : Prop :=
  ∃ index < tally.shaders, id = .created index

theorem Engine.Tally.shaders_loadBundle (tally : Tally) (path : Path) (payload : Bytes) :
    (tally.loadBundle path payload).1.shaders = tally.shaders := by
  unfold loadBundle
  split <;> rfl

theorem Engine.Tally.shaders_loadShader (tally : Tally) (bundle : MemoryBundle)
    (assetPath : String) : tally.shaders ≤ (tally.loadShader bundle assetPath).1.shaders := by
  unfold loadShader
  split
  · exact Nat.le_succ _
  · exact Nat.le_refl _

theorem Engine.Tally.id_of_delivers {bundleDelay shaderDelay : Nat} {tally after : Tally}
    {shader : Shader} (h : (inMemory bundleDelay shaderDelay).Delivers tally shader after) :
    shader.id = .created tally.shaders ∧ after.shaders = tally.shaders + 1 := by
  obtain ⟨bundle, assetPath, hload⟩ := h
  change tally.loadShader bundle assetPath = (after, some shader) at hload
  unfold loadShader at hload
  split at hload
  · obtain ⟨rfl, hshader⟩ := Prod.mk.inj hload
    obtain rfl := Option.some.inj hshader
    exact ⟨rfl, rfl⟩
  · cases hload

/-- **The engine in memory makes a new object with every load.** -/
theorem Engine.issues_inMemory (bundleDelay shaderDelay : Nat) :
    (inMemory bundleDelay shaderDelay).Issues Tally.Issued where
  kept hcalled hissued := by
    obtain ⟨index, hindex, rfl⟩ := hissued
    refine ⟨index, hindex.trans_le ?_, rfl⟩
    cases hcalled with
    | bundle path payload => exact (Tally.shaders_loadBundle _ path payload).ge
    | shader bundle assetPath => exact Tally.shaders_loadShader _ bundle assetPath
  fresh hdelivers hissued := by
    obtain ⟨index, hindex, hid⟩ := hissued
    rw [(Tally.id_of_delivers hdelivers).1] at hid
    obtain rfl := ShaderId.created.inj hid
    exact Nat.lt_irrefl _ hindex
  counted hdelivers := by
    obtain ⟨hid, hafter⟩ := Tally.id_of_delivers hdelivers
    exact ⟨_, hafter ▸ Nat.lt_succ_self _, hid⟩

/-- Whether the identities of the shaders of a repository tell them apart: they were issued,
no two entries hold one object, and markers alone hold the one that is shown in the place of
shaders without replacement. -/
structure Repository.Distinguished (issued : σ → ShaderId → Prop)
    (repository : Repository σ β) : Prop where
  stored : ∀ {id shader}, (repository.cell id).stored = some shader →
    issued repository.engine shader.id
  apart : ∀ {id other shader twin}, (repository.cell id).stored = some shader →
    (repository.cell other).stored = some twin → shader.id = twin.id → id = other
  invalid : ∀ {shader}, repository.invalid = some shader → issued repository.engine shader.id
  marker : ∀ {shader id twin}, repository.invalid = some shader →
    (repository.cell id).stored = some twin → twin.id = shader.id → repository.IsMarker id

section Issues

variable {engine : Engine σ β} {issued : σ → ShaderId → Prop}

theorem Repository.distinguished_fresh (issued : σ → ShaderId → Prop) (start : σ) :
    (Repository.fresh start : Repository σ β).Distinguished issued where
  stored h := by cases h
  apart h := by cases h
  invalid h := by cases h
  marker h := by cases h

theorem Act.Effect.kept {before after : Repository σ β}
    (heffect : Act.Effect engine before after) (hissues : engine.Issues issued) {id : ShaderId}
    (h : issued before.engine id) : issued after.engine id := by
  cases heffect with
  | quiet hengine =>
      rcases hengine with hsame | hcalled
      · rwa [hsame]
      · exact hissues.kept hcalled h
  | put entry hdelivers => exact hissues.kept hdelivers.called h
  | keep hmarker hkept hengine => rwa [hengine]

namespace Repository.Distinguished

variable {before after : Repository σ β} (h : before.Distinguished issued)
  (hkept : ∀ {id}, issued before.engine id → issued after.engine id)
  (hmarkers : ∀ {id}, before.IsMarker id → after.IsMarker id)
include h hkept hmarkers

/-- Nothing new is stored. -/
theorem quiet
    (hstored : ∀ {id shader}, (after.cell id).stored = some shader →
      (before.cell id).stored = some shader)
    (hinvalid : after.invalid = before.invalid) : after.Distinguished issued := by
  constructor
  · intro id shader hshader
    exact hkept (h.stored (hstored hshader))
  · intro id other shader twin hshader htwin hsame
    exact h.apart (hstored hshader) (hstored htwin) hsame
  · intro shader hshader
    exact hkept (h.invalid (hinvalid ▸ hshader))
  · intro shader id twin hshader htwin hsame
    exact hmarkers (h.marker (hinvalid ▸ hshader) (hstored htwin) hsame)

/-- The shader of a marker is kept for the place of those without replacement. -/
theorem keep {entry : EntryId} {shader : Shader} (hmarker : before.IsMarker entry)
    (hshader : (before.cell entry).stored = some shader)
    (hstored : ∀ {id twin}, (after.cell id).stored = some twin →
      (before.cell id).stored = some twin)
    (hinvalid : after.invalid = some shader) : after.Distinguished issued := by
  constructor
  · intro id twin htwin
    exact hkept (h.stored (hstored htwin))
  · intro id other first second hfirst hsecond hsame
    exact h.apart (hstored hfirst) (hstored hsecond) hsame
  · intro other hother
    obtain rfl := Option.some.inj (hinvalid.symm.trans hother)
    exact hkept (h.stored hshader)
  · intro other id twin hother htwin hsame
    obtain rfl := Option.some.inj (hinvalid.symm.trans hother)
    rw [h.apart (hstored htwin) hshader hsame]
    exact hmarkers hmarker

/-- A new object may be stored for an entry, and be kept if the entry is a marker. -/
theorem put {entry : EntryId} {shader : Shader} (hnew : ¬ issued before.engine shader.id)
    (hcounted : issued after.engine shader.id)
    (hstored : ∀ {id twin}, (after.cell id).stored = some twin →
      (before.cell id).stored = some twin ∨ id = entry ∧ twin = shader)
    (hinvalid : after.invalid = before.invalid ∨
      before.IsMarker entry ∧ after.invalid = some shader) : after.Distinguished issued := by
  -- An old object is not the new one.
  have hold : ∀ {id twin}, (before.cell id).stored = some twin → twin.id ≠ shader.id := by
    intro id twin htwin hsame
    exact hnew (hsame ▸ h.stored htwin)
  constructor
  · intro id twin htwin
    rcases hstored htwin with htwin | ⟨-, rfl⟩
    · exact hkept (h.stored htwin)
    · exact hcounted
  · intro id other first second hfirst hsecond hsame
    rcases hstored hfirst with hfirst | ⟨rfl, rfl⟩
    · rcases hstored hsecond with hsecond | ⟨-, rfl⟩
      · exact h.apart hfirst hsecond hsame
      · exact absurd hsame (hold hfirst)
    · rcases hstored hsecond with hsecond | ⟨rfl, -⟩
      · exact absurd hsame.symm (hold hsecond)
      · rfl
  · intro other hother
    rcases hinvalid with hinvalid | ⟨-, hinvalid⟩
    · exact hkept (h.invalid (hinvalid ▸ hother))
    · obtain rfl := Option.some.inj (hinvalid.symm.trans hother)
      exact hcounted
  · intro other id twin hother htwin hsame
    rcases hinvalid with hinvalid | ⟨hmarker, hinvalid⟩
    · have hbefore := hinvalid ▸ hother
      rcases hstored htwin with htwin | ⟨-, rfl⟩
      · exact hmarkers (h.marker hbefore htwin hsame)
      · exact absurd (hsame ▸ h.invalid hbefore) hnew
    · obtain rfl := Option.some.inj (hinvalid.symm.trans hother)
      rcases hstored htwin with htwin | ⟨rfl, -⟩
      · exact absurd hsame (hold htwin)
      · exact hmarkers hmarker

end Repository.Distinguished

/-- What an act does to stored shaders keeps them told apart. -/
theorem Act.Effect.distinguished {before after : Repository σ β}
    (heffect : Act.Effect engine before after) (hissues : engine.Issues issued)
    (hdeclared : before.declared <+: after.declared) (h : before.Distinguished issued) :
    after.Distinguished issued := by
  have hkept : ∀ {id}, issued before.engine id → issued after.engine id := heffect.kept hissues
  have hmarkers : ∀ {id}, before.IsMarker id → after.IsMarker id :=
    fun hmarker => hmarker.mono hdeclared
  cases heffect with
  | quiet hengine hstored hinvalid => exact h.quiet hkept hmarkers hstored hinvalid
  | put entry hdelivers hstored hinvalid =>
      exact h.put hkept hmarkers (hissues.fresh hdelivers) (hissues.counted hdelivers) hstored
        hinvalid
  | keep hmarker hshader hengine hstored hinvalid =>
      rcases hinvalid with hinvalid | hinvalid
      · exact h.quiet hkept hmarkers hstored hinvalid
      · exact h.keep hkept hmarkers hmarker hshader hstored hinvalid

theorem Tidy.effect {repository : Repository σ β} {holds : TaskId → Hold}
    (h : Tidy engine repository holds) {task : TaskId} {before after : Footing σ β}
    (hact : Act engine task before after) (hhold : holds task = before.hold) :
    Act.Effect engine before.repository after.repository :=
  hact.effect fun _ hread => h.parsed (hhold ▸ hread)

/-- **Every act keeps the shaders of a repository told apart.** -/
theorem Act.keeps_distinguished (hissues : engine.Issues issued) :
    Act.Keeps engine fun repository holds =>
      Tidy engine repository holds ∧ repository.Distinguished issued := by
  intro task before after holds hact hhold ⟨htidy, h⟩
  constructor
  · exact Act.keeps_tidy engine hact hhold htidy
  · exact (htidy.effect hact hhold).distinguished hissues hact.grows_declared h

/-- **In the repository of a session shaders are told apart.** -/
theorem Repository.distinguished_of_occurs (hissues : engine.Issues issued)
    {repository : Repository σ β} (h : repository.Occurs engine) :
    ∃ holds, (∃ task, holds task = .nothing) ∧ Tidy engine repository holds ∧
      repository.Distinguished issued := by
  obtain ⟨holds, task, hfree, htidy, hdistinguished⟩ :=
    h.invariant (Act.keeps_distinguished hissues) fun start =>
      ⟨Tidy.initial engine start fun _ => rfl, distinguished_fresh issued start⟩
  exact ⟨holds, ⟨task, hfree⟩, htidy, hdistinguished⟩

/-! ### Old objects -/

/-- What was issued in a first repository is stored where it was stored there. -/
structure Repository.Since (issued : σ → ShaderId → Prop) (first repository : Repository σ β) :
    Prop where
  kept : ∀ {id}, issued first.engine id → issued repository.engine id
  stored : ∀ {id shader}, (repository.cell id).stored = some shader →
    issued first.engine shader.id → (first.cell id).stored = some shader

theorem Repository.Since.refl (repository : Repository σ β) :
    repository.Since issued repository where
  kept hid := hid
  stored hstored _ := hstored

theorem Act.keeps_since (hissues : engine.Issues issued) (first : Repository σ β) :
    Act.Keeps engine fun repository holds =>
      Tidy engine repository holds ∧ first.Since issued repository := by
  intro task before after holds hact hhold ⟨htidy, h⟩
  refine ⟨Act.keeps_tidy engine hact hhold htidy, ?_⟩
  have heffect := htidy.effect hact hhold
  constructor
  · intro id hid
    exact heffect.kept hissues (h.kept hid)
  · intro id shader hshader hid
    cases heffect with
    | quiet hengine hstored hinvalid => exact h.stored (hstored hshader) hid
    | put entry hdelivers hstored hinvalid =>
        rcases hstored hshader with hshader | ⟨-, rfl⟩
        · exact h.stored hshader hid
        · exact absurd (h.kept hid) (hissues.fresh hdelivers)
    | keep hmarker hkept hengine hstored hinvalid => exact h.stored (hstored hshader) hid

end Issues

end ShaderMend
