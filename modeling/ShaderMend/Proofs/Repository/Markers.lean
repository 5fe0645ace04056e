import ShaderMend.Proofs.Session.Acts

/-!
# The shader for shaders without replacement

The markers of all manifests are tried in the order of loading, until one can be loaded.

* `cached` — either all markers fail, or the first that does not is taken.
* `cacheInvalid_kept` — nothing but the cell of the marker that is taken changes.
-/

namespace ShaderMend.Repository

open Relation (ReflTransGen)

variable {σ β : Type} {engine : Engine σ β} {repository : Repository σ β} {id : EntryId}

/-! ### Markers in a row -/

/-- Whether the shader of an entry is missing and was asked for in vain. -/
def Fails (engine : Engine σ β) (repository : Repository σ β) (id : EntryId) : Prop :=
  (repository.cell id).stored = none ∧
    ∀ bundle, (repository.source id.manifest).bundle = some bundle →
      ∃ state, (engine.loadShader state bundle id.assetPath).2 = none

theorem manifest_of_marker? {index : Nat} (h : repository.marker? index = some id) :
    id.manifest = index := by
  obtain ⟨manifest, -, hmarker⟩ := Option.bind_eq_some_iff.mp h
  obtain ⟨entry, -, hid⟩ := Option.bind_eq_some_iff.mp hmarker
  exact congrArg EntryId.manifest (Option.some.inj hid).symm

/-- What becomes of a repository in which markers are tried in a row. -/
inductive Cached (engine : Engine σ β) (repository : Repository σ β) :
    List Nat → Repository σ β → Prop where
  /-- All markers fail. -/
  | failed {indices : List Nat} {state : σ}
      (hcalls : ReflTransGen engine.Called repository.engine state)
      (hfails : ∀ index ∈ indices, ∀ id, repository.marker? index = some id →
        repository.Fails engine id) :
      Cached engine repository indices { repository with engine := state }
  /-- A marker has its shader, and those before it fail. -/
  | stored {passed rest : List Nat} {id : EntryId} {shader : Shader} {state : σ}
      (hcalls : ReflTransGen engine.Called repository.engine state)
      (hfails : ∀ index ∈ passed, ∀ id, repository.marker? index = some id →
        repository.Fails engine id)
      (hmarker : repository.IsMarker id) (hstored : (repository.cell id).stored = some shader) :
      Cached engine repository (passed ++ id.manifest :: rest)
        (keepInvalid { repository with engine := state } shader)
  /-- A marker can be loaded, and those before it fail. -/
  | loaded {passed rest : List Nat} {id : EntryId} {bundle : β} {shader : Shader}
      {before state : σ} (hcalls : ReflTransGen engine.Called repository.engine before)
      (hfails : ∀ index ∈ passed, ∀ id, repository.marker? index = some id →
        repository.Fails engine id)
      (hmarker : repository.IsMarker id) (hempty : (repository.cell id).stored = none)
      (hbundle : (repository.source id.manifest).bundle = some bundle)
      (hload : engine.loadShader before bundle id.assetPath = (state, some shader)) :
      Cached engine repository (passed ++ id.manifest :: rest)
        (keepInvalid (modifyCell { repository with engine := state } id
          fun cell => (cell.store shader).1) shader)

/-- A marker that fails is passed over. -/
theorem Cached.cons {index : Nat} {rest : List Nat} {after : Repository σ β} {state : σ}
    (hcalls : ReflTransGen engine.Called repository.engine state)
    (hfails : ∀ id, repository.marker? index = some id → repository.Fails engine id)
    (h : Cached engine { repository with engine := state } rest after) :
    Cached engine repository (index :: rest) after := by
  cases h with
  | failed hmore hothers =>
      exact .failed (hcalls.trans hmore) (List.forall_mem_cons.mpr ⟨hfails, hothers⟩)
  | stored hmore hothers hmarker hstored =>
      exact .stored (hcalls.trans hmore) (List.forall_mem_cons.mpr ⟨hfails, hothers⟩) hmarker
        hstored
  | loaded hmore hothers hmarker hempty hbundle hload =>
      exact .loaded (hcalls.trans hmore) (List.forall_mem_cons.mpr ⟨hfails, hothers⟩) hmarker
        hempty hbundle hload

/-- **Markers are tried in a row** until one can be loaded. -/
theorem cached (engine : Engine σ β) (repository : Repository σ β) (indices : List Nat) :
    Cached engine repository indices (cacheInvalidFrom engine indices repository) := by
  induction indices generalizing repository with
  | nil => exact .failed .refl (List.forall_mem_nil _)
  | cons index rest ih =>
      unfold cacheInvalidFrom
      split
      · rename_i hmarker
        refine .cons .refl (fun id hid => ?_) (ih repository)
        rw [hmarker] at hid
        cases hid
      · rename_i id hmarker
        have hindex : id.manifest = index := manifest_of_marker? hmarker
        have honly : ∀ other, repository.marker? index = some other → other = id :=
          fun other hother => (Option.some.inj (hmarker.symm.trans hother)).symm
        have htried := repository.tried engine (repository.source index) id
        generalize repository.materialize engine (repository.source index) id = result at htried
        cases htried with
        | stored hstored =>
            exact hindex ▸ .stored .refl (List.forall_mem_nil _) (isMarker_of_marker? hmarker)
              hstored
        | unbound hempty hbundle =>
            refine .cons .refl (fun other hother => ?_) (ih repository)
            rw [honly other hother]
            refine ⟨hempty, fun bundle hbound => ?_⟩
            rw [hindex, hbundle] at hbound
            cases hbound
        | @missing bundle state hempty hbundle hload =>
            refine .cons (.single (.of_loadShader hload)) (fun other hother => ?_) (ih _)
            rw [honly other hother]
            refine ⟨hempty, fun found hbound => ⟨repository.engine, ?_⟩⟩
            rw [hindex, hbundle] at hbound
            obtain rfl := Option.some.inj hbound
            rw [hload]
        | loaded hempty hbundle hload =>
            exact hindex ▸ .loaded .refl (List.forall_mem_nil _) (isMarker_of_marker? hmarker)
              hempty (hindex ▸ hbundle) hload

/-! ### What changes -/

/-- What stays of a repository in which the shader for shaders without replacement was looked
for. -/
structure Kept (before after : Repository σ β) : Prop where
  declared : after.declared = before.declared
  inFlight : after.inFlight = before.inFlight
  webDone : after.webDone = before.webDone
  stage : after.stage = before.stage
  /-- A shader that was kept stays, and then nothing changes at all. -/
  invalid : before.invalid.isSome → after = before
  /-- The one cell that may change is that of the marker whose shader is kept. -/
  cell : ∀ id, after.cell id ≠ before.cell id →
    before.IsMarker id ∧ (before.cell id).stored = none ∧ after.invalid.isSome ∧
      (after.cell id).stored = after.invalid

theorem Cached.kept {indices : List Nat} {after : Repository σ β}
    (h : Cached engine repository indices after) (hinvalid : repository.invalid = none) :
    repository.Kept after := by
  have hnone : repository.invalid.isSome → after = repository := by simp [hinvalid]
  cases h with
  | failed => exact ⟨rfl, rfl, rfl, rfl, hnone, fun _ hchanged => absurd rfl hchanged⟩
  | stored => exact ⟨rfl, rfl, rfl, rfl, hnone, fun _ hchanged => absurd rfl hchanged⟩
  | @loaded passed rest id bundle shader before state _ _ hmarker hempty _ _ =>
      have hdeclared := declared_modifyCell { repository with engine := state } id
        fun cell => (cell.store shader).1
      refine ⟨hdeclared, rfl, rfl, rfl, hnone, fun other hchanged => ?_⟩
      rcases cell_modifyCell_cases { repository with engine := state } id other
        fun cell => (cell.store shader).1 with hsame | ⟨rfl, hcell⟩
      · exact absurd hsame hchanged
      · have hstored : (repository.cell other).store shader ≠ (repository.cell other, shader) := by
          intro hstore
          exact hchanged (hcell.trans (congrArg Prod.fst hstore))
        refine ⟨hmarker, hempty, rfl, (congrArg Cell.stored hcell).trans ?_⟩
        change ((repository.cell other).store shader).1.stored
          = some (repository.invalid.getD shader)
        rw [hinvalid]
        unfold Cell.store at hstored ⊢
        rw [hempty] at hstored ⊢
        cases hholder : (repository.cell other).holder with
        | none => rfl
        | some task => simp [hholder] at hstored

theorem cacheInvalid_kept (engine : Engine σ β) (repository : Repository σ β) :
    repository.Kept (repository.cacheInvalid engine) := by
  unfold cacheInvalid
  cases hinvalid : repository.invalid with
  | none => exact (cached engine repository repository.indices).kept hinvalid
  | some shader =>
      exact ⟨rfl, rfl, rfl, rfl, fun _ => rfl, fun _ hchanged => absurd rfl hchanged⟩

end ShaderMend.Repository
