import ShaderMend.Proofs.Session.History

/-!
# Who changes the scene

The shaders of the materials are changed by repairs, and by requests to assign one. The layout
by which the memory of shaders is read stays as it is.

* `Task.sameScene_start`, `Task.sameScene_resume`, `Task.sameScene_drop` — all other work leaves
  the scene alone.
* `Session.scene_move` — so does every move that is not a piece of work of a repair, or an
  assignment.
-/

namespace ShaderMend

variable {σ β : Type}

/-- Whether a world shows the same as another: the same shaders, read by the same layout. -/
structure World.SameScene (before after : World σ β) : Prop where
  materials : after.materials = before.materials
  layout : after.layout = before.layout

theorem World.SameScene.refl (world : World σ β) : world.SameScene world :=
  ⟨rfl, rfl⟩

/-- What changed before does not matter if it is not part of the scene. -/
theorem World.SameScene.of_eq {world before after : World σ β} (h : before.SameScene after)
    (hmaterials : before.materials = world.materials) (hlayout : before.layout = world.layout) :
    world.SameScene after :=
  ⟨h.materials.trans hmaterials, h.layout.trans hlayout⟩

/-! ### The web phase -/

namespace WebLoad

section Phases

variable (engine : Engine σ β) (task : TaskId) (now : Nat)

theorem sameScene_cacheInvalidFrom (loads : Repository.Loads) (indices : List Nat)
    (world : World σ β) :
    world.SameScene (cacheInvalidFrom engine task now loads indices world).1 := by
  induction indices generalizing world with
  | nil => exact ⟨rfl, rfl⟩
  | cons index rest ih =>
      unfold cacheInvalidFrom
      split
      · exact ih world
      · split
        · exact ⟨rfl, rfl⟩
        · exact ⟨rfl, rfl⟩
        · rename_i repository _ _
          exact (ih { world with repository }).of_eq rfl rfl

theorem sameScene_cacheInvalid (loads : Repository.Loads) (world : World σ β) :
    world.SameScene (cacheInvalid engine task now loads world).1 := by
  unfold cacheInvalid
  split
  · exact ⟨rfl, rfl⟩
  · exact sameScene_cacheInvalidFrom engine task now loads _ world

theorem sameScene_nextArchive (paths : List Path) (loads : Repository.Loads)
    (world : World σ β) :
    world.SameScene (nextArchive engine task now paths loads world).1 := by
  induction paths generalizing loads world with
  | nil => exact sameScene_cacheInvalid engine task now loads world
  | cons path rest ih =>
      unfold nextArchive
      split
      · exact ih _ world
      · split
        · exact ih _ world
        · split
          · exact .refl world
          · exact ⟨rfl, rfl⟩

theorem sameScene_start (thread : Thread) (downloader : Downloader) (world : World σ β) :
    world.SameScene (start thread now downloader world).1 := by
  cases thread with
  | main => exact .refl world
  | other => exact ⟨rfl, rfl⟩

theorem sameScene_resume (world : World σ β) (state : WebLoad β) :
    world.SameScene (state.resume engine task now world).1 := by
  cases state with
  | downloading downloader =>
      show world.SameScene (arrive engine task now downloader world).1
      unfold arrive
      split
      · exact ⟨rfl, rfl⟩
      · generalize downloader.files.foldl _ _ = files
        dsimp only
        split
        · exact ⟨rfl, rfl⟩
        · exact (sameScene_nextArchive engine task now downloader.paths []
            { world with files }).of_eq rfl rfl
  | reserving contents rest loads =>
      unfold resume
      dsimp only
      split
      · exact .refl world
      · split
        · exact sameScene_nextArchive engine task now rest _ world
        · exact ⟨rfl, rfl⟩
  | loading contents rest loads =>
      dsimp only [resume]
      generalize world.repository.register engine contents = registered
      exact (sameScene_nextArchive engine task now rest _
        { world with repository := registered.1.release contents.path }).of_eq rfl rfl
  | caching state rest loads =>
      unfold resume
      dsimp only
      split
      · exact ⟨rfl, rfl⟩
      · exact ⟨rfl, rfl⟩
      · rename_i repository _ _
        exact (sameScene_cacheInvalidFrom engine task now loads rest
          { world with repository }).of_eq rfl rfl

end Phases

end WebLoad

/-! ### Tasks -/

/-- Whether a request can change what materials show. -/
def Request.ChangesScene : Request → Prop
  | .repair _ | .repairSuspending _ | .assign .. => True
  | _ => False

namespace Task

variable (engine : Engine σ β) (task : TaskId) (now : Nat)

theorem sameScene_start (thread : Thread) {request : Request} (h : ¬ request.ChangesScene)
    (world : World σ β) :
    world.SameScene (start engine task now thread request world).1 := by
  cases request with
  | loadWeb directory downloader =>
      simp only [start, startWebLoad]
      split
      · exact ⟨rfl, rfl⟩
      · exact WebLoad.sameScene_start now thread downloader world
  | awaitWeb timeout =>
      simp only [start, startWebWait]
      split <;> exact ⟨rfl, rfl⟩
  | findSuspending query => cases thread <;> exact ⟨rfl, rfl⟩
  | materializeSuspending provider entry => cases thread <;> exact ⟨rfl, rfl⟩
  | repair target => exact absurd trivial h
  | repairSuspending target => exact absurd trivial h
  | assign material shader => exact absurd trivial h
  | saveRecords path =>
      unfold start
      dsimp only
      split <;> exact ⟨rfl, rfl⟩
  | _ => exact ⟨rfl, rfl⟩

theorem sameScene_resume {state : Task β} (h : ∀ run, state ≠ .repair run)
    (world : World σ β) : world.SameScene (state.resume engine task now world).1 := by
  cases state with
  | webLoad directory state => exact WebLoad.sameScene_resume engine task now world state
  | webWait state => exact ⟨rfl, rfl⟩
  | lookup state => exact ⟨rfl, rfl⟩
  | materialization state => exact ⟨rfl, rfl⟩
  | repair run => exact absurd rfl (h run)

theorem sameScene_drop (state : Task β) (world : World σ β) :
    world.SameScene (state.drop task world) := by
  cases state with
  | repair run => cases run <;> exact ⟨rfl, rfl⟩
  | _ => exact ⟨rfl, rfl⟩

end Task

/-! ### Moves -/

/-- Whether an activity is a repair that may use the engine. -/
inductive Activity.Repairs : Activity β → Prop where
  | atOnce (target : Target) : Repairs (.planned .main (.repair target))
  | planned (target : Target) : Repairs (.planned .main (.repairSuspending target))
  | begun (run : Repair.Run β) : Repairs (.begun (.repair run))

/-- Whether an activity is the assignment of a shader to a material. -/
def Activity.Assigns (material : MaterialId) (shader : Shader) (activity : Activity β) : Prop :=
  ∃ thread, activity = .planned thread (.assign material shader)

namespace Session

variable {engine : Engine σ β} {session : Session σ β}

/-- A piece of work that is neither a repair nor an assignment leaves the scene alone. -/
theorem scene_advance (engine : Engine σ β) (session : Session σ β) (running : Running β) :
    session.world.SameScene (session.advance engine running).1 ∨ running.activity.Repairs ∨
      ∃ material shader, running.activity.Assigns material shader ∧
        (session.advance engine running).1
          = { session.world with materials := session.world.materials.assign material shader } := by
  unfold advance
  cases running.activity with
  | planned thread request =>
      by_cases hchanges : request.ChangesScene
      · cases request with
        | repair target =>
            cases thread with
            | main => exact Or.inr (Or.inl (.atOnce target))
            | other => exact Or.inl (.refl _)
        | repairSuspending target =>
            cases thread with
            | main => exact Or.inr (Or.inl (.planned target))
            | other => exact Or.inl (.refl _)
        | assign material shader =>
            exact Or.inr (Or.inr ⟨material, shader, ⟨thread, rfl⟩, rfl⟩)
        | _ => exact hchanges.elim
      · exact Or.inl (Task.sameScene_start engine running.task session.clock thread hchanges _)
  | begun state =>
      cases state with
      | repair run => exact Or.inr (Or.inl (.begun run))
      | _ =>
          refine Or.inl (Task.sameScene_resume engine running.task session.clock ?_ _)
          exact fun run heq => by cases heq

/-- **The scene changes only when a repair takes a piece of work, or a shader is assigned.** -/
theorem scene_move (engine : Engine σ β) (session : Session σ β) (next : Move) :
    session.world.SameScene (session.move engine next).world ∨
      ∃ running, session.activity? running.task = some running ∧ next = .resume running.task ∧
        (running.activity.Repairs ∨
          ∃ material shader, running.activity.Assigns material shader ∧
            (session.move engine next).world
              = { session.world with
                  materials := session.world.materials.assign material shader }) := by
  have hmoved := session.moved engine next
  generalize session.move engine next = after at hmoved
  cases hmoved with
  | @resume running hfound =>
      rw [world_resume]
      rcases scene_advance engine session running with hsame | hchanges
      · exact Or.inl hsame
      · exact Or.inr ⟨running, hfound, rfl, hchanges⟩
  | @drop running hfound =>
      left
      unfold drop
      cases running.activity with
      | planned thread request => exact .refl _
      | begun state => exact Task.sameScene_drop running.task state session.world
  | plan instant thread request => exact Or.inl (.refl _)
  | wait duration => exact Or.inl (.refl _)
  | idle next => exact Or.inl (.refl _)

end Session

end ShaderMend
