import ShaderMend.Proofs.Repository.Undisturbed
import ShaderMend.Proofs.Session.Overwriting

/-!
# Repairs that block and repairs that do not

A repair that does not block searches with other code than one that blocks, and it waits: for
the web phase, and whenever the engine loads. If the web phase is over and no other task goes
on, both come to the same world and the same result.

* `Repair.Run.comes_next` — by induction on the shaders to replace, one search each.
* `Session.agreement_of_replay` — repairs and searches, in every session.
-/

namespace ShaderMend

variable {σ β : Type}

namespace Repair.Run

variable {engine : Engine σ β} {world : World σ β}

/-- What follows the search for one of the shaders of a repair. -/
def settled (engine : Engine σ β) (task : TaskId) (job : Job) (shader : Shader)
    (rest : List Shader) (missing : List String) (world : World σ β) (now : Nat)
    (repository : Repository σ β) (result : Lookup.Result) : World σ β × Progress (Run β) Result :=
  match settle result with
  | .error error => ({ world with repository }, .done (.error error))
  | .ok replacement =>
      next engine task now job rest (missingAfter shader replacement missing)
        (replace job shader replacement
          (record job shader replacement { world with repository }))

theorem next_cons (engine : Engine σ β) (task : TaskId) (now : Nat) (job : Job)
    (shader : Shader) (rest : List Shader) (missing : List String) (world : World σ β) :
    next engine task now job (shader :: rest) missing world
      = followedBy (fun repository => { world with repository })
          (lookingUp job shader rest missing)
          (settled engine task job shader rest missing world now)
          (Lookup.start engine task now shader.query world.repository) := by
  simp only [next]
  rcases Lookup.start engine task now shader.query world.repository with
    ⟨repository, ⟨lookup, pause⟩ | result⟩ <;> rfl

theorem resume_lookingUp (engine : Engine σ β) (task : TaskId) (now : Nat) (job : Job)
    (shader : Shader) (rest : List Shader) (missing : List String) (world : World σ β)
    (repository : Repository σ β) (lookup : Lookup β) :
    resume engine task now { world with repository } (lookingUp job shader rest missing lookup)
      = followedBy (fun repository => { world with repository })
          (lookingUp job shader rest missing)
          (settled engine task job shader rest missing world now)
          (lookup.resume engine task now repository) := by
  simp only [resume]
  rcases lookup.resume engine task now repository with
    ⟨after, ⟨lookup, pause⟩ | result⟩ <;> rfl

/-- **Shaders are replaced as they are at once**, in a world whose repository is at rest. -/
theorem comes_next (job : Job) (shaders : List Shader) (missing : List String)
    (h : world.repository.AtRest engine) (task : TaskId) (now : Nat) :
    Comes (fun now world (run : Run β) => run.resume engine task now world)
      (replaceAll engine job shaders missing world).1
      (replaceAll engine job shaders missing world).2 shaders.length
      (next engine task now job shaders missing world) := by
  induction shaders generalizing missing world now with
  | nil => exact .done
  | cons shader rest ih =>
      have hrest := h.find shader.query
      have hlookup := h.comes_lookup task now shader.query
      rw [next_cons, List.length_cons, Nat.add_comm]
      refine hlookup.followed (fun later repository lookup => ?_) (fun later => ?_) now
      · exact resume_lookingUp engine task later job shader rest missing world repository lookup
      · simp only [replaceAll, settled, World.withRepository]
        cases settle (world.repository.find engine shader.query).2 with
        | error error => exact .done
        | ok replacement => exact ih _ (by simpa using hrest) later

/-- **A repair that does not block comes to what one that blocks comes to**, if it need not wait
for the web phase. -/
theorem comes_start (h : world.repository.AtRest engine)
    (hdone : world.repository.webDone = true) (task : TaskId) (thread : Thread)
    (materials : List MaterialId) (now : Nat) :
    Comes (fun now world (run : Run β) => run.resume engine task now world)
      (fix engine thread materials world).1 (fix engine thread materials world).2
      (unsupported world materials).length (start engine task now thread materials world) := by
  cases thread with
  | other => exact .done
  | main =>
      by_cases hon : world.config.enableMultiPassRendering
      · have hplan : plan? world materials = none := by simp [plan?, hon]
        simp only [fix, start, hplan]
        exact .done
      · cases hshaders : unsupported world materials with
        | nil =>
            have hplan : plan? world materials = none := by simp [plan?, hshaders]
            simp only [fix, start, hplan]
            exact .done
        | cons first rest =>
            have hplan : plan? world materials
                = some (⟨world.config, materials⟩, first :: rest) := by
              simp [plan?, hon, hshaders]
            simp only [fix, start, hplan, await, WebWait.poll, hdone, if_true,
              World.withRepository]
            exact comes_next ⟨world.config, materials⟩ (first :: rest) [] h task now

end Repair.Run

namespace Session

variable {engine : Engine σ β}

/-- **Requests that block and requests that do not agree.** Let a session leave no task under
way and the web phase over. Then a repair of any materials, and a search for any query, comes
to the same world and the same reply whether it blocks or not: to those of the repair and of
the search that are made at once. -/
theorem agreement_of_replay {world : World σ β} (hstart : ∃ start, world.repository = .fresh start)
    (moves : List Move) (hquiet : (replay engine moves (fresh world)).Quiet)
    (hdone : (replay engine moves (fresh world)).world.repository.webDone = true) :
    let session := replay engine moves (fresh world)
    (∀ thread target,
      let repaired := Repair.fix engine thread (target.materials session.world) session.world
      session.ComesTo engine thread (.repair target) repaired.1 (.repaired repaired.2) ∧
      session.ComesTo engine thread (.repairSuspending target) repaired.1
        (.repaired repaired.2)) ∧
    ∀ thread query,
      let repository := session.world.repository
      let found := Task.guarded thread repository (repository.find engine query)
      session.ComesTo engine thread (.find query) { session.world with repository := found.1 }
        (.found found.2) ∧
      session.ComesTo engine thread (.findSuspending query)
        { session.world with repository := found.1 } (.found found.2) := by
  intro session
  have hnumbered : session.Numbered := numbered_replay engine moves (numbered_fresh world)
  have hrest : session.world.repository.AtRest engine :=
    Repository.atRest_of_reachable ⟨world, moves, hstart, hquiet, rfl⟩
  refine ⟨fun thread target => ⟨?_, ?_⟩, fun thread query => ⟨?_, ?_⟩⟩
  · exact comesTo_of_done hnumbered fun now => rfl
  · have hrun := Repair.Run.comes_start hrest hdone session.nextTask thread
      (target.materials session.world)
    exact comesTo_of_comes hnumbered fun now =>
      (hrun now).within id Reply.repaired fun _ _ _ => rfl
  · exact comesTo_of_done hnumbered fun now => rfl
  · cases thread with
    | other => exact comesTo_of_done hnumbered fun now => rfl
    | main =>
        have hlookup := fun now => hrest.comes_lookup session.nextTask now query
        exact comesTo_of_comes hnumbered fun now =>
          (hlookup now).within (fun repository => { session.world with repository }) Reply.found
            fun _ _ _ => rfl

theorem agreement_of_sample :
    let session := replay sampleEngine sampleMoves (fresh shownWorld)
    (shownWorld.repository = .fresh ⟨0, 0⟩ ∧ session.Quiet ∧
      session.world.repository.webDone = true) ∧
    ∃ world, world.materials.shader? 0 = some (createdShader 0) ∧
      session.ComesTo sampleEngine .main (.repair (.listed [0])) world
        (.repaired (.ok ⟨true, []⟩)) ∧
      session.ComesTo sampleEngine .main (.repairSuspending (.listed [0])) world
        (.repaired (.ok ⟨true, []⟩)) := by
  have hquiet : (replay sampleEngine sampleMoves (fresh shownWorld)).Quiet := by
    rw [replay_shown]
    intro running hmem
    cases hmem
  have hdone : (replay sampleEngine sampleMoves (fresh shownWorld)).world.repository.webDone
      = true := by
    rw [replay_shown]
    rfl
  have hreply : (Repair.fix sampleEngine .main [0]
      (replay sampleEngine sampleMoves (fresh shownWorld)).world).2 = .ok ⟨true, []⟩ := by
    rw [replay_shown]
    rfl
  have hagree := (agreement_of_replay ⟨⟨0, 0⟩, rfl⟩ sampleMoves hquiet hdone).1 .main (.listed [0])
  simp only [Target.materials, hreply] at hagree
  refine ⟨⟨rfl, hquiet, hdone⟩, _, ?_, hagree⟩
  rw [replay_shown]
  rfl

end Session

end ShaderMend
