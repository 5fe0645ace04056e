import ShaderMend.Proofs.Session.Mending
import ShaderMend.Proofs.Session.Sharing

/-!
# What repairs overwrite

A repair notes at its beginning which shaders it is to replace, and writes to materials later.
Other tasks may have given the materials other shaders by then.

* `Session.supplied_replay` — the invariant: every shader that a material shows was shown at the
  beginning, was made by the engine, or was assigned.
* `Session.overwrites_of_replay` — if the support of a shader object is a fixed fact about it, a
  repair overwrites no shader but the unsupported ones that it found at its beginning.
-/

namespace ShaderMend

variable {σ β : Type}

open Repair (Round Piece Chain planned replacementOf)

/-! ### What materials show -/

theorem Materials.shown_assign {materials : Materials} {material other : MaterialId}
    {shader shown : Shader} (h : (materials.assign material shader).shader? other = some shown) :
    materials.shader? other = some shown ∨ shown = shader := by
  unfold Materials.shader? Materials.assign at *
  by_cases hother : material = other
  · subst hother
    rw [List.getElem?_set_self'] at h
    cases hlist : materials[material]? with
    | none => simp [hlist] at h
    | some former =>
        rw [hlist] at h
        exact Or.inr (Option.some.inj h).symm
  · rw [List.getElem?_set_ne hother] at h
    exact Or.inl h

namespace Repair

theorem Round.shown_after {round : Round σ β} {material : MaterialId} {shader : Shader}
    (h : round.after.materials.shader? material = some shader) :
    round.before.materials.shader? material = some shader ∨ round.successor? = some shader := by
  rw [Round.after, replace_record_eq] at h
  change (round.before.materials.swap round.job.materials
    (round.shader, round.successor?)).shader? material = some shader at h
  unfold Materials.swap at h
  cases hnew : round.successor? with
  | none =>
      rw [hnew] at h
      exact Or.inl h
  | some new =>
      simp only [hnew, Materials.shader?_replace] at h
      split at h
      · exact Or.inr h
      · exact Or.inl h

/-- What holds of the shaders that materials show, and of those that rounds give them, holds all
the way. -/
theorem Chain.shown {P : Shader → Prop} {materials after : Materials} {rounds : List (Round σ β)}
    (h : Chain materials rounds after)
    (hgiven : ∀ round ∈ rounds, ∀ new, round.successor? = some new → P new)
    (hshown : ∀ material shader, materials.shader? material = some shader → P shader) :
    (∀ round ∈ rounds, ∀ material shader,
      round.before.materials.shader? material = some shader → P shader) ∧
    ∀ material shader, after.shader? material = some shader → P shader := by
  induction h with
  | nil => exact ⟨fun _ hmem => (List.not_mem_nil hmem).elim, hshown⟩
  | @cons round rounds after _ ih =>
      have hafter : ∀ material shader,
          round.after.materials.shader? material = some shader → P shader := by
        intro material shader hmaterial
        rcases Round.shown_after hmaterial with hbefore | hnew
        · exact hshown material shader hbefore
        · exact hgiven round List.mem_cons_self shader hnew
      obtain ⟨hrounds, hend⟩ :=
        ih (fun other hmem => hgiven other (List.mem_cons_of_mem _ hmem)) hafter
      refine ⟨?_, hend⟩
      intro other hmem
      rcases List.mem_cons.mp hmem with rfl | hmem
      · exact hshown
      · exact hrounds other hmem

/-- Whether a repair of materials that began in a world may write to a material: it overwrites an
unsupported shader, which one of its materials showed at the beginning, with what the lookup of
the round returned, or else with the invalid shader of the repository. -/
structure Rightful (beginning : World σ β) (materials : List MaterialId) (round : Round σ β)
    (write : Materials.Write) : Prop where
  among : write.material ∈ materials
  shown : round.before.materials.shader? write.material = some write.old
  unsupported : write.old.isSupported beginning.layout = false
  used : ∃ material ∈ materials, ∃ first,
    beginning.materials.shader? material = some first ∧ first.same write.old = true
  given : (∃ replacement, round.result = .ok (some replacement) ∧
      write.new = replacement.shader) ∨
    replacementOf round.result = none ∧ round.before.repository.invalid = some write.new

/-- What a round writes is the replacement that was found, or else the invalid shader. -/
theorem Round.given_of_successor? {round : Round σ β} {new : Shader}
    (h : round.successor? = some new) :
    (∃ replacement, round.result = .ok (some replacement) ∧ new = replacement.shader) ∨
      replacementOf round.result = none ∧ round.before.repository.invalid = some new := by
  unfold Round.successor? Repair.successor? at h
  cases hfound : replacementOf round.result with
  | some replacement =>
      simp only [hfound] at h
      exact Or.inl ⟨replacement, ok_of_replacementOf hfound, (Option.some.inj h).symm⟩
  | none =>
      simp only [hfound] at h
      split at h
      · cases h
      · exact Or.inr ⟨rfl, h⟩

end Repair

namespace Session

variable {engine : Engine σ β} {session : Session σ β}

/-! ### Where shaders come from -/

/-- The shaders that there can be in a session: those that materials show at the beginning, those
that the engine makes, and those that requests assign. -/
inductive Supplied (engine : Engine σ β) (world : World σ β) (moves : List Move) :
    Shader → Prop where
  | shown {material : MaterialId} {shader : Shader}
      (hshown : world.materials.shader? material = some shader) :
      Supplied engine world moves shader
  | made {shader : Shader} (hmakes : engine.Makes shader) : Supplied engine world moves shader
  | assigned {instant : Nat} {thread : Thread} {material : MaterialId} {shader : Shader}
      (hmem : .plan instant thread (.assign material shader) ∈ moves) :
      Supplied engine world moves shader

/-- Whether the support of a shader object is a fixed fact about it. -/
def Fixed (engine : Engine σ β) (world : World σ β) (moves : List Move) : Prop :=
  ∀ first second, Supplied engine world moves first → Supplied engine world moves second →
    first.id = second.id → first.isSupported world.layout = second.isSupported world.layout

theorem Supplied.append {world : World σ β} {moves : List Move} {shader : Shader}
    (h : Supplied engine world moves shader) (more : List Move) :
    Supplied engine world (moves ++ more) shader := by
  cases h with
  | shown hshown => exact .shown hshown
  | made hmakes => exact .made hmakes
  | assigned hmem => exact .assigned (List.mem_append_left _ hmem)

/-- A task that goes on brings no shader of its own. -/
theorem Supplied.of_resume {world : World σ β} {moves : List Move} {task : TaskId}
    {shader : Shader} (h : Supplied engine world (moves ++ [.resume task]) shader) :
    Supplied engine world moves shader := by
  cases h with
  | shown hshown => exact .shown hshown
  | made hmakes => exact .made hmakes
  | assigned hmem =>
      rcases List.mem_append.mp hmem with hmem | hmem
      · exact .assigned hmem
      · cases List.mem_singleton.mp hmem

/-- **What is planned was planned by a move.** -/
theorem exists_plan {world : World σ β} {moves : List Move} {running : Running β}
    (hmem : running ∈ (replay engine moves (fresh world)).running) {thread : Thread}
    {request : Request} (h : running.activity = .planned thread request) :
    ∃ instant, .plan instant thread request ∈ moves := by
  induction moves using List.reverseRecOn with
  | nil => cases hmem
  | append_singleton moves next ih =>
      rw [replay_append] at hmem
      rcases mem_running_move hmem with hmem | ⟨instant, caller, asked, rfl, hplanned⟩
        | ⟨former, state, -, -, hbegun, -⟩
      · obtain ⟨instant, hplan⟩ := ih hmem
        exact ⟨instant, List.mem_append_left _ hplan⟩
      · rw [h] at hplanned
        obtain ⟨rfl, rfl⟩ := Activity.planned.inj hplanned
        exact ⟨instant, List.mem_append_right _ List.mem_cons_self⟩
      · rw [h] at hbegun
        cases hbegun

/-- A piece of work of a repair, as what it does to the scene. -/
theorem exists_chain {world : World σ β} {state : σ} (hfresh : world.repository = .fresh state)
    (moves : List Move) {running : Running β}
    (hfound : (replay engine moves (fresh world)).activity? running.task = some running)
    (hrepairs : running.activity.Repairs) :
    let session := replay engine moves (fresh world)
    let after := session.move engine (.resume running.task)
    Chain session.world.materials (session.roundsOf engine running) after.world.materials ∧
      after.world.layout = session.world.layout ∧
      ∀ round ∈ session.roundsOf engine running, ∀ new, round.successor? = some new →
        engine.Makes new := by
  intro session after
  obtain ⟨beginning, materials, passed, shaders, step, -, -, hpiece, hadvance⟩ :=
    exists_piece (tidy_replay engine hfresh moves) (mending_replay engine hfresh moves) hfound
      hrepairs
  have hworld : after.world = step.1 := by
    show (session.move engine (.resume running.task)).world = step.1
    rw [move_resume hfound, world_resume, hadvance]
    rfl
  rw [hworld]
  exact ⟨hpiece.chain, hpiece.layout, fun round hmem => (hpiece.round round hmem).2.2⟩

/-- **Every shader that a material shows was shown at the beginning, was made by the engine, or
was assigned.** The layout stays. -/
theorem supplied_replay {world : World σ β} {state : σ} (hfresh : world.repository = .fresh state)
    (moves : List Move) :
    (∀ material shader,
      (replay engine moves (fresh world)).world.materials.shader? material = some shader →
        Supplied engine world moves shader) ∧
    (replay engine moves (fresh world)).world.layout = world.layout := by
  induction moves using List.reverseRecOn with
  | nil => exact ⟨fun material shader hshown => .shown hshown, rfl⟩
  | append_singleton moves next ih =>
      obtain ⟨hshown, hlayout⟩ := ih
      have hbefore : ∀ material shader,
          (replay engine moves (fresh world)).world.materials.shader? material = some shader →
            Supplied engine world (moves ++ [next]) shader :=
        fun material shader hmaterial => (hshown material shader hmaterial).append [next]
      rw [replay_append]
      change (∀ material shader, ((replay engine moves (fresh world)).move engine
        next).world.materials.shader? material = some shader → _) ∧
          ((replay engine moves (fresh world)).move engine next).world.layout = _
      rcases scene_move engine (replay engine moves (fresh world)) next with hsame
        | ⟨running, hfound, rfl, hrepairs | ⟨material, shader, ⟨thread, hassigns⟩, hworld⟩⟩
      · rw [hsame.materials, hsame.layout]
        exact ⟨hbefore, hlayout⟩
      · obtain ⟨hchain, hkept, hmade⟩ := exists_chain hfresh moves hfound hrepairs
        refine ⟨(hchain.shown ?_ hbefore).2, hkept.trans hlayout⟩
        exact fun round hmem new hnew => .made (hmade round hmem new hnew)
      · obtain ⟨instant, hplan⟩ := exists_plan (mem_of_activity? hfound) hassigns
        rw [hworld]
        refine ⟨?_, hlayout⟩
        intro material shown hmaterial
        rcases Materials.shown_assign hmaterial with hkept | rfl
        · exact hbefore material shown hkept
        · exact .assigned (List.mem_append_left _ hplan)

/-! ### Overwritten shaders -/

/-- **A repair overwrites unsupported shaders alone**, whatever other tasks do meanwhile. Its
pieces of work write round by round; the moves that are neither such a piece of work nor an
assignment leave all materials alone. -/
theorem overwrites_of_replay (engine : Engine σ β) {world : World σ β} {state : σ}
    (hfresh : world.repository = .fresh state) {moves : List Move}
    (hfixed : Fixed engine world moves) :
    let session := replay engine moves (fresh world)
    (∀ running, session.activity? running.task = some running → running.activity.Repairs →
      ∃ beginning materials passed,
        Began engine (fresh world) (moves ++ [.resume running.task]) running.task beginning
          materials (passed ++ session.roundsOf engine running) ∧
        Chain session.world.materials (session.roundsOf engine running)
          (session.move engine (.resume running.task)).world.materials ∧
        (session.move engine (.resume running.task)).world.materials
          = session.world.materials.writeEach
              ((session.roundsOf engine running).flatMap Round.writes) ∧
        ∀ round ∈ session.roundsOf engine running, ∀ write ∈ round.writes,
          Repair.Rightful beginning.world materials round write) ∧
    ∀ next, session.world.SameScene (session.move engine next).world ∨
      ∃ running, session.activity? running.task = some running ∧ next = .resume running.task ∧
        (running.activity.Repairs ∨
          ∃ material shader, running.activity.Assigns material shader ∧
            (session.move engine next).world
              = { session.world with
                  materials := session.world.materials.assign material shader }) := by
  intro session
  refine ⟨?_, scene_move engine session⟩
  intro running hfound hrepairs
  obtain ⟨beginning, materials, passed, shaders, step, hbegan, hshaders, hpiece, -⟩ :=
    exists_piece (tidy_replay engine hfresh moves) (mending_replay engine hfresh moves) hfound
      hrepairs
  obtain ⟨hchain, -, hmade⟩ := exists_chain hfresh moves hfound hrepairs
  refine ⟨beginning, materials, passed, hbegan, hchain, hchain.writeEach, ?_⟩
  intro round hround write hwrite
  obtain ⟨hamong, hshown, hid, hnew⟩ := Repair.Round.mem_writes hwrite
  obtain ⟨hjob, -, -⟩ := hpiece.round round hround
  -- What the round replaces was found unsupported at the beginning.
  have hplanned : round.shader ∈ planned beginning.world materials := by
    rw [← hshaders]
    exact List.mem_append_right _ (hpiece.mem hround)
  obtain ⟨⟨material, hmaterial, hfirst⟩, hunsupported⟩ :=
    Repair.shown_of_mem_unsupported (Repair.mem_unsupported_of_planned hplanned)
  obtain ⟨earlier, later, former, target, hmoves, rfl, -⟩ := hbegan
  obtain ⟨hsuppliedFirst, hlayout⟩ := supplied_replay hfresh earlier
  have hsupplied : Supplied engine world moves round.shader := by
    have hlong := (hsuppliedFirst material _ hfirst).append (.resume running.task :: later)
    rw [← hmoves] at hlong
    exact hlong.of_resume
  have hold : Supplied engine world moves write.old := by
    refine (hchain.shown ?_ (supplied_replay hfresh moves).1).1 round hround _ _ hshown
    intro other hother new hnew
    exact .made (hmade other hother new hnew)
  constructor
  case among => rwa [hjob] at hamong
  case shown => exact hshown
  case unsupported =>
    rw [hlayout] at hunsupported ⊢
    rw [hfixed write.old round.shader hold hsupplied hid, hunsupported]
  case used => exact ⟨material, hmaterial, round.shader, hfirst, by simp [Shader.same, hid]⟩
  case given => exact Repair.Round.given_of_successor? hnew

/-! ### A repair that waits for its load -/

/-- A world with an archive that is not loaded yet, and a material whose shader cannot stay. -/
def shownWorld : World Engine.Tally Engine.MemoryBundle :=
  { sampleWorld with materials := [some Repair.sampleShader] }

theorem replay_shown :
    replay sampleEngine sampleMoves (fresh shownWorld)
      = { sampleSession with world := { shownWorld with repository := sampleRepository } } :=
  replay_single Bundle.read_sample decode?_sample rfl

/-- The archive is loaded, and then a repair begins to look for a replacement. -/
def mendingMoves : List Move :=
  sampleMoves ++ [.plan 0 .main (.repairSuspending (.listed [0])), .resume 1]

/-- The repair while the engine loads for it. -/
def mendingRun : Running Engine.MemoryBundle :=
  ⟨1, .begun (.repair (.lookingUp ⟨.standard, [0]⟩ Repair.sampleShader [] []
    ⟨⟨⟨0, "x"⟩, "S", .full⟩, .loading ⟨"a"⟩ ⟨⟨"a"⟩, [("x", "S")]⟩ ⟨0, "x"⟩⟩)), .until 0⟩

theorem fixed_shown : Fixed sampleEngine shownWorld mendingMoves := by
  have hcases : ∀ shader, Supplied sampleEngine shownWorld mendingMoves shader →
      shader = Repair.sampleShader ∨ sampleEngine.Makes shader := by
    intro shader hsupplied
    cases hsupplied with
    | @shown material _ hshown =>
        cases material with
        | zero => exact Or.inl (Option.some.inj hshown).symm
        | succ material => cases hshown
    | made hmakes => exact Or.inr hmakes
    | assigned hmem => simp [mendingMoves, sampleMoves] at hmem
  intro first second hfirst hsecond hid
  rcases hcases first hfirst with rfl | hfirst
  · rcases hcases second hsecond with rfl | hsecond
    · rfl
    · obtain ⟨-, index, hcreated⟩ := Repair.knownSupport_of_makes hsecond
      rw [hcreated] at hid
      cases hid
  · obtain ⟨hsupport, index, hcreated⟩ := Repair.knownSupport_of_makes hfirst
    rcases hcases second hsecond with rfl | hsecond
    · rw [hcreated] at hid
      cases hid
    · simp [Shader.isSupported, hsupport, (Repair.knownSupport_of_makes hsecond).1]

theorem activity?_mending :
    (replay sampleEngine mendingMoves (fresh shownWorld)).activity? mendingRun.task
      = some mendingRun := by
  rw [mendingMoves, replay_append, replay_shown]
  rfl

theorem overwrites_of_sample :
    (shownWorld.repository = .fresh ⟨0, 0⟩ ∧ Fixed sampleEngine shownWorld mendingMoves) ∧
    ∃ beginning materials passed,
      Began sampleEngine (fresh shownWorld) (mendingMoves ++ [.resume mendingRun.task])
        mendingRun.task beginning materials passed ∧
      ∃ round ∈ passed, ⟨0, Repair.sampleShader, createdShader 0⟩ ∈ round.writes ∧
        Repair.Rightful beginning.world materials round
          ⟨0, Repair.sampleShader, createdShader 0⟩ := by
  have hfresh : shownWorld.repository = .fresh ⟨0, 0⟩ := rfl
  obtain ⟨hrepairs, -⟩ := overwrites_of_replay sampleEngine hfresh fixed_shown
  obtain ⟨beginning, materials, passed, hbegan, -, -, hwrites⟩ :=
    hrepairs mendingRun activity?_mending (.begun _)
  have hround : ∃ round ∈ (replay sampleEngine mendingMoves (fresh shownWorld)).roundsOf
      sampleEngine mendingRun, ⟨0, Repair.sampleShader, createdShader 0⟩ ∈ round.writes := by
    rw [mendingMoves, replay_append, replay_shown]
    exact ⟨_, List.mem_cons_self, List.mem_cons_self⟩
  obtain ⟨round, hmem, hwrite⟩ := hround
  exact ⟨⟨hfresh, fixed_shown⟩, beginning, materials, _, hbegan, round,
    List.mem_append_right _ hmem, hwrite, hwrites round hmem _ hwrite⟩

end Session

end ShaderMend
