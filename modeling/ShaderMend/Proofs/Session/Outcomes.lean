import ShaderMend.Proofs.Repair.Missing
import ShaderMend.Proofs.Session.Completion
import ShaderMend.Proofs.Session.Overwriting

/-!
# What comes of repairs

A repair on the main thread never fails. What its lookups can miss is an asset, and that is the
matter of one shader.

* `Session.bound_replay` — all manifests have their bundles, and lookups miss nothing but assets.
* `Session.reports_of_ending` — a repair that ends reports the names without replacement.
* `Repair.isolates` — a missing asset changes nothing for the other shaders.
* `Session.repairs_of_replay` — all of this, and that repairs end; and that those that are not on
  the main thread are refused.
-/

namespace ShaderMend

variable {σ β : Type}

open Repair (planned reported results roundsOfFix)

/-- Whether a shader cannot be had because its bundle lacks the asset. -/
inductive RepositoryError.Misses : RepositoryError → Prop where
  | asset (archive : Path) (assetPath : String) : Misses (.assetNotFound archive assetPath)

theorem Lookup.Led.misses {engine : Engine σ β} {after : Repository σ β} {error : RepositoryError}
    (h : Lookup.Led engine after (.done (.error error))) : error.Misses := by
  cases h
  exact .asset _ _

namespace Repair

/-! ### Missing assets -/

/-- Whether a missing asset is the matter of one shader: the other searches come to what they
come to without it. After a lookup that does not block all searches come to what they came to
before; and lookups for another entry begin in the same way. -/
structure Isolates (engine : Engine σ β) (world : World σ β) : Prop where
  atOnce : ∀ materials before shader error after,
    results (roundsOfFix engine .main materials world)
        = before ++ (shader, .error error) :: after →
      (world.repository.findEach engine (before.map Prod.fst ++ after.map Prod.fst)).2
        = before ++ after
  searches : ∀ task now (lookup : Lookup β) archive assetPath,
    (lookup.resume engine task now world.repository).2
        = .done (.error (.assetNotFound archive assetPath)) →
      ∀ query, ((lookup.resume engine task now world.repository).1.find engine query).2
        = (world.repository.find engine query).2
  lookups : ∀ task now (lookup : Lookup β) archive assetPath,
    (lookup.resume engine task now world.repository).2
        = .done (.error (.assetNotFound archive assetPath)) →
      ∀ other later query,
        (∀ candidate, world.repository.closest? query = some candidate →
          candidate.entry ≠ lookup.materialization.entry) →
        (Lookup.start engine other later query
            (lookup.resume engine task now world.repository).1).2
          = (Lookup.start engine other later query world.repository).2

/-- **A missing asset changes nothing for the other shaders**, if a load that fails changes none
of the engine's answers. -/
theorem isolates {engine : Engine σ β} {alike : σ → σ → Prop} (hsteady : engine.Steady alike)
    {world : World σ β} {holds : TaskId → Hold} (h : Tidy engine world.repository holds)
    (hfree : ∃ task, holds task = .nothing) : Isolates engine world where
  atOnce materials before shader error after hresults := by
    rw [results_roundsOfFix h hfree] at hresults
    exact Repository.findEach_of_missing hsteady hresults
  searches task now lookup archive assetPath hmissing := by
    intro query
    have hmissing := Repository.error_of_resume hmissing
    obtain ⟨halike, -⟩ := Repository.alike_of_resume hsteady hmissing
    exact halike.find_eq hsteady query
  lookups task now lookup archive assetPath hmissing := by
    intro other later query hapart
    have hmissing := Repository.error_of_resume hmissing
    obtain ⟨halike, hcell⟩ := Repository.alike_of_resume hsteady hmissing
    apply Repository.snd_start_of_cell engine other later halike.declared
    intro candidate hclosest
    exact hcell candidate.entry (hapart candidate hclosest)

end Repair

namespace Session

variable {engine : Engine σ β} {world : World σ β} {state : σ} {moves : List Move}

/-! ### Bundles -/

/-- Whether the manifests of a session have their bundles, so that its lookups miss nothing but
assets, at once or in pieces. -/
structure Bound (engine : Engine σ β) (session : Session σ β) : Prop where
  manifests : ∀ manifest ∈ session.world.repository.manifests, manifest.bundle.isSome
  atOnce : ∀ query error, (session.world.repository.find engine query).2 = .error error →
    error.Misses
  begins : ∀ task now query error,
    (Lookup.start engine task now query session.world.repository).2 = .done (.error error) →
      error.Misses
  goesOn : ∀ running job shader rest missing lookup now error,
    session.activity? running.task = some running →
      running.activity = .begun (.repair (.lookingUp job shader rest missing lookup)) →
        (Lookup.resume engine running.task now lookup session.world.repository).2
            = .done (.error error) →
          error.Misses

/-- **Every manifest has its bundle**, whatever happens. -/
theorem bound_replay (engine : Engine σ β) (hfresh : world.repository = .fresh state)
    (moves : List Move) : (replay engine moves (fresh world)).Bound engine where
  manifests manifest hmem := by
    have hbound := (tidy_replay engine hfresh moves).bound
    exact hbound manifest.unfilled (List.mem_map_of_mem hmem)
  atOnce query error herror := by
    obtain ⟨archive, assetPath, rfl⟩ := (tidy_replay engine hfresh moves).error_of_find herror
    exact .asset archive assetPath
  begins task now query error herror := by
    have hled := Lookup.led_start task now (tidy_replay engine hfresh moves) query
    rw [herror] at hled
    exact hled.misses
  goesOn running job shader rest missing lookup now error hfound hactivity herror := by
    obtain ⟨hfit, -⟩ := mending_replay engine hfresh moves running.task running _ hfound hactivity
    have hled := Lookup.led_resume running.task now (tidy_replay engine hfresh moves) hfit
    rw [herror] at hled
    exact hled.misses

/-! ### Reports -/

/-- Whether a task that ends reports what its repair came to: all shaders that it planned had
their rounds, and the names without replacement are reported. -/
def Reports (engine : Engine σ β) (start : Session σ β) (moves : List Move)
    (ending : Ending σ β) : Prop :=
  ∃ earlier later beginning materials rounds,
    moves = earlier ++ .resume ending.running.task :: later ∧
    Began engine start (earlier ++ [.resume ending.running.task]) ending.running.task beginning
      materials rounds ∧
    rounds.map Repair.Round.shader = planned beginning.world materials ∧
    ending.reply = .repaired (.ok (.ofMissing (reported rounds)))

/-- **A repair that ends reports the names without replacement.** -/
theorem reports_of_ending (hfresh : world.repository = .fresh state) {ending : Ending σ β}
    (hmem : ending ∈ endings engine moves (fresh world))
    (hrepairs : ending.running.activity.Repairs) : Reports engine (fresh world) moves ending := by
  obtain ⟨earlier, later, hmoves, hbefore, hfound, hstep, -⟩ := mem_endings hmem
  rw [hbefore] at hfound hstep
  obtain ⟨beginning, materials, passed, shaders, step, hbegan, hshaders, hpiece, hadvance⟩ :=
    exists_piece (tidy_replay engine hfresh earlier) (mending_replay engine hfresh earlier) hfound
      hrepairs
  rw [hadvance] at hstep
  obtain ⟨result, hdone, hreply⟩ := Task.done_of_step hstep
  obtain ⟨hrounds, rfl⟩ := hpiece.ends result hdone
  refine ⟨earlier, later, beginning, materials, _, hmoves, hbegan, ?_, ?_⟩
  · rw [List.map_append, hrounds, hshaders]
  · rw [hreply, ← Repair.namesAfter_eq, Repair.namesAfter_append]

theorem mem_endings_upTo {schedule : Nat → Move} {start : Session σ β} {later : Nat}
    {ending : Ending σ β}
    (h : ending ∈ endingsOf engine (upTo engine schedule start later) (schedule later)) :
    ending ∈ endings engine ((List.range (later + 1)).map schedule) start := by
  rw [List.range_succ, List.map_append]
  exact mem_collect_iff.mpr ⟨_, _, [], rfl, h⟩

/-- **Under a fair schedule a repair under way ends with a report**, unless it is dropped. -/
theorem reports_of_fair (hfresh : world.repository = .fresh state) {schedule : Nat → Move}
    {count : Nat} (hfair : Fair engine schedule (fresh world))
    (hnamed : ∀ count, (upTo engine schedule (fresh world) count).Named (schedule count))
    {running : Running β}
    (hfound : (upTo engine schedule (fresh world) count).activity? running.task = some running)
    (hrepairs : running.activity.Repairs)
    (hkept : ∀ later, count ≤ later → schedule later ≠ .drop running.task) :
    ∃ later, ∃ ending ∈ endings engine ((List.range later).map schedule) (fresh world),
      ending.running.task = running.task ∧
        Reports engine (fresh world) ((List.range later).map schedule) ending := by
  have horderly := orderly_upTo engine hfresh hnamed
  obtain ⟨later, -, ending, hends, htask, hlast⟩ :=
    hfair.repair_ends horderly hfound hrepairs hkept
  have hmem := mem_endings_upTo hends
  exact ⟨later + 1, ending, hmem, htask, reports_of_ending hfresh hmem hlast⟩

/-- **A repair at once reports** what its searches found no replacement for. -/
theorem reports_of_fix (engine : Engine σ β) (hfresh : world.repository = .fresh state)
    (moves : List Move) (materials : List MaterialId) :
    let now := (replay engine moves (fresh world)).world
    (Repair.fix engine .main materials now).2
        = .ok (.ofMissing (reported (roundsOfFix engine .main materials now))) ∧
      results (roundsOfFix engine .main materials now)
        = (now.repository.findEach engine (planned now materials)).2 := by
  intro now
  have htidy : Tidy engine now.repository (replay engine moves (fresh world)).holds :=
    tidy_replay engine hfresh moves
  have hfree : ∃ task, (replay engine moves (fresh world)).holds task = .nothing :=
    ⟨_, (numbered_replay engine moves (numbered_fresh world)).holds_nextTask⟩
  have hpiece : Repair.Piece engine _ (planned now materials) [] now _ _ :=
    Repair.fix_piece htidy hfree
  obtain ⟨-, hresult⟩ := hpiece.ends _ rfl
  rw [Repair.namesAfter_eq] at hresult
  exact ⟨hresult, Repair.results_roundsOfFix htidy hfree⟩

/-- **Off the main thread a repair is refused** and changes nothing. -/
theorem refused_of_other (engine : Engine σ β) (session : Session σ β) {running : Running β}
    {target : Target} (h : running.activity = .planned .other (.repair target) ∨
      running.activity = .planned .other (.repairSuspending target)) :
    session.advance engine running
      = (session.world, .done (.repaired (.error .notMainThread))) := by
  unfold advance
  rcases h with hactivity | hactivity
  · rw [hactivity]
    rfl
  · rw [hactivity]
    rfl

/-- **Repairs on the main thread end with a report, and others are refused.** After any row of
moves in a session that began with a fresh repository:

* every manifest has its bundle, and lookups miss nothing but assets;
* a repair at once reports the names of the shaders that its searches found no replacement for;
* a repair that ended has reported so;
* one that goes on ends under every fair schedule, unless it is dropped, if whoever asks for the
  shader of an entry names one that is there;
* a missing asset changes nothing for the other shaders, if a load that fails changes none of the
  engine's answers;
* off the main thread a repair is refused and changes nothing. -/
theorem repairs_of_replay (engine : Engine σ β) {world : World σ β} {state : σ}
    (hfresh : world.repository = .fresh state) (moves : List Move) :
    let session := replay engine moves (fresh world)
    session.Bound engine ∧
    (∀ target : Target,
      let materials := target.materials session.world
      let rounds := roundsOfFix engine .main materials session.world
      (Repair.fix engine .main materials session.world).2 = .ok (.ofMissing (reported rounds)) ∧
        results rounds
          = (session.world.repository.findEach engine (planned session.world materials)).2) ∧
    (∀ ending ∈ endings engine moves (fresh world), ending.running.activity.Repairs →
      Reports engine (fresh world) moves ending) ∧
    (∀ schedule : Nat → Move, (List.range moves.length).map schedule = moves →
      Fair engine schedule (fresh world) →
      (∀ count, (upTo engine schedule (fresh world) count).Named (schedule count)) →
      ∀ running, session.activity? running.task = some running → running.activity.Repairs →
        (∀ later, moves.length ≤ later → schedule later ≠ .drop running.task) →
        ∃ later, ∃ ending ∈ endings engine ((List.range later).map schedule) (fresh world),
          ending.running.task = running.task ∧
            Reports engine (fresh world) ((List.range later).map schedule) ending) ∧
    (∀ alike, engine.Steady alike → Repair.Isolates engine session.world) ∧
    ∀ running target, (running.activity = .planned .other (.repair target) ∨
        running.activity = .planned .other (.repairSuspending target)) →
      session.advance engine running
        = (session.world, .done (.repaired (.error .notMainThread))) := by
  intro session
  refine ⟨bound_replay engine hfresh moves, ?_, ?_, ?_, ?_, ?_⟩
  · intro target
    exact reports_of_fix engine hfresh moves (target.materials session.world)
  · intro ending hmem hrepairs
    exact reports_of_ending hfresh hmem hrepairs
  · intro schedule hmoves hfair hnamed running hfound hrepairs hkept
    have hupTo : upTo engine schedule (fresh world) moves.length = session := by
      rw [upTo, hmoves]
    rw [← hupTo] at hfound
    exact reports_of_fair hfresh hfair hnamed hfound hrepairs hkept
  · intro alike hsteady
    apply Repair.isolates hsteady (tidy_replay engine hfresh moves)
    exact ⟨_, (numbered_replay engine moves (numbered_fresh world)).holds_nextTask⟩
  · intro running target hother
    exact refused_of_other engine session hother

/-! ### A repair that waits for its load -/

theorem steady_sample : sampleEngine.Steady Eq where
  refl _ := rfl
  answer h _ _ := by rw [h]
  next h _ _ := by rw [h]
  failed tally bundle assetPath hfailed := by
    change (Engine.Tally.loadShader tally bundle assetPath).2 = none at hfailed
    change (Engine.Tally.loadShader tally bundle assetPath).1 = tally
    unfold Engine.Tally.loadShader at hfailed ⊢
    cases hname : Payload.name? bundle.assets assetPath with
    | none => rfl
    | some name =>
        rw [hname] at hfailed
        cases hfailed

theorem named_mending (count : Nat) :
    (upTo sampleEngine (inTurn mendingMoves) (fresh shownWorld) count).Named
      (inTurn mendingMoves count) := by
  apply named_upTo
  intro count instant provider entry
  apply inTurn_ne
  · simp [mendingMoves, sampleMoves]
  · exact fun heq => by cases heq
  · exact fun task heq => by cases heq

theorem inTurn_mending_ne_drop (count : Nat) (task : TaskId) :
    inTurn mendingMoves count ≠ .drop task := by
  apply inTurn_ne
  · simp [mendingMoves, sampleMoves]
  · exact fun heq => by cases heq
  · exact fun task heq => by cases heq

theorem repairs_of_shown :
    shownWorld.repository = .fresh ⟨0, 0⟩ ∧
    Repair.Isolates sampleEngine (replay sampleEngine mendingMoves (fresh shownWorld)).world ∧
    ∃ schedule : Nat → Move, (List.range mendingMoves.length).map schedule = mendingMoves ∧
      Fair sampleEngine schedule (fresh shownWorld) ∧
      (∀ count, (upTo sampleEngine schedule (fresh shownWorld) count).Named (schedule count)) ∧
      ∃ later, ∃ ending ∈ endings sampleEngine ((List.range later).map schedule)
          (fresh shownWorld),
        ending.running.task = mendingRun.task ∧
          Reports sampleEngine (fresh shownWorld) ((List.range later).map schedule) ending := by
  have hfresh : shownWorld.repository = .fresh ⟨0, 0⟩ := rfl
  obtain ⟨-, -, -, hends, hisolates, -⟩ := repairs_of_replay sampleEngine hfresh mendingMoves
  refine ⟨hfresh, hisolates Eq steady_sample, inTurn mendingMoves, map_inTurn mendingMoves,
    fair_inTurn sampleEngine mendingMoves _, named_mending, ?_⟩
  apply hends (inTurn mendingMoves) (map_inTurn mendingMoves)
  · exact fair_inTurn sampleEngine mendingMoves _
  · exact named_mending
  · exact activity?_mending
  · exact .begun _
  · exact fun later _ => inTurn_mending_ne_drop later mendingRun.task

end Session

end ShaderMend
