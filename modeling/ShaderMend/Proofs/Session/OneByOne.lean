import ShaderMend.Proofs.Session.History
import ShaderMend.Proofs.Session.Phases

/-!
# Requests one by one

Requests that are carried out one after the other, each to its end before the next is made, do
what they do at once, whether they block or not.

* `World.after` — what a request does to the world when nothing else happens.
* `Session.Serves.world_eq` — in a session in which nothing is under way a request does this.
-/

namespace ShaderMend

variable {σ β : Type}

/-! ### What a request does -/

/-- Whether a request is a phase of loading, a search or a load of a shader, or one that does
not use the repository. -/
def Request.IsPlain : Request → Prop
  | .awaitWeb _ | .completeWeb | .repair _ | .repairSuspending _ => False
  | _ => True

namespace World

/-- The world after a web phase in which nothing else happens. -/
def afterWeb (engine : Engine σ β) (directory : Option Path) (downloader : Downloader)
    (world : World σ β) : World σ β :=
  if directory.isNone ∧ !world.config.downloadNewBundles ∨ downloader.fails then
    { world with repository := world.repository.completeWeb }
  else
    let files := downloader.files.foldl (fun files file => files.add file.1 file.2) world.files
    if downloader.paths.isEmpty then
      { world with files, repository := world.repository.completeWeb }
    else
      let loaded := (Repository.loadArchives engine files downloader.paths world.repository).1
      { world with files, repository := (loaded.cacheInvalid engine).completeWeb }

/-- The world after a request from the main thread, when nothing else happens. -/
def after (engine : Engine σ β) (request : Request) (world : World σ β) : World σ β :=
  match request with
  | .loadWeb directory downloader => world.afterWeb engine directory downloader
  | .findSuspending query =>
      { world with repository := (world.repository.find engine query).1 }
  | .materializeSuspending provider entry =>
      { world with
        repository := (world.repository.materialize engine (provider.source world) entry).1 }
  | request => (Task.start engine 0 0 .main request world).1

end World

section Alone

variable {engine : Engine σ β} {world : World σ β}

/-- **A web phase that is left alone** does what it does at once. -/
theorem comes_loadWeb (hrest : world.repository.AtRest engine)
    (hfree : world.repository.inFlight = []) (task : TaskId) (directory : Option Path)
    (downloader : Downloader) :
    ∃ reply turns, ∀ now, Comes (fun now world (state : Task β) =>
        state.resume engine task now world) (world.afterWeb engine directory downloader) reply turns
      (Task.start engine task now .main (.loadWeb directory downloader) world) := by
  by_cases hskips : directory.isNone ∧ !world.config.downloadNewBundles
  · refine ⟨.webLoaded (.ok 0) none, 0, fun now => ?_⟩
    simp only [Task.start, Task.startWebLoad, World.afterWeb, hskips, and_self, true_or, if_true]
    exact .done
  · -- The phase pauses for the download, and all that follows is done when it arrives.
    have harrives : ∃ reply turns, ∀ now, Comes
        (fun now world (state : WebLoad β) => state.resume engine task now world)
        (world.afterWeb engine directory downloader) reply turns
        (WebLoad.arrive engine task now downloader world) := by
      simp only [World.afterWeb, hskips, false_or, WebLoad.arrive]
      cases hfails : downloader.fails with
      | true => exact ⟨_, 0, fun _ => .done⟩
      | false =>
          cases hpaths : downloader.paths.isEmpty with
          | true => exact ⟨_, 0, fun _ => .done⟩
          | false =>
              let files := downloader.files.foldl (fun files file => files.add file.1 file.2)
                world.files
              obtain ⟨turns, hnext⟩ := @WebLoad.comes_nextArchive _ _ engine { world with files }
                downloader.paths [] hrest hfree task
              exact ⟨_, turns, hnext⟩
    obtain ⟨reply, turns, harrives⟩ := harrives
    have hrun : ∀ now, Comes
        (fun now world (state : WebLoad β) => state.resume engine task now world)
        (world.afterWeb engine directory downloader) reply (turns + 1)
        (WebLoad.start .main now downloader world) := fun now => .paused fun later => harrives later
    let target := directory.getD world.config.bundleDirectory
    refine ⟨.webLoaded reply (some target), turns + 1, fun now => ?_⟩
    simp only [Task.start, Task.startWebLoad, hskips]
    exact (hrun now).within id (Reply.webLoaded · (some target)) fun _ _ _ => rfl

/-- **A request that is left alone** does what it does at once. -/
theorem comes_request (hrest : world.repository.AtRest engine)
    (hfree : world.repository.inFlight = []) (task : TaskId) {request : Request}
    (hplain : request.IsPlain) :
    ∃ reply turns, ∀ now, Comes (fun now world (state : Task β) =>
        state.resume engine task now world) (world.after engine request) reply turns
      (Task.start engine task now .main request world) := by
  cases request with
  | loadWeb directory downloader => exact comes_loadWeb hrest hfree task directory downloader
  | findSuspending query =>
      have hlookup := fun now => hrest.comes_lookup task now query
      exact ⟨_, _, fun now => (hlookup now).within (fun repository => { world with repository })
        Reply.found fun _ _ _ => rfl⟩
  | materializeSuspending provider entry =>
      have hload := fun now => hrest.comes_start task now (provider.source world) entry
      exact ⟨_, _, fun now => (hload now).within (fun repository => { world with repository })
        Reply.materialized fun _ _ _ => rfl⟩
  | saveRecords path =>
      simp only [World.after, Task.start]
      cases world.files.write path (Bytes.ofText (Diagnostics.text world.records)) with
      | ok files => exact ⟨_, 0, fun _ => .done⟩
      | error error => exact ⟨_, 0, fun _ => .done⟩
  | awaitWeb | completeWeb | repair | repairSuspending => exact hplain.elim
  | _ => exact ⟨_, 0, fun _ => .done⟩

end Alone

namespace Session

variable {engine : Engine σ β}

/-- Whether a session goes on to another one by a request from the main thread that is carried
out to its end while nothing else happens. -/
def Serves (engine : Engine σ β) (request : Request) (before after : Session σ β) : Prop :=
  ∃ moves, LeftTo before.nextTask moves ∧
    after = replay engine moves (before.plan before.clock .main request) ∧ after.running = []

/-- Whether a session goes on to another one by requests of a kind, one after the other. -/
def OneByOne (engine : Engine σ β) (kind : Request → Prop) :
    Session σ β → Session σ β → Prop :=
  Relation.ReflTransGen fun before after =>
    ∃ request, kind request ∧ Serves engine request before after

theorem OneByOne.mono {kind other : Request → Prop}
    (hkinds : ∀ request, kind request → other request) {before after : Session σ β}
    (h : OneByOne engine kind before after) : OneByOne engine other before after :=
  Relation.ReflTransGen.mono
    (fun _ _ ⟨request, hkind, hserves⟩ => ⟨request, hkinds request hkind, hserves⟩) _ _ h

/-- Sessions that requests lead to one by one. -/
theorem OneByOne.replayed {kind : Request → Prop} {before after : Session σ β}
    (h : OneByOne engine kind before after) (hidle : before.running = []) :
    (∃ moves, after = replay engine moves before) ∧ after.running = [] := by
  induction h with
  | refl => exact ⟨⟨[], rfl⟩, hidle⟩
  | tail _ hstep ih =>
      obtain ⟨⟨earlier, rfl⟩, -⟩ := ih
      obtain ⟨request, -, moves, -, rfl, hended⟩ := hstep
      refine ⟨⟨earlier ++ .plan (replay engine earlier before).clock .main request :: moves, ?_⟩,
        hended⟩
      rw [replay_append]
      rfl

/-- **A request that is carried out to its end while nothing else happens** does what it does at
once, whenever its task took its turns. -/
theorem Serves.world_eq {request : Request} {before after : Session σ β}
    (h : Serves engine request before after) (hplain : request.IsPlain)
    (hnumbered : before.Numbered) (hrest : before.world.repository.AtRest engine)
    (hfree : before.world.repository.inFlight = []) :
    after.world = before.world.after engine request := by
  obtain ⟨moves, hmoves, rfl, hended⟩ := h
  obtain ⟨reply, turns, hcomes⟩ := comes_request hrest hfree before.nextTask hplain
  obtain ⟨enough, hcomesTo⟩ := comesTo_of_comes hnumbered hcomes
  -- More turns of a task that has ended change nothing but the clock.
  let more : List Move := List.replicate enough (.resume before.nextTask)
  have hmore : LeftTo before.nextTask more :=
    fun next hmem => Or.inl (List.eq_of_mem_replicate hmem)
  have hturns : enough ≤ turnsOf before.nextTask (moves ++ more) := by
    simp [turnsOf, more, List.countP_replicate]
  obtain ⟨hworld, -, -⟩ := hcomesTo (moves ++ more)
    (List.forall_mem_append.mpr ⟨hmoves, hmore⟩) hturns
  obtain ⟨clock, hclock⟩ := replay_of_ended engine
    (replay engine moves (before.plan before.clock .main request)) hmore
    (by rw [hended]; exact List.forall_mem_nil _)
  rw [replay_append, hclock] at hworld
  exact hworld

/-- Every request can be carried out to its end. -/
theorem exists_serves {before : Session σ β} (hnumbered : before.Numbered)
    (hrest : before.world.repository.AtRest engine)
    (hfree : before.world.repository.inFlight = []) (hidle : before.running = [])
    {request : Request} (hplain : request.IsPlain) :
    ∃ after, Serves engine request before after := by
  obtain ⟨reply, turns, hcomes⟩ := comes_request hrest hfree before.nextTask hplain
  obtain ⟨enough, hcomesTo⟩ := comesTo_of_comes hnumbered hcomes
  let moves : List Move := List.replicate enough (.resume before.nextTask)
  have hmoves : LeftTo before.nextTask moves :=
    fun next hmem => Or.inl (List.eq_of_mem_replicate hmem)
  have hturns : enough ≤ turnsOf before.nextTask moves := by
    simp [turnsOf, moves, List.countP_replicate]
  exact ⟨_, moves, hmoves, rfl, (hcomesTo moves hmoves hturns).2.1.trans hidle⟩

/-- Where requests were carried out one by one, nothing is under way. -/
theorem OneByOne.idle {kind : Request → Prop} {world : World σ β} {session : Session σ β}
    (hstart : ∃ start, world.repository = .fresh start)
    (h : OneByOne engine kind (fresh world) session) :
    session.Numbered ∧ session.world.repository.AtRest engine ∧
      session.world.repository.inFlight = [] ∧ session.running = [] := by
  obtain ⟨⟨moves, rfl⟩, hended⟩ := h.replayed rfl
  have hquiet : (replay engine moves (fresh world)).Quiet := by
    intro running hmem
    rw [hended] at hmem
    cases hmem
  exact ⟨numbered_replay engine moves (numbered_fresh world),
    Repository.atRest_of_reachable ⟨world, moves, hstart, hquiet, rfl⟩,
    inFlight_of_quiet hstart moves hquiet, hended⟩

end Session

end ShaderMend
