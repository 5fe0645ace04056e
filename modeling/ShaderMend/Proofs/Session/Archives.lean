import ShaderMend.Engine.Memory
import ShaderMend.Proofs.Session.Holdings

/-!
# Archives in a session

Tasks load archives side by side, and archives are loaded at once in between. Each is
added at most once, and its bundle is loaded by at most one task at a time.

* `Act.keeps_guarded` — the invariant: paths in flight are those that tasks hold, and no
  archive that is in flight is loaded yet.
* `Act.keeps_declared` — manifests are only added, at the end.
* `Session.counted_replay` — every archive that was added is counted by one task.
* `Session.archives_of_replay` — what this comes to.
-/

namespace ShaderMend

variable {σ β : Type}

/-! ### Paths -/

namespace Path

theorem same_iff {first second : Path} :
    first.same second = true ↔ first.components = second.components := by
  simp [same]

theorem same_refl (path : Path) : path.same path := same_iff.mpr rfl

theorem same_symm {first second : Path} (h : first.same second) : second.same first :=
  same_iff.mpr (same_iff.mp h).symm

end Path

/-- The path that is reserved by what a task holds. -/
def Hold.path? : Hold → Option Path
  | .reserved contents => some contents.path
  | _ => none

/-- Whether an activity is the load of the bundle of an archive under a reservation. -/
def Running.Loads (running : Running β) (path : Path) : Prop :=
  ∃ directory contents rest loads,
    running.activity = .begun (.webLoad directory (.loading contents rest loads)) ∧
      contents.path = path

theorem Activity.hold_eq_reserved {activity : Activity β} {contents : Bundle.Contents}
    (h : activity.hold = .reserved contents) :
    ∃ directory rest loads,
      activity = .begun (.webLoad directory (.loading contents rest loads)) := by
  have hmaterialization : ∀ state : Materialization β, state.hold ≠ .reserved contents := by
    intro state hstate
    cases state <;> cases hstate
  cases activity with
  | planned thread request => cases h
  | begun state =>
      cases state with
      | webLoad directory state =>
          cases state with
          | loading contents' rest loads =>
              cases h
              exact ⟨directory, rest, loads, rfl⟩
          | caching state rest loads => exact absurd h (hmaterialization state)
          | _ => cases h
      | webWait state => cases h
      | lookup state => exact absurd h (hmaterialization state.materialization)
      | materialization state => exact absurd h (hmaterialization state)
      | repair state =>
          cases state with
          | waiting job shaders wait => cases h
          | lookingUp job shader rest missing lookup =>
              exact absurd h (hmaterialization lookup.materialization)

theorem Hold.path?_eq_some {hold : Hold} {path : Path} (h : hold.path? = some path) :
    ∃ contents, hold = .reserved contents ∧ contents.path = path := by
  cases hold with
  | reserved contents => exact ⟨contents, rfl, Option.some.inj h⟩
  | _ => cases h

theorem Running.loads_iff {running : Running β} {path : Path} :
    running.Loads path ↔ running.activity.hold.path? = some path := by
  constructor
  · rintro ⟨directory, contents, rest, loads, hactivity, rfl⟩
    rw [hactivity]
    rfl
  · intro h
    obtain ⟨contents, hhold, hpath⟩ := Hold.path?_eq_some h
    obtain ⟨directory, rest, loads, hactivity⟩ := Activity.hold_eq_reserved hhold
    exact ⟨directory, contents, rest, loads, hactivity, hpath⟩

/-! ### Reservations -/

namespace Repository

/-- The paths of the archives that are loaded. -/
def paths (repository : Repository σ β) : List Path :=
  repository.manifests.map Manifest.path

theorem isLoaded_iff {repository : Repository σ β} {path : Path} :
    repository.isLoaded path = true ↔ ∃ other ∈ repository.paths, other.same path := by
  simp [isLoaded, paths]

theorem isReserved_iff {repository : Repository σ β} {path : Path} :
    repository.isReserved path = true ↔ ∃ other ∈ repository.inFlight, other.same path := by
  simp [isReserved]

theorem mem_inFlight_release {repository : Repository σ β} {path other : Path} :
    other ∈ (repository.release path).inFlight ↔
      other ∈ repository.inFlight ∧ ¬ other.same path := by
  simp [release]

theorem not_isReserved_release (repository : Repository σ β) (path : Path) :
    ¬ (repository.release path).isReserved path := by
  rw [isReserved_iff]
  rintro ⟨other, hmem, hsame⟩
  exact (mem_inFlight_release.mp hmem).2 hsame

theorem paths_modifyCell (repository : Repository σ β) (id : EntryId) (change : Cell → Cell) :
    (repository.modifyCell id change).paths = repository.paths := by
  have hdeclared := congrArg (List.map Manifest.path) (repository.declared_modifyCell id change)
  simpa [declared, paths, Function.comp_def, Manifest.unfilled] using hdeclared

/-- A load that does not wait passes over an archive that is in flight. -/
theorem loadArchive_of_isReserved {repository : Repository σ β} {path : Path}
    (h : repository.isReserved path) (engine : Engine σ β) (files : FileTree) :
    (repository.loadArchive engine files path).1 = repository ∧
      (repository.loadArchive engine files path).2 ≠ .loaded := by
  unfold loadArchive
  by_cases hloaded : repository.isLoaded path
  · simp [hloaded]
  · cases hread : Bundle.read files path <;> simp [hloaded, h]

end Repository

/-- What keeps archives apart: their paths differ, those in flight are those that tasks
hold, no two tasks hold one, and none of them is loaded yet. -/
structure Guarded (repository : Repository σ β) (holds : TaskId → Hold) : Prop where
  apart : repository.paths.Pairwise fun first second => ¬ first.same second
  held : ∀ path, path ∈ repository.inFlight ↔ ∃ task, (holds task).path? = some path
  inFlight : repository.inFlight.Pairwise fun first second => ¬ first.same second
  sole : ∀ {first second path other}, (holds first).path? = some path →
    (holds second).path? = some other → path.same other → first = second
  fresh : ∀ {task path}, (holds task).path? = some path → ¬ repository.isLoaded path

namespace Guarded

variable {repository after : Repository σ β} {holds holds' : TaskId → Hold}

theorem initial (engine : σ) {holds : TaskId → Hold} (h : ∀ task, holds task = .nothing) :
    Guarded (.fresh engine : Repository σ β) holds where
  apart := List.Pairwise.nil
  held path := by simp [Repository.fresh, h, Hold.path?]
  inFlight := List.Pairwise.nil
  sole hfirst := by simp [h, Hold.path?] at hfirst
  fresh htask := by simp [h, Hold.path?] at htask

/-- Only paths and reservations count. -/
theorem frame (h : Guarded repository holds) (hpaths : after.paths = repository.paths)
    (hinFlight : after.inFlight = repository.inFlight)
    (hholds : ∀ task, (holds' task).path? = (holds task).path?) : Guarded after holds' where
  apart := by
    rw [hpaths]
    exact h.apart
  held path := by
    rw [hinFlight, h.held path]
    exact exists_congr fun task => by rw [hholds]
  inFlight := by
    rw [hinFlight]
    exact h.inFlight
  sole hfirst hsecond hsame := by
    rw [hholds] at hfirst hsecond
    exact h.sole hfirst hsecond hsame
  fresh htask := by
    rw [hholds] at htask
    rw [Repository.isLoaded_iff, hpaths, ← Repository.isLoaded_iff]
    exact h.fresh htask

/-- An archive that is neither loaded nor in flight can be added. -/
theorem append (h : Guarded repository holds) {contents : Bundle.Contents} (bundle : β)
    (hloaded : ¬ repository.isLoaded contents.path)
    (hreserved : ¬ repository.isReserved contents.path) :
    Guarded (repository.append contents bundle) holds := by
  have hpaths : (repository.append contents bundle).paths
      = repository.paths ++ [contents.path] := by
    simp [Repository.append, Repository.paths]
  refine ⟨?_, h.held, h.inFlight, h.sole, fun {task path} htask hafter => ?_⟩
  · rw [hpaths, List.pairwise_append]
    refine ⟨h.apart, List.pairwise_singleton _ _, ?_⟩
    intro first hfirst second hsecond hsame
    rw [List.mem_singleton.mp hsecond] at hsame
    exact hloaded (Repository.isLoaded_iff.mpr ⟨first, hfirst, hsame⟩)
  · obtain ⟨other, hother, hsame⟩ := Repository.isLoaded_iff.mp hafter
    rw [hpaths, List.mem_append] at hother
    rcases hother with hother | hother
    · exact h.fresh htask (Repository.isLoaded_iff.mpr ⟨other, hother, hsame⟩)
    · rw [List.mem_singleton.mp hother] at hsame
      exact hreserved (Repository.isReserved_iff.mpr
        ⟨path, (h.held path).mpr ⟨task, htask⟩, Path.same_symm hsame⟩)

/-- The path of an archive that is neither loaded nor in flight can be reserved. -/
theorem reserve (h : Guarded repository holds) {task : TaskId} {contents : Bundle.Contents}
    (hhold : (holds task).path? = none) (hloaded : ¬ repository.isLoaded contents.path)
    (hreserved : ¬ repository.isReserved contents.path) :
    Guarded (repository.reserve contents.path)
      (Function.update holds task (.reserved contents)) := by
  have hfree : ∀ {other path}, (holds other).path? = some path → ¬ path.same contents.path := by
    intro other path hother hsame
    exact hreserved (Repository.isReserved_iff.mpr ⟨path, (h.held path).mpr ⟨other, hother⟩, hsame⟩)
  have hcases : ∀ {other path},
      (Function.update holds task (.reserved contents) other).path? = some path →
        other = task ∧ path = contents.path ∨ (holds other).path? = some path := by
    intro other path hother
    by_cases htask : other = task
    · subst htask
      rw [Function.update_self] at hother
      exact Or.inl ⟨rfl, (Option.some.inj hother).symm⟩
    · rw [Function.update_of_ne htask] at hother
      exact Or.inr hother
  refine ⟨h.apart, fun path => ?_, ?_, ?_, ?_⟩
  · simp only [Repository.reserve, List.mem_append, List.mem_singleton, h.held]
    constructor
    · rintro (⟨other, hother⟩ | rfl)
      · have hne : other ≠ task := by
          rintro rfl
          simp [hhold] at hother
        exact ⟨other, by rwa [Function.update_of_ne hne]⟩
      · exact ⟨task, by rw [Function.update_self]; rfl⟩
    · rintro ⟨other, hother⟩
      rcases hcases hother with ⟨-, hpath⟩ | hother
      · exact Or.inr hpath
      · exact Or.inl ⟨other, hother⟩
  · simp only [Repository.reserve, List.pairwise_append]
    refine ⟨h.inFlight, List.pairwise_singleton _ _, ?_⟩
    intro first hfirst second hsecond hsame
    rw [List.mem_singleton.mp hsecond] at hsame
    exact hreserved (Repository.isReserved_iff.mpr ⟨first, hfirst, hsame⟩)
  · intro first second path other hfirst hsecond hsame
    rcases hcases hfirst with ⟨htask, rfl⟩ | hothers
    · rcases hcases hsecond with ⟨htask', -⟩ | hothers
      · rw [htask, htask']
      · exact absurd (Path.same_symm hsame) (hfree hothers)
    · rcases hcases hsecond with ⟨-, rfl⟩ | hothers'
      · exact absurd hsame (hfree hothers)
      · exact h.sole hothers hothers' hsame
  · intro other path hother
    rcases hcases hother with ⟨-, rfl⟩ | hother
    · exact hloaded
    · exact h.fresh hother

/-- A task can give its path free. -/
theorem release (h : Guarded repository holds) {task : TaskId} {contents : Bundle.Contents}
    (hhold : holds task = .reserved contents) :
    Guarded (repository.release contents.path) (Function.update holds task .nothing) := by
  have hmine : (holds task).path? = some contents.path := by
    rw [hhold]
    rfl
  have hcases : ∀ {other path}, (Function.update holds task .nothing other).path? = some path ↔
      other ≠ task ∧ (holds other).path? = some path := by
    intro other path
    by_cases htask : other = task
    · subst htask
      simp [Hold.path?]
    · simp [htask]
  refine ⟨h.apart, fun path => ?_, h.inFlight.filter _, ?_, ?_⟩
  · rw [Repository.mem_inFlight_release, h.held]
    constructor
    · rintro ⟨⟨other, hother⟩, hsame⟩
      refine ⟨other, hcases.mpr ⟨?_, hother⟩⟩
      rintro rfl
      rw [hmine] at hother
      obtain rfl := Option.some.inj hother
      exact hsame (Path.same_refl _)
    · rintro ⟨other, hother⟩
      obtain ⟨hne, hother⟩ := hcases.mp hother
      exact ⟨⟨other, hother⟩, fun hsame => hne (h.sole hother hmine hsame)⟩
  · intro first second path other hfirst hsecond hsame
    exact h.sole (hcases.mp hfirst).2 (hcases.mp hsecond).2 hsame
  · intro other path hother
    exact h.fresh (hcases.mp hother).2

end Guarded

theorem Hold.path?_ofTurn (entry : EntryId) (turn : Cell.Turn) :
    (Hold.ofTurn entry turn).path? = none := by
  cases turn <;> rfl

/-- **Every act keeps archives apart.** -/
theorem Act.keeps_guarded (engine : Engine σ β) : Act.Keeps engine Guarded := by
  intro task before after holds hact hhold h
  -- Most acts change neither paths nor reservations.
  have hunchanged : ∀ {hold : Hold}, hold.path? = (holds task).path? → ∀ other,
      (Function.update holds task hold other).path? = (holds other).path? := by
    intro hold hpath other
    by_cases hother : other = task
    · subst hother
      rw [Function.update_self, hpath]
    · rw [Function.update_of_ne hother]
  cases hact with
  | advance hstage => exact h.frame rfl rfl (hunchanged (by rw [hhold]))
  | completeWeb => exact h.frame rfl rfl (hunchanged (by rw [hhold]))
  | run hcalled => exact h.frame rfl rfl (hunchanged (by rw [hhold]))
  | read hparsed => exact h.frame rfl rfl (hunchanged (by rw [hhold]; rfl))
  | forget => exact h.frame rfl rfl (hunchanged (by rw [hhold]; rfl))
  | reserve hloaded hreserved => exact h.reserve (by rw [hhold]; rfl) hloaded hreserved
  | add bundle hloaded hreserved =>
      exact (h.append bundle hloaded hreserved).frame rfl rfl (hunchanged (by rw [hhold]; rfl))
  | @addReserved repository contents added bundle =>
      have hmine : (holds task).path? = some contents.path := by
        rw [hhold]
        rfl
      exact (h.release hhold).append bundle (h.fresh hmine)
        (repository.not_isReserved_release contents.path)
  | release => exact h.release hhold
  | ask entry =>
      refine h.frame (Repository.paths_modifyCell _ _ _) rfl (hunchanged ?_)
      rw [hhold, Hold.path?_ofTurn]
      rfl
  | take =>
      refine h.frame rfl rfl (hunchanged ?_)
      rw [hhold, Hold.path?_ofTurn]
      rfl
  | fail =>
      exact h.frame (Repository.paths_modifyCell _ _ _) rfl (hunchanged (by rw [hhold]; rfl))
  | fill hdelivers =>
      exact h.frame (Repository.paths_modifyCell _ _ _) rfl (hunchanged (by rw [hhold]; rfl))
  | leave hleft =>
      refine h.frame (Repository.paths_modifyCell _ _ _) rfl (hunchanged ?_)
      rw [hhold]
      rcases hleft with rfl | rfl <;> rfl
  | store entry hdelivers =>
      exact h.frame (Repository.paths_modifyCell _ _ _) rfl (hunchanged (by rw [hhold]))
  | keep hmarker hstored => exact h.frame rfl rfl (hunchanged (by rw [hhold]))
  | @keepLoaded repository hold entry added shader state hmarker hempty hdelivers =>
      have hpaths := Repository.paths_modifyCell { repository with engine := state } entry
        fun cell => (cell.store shader).1
      exact h.frame hpaths rfl (hunchanged (by rw [hhold]))

/-! ### Growth -/

/-- **Manifests are only added, at the end.** -/
theorem Act.keeps_declared (engine : Engine σ β) (declared : List (Manifest β)) :
    Act.Keeps engine fun repository _ => declared <+: repository.declared :=
  fun _ _ _ _ hact _ h => h.trans hact.grows_declared

/-! ### Counts -/

theorem Repository.length_modifyCell (repository : Repository σ β) (id : EntryId)
    (change : Cell → Cell) :
    (repository.modifyCell id change).manifests.length = repository.manifests.length := by
  simp [modifyCell]

/-- An act that adds an archive counts it. -/
theorem Act.count {engine : Engine σ β} {task : TaskId} {before after : Footing σ β}
    (hact : Act engine task before after) :
    after.repository.manifests.length + before.added
      = before.repository.manifests.length + after.added := by
  cases hact with
  | add bundle hloaded hreserved =>
      simp only [Repository.append, List.length_append, List.length_singleton]
      omega
  | addReserved bundle =>
      simp only [Repository.append, Repository.release, List.length_append, List.length_singleton]
      omega
  | ask entry => simp only [Repository.length_modifyCell]
  | fail => simp only [Repository.length_modifyCell]
  | fill hdelivers => simp only [Repository.length_modifyCell]
  | leave hleft => simp only [Repository.length_modifyCell]
  | store entry hdelivers => simp only [Repository.length_modifyCell]
  | keepLoaded hmarker hempty hdelivers =>
      simp only [Repository.keepInvalid, Repository.length_modifyCell]
  | _ => rfl

theorem Acts.count {engine : Engine σ β} {task : TaskId} {before after : Footing σ β}
    (hacts : Acts engine task before after) :
    after.repository.manifests.length + before.added
      = before.repository.manifests.length + after.added := by
  induction hacts with
  | refl => rfl
  | tail _ hact ih =>
      have hcount := hact.count
      omega

theorem Activity.added_begun (state : Task β) : (Activity.begun state).added = state.added := rfl

/-- Whether an activity is a request to load archives. -/
def Activity.IsLoad : Activity β → Prop
  | .planned _ (.loadLocal _) => True
  | .planned _ (.loadWeb ..) => True
  | .begun (.webLoad ..) => True
  | _ => False

theorem Activity.added_of_not_isLoad {activity : Activity β} (h : ¬ activity.IsLoad) :
    activity.added = 0 := by
  cases activity with
  | planned thread request => rfl
  | begun state =>
      cases state with
      | webLoad directory state => exact absurd trivial h
      | _ => rfl

namespace Session

/-- How many archives the tasks have counted, those that run and those that have
replied. -/
def counted (session : Session σ β) : Nat :=
  (session.running.map fun running => running.activity.added).sum
    + (session.answers.map fun answer => answer.reply.added).sum

theorem counted_move {engine : Engine σ β} {session : Session σ β} (hnumbered : session.Numbered)
    (hsound : session.Sound)
    (h : session.counted = session.world.repository.manifests.length) {next : Move}
    (hnext : ∀ task, next ≠ .drop task) :
    (session.move engine next).counted
      = (session.move engine next).world.repository.manifests.length := by
  have hmoved := session.moved engine next
  generalize session.move engine next = after at hmoved
  cases hmoved with
  | plan instant thread request =>
      simpa [counted, plan, Activity.added] using h
  | @resume running hfound =>
      obtain ⟨before, after, hsplit, hremoved, hreplaced⟩ :=
        hnumbered.split (mem_of_activity? hfound)
      have hcount := (advance_acts engine (hsound running (mem_of_activity? hfound))).count
      rw [repository_resume]
      unfold resume
      simp only [counted, hsplit, List.map_append, List.map_cons, List.sum_append,
        List.sum_cons] at h
      cases hstep : session.advance engine running with
      | mk world progress =>
          rw [hstep] at hcount
          cases progress with
          | paused state pause =>
              simp only [Task.footing, Progress.added] at hcount
              simp only [counted, hreplaced, List.map_append, List.map_cons, List.sum_append,
                List.sum_cons, Activity.added_begun]
              omega
          | done reply =>
              simp only [Task.footing, Progress.added] at hcount
              simp only [counted, hremoved, List.map_append, List.map_cons, List.sum_append,
                List.sum_cons, List.map_nil, List.sum_nil]
              omega
  | @drop running hfound => exact absurd rfl (hnext running.task)
  | wait duration => exact h
  | idle next => exact h

/-- **Every archive that was added is counted by one task**, unless tasks were dropped. -/
theorem counted_replay (engine : Engine σ β) {moves : List Move} {session : Session σ β}
    (hmoves : ∀ task, Move.drop task ∉ moves) (hnumbered : session.Numbered)
    (hsound : session.Sound)
    (h : session.counted = session.world.repository.manifests.length) :
    (replay engine moves session).counted
      = (replay engine moves session).world.repository.manifests.length := by
  induction moves generalizing session with
  | nil => exact h
  | cons next rest ih =>
      have hnext : ∀ task, next ≠ .drop task := by
        rintro task rfl
        exact hmoves task List.mem_cons_self
      exact ih (fun task hmem => hmoves task (List.mem_cons_of_mem _ hmem)) (hnumbered.move next)
        (hsound.move next) (counted_move hnumbered hsound h hnext)

/-- **Archives are added once, and loaded by one task at a time.** Whatever happens in a
session over a new repository: no two manifests have one path; what is declared only grows
at its end; the paths in flight are those that tasks hold while the engine loads, no two
tasks hold one, and a load at once passes over them; and unless tasks were dropped, the
loads count each archive once. -/
theorem archives_of_replay (engine : Engine σ β) (world : World σ β) (start : σ)
    (moves : List Move) :
    let session := replay engine moves (fresh { world with repository := .fresh start })
    let repository := session.world.repository
    (repository.manifests.Pairwise fun first second => ¬ first.path.same second.path) ∧
    (∀ later, repository.declared <+: (replay engine later session).world.repository.declared) ∧
    (∀ path, path ∈ repository.inFlight ↔ ∃ running ∈ session.running, running.Loads path) ∧
    (repository.inFlight.Pairwise fun first second => ¬ first.same second) ∧
    (∀ first ∈ session.running, ∀ second ∈ session.running, ∀ path other,
      first.Loads path → second.Loads other → path.same other → first = second) ∧
    (∀ path, repository.isReserved path → ∀ files,
      (repository.loadArchive engine files path).1 = repository ∧
        (repository.loadArchive engine files path).2 ≠ .loaded) ∧
    (session.running = [] → repository.inFlight = []) ∧
    ((∀ task, Move.drop task ∉ moves) →
      (∀ running ∈ session.running, ¬ running.activity.IsLoad) →
      (session.answers.map fun answer => answer.reply.added).sum
        = repository.manifests.length) := by
  intro session repository
  have hnumbered : session.Numbered := numbered_replay engine moves (numbered_fresh _)
  have hguarded : Guarded repository session.holds :=
    replay_keeps (Act.keeps_guarded engine) moves (sound_fresh _) (.initial start fun _ => rfl)
  have hheld : ∀ path, path ∈ repository.inFlight ↔
      ∃ running ∈ session.running, running.Loads path := by
    intro path
    rw [hguarded.held]
    constructor
    · rintro ⟨task, htask⟩
      obtain ⟨contents, hhold, rfl⟩ := Hold.path?_eq_some htask
      obtain ⟨running, hmem, -, hrunning⟩ := exists_running_of_holds hhold (by simp)
      exact ⟨running, hmem, Running.loads_iff.mpr (by rw [hrunning]; rfl)⟩
    · rintro ⟨running, hmem, hloads⟩
      refine ⟨running.task, ?_⟩
      rw [hnumbered.holds_of_mem hmem]
      exact Running.loads_iff.mp hloads
  refine ⟨List.pairwise_map.mp hguarded.apart, fun later => ?_, hheld, hguarded.inFlight, ?_,
    fun path hreserved files => Repository.loadArchive_of_isReserved hreserved engine files, ?_, ?_⟩
  · exact replay_keeps (Act.keeps_declared engine repository.declared) later
      ((sound_fresh _).replay moves) List.prefix_rfl
  · intro first hfirst second hsecond path other hpath hother hsame
    rw [Running.loads_iff, ← hnumbered.holds_of_mem hfirst] at hpath
    rw [Running.loads_iff, ← hnumbered.holds_of_mem hsecond] at hother
    have htask := hguarded.sole hpath hother hsame
    exact List.inj_on_of_nodup_map hnumbered.distinct hfirst hsecond htask
  · intro hdone
    refine List.eq_nil_iff_forall_not_mem.mpr fun path hmem => ?_
    obtain ⟨running, hrunning, -⟩ := (hheld path).mp hmem
    rw [hdone] at hrunning
    cases hrunning
  · intro hmoves hover
    have hcounted : session.counted = repository.manifests.length :=
      counted_replay engine hmoves (numbered_fresh _) (sound_fresh _) rfl
    have hzero : (session.running.map fun running => running.activity.added).sum = 0 := by
      refine List.sum_eq_zero_iff_forall_eq_nat.mpr fun count hmem => ?_
      obtain ⟨running, hrunning, rfl⟩ := List.mem_map.mp hmem
      exact Activity.added_of_not_isLoad (hover running hrunning)
    rw [← hcounted, counted, hzero, Nat.zero_add]

/-! ### A session with one archive -/

/-- An engine in memory whose loads do not last. -/
def sampleEngine : Engine Engine.Tally Engine.MemoryBundle :=
  .inMemory 0 0

/-- A world with an archive that is not loaded yet. -/
def sampleWorld : World Engine.Tally Engine.MemoryBundle :=
  ⟨.fresh ⟨0, 0⟩, [], .standard, .revision2021_3, [], none, Bundle.sampleFiles⟩

/-- The archive is there without a download. -/
def sampleDownloader : Downloader :=
  ⟨0, false, [], [Bundle.sampleContents.path]⟩

/-- A task loads the archive. -/
def sampleMoves : List Move :=
  [.plan 0 .main (.loadWeb (some ⟨"d"⟩) sampleDownloader), .resume 0, .resume 0, .resume 0]

/-- The repository with the archive. -/
def sampleRepository : Repository Engine.Tally Engine.MemoryBundle where
  engine := ⟨1, 0⟩
  manifests := [⟨Bundle.sampleContents.path, some ⟨Bundle.sampleContents.path, [("x", "S")]⟩,
    Bundle.sampleContents.entries⟩]
  invalid := none
  webDone := true
  stage := .ready
  inFlight := []

/-- The session once the archive is loaded. -/
def sampleSession : Session Engine.Tally Engine.MemoryBundle :=
  ⟨{ sampleWorld with repository := sampleRepository }, 0, [],
   [⟨0, 0, .webLoaded (.ok 1) (some ⟨"d"⟩)⟩], 1⟩

section Single

/-! The same for any archive without a placeholder that lies at this path. -/

variable {files : FileTree} {materials : Materials} {entries : List Entry} {payload : Bytes}
  {assets : Payload.Assets}

/-- The repository with the archive only. -/
def singleRepository (entries : List Entry) (assets : Payload.Assets) :
    Repository Engine.Tally Engine.MemoryBundle :=
  { sampleRepository with manifests := [⟨⟨"a"⟩, some ⟨⟨"a"⟩, assets⟩, entries⟩] }

/-- The repository while the archive is added. -/
def singleAdded (entries : List Entry) (assets : Payload.Assets) :
    Repository Engine.Tally Engine.MemoryBundle :=
  { singleRepository entries assets with
    webDone := false, stage := .empty, inFlight := [⟨"a"⟩] }

theorem arrive_single (hread : Bundle.read files ⟨"a"⟩ = .ok ⟨⟨"a"⟩, entries, payload⟩) :
    (WebLoad.downloading sampleDownloader).resume sampleEngine 0 0
        { sampleWorld with files, materials }
      = ({ sampleWorld with
            files, materials, repository := sampleWorld.repository.reserve ⟨"a"⟩ },
         .paused (.loading ⟨⟨"a"⟩, entries, payload⟩ [] []) (.until 0)) := by
  simp [WebLoad.resume, WebLoad.arrive, WebLoad.nextArchive, sampleDownloader, sampleWorld, hread,
    Bundle.sampleContents, Repository.isLoaded, Repository.isReserved, Repository.fresh,
    sampleEngine, Engine.inMemory]

theorem register_single (hdecode : Payload.decode? payload = some assets) :
    (sampleWorld.repository.reserve ⟨"a"⟩).register sampleEngine ⟨⟨"a"⟩, entries, payload⟩
      = (singleAdded entries assets, true) := by
  simp [Repository.register, Repository.reserve, Repository.fresh, sampleWorld, sampleEngine,
    Engine.inMemory, Engine.Tally.loadBundle, hdecode, singleAdded, singleRepository,
    sampleRepository]

theorem release_single :
    (singleAdded entries assets).release ⟨"a"⟩
      = { singleAdded entries assets with inFlight := [] } := by
  simp [Repository.release, singleAdded, Path.same_refl]

theorem resume_single (hdecode : Payload.decode? payload = some assets)
    (hplain : entries.find? Entry.isInvalidMarker = none) :
    (WebLoad.loading ⟨⟨"a"⟩, entries, payload⟩ [] []).resume sampleEngine 0 0
        { sampleWorld with
          files, materials, repository := sampleWorld.repository.reserve ⟨"a"⟩ }
      = ({ sampleWorld with files, materials, repository := singleRepository entries assets },
         .done (.ok 1)) := by
  have hmarker : Repository.marker? { singleAdded entries assets with inFlight := [] } 0 = none := by
    simp [Repository.marker?, Manifest.invalidMarker?, singleAdded, singleRepository, hplain]
  have hindices : Repository.indices { singleAdded entries assets with inFlight := [] } = [0] := rfl
  simp only [WebLoad.resume, register_single hdecode, release_single, WebLoad.nextArchive,
    WebLoad.cacheInvalid, hindices, WebLoad.cacheInvalidFrom, hmarker]
  rfl

theorem replay_single (hread : Bundle.read files ⟨"a"⟩ = .ok ⟨⟨"a"⟩, entries, payload⟩)
    (hdecode : Payload.decode? payload = some assets)
    (hplain : entries.find? Entry.isInvalidMarker = none) :
    replay sampleEngine sampleMoves (fresh { sampleWorld with files, materials })
      = ⟨{ sampleWorld with files, materials, repository := singleRepository entries assets }, 0, [],
         [⟨0, 0, .webLoaded (.ok 1) (some ⟨"d"⟩)⟩], 1⟩ := by
  have hstarted : move sampleEngine (move sampleEngine (fresh { sampleWorld with files, materials })
      (.plan 0 .main (.loadWeb (some ⟨"d"⟩) sampleDownloader))) (.resume 0)
        = ⟨{ sampleWorld with files, materials }, 0,
           [⟨0, .begun (.webLoad ⟨"d"⟩ (.downloading sampleDownloader)), .until 0⟩], [], 1⟩ := rfl
  simp only [replay, sampleMoves, List.foldl_cons, List.foldl_nil, hstarted]
  simp [move, activity?, resume, advance, Task.resume, arrive_single hread, Task.step,
    Progress.within, resume_single hdecode hplain]

end Single

theorem decode?_sample : Payload.decode? Bundle.sampleContents.payload = some [("x", "S")] := by
  decide +kernel

theorem arrive_sample :
    (WebLoad.downloading sampleDownloader).resume sampleEngine 0 0 sampleWorld
      = ({ sampleWorld with
            repository := sampleWorld.repository.reserve Bundle.sampleContents.path },
         .paused (.loading Bundle.sampleContents [] []) (.until 0)) :=
  arrive_single Bundle.read_sample

theorem replay_sample : replay sampleEngine sampleMoves (fresh sampleWorld) = sampleSession :=
  replay_single Bundle.read_sample decode?_sample rfl

theorem archives_of_sample :
    ((∀ task, Move.drop task ∉ sampleMoves) ∧
      ∀ running ∈ sampleSession.running, ¬ running.activity.IsLoad) ∧
    (sampleSession.answers.map fun answer => answer.reply.added).sum
      = sampleSession.world.repository.manifests.length := by
  have hmoves : ∀ task, Move.drop task ∉ sampleMoves := by simp [sampleMoves]
  have hover : ∀ running ∈ sampleSession.running, ¬ running.activity.IsLoad := by
    simp [sampleSession]
  have hcounts := (archives_of_replay sampleEngine sampleWorld ⟨0, 0⟩ sampleMoves).2.2.2.2.2.2.2
  rw [show fresh { sampleWorld with repository := .fresh ⟨0, 0⟩ } = fresh sampleWorld from rfl,
    replay_sample] at hcounts
  exact ⟨⟨hmoves, hover⟩, hcounts hmoves hover⟩

end Session

end ShaderMend
