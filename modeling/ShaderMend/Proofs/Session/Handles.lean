import ShaderMend.Proofs.Session.Sharing

/-!
# Calls at once beside calls that wait

A call for the shader of an entry that is answered at once does not wait for a load that is
under way.

* `Repository.materialize_spec` — what such a call does to the entry.
* `Session.handles_of_replay` — all calls end with the one shader that the entry stores, but
  for those at once while a task holds the empty entry: they get a shader of their own.
-/

namespace ShaderMend

variable {σ β : Type}

/-- Whether an activity is a call for the shader of an entry that is answered at once. -/
def Activity.CallsAtOnce (id : EntryId) (activity : Activity β) : Prop :=
  ∃ thread provider, activity = .planned thread (.materialize provider id)

/-- What is loaded at once is kept where nobody holds the cell of the entry. Where somebody
does and the cell is empty, the entry stays as it is. -/
theorem Repository.materialize_spec {engine : Engine σ β} {repository : Repository σ β}
    {source : Source β} {id : EntryId} {shader : Shader}
    (hpresent : (repository.lookup? id).isSome)
    (h : (repository.materialize engine source id).2 = .ok shader) :
    (((repository.cell id).stored.isSome ∨ (repository.cell id).holder = none) ∧
      ((repository.materialize engine source id).1.cell id).stored = some shader) ∨
    ((repository.cell id).stored = none ∧ (repository.cell id).holder ≠ none ∧
      (repository.materialize engine source id).1.cell id = repository.cell id ∧
      ∃ bundle, (engine.loadShader repository.engine bundle id.assetPath).2 = some shader) := by
  cases hstored : (repository.cell id).stored with
  | some first =>
      simp only [materialize, hstored] at h ⊢
      obtain rfl := Except.ok.inj h
      exact Or.inl ⟨Or.inl rfl, rfl⟩
  | none =>
      cases hbundle : source.bundle with
      | none => simp [materialize, hstored, hbundle] at h
      | some bundle =>
          cases hload : (engine.loadShader repository.engine bundle id.assetPath).2 with
          | none =>
              simp only [materialize, hstored, hbundle, loadShader_of_undelivered hload] at h
              cases h
          | some delivered =>
              have hcell := cell_modifyCell_of_engine hpresent
                (engine.loadShader repository.engine bundle id.assetPath).1
                fun cell => (cell.store delivered).1
              simp only [materialize, hstored, hbundle, loadShader_of_delivered hload] at h ⊢
              rw [hcell]
              have hshader : ((repository.cell id).store delivered).2 = shader :=
                Except.ok.inj h
              cases hholder : (repository.cell id).holder with
              | none =>
                  simp only [Cell.store, hstored, hholder] at hshader
                  left
                  simp [Cell.store, hstored, hholder, hshader]
              | some task =>
                  simp only [Cell.store, hstored, hholder] at hshader
                  right
                  simp only [Cell.store, hstored, hholder, ne_eq, reduceCtorEq, not_false_eq_true,
                    true_and]
                  exact ⟨bundle, hshader ▸ hload⟩

/-- A call for the shader of an entry that is answered at once while a task is at the empty
cell: it ends with a shader that the engine delivers for it alone. -/
structure Ending.Aside (engine : Engine σ β) (id : EntryId) (ending : Ending σ β)
    (shader : Shader) : Prop where
  empty : (ending.before.world.repository.cell id).stored = none
  held : ∃ running ∈ ending.before.running,
    (ending.before.world.repository.cell id).holder = some running.task ∧
      ∃ state, running.activity.materialization? = some state ∧ state.entry = id
  delivered : ∃ bundle,
    (engine.loadShader ending.before.world.repository.engine bundle id.assetPath).2 = some shader
  kept : (ending.before.resume engine ending.running).world.repository.cell id
    = ending.before.world.repository.cell id

namespace Session

variable {engine : Engine σ β} {id : EntryId}

/-- **How a call at once ends.** -/
theorem ending_of_callAtOnce {ending : Ending σ β}
    (hattended : Attended id ending.before.world.repository ending.before.holds)
    (hshares : ending.before.Shares engine id)
    (hcalls : ending.running.activity.CallsAtOnce id)
    (hstep : (ending.before.advance engine ending.running).2 = .done ending.reply)
    {shader : Shader} (hreply : ending.reply = .materialized (.ok shader)) :
    (ending.before.world.repository.cell id).holder = none ∧
        ((ending.before.resume engine ending.running).world.repository.cell id).stored
          = some shader ∨
      ending.Aside engine id shader := by
  obtain ⟨thread, provider, hactivity⟩ := hcalls
  have hafter := repository_resume engine ending.before ending.running
  simp only [advance, hactivity, Task.start] at hstep hafter
  rw [hreply] at hstep
  cases thread with
  | other => cases hstep
  | main =>
      have hresult : (ending.before.world.repository.materialize engine
          (provider.source ending.before.world) id).2 = .ok shader :=
        Reply.materialized.inj (Progress.done.inj hstep)
      rcases Repository.materialize_spec hattended.present hresult with
        ⟨hidle, hstored⟩ | ⟨hempty, hheld, hkept, hload⟩
      · refine Or.inl ⟨?_, hafter ▸ hstored⟩
        rcases hidle with hfilled | hidle
        · obtain ⟨first, hfirst⟩ := Option.isSome_iff_exists.mp hfilled
          exact hattended.cell.filled hfirst
        · exact hidle
      · obtain ⟨task, hholder⟩ := Option.ne_none_iff_exists'.mp hheld
        obtain ⟨running, hmem, rfl, hneeds⟩ := hshares.attended task (Or.inl hholder)
        exact Or.inr ⟨hempty, ⟨running, hmem, hholder, hneeds⟩, hload, hafter ▸ hkept⟩

/-- **All calls end with the shader that the entry stores, but for those at once that a load
of another task is in the way of.** Nobody is at the entry at the beginning; then anything may
happen. What is stored stays. -/
theorem handles_of_replay (engine : Engine σ β) {world : World σ β}
    (hfree : world.repository.Free id) (moves : List Move) :
    let session := replay engine moves (fresh world)
    (∀ ending ∈ endings engine moves (fresh world), ∀ shader,
      ending.reply = .materialized (.ok shader) →
        (ending.running.activity.Calls id →
          (session.world.repository.cell id).stored = some shader) ∧
        (ending.running.activity.CallsAtOnce id →
          (ending.before.world.repository.cell id).holder = none ∧
              (session.world.repository.cell id).stored = some shader ∨
            ending.Aside engine id shader)) ∧
    ∀ shader, (session.world.repository.cell id).stored = some shader → ∀ later,
      ((replay engine later session).world.repository.cell id).stored = some shader := by
  intro session
  refine ⟨fun ending hmem shader hreply => ⟨fun hcalls => ?_, fun hcalls => ?_⟩,
    fun shader hstored later => stored_replay engine hfree hstored later⟩
  · exact (settled_of_call hfree hmem hcalls).2 shader hreply
  · have hinitial := attended_fresh hfree
    have hattended := attended_of_ending (sound_fresh world) hinitial hmem
    obtain ⟨earlier, later, -, hbefore, hfound, hstep, -⟩ := mem_endings hmem
    have hshares : ending.before.Shares engine id :=
      hbefore ▸ shares_replay engine hfree earlier
    rcases ending_of_callAtOnce hattended hshares hcalls hstep hreply with
      ⟨hidle, hstored⟩ | haside
    · exact Or.inl ⟨hidle, stored_of_ending (sound_fresh world) hinitial hmem hstored⟩
    · exact Or.inr haside

/-! ### A call at once beside a load -/

/-- A call at once while the engine loads for another call. -/
def besideMoves : List Move :=
  [.plan 0 .main (.materializeSuspending (.manifest 0) ⟨0, "x"⟩), .resume 0,
   .plan 0 .main (.materialize (.manifest 0) ⟨0, "x"⟩), .resume 1, .resume 0]

/-- The calls that end, with what they were doing, and their replies. -/
def besideEnds : List (Activity Engine.MemoryBundle × Reply Engine.Tally Engine.MemoryBundle) :=
  [(.planned .main (.materialize (.manifest 0) ⟨0, "x"⟩),
    .materialized (.ok (createdShader 0))),
   (.begun (.materialization (.loading ⟨"a"⟩ ⟨⟨"a"⟩, [("x", "S")]⟩ ⟨0, "x"⟩)),
    .materialized (.ok (createdShader 1)))]

theorem exists_ending_beside {activity : Activity Engine.MemoryBundle}
    {reply : Reply Engine.Tally Engine.MemoryBundle} (h : (activity, reply) ∈ besideEnds) :
    ∃ ending ∈ endings sampleEngine besideMoves (fresh loadedWorld),
      ending.running.activity = activity ∧ ending.reply = reply := by
  have hends : (endings sampleEngine besideMoves (fresh loadedWorld)).map
      (fun ending => (ending.running.activity, ending.reply)) = besideEnds := rfl
  rw [← hends] at h
  obtain ⟨ending, hmem, heq⟩ := List.mem_map.mp h
  obtain ⟨hactivity, hreply⟩ := Prod.mk.inj heq
  exact ⟨ending, hmem, hactivity, hreply⟩

theorem handles_of_sample :
    loadedWorld.repository.Free ⟨0, "x"⟩ ∧
    ∃ ending ∈ endings sampleEngine besideMoves (fresh loadedWorld),
      ending.running.activity.Calls ⟨0, "x"⟩ ∧
      ending.reply = .materialized (.ok (createdShader 1)) ∧
      ((replay sampleEngine besideMoves (fresh loadedWorld)).world.repository.cell
        ⟨0, "x"⟩).stored = some (createdShader 1) := by
  obtain ⟨ending, hmem, hactivity, hreply⟩ :=
    exists_ending_beside (List.mem_cons_of_mem _ List.mem_cons_self)
  have hcalls : ending.running.activity.Calls ⟨0, "x"⟩ := hactivity ▸ .loading _ _
  obtain ⟨hhandles, -⟩ := handles_of_replay sampleEngine free_loaded besideMoves
  exact ⟨free_loaded, ending, hmem, hcalls, hreply, (hhandles ending hmem _ hreply).1 hcalls⟩

/-- **Not all calls end with one shader**: one at once beside a load ends with another. -/
theorem handles_apart :
    ¬ ∀ first ∈ endings sampleEngine besideMoves (fresh loadedWorld),
      ∀ second ∈ endings sampleEngine besideMoves (fresh loadedWorld),
      (first.running.activity.CallsAtOnce ⟨0, "x"⟩ ∨ first.running.activity.Calls ⟨0, "x"⟩) →
      (second.running.activity.CallsAtOnce ⟨0, "x"⟩ ∨
        second.running.activity.Calls ⟨0, "x"⟩) →
      ∀ shader other, first.reply = .materialized (.ok shader) →
        second.reply = .materialized (.ok other) → shader.same other := by
  intro h
  obtain ⟨first, hfirst, hactivity, hreply⟩ := exists_ending_beside List.mem_cons_self
  obtain ⟨second, hsecond, hactivity', hreply'⟩ :=
    exists_ending_beside (List.mem_cons_of_mem _ List.mem_cons_self)
  have hsame := h first hfirst second hsecond (Or.inl ⟨_, _, hactivity⟩)
    (Or.inr (hactivity' ▸ .loading _ _)) _ _ hreply hreply'
  cases hsame

end Session

end ShaderMend
