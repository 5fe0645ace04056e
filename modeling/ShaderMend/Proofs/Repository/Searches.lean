import ShaderMend.Proofs.Repository.Finding

/-!
# Searches one after the other

A search changes no more than the cell of the entry that it finds, so a later search has the
same choice that it had at the beginning.

* `Selects.congr` — the choice among entries depends on what is declared alone.
* `find_grown` — a search only lets its repository grow.
* `findEach_spec` — each of several searches finds the choice among the entries of the
  first repository, and the last repository holds all shaders found.
-/

namespace ShaderMend

variable {σ β : Type}

/-! ### What is declared -/

/-- The entry as it was declared. -/
def Entry.unfilled (entry : Entry) : Entry :=
  entry.modifyCell fun _ => .empty

theorem Entry.declared_eq {first second : Entry} (h : first.unfilled = second.unfilled) :
    first.assetPath = second.assetPath ∧ first.signature = second.signature := by
  simp only [unfilled, modifyCell, Entry.mk.injEq] at h
  exact ⟨h.1, h.2.1⟩

namespace Repository

/-- The entries as they were declared, in the order in which they are looked at. -/
def outline (repository : Repository σ β) : List (EntryId × Entry) :=
  repository.entries.map fun item => (item.1, item.2.unfilled)

theorem outline_of_declared {first second : Repository σ β}
    (h : first.declared = second.declared) : first.outline = second.outline := by
  have houtline : ∀ repository : Repository σ β, repository.outline
      = repository.declared.zipIdx.flatMap fun item =>
          item.1.entries.map fun entry => (⟨item.2, entry.assetPath⟩, entry) := by
    intro repository
    simp only [outline, entries, declared, List.zipIdx_map, List.flatMap_map, List.map_flatMap]
    congr 1
    funext item
    simp only [Prod.map, Manifest.unfilled, List.map_map]
    rfl
  rw [houtline, houtline, h]

theorem manifest_of_declared {first second : Repository σ β}
    (h : first.declared = second.declared) {index : Nat} {manifest : Manifest β}
    (hmanifest : first.manifests[index]? = some manifest) :
    ∃ other, second.manifests[index]? = some other ∧ other.path = manifest.path ∧
      other.bundle = manifest.bundle := by
  have hsame : (first.manifests[index]?).map Manifest.unfilled
      = (second.manifests[index]?).map Manifest.unfilled := by
    rw [← List.getElem?_map, ← List.getElem?_map]
    exact congrArg (·[index]?) h
  rw [hmanifest] at hsame
  obtain ⟨other, hother, hunfilled⟩ := Option.map_eq_some_iff.mp hsame.symm
  simp only [Manifest.unfilled, Manifest.mk.injEq] at hunfilled
  exact ⟨other, hother, hunfilled.1, hunfilled.2.1⟩

/-- Where shaders come from depends on what is declared. -/
theorem source_eq (repository : Repository σ β) (index : Nat) :
    repository.source index
      = (repository.declared[index]?.map Manifest.source).getD ⟨⟨""⟩, none⟩ := by
  simp only [source, declared, List.getElem?_map, Option.map_map]
  rfl

theorem source_of_declared {first second : Repository σ β}
    (h : first.declared = second.declared) (index : Nat) :
    first.source index = second.source index := by
  rw [source_eq, source_eq, h]

end Repository

/-- Entries declared alike stand at the same places. -/
theorem split_of_outline {first second before after : List (EntryId × Entry)} {id : EntryId}
    {entry : Entry}
    (h : first.map (fun item => (item.1, item.2.unfilled))
      = second.map fun item => (item.1, item.2.unfilled))
    (hsplit : first = before ++ (id, entry) :: after) :
    ∃ before' entry' after', second = before' ++ (id, entry') :: after' ∧
      entry'.unfilled = entry.unfilled ∧
      before'.map (fun item => (item.1, item.2.unfilled))
        = before.map (fun item => (item.1, item.2.unfilled)) ∧
      after'.map (fun item => (item.1, item.2.unfilled))
        = after.map fun item => (item.1, item.2.unfilled) := by
  rw [hsplit, List.map_append, List.map_cons] at h
  obtain ⟨before', rest, rfl, hbefore, hrest⟩ := List.map_eq_append_iff.mp h.symm
  obtain ⟨⟨id', entry'⟩, after', rfl, hentry, hafter⟩ := List.map_eq_cons_iff.mp hrest
  obtain ⟨rfl, hunfilled⟩ := Prod.mk.inj hentry
  exact ⟨before', entry', after', rfl, hunfilled, hbefore, hafter⟩

/-- What holds of the signatures of entries holds of those of entries declared alike. -/
theorem forall_signature_of_outline {first second : List (EntryId × Entry)} {P : Signature → Prop}
    (h : second.map (fun item => (item.1, item.2.unfilled))
      = first.map fun item => (item.1, item.2.unfilled))
    (hfirst : ∀ other ∈ first, P other.2.signature) : ∀ other ∈ second, P other.2.signature := by
  intro other hmem
  have hmapped := List.mem_map_of_mem (f := fun item : EntryId × Entry =>
    (item.1, item.2.unfilled)) hmem
  rw [h] at hmapped
  obtain ⟨source, hsource, hsame⟩ := List.mem_map.mp hmapped
  rw [← (Entry.declared_eq (Prod.mk.inj hsame).2).2]
  exact hfirst source hsource

/-- **The choice among entries depends on what is declared alone.** -/
theorem Selects.congr {query : Signature} {first second : List (EntryId × Entry)} {id : EntryId}
    {entry : Entry} {found : Match}
    (h : first.map (fun item => (item.1, item.2.unfilled))
      = second.map fun item => (item.1, item.2.unfilled))
    (hselects : Selects query first id entry found) :
    ∃ entry', Selects query second id entry' found ∧ entry'.unfilled = entry.unfilled := by
  cases hselects with
  | full hsplit hmatch hbefore =>
      obtain ⟨before', entry', after', hsplit', hentry, hsame, -⟩ := split_of_outline h hsplit
      have hsignature := (Entry.declared_eq hentry).2
      have hbefore' := forall_signature_of_outline
        (P := fun signature => query.match? signature ≠ some .full) hsame hbefore
      exact ⟨entry', .full hsplit' (hsignature ▸ hmatch) hbefore', hentry⟩
  | @inexact before after score hsplit hmatch hfull hbefore hafter =>
      obtain ⟨before', entry', after', hsplit', hentry, hsame, hsame'⟩ := split_of_outline h hsplit
      have hsignature := (Entry.declared_eq hentry).2
      have hfull' := forall_signature_of_outline
        (P := fun signature => query.match? signature ≠ some .full) h.symm hfull
      have hbefore' := forall_signature_of_outline (P := fun signature => ∀ points,
        query.match? signature = some (.inexact points) → score < points) hsame hbefore
      have hafter' := forall_signature_of_outline (P := fun signature => ∀ points,
        query.match? signature = some (.inexact points) → score ≤ points) hsame' hafter
      exact ⟨entry', .inexact hsplit' (hsignature ▸ hmatch) hfull' hbefore' hafter', hentry⟩

/-! ### What searches change -/

namespace Repository

/-- Whether a repository came from another by shaders for some of its entries. The state of
the engine may differ. -/
structure Grown (before after : Repository σ β) : Prop where
  declared : after.declared = before.declared
  stored : ∀ {id shader}, (before.cell id).stored = some shader →
    (after.cell id).stored = some shader
  invalid : after.invalid = before.invalid
  stage : after.stage = before.stage
  webDone : after.webDone = before.webDone
  inFlight : after.inFlight = before.inFlight

theorem Grown.refl (repository : Repository σ β) : repository.Grown repository :=
  ⟨rfl, id, rfl, rfl, rfl, rfl⟩

theorem Grown.trans {first second third : Repository σ β} (h : first.Grown second)
    (h' : second.Grown third) : first.Grown third where
  declared := h'.declared.trans h.declared
  stored hstored := h'.stored (h.stored hstored)
  invalid := h'.invalid.trans h.invalid
  stage := h'.stage.trans h.stage
  webDone := h'.webDone.trans h.webDone
  inFlight := h'.inFlight.trans h.inFlight

section Grown

variable {engine : Engine σ β} {repository : Repository σ β}

theorem Materialized.grown {source : Source β} {id : EntryId}
    {result : Repository σ β × Except RepositoryError Shader}
    (h : repository.Materialized engine source id result) : repository.Grown result.1 := by
  cases h with
  | stored hstored => exact .refl _
  | unbound hbundle => exact .refl _
  | missing hcalled => exact ⟨rfl, fun hstored => hstored, rfl, rfl, rfl, rfl⟩
  | @loaded shader state hempty hdelivers =>
      refine ⟨declared_modifyCell _ _ _, fun {other first} hstored => ?_, rfl, rfl, rfl, rfl⟩
      have hne : other ≠ id := by
        rintro rfl
        rw [hempty] at hstored
        cases hstored
      exact (congrArg Cell.stored (cell_modifyCell_of_ne _ hne _)).trans hstored

/-- What a search comes to is what the load of its choice comes to. -/
theorem find_of_closest? (engine : Engine σ β) {query : Signature} {candidate : Candidate}
    (hclosest : repository.closest? query = some candidate) :
    ∃ result, repository.Materialized engine (repository.source candidate.entry.manifest)
        candidate.entry result ∧
      repository.find engine query
        = (result.1, result.2.map fun shader => some { candidate with shader }) := by
  refine ⟨_, repository.materialized engine (repository.source candidate.entry.manifest)
    candidate.entry, ?_⟩
  simp only [find, hclosest]
  generalize repository.materialize engine (repository.source candidate.entry.manifest)
    candidate.entry = result
  obtain ⟨after, shader | error⟩ := result <;> rfl

/-- **A search only lets its repository grow.** -/
theorem find_grown (engine : Engine σ β) (repository : Repository σ β) (query : Signature) :
    repository.Grown (repository.find engine query).1 := by
  cases hclosest : repository.closest? query with
  | none =>
      simp only [find, hclosest]
      exact .refl _
  | some candidate =>
      obtain ⟨result, hresult, hfind⟩ := find_of_closest? engine hclosest
      rw [hfind]
      exact hresult.grown

/-- A shader that was found is that of the choice: the entry has it, or the engine delivers
it. -/
theorem found_cases {query : Signature} {replacement : Replacement}
    (h : (repository.find engine query).2 = .ok (some replacement)) :
    repository.closest? query = some replacement.toCandidate ∧
      ((repository.cell replacement.entry).stored = some replacement.shader ∨
        ∃ state, engine.Delivers repository.engine replacement.shader state) := by
  cases hclosest : repository.closest? query with
  | none =>
      simp only [find, hclosest] at h
      cases h
  | some candidate =>
      obtain ⟨result, hresult, hfind⟩ := find_of_closest? engine hclosest
      rw [hfind] at h
      cases hresult with
      | stored hstored =>
          obtain rfl := Option.some.inj (Except.ok.inj h)
          exact ⟨rfl, Or.inl hstored⟩
      | unbound hbundle => cases h
      | missing hcalled => cases h
      | loaded hempty hdelivers =>
          obtain rfl := Option.some.inj (Except.ok.inj h)
          exact ⟨rfl, Or.inr ⟨_, hdelivers⟩⟩

end Grown

/-- What the result of a search for a query means: nothing fits; or the choice among the
entries was found and keeps the shader; or the engine has no shader for the choice. -/
inductive Answers (engine : Engine σ β) (before after : Repository σ β) (query : Signature) :
    Except RepositoryError (Option Replacement) → Prop where
  | nothing (hunmatched : ∀ other ∈ before.entries, query.match? other.2.signature = none) :
      Answers engine before after query (.ok none)
  | found {id : EntryId} {entry : Entry} {found : Match} {shader : Shader}
      (hselects : Selects query before.entries id entry found)
      (hstored : (after.cell id).stored = some shader) :
      Answers engine before after query
        (.ok (some ⟨⟨id, entry.signature.name, found⟩, shader⟩))
  | missing {id : EntryId} {entry : Entry} {found : Match} {manifest : Manifest β} {bundle : β}
      (hselects : Selects query before.entries id entry found)
      (hmanifest : before.manifests[id.manifest]? = some manifest)
      (hbundle : manifest.bundle = some bundle)
      (hload : ∃ state, (engine.loadShader state bundle entry.assetPath).2 = none) :
      Answers engine before after query (.error (.assetNotFound manifest.path entry.assetPath))

variable {engine : Engine σ β} {repository : Repository σ β}

theorem Answers.mono {before after before' after' : Repository σ β} {query : Signature}
    {result : Except RepositoryError (Option Replacement)}
    (h : Answers engine before after query result) (hbefore : before.declared = before'.declared)
    (hafter : after.Grown after') : Answers engine before' after' query result := by
  have houtline := outline_of_declared hbefore
  cases h with
  | nothing hunmatched =>
      exact .nothing (forall_signature_of_outline
        (P := fun signature => query.match? signature = none) houtline.symm hunmatched)
  | found hselects hstored =>
      obtain ⟨entry', hselects', hentry⟩ := hselects.congr houtline
      rw [← (Entry.declared_eq hentry).2]
      exact .found hselects' (hafter.stored hstored)
  | missing hselects hmanifest hbundle hload =>
      obtain ⟨entry', hselects', hentry⟩ := hselects.congr houtline
      obtain ⟨manifest', hmanifest', hpath, hbundle'⟩ := manifest_of_declared hbefore hmanifest
      have hasset := (Entry.declared_eq hentry).1
      rw [← hpath, ← hasset]
      exact .missing hselects' hmanifest' (hbundle'.trans hbundle) (hasset ▸ hload)

/-- **A search answers for its repository.** -/
theorem AtRest.find_spec (h : repository.AtRest engine) (query : Signature) :
    Answers engine repository (repository.find engine query).1 query
      (repository.find engine query).2 := by
  rcases h.find_cases query with ⟨hunmatched, hfind⟩ |
    ⟨id, entry, found, manifest, bundle, hselects, hmanifest, hbundle, hcases⟩
  · rw [hfind]
    exact .nothing hunmatched
  · have hentry := (mem_entries_iff h.ordered).mp hselects.mem
    have hcell := cell_of_lookup? hentry
    rcases hcases with ⟨shader, hstored, hfind⟩ |
      ⟨hempty, ⟨state, shader, after, hload, hfind, hfilled⟩ | ⟨state, hload, hfind⟩⟩
    · rw [hfind]
      exact .found hselects (by rw [hcell, hstored])
    · rw [hfind]
      have hstored : (after.cell id).stored = some shader := by
        simp [cell, hfilled.entry, hentry, Entry.modifyCell]
      exact .found hselects hstored
    · rw [hfind]
      exact .missing hselects hmanifest hbundle ⟨_, congrArg Prod.snd hload⟩

theorem AtRest.tidy (h : repository.AtRest engine) :
    Tidy engine repository fun _ => .nothing where
  parsed hread := by rcases hread with hread | hread <;> cases hread
  bound manifest hmem := by
    obtain ⟨source, hsource, rfl⟩ := List.mem_map.mp hmem
    exact h.bound source hsource
  ascending manifest hmem := by
    obtain ⟨source, hsource, rfl⟩ := List.mem_map.mp hmem
    simpa [Manifest.unfilled, Catalogue.Ascending, List.pairwise_map, Entry.modifyCell]
      using h.ascending source hsource
  owned id := by
    obtain ⟨hholder, hqueue⟩ := h.idle id
    refine ⟨fun heq => ?_, fun hmem => ?_, ?_, fun _ => ?_, fun _ => hqueue, fun _ => hholder⟩
    · rw [hholder] at heq
      cases heq
    · rw [hqueue] at hmem
      cases hmem
    · rw [hqueue]
      exact List.nodup_nil
    · rw [hqueue]
      exact List.not_mem_nil
  made := h.made
  invalid := h.invalid

/-- **What every act keeps, a search keeps**, if some task has nothing under way. -/
theorem find_keeps {P : Repository σ β → (TaskId → Hold) → Prop} (hkeeps : Act.Keeps engine P)
    {holds : TaskId → Hold} (hfree : ∃ task, holds task = .nothing) (h : P repository holds)
    (query : Signature) : P (repository.find engine query).1 holds := by
  obtain ⟨task, hnothing⟩ := hfree
  have hafter := (repository.find_acts engine task query .nothing 0).keeps hkeeps hnothing h
  have hholds : Function.update holds task .nothing = holds := by
    rw [← hnothing, Function.update_eq_self]
  rwa [hholds] at hafter

theorem AtRest.find (h : repository.AtRest engine) (query : Signature) :
    (repository.find engine query).1.AtRest engine :=
  (find_keeps (Act.keeps_tidy engine) ⟨0, rfl⟩ h.tidy query).atRest fun _ => rfl

/-! ### Several searches -/

/-- Searches for shaders, one after the other, and what each of them comes to. -/
def findEach (engine : Engine σ β) : List Shader → Repository σ β →
    Repository σ β × List (Shader × Except RepositoryError (Option Replacement))
  | [], repository => (repository, [])
  | shader :: rest, repository =>
      let (repository, result) := repository.find engine shader.query
      let (repository, results) := findEach engine rest repository
      (repository, (shader, result) :: results)

theorem map_fst_findEach (engine : Engine σ β) (shaders : List Shader)
    (repository : Repository σ β) :
    (findEach engine shaders repository).2.map Prod.fst = shaders := by
  induction shaders generalizing repository with
  | nil => rfl
  | cons shader rest ih => exact congrArg (shader :: ·) (ih _)

theorem findEach_grown (engine : Engine σ β) (shaders : List Shader)
    (repository : Repository σ β) :
    repository.Grown (repository.findEach engine shaders).1 := by
  induction shaders generalizing repository with
  | nil => exact .refl _
  | cons first rest ih => exact (repository.find_grown engine first.query).trans (ih _)

/-- **Each of several searches is one in a repository that grew** and kept what every act
keeps. -/
theorem mem_findEach {P : Repository σ β → (TaskId → Hold) → Prop}
    (hkeeps : Act.Keeps engine P) {holds : TaskId → Hold}
    (hfree : ∃ task, holds task = .nothing) (h : P repository holds) {shaders : List Shader}
    {shader : Shader} {result : Except RepositoryError (Option Replacement)}
    (hmem : (shader, result) ∈ (repository.findEach engine shaders).2) :
    ∃ middle, P middle holds ∧ repository.Grown middle ∧
      result = (middle.find engine shader.query).2 := by
  induction shaders generalizing repository with
  | nil => cases hmem
  | cons first rest ih =>
      rcases List.mem_cons.mp hmem with heq | hmem
      · obtain ⟨rfl, rfl⟩ := Prod.mk.inj heq
        exact ⟨repository, h, .refl _, rfl⟩
      · obtain ⟨middle, hmiddle, hgrown, hresult⟩ :=
          ih (find_keeps hkeeps hfree h first.query) hmem
        exact ⟨middle, hmiddle, (repository.find_grown engine first.query).trans hgrown, hresult⟩

/-- **Each search answers for the first repository**, and the last one keeps what was found. -/
theorem AtRest.findEach_spec (h : repository.AtRest engine) (shaders : List Shader) :
    (repository.findEach engine shaders).1.AtRest engine ∧
      repository.Grown (repository.findEach engine shaders).1 ∧
      ∀ shader result, (shader, result) ∈ (repository.findEach engine shaders).2 →
        Answers engine repository (repository.findEach engine shaders).1 shader.query result := by
  induction shaders generalizing repository with
  | nil => exact ⟨h, .refl _, fun _ _ hmem => by cases hmem⟩
  | cons first rest ih =>
      have hgrown := repository.find_grown engine first.query
      obtain ⟨hrest, hgrown', hanswers'⟩ := ih (h.find first.query)
      refine ⟨hrest, hgrown.trans hgrown', fun shader result hmem => ?_⟩
      rcases List.mem_cons.mp hmem with heq | hmem
      · obtain ⟨rfl, rfl⟩ := Prod.mk.inj heq
        exact (h.find_spec _).mono rfl hgrown'
      · exact (hanswers' shader result hmem).mono hgrown.declared (.refl _)

end Repository

/-! ### Searches among tasks -/

namespace Tidy

variable {engine : Engine σ β} {repository : Repository σ β} {holds : TaskId → Hold}

theorem ordered (h : Tidy engine repository holds) : repository.Ordered := by
  intro manifest hmem
  have hascending := h.ascending manifest.unfilled (List.mem_map_of_mem hmem)
  simpa [Manifest.unfilled, Catalogue.Ascending, List.pairwise_map, Entry.modifyCell]
    using hascending

/-- If a search fails, the engine has no shader for its choice. -/
theorem error_of_find (h : Tidy engine repository holds) {query : Signature}
    {error : RepositoryError} (herror : (repository.find engine query).2 = .error error) :
    ∃ archive assetPath, error = .assetNotFound archive assetPath := by
  rcases repository.closest?_spec query with
    ⟨hnone, -⟩ | ⟨id, entry, found, hsome, hselects⟩
  · simp only [Repository.find, hnone] at herror
    cases herror
  · have hentry := (Repository.mem_entries_iff h.ordered).mp hselects.mem
    have hbound : ∀ manifest ∈ repository.manifests, manifest.bundle.isSome :=
      fun manifest hmem => h.bound manifest.unfilled (List.mem_map_of_mem hmem)
    obtain ⟨manifest, bundle, -, -, hsource⟩ := Repository.exists_bundle hbound hentry
    obtain ⟨result, hresult, hfind⟩ := Repository.find_of_closest? engine hsome
    rw [hfind] at herror
    cases hresult with
    | stored hstored => cases herror
    | unbound hbundle =>
        rw [hsource] at hbundle
        cases hbundle
    | missing hcalled => exact ⟨_, _, (Except.error.inj herror).symm⟩
    | loaded hempty hdelivers => cases herror

/-- What is found comes from the engine. -/
theorem makes_of_find (h : Tidy engine repository holds) {query : Signature}
    {replacement : Replacement}
    (hfound : (repository.find engine query).2 = .ok (some replacement)) :
    engine.Makes replacement.shader := by
  obtain ⟨-, hstored | ⟨state, hdelivers⟩⟩ := Repository.found_cases hfound
  · exact h.made hstored
  · exact hdelivers.makes

end Tidy

end ShaderMend
