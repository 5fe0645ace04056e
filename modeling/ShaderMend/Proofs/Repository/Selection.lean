import Mathlib
import ShaderMend.Proofs.Repository.Entries
import ShaderMend.Repository.Search

/-!
# Which entry is found

* `mem_entries_iff`, `pairwise_entries` — the entries of a repository in the order in which
  they are looked at: by manifests, then by asset paths.
* `closest?_eq_none_iff`, `selects_of_closest?` — the first full match is found, or else the
  first of those with the least score.
-/

namespace ShaderMend

variable {σ β : Type}

/-! ### The order of entries -/

/-- In a catalogue an item is found by its key. -/
theorem Catalogue.find?_eq_some_iff {α : Type} {key : α → String} {items : List α} {wanted : String}
    {item : α} (h : Ascending key items) :
    find? key wanted items = some item ↔ item ∈ items ∧ key item = wanted := by
  constructor
  · intro hfound
    exact ⟨List.mem_of_find?_eq_some hfound, by simpa using List.find?_some hfound⟩
  · rintro ⟨hmem, rfl⟩
    obtain ⟨before, after, rfl⟩ := List.append_of_mem hmem
    obtain ⟨-, -, hbefore⟩ := List.pairwise_append.mp h
    have hnone : before.find? (fun other => key other == key item) = none := by
      refine List.find?_eq_none.mpr fun other hother heq => ?_
      have hlt := hbefore other hother item List.mem_cons_self
      rw [beq_iff_eq.mp heq] at hlt
      exact String.lt_irrefl _ hlt
    simp [find?, List.find?_append, hnone]

namespace Repository

/-- Whether every manifest lists its entries in order. -/
def Ordered (repository : Repository σ β) : Prop :=
  ∀ manifest ∈ repository.manifests, Catalogue.Ascending Entry.assetPath manifest.entries

/-- The entries that there are in a manifest are those that it lists. -/
theorem Ordered.lookup?_iff {repository : Repository σ β} (h : repository.Ordered) {index : Nat}
    {manifest : Manifest β} (hmanifest : repository.manifests[index]? = some manifest)
    {assetPath : String} {entry : Entry} :
    repository.lookup? ⟨index, assetPath⟩ = some entry ↔
      entry ∈ manifest.entries ∧ entry.assetPath = assetPath := by
  simp only [lookup?, hmanifest, Option.bind_some]
  exact Catalogue.find?_eq_some_iff (h manifest (List.mem_of_getElem? hmanifest))

/-- **The entries that are looked at are those that there are.** -/
theorem mem_entries_iff {repository : Repository σ β} (h : repository.Ordered) {id : EntryId}
    {entry : Entry} : (id, entry) ∈ repository.entries ↔ repository.lookup? id = some entry := by
  simp only [entries, List.mem_flatMap, List.mem_map, Prod.mk.injEq, Prod.exists]
  constructor
  · rintro ⟨manifest, index, hindex, found, hfound, rfl, rfl⟩
    exact (h.lookup?_iff (List.mk_mem_zipIdx_iff_getElem?.mp hindex)).mpr ⟨hfound, rfl⟩
  · intro hentry
    obtain ⟨manifest, hmanifest, -⟩ := Option.bind_eq_some_iff.mp hentry
    obtain ⟨hmem, hpath⟩ := (h.lookup?_iff hmanifest).mp hentry
    refine ⟨manifest, id.manifest, List.mk_mem_zipIdx_iff_getElem?.mpr hmanifest, entry, hmem, ?_,
      rfl⟩
    rw [hpath]

/-- Whether an entry comes before another: by manifests, then by asset paths. -/
def EntryId.Before (first second : EntryId) : Prop :=
  first.manifest < second.manifest ∨
    first.manifest = second.manifest ∧ first.assetPath < second.assetPath

/-- **Entries are looked at by manifests, then by asset paths.** -/
theorem pairwise_entries {repository : Repository σ β} (h : repository.Ordered) :
    repository.entries.Pairwise fun first second => EntryId.Before first.1 second.1 := by
  have hindices : repository.manifests.zipIdx.Pairwise fun first second =>
      first.2 < second.2 := by
    have hrange : (repository.manifests.zipIdx.map Prod.snd).Pairwise (· < ·) := by
      rw [List.zipIdx_map_snd]
      exact List.pairwise_lt_range'
    exact List.pairwise_map.mp hrange
  refine List.pairwise_flatMap.mpr ⟨?_, ?_⟩
  · rintro ⟨manifest, index⟩ hmem
    have hmanifest := List.mk_mem_zipIdx_iff_getElem?.mp hmem
    refine List.pairwise_map.mpr ((h manifest (List.mem_of_getElem? hmanifest)).imp ?_)
    exact fun hlt => Or.inr ⟨rfl, hlt⟩
  · refine hindices.imp ?_
    rintro ⟨first, i⟩ ⟨second, j⟩ hlt x hx y hy
    obtain ⟨_, -, rfl⟩ := List.mem_map.mp hx
    obtain ⟨_, -, rfl⟩ := List.mem_map.mp hy
    exact Or.inl hlt

end Repository

/-! ### The choice among entries -/

/-- Whether an entry is the one to be chosen for a query, and how well it fits: the first
that fits fully if there is one, else the first of those with the least score. -/
inductive Selects (query : Signature) (entries : List (EntryId × Entry)) (id : EntryId)
    (entry : Entry) : Match → Prop where
  | full {before after : List (EntryId × Entry)} (hsplit : entries = before ++ (id, entry) :: after)
      (hmatch : query.match? entry.signature = some .full)
      (hbefore : ∀ other ∈ before, query.match? other.2.signature ≠ some .full) :
      Selects query entries id entry .full
  | inexact {before after : List (EntryId × Entry)} {score : UInt32}
      (hsplit : entries = before ++ (id, entry) :: after)
      (hmatch : query.match? entry.signature = some (.inexact score))
      (hfull : ∀ other ∈ entries, query.match? other.2.signature ≠ some .full)
      (hbefore : ∀ other ∈ before, ∀ points,
        query.match? other.2.signature = some (.inexact points) → score < points)
      (hafter : ∀ other ∈ after, ∀ points,
        query.match? other.2.signature = some (.inexact points) → score ≤ points) :
      Selects query entries id entry (.inexact score)

namespace Selects

variable {query : Signature} {entries : List (EntryId × Entry)} {id : EntryId} {entry : Entry}
  {found : Match}

theorem mem (h : Selects query entries id entry found) : (id, entry) ∈ entries := by
  cases h with
  | full hsplit => simp [hsplit]
  | inexact hsplit => simp [hsplit]

theorem match?_eq (h : Selects query entries id entry found) :
    query.match? entry.signature = some found := by
  cases h with
  | full _ hmatch => exact hmatch
  | inexact _ hmatch => exact hmatch

end Selects

namespace Repository

/-- Whether a tracker knows the choice among the entries seen so far, none of which fits
fully. -/
inductive Leads (query : Signature) (seen : List (EntryId × Entry)) : BestMatch Candidate → Prop
  where
  | nobody (hnone : ∀ other ∈ seen, query.match? other.2.signature = none) :
      Leads query seen .empty
  | somebody {id : EntryId} {entry : Entry} {score : UInt32}
      (hselects : Selects query seen id entry (.inexact score)) :
      Leads query seen
        ⟨some (⟨id, entry.signature.name, .inexact score⟩, .inexact score)⟩

namespace Leads

variable {query : Signature} {seen : List (EntryId × Entry)} {best : BestMatch Candidate}
  {id : EntryId} {entry : Entry}

theorem not_full (h : Leads query seen best) :
    ∀ other ∈ seen, query.match? other.2.signature ≠ some .full := by
  intro other hmem
  cases h with
  | nobody hnone => simp [hnone other hmem]
  | somebody hselects =>
      cases hselects with
      | inexact _ _ hfull => exact hfull other hmem

/-- One more entry that is no better than the choice so far. -/
theorem selects_append {chosen : EntryId} {first : Entry} {score : UInt32}
    (h : Selects query seen chosen first (.inexact score))
    (hfull : query.match? entry.signature ≠ some .full)
    (hpoints : ∀ points, query.match? entry.signature = some (.inexact points) → score ≤ points) :
    Selects query (seen ++ [(id, entry)]) chosen first (.inexact score) := by
  cases h with
  | @inexact before after _ hsplit hmatch hnone hbefore hafter =>
      have hsplit' : seen ++ [(id, entry)]
          = before ++ (chosen, first) :: (after ++ [(id, entry)]) := by simp [hsplit]
      refine .inexact hsplit' hmatch ?_ hbefore ?_
      · intro other hmem
        rcases List.mem_append.mp hmem with hmem | hmem
        · exact hnone other hmem
        · rw [List.mem_singleton.mp hmem]
          exact hfull
      · intro other hmem
        rcases List.mem_append.mp hmem with hmem | hmem
        · exact hafter other hmem
        · rw [List.mem_singleton.mp hmem]
          exact hpoints

theorem pass (h : Leads query seen best) (hmatch : query.match? entry.signature = none) :
    Leads query (seen ++ [(id, entry)]) best := by
  cases h with
  | nobody hnone =>
      refine .nobody fun other hmem => ?_
      rcases List.mem_append.mp hmem with hmem | hmem
      · exact hnone other hmem
      · rw [List.mem_singleton.mp hmem]
        exact hmatch
  | somebody hselects =>
      exact .somebody (selects_append hselects (by simp [hmatch]) (by simp [hmatch]))

theorem offer (h : Leads query seen best) {score : UInt32}
    (hmatch : query.match? entry.signature = some (.inexact score)) :
    Leads query (seen ++ [(id, entry)])
      (best.offer ⟨id, entry.signature.name, .inexact score⟩ (.inexact score)) := by
  have hlast : seen ++ [(id, entry)] = seen ++ (id, entry) :: [] := rfl
  have hnot := h.not_full
  have hfull : ∀ other ∈ seen ++ [(id, entry)],
      query.match? other.2.signature ≠ some .full := by
    intro other hmem
    rcases List.mem_append.mp hmem with hmem | hmem
    · exact hnot other hmem
    · rw [List.mem_singleton.mp hmem, hmatch]
      simp
  cases h with
  | nobody hnone =>
      refine .somebody (.inexact hlast hmatch hfull ?_ (by simp))
      intro other hmem points hpoints
      rw [hnone other hmem] at hpoints
      cases hpoints
  | @somebody chosen first least hselects =>
      by_cases hless : score < least
      · simp only [BestMatch.offer, BestMatch.improvedBy, Match.score, hless, decide_true,
          ↓reduceIte]
        refine .somebody (.inexact hlast hmatch hfull ?_ (by simp))
        cases hselects with
        | @inexact before after _ hsplit hchosen _ hbefore hafter =>
            intro other hmem points hpoints
            have hle : least ≤ points := by
              rw [hsplit] at hmem
              rcases List.mem_append.mp hmem with hmem | hmem
              · exact UInt32.le_of_lt (hbefore other hmem points hpoints)
              · rcases List.mem_cons.mp hmem with rfl | hmem
                · rw [hchosen] at hpoints
                  cases hpoints
                  exact UInt32.le_refl _
                · exact hafter other hmem points hpoints
            exact UInt32.lt_of_lt_of_le hless hle
      · simp only [BestMatch.offer, BestMatch.improvedBy, Match.score, hless, decide_false,
          Bool.false_eq_true, ↓reduceIte]
        refine .somebody (selects_append hselects (by simp [hmatch]) fun points hpoints => ?_)
        rw [hmatch] at hpoints
        cases hpoints
        exact UInt32.not_lt.mp hless

end Leads

/-- What a scan comes to, given the entries already seen. -/
theorem scan_spec {query : Signature} (rest : List (EntryId × Entry))
    {seen : List (EntryId × Entry)} {best : BestMatch Candidate} (h : Leads query seen best) :
    (scan query best rest = none ∧
      ∀ other ∈ seen ++ rest, query.match? other.2.signature = none) ∨
    ∃ id entry found, scan query best rest = some ⟨id, entry.signature.name, found⟩ ∧
      Selects query (seen ++ rest) id entry found := by
  induction rest generalizing seen best with
  | nil =>
      rw [List.append_nil]
      cases h with
      | nobody hnone => exact Or.inl ⟨rfl, hnone⟩
      | @somebody id entry score hselects => exact Or.inr ⟨id, entry, _, rfl, hselects⟩
  | cons first rest ih =>
      obtain ⟨id, entry⟩ := first
      have hseen : seen ++ (id, entry) :: rest = (seen ++ [(id, entry)]) ++ rest := by simp
      cases hmatch : query.match? entry.signature with
      | none =>
          simp only [scan, hmatch]
          rw [hseen]
          exact ih (h.pass hmatch)
      | some found =>
          cases found with
          | full =>
              simp only [scan, hmatch, Match.isFull, ↓reduceIte]
              exact Or.inr ⟨id, entry, _, rfl, .full rfl hmatch h.not_full⟩
          | inexact score =>
              simp only [scan, hmatch, Match.isFull, Bool.false_eq_true, ↓reduceIte]
              rw [hseen]
              exact ih (h.offer hmatch)

/-- **Either nothing fits, or the choice is found.** -/
theorem closest?_spec (repository : Repository σ β) (query : Signature) :
    (repository.closest? query = none ∧
      ∀ other ∈ repository.entries, query.match? other.2.signature = none) ∨
    ∃ id entry found, repository.closest? query = some ⟨id, entry.signature.name, found⟩ ∧
      Selects query repository.entries id entry found := by
  have hnobody : Leads query [] .empty := .nobody fun _ hmem => by cases hmem
  exact scan_spec repository.entries hnobody

end Repository

end ShaderMend
