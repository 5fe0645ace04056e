import Mathlib
import ShaderMend.Bundle.Writer
import ShaderMend.Proofs.Results

/-!
# What an archive gives

* `Contents.parsed_of_read` — the entries that are read are in ascending order of their
  asset paths, and none of them holds a shader yet.
* `path_of_read` — the contents are those of the path asked for.
-/

namespace ShaderMend

/-! ### Catalogues -/

theorem Catalogue.mem_of_mem_insert {α : Type} {key : α → String} {item other : α}
    {items : List α} (h : other ∈ insert key item items) : other = item ∨ other ∈ items := by
  induction items with
  | nil => simpa [insert] using h
  | cons first rest ih =>
      unfold insert at h
      split at h
      · exact List.mem_cons.mp h
      · split at h
        · rcases List.mem_cons.mp h with rfl | hrest
          · exact Or.inl rfl
          · exact Or.inr (List.mem_cons_of_mem _ hrest)
        · rcases List.mem_cons.mp h with rfl | hrest
          · exact Or.inr List.mem_cons_self
          · exact (ih hrest).imp id (List.mem_cons_of_mem _)

theorem Catalogue.mem_of_mem_ofList {α : Type} {key : α → String} {item : α} {items : List α}
    (h : item ∈ ofList key items) : item ∈ items := by
  have hfold : ∀ (items catalogue : List α),
      item ∈ items.foldl (fun catalogue next => insert key next catalogue) catalogue →
        item ∈ catalogue ∨ item ∈ items := by
    intro items
    induction items with
    | nil => exact fun _ hmem => Or.inl hmem
    | cons next rest ih =>
        intro catalogue hmem
        rcases ih _ hmem with hmem | hmem
        · rcases mem_of_mem_insert hmem with rfl | hmem
          · exact Or.inr List.mem_cons_self
          · exact Or.inl hmem
        · exact Or.inr (List.mem_cons_of_mem _ hmem)
  rcases hfold items [] h with hmem | hmem
  · cases hmem
  · exact hmem

/-! ### Entries of a manifest -/

/-- Entries as they come out of a manifest: in order, and none of them filled. -/
structure Entry.Parsed (entries : List Entry) : Prop where
  ascending : Catalogue.Ascending Entry.assetPath entries
  unfilled : ∀ entry ∈ entries, entry.cell = .empty

namespace Manifest

theorem unfilled_of_mapM {members : List (String × Json)} {entries : List Entry}
    (h : members.mapM (fun (assetPath, value) => do
      return (⟨assetPath, ← Signature.ofJson? value, .empty⟩ : Entry)) = some entries) :
    ∀ entry ∈ entries, entry.cell = .empty := by
  induction members generalizing entries with
  | nil =>
      simp only [List.mapM_nil, Option.pure_def, Option.some.injEq] at h
      subst h
      exact fun _ hmem => by cases hmem
  | cons member members ih =>
      simp only [List.mapM_cons, Option.bind_eq_bind, Option.bind_eq_some_iff, Option.pure_def,
        Option.some.injEq] at h
      obtain ⟨first, ⟨signature, -, rfl⟩, rest, hrest, rfl⟩ := h
      intro entry hmem
      rcases List.mem_cons.mp hmem with rfl | hmem
      · rfl
      · exact ih hrest entry hmem

theorem parsed_tableOfJson? {value : Json} {entries : List Entry}
    (h : tableOfJson? value = some entries) : Entry.Parsed entries := by
  unfold tableOfJson? at h
  split at h
  · simp only [Option.bind_eq_bind, Option.bind_eq_some_iff, Option.pure_def,
      Option.some.injEq] at h
    obtain ⟨described, hdescribed, rfl⟩ := h
    exact ⟨Catalogue.ascending_ofList _ _,
      fun entry hmem => unfilled_of_mapM hdescribed entry (Catalogue.mem_of_mem_ofList hmem)⟩
  · cases h

theorem parsed_entriesOfJson? {value : Json} {entries : List Entry}
    (h : entriesOfJson? value = some entries) : Entry.Parsed entries := by
  unfold entriesOfJson? at h
  rcases Option.or_eq_some_iff.mp h with h | ⟨-, h⟩
  · unfold wrappedOfJson? at h
    split at h
    · simp only [Option.bind_eq_bind, Option.bind_eq_some_iff] at h
      obtain ⟨table, -, htable⟩ := h
      exact parsed_tableOfJson? htable
    · exact parsed_tableOfJson? h
    · cases h
  · exact parsed_tableOfJson? h

theorem parsed_parse {text : String} {entries : List Entry} (h : parse text = .ok entries) :
    Entry.Parsed entries := by
  obtain ⟨⟨value, rest⟩, -, h⟩ := bind_eq_ok_iff.mp h
  cases hvalue : entriesOfJson? value with
  | none =>
      simp only [hvalue] at h
      cases h
  | some described =>
      simp only [hvalue] at h
      obtain ⟨_, -, h⟩ := bind_eq_ok_iff.mp h
      cases h
      exact parsed_entriesOfJson? hvalue

end Manifest

/-! ### Archives -/

namespace Bundle

theorem mapError_eq_ok {ε δ α : Type} {change : ε → δ} {result : Except ε α} {value : α}
    (h : result.mapError change = .ok value) : result = .ok value := by
  cases result with
  | error error => cases h
  | ok found => exact congrArg Except.ok (Except.ok.inj h)

theorem assemble_ok {path : Path} {opened : List Opened} {contents : Contents}
    (h : assemble path opened = .ok contents) :
    contents.path = path ∧ Entry.Parsed contents.entries := by
  obtain ⟨manifest, -, h⟩ := bind_eq_ok_iff.mp h
  obtain ⟨payload, -, h⟩ := bind_eq_ok_iff.mp h
  obtain ⟨content, -, h⟩ := bind_eq_ok_iff.mp h
  cases htext : Bytes.toText? content with
  | none =>
      simp only [htext] at h
      cases h
  | some text =>
      simp only [htext] at h
      obtain ⟨entries, hentries, h⟩ := bind_eq_ok_iff.mp h
      obtain ⟨octets, -, h⟩ := bind_eq_ok_iff.mp h
      cases h
      exact ⟨rfl, Manifest.parsed_parse (mapError_eq_ok hentries)⟩

theorem read_ok {files : FileTree} {path : Path} {contents : Contents}
    (h : read files path = .ok contents) :
    contents.path = path ∧ Entry.Parsed contents.entries := by
  unfold read at h
  split at h
  · cases h
  · cases h
  · obtain ⟨archive, -, h⟩ := bind_eq_ok_iff.mp h
    exact assemble_ok h

/-- **The contents are those of the path asked for.** -/
theorem path_of_read {files : FileTree} {path : Path} {contents : Contents}
    (h : read files path = .ok contents) : contents.path = path :=
  (read_ok h).1

/-- **The entries are in order and not filled.** -/
theorem parsed_of_read {files : FileTree} {path : Path} {contents : Contents}
    (h : read files path = .ok contents) : Entry.Parsed contents.entries :=
  (read_ok h).2

/-! ### An archive with one shader -/

/-- A tree with an archive at `a` that holds one shader, `S` at `x`. -/
def sampleFiles : FileTree :=
  ⟨[(["a"], .file (encode [("x", .object [("name", .string "S")])]))]⟩

/-- What that archive holds. -/
def sampleContents : Contents :=
  ⟨⟨"a"⟩, [⟨"x", ⟨"S", [], []⟩, .empty⟩], Payload.encode [("x", "S")]⟩

/-- An archive whose shader stands in for shaders without replacement, beside nothing else. -/
def placeholderFiles : FileTree :=
  ⟨[(["a"], .file (encode [("x", .object [("name", .string Shader.invalidName)])]))]⟩

/-- What that archive holds. -/
def placeholderContents : Contents :=
  ⟨⟨"a"⟩, [⟨"x", ⟨Shader.invalidName, [], []⟩, .empty⟩],
    Payload.encode [("x", Shader.invalidName)]⟩

theorem locate_single (bytes : Bytes) :
    FileTree.locate ⟨[(["a"], .file bytes)]⟩ ⟨"a"⟩ = .ok (["a"], .file bytes) := by
  have hparts : (Path.mk "a").parts = ["a"] := by
    show "a".splitOn "/" = ["a"]
    cbv
  have hcomponents : (Path.mk "a").components = [.name "a"] := by
    unfold Path.components
    rw [hparts]
    decide +kernel
  have hfind : FileTree.find ⟨[(["a"], .file bytes)]⟩ ⟨"a"⟩ = .ok ["a"] := by
    unfold FileTree.find
    rw [hcomponents]
    rfl
  unfold FileTree.locate Path.namesDirectory
  rw [hfind, hparts]
  rfl

/-- Contents are read if their parts are. -/
theorem read_of_parts {files : FileTree} {path : Path} {contents : Contents}
    (h : (read files path).toOption.map (fun found =>
      (found.path, found.entries, found.payload))
        = some (contents.path, contents.entries, contents.payload)) :
    read files path = .ok contents := by
  cases hread : read files path with
  | error error => simp [hread, Except.toOption] at h
  | ok found =>
      obtain ⟨path, entries, payload⟩ := found
      simp only [hread, Except.toOption, Option.map_some, Option.some.injEq, Prod.mk.injEq] at h
      obtain ⟨rfl, rfl, rfl⟩ := h
      rfl

theorem read_sample : read sampleFiles sampleContents.path = .ok sampleContents := by
  apply read_of_parts
  have hlocate : sampleFiles.locate sampleContents.path
      = .ok (["a"], .file (encode [("x", .object [("name", .string "S")])])) :=
    locate_single _
  unfold read
  rw [hlocate]
  decide +kernel

theorem read_placeholder :
    read placeholderFiles placeholderContents.path = .ok placeholderContents := by
  apply read_of_parts
  have hlocate : placeholderFiles.locate placeholderContents.path
      = .ok (["a"], .file
          (encode [("x", .object [("name", .string Shader.invalidName)])])) :=
    locate_single _
  unfold read
  rw [hlocate]
  decide +kernel

end Bundle

end ShaderMend
