import ShaderMend.FileTree
import ShaderMend.Proofs.Results
import ShaderMend.Proofs.Text.Octets

/-!
# Files that are written

A file is written at a place that is no directory. The directories on the way to it stay, so the
same path leads to the file, which is read as it was written.

* `FileTree.walk_mono` — where all directories stay, paths lead to the same places.
* `FileTree.read_of_takes` — what is written is read.
-/

namespace ShaderMend.FileTree

/-- Where all directories stay, a walk leads to the same place. -/
theorem walk_mono {files other : FileTree}
    (h : ∀ place, files.node? place = some .directory → other.node? place = some .directory)
    {start place : Place} {components : List Path.Component}
    (hwalk : files.walk start components = .ok place) :
    other.walk start components = .ok place := by
  induction components generalizing start with
  | nil => exact hwalk
  | cons component rest ih =>
      unfold walk at hwalk ⊢
      cases hnode : files.node? start with
      | none =>
          rw [hnode] at hwalk
          cases hwalk
      | some node =>
          cases node with
          | file content =>
              rw [hnode] at hwalk
              cases hwalk
          | directory =>
              rw [hnode] at hwalk
              rw [h start hnode]
              dsimp only at hwalk ⊢
              split at hwalk
              · cases hwalk
              · rename_i hshort
                rw [if_neg hshort]
                exact ih hwalk

theorem find_mono {files other : FileTree}
    (h : ∀ place, files.node? place = some .directory → other.node? place = some .directory)
    {path : Path} {place : Place} (hfind : files.find path = .ok place) :
    other.find path = .ok place := by
  unfold find at hfind ⊢
  split_ifs at hfind ⊢
  exact walk_mono h hfind

/-- What lies at a place is found among the nodes that are kept, if those at the place are. -/
theorem find?_filter_of_kept {nodes : List (Place × FileNode)} {keep : Place × FileNode → Bool}
    {place : Place} (h : ∀ node, node.1 = place → keep node = true) :
    (nodes.filter keep).find? (fun node => node.1 == place)
      = nodes.find? fun node => node.1 == place := by
  rw [List.find?_filter]
  congr 1
  funext node
  by_cases hplace : node.1 = place
  · simp [hplace, h node hplace]
  · simp [hplace]

section Set

variable {tree : FileTree} {place : Place} {node : FileNode}

theorem node?_set_self (h : place ≠ []) : (tree.set place node).node? place = some node := by
  have hpassed : (tree.nodes.filter (·.1 ≠ place)).find? (fun node => node.1 == place) = none := by
    simp
  have hempty : ¬ place.isEmpty = true := by simpa using h
  rw [node?, if_neg hempty, set, List.find?_append, hpassed]
  simp

theorem node?_set_of_ne {other : Place} (h : other ≠ place) :
    (tree.set place node).node? other = tree.node? other := by
  have hkept : (tree.nodes.filter (·.1 ≠ place)).find? (fun node => node.1 == other)
      = tree.nodes.find? fun node => node.1 == other :=
    find?_filter_of_kept fun node hnode => by simpa [hnode] using h
  rw [node?, node?, set, List.find?_append, hkept]
  simp [h.symm]

end Set

/-- Whether a file can be written at a path. -/
def Takes (tree : FileTree) (path : Path) : Prop :=
  ∃ place, tree.find path = .ok place ∧ tree.node? place ≠ some .directory ∧
    path.namesDirectory = false

/-- **What is written is read**, whether there was a file at the path or none. -/
theorem read_of_takes {tree : FileTree} {path : Path} (h : tree.Takes path) (content : Bytes) :
    ∃ written, tree.write path content = .ok written ∧ written.read path = .ok content := by
  obtain ⟨place, hfind, hnode, hnames⟩ := h
  have hplace : place ≠ [] := by
    rintro rfl
    exact hnode rfl
  have hdirectories : ∀ other, tree.node? other = some .directory →
      (tree.set place (.file content)).node? other = some .directory := by
    intro other hother
    have hne : other ≠ place := by
      rintro rfl
      exact hnode hother
    rwa [node?_set_of_ne hne]
  refine ⟨tree.set place (.file content), ?_, ?_⟩
  · unfold write
    simp only [hfind, ok_bind, hnames]
    split
    · contradiction
    · rfl
  · have hfile : (tree.set place (.file content)).node? place = some (.file content) :=
      node?_set_self hplace
    unfold read locate
    simp only [find_mono hdirectories hfind, ok_bind, hfile, hnames]
    rfl

/-- Where something was written, a file can be. -/
theorem takes_of_write {tree written : FileTree} {path : Path} {content : Bytes}
    (h : tree.write path content = .ok written) : tree.Takes path := by
  obtain ⟨place, hfind, h⟩ := bind_eq_ok_iff.mp h
  refine ⟨place, hfind, ?_, ?_⟩
  · intro hdirectory
    rw [hdirectory] at h
    cases h
  · by_contra hnames
    rw [Bool.not_eq_false] at hnames
    rw [if_pos hnames] at h
    split at h <;> cases h

/-- A text that is written is read. -/
theorem readText_of_read {tree : FileTree} {path : Path} {text : String}
    (h : tree.read path = .ok (Bytes.ofText text)) : tree.readText path = .ok text := by
  unfold readText
  simp only [h, ok_bind, Bytes.toText?_ofText]
  rfl

end ShaderMend.FileTree
