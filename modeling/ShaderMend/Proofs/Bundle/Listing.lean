import ShaderMend.Proofs.Bundle.Contents
import ShaderMend.Proofs.Files.Writing
import ShaderMend.Proofs.Repository.Shelves

/-!
# Directories and the archives that they list

* `Path.components_join` — the path of a file in a directory has one component more.
* `FileTree.Sound` — what makes a tree one of files.
* `Bundle.precedes_archivesIn` — archives are listed in the order of their paths.
* `Bundle.archivesIn_removeEach` — files that are removed are listed no more, and all other files
  of their directory are listed and read as before.
-/

namespace ShaderMend

/-! ### Components -/

namespace Path

/-- Whether a text is the name of a file: one component that counts. -/
def IsName (name : String) : Prop :=
  '/' ∉ name.toList ∧ component? name = some (.name name)

instance (name : String) : Decidable (IsName name) :=
  inferInstanceAs (Decidable (_ ∧ _))

/-- What the first of several parts stands for. -/
def opening (part : String) : List Component :=
  if part = "" then [.root] else if part = "." then [.current] else (component? part).toList

/-- The components of a path are those of its first part and of the others. -/
theorem components_of_parts {path : Path} {first : String} {rest : List String}
    (h : path.parts = first :: rest) (hnonempty : first :: rest ≠ [""]) :
    path.components = opening first ++ rest.filterMap component? := by
  unfold components opening
  rw [h]
  split
  · rename_i heq
    obtain ⟨rfl, rfl⟩ := List.cons.inj heq
    rfl
  · rename_i heq
    obtain ⟨rfl, rfl⟩ := List.cons.inj heq
    rfl
  · rename_i hroot hcurrent
    have hfirst : first ≠ "" := by
      rintro rfl
      cases rest with
      | nil => exact hnonempty rfl
      | cons second rest => exact hroot second rest rfl
    have hother : first ≠ "." := fun heq => hcurrent rest (by rw [heq])
    cases hcomponent : component? first <;> simp [hfirst, hother, hcomponent]

theorem parts_of_append {path : Path} {before after : List Char}
    (h : path.text.toList = before ++ '/' :: after) :
    path.parts = ((before.splitOn '/') ++ (after.splitOn '/')).map String.ofList := by
  rw [parts_eq, h]
  exact congrArg (List.map String.ofList)
    (List.splitOnP_append_cons before after (p := (· == '/')) (by simp))

/-- The parts of the path of a file in a directory: those of the directory, but for an empty last
one, and the name. -/
theorem parts_join {directory : Path} {name : String} (hname : '/' ∉ name.toList)
    (hdirectory : directory.text ≠ "") :
    ∃ first rest, (directory.join name).parts = first :: (rest ++ [name]) ∧
      (directory.parts = first :: (rest ++ [""]) ∨
        directory.parts = first :: rest ∧ first :: rest ≠ [""]) := by
  have hlast : name.toList.splitOn '/' = [name.toList] := List.splitOn_eq_singleton hname
  by_cases hslash : directory.text.endsWith "/" = true
  · have hsuffix : ['/'] <:+ directory.text.toList := by
      have hends := hslash
      rw [String.endsWith, String.Slice.endsWith_string_iff] at hends
      simpa using hends
    obtain ⟨before, hbefore⟩ := hsuffix
    have htext : (directory.join name).text.toList = before ++ '/' :: name.toList := by
      simp [join, hslash, ← hbefore]
    have hjoined := parts_of_append htext
    have hparts : directory.parts = ((before.splitOn '/') ++ ([].splitOn '/')).map String.ofList :=
      parts_of_append hbefore.symm
    cases hsplit : before.splitOn '/' with
    | nil => exact absurd hsplit (List.splitOn_ne_nil _ _)
    | cons first rest =>
        rw [hsplit, hlast] at hjoined
        rw [hsplit] at hparts
        refine ⟨String.ofList first, rest.map String.ofList, ?_, Or.inl ?_⟩
        · simpa using hjoined
        · simpa using hparts
  · have htext : (directory.join name).text.toList
        = directory.text.toList ++ '/' :: name.toList := by
      simp [join, hslash, hdirectory]
    have hjoined := parts_of_append htext
    have hparts := directory.parts_eq
    cases hsplit : directory.text.toList.splitOn '/' with
    | nil => exact absurd hsplit (List.splitOn_ne_nil _ _)
    | cons first rest =>
        rw [hsplit, hlast] at hjoined
        rw [hsplit] at hparts
        refine ⟨String.ofList first, rest.map String.ofList, ?_, Or.inr ⟨hparts, ?_⟩⟩
        · simpa using hjoined
        · intro hempty
          obtain ⟨hfirst, hrest⟩ := List.cons.inj hempty
          obtain rfl : first = [] := by simpa using congrArg String.toList hfirst
          obtain rfl : rest = [] := List.map_eq_nil_iff.mp hrest
          have hback : ['/'].intercalate (directory.text.toList.splitOn '/')
              = directory.text.toList := List.intercalate_splitOn '/'
          rw [hsplit, List.intercalate_singleton] at hback
          exact hdirectory (String.toList_eq_nil_iff.mp hback.symm)

/-- **The path of a file in a directory** has the components of the directory and the name. -/
theorem components_join {directory : Path} {name : String} (hname : IsName name)
    (hdirectory : directory.text ≠ "") :
    (directory.join name).components = directory.components ++ [.name name] := by
  obtain ⟨first, rest, hjoined, hparts⟩ := parts_join hname.1 hdirectory
  have hlast : [name].filterMap component? = [.name name] := by simp [hname.2]
  rw [components_of_parts hjoined (by simp), List.filterMap_append, hlast, ← List.append_assoc]
  congr 1
  rcases hparts with hparts | ⟨hparts, hnonempty⟩
  · have hnothing : [""].filterMap component? = [] := rfl
    rw [components_of_parts hparts (by simp), List.filterMap_append, hnothing, List.append_nil]
  · rw [components_of_parts hparts hnonempty]

/-- The rank of a component that is no name, below that of all names. -/
def Component.rank : Component → Nat
  | .root => 0
  | .current => 1
  | .parent => 2
  | .name _ => 3

/-- Whether a component comes before another one: names by their code points. -/
def Component.Precedes : Component → Component → Prop
  | .name first, .name second => first < second
  | first, second => first.rank < second.rank

/-- Whether a path comes before another one: the first components that differ count. -/
def Precedes (first second : Path) : Prop :=
  List.Lex Component.Precedes first.components second.components

theorem precedes_join {directory : Path} (hdirectory : directory.text ≠ "") {first second : String}
    (hfirst : IsName first) (hsecond : IsName second) (h : first < second) :
    (directory.join first).Precedes (directory.join second) := by
  unfold Precedes
  rw [components_join hfirst hdirectory, components_join hsecond hdirectory]
  induction directory.components with
  | nil => exact .rel h
  | cons component rest ih => exact .cons ih

theorem same_join_iff {directory : Path} (hdirectory : directory.text ≠ "")
    {first second : String} (hfirst : IsName first) (hsecond : IsName second) :
    (directory.join first).same (directory.join second) ↔ first = second := by
  rw [same_iff, components_join hfirst hdirectory, components_join hsecond hdirectory]
  simp

end Path

/-! ### Trees of files -/

namespace FileTree

/-- Whether a tree is one of files: one thing lies at each place, files have names, and nothing
lies below a file. -/
structure Sound (files : FileTree) : Prop where
  distinct : (files.nodes.map Prod.fst).Nodup
  named : ∀ place content, (place, FileNode.file content) ∈ files.nodes →
    ∃ above name, place = above ++ [name] ∧ Path.IsName name
  leaf : ∀ place content, (place, FileNode.file content) ∈ files.nodes →
    ∀ node ∈ files.nodes, place <+: node.1 → node.1 = place

variable {files : FileTree} {directory : Path} {place : Place}

theorem Sound.isName (h : files.Sound) {name : String} {content : Bytes}
    (hfile : (place ++ [name], .file content) ∈ files.nodes) : Path.IsName name := by
  obtain ⟨above, last, hplace, hname⟩ := h.named _ _ hfile
  obtain ⟨-, hlast⟩ := List.append_inj' hplace rfl
  obtain rfl := List.singleton_inj.mp hlast
  exact hname

theorem mem_of_node? {node : FileNode} (h : files.node? place = some node) (hne : place ≠ []) :
    (place, node) ∈ files.nodes := by
  unfold node? at h
  rw [if_neg (by simpa using hne)] at h
  obtain ⟨⟨other, found⟩, hfound, rfl⟩ := Option.map_eq_some_iff.mp h
  obtain rfl : other = place := by simpa using List.find?_some hfound
  exact List.mem_of_find?_eq_some hfound

/-- The place of a directory is no file and lies below none. -/
theorem Sound.not_prefix (h : files.Sound) {file : Place} {content : Bytes}
    (hfile : (file, .file content) ∈ files.nodes) (hplace : files.node? place = some .directory) :
    ¬ file <+: place := by
  intro hbelow
  by_cases hroot : place = []
  · subst hroot
    obtain ⟨above, name, rfl, -⟩ := h.named file content hfile
    simp at hbelow
  · have hmem := mem_of_node? hplace hroot
    obtain rfl := h.leaf file content hfile _ hmem hbelow
    cases List.inj_on_of_nodup_map h.distinct hfile hmem rfl

theorem mem_filesIn_iff {name : String} :
    name ∈ files.filesIn place ↔ ∃ content, (place ++ [name], .file content) ∈ files.nodes := by
  simp only [filesIn, List.mem_filterMap]
  constructor
  · rintro ⟨⟨other, node⟩, hmem, hname⟩
    cases node with
    | directory => cases hname
    | file content =>
        dsimp only at hname
        split at hname
        · rename_i last hlast
          split at hname
          · rename_i habove
            obtain rfl := Option.some.inj hname
            have hplace : other = place ++ [last] := by
              rw [← List.dropLast_append_getLast? last hlast, eq_of_beq habove]
            exact ⟨content, hplace ▸ hmem⟩
          · cases hname
        · cases hname
  · rintro ⟨content, hmem⟩
    exact ⟨_, hmem, by simp⟩

/-! ### Walks -/

theorem place_of_walk {start : Place} {components : List Path.Component}
    (h : files.walk start components = .ok place) : place = components.foldl Place.step start := by
  induction components generalizing start with
  | nil => exact (Except.ok.inj h).symm
  | cons component rest ih =>
      unfold walk at h
      split at h
      · cases h
      · cases h
      · split at h
        · cases h
        · exact ih h

theorem walk_append (files : FileTree) (start : Place) (first second : List Path.Component) :
    files.walk start (first ++ second)
      = (files.walk start first).bind fun middle => files.walk middle second := by
  induction first generalizing start with
  | nil => rfl
  | cons component rest ih =>
      rw [List.cons_append, walk, walk]
      cases files.node? start with
      | none => rfl
      | some node =>
          cases node with
          | file content => rfl
          | directory =>
              dsimp only
              split
              · rfl
              · exact ih _

theorem isDirectory_iff :
    files.isDirectory directory = true ↔
      ∃ place, files.locate directory = .ok (place, .directory) := by
  unfold isDirectory
  constructor
  · intro h
    split at h
    · rename_i place hlocate
      exact ⟨place, hlocate⟩
    · cases h
  · rintro ⟨place, hlocate⟩
    rw [hlocate]

/-- A path that leads to a directory is written, and names its place. -/
theorem placeOf_of_locate {node : FileNode} (h : files.locate directory = .ok (place, node)) :
    placeOf directory = place ∧ directory.text ≠ "" ∧
      files.walk [] directory.components = .ok place ∧ files.node? place = some node := by
  have hfind := find_of_locate h
  have hnode : files.node? place = some node := by
    unfold locate at h
    rw [hfind] at h
    simp only [bind, Except.bind, pure, Except.pure, throw, throwThe, MonadExceptOf.throw] at h
    split at h
    · cases h
    · rename_i hnode
      split at h
      · cases h
      · exact hnode.trans (congrArg (fun found => some found.2) (Except.ok.inj h))
    · rename_i hnode
      exact hnode.trans (congrArg (fun found => some found.2) (Except.ok.inj h))
  unfold find at hfind
  split_ifs at hfind with hnul htext hlong
  exact ⟨(place_of_walk hfind).symm, htext, hfind, hnode⟩

theorem placeOf_join {name : String} (hname : Path.IsName name) (hdirectory : directory.text ≠ "") :
    placeOf (directory.join name) = placeOf directory ++ [name] := by
  simp [placeOf, Path.components_join hname hdirectory, Place.step]

/-! ### Files that are removed -/

variable {path : Path}

theorem node?_remove {other : Place} (h : ¬ placeOf path <+: other) :
    (files.remove path).node? other = files.node? other := by
  have hkept : ∀ node : Place × FileNode, node.1 = other →
      (!(placeOf path).isPrefixOf node.1) = true := by
    rintro node rfl
    have hapart : (placeOf path).isPrefixOf node.1 = false :=
      Bool.eq_false_iff.mpr fun hbelow => h (List.isPrefixOf_iff_prefix.mp hbelow)
    rw [hapart]
    rfl
  rw [node?, node?, remove, find?_filter_of_kept hkept]

theorem Sound.remove (h : files.Sound) (path : Path) : (files.remove path).Sound where
  distinct := h.distinct.sublist (List.filter_sublist.map Prod.fst)
  named place content hmem := h.named place content (List.mem_filter.mp hmem).1
  leaf place content hmem node hnode :=
    h.leaf place content (List.mem_filter.mp hmem).1 node (List.mem_filter.mp hnode).1

/-- A walk does not miss a file that it does not end at. -/
theorem Sound.walk_remove (h : files.Sound) {content : Bytes}
    (hfile : (placeOf path, .file content) ∈ files.nodes) {start : Place}
    {components : List Path.Component} (hwalk : files.walk start components = .ok place) :
    (files.remove path).walk start components = .ok place :=
  walk_mono (fun _ hnode => (node?_remove (h.not_prefix hfile hnode)).trans hnode) hwalk

theorem locate_eq (files : FileTree) (path : Path) :
    files.locate path
      = (files.find path).bind fun place =>
          match files.node? place with
          | none => .error .notFound
          | some (.file content) =>
              if path.namesDirectory then .error .notDirectory else .ok (place, .file content)
          | some .directory => .ok (place, .directory) := by
  unfold locate
  cases files.find path with
  | error error => rfl
  | ok place =>
      rcases hnode : files.node? place with _ | ⟨_ | content⟩ <;>
        simp only [bind, Except.bind, pure, Except.pure, throw, throwThe, MonadExceptOf.throw,
          hnode]

section Removed

variable {name other : String} {content : Bytes} (h : files.Sound)
  (hdirectory : files.locate directory = .ok (place, .directory)) (hname : Path.IsName name)
  (hfile : (place ++ [name], .file content) ∈ files.nodes)
include h hdirectory hname hfile

/-- A directory stays where it is when a file in it is removed. -/
theorem Sound.locate_remove :
    (files.remove (directory.join name)).locate directory = .ok (place, .directory) := by
  obtain ⟨rfl, htext, hwalk, hnode⟩ := placeOf_of_locate hdirectory
  have hplace := placeOf_join hname htext
  rw [← hplace] at hfile
  have hfind := find_of_locate hdirectory
  have hsame : (files.remove (directory.join name)).find directory = .ok (placeOf directory) := by
    unfold find at hfind ⊢
    split_ifs at hfind ⊢
    exact h.walk_remove hfile hwalk
  rw [locate_eq, hsame]
  simp only [Except.bind, node?_remove (h.not_prefix hfile hnode), hnode]

/-- **The other files of a directory are where they were**, or not, when one is removed. -/
theorem Sound.locate_join_remove (hother : Path.IsName other) (hne : other ≠ name) :
    (files.remove (directory.join name)).locate (directory.join other)
      = files.locate (directory.join other) := by
  obtain ⟨rfl, htext, hwalk, hnode⟩ := placeOf_of_locate hdirectory
  have hplace := placeOf_join hname htext
  rw [← hplace] at hfile
  have hstays : (files.remove (directory.join name)).node? (placeOf directory)
      = files.node? (placeOf directory) := node?_remove (h.not_prefix hfile hnode)
  have hlast : (files.remove (directory.join name)).walk [] (directory.join other).components
      = files.walk [] (directory.join other).components := by
    rw [Path.components_join hother htext, walk_append, walk_append, hwalk,
      h.walk_remove hfile hwalk]
    simp only [Except.bind, walk, hstays, hnode]
  have hfind : (files.remove (directory.join name)).find (directory.join other)
      = files.find (directory.join other) := by
    unfold find
    rw [hlast]
  rw [locate_eq, locate_eq, hfind]
  cases hfound : files.find (directory.join other) with
  | error error => rfl
  | ok found =>
      have hapart : ¬ placeOf (directory.join name) <+: found := by
        unfold find at hfound
        split_ifs at hfound
        rw [place_of_walk hfound, hplace]
        change ¬ _ <+: placeOf (directory.join other)
        rw [placeOf_join hother htext]
        intro hbelow
        have hequal := List.IsPrefix.eq_of_length hbelow (by simp)
        exact hne (by simpa using hequal.symm)
      simp only [Except.bind, node?_remove hapart]

omit h hfile in
/-- The other files of a directory are listed when one is removed. -/
theorem filesIn_remove :
    (files.remove (directory.join name)).filesIn place
      = (files.filesIn place).filter (· ≠ name) := by
  obtain ⟨rfl, htext, -⟩ := placeOf_of_locate hdirectory
  rw [filesIn, filesIn, remove, List.filterMap_filter, List.filter_filterMap]
  refine List.filterMap_congr fun node _ => ?_
  obtain ⟨other, _ | content⟩ := node
  · simp
  · cases hlast : other.getLast? with
    | none => simp [hlast]
    | some last =>
        by_cases habove : other.dropLast = placeOf directory
        · obtain rfl : other = placeOf directory ++ [last] := by
            rw [← List.dropLast_append_getLast? last hlast, habove]
          have hbelow : (placeOf (directory.join name)).isPrefixOf (placeOf directory ++ [last])
              = decide (last = name) := by
            rw [Bool.eq_iff_iff, List.isPrefixOf_iff_prefix, placeOf_join hname htext,
              List.prefix_append_right_inj, decide_eq_true_iff]
            simp [eq_comm]
          by_cases hsame : last = name
          · subst hsame
            simp [hbelow, Option.filter]
          · simp [hbelow, hsame, Option.filter]
        · simp [hlast, habove]

end Removed

end FileTree

/-! ### Archives that are listed -/

theorem Catalogue.mem_ofList_id {names : List String} {name : String} :
    name ∈ ofList id names ↔ name ∈ names := by
  have hkeys := @exists_mem_ofList_iff String id names name
  simpa using hkeys

theorem Catalogue.ofList_filter (names : List String) (keeps : String → Bool) :
    ofList id (names.filter keeps) = (ofList id names).filter keeps := by
  have hfirst : (ofList id (names.filter keeps)).Pairwise (· < ·) := ascending_ofList id _
  have hsecond : ((ofList id names).filter keeps).Pairwise (· < ·) :=
    (ascending_ofList id names).filter _
  refine List.Pairwise.eq_of_mem_iff hfirst hsecond fun name => ?_
  rw [mem_ofList_id, List.mem_filter, List.mem_filter, mem_ofList_id]

namespace Bundle

variable {files : FileTree} {directory : Path} {place : Place} {archives : List Path}

theorem archivesIn_of_locate (hdirectory : files.locate directory = .ok (place, .directory)) :
    archivesIn files directory
      = .ok (((Catalogue.ofList id (files.filesIn place)).map directory.join).filter
          isArchive) := by
  simp only [archivesIn, hdirectory]

/-- **The archives that a directory lists** are its files with the extension, by the names that
they have in the directory … -/
theorem mem_archivesIn_iff (hdirectory : files.locate directory = .ok (place, .directory))
    (harchives : archivesIn files directory = .ok archives) {path : Path} :
    path ∈ archives ↔ ∃ name content, (place ++ [name], .file content) ∈ files.nodes ∧
      path = directory.join name ∧ isArchive path = true := by
  rw [archivesIn_of_locate hdirectory] at harchives
  obtain rfl := Except.ok.inj harchives
  simp only [List.mem_filter, List.mem_map, Catalogue.mem_ofList_id, FileTree.mem_filesIn_iff]
  constructor
  · rintro ⟨⟨name, ⟨content, hmem⟩, rfl⟩, harchive⟩
    exact ⟨name, content, hmem, rfl, harchive⟩
  · rintro ⟨name, content, hmem, rfl, harchive⟩
    exact ⟨⟨name, ⟨content, hmem⟩, rfl⟩, harchive⟩

/-- … in ascending order of their paths. -/
theorem precedes_archivesIn (h : files.Sound)
    (hdirectory : files.locate directory = .ok (place, .directory))
    (harchives : archivesIn files directory = .ok archives) :
    archives.Pairwise Path.Precedes ∧
      archives.Pairwise fun first second => ¬ first.same second := by
  obtain ⟨-, htext, -⟩ := FileTree.placeOf_of_locate hdirectory
  rw [archivesIn_of_locate hdirectory] at harchives
  obtain rfl := Except.ok.inj harchives
  have hnamed : ∀ name ∈ Catalogue.ofList id (files.filesIn place), Path.IsName name :=
    fun name hmem =>
      have ⟨_, hfile⟩ := FileTree.mem_filesIn_iff.mp (Catalogue.mem_ofList_id.mp hmem)
      h.isName hfile
  have hascending := Catalogue.ascending_ofList id (files.filesIn place)
  constructor
  · refine List.Pairwise.filter _ (List.pairwise_map.mpr (hascending.imp_of_mem ?_))
    intro first second hfirst hsecond hlt
    exact Path.precedes_join htext (hnamed first hfirst) (hnamed second hsecond) hlt
  · refine List.Pairwise.filter _ (List.pairwise_map.mpr (hascending.imp_of_mem ?_))
    intro first second hfirst hsecond hlt hsame
    rw [Path.same_join_iff htext (hnamed first hfirst) (hnamed second hsecond)] at hsame
    subst hsame
    exact String.lt_irrefl _ hlt

/-- A file whose name has one dot, with the extension behind it, is an archive. -/
theorem isArchive_join {name stem : String} (hname : Path.IsName name)
    (hdirectory : directory.text ≠ "")
    (hparts : (name.toList.splitOn '.').map String.ofList = [stem, fileExtension])
    (hstem : stem ≠ "") : isArchive (directory.join name) = true := by
  have hlast : (directory.join name).fileName? = some name := by
    simp [Path.fileName?, Path.components_join hname hdirectory]
  have hextension : (directory.join name).extension? = some fileExtension := by
    simp only [Path.extension?, hlast, Option.bind_some]
    rw [Text.splitOn_singleton name '.', hparts]
    simp [hstem]
  simp only [isArchive, hextension]
  decide +kernel

theorem read_congr {first second : FileTree} {path : Path}
    (h : first.locate path = second.locate path) : read first path = read second path := by
  simp only [read, h]

/-- **A file that is removed is listed no more**, and all others are listed and read as
before. -/
theorem archivesIn_remove (h : files.Sound)
    (hdirectory : files.locate directory = .ok (place, .directory))
    (harchives : archivesIn files directory = .ok archives) {path : Path}
    (hpath : path ∈ archives) :
    (files.remove path).locate directory = .ok (place, .directory) ∧
      archivesIn (files.remove path) directory = .ok (archives.filter (· ≠ path)) ∧
      ∀ other ∈ archives, other ≠ path → read (files.remove path) other = read files other := by
  have hlisted : ∀ other ∈ archives, ∃ name content,
      (place ++ [name], .file content) ∈ files.nodes ∧ other = directory.join name :=
    fun other hother =>
      have ⟨name, content, hfile, hjoin, _⟩ :=
        (mem_archivesIn_iff hdirectory harchives).mp hother
      ⟨name, content, hfile, hjoin⟩
  obtain ⟨name, content, hfile, rfl⟩ := hlisted path hpath
  have hname := h.isName hfile
  have hstays := h.locate_remove hdirectory hname hfile
  refine ⟨hstays, ?_, fun other hother hne => ?_⟩
  · rw [archivesIn_of_locate hdirectory] at harchives
    obtain rfl := Except.ok.inj harchives
    have hjoin : (fun other => decide (other ≠ directory.join name)) ∘ directory.join
        = fun other => decide (other ≠ name) := by
      funext other
      simp [(Path.join_injective directory).eq_iff]
    rw [archivesIn_of_locate hstays, FileTree.filesIn_remove hdirectory hname,
      Catalogue.ofList_filter, ← hjoin, ← List.filter_map, List.filter_comm]
  · obtain ⟨last, _, hlast, rfl⟩ := hlisted other hother
    refine read_congr (h.locate_join_remove hdirectory hname hfile (h.isName hlast) ?_)
    rintro rfl
    exact hne rfl

/-- Files of a directory that are removed one after the other. -/
theorem archivesIn_removeEach (h : files.Sound)
    (hdirectory : files.locate directory = .ok (place, .directory))
    (harchives : archivesIn files directory = .ok archives) {deleted : List Path}
    (hnodup : deleted.Nodup) (hlisted : ∀ path ∈ deleted, path ∈ archives) :
    let pruned := deleted.foldl FileTree.remove files
    pruned.locate directory = .ok (place, .directory) ∧
      archivesIn pruned directory = .ok (archives.filter (· ∉ deleted)) ∧
      ∀ path ∈ archives, path ∉ deleted → read pruned path = read files path := by
  induction deleted generalizing files archives with
  | nil => simpa using ⟨hdirectory, harchives⟩
  | cons first rest ih =>
      obtain ⟨hfirst, hrest⟩ := List.nodup_cons.mp hnodup
      obtain ⟨hlocate, hothers, hread⟩ :=
        archivesIn_remove h hdirectory harchives (hlisted first List.mem_cons_self)
      have hremain : ∀ path ∈ rest, path ∈ archives.filter (· ≠ first) := by
        intro path hmem
        have hne : path ≠ first := fun heq => hfirst (heq ▸ hmem)
        simpa [hne] using hlisted path (List.mem_cons_of_mem _ hmem)
      obtain ⟨hlocate', hothers', hread'⟩ := ih (h.remove first) hlocate hothers hrest hremain
      refine ⟨hlocate', ?_, fun path hmem hkept => ?_⟩
      · rw [List.foldl_cons, hothers', List.filter_filter]
        congr 2
        funext path
        simp [Bool.and_comm]
      · obtain ⟨hne, hkept⟩ := not_or.mp (mt List.mem_cons.mpr hkept)
        rw [List.foldl_cons, hread' path (by simpa [hne] using hmem) hkept, hread path hmem hne]

end Bundle

end ShaderMend
