import ShaderMend.Config
import ShaderMend.Proofs.Files.Writing
import ShaderMend.Proofs.Text.Splitting
import ShaderMend.Proofs.Toml.Pairs

/-!
# Configurations that are kept in files

The file of a configuration has one line for each of its options. It is read back as it was
saved; a file with only some of the options gives the others their defaults.

* `Config.parse?_of_spelled` — the options that some lines set, in any order.
* `Config.kept_of_store` — what is stored, loaded, and left alone.
-/

namespace ShaderMend.Config

/-- The options with some keys, and the defaults of the others. -/
def restrict (config : Config) (keys : List String) : Config where
  shaderDebugging :=
    if "shader_debugging" ∈ keys then config.shaderDebugging else standard.shaderDebugging
  downloadNewBundles :=
    if "download_new_bundles" ∈ keys then config.downloadNewBundles
    else standard.downloadNewBundles
  showUnsupportedShaders :=
    if "show_unsupported_shaders" ∈ keys then config.showUnsupportedShaders
    else standard.showUnsupportedShaders
  enableMultiPassRendering :=
    if "enable_multi_pass_rendering" ∈ keys then config.enableMultiPassRendering
    else standard.enableMultiPassRendering
  showUnresolvedNotice :=
    if "show_unresolved_notice" ∈ keys then config.showUnresolvedNotice
    else standard.showUnresolvedNotice
  bundleDirectory :=
    if "bundle_directory" ∈ keys then config.bundleDirectory else standard.bundleDirectory
  webBundleTimeout :=
    if "web_bundle_timeout_ms" ∈ keys then config.webBundleTimeout else standard.webBundleTimeout

variable {config : Config}

theorem nodup_settings : (config.settings.map Prod.fst).Nodup := by
  simp [settings]

theorem restrict_settings : config.restrict (config.settings.map Prod.fst) = config := by
  simp [restrict, settings]

theorem isBareKey_settings {pair : String × Toml.Scalar} (h : pair ∈ config.settings) :
    Toml.IsBareKey pair.1 := by
  simp only [settings, List.mem_cons, List.not_mem_nil, or_false] at h
  rcases h with rfl | rfl | rfl | rfl | rfl | rfl | rfl <;>
    exact ⟨by simp, by simp [Toml.isBareKeyChar]⟩

theorem held_settings (h : config.webBundleTimeout ≤ maxSpan) {pair : String × Toml.Scalar}
    (hmem : pair ∈ config.settings) : pair.2.Held := by
  simp only [settings, List.mem_cons, List.not_mem_nil, or_false] at hmem
  rcases hmem with rfl | rfl | rfl | rfl | rfl | rfl | rfl
  case inr.inr.inr.inr.inr.inr =>
    exact ⟨Int.natCast_nonneg _, Int.ofNat_le.mpr (UInt64.le_iff_toNat_le.mp h)⟩
  all_goals trivial

/-! ### Reading -/

section Reading

variable {chosen : List (String × Toml.Scalar)}

/-- Under the key of an option stands its value if it was chosen, and otherwise nothing. -/
theorem lookup_of_chosen (h : chosen ⊆ config.settings) {key : String} {value : Toml.Scalar}
    (hmem : (key, value) ∈ config.settings) :
    (Toml.entriesOf chosen).lookup key
      = if key ∈ chosen.map Prod.fst then some (.scalar value) else none := by
  cases hlookup : (Toml.entriesOf chosen).lookup key with
  | none =>
      refine (if_neg fun hkey => ?_).symm
      obtain ⟨pair, hpair, rfl⟩ := List.mem_map.mp hkey
      have hother := List.lookup_eq_none_iff.mp hlookup _ (List.mem_map_of_mem hpair)
      simp at hother
  | some node =>
      obtain ⟨before, after, hsplit, -⟩ := List.lookup_eq_some_iff.mp hlookup
      have hnode : (key, node) ∈ Toml.entriesOf chosen := by simp [hsplit]
      obtain ⟨⟨other, found⟩, hpair, hsame⟩ := List.mem_map.mp hnode
      obtain ⟨rfl, rfl⟩ := Prod.mk.inj hsame
      have hvalue := List.inj_on_of_nodup_map nodup_settings (h hpair) hmem rfl
      rw [if_pos (List.mem_map_of_mem hpair), (Prod.mk.inj hvalue).2]

/-- An option has its value if it was chosen, and otherwise its default. -/
theorem option?_of_chosen {α : Type} (h : chosen ⊆ config.settings)
    (value? : Toml.Node → Option α) (key : String) (value : Toml.Scalar)
    (hmem : (key, value) ∈ config.settings) {meant : α}
    (hvalue : value? (.scalar value) = some meant) (default : α) :
    option? (Toml.entriesOf chosen) value? key default
      = some (if key ∈ chosen.map Prod.fst then meant else default) := by
  rw [option?, lookup_of_chosen h hmem]
  split_ifs
  · exact hvalue
  · rfl

/-- **The options that some lines set are read**, in any order, and the others have their
defaults. -/
theorem parse?_of_spelled (h : chosen.Subperm config.settings) {text : List Char}
    (htext : Toml.SpellsPairs text chosen) :
    parse? (.ofList text) = some (config.restrict (chosen.map Prod.fst)) := by
  have hkeys : (chosen.map Prod.fst).Nodup := by
    obtain ⟨ordered, hperm, hsublist⟩ := h
    exact (hperm.map Prod.fst).nodup_iff.mp ((hsublist.map Prod.fst).nodup nodup_settings)
  have hspan : span? (.scalar (.integer config.webBundleTimeout.toNat))
      = some config.webBundleTimeout := by simp [span?]
  have hchosen := h.subset
  -- Each option is looked up on its own.
  rw [parse?, Toml.parse?_of_spelled htext hkeys, Option.bind_some, ofEntries?,
    option?_of_chosen hchosen boolean? "shader_debugging" (.boolean config.shaderDebugging)
      (by simp [settings]) rfl,
    option?_of_chosen hchosen boolean? "download_new_bundles" (.boolean config.downloadNewBundles)
      (by simp [settings]) rfl,
    option?_of_chosen hchosen boolean? "show_unsupported_shaders"
      (.boolean config.showUnsupportedShaders) (by simp [settings]) rfl,
    option?_of_chosen hchosen boolean? "enable_multi_pass_rendering"
      (.boolean config.enableMultiPassRendering) (by simp [settings]) rfl,
    option?_of_chosen hchosen boolean? "show_unresolved_notice"
      (.boolean config.showUnresolvedNotice) (by simp [settings]) rfl,
    option?_of_chosen hchosen path? "bundle_directory" (.string config.bundleDirectory.text)
      (by simp [settings]) rfl,
    option?_of_chosen hchosen span? "web_bundle_timeout_ms" (.integer config.webBundleTimeout.toNat)
      (by simp [settings]) hspan]
  rfl

end Reading

/-! ### Writing -/

theorem text?_eq_none_iff : config.text? = none ↔ maxSpan < config.webBundleTimeout := by
  rw [text?]
  split_ifs with h <;> simp [h]

theorem text?_eq (h : config.webBundleTimeout ≤ maxSpan) :
    config.text? = some (.ofList (Toml.linesText config.settings)) := by
  rw [text?, if_neg (UInt64.not_lt.mpr h)]

section Storing

variable {tree : FileTree} {path : Path}

/-- The options are written where a file can be, unless the span of time is too long. -/
theorem store_of_takes (h : config.webBundleTimeout ≤ maxSpan) (htakes : tree.Takes path) :
    ∃ written, config.store tree path = (written, .ok ()) ∧
      written.read path = .ok (Bytes.ofText (.ofList (Toml.linesText config.settings))) := by
  obtain ⟨written, hwrite, hread⟩ := FileTree.read_of_takes htakes
    (Bytes.ofText (.ofList (Toml.linesText config.settings)))
  refine ⟨written, ?_, hread⟩
  simp only [store, text?_eq h, hwrite]

/-- Where the options cannot be written, no file is touched. -/
theorem store_of_long (h : maxSpan < config.webBundleTimeout) :
    config.store tree path = (tree, .error .unwritable) := by
  rw [store, text?_eq_none_iff.mpr h]

theorem store_eq_unwritable_iff :
    (config.store tree path).2 = .error .unwritable ↔ maxSpan < config.webBundleTimeout := by
  refine ⟨fun hfailed => ?_, fun hlong => by rw [store_of_long hlong]⟩
  by_contra hspan
  rw [store, text?_eq (UInt64.not_lt.mp hspan)] at hfailed
  dsimp only at hfailed
  split at hfailed <;> cases hfailed

theorem store_eq_ok_iff :
    (config.store tree path).2 = .ok () ↔
      config.webBundleTimeout ≤ maxSpan ∧ tree.Takes path := by
  constructor
  · intro hstored
    have hspan : config.webBundleTimeout ≤ maxSpan := by
      refine UInt64.not_lt.mp fun hlong => ?_
      rw [store_of_long hlong] at hstored
      cases hstored
    refine ⟨hspan, ?_⟩
    rw [store, text?_eq hspan] at hstored
    dsimp only at hstored
    split at hstored
    · next hwrite => exact FileTree.takes_of_write hwrite
    · cases hstored
  · rintro ⟨hspan, htakes⟩
    obtain ⟨written, hstore, -⟩ := store_of_takes hspan htakes
    rw [hstore]

end Storing

/-- A file that holds the text of some options is loaded as these. -/
theorem load_of_read {tree : FileTree} {path : Path} {text : String}
    (h : tree.read path = .ok (Bytes.ofText text)) {meant : Config}
    (hmeant : parse? text = some meant) : load tree path = .ok meant := by
  unfold load
  simp only [FileTree.readText_of_read h, Except.mapError, ok_bind, hmeant]
  rfl

/-- The lines that are written for some of the options spell them. -/
theorem spellsPairs_of_chosen {chosen : List (String × Toml.Scalar)}
    (h : chosen.Subperm config.settings) (hspan : config.webBundleTimeout ≤ maxSpan) :
    Toml.SpellsPairs (Toml.linesText chosen) chosen :=
  Toml.spellsPairs_linesText fun _ hmem =>
    ⟨isBareKey_settings (h.subset hmem), held_settings hspan (h.subset hmem)⟩

/-- **Options that are stored are loaded as they were.** Some of them, in any order and with
comments and empty lines between them, are loaded with the defaults of the others. Where the
options cannot be written, the files are left as they are. -/
theorem kept_of_store (config : Config) (tree : FileTree) (path : Path) :
    ((config.store tree path).2 = .ok () ↔
        config.webBundleTimeout ≤ maxSpan ∧ tree.Takes path) ∧
      ((config.store tree path).2 = .ok () →
        load (config.store tree path).1 path = .ok config) ∧
      (∀ chosen, chosen.Subperm config.settings →
        (config.webBundleTimeout ≤ maxSpan → Toml.SpellsPairs (Toml.linesText chosen) chosen) ∧
        ∀ text, Toml.SpellsPairs text chosen →
          tree.read path = .ok (Bytes.ofText (.ofList text)) →
            load tree path = .ok (config.restrict (chosen.map Prod.fst))) ∧
      ((config.store tree path).2 = .error .unwritable ↔ maxSpan < config.webBundleTimeout) ∧
      ((config.store tree path).2 = .error .unwritable →
        (config.store tree path).1 = tree) := by
  refine ⟨store_eq_ok_iff, fun hstored => ?_, fun chosen hchosen => ⟨spellsPairs_of_chosen hchosen,
    fun text htext hread => load_of_read hread (parse?_of_spelled hchosen htext)⟩,
    store_eq_unwritable_iff, fun hfailed => ?_⟩
  · obtain ⟨hspan, htakes⟩ := store_eq_ok_iff.mp hstored
    obtain ⟨written, hstore, hread⟩ := store_of_takes hspan htakes
    have hall := List.Subperm.refl config.settings
    have hparse := parse?_of_spelled hall (spellsPairs_of_chosen hall hspan)
    rw [restrict_settings] at hparse
    rw [hstore]
    exact load_of_read hread hparse
  · rw [store_of_long (store_eq_unwritable_iff.mp hfailed)]

/-! ### A file of options -/

/-- Options with a directory whose name needs escapes. -/
def sample : Config :=
  { standard with bundleDirectory := ⟨"a\\b\n'c'\x7f\"d\""⟩ }

/-- The file that they are stored in. -/
def samplePath : Path := ⟨"repair.toml"⟩

theorem takes_sample : FileTree.empty.Takes samplePath := by
  have hcomponents : samplePath.components = [.name "repair.toml"] := by
    unfold Path.components
    rw [Path.parts_eq]
    decide +kernel
  have hplain : samplePath.namesDirectory = false := by
    unfold Path.namesDirectory
    rw [Path.parts_eq]
    decide +kernel
  refine ⟨["repair.toml"], ?_, by decide, hplain⟩
  simp only [FileTree.find, hcomponents]
  rfl

/-- The options are stored and loaded; with a longer span of time the file stays as it was. -/
theorem kept_of_sample :
    load (sample.store .empty samplePath).1 samplePath = .ok sample ∧
      ({ sample with webBundleTimeout := maxSpan + 1 }.store
        (sample.store .empty samplePath).1 samplePath).1 = (sample.store .empty samplePath).1 := by
  have hsample := kept_of_store sample .empty samplePath
  have hlong := kept_of_store { sample with webBundleTimeout := maxSpan + 1 }
    (sample.store .empty samplePath).1 samplePath
  exact ⟨hsample.2.1 (hsample.1.mpr ⟨by decide, takes_sample⟩),
    hlong.2.2.2.2 (hlong.2.2.2.1.mpr (by decide))⟩

end ShaderMend.Config
