import ShaderMend.Proofs.Bundle.Written
import ShaderMend.Proofs.Text.Splitting

/-!
# What an archive is read as

Of the entries of a zip two count: the first file that is named like a manifest and the first
one that is named like a payload, whatever folders they are in. The others may be any.

* `Bundle.outcome` — what the two make of an archive, one of them or both perhaps missing.
* `Bundle.select_of_opens` — the search for a name finds the first file with it.
* `Bundle.read_of_lists` — an archive is read as what the two make of it, so other entries do
  not count.
-/

namespace ShaderMend

/-! ### Entries of a zip -/

namespace Zip

/-- Whether an entry has been found, has the name of a member, and its content can be had and is
that of the member. -/
def Opens (opened : Except ArchiveError Entry) (member : Member) : Prop :=
  ∃ entry, opened = .ok entry ∧ entry.name = member.name ∧ entry.content = .ok member.content

/-- Whether octets are a zip that has the members as its entries, in the order of its
directory. -/
def Lists (bytes : Bytes) (members : List Member) : Prop :=
  ∃ archive, Archive.ofBytes bytes = .ok archive ∧
    List.Forall₂ Opens (archive.headers.map archive.entry) members

/-- Whether a member is a file and the last part of its name between slashes is the given one.
The name of a directory ends in a slash or a backslash. -/
def Member.Named (name : String) (member : Member) : Prop :=
  member.name.getLast? ∉ [some 0x2F, some 0x5C] ∧
    (member.name.splitOn 0x2F).getLast? = some (Bytes.ofText name)

instance (name : String) : DecidablePred (Member.Named name) :=
  fun _ => inferInstanceAs (Decidable (_ ∧ _))

theorem lists_of_readsBack {members : List Member} (h : ReadsBack members) :
    Lists (encode members) members :=
  h

theorem Entry.isDirectory_iff {entry : Entry} :
    entry.isDirectory = true ↔ entry.name.getLast? ∈ [some 0x2F, some 0x5C] := by
  unfold isDirectory
  cases entry.name.getLast? <;> simp

theorem Entry.fileName_eq (entry : Entry) :
    (entry.name.splitOn 0x2F).getLast? = some entry.fileName := by
  rw [List.getLast?_eq_some_getLast (List.splitOn_ne_nil _ _), ← Text.lastPart_eq]
  rfl

/-- An entry is passed over exactly if it is not named so. -/
theorem Member.named_iff {entry : Entry} {member : Member} (hname : entry.name = member.name)
    (name : String) :
    member.Named name ↔ (!entry.isDirectory) = true ∧ entry.fileName = Bytes.ofText name := by
  rw [Named, ← hname, entry.fileName_eq, ← Entry.isDirectory_iff]
  simp

end Zip

namespace Bundle

/-! ### The two entries that count -/

/-- What the first manifest and the first payload make of an archive. -/
def outcome (path : Path) : (manifest? payload? : Option Zip.Member) → Except Error Contents
  | none, _ => .error (.missingEntry manifestName)
  | some _, none => .error (.missingEntry payloadName)
  | some manifest, some payload =>
      match Bytes.toText? manifest.content with
      | none => .error (.file .invalidText)
      | some text =>
          match Manifest.parse text with
          | .error error => .error (.manifest error)
          | .ok entries => .ok ⟨path, entries, payload.content⟩

/-- The first file with a name. -/
def first? (name : String) (members : List Zip.Member) : Option Zip.Member :=
  members.find? fun member => member.Named name

/-- **The search for a name finds the first file with it**, by induction on the entries. -/
theorem select_of_opens {opened : List Opened} {members : List Zip.Member}
    (h : List.Forall₂ Zip.Opens opened members) (name : String) :
    match first? name members with
    | none => select name opened = .error (.missingEntry name)
    | some member => ∃ entry, select name opened = .ok entry ∧
        entry.content = .ok member.content := by
  induction h with
  | nil => rfl
  | @cons opened member rest members hopens _ ih =>
      obtain ⟨entry, rfl, hname, hcontent⟩ := hopens
      have hnamed := Zip.Member.named_iff hname name
      by_cases hfound : member.Named name
      · have hfirst : first? name (member :: members) = some member :=
          List.find?_cons_of_pos (by simpa using hfound)
        rw [hfirst]
        exact ⟨entry, if_pos (hnamed.mp hfound), hcontent⟩
      · have hfirst : first? name (member :: members) = first? name members :=
          List.find?_cons_of_neg (by simpa using hfound)
        have hpassed : select name (.ok entry :: rest) = select name rest :=
          if_neg fun hentry => hfound (hnamed.mpr hentry)
        rw [hfirst, hpassed]
        exact ih

theorem assemble_of_opens {opened : List Opened} {members : List Zip.Member}
    (h : List.Forall₂ Zip.Opens opened members) (path : Path) :
    assemble path opened
      = outcome path (first? manifestName members) (first? payloadName members) := by
  have hmanifest := select_of_opens h manifestName
  have hpayload := select_of_opens h payloadName
  cases hfirst : first? manifestName members with
  | none =>
      rw [hfirst] at hmanifest
      simp only [assemble, hmanifest]
      rfl
  | some manifest =>
      rw [hfirst] at hmanifest
      obtain ⟨found, hfound, hcontent⟩ := hmanifest
      cases hsecond : first? payloadName members with
      | none =>
          rw [hsecond] at hpayload
          simp only [assemble, hfound, hpayload]
          rfl
      | some payload =>
          rw [hsecond] at hpayload
          obtain ⟨other, hother, hlines⟩ := hpayload
          simp only [assemble, hfound, hother, hcontent, hlines, ok_bind, Except.mapError, outcome]
          cases Bytes.toText? manifest.content with
          | none => rfl
          | some text =>
              dsimp only
              cases Manifest.parse text <;> rfl

/-! ### Archives -/

/-- **An archive is read as what its first manifest and its first payload make of it.** So it is
read like every other one with the same first file of each of the two names, whatever other
entries are put in, left out or moved. -/
theorem read_of_lists {files : FileTree} {path : Path} {place : Place} {bytes : Bytes}
    {members : List Zip.Member} (hlocate : files.locate path = .ok (place, .file bytes))
    (hlists : Zip.Lists bytes members) :
    read files path = outcome path (first? manifestName members) (first? payloadName members) ∧
    ∀ files' place' bytes' members', files'.locate path = .ok (place', .file bytes') →
      Zip.Lists bytes' members' →
      (∀ name ∈ [manifestName, payloadName],
        (members'.filter (Zip.Member.Named name)).head?
          = (members.filter (Zip.Member.Named name)).head?) →
      read files' path = read files path := by
  have hread : ∀ {files place bytes members}, files.locate path = .ok (place, .file bytes) →
      Zip.Lists bytes members → read files path
        = outcome path (first? manifestName members) (first? payloadName members) := by
    rintro files place bytes members hlocate ⟨archive, harchive, hopens⟩
    simp only [read, hlocate, harchive, Except.mapError, ok_bind]
    exact assemble_of_opens hopens path
  refine ⟨hread hlocate hlists, fun files' place' bytes' members' hlocate' hlists' hsame => ?_⟩
  have hfirst : ∀ name ∈ [manifestName, payloadName],
      first? name members' = first? name members := by
    intro name hname
    have hheads := hsame name hname
    rwa [List.head?_filter, List.head?_filter] at hheads
  rw [hread hlocate hlists, hread hlocate' hlists', hfirst _ (by simp), hfirst _ (by simp)]

/-- The entries of an archive, with files that are only named alike beside the two that count. -/
def sampleMembers : List Zip.Member :=
  [⟨Bytes.ofText "x-manifest.json", Bytes.ofText "[]"⟩,
   ⟨Bytes.ofText "manifest.json/", []⟩,
   ⟨Bytes.ofText "a/b/manifest.json", Bytes.ofText "\x7b\"x\":\x7b\"name\":\"S\"\x7d\x7d"⟩,
   ⟨Bytes.ofText "manifest.json", Bytes.ofText "?"⟩,
   ⟨Bytes.ofText "manifest.json/shaders.bundle", [1, 2, 255]⟩]

/-- The two that count, the other way round and with another entry between them. -/
def movedMembers : List Zip.Member :=
  [⟨Bytes.ofText "manifest.json/shaders.bundle", [1, 2, 255]⟩,
   ⟨Bytes.ofText "shaders.bundle.txt", [0]⟩,
   ⟨Bytes.ofText "a/b/manifest.json", Bytes.ofText "\x7b\"x\":\x7b\"name\":\"S\"\x7d\x7d"⟩]

theorem read_of_sampleMembers :
    (FileTree.locate ⟨[(["a"], .file (Zip.encode sampleMembers))]⟩ ⟨"a"⟩
        = .ok (["a"], .file (Zip.encode sampleMembers)) ∧
      Zip.Lists (Zip.encode sampleMembers) sampleMembers ∧
      FileTree.locate ⟨[(["a"], .file (Zip.encode movedMembers))]⟩ ⟨"a"⟩
        = .ok (["a"], .file (Zip.encode movedMembers)) ∧
      Zip.Lists (Zip.encode movedMembers) movedMembers) ∧
    read ⟨[(["a"], .file (Zip.encode sampleMembers))]⟩ ⟨"a"⟩
      = .ok ⟨⟨"a"⟩, [⟨"x", ⟨"S", [], []⟩, .empty⟩], [1, 2, 255]⟩ ∧
    read ⟨[(["a"], .file (Zip.encode movedMembers))]⟩ ⟨"a"⟩
      = read ⟨[(["a"], .file (Zip.encode sampleMembers))]⟩ ⟨"a"⟩ := by
  have hsample : Zip.ReadsBack sampleMembers := by decide +kernel
  have hmoved : Zip.ReadsBack movedMembers := by decide +kernel
  have hlocate := locate_single (Zip.encode sampleMembers)
  have hlocate' := locate_single (Zip.encode movedMembers)
  obtain ⟨hread, hother⟩ := read_of_lists hlocate (Zip.lists_of_readsBack hsample)
  refine ⟨⟨hlocate, hsample, hlocate', hmoved⟩, ?_, ?_⟩
  · apply read_of_parts
    rw [hread]
    decide +kernel
  · exact hother _ _ _ _ hlocate' (Zip.lists_of_readsBack hmoved) (by decide +kernel)

end Bundle

end ShaderMend
