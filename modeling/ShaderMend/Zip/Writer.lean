import ShaderMend.Zip.Archive

/-!
# Writing zip archives

The entries are stored one behind the other, each behind its header; the directory
follows, then the record at the end.
-/

namespace ShaderMend.Zip

/-- A named content to be stored. -/
structure Member where
  name : Bytes
  content : Bytes
  deriving DecidableEq, Repr

namespace Member

/-- The part that the two headers of an entry share: version 2.0, names in UTF-8,
method stored, a fixed date, the checksum, both lengths and the length of the name. -/
def description (member : Member) : Bytes :=
  LittleEndian.encode 2 20 ++ LittleEndian.encode 2 0x0800 ++ LittleEndian.encode 2 0
    ++ LittleEndian.encode 2 0 ++ LittleEndian.encode 2 0x21
    ++ LittleEndian.encode 4 (checksumOf member.content).toNat
    ++ LittleEndian.encode 4 member.content.length ++ LittleEndian.encode 4 member.content.length
    ++ LittleEndian.encode 2 member.name.length ++ LittleEndian.encode 2 0

/-- The header, name and content of an entry. -/
def stored (member : Member) : Bytes :=
  localSignature ++ member.description ++ member.name ++ member.content

/-- The header of an entry in the directory. -/
def listed (member : Member) (place : Nat) : Bytes :=
  directorySignature ++ LittleEndian.encode 2 20 ++ member.description
    ++ LittleEndian.encode 2 0 ++ LittleEndian.encode 2 0 ++ LittleEndian.encode 2 0
    ++ LittleEndian.encode 4 0 ++ LittleEndian.encode 4 place ++ member.name

end Member

/-- The directory of entries of which the first lies at `place`. -/
def directory (place : Nat) : List Member → Bytes
  | [] => []
  | member :: members =>
      member.listed place ++ directory (place + member.stored.length) members

/-- The record at the end. -/
def endRecord (entries directorySize directoryOffset : Nat) : Bytes :=
  endSignature ++ LittleEndian.encode 2 0 ++ LittleEndian.encode 2 0
    ++ LittleEndian.encode 2 entries ++ LittleEndian.encode 2 entries
    ++ LittleEndian.encode 4 directorySize ++ LittleEndian.encode 4 directoryOffset
    ++ LittleEndian.encode 2 0

/-- The archive with the given entries. -/
def encode (members : List Member) : Bytes :=
  let data := members.flatMap Member.stored
  let directory := directory 0 members
  data ++ directory ++ endRecord members.length directory.length data.length

end ShaderMend.Zip
