import ShaderMend.Bytes

/-!
# Compressed content

Content is compressed by replacing repeated stretches with references to what came
before, and by writing literals and references in prefix codes. A stream is a row
of blocks, stored, in the fixed code, or in a code of their own.

A stream is refused if it breaks the rules, and also if it ends too early. What lies
before the start of the content counts as zeros for a reference that reaches there.
-/

namespace ShaderMend.Zip

/-- The bits of octets, low bits first. -/
def bitsOf (bytes : Bytes) : List Bool :=
  bytes.flatMap fun octet => (List.range 8).map fun place => octet.toNat.testBit place

namespace Inflate

/-- Why decoding stops before the end of the stream. -/
inductive Stop where
  | exhausted
  | corrupt
  deriving DecidableEq, Repr

/-- The number in the next `width` bits, low bits first. -/
def number : (width : Nat) → List Bool → Except Stop (Nat × List Bool)
  | 0, bits => .ok (0, bits)
  | _ + 1, [] => .error .exhausted
  | width + 1, bit :: bits => do
      let (high, bits) ← number width bits
      return (bit.toNat + 2 * high, bits)

/-! ### Prefix codes -/

/-- A prefix code whose words of one length are consecutive numbers. -/
structure Code where
  /-- How many words have length 1, 2, and so on up to the longest. There is always a
  length 1. -/
  counts : List Nat
  /-- The symbols in the order of their words. -/
  symbols : List Nat
  deriving Repr

namespace Code

/-- How many words of the longest length a code lacks of being complete; negative if it
has too many. -/
def slack (counts : List Nat) : Int :=
  counts.foldl (fun (left : Int) (count : Nat) => 2 * left - count) 1

/-- The code in which the symbol `i` has the `i`-th length; length 0 leaves it out.
It may lack or have too many words. -/
def withLengths (lengths : List Nat) : Code :=
  let longest := lengths.foldl max 1
  { counts := (List.range longest).map fun i => lengths.count (i + 1)
    symbols := (List.range longest).flatMap fun i =>
      (List.range lengths.length).filter fun symbol => lengths[symbol]? = some (i + 1) }

/-- Whether every row of bits starts with exactly one word. -/
def isComplete (code : Code) : Bool :=
  slack code.counts = 0

/-- Whether the code has no word, or one that is a single bit. -/
def isSingle (code : Code) : Bool :=
  code.symbols.length ≤ 1 && code.symbols.length = code.counts.headD 0

/-- The code for lengths with these lengths, which must be complete. -/
def ofLengthLengths (lengths : List Nat) : Except Stop Code :=
  let code := withLengths lengths
  if code.isComplete then .ok code else .error .corrupt

/-- The code for content with these lengths, which must be complete or have at most one
word, a single bit. -/
def ofLengths (lengths : List Nat) : Except Stop Code :=
  let code := withLengths lengths
  if code.isComplete || code.isSingle then .ok code else .error .corrupt

/-- Reads bits until they are a word: `word` are the bits so far, `first` is the first
word of the length at hand and `index` the number of shorter words. As many bits as the
longest word has that are no word are a fault. -/
def readFrom (symbols : List Nat) :
    (counts : List Nat) → (word first index : Nat) → List Bool → Except Stop (Nat × List Bool)
  | [], _, _, _, _ => .error .corrupt
  | _ :: _, _, _, _, [] => .error .exhausted
  | count :: counts, word, first, index, bit :: bits =>
      let word := word + bit.toNat
      if word < first + count then
        match symbols[index + (word - first)]? with
        | some symbol => .ok (symbol, bits)
        | none => .error .corrupt
      else readFrom symbols counts (2 * word) (2 * (first + count)) (index + count) bits

/-- Reads a symbol. -/
def read (code : Code) (bits : List Bool) : Except Stop (Nat × List Bool) :=
  readFrom code.symbols code.counts 0 0 0 bits

end Code

/-! ### Blocks -/

/-- Octets that are decoded one after the other. -/
abbrev Output := Array UInt8

/-- What is decoded, and how decoding went on. -/
structure Progress where
  output : Output
  rest : Except Stop (List Bool)

/-- Least length and number of further bits for each length symbol from 257 on. -/
def lengthTable : List (Nat × Nat) :=
  [(3, 0), (4, 0), (5, 0), (6, 0), (7, 0), (8, 0), (9, 0), (10, 0), (11, 1), (13, 1), (15, 1),
   (17, 1), (19, 2), (23, 2), (27, 2), (31, 2), (35, 3), (43, 3), (51, 3), (59, 3), (67, 4),
   (83, 4), (99, 4), (115, 4), (131, 5), (163, 5), (195, 5), (227, 5), (258, 0)]

/-- Least distance and number of further bits for each distance symbol. -/
def distanceTable : List (Nat × Nat) :=
  [(1, 0), (2, 0), (3, 0), (4, 0), (5, 1), (7, 1), (9, 2), (13, 2), (17, 3), (25, 3), (33, 4),
   (49, 4), (65, 5), (97, 5), (129, 6), (193, 6), (257, 7), (385, 7), (513, 8), (769, 8),
   (1025, 9), (1537, 9), (2049, 10), (3073, 10), (4097, 11), (6145, 11), (8193, 12), (12289, 12),
   (16385, 13), (24577, 13)]

/-- Reads the value that a symbol and its further bits stand for. -/
def extended (table : List (Nat × Nat)) (symbol : Nat) (bits : List Bool) :
    Except Stop (Nat × List Bool) :=
  match table[symbol]? with
  | none => .error .corrupt
  | some (least, width) => do
      let (further, bits) ← number width bits
      return (least + further, bits)

/-- The octet that lies `distance` before the end. Before the start there are zeros. -/
def octetBack (distance : Nat) (output : Output) : UInt8 :=
  if distance ≤ output.size then output[output.size - distance]?.getD 0 else 0

/-- Repeats `length` octets from `distance` back, the repeated ones included. -/
def repeatBack (distance : Nat) : (length : Nat) → Output → Output
  | 0, output => output
  | length + 1, output => repeatBack distance length (output.push (octetBack distance output))

/-- A reference to what is decoded already. -/
structure Reference where
  distance : Nat
  length : Nat
  deriving Repr

/-- Reads the reference that starts with a length symbol. -/
def readReference (distances : Code) (symbol : Nat) (bits : List Bool) :
    Except Stop (Reference × List Bool) := do
  let (length, bits) ← extended lengthTable (symbol - 257) bits
  let (symbol, bits) ← distances.read bits
  let (distance, bits) ← extended distanceTable symbol bits
  return (⟨distance, length⟩, bits)

/-- Decodes symbols up to the end of a block. The first argument bounds their number. -/
def readSymbols (literals distances : Code) : Nat → Output → List Bool → Progress
  | 0, output, _ => ⟨output, .error .exhausted⟩
  | fuel + 1, output, bits =>
      match literals.read bits with
      | .error stop => ⟨output, .error stop⟩
      | .ok (symbol, bits) =>
          if symbol < 256 then
            readSymbols literals distances fuel (output.push (UInt8.ofNat symbol)) bits
          else if symbol = 256 then ⟨output, .ok bits⟩
          else
            match readReference distances symbol bits with
            | .error stop => ⟨output, .error stop⟩
            | .ok (⟨distance, length⟩, bits) =>
                readSymbols literals distances fuel (repeatBack distance length output) bits

/-- Copies stored octets for as long as there are any. -/
def copyStored : (length : Nat) → Output → List Bool → Progress
  | 0, output, bits => ⟨output, .ok bits⟩
  | length + 1, output, bits =>
      match number 8 bits with
      | .error stop => ⟨output, .error stop⟩
      | .ok (octet, bits) => copyStored length (output.push (UInt8.ofNat octet)) bits

/-- Decodes a stored block: from the next octet on, its length, the complement of
the length and the content. -/
def readStored (output : Output) (bits : List Bool) : Progress :=
  let header : Except Stop (Nat × List Bool) := do
    let (length, bits) ← number 16 (bits.drop (bits.length % 8))
    let (complement, bits) ← number 16 bits
    if length + complement = 0xFFFF then return (length, bits) else throw .corrupt
  match header with
  | .error stop => ⟨output, .error stop⟩
  | .ok (length, bits) => copyStored length output bits

/-- The lengths of the fixed code for literals and lengths. -/
def fixedLiteralLengths : List Nat :=
  List.replicate 144 8 ++ List.replicate 112 9 ++ List.replicate 24 7 ++ List.replicate 8 8

/-- The lengths of the fixed code for distances. -/
def fixedDistanceLengths : List Nat :=
  List.replicate 32 5

/-- The order in which a block gives the lengths of the code for lengths. -/
def lengthOrder : List Nat :=
  [16, 17, 18, 0, 8, 7, 9, 6, 10, 5, 11, 4, 12, 3, 13, 2, 14, 1, 15]

/-- Reads the lengths of the code for lengths, given for some of the symbols. -/
def readLengthLengths : List Nat → List Bool → Except Stop (List (Nat × Nat) × List Bool)
  | [], bits => .ok ([], bits)
  | symbol :: symbols, bits => do
      let (length, bits) ← number 3 bits
      let (lengths, bits) ← readLengthLengths symbols bits
      return ((symbol, length) :: lengths, bits)

/-- Reads code lengths until there are `total`; `lengths` are those so far, the last
one first. The first argument bounds the number of symbols. -/
def readLengths (code : Code) (total : Nat) :
    Nat → List Nat → List Bool → Except Stop (List Nat × List Bool)
  | 0, _, _ => .error .exhausted
  | fuel + 1, lengths, bits =>
      if total < lengths.length then .error .corrupt
      else if lengths.length = total then .ok (lengths.reverse, bits)
      else do
        let (symbol, bits) ← code.read bits
        if symbol < 16 then
          readLengths code total fuel (symbol :: lengths) bits
        else if symbol = 16 then
          let some last := lengths.head? | throw .corrupt
          let (further, bits) ← number 2 bits
          readLengths code total fuel (List.replicate (3 + further) last ++ lengths) bits
        else
          let (least, width) := if symbol = 17 then (3, 3) else (11, 7)
          let (further, bits) ← number width bits
          readLengths code total fuel (List.replicate (least + further) 0 ++ lengths) bits

/-- The largest number of literals and lengths that a block may bring along. -/
def maxLiterals : Nat := 286

/-- The largest number of distances that a block may bring along. -/
def maxDistances : Nat := 30

/-- Reads the two codes that a block brings along. -/
def readCodes (bits : List Bool) : Except Stop ((Code × Code) × List Bool) := do
  let (further, bits) ← number 5 bits
  let literals := further + 257
  let (further, bits) ← number 5 bits
  let distances := further + 1
  let (lengths, bits) ← number 4 bits
  if maxLiterals < literals ∨ maxDistances < distances then throw .corrupt
  let (given, bits) ← readLengthLengths (lengthOrder.take (lengths + 4)) bits
  let lengthCode ←
    Code.ofLengthLengths ((List.range 19).map fun symbol => (given.lookup symbol).getD 0)
  let (all, bits) ← readLengths lengthCode (literals + distances) (bits.length + 1) [] bits
  let literalCode ← Code.ofLengths (all.take literals)
  let distanceCode ← Code.ofLengths (all.drop literals)
  return ((literalCode, distanceCode), bits)

/-- Decodes a block of one of the three kinds. -/
def readBlock (kind : Nat) (output : Output) (bits : List Bool) : Progress :=
  match kind with
  | 0 => readStored output bits
  | 1 =>
      match Code.ofLengths fixedLiteralLengths, Code.ofLengths fixedDistanceLengths with
      | .ok literals, .ok distances =>
          readSymbols literals distances (bits.length + 1) output bits
      | _, _ => ⟨output, .error .corrupt⟩
  | 2 =>
      match readCodes bits with
      | .error stop => ⟨output, .error stop⟩
      | .ok ((literals, distances), bits) =>
          readSymbols literals distances (bits.length + 1) output bits
  | _ => ⟨output, .error .corrupt⟩

/-- Decodes blocks up to the last one. The first argument bounds their number. -/
def readBlocks : Nat → Output → List Bool → Progress
  | 0, output, _ => ⟨output, .error .exhausted⟩
  | fuel + 1, output, bits =>
      let header : Except Stop ((Nat × Nat) × List Bool) := do
        let (last, bits) ← number 1 bits
        let (kind, bits) ← number 2 bits
        return ((last, kind), bits)
      match header with
      | .error stop => ⟨output, .error stop⟩
      | .ok ((last, kind), bits) =>
          match readBlock kind output bits with
          | ⟨output, .error stop⟩ => ⟨output, .error stop⟩
          | ⟨output, .ok bits⟩ =>
              if last = 1 then ⟨output, .ok bits⟩ else readBlocks fuel output bits

end Inflate

/-- The content of a compressed stream. What follows the last block does not count. -/
def inflate (stream : Bytes) : Except Inflate.Stop Bytes :=
  let bits := bitsOf stream
  match Inflate.readBlocks (bits.length + 1) #[] bits with
  | ⟨output, .ok _⟩ => .ok output.toList
  | ⟨_, .error stop⟩ => .error stop

end ShaderMend.Zip
