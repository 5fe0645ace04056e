import ShaderMend.Bytes
import ShaderMend.Text.Lines

/-!
# Payloads in plain text

The simplest native bundle is a text with one line per shader: the path of its asset,
a tab, the name of the shader. `Payload.decode?` refuses only octets that are no
text; a line without tab is passed over.

* `splitLine?_encodeLine` — a line is read back, if the asset path holds no tab.
-/

namespace ShaderMend.Payload

/-- The assets of a payload and the names of their shaders, in the order of the
lines. -/
abbrev Assets := List (String × String)

/-- The parts of a line before and behind its first tab. -/
def splitLine? (line : List Char) : Option (String × String) :=
  match line.dropWhile (· ≠ '\t') with
  | [] => none
  | _ :: rest => some (String.ofList (line.takeWhile (· ≠ '\t')), String.ofList rest)

/-- The assets that a payload lists. -/
def decode? (payload : Bytes) : Option Assets :=
  (Bytes.toText? payload).map fun text => (Text.lines text.toList).filterMap splitLine?

/-- The name of the shader of an asset; the last line on an asset counts. -/
def name? (assets : Assets) (assetPath : String) : Option String :=
  assets.reverse.lookup assetPath

/-- The line on a shader, without line feed. -/
def encodeLine (asset : String × String) : List Char :=
  asset.1.toList ++ '\t' :: asset.2.toList

/-- The payload that lists the assets. -/
def encode (assets : Assets) : Bytes :=
  Bytes.ofText (String.ofList (assets.flatMap fun asset => encodeLine asset ++ ['\n']))

theorem splitLine?_encodeLine (asset : String × String) (h : '\t' ∉ asset.1.toList) :
    splitLine? (encodeLine asset) = some asset := by
  have hall : ∀ c ∈ asset.1.toList, (!decide (c = '\t')) = true := by
    intro c hc
    have hne : c ≠ '\t' := by
      rintro rfl
      exact h hc
    simpa using hne
  simp [splitLine?, encodeLine, List.takeWhile_append_of_pos hall,
    List.dropWhile_append_of_pos hall]

end ShaderMend.Payload
