import ShaderMend.Proofs.Json.Compact

/-!
# Texts of JSON values on several lines

Indentation is white space between tokens, so a value on several lines is written in one of its
spellings too, and is read back.

* `Json.spells_indented` — the text of a value at any level spells it, by induction on the value.
* `Json.spellsText_pretty` — so does the text of a whole document.
-/

namespace ShaderMend.Json

theorem blank_newLine (level : Nat) : Blank (newLine level) := by
  intro c hmem
  rcases List.mem_cons.mp hmem with rfl | hmem
  · rfl
  · obtain rfl := List.eq_of_mem_replicate hmem
    rfl

theorem indentedItems_eq (level : Nat) (items : List Json) :
    indentedItems level items = spacedMore (newLine level) (indented level) items := by
  induction items with
  | nil => rfl
  | cons item items ih => simp [indentedItems, ih, spacedMore]

/-- The text of a member at a level of nesting. -/
def indentedMember (level : Nat) (member : String × Json) : List Char :=
  quoted member.1 ++ ':' :: ' ' :: indented level member.2

theorem indentedMembers_eq (level : Nat) (members : List (String × Json)) :
    indentedMembers level members
      = spacedMore (newLine level) (indentedMember level) members := by
  induction members with
  | nil => rfl
  | cons member members ih =>
      obtain ⟨name, value⟩ := member
      simp [indentedMembers, ih, spacedMore, indentedMember]

theorem blank_space : Blank [' '] := by
  intro c hmem
  obtain rfl := List.mem_singleton.mp hmem
  rfl

/-- **A value on several lines is written in one of its spellings**, whatever level it stands at,
by induction on the value. -/
theorem spells_indented {nesting : Nat} {value : Json} (h : Held nesting value) (level : Nat) :
    Spells nesting (indented level value) value.reread := by
  induction h generalizing level with
  | null => exact spells_scalar _ .null
  | bool => exact spells_scalar _ (spellsScalar_boolWord _)
  | number h => exact spells_scalar _ (spellsScalar_written h)
  | string => exact spells_scalar _ (spellsScalar_quoted _)
  | @array nesting items h ih =>
      refine spells_compound ?_
      cases items with
      | nil => exact .array (.nil blank_nil)
      | cons item items =>
          have hitems : ∀ other ∈ item :: items,
              Spells nesting (indented (level + 1) other) other.reread :=
            fun other hmem => ih other hmem (level + 1)
          have hall := spellsAll_spaced (blank_newLine (level + 1)) (blank_newLine (level + 1))
            (blank_newLine level) hitems ']'
          have harray := SpellsCompound.array hall
          simpa [indented, indentedItems_eq] using harray
  | @object nesting members h ih =>
      refine spells_compound ?_
      cases members with
      | nil => exact .object (.nil blank_nil)
      | cons member members =>
          have hmembers : ∀ other ∈ member :: members,
              SpellsMember (Spells nesting) (indentedMember (level + 1) other)
                (rereadMember other) :=
            fun other hmem => spellsMember_quoted other.1 blank_space (ih other hmem (level + 1))
          have hall := spellsAll_spaced (blank_newLine (level + 1)) (blank_newLine (level + 1))
            (blank_newLine level) hmembers '\x7d'
          have hobject := SpellsCompound.object hall
          simpa [indented, indentedMember, indentedMembers_eq] using hobject

theorem spellsText_indented {value : Json} (h : Held maxNesting value) (level : Nat) :
    SpellsText (String.ofList (indented level value)) value.reread :=
  ⟨[], indented level value, [], by simp, blank_nil, blank_nil, spells_indented h level⟩

theorem spellsText_pretty {value : Json} (h : Held maxNesting value) :
    SpellsText value.pretty value.reread :=
  spellsText_indented h 0

end ShaderMend.Json
