import Mathlib.Data.String.Basic
import ShaderMend.Path

/-!
# Texts in parts

Texts are split at a separator by octets; what comes of it is what a look at the characters one
after the other gives. So the parts of a path can be computed and reasoned about.

* `Text.splitOn_singleton` — splitting a text at a character is splitting its characters.
* `Text.lastPart_eq` — what stands behind the last separator is the last of the parts.
-/

namespace ShaderMend

namespace Text

open String

/-- The part that is being read begins after `before` and consists of `part` so far. -/
theorem splitOnAux_ofList (separator : Char) (before part rest : List Char) (parts : List String) :
    splitOnAux (ofList (before ++ part ++ rest)) (ofList [separator]) ⟨utf8Len before⟩
        ⟨utf8Len before + utf8Len part⟩ 0 parts
      = parts.reverse
        ++ (List.splitOnPPrepend (· == separator) rest part.reverse).map ofList := by
  induction rest generalizing before part parts with
  | nil =>
      have hend : Pos.Raw.atEnd (ofList (before ++ part ++ []))
          ⟨utf8Len before + utf8Len part⟩ = true := by
        simpa using atEnd_of_valid (before ++ part) []
      have hpart := extract_of_valid before part []
      rw [splitOnAux, if_pos hend]
      simpa using hpart
  | cons char rest ih =>
      have hend : ¬ Pos.Raw.atEnd (ofList (before ++ part ++ char :: rest))
          ⟨utf8Len before + utf8Len part⟩ = true := by
        simpa using atEnd_of_valid (before ++ part) (char :: rest)
      have hget : Pos.Raw.get (ofList (before ++ part ++ char :: rest))
          ⟨utf8Len before + utf8Len part⟩ = char := by
        simpa [-ofList_append] using get_of_valid (before ++ part) (char :: rest)
      have hnext : Pos.Raw.next (ofList (before ++ part ++ char :: rest))
          ⟨utf8Len before + utf8Len part⟩ = ⟨utf8Len before + utf8Len part + char.utf8Size⟩ := by
        simpa [-ofList_append] using next_of_valid (before ++ part) char rest
      have hseparator : Pos.Raw.get (ofList [separator]) 0 = separator := by
        simpa [-ofList_append] using get_of_valid [] [separator]
      rw [splitOnAux, if_neg hend, hget, hseparator]
      by_cases heq : char = separator
      · subst heq
        have hover : Pos.Raw.next (ofList [char]) 0 = ⟨char.utf8Size⟩ := by
          simpa [-ofList_append] using next_of_valid [] char []
        have hended : Pos.Raw.atEnd (ofList [char]) ⟨char.utf8Size⟩ = true := by
          simpa using atEnd_of_valid [char] []
        have hback : (⟨utf8Len before + utf8Len part + char.utf8Size⟩ : Pos.Raw).unoffsetBy
            ⟨char.utf8Size⟩ = ⟨utf8Len before + utf8Len part⟩ := by
          simp [Pos.Raw.unoffsetBy]
        have hpart := extract_of_valid before part (char :: rest)
        have hrest := ih (before ++ part ++ [char]) [] (ofList part :: parts)
        simp only [beq_self_eq_true, if_true, hnext, hover, hended, hback, hpart]
        simpa [Nat.add_assoc, List.splitOnPPrepend_cons_eq_if, -ofList_append] using hrest
      · have hback : (⟨utf8Len before + utf8Len part⟩ : Pos.Raw).unoffsetBy 0
            = ⟨utf8Len before + utf8Len part⟩ := by
          simp [Pos.Raw.unoffsetBy]
        have hrest := ih before (part ++ [char]) parts
        simp only [beq_iff_eq, heq, if_false, hback, hnext]
        simpa [Nat.add_assoc, List.splitOnPPrepend_cons_eq_if, heq, -ofList_append] using hrest

/-- **Splitting a text at a character is splitting its characters.** -/
theorem splitOn_singleton (text : String) (separator : Char) :
    text.splitOn (ofList [separator]) = (text.toList.splitOn separator).map ofList := by
  have hseparator : (ofList [separator] == "") = false := by simp
  have hparts := splitOnAux_ofList separator [] [] text.toList []
  rw [splitOn, hseparator]
  simpa [List.splitOn] using hparts

/-! ### The last part -/

section LastPart

variable {α : Type} [DecidableEq α]

/-- What a row has behind its last separator; all of it if it has none. -/
def lastPart (separator : α) (items : List α) : List α :=
  (items.reverse.takeWhile (· ≠ separator)).reverse

theorem not_mem_lastPart (separator : α) (items : List α) :
    separator ∉ lastPart separator items := by
  intro hmem
  have hall := List.all_takeWhile (l := items.reverse) (p := (· ≠ separator))
  simpa using List.all_eq_true.mp hall separator (List.mem_reverse.mp hmem)

/-- A row is its last part, behind a separator if there is one. -/
theorem eq_or_append_lastPart (separator : α) (items : List α) :
    items = lastPart separator items ∨
      ∃ before, items = before ++ separator :: lastPart separator items := by
  have hsplit : items
      = (items.reverse.dropWhile (· ≠ separator)).reverse ++ lastPart separator items := by
    rw [lastPart, ← List.reverse_append, List.takeWhile_append_dropWhile, List.reverse_reverse]
  cases hbefore : items.reverse.dropWhile (· ≠ separator) with
  | nil =>
      rw [hbefore] at hsplit
      exact Or.inl hsplit
  | cons item before =>
      have hitem : item = separator := by
        have hhead := List.head?_dropWhile_not (· ≠ separator) items.reverse
        rw [hbefore] at hhead
        simpa using hhead
      rw [hbefore, hitem] at hsplit
      exact Or.inr ⟨before.reverse, by simpa using hsplit⟩

/-- **What stands behind the last separator is the last of the parts.** -/
theorem lastPart_eq (separator : α) (items : List α) :
    lastPart separator items
      = (items.splitOn separator).getLast (List.splitOn_ne_nil separator items) := by
  have hmem := not_mem_lastPart separator items
  rcases eq_or_append_lastPart separator items with hwhole | ⟨before, hsplit⟩
  · have hparts : items.splitOn separator = [lastPart separator items] := by
      conv_lhs => rw [hwhole]
      exact List.splitOn_eq_singleton hmem
    simp [hparts]
  · have hparts : items.splitOn separator
        = before.splitOn separator ++ [lastPart separator items] := by
      conv_lhs => rw [hsplit]
      rw [List.splitOn_append_cons_self, List.splitOn_eq_singleton hmem]
    simp [hparts]

end LastPart

end Text

theorem Path.parts_eq (path : Path) :
    path.parts = (path.text.toList.splitOn '/').map String.ofList :=
  Text.splitOn_singleton path.text '/'

end ShaderMend
