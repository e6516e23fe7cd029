import ByteMachine.Source.Line

/-!
# The shape of tokens

What a token of a line can look like. Operands are cut at blanks and commas, so no operand
holds one, and the name of a label is trimmed, so it does not end in a blank. In particular
neither of them ends in a line feed, and the allowance that the operand readers make for a
final line feed never matters for a token of a line.

## Main results

* `not_isSeparator_of_mem_operandTokens`: no operand of a line holds a separator.
* `Text.dropFinalNewline_trim`, `dropFinalNewline_of_mem_operandTokens`: nothing is dropped
  from the end of a trimmed text or of an operand.
-/

namespace ByteMachine

namespace Text

/-! ### Trimmed texts -/

theorem isBlank_of_getLast?_trimEnd {text : Text} {c : Char}
    (last : (trimEnd text).getLast? = some c) : isBlank c = false := by
  have front := List.head?_dropWhile_not isBlank text.reverse
  rw [trimEnd, List.getLast?_reverse] at last
  rw [last] at front
  exact front

theorem dropFinalNewline_of_getLast? {text : Text} (last : text.getLast? ≠ some '\n') :
    text.dropFinalNewline = text :=
  if_neg last

/-- A trimmed text has no line feed at its end, since a line feed is a blank. -/
@[simp] theorem dropFinalNewline_trim (text : Text) :
    (trim text).dropFinalNewline = trim text := by
  refine dropFinalNewline_of_getLast? fun last => ?_
  have blank : isBlank '\n' = false := isBlank_of_getLast?_trimEnd last
  exact absurd blank (by decide)

end Text

/-! ### Operands -/

/-- A separator with a comma is dropped with the blanks in front of the comma and those behind
it. -/
theorem dropSeparator_of_comma {text rest : Text} (comma : Text.trimStart text = ',' :: rest) :
    dropSeparator text = Text.trimStart rest := by
  simp only [dropSeparator, comma]

/-- A separator without a comma is a run of blanks, and it is dropped as such. -/
theorem dropSeparator_of_head?_ne {text : Text} (other : (Text.trimStart text).head? ≠ some ',') :
    dropSeparator text = Text.trimStart text := by
  rw [dropSeparator]
  split
  · rename_i comma
    rw [comma] at other
    exact absurd rfl other
  · rfl

theorem splitOperands_of_whole {text : Text}
    (cut : text.dropWhile (fun c => !isSeparator c) = []) : splitOperands text = [text] := by
  have whole := List.takeWhile_append_dropWhile (p := fun c => !isSeparator c) (l := text)
  rw [cut, List.append_nil] at whole
  rw [splitOperands]
  split
  · rw [whole]
  · rename_i again
    rw [cut] at again
    cases again

/-- Text is cut at its first separator: the first piece stands in front of it, and the others are
those of what is left behind it. -/
theorem splitOperands_of_cut {text rest : Text} {c : Char}
    (cut : text.dropWhile (fun c => !isSeparator c) = c :: rest) :
    splitOperands text =
      text.takeWhile (fun c => !isSeparator c) :: splitOperands (dropSeparator (c :: rest)) := by
  rw [splitOperands]
  split
  · rename_i again
    rw [cut] at again
    cases again
  · rename_i again
    rw [cut] at again
    cases again
    rfl

/-- What stands between two separators holds none, neither a comma nor a blank. -/
theorem not_isSeparator_of_mem_splitOperands {text token : Text} {c : Char}
    (piece : token ∈ splitOperands text) (inside : c ∈ token) : isSeparator c = false := by
  have inWord : ∀ text : Text, c ∈ text.takeWhile (fun c => !isSeparator c) →
      isSeparator c = false := fun text taken => by
    simpa using List.all_eq_true.mp List.all_takeWhile c taken
  induction text using splitOperands.induct with
  | case1 text cut =>
    have whole := List.takeWhile_append_dropWhile (p := fun c => !isSeparator c) (l := text)
    rw [cut, List.append_nil] at whole
    rw [splitOperands_of_whole cut, List.mem_singleton] at piece
    subst piece
    rw [← whole] at inside
    exact inWord token inside
  | case2 text d rest cut ih =>
    rw [splitOperands_of_cut cut] at piece
    rcases List.mem_cons.mp piece with rfl | later
    · exact inWord text inside
    · exact ih later

/-- No operand of a line holds a **separator**, so no operand can be taken for two when it is
printed and read again. -/
theorem not_isSeparator_of_mem_operandTokens {text token : Text} {c : Char}
    (operand : token ∈ operandTokens text) (inside : c ∈ token) : isSeparator c = false := by
  unfold operandTokens at operand
  extract_lets trimmed rest at operand
  by_cases empty : rest = []
  · rw [if_pos empty] at operand
    cases operand
  · rw [if_neg empty] at operand
    exact not_isSeparator_of_mem_splitOperands operand inside

/-- An operand of a line has no line feed at its end, since a line feed separates. -/
theorem dropFinalNewline_of_mem_operandTokens {text token : Text}
    (operand : token ∈ operandTokens text) : token.dropFinalNewline = token := by
  refine Text.dropFinalNewline_of_getLast? fun last => ?_
  have separator : isSeparator '\n' = false :=
    not_isSeparator_of_mem_operandTokens operand (List.mem_of_getLast? last)
  exact absurd separator (by decide)

end ByteMachine
