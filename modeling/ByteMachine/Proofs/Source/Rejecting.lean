import ByteMachine.Proofs.Text.Numeral
import ByteMachine.Source.Error

/-!
# Rejecting a line

What becomes of a cause at a line. The line is rejected for it, as a source error that shows the
line, unless the message of that error has to show an integer that is too long: the number of the
line or of another one, the limit of labels, or an address. Then the failure is that this integer
cannot be written, and it shows neither the line nor the cause.

## Main results

* `SourceError.exists_message_iff`: the errors that have a message.
* `Place.eq_reject_iff`: what a failure is that a cause ends in, and when.
-/

namespace ByteMachine

/-! ### Messages -/

namespace SourceError

/-- A message that goes on behind an integer can be written if the integer is short and the rest
can be written. -/
theorem Cause.exists_shown_bind_iff {n : Int} {rest : String → Except NumeralTooLong String} :
    (∃ message, (Cause.shown n >>= rest) = .ok message) ↔
      Text.isShort n = true ∧
        ∃ message, rest (String.ofList (Text.signedDecimal n)) = .ok message := by
  rw [shown, Text.numeral]
  split
  next short => exact (and_iff_right short).symm
  next long => exact iff_of_false nofun fun both => long both.1

/-- The message of a cause can be written exactly if all its integers are short. Words and tokens
are written as they are. -/
theorem Cause.exists_message_iff (cause : Cause) :
    (∃ message, cause.message = .ok message) ↔ ∀ n ∈ cause.numbers, Text.isShort n = true := by
  have written (text : String) :
      ∃ message, (pure text : Except NumeralTooLong String) = .ok message := ⟨text, rfl⟩
  cases cause with
  | unknownMnemonic name => cases name <;> simp [message, numbers, written]
  | _ => simp [-bind_pure_comp, message, numbers, exists_shown_bind_iff, written]

/-- The message of an error can be written exactly if all integers are short that it shows. -/
theorem writable_iff {error : SourceError} :
    error.writable = true ↔ ∀ n ∈ error.numbers, Text.isShort n = true :=
  List.all_eq_true

/-- The message of an error cannot be written if it shows one integer that is too long. -/
theorem writable_eq_false {error : SourceError} {n : Int} (shown : n ∈ error.numbers)
    (long : ¬ Text.isShort n = true) : error.writable = false :=
  Bool.eq_false_iff.mpr fun short => long (writable_iff.mp short n shown)

/-- An error has a **message** exactly if all integers are short that the message shows. So the
errors without one are those that are never made. -/
theorem exists_message_iff (error : SourceError) :
    (∃ message, error.message = .ok message) ↔ error.writable = true := by
  have around (number line : String) :
      (∃ message, (error.cause.message >>= fun cause => pure (number ++ cause ++ line)) =
        .ok message) ↔ ∀ n ∈ error.cause.numbers, Text.isShort n = true := by
    rw [← Cause.exists_message_iff]
    cases error.cause.message with
    | ok cause => exact iff_of_true ⟨_, rfl⟩ ⟨_, rfl⟩
    | error tooLong => exact iff_of_false nofun nofun
  rw [message, writable_iff, numbers, List.forall_mem_cons]
  split
  next none =>
    rw [pure_bind, around, none]
    exact (and_iff_right (by decide)).symm
  next some => rw [Cause.exists_shown_bind_iff, pure_bind, around]

/-- The **numbers of lines** that an error shows: that of its own line, and that of a line that it
points back to. -/
def lineNumbers (error : SourceError) : List Int :=
  error.place.lineNum :: match error.cause with
    | .duplicateLabel _ first => [first]
    | _ => []

theorem mem_numbers_of_mem_lineNumbers {error : SourceError} {n : Int}
    (line : n ∈ error.lineNumbers) : n ∈ error.numbers := by
  obtain ⟨cause, place⟩ := error
  cases cause with
  | duplicateLabel name first => exact line
  | _ => exact List.mem_singleton.mp line ▸ List.mem_cons_self

end SourceError

/-! ### Rejecting -/

namespace Place

variable {place : Place} {cause : SourceError.Cause}

/-- A cause rejects the line if the message can be written, which it always can where all integers
are ordinary ones. -/
theorem reject_of_writable (short : (⟨cause, place⟩ : SourceError).writable = true) :
    place.reject cause = .rejected ⟨cause, place⟩ :=
  if_pos short

/-- A cause that shows no integer of its own rejects every line whose number can be written. -/
theorem reject_of_plain (plain : cause.numbers = []) (short : Text.isShort place.lineNum = true) :
    place.reject cause = .rejected ⟨cause, place⟩ := by
  refine reject_of_writable (SourceError.writable_iff.mpr fun n shown => ?_)
  rw [SourceError.numbers, plain, List.mem_singleton] at shown
  exact shown ▸ short

/-- A cause cannot be told if the message cannot be written, and then nothing is said of the
line. -/
theorem reject_of_not_writable (long : (⟨cause, place⟩ : SourceError).writable = false) :
    place.reject cause = .unwritable {} :=
  if_neg (Bool.eq_false_iff.mp long)

/-- What the **failure** is that a cause ends in: the source error that shows the line, if its
message can be written, and otherwise one that shows neither the line nor the cause. -/
theorem eq_reject_iff {failure : Failure} :
    failure = place.reject cause ↔
      (⟨cause, place⟩ : SourceError).writable = true ∧ failure = .rejected ⟨cause, place⟩ ∨
        (⟨cause, place⟩ : SourceError).writable = false ∧ failure = .unwritable {} := by
  cases written : (⟨cause, place⟩ : SourceError).writable with
  | true =>
      rw [reject_of_writable written]
      exact ⟨fun same => .inl ⟨rfl, same⟩, fun ends => ends.elim And.right nofun⟩
  | false =>
      rw [reject_of_not_writable written]
      exact ⟨fun same => .inr ⟨rfl, same⟩, fun ends => ends.elim nofun And.right⟩

/-- What becomes of a cause: the line is rejected for it, or the message cannot be written. -/
theorem reject_cases (place : Place) (cause : SourceError.Cause) :
    (⟨cause, place⟩ : SourceError).writable = true ∧
        place.reject cause = .rejected ⟨cause, place⟩ ∨
      (⟨cause, place⟩ : SourceError).writable = false ∧ place.reject cause = .unwritable {} :=
  eq_reject_iff.mp rfl

end Place

end ByteMachine
