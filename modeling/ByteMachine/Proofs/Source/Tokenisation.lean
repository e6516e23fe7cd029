import Mathlib.Data.List.DropRight
import ByteMachine.Proofs.Source.Printed
import ByteMachine.Proofs.Source.Spacing

/-!
# The tokens of a line

What a line says, told without the walk from separator to separator. The operands behind the first
word are listed with commas between them. What stands between two commas is cut into its words at
the blanks, and every word is a token; where there is no word at all, there is one token without a
character. So blanks around a comma mean nothing, blanks alone separate two tokens, and two commas
in a row have an empty token between them. One comma at the very end does not count.

The reader takes words and commas in one pass, and treats a comma with the blanks around it as one
separator. That comes to the same because it never stands in front of a blank: the text begins with
none, none is left behind a separator, and there is none at the end that could be taken for the
beginning of one.

## Main results

* `splitOperands_eq_listed`, `operandTokens_eq`: cutting at separators, by commas and words.
* `tokenised_iff`: what a line says, by its code.
* `Renders.tokenised`: a word and its tokens are what every line says that renders them.
* `reads_as_tokenised`: how a line is read, and when it is not.
-/

namespace ByteMachine

/-! ### Words and pieces -/

/-- The **words** of a text: what stands between its blanks. Blanks at the ends and several in a row
make no empty words. -/
def Text.words (text : Text) : List Text :=
  (text.splitOnP isBlank).filter fun word => !word.isEmpty

/-- The tokens of what stands **between two commas**: its words, or an empty one if there are
none. -/
def pieceTokens (piece : Text) : List Text :=
  if piece.words = [] then [[]] else piece.words

/-- The tokens of a text with **commas** in it: those of the pieces between the commas, one piece
after the other. -/
def listed (text : Text) : List Text :=
  (text.splitOn ',').flatMap pieceTokens

/-- Removes one **comma** at the very end, if there is one, and the blanks in front of it. -/
def Text.dropFinalComma (text : Text) : Text :=
  if text.getLast? = some ',' then trimEnd text.dropLast else text

/-- The tokens **behind the first word** of a line. The blanks around them do not count, and one
comma at the end does not either. -/
def listedTokens (text : Text) : List Text :=
  if Text.dropFinalComma (Text.trim text) = [] then []
  else listed (Text.dropFinalComma (Text.trim text))

example : listedTokens [' ', 'a', ' ', ',', ',', 'b', ' ', 'c', ','] =
    [['a'], [], ['b'], ['c']] := by
  decide

variable {text word blanks piece rest : Text} {c : Char}

namespace Text

theorem words_append_cons (blank : isBlank c = true) (text rest : Text) :
    words (text ++ c :: rest) = words text ++ words rest := by
  rw [words, List.splitOnP_append_cons text rest blank, List.filter_append, words, words]

theorem words_of_solid (nonempty : word ≠ []) (solid : ∀ c ∈ word, isBlank c = false) :
    words word = [word] := by
  have some : (!word.isEmpty) = true := by
    rw [Bool.not_eq_true', List.isEmpty_eq_false_iff]
    exact nonempty
  rw [words, List.splitOnP_eq_singleton solid]
  exact List.filter_cons_of_pos some

theorem words_of_isSpacing (spacing : IsSpacing blanks) : words blanks = [] := by
  induction blanks with
  | nil => rfl
  | cons c blanks ih =>
      obtain ⟨blank, spacing⟩ := List.forall_mem_cons.mp spacing
      rw [← List.nil_append (c :: blanks), words_append_cons blank, ih spacing]
      rfl

theorem words_append_of_isSpacing (spacing : IsSpacing blanks) (text : Text) :
    words (blanks ++ text) = words text := by
  induction blanks with
  | nil => rfl
  | cons c blanks ih =>
      obtain ⟨blank, spacing⟩ := List.forall_mem_cons.mp spacing
      have front := words_append_cons blank [] (blanks ++ text)
      rw [List.nil_append, ih spacing] at front
      exact front

theorem words_append_isSpacing (spacing : IsSpacing blanks) (text : Text) :
    words (text ++ blanks) = words text := by
  cases blanks with
  | nil => rw [List.append_nil]
  | cons c blanks =>
      obtain ⟨blank, spacing⟩ := List.forall_mem_cons.mp spacing
      rw [words_append_cons blank, words_of_isSpacing spacing, List.append_nil]

theorem words_ne_nil (solid : isBlank c = false) (rest : Text) : words (c :: rest) ≠ [] := by
  have stays : ¬ isBlank c = true := Bool.not_eq_true _ ▸ solid
  obtain ⟨head, tail, cut⟩ : ∃ head tail, rest.splitOnP isBlank = head :: tail :=
    List.exists_cons_of_ne_nil (List.splitOnP_ne_nil _ _)
  rw [words, List.splitOnP_cons_eq_if_modifyHead, if_neg stays, cut, List.modifyHead_cons,
    List.filter_cons_of_pos rfl]
  exact List.cons_ne_nil _ _

end Text

theorem pieceTokens_append_of_isSpacing (spacing : IsSpacing blanks) (piece : Text) :
    pieceTokens (blanks ++ piece) = pieceTokens piece := by
  rw [pieceTokens, Text.words_append_of_isSpacing spacing, pieceTokens]

/-- A word with spacing behind it is one token, also if it has no character: a piece between two
commas is never nothing. -/
theorem pieceTokens_append (solid : ∀ c ∈ word, isBlank c = false) (spacing : IsSpacing blanks) :
    pieceTokens (word ++ blanks) = [word] := by
  rw [pieceTokens, Text.words_append_isSpacing spacing]
  cases word with
  | nil => rfl
  | cons c word =>
      rw [Text.words_of_solid (List.cons_ne_nil _ _) solid]
      exact if_neg (List.cons_ne_nil _ _)

/-- A word is cut off at the blanks behind it, if another one follows in the same piece. -/
theorem pieceTokens_append_append (nonempty : word ≠ []) (solid : ∀ c ∈ word, isBlank c = false)
    (spacing : IsSpacing blanks) (some : blanks ≠ []) (begins : isBlank c = false) (rest : Text) :
    pieceTokens (word ++ (blanks ++ c :: rest)) = word :: pieceTokens (c :: rest) := by
  obtain ⟨d, blanks, rfl⟩ := List.exists_cons_of_ne_nil some
  obtain ⟨blank, spacing⟩ := List.forall_mem_cons.mp spacing
  have cut : Text.words (word ++ (d :: blanks ++ c :: rest)) = word :: Text.words (c :: rest) := by
    rw [List.cons_append, Text.words_append_cons blank, Text.words_of_solid nonempty solid,
      Text.words_append_of_isSpacing spacing]
    rfl
  rw [pieceTokens, cut, if_neg (List.cons_ne_nil _ _), pieceTokens,
    if_neg (Text.words_ne_nil begins rest)]

theorem listed_of_not_mem (free : ',' ∉ piece) : listed piece = pieceTokens piece := by
  rw [listed, List.splitOn_eq_singleton free, List.flatMap_singleton]

/-- The first piece of a text ends at its first comma, and the others are those behind the comma. -/
theorem listed_append_cons (free : ',' ∉ piece) (rest : Text) :
    listed (piece ++ ',' :: rest) = pieceTokens piece ++ listed rest := by
  rw [listed, List.splitOn_append_cons_self, List.splitOn_eq_singleton free,
    List.singleton_append, List.flatMap_cons, listed]

/-- Text that is put in front goes into the first piece, and changes the tokens of no other. -/
theorem exists_listed_append (text : Text) :
    ∃ others, ∀ front, ',' ∉ front →
      listed (front ++ text) = pieceTokens (front ++ text.takeWhile (· ≠ ',')) ++ others := by
  by_cases comma : ',' ∈ text
  · obtain ⟨piece, rest, rfl, free⟩ := List.eq_append_cons_of_mem comma
    have first : (piece ++ ',' :: rest).takeWhile (· ≠ ',') = piece := by
      have inside : ∀ c ∈ piece, decide (c ≠ ',') = true := fun c inside =>
        decide_eq_true fun same => free (same ▸ inside)
      rw [List.takeWhile_append_of_pos inside, List.takeWhile_cons_of_neg (by decide),
        List.append_nil]
    refine ⟨listed rest, fun front none => ?_⟩
    rw [first, ← List.append_assoc]
    exact listed_append_cons (List.not_mem_append none free) rest
  · have whole : text.takeWhile (· ≠ ',') = text :=
      List.takeWhile_eq_self_iff.mpr fun c inside =>
        decide_eq_true fun same => comma (same ▸ inside)
    refine ⟨[], fun front none => ?_⟩
    rw [whole, List.append_nil]
    exact listed_of_not_mem (List.not_mem_append none comma)

theorem IsSpacing.comma_not_mem (spacing : IsSpacing blanks) : ',' ∉ blanks := fun inside =>
  absurd (spacing ',' inside) (by decide)

theorem listed_append_of_isSpacing (spacing : IsSpacing blanks) (text : Text) :
    listed (blanks ++ text) = listed text := by
  obtain ⟨others, lists⟩ := exists_listed_append text
  have bare := lists [] List.not_mem_nil
  rw [List.nil_append, List.nil_append] at bare
  rw [lists blanks spacing.comma_not_mem, pieceTokens_append_of_isSpacing spacing, bare]

/-- A comma with blanks around it cuts off the word in front, which may have no character. -/
theorem listed_append_comma {front back : Text} (solid : ∀ c ∈ word, isBlank c = false)
    (free : ',' ∉ word) (spacing_front : IsSpacing front) (spacing_back : IsSpacing back)
    (text : Text) :
    listed (word ++ (front ++ ',' :: back ++ text)) = word :: listed text := by
  have none : ',' ∉ word ++ front := List.not_mem_append free spacing_front.comma_not_mem
  have split : word ++ (front ++ ',' :: back ++ text) = word ++ front ++ ',' :: (back ++ text) := by
    simp only [List.append_assoc, List.cons_append]
  rw [split, listed_append_cons none, pieceTokens_append solid spacing_front,
    listed_append_of_isSpacing spacing_back]
  rfl

/-- Blanks alone cut off the word in front, if another word follows and not a comma. -/
theorem listed_append_blanks (nonempty : word ≠ []) (solid : ∀ c ∈ word, isBlank c = false)
    (free : ',' ∉ word) (spacing : IsSpacing blanks) (some : blanks ≠ [])
    (begins : isBlank c = false) (other : c ≠ ',') (rest : Text) :
    listed (word ++ (blanks ++ c :: rest)) = word :: listed (c :: rest) := by
  have first : (c :: rest).takeWhile (· ≠ ',') = c :: rest.takeWhile (· ≠ ',') :=
    List.takeWhile_cons_of_pos (decide_eq_true other)
  obtain ⟨others, lists⟩ := exists_listed_append (c :: rest)
  have bare := lists [] List.not_mem_nil
  have none : ',' ∉ word ++ blanks := List.not_mem_append free spacing.comma_not_mem
  have whole := lists (word ++ blanks) none
  rw [List.nil_append, List.nil_append, first] at bare
  rw [first, List.append_assoc, List.append_assoc,
    pieceTokens_append_append nonempty solid spacing some begins] at whole
  rw [whole, bare, List.cons_append]

/-! ### Cutting at separators -/

theorem isSpacing_takeWhile (text : Text) : IsSpacing (text.takeWhile isBlank) := fun c taken =>
  List.all_eq_true.mp List.all_takeWhile c taken

/-- A separator is dropped in front of text: blanks with a comma among them, or blanks alone, in
front of no comma. -/
theorem dropSeparator_cases (separates : isSeparator c = true) (rest : Text) :
    (∃ front back, IsSpacing front ∧ IsSpacing back ∧
        c :: rest = front ++ ',' :: back ++ dropSeparator (c :: rest)) ∨
      ∃ blanks, IsSpacing blanks ∧ blanks ≠ [] ∧ c :: rest = blanks ++ dropSeparator (c :: rest) ∧
        (dropSeparator (c :: rest)).head? ≠ some ',' := by
  have whole := List.takeWhile_append_dropWhile (p := isBlank) (l := c :: rest)
  have spacing := isSpacing_takeWhile (c :: rest)
  by_cases comma : (Text.trimStart (c :: rest)).head? = some ','
  · obtain ⟨more, begins⟩ := List.head?_eq_some_iff.mp comma
    have split := List.takeWhile_append_dropWhile (p := isBlank) (l := more)
    refine .inl ⟨_, more.takeWhile isBlank, spacing, isSpacing_takeWhile more, ?_⟩
    rw [← Text.trimStart, begins] at whole
    rw [dropSeparator_of_comma begins, Text.trimStart, List.append_assoc, List.cons_append, split,
      whole]
  · -- There is no comma behind the blanks, so there is a blank in front.
    have filled : (c :: rest).takeWhile isBlank ≠ [] := by
      intro empty
      rw [empty, List.nil_append] at whole
      rw [Text.trimStart, whole] at comma
      rcases Bool.or_eq_true_iff.mp separates with blank | same
      · rw [List.takeWhile_cons_of_pos blank] at empty
        cases empty
      · exact comma (congrArg some (of_decide_eq_true same))
    rw [dropSeparator_of_head?_ne comma]
    exact .inr ⟨_, spacing, filled, whole.symm, comma⟩

theorem Text.isBlank_of_head?_trimStart (begins : (trimStart text).head? = some c) :
    isBlank c = false := by
  have front := List.head?_dropWhile_not isBlank text
  rw [Text.trimStart] at begins
  rw [begins] at front
  exact front

/-- The front of a trimmed text does not begin with a blank either, however little of the text it
is. -/
theorem Text.isBlank_of_head?_front {front : Text} (among : front <+: trimStart text)
    (begins : front.head? = some c) : isBlank c = false := by
  obtain ⟨behind, whole⟩ := among
  refine @isBlank_of_head?_trimStart text c ?_
  rw [← whole, List.head?_append, begins]
  rfl

/-- What is left behind a separator does not begin with a blank, so the next piece begins with a
character of its own. -/
theorem isBlank_of_head?_dropSeparator (begins : (dropSeparator text).head? = some c) :
    isBlank c = false := by
  rw [dropSeparator] at begins
  split at begins
  · exact Text.isBlank_of_head?_trimStart begins
  · exact Text.isBlank_of_head?_trimStart begins

/-- What is left behind a separator is an end of the text, so the cutting comes to an end. -/
theorem dropSeparator_suffix (text : Text) : dropSeparator text <:+ text := by
  have start := List.dropWhile_suffix (l := text) isBlank
  rw [dropSeparator]
  split
  · rename_i rest comma
    rw [Text.trimStart] at comma
    rw [comma] at start
    exact (List.dropWhile_suffix isBlank).trans ((List.suffix_cons ',' rest).trans start)
  · exact start

/-- In front of the first separator there is neither a blank nor a comma. -/
theorem solid_and_free_takeWhile (text : Text) :
    (∀ c ∈ text.takeWhile (fun c => !isSeparator c), isBlank c = false) ∧
      ',' ∉ text.takeWhile (fun c => !isSeparator c) := by
  have inside : ∀ c ∈ text.takeWhile (fun c => !isSeparator c), isBlank c = false ∧ c ≠ ',' := by
    intro c taken
    have none := List.all_eq_true.mp List.all_takeWhile c taken
    rwa [Bool.not_eq_true', isSeparator, Bool.or_eq_false_iff, decide_eq_false_iff_not] at none
  exact ⟨fun c taken => (inside c taken).1, fun comma => (inside _ comma).2 rfl⟩

/-- The word in front of a separator is listed first. Blanks alone separate two words: the first
is there since the text begins with no blank, and the second since it ends with none. -/
theorem listed_append_separator (solid : ∀ c ∈ word, isBlank c = false) (free : ',' ∉ word)
    (separates : isSeparator c = true)
    (start : ∀ d, (word ++ c :: rest).head? = some d → isBlank d = false)
    (stop : ∀ d, (word ++ c :: rest).getLast? = some d → isBlank d = false) :
    listed (word ++ c :: rest) = word :: listed (dropSeparator (c :: rest)) := by
  have begins (d : Char) := @isBlank_of_head?_dropSeparator (c :: rest) d
  rcases dropSeparator_cases separates rest with
    ⟨front, back, blank_front, blank_back, split⟩ | ⟨blanks, spacing, wide, split, other⟩
  · generalize dropSeparator (c :: rest) = left at split
    rw [split, listed_append_comma solid free blank_front blank_back]
  · generalize dropSeparator (c :: rest) = left at begins split other ⊢
    rw [split] at start stop ⊢
    have blank_last := spacing _ (List.getLast_mem wide)
    have nonempty : word ≠ [] := by
      rintro rfl
      obtain ⟨d, more, rfl⟩ := List.exists_cons_of_ne_nil wide
      exact absurd (spacing d List.mem_cons_self) (Bool.not_eq_true _ ▸ start d rfl)
    cases left with
    | nil =>
        have last : (word ++ (blanks ++ [])).getLast? = some (blanks.getLast wide) := by
          rw [List.append_nil, List.getLast?_append_of_ne_nil _ wide,
            List.getLast?_eq_some_getLast wide]
        exact absurd blank_last (Bool.not_eq_true _ ▸ stop _ last)
    | cons d tail =>
        have comma : d ≠ ',' := fun same => other (congrArg some same)
        exact listed_append_blanks nonempty solid free spacing wide (begins d rfl) comma tail

/-- **Cutting at separators** gives the tokens that are listed, if the text neither begins nor ends
with a blank. -/
theorem splitOperands_eq_listed (start : ∀ c, text.head? = some c → isBlank c = false)
    (stop : ∀ c, text.getLast? = some c → isBlank c = false) :
    splitOperands text = listed text := by
  -- What is left behind a separator begins with no blank, and it ends as the whole text does.
  induction text using splitOperands.induct with
  | case1 text cut =>
      obtain ⟨solid, free⟩ := solid_and_free_takeWhile text
      have whole := List.takeWhile_append_dropWhile (p := fun c => !isSeparator c) (l := text)
      rw [cut, List.append_nil] at whole
      rw [whole] at solid free
      have single := pieceTokens_append solid (List.forall_mem_nil _)
      rw [List.append_nil] at single
      rw [splitOperands_of_whole cut, listed_of_not_mem free, single]
  | case2 text c rest cut ih =>
      obtain ⟨solid, free⟩ := solid_and_free_takeWhile text
      have whole := List.takeWhile_append_dropWhile (p := fun c => !isSeparator c) (l := text)
      have stops := List.head?_dropWhile_not (fun c => !isSeparator c) text
      rw [cut] at whole stops
      have separates : isSeparator c = true := by simpa using stops
      rw [splitOperands_of_cut cut]
      generalize text.takeWhile (fun c => !isSeparator c) = word at solid free whole ⊢
      subst whole
      have ends : ∀ d, (dropSeparator (c :: rest)).getLast? = some d → isBlank d = false := by
        intro d last
        obtain ⟨front, split⟩ := dropSeparator_suffix (c :: rest)
        refine stop d ?_
        rw [← split, ← List.append_assoc, List.getLast?_append, last]
        rfl
      rw [ih (fun d => isBlank_of_head?_dropSeparator) ends,
        listed_append_separator solid free separates start stop]

/-! ### The operands of a line -/

namespace Text

theorem isPrefix_trimEnd (text : Text) : trimEnd text <+: text :=
  List.rdropWhile_prefix isBlank text

theorem mem_of_mem_trim (inside : c ∈ trim text) : c ∈ text :=
  (List.dropWhile_suffix isBlank).subset ((isPrefix_trimEnd (trimStart text)).subset inside)

theorem isPrefix_dropFinalComma (text : Text) : dropFinalComma text <+: text := by
  rw [dropFinalComma]
  split
  · exact (isPrefix_trimEnd _).trans (List.dropLast_prefix text)
  · exact List.prefix_refl text

/-- A trimmed text without its final comma does not begin with a blank. -/
theorem isBlank_of_head?_dropFinalComma (begins : (dropFinalComma (trim text)).head? = some c) :
    isBlank c = false :=
  isBlank_of_head?_front ((isPrefix_dropFinalComma (trim text)).trans (isPrefix_trimEnd _)) begins

/-- A trimmed text without its final comma does not end in a blank, since the blanks in front of
that comma are removed with it. -/
theorem isBlank_of_getLast?_dropFinalComma
    (ends : (dropFinalComma (trim text)).getLast? = some c) : isBlank c = false := by
  rw [dropFinalComma] at ends
  split at ends
  · exact isBlank_of_getLast?_trimEnd ends
  · exact isBlank_of_getLast?_trimEnd ends

end Text

/-- The operands are what is left of the text behind the first word, cut at separators. If nothing
is left there are none, and not an empty one. -/
theorem operandTokens_eq_ite (text : Text) :
    operandTokens text = if Text.dropFinalComma (Text.trim text) = [] then []
      else splitOperands (Text.dropFinalComma (Text.trim text)) :=
  rfl

/-- The **operands** of a line are the tokens that are listed behind its first word. The one goes
from separator to separator, and the other knows only words and commas. -/
theorem operandTokens_eq (text : Text) : operandTokens text = listedTokens text := by
  have cut : splitOperands (Text.dropFinalComma (Text.trim text)) =
      listed (Text.dropFinalComma (Text.trim text)) :=
    splitOperands_eq_listed (fun c => Text.isBlank_of_head?_dropFinalComma)
      fun c => Text.isBlank_of_getLast?_dropFinalComma
  rw [operandTokens_eq_ite, cut, listedTokens]

/-! ### What a line says -/

/-- What a line **says**, by its code: nothing, the label in front of a final colon, or the first
word with the tokens that are listed behind it. -/
inductive Tokenised (text : Text) : Statement → Prop
  | blank : codeOf text = [] → Tokenised text .blank
  | label {name : Text} : codeOf text = name ++ [':'] → Tokenised text (.label (Text.trim name))
  | instruction {word rest : Text} : codeOf text = word ++ rest → word ≠ [] →
      (∀ c ∈ word, isBlank c = false) → (∀ c, rest.head? = some c → isBlank c = true) →
      (codeOf text).getLast? ≠ some ':' → Tokenised text (.instruction word (listedTokens rest))

/-- The code of a line does not begin with a blank, since it is trimmed. -/
theorem isBlank_of_head?_codeOf (begins : (codeOf text).head? = some c) : isBlank c = false :=
  Text.isBlank_of_head?_front (Text.isPrefix_trimEnd _) begins

/-- The first word of a text ends at the first blank, and the rest of the text begins there. -/
theorem takeWhile_dropWhile_word (solid : ∀ c ∈ word, isBlank c = false)
    (stops : ∀ c, rest.head? = some c → isBlank c = true) :
    (word ++ rest).takeWhile (fun c => !isBlank c) = word ∧
      (word ++ rest).dropWhile (fun c => !isBlank c) = rest := by
  have inside : ∀ c ∈ word, (!isBlank c) = true := fun c among => by
    rw [solid c among]
    rfl
  rw [List.takeWhile_append_of_pos inside, List.dropWhile_append_of_pos inside]
  cases rest with
  | nil => exact ⟨List.append_nil word, rfl⟩
  | cons d tail =>
      have stop : ¬ (!isBlank d) = true := by
        rw [stops d rfl]
        exact Bool.false_ne_true
      rw [List.takeWhile_cons_of_neg (p := fun c => !isBlank c) stop,
        List.dropWhile_cons_of_neg (p := fun c => !isBlank c) stop, List.append_nil]
      exact ⟨rfl, rfl⟩

/-- Every line **says** one thing, and it is the statement that is read of it. The relation does not
mention the reader, and so it specifies it. -/
theorem tokenised_iff {statement : Statement} :
    Tokenised text statement ↔ statement = statementOf text := by
  constructor
  · intro tokenised
    cases tokenised with
    | blank empty => rw [statementOf, if_pos empty]
    | @label name ends =>
        have some : codeOf text ≠ [] := by
          rw [ends]
          exact List.append_ne_nil_of_right_ne_nil _ (List.cons_ne_nil _ _)
        rw [statementOf, if_neg some, ends, if_pos List.getLast?_concat, List.dropLast_concat]
    | @instruction word rest split nonempty solid stops other =>
        have some : codeOf text ≠ [] := by
          rw [split]
          exact List.append_ne_nil_of_left_ne_nil nonempty _
        obtain ⟨first, behind⟩ := takeWhile_dropWhile_word solid stops
        rw [statementOf, if_neg some, if_neg other, split, first, behind, operandTokens_eq]
  · rintro rfl
    have begins := @isBlank_of_head?_codeOf text
    rw [statementOf]
    split
    next empty => exact .blank empty
    next some =>
      split
      next colon => exact .label (List.dropLast_append_getLast? _ colon).symm
      next other =>
        have split := List.takeWhile_append_dropWhile (p := fun c => !isBlank c) (l := codeOf text)
        have stops := List.head?_dropWhile_not (fun c => !isBlank c) (codeOf text)
        rw [operandTokens_eq]
        refine .instruction split.symm ?_ ?_ ?_ other
        · intro empty
          obtain ⟨c, tail, code⟩ := List.exists_cons_of_ne_nil some
          have solid : (!isBlank c) = true := by
            rw [@begins c (by rw [code]; rfl)]
            rfl
          rw [code, List.takeWhile_cons_of_pos (p := fun c => !isBlank c) solid] at empty
          cases empty
        · intro c among
          have solid := List.all_eq_true.mp List.all_takeWhile c among
          rwa [Bool.not_eq_true'] at solid
        · intro c first
          rw [first] at stops
          have blank : (!isBlank c) = false := stops
          rwa [Bool.not_eq_false'] at blank

/-! ### Lines however they are spaced -/

variable {tokens : List Text} {operands closing : Text}

/-- Tokens **joined** by separators, which may all be different: blanks, or a comma with or without
blanks. -/
inductive Joined : List Text → Text → Prop
  | single {token : Text} : Joined [token] token
  | cons {token separator text : Text} {tokens : List Text} : Separates separator →
      Joined tokens text → Joined (token :: tokens) (token ++ (separator ++ text))

/-- What may stand behind the last token: nothing, or a **final comma** with blanks in front. -/
inductive Closes : Text → Prop
  | nothing : Closes []
  | comma {blanks : Text} : IsSpacing blanks → Closes (blanks ++ [','])

/-- A line **renders** a word and its tokens: there are blanks behind the word and separators
between the tokens, there may be a comma behind the last, blanks around it all, and a comment. -/
inductive Renders (word : Text) (tokens : List Text) : Text → Prop
  | bare {indent gap operands closing trail : Text} : IsSpacing indent → IsSpacing gap → gap ≠ [] →
      Joined tokens operands → Closes closing → IsSpacing trail →
      Renders word tokens (indent ++ (word ++ (gap ++ (operands ++ closing)) ++ trail))
  | comment {text : Text} (comment : Text) : Renders word tokens text →
      Renders word tokens (text ++ ';' :: comment)

/-- Plain tokens that are joined begin and end with plain characters, whatever separates them. -/
theorem Joined.hasEnds (joined : Joined tokens operands) (plain : ∀ token ∈ tokens, IsPlain token) :
    HasEnds IsPlainChar operands := by
  induction joined with
  | single => exact (List.forall_mem_singleton.mp plain).hasEnds
  | @cons token separator text tokens _ _ ih =>
      obtain ⟨plain_token, plain⟩ := List.forall_mem_cons.mp plain
      exact plain_token.hasEnds.append separator (ih plain)

theorem IsPlain.solid_and_free (plain : IsPlain word) :
    (∀ c ∈ word, isBlank c = false) ∧ ',' ∉ word :=
  ⟨fun c inside => (plain.2 c inside).isSolid, fun comma => absurd (plain.2 ',' comma) (by decide)⟩

/-- Plain tokens that are joined are the ones that are listed, by induction on the tokens. -/
theorem Joined.listed_eq (joined : Joined tokens operands)
    (plain : ∀ token ∈ tokens, IsPlain token) : listed operands = tokens := by
  induction joined with
  | @single token =>
      obtain ⟨solid, free⟩ := (List.forall_mem_singleton.mp plain).solid_and_free
      have piece := pieceTokens_append solid (List.forall_mem_nil _)
      rw [List.append_nil] at piece
      rw [listed_of_not_mem free, piece]
  | @cons token separator text tokens separates joined ih =>
      obtain ⟨plain_token, plain⟩ := List.forall_mem_cons.mp plain
      obtain ⟨solid, free⟩ := plain_token.solid_and_free
      obtain ⟨⟨c, rest, begins, plain_c⟩, -⟩ := joined.hasEnds plain
      have comma : c ≠ ',' := by
        rintro rfl
        exact absurd plain_c (by decide)
      obtain ⟨front, back, blank_front, blank_back, rfl | ⟨rfl, some⟩⟩ := separates
      · rw [listed_append_comma solid free blank_front blank_back, ih plain]
      · rw [begins, listed_append_blanks plain_token.1 solid free blank_front some plain_c.isSolid
          comma, ← begins, ih plain]

/-- A final comma is dropped behind a text that ends with neither a blank nor a comma. -/
theorem dropFinalComma_append (ends : HasEnds IsPlainChar operands) (closes : Closes closing) :
    Text.dropFinalComma (operands ++ closing) = operands := by
  cases closes with
  | nothing =>
      rw [List.append_nil, Text.dropFinalComma]
      exact if_neg (ends.getLast?_ne (by decide))
  | comma spacing =>
      rw [← List.append_assoc, Text.dropFinalComma, if_pos List.getLast?_concat,
        List.dropLast_concat, spacing.trimEnd_append, ends.solid.trimEnd_eq]

/-- What closes a list of tokens ends it with a character that is not blank, and not a
colon. -/
theorem Closes.hasEnds (closes : Closes closing) (ends : HasEnds IsPlainChar operands) :
    HasEnds (fun c => isBlank c = false ∧ c ≠ ':') (operands ++ closing) := by
  have ends := ends.mono fun c plain => And.intro plain.isSolid plain.2.2
  cases closes with
  | nothing => rwa [List.append_nil]
  | comma =>
      exact ends.append _ (hasEnds_of_forall (List.cons_ne_nil _ _)
        (List.forall_mem_singleton.mpr (by decide)))

theorem IsSpacing.semicolon_not_mem (spacing : IsSpacing blanks) : ';' ∉ blanks := fun inside =>
  spacing.ne_semicolon inside rfl

theorem IsSpacing.semicolon_not_mem_comma {front back : Text} (spacing_front : IsSpacing front)
    (spacing_back : IsSpacing back) : ';' ∉ front ++ ',' :: back :=
  List.not_mem_append spacing_front.semicolon_not_mem
    (List.not_mem_cons_of_ne_of_not_mem (by decide) spacing_back.semicolon_not_mem)

/-- Plain tokens that are joined hold no semicolon, so all of them are code. -/
theorem Joined.semicolon_not_mem (joined : Joined tokens operands)
    (plain : ∀ token ∈ tokens, IsPlain token) : ';' ∉ operands := by
  have free {token : Text} (plain : IsPlain token) : ';' ∉ token := fun inside =>
    absurd (plain.2 ';' inside) (by decide)
  induction joined with
  | single => exact free (List.forall_mem_singleton.mp plain)
  | @cons token separator text tokens separates _ ih =>
      obtain ⟨plain_token, plain⟩ := List.forall_mem_cons.mp plain
      refine List.not_mem_append (free plain_token) (List.not_mem_append ?_ (ih plain))
      obtain ⟨front, back, blank_front, blank_back, rfl | ⟨rfl, -⟩⟩ := separates
      · exact IsSpacing.semicolon_not_mem_comma blank_front blank_back
      · exact IsSpacing.semicolon_not_mem blank_front

/-- A line that renders a word and its tokens **says** just these, whichever of the many renderings
it is. -/
theorem Renders.tokenised (renders : Renders word tokens text) (plain_word : IsPlain word)
    (plain : ∀ token ∈ tokens, IsPlain token) : Tokenised text (.instruction word tokens) := by
  induction renders with
  | comment comment _ ih =>
      rw [tokenised_iff, statementOf] at *
      rw [codeOf_append_comment, ih]
  | @bare indent gap operands closing trail indent_blank gap_blank some joined closes trail_blank =>
      obtain ⟨solid, -⟩ := plain_word.solid_and_free
      have joined_ends := joined.hasEnds plain
      have ends := closes.hasEnds joined_ends
      have solid_word := plain_word.hasEnds.mono fun c plain => And.intro plain.isSolid plain.2.2
      have whole := solid_word.append gap ends
      have closed : ';' ∉ closing := by
        cases closes with
        | nothing => exact List.not_mem_nil
        | comma spacing => exact spacing.semicolon_not_mem_comma (List.forall_mem_nil _)
      have free : ';' ∉ word ++ (gap ++ (operands ++ closing)) :=
        List.not_mem_append (fun inside => absurd (plain_word.2 ';' inside) (by decide))
          (List.not_mem_append gap_blank.semicolon_not_mem
            (List.not_mem_append (joined.semicolon_not_mem plain) closed))
      have code : codeOf (indent ++ (word ++ (gap ++ (operands ++ closing)) ++ trail)) =
          word ++ (gap ++ (operands ++ closing)) := by
        rw [indent_blank.codeOf_append, trail_blank.codeOf_append_left]
        refine codeOf_eq (whole.mono fun c => And.left) fun c inside same => ?_
        exact free (same ▸ inside)
      have dropped := dropFinalComma_append joined_ends closes
      have nonempty : operands ≠ [] := by
        obtain ⟨⟨c, rest, begins, -⟩, -⟩ := joined_ends
        rw [begins]
        exact List.cons_ne_nil c rest
      have tokens_eq : listedTokens (gap ++ (operands ++ closing)) = tokens := by
        rw [listedTokens, (ends.mono fun c => And.left).trim_append gap_blank, dropped,
          if_neg nonempty, joined.listed_eq plain]
      rw [← tokens_eq]
      refine .instruction code plain_word.1 solid ?_ ?_
      · intro c first
        obtain ⟨d, rest, rfl⟩ := List.exists_cons_of_ne_nil some
        obtain rfl : d = c := Option.some.inj first
        exact gap_blank d List.mem_cons_self
      · rw [code]
        exact whole.getLast?_ne fun bad => bad.2 rfl

/-! ### Reading a line -/

theorem mem_of_mem_splitOperands (piece : word ∈ splitOperands text) (inside : c ∈ word) :
    c ∈ text := by
  have taken (text : Text) := List.takeWhile_prefix (l := text) (fun c => !isSeparator c)
  induction text using splitOperands.induct with
  | case1 text cut =>
      rw [splitOperands_of_whole cut] at piece
      exact List.mem_singleton.mp piece ▸ inside
  | case2 text d rest cut ih =>
      rw [splitOperands_of_cut cut] at piece
      rcases List.mem_cons.mp piece with rfl | later
      · exact (taken text).subset inside
      · have behind := List.dropWhile_suffix (l := text) (fun c => !isSeparator c)
        rw [cut] at behind
        exact ((dropSeparator_suffix _).trans behind).subset (ih later)

theorem mem_of_mem_operandTokens (operand : word ∈ operandTokens text) (inside : c ∈ word) :
    c ∈ text := by
  rw [operandTokens_eq_ite] at operand
  split at operand
  · cases operand
  · have among := mem_of_mem_splitOperands operand inside
    exact Text.mem_of_mem_trim ((Text.isPrefix_dropFinalComma _).subset among)

/-- A token of a line holds neither a blank nor a comma, and no semicolon. -/
theorem Tokenised.plain_of_mem {statement : Statement} (tokenised : Tokenised text statement)
    (token : word ∈ statement.tokens) (inside : c ∈ word) :
    isBlank c = false ∧ c ≠ ',' ∧ c ≠ ';' := by
  cases tokenised with
  | blank => cases token
  | label => cases token
  | @instruction first rest split =>
      have operand : word ∈ operandTokens rest := (operandTokens_eq rest).symm ▸ token
      obtain ⟨solid, comma⟩ :=
        Bool.or_eq_false_iff.mp (not_isSeparator_of_mem_operandTokens operand inside)
      have among : c ∈ codeOf text :=
        split ▸ List.mem_append_right first (mem_of_mem_operandTokens operand inside)
      have free := List.all_eq_true.mp List.all_takeWhile c (Text.mem_of_mem_trim among)
      exact ⟨solid, of_decide_eq_false comma, of_decide_eq_true free⟩

/-- A line is read, unless the name of a label that it declares has a defect. There is no other way
for a line to fail here. -/
theorem readLine_cases (place : Place) :
    (readLine place = .ok (lineOf place) ∧
      ∀ name, statementOf place.text = .label name → IsLabelName name) ∨
    ∃ name cause, statementOf place.text = .label name ∧ NameDefect name cause ∧
      readLine place = .error (place.reject cause) := by
  by_cases clean : ∀ cause, ¬ NamingDefect (statementOf place.text) cause
  · refine .inl ⟨readLine_of_not_namingDefect clean, fun name declared => ?_⟩
    exact not_namingDefect_label_iff.mp (declared ▸ clean)
  · obtain ⟨cause, bad⟩ : ∃ cause, NamingDefect (statementOf place.text) cause :=
      Classical.not_forall_not.mp clean
    have fails := readLine_of_namingDefect bad
    generalize statementOf place.text = statement at bad
    obtain ⟨defect⟩ := bad
    exact .inr ⟨_, cause, rfl, defect, fails⟩

/-- **A line** says what its code says, by commas and words. It is read as that, unless it declares
something that is no label name; and then it is not read. No token of it holds a blank, a comma or a
semicolon. So a word and tokens of plain characters are read back from every line that renders
them. -/
theorem reads_as_tokenised (place : Place) :
    (∀ statement, (∃ line, readLine place = .ok line ∧ line.statement = statement) ↔
      Tokenised place.text statement ∧ ∀ name, statement = .label name → IsLabelName name) ∧
    (∀ failure, readLine place = .error failure ↔ ∃ name cause,
      Tokenised place.text (.label name) ∧ NameDefect name cause ∧ failure = place.reject cause) ∧
    (∀ line, readLine place = .ok line → ∀ token ∈ line.statement.tokens, ∀ c ∈ token,
      isBlank c = false ∧ c ≠ ',' ∧ c ≠ ';') ∧
    ∀ word tokens, IsPlain word → (∀ token ∈ tokens, IsPlain token) →
      Renders word tokens place.text →
      ∃ line, readLine place = .ok line ∧ line.statement = .instruction word tokens := by
  have ends := readLine_cases place
  have reads : ∀ statement, (∃ line, readLine place = .ok line ∧ line.statement = statement) ↔
      Tokenised place.text statement ∧ ∀ name, statement = .label name → IsLabelName name := by
    intro statement
    rw [tokenised_iff]
    rcases ends with ⟨read, named⟩ | ⟨name, cause, declared, defect, fails⟩
    · constructor
      · rintro ⟨line, again, rfl⟩
        obtain rfl := Except.ok.inj (read.symm.trans again)
        exact ⟨rfl, named⟩
      · rintro ⟨rfl, -⟩
        exact ⟨lineOf place, read, rfl⟩
    · constructor
      · rintro ⟨line, read, -⟩
        rw [fails] at read
        cases read
      · rintro ⟨rfl, named⟩
        exact absurd defect (named name declared).not_nameDefect
  refine ⟨reads, ?_, ?_, ?_⟩
  · intro failure
    constructor
    · intro fails
      rcases ends with ⟨read, -⟩ | ⟨name, cause, declared, defect, again⟩
      · rw [read] at fails
        cases fails
      · obtain rfl := Except.error.inj (again.symm.trans fails)
        exact ⟨name, cause, tokenised_iff.mpr declared.symm, defect, rfl⟩
    · rintro ⟨name, cause, tokenised, defect, rfl⟩
      have declared := tokenised_iff.mp tokenised
      exact readLine_of_namingDefect (declared ▸ .name defect)
  · intro line read token among c inside
    exact ((reads _).mp ⟨line, read, rfl⟩).1.plain_of_mem among inside
  · intro word tokens plain_word plain renders
    exact (reads _).mpr ⟨renders.tokenised plain_word plain, nofun⟩

/-- Three operands between a comma, a space and a tab are read back, and a comma behind them does
not count. -/
theorem exists_read_operands :
    ∃ line, readLine ⟨1, " ADD  R1 ,R2\tR3 , ; sum".toList⟩ = .ok line ∧
      line.statement = .instruction "ADD".toList ["R1".toList, "R2".toList, "R3".toList] := by
  have blank : IsSpacing [' '] := List.forall_mem_singleton.mpr (by decide)
  have tab : IsSpacing ['\t'] := List.forall_mem_singleton.mpr (by decide)
  have wide : IsSpacing [' ', ' '] := List.forall_mem_cons.mpr ⟨by decide, blank⟩
  have nothing : IsSpacing [] := List.forall_mem_nil _
  have joined : Joined ["R1".toList, "R2".toList, "R3".toList] "R1 ,R2\tR3".toList :=
    .cons ⟨[' '], [], blank, nothing, .inl rfl⟩
      (.cons ⟨['\t'], [], tab, nothing, .inr ⟨rfl, List.cons_ne_nil _ _⟩⟩ .single)
  have renders : Renders "ADD".toList ["R1".toList, "R2".toList, "R3".toList]
      " ADD  R1 ,R2\tR3 , ; sum".toList :=
    .comment " sum".toList (.bare blank wide (List.cons_ne_nil _ _) joined (.comma blank) blank)
  exact (reads_as_tokenised ⟨1, _⟩).2.2.2 _ _ (by decide) (by decide) renders

end ByteMachine
