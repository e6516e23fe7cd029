import ByteMachine.Proofs.Source.FirstDefect
import ByteMachine.Proofs.Source.Grammar
import ByteMachine.Proofs.Source.Token

/-!
# What a program text says

The statements of a program text, one a line, read off without ever failing: `statementOf`
takes the text before the first semicolon, trims it, and sees whether nothing is left, whether
it ends in a colon, or whether it is an instruction. The reader of lines does the same and
fails on one thing only, a label that is declared under a name that is no label name.

## Main results

* `readLine_of_not_namingDefect`, `readLine_of_namingDefect`: the two cases of reading a line.
* `readSource_of_freeOf`, `readSource_of_firstAt`: a program text is read as its numbered lines if
  no line has a naming defect, and the first line that has one is rejected.
* `unbroken_of_mem_sourceLines`: no token of a line that is read ends in a line feed.
-/

namespace ByteMachine

/-! ### Statements -/

/-- The **code** of a line: its text before the first semicolon, trimmed. Nothing else of a line is
read. -/
def codeOf (text : Text) : Text :=
  Text.trim (text.takeWhile (· ≠ ';'))

/-- What a line **says**, whatever the name of a label that it declares looks like. Whether that
name is allowed is asked separately. -/
def statementOf (text : Text) : Statement :=
  if codeOf text = [] then .blank
  else if (codeOf text).getLast? = some ':' then .label (Text.trim (codeOf text).dropLast)
  else
    .instruction ((codeOf text).takeWhile fun c => !isBlank c)
      (operandTokens ((codeOf text).dropWhile fun c => !isBlank c))

/-- The **statements** of a program text, one for each line. Most of the theory speaks about these
and not about texts. -/
def statements (source : Text) : List Statement :=
  (Text.lines source).map statementOf

/-- What is wrong with a **declaration** as such: the name of its label. Instructions have no defect
of this sort. -/
inductive NamingDefect : Statement → SourceError.Cause → Prop
  | name {name : Text} {cause : SourceError.Cause} : NameDefect name cause →
      NamingDefect (.label name) cause

/-- A declaration has no naming defect exactly if it declares a label name. -/
theorem not_namingDefect_label_iff {name : Text} :
    (∀ cause, ¬ NamingDefect (.label name) cause) ↔ IsLabelName name := by
  constructor
  · intro clean
    rcases isLabelName_or_nameDefect name with valid | ⟨cause, defect⟩
    · exact valid
    · exact absurd (.name defect) (clean cause)
  · rintro valid cause ⟨defect⟩
    exact valid.not_nameDefect defect

/-! ### One line -/

/-- The **line** that is read at a place whose text has no naming defect, which is the only thing
that can go wrong there. -/
def lineOf (place : Place) : Line :=
  ⟨place, statementOf place.text, (cutComment place.text).2⟩

/-- The comment is cut off at the first semicolon, and the text in front of it is left. -/
theorem cutComment_fst (text : Text) : (cutComment text).1 = text.takeWhile (· ≠ ';') := by
  rw [cutComment]
  split <;> rfl

/-- The code of a line without a naming defect is read as the statement of the line. -/
theorem readStatement_of_not_namingDefect {place : Place} {text : Text}
    (clean : ∀ cause, ¬ NamingDefect (statementOf text) cause) :
    readStatement place (codeOf text) = .ok (statementOf text) := by
  rw [statementOf] at *
  rw [readStatement]
  by_cases empty : codeOf text = []
  · rw [if_pos empty, if_pos empty]
  · rw [if_neg empty] at clean ⊢
    rw [if_neg empty]
    by_cases colon : (codeOf text).getLast? = some ':'
    · rw [if_pos colon] at clean ⊢
      rw [if_pos colon]
      have valid := not_namingDefect_label_iff.mp clean
      rw [parseLabelName_of_isLabelName valid (Text.dropFinalNewline_trim _)]
      rfl
    · rw [if_neg colon, if_neg colon]

/-- The code of a line with a naming defect is refused for that defect, and for nothing else. -/
theorem readStatement_of_namingDefect {place : Place} {text : Text} {cause : SourceError.Cause}
    (defect : NamingDefect (statementOf text) cause) :
    readStatement place (codeOf text) = .error (place.reject cause) := by
  rw [statementOf] at *
  rw [readStatement]
  by_cases empty : codeOf text = []
  · rw [if_pos empty] at defect
    cases defect
  · rw [if_neg empty] at defect ⊢
    by_cases colon : (codeOf text).getLast? = some ':'
    · rw [if_pos colon] at defect ⊢
      obtain ⟨defect⟩ := defect
      rw [parseLabelName_of_nameDefect defect (Text.dropFinalNewline_trim _)]
      rfl
    · rw [if_neg colon] at defect
      cases defect

/-- A line is read by reading its code. The place and the comment are only taken along. -/
theorem readLine_eq (place : Place) :
    readLine place = (readStatement place (codeOf place.text)).map fun statement =>
      ⟨place, statement, (cutComment place.text).2⟩ := by
  rw [codeOf, ← cutComment_fst]
  rfl

/-- A line without a naming defect is read, with its statement and its comment. -/
theorem readLine_of_not_namingDefect {place : Place}
    (clean : ∀ cause, ¬ NamingDefect (statementOf place.text) cause) :
    readLine place = .ok (lineOf place) := by
  rw [readLine_eq, readStatement_of_not_namingDefect clean]
  rfl

/-- A line with a naming defect is **refused** for it, whatever its comment is. Nothing else can be
wrong with a line at this point. -/
theorem readLine_of_namingDefect {place : Place} {cause : SourceError.Cause}
    (defect : NamingDefect (statementOf place.text) cause) :
    readLine place = .error (place.reject cause) := by
  rw [readLine_eq, readStatement_of_namingDefect defect]
  rfl

/-- No token of a line ends in a line feed, since lines are trimmed and their pieces hold no
blanks. -/
theorem unbroken_of_statementOf {text word : Text} {tokens : List Text}
    (stated : statementOf text = .instruction word tokens) :
    ∀ token ∈ tokens, token.dropFinalNewline = token := by
  rw [statementOf] at stated
  split at stated
  · cases stated
  · split at stated
    · cases stated
    · injection stated with _ same
      exact fun token operand => dropFinalNewline_of_mem_operandTokens (same ▸ operand)

/-! ### All lines -/

/-- Lines **numbered** from `first` on, each read from its text. The first line of a program text
has the number one. -/
def numberedFrom (first : Int) : List Text → List Line
  | [] => []
  | text :: texts => lineOf ⟨first, text⟩ :: numberedFrom (first + 1) texts

/-- The **lines** of a program text, numbered from one on. They are what is read of a text without
naming defects. -/
def sourceLines (source : Text) : List Line :=
  numberedFrom 1 (Text.lines source)

@[simp] theorem map_statement_numberedFrom (first : Int) (texts : List Text) :
    (numberedFrom first texts).map Line.statement = texts.map statementOf := by
  induction texts generalizing first with
  | nil => rfl
  | cons text texts ih => exact congrArg (statementOf text :: ·) (ih (first + 1))

/-- The lines of a program text say its statements, one each and in the same order. -/
@[simp] theorem map_statement_sourceLines (source : Text) :
    (sourceLines source).map Line.statement = statements source :=
  map_statement_numberedFrom 1 _

theorem statement_mem_statements {source : Text} {line : Line}
    (inside : line ∈ sourceLines source) : line.statement ∈ statements source :=
  map_statement_sourceLines source ▸ List.mem_map_of_mem inside

/-- The line at an index is the line of the text there, with the number that is as far from the
first one. -/
theorem getElem?_numberedFrom (first : Int) (texts : List Text) (i : Nat) :
    (numberedFrom first texts)[i]? = texts[i]?.map fun text => lineOf ⟨first + i, text⟩ := by
  induction texts generalizing first i with
  | nil => rfl
  | cons text texts ih =>
      cases i with
      | zero => simp [numberedFrom]
      | succ i =>
          have next : first + 1 + (i : Int) = first + ((i + 1 : Nat) : Int) := by omega
          rw [numberedFrom, List.getElem?_cons_succ, ih, List.getElem?_cons_succ, next]

/-- No token of a line of a program text ends in a line feed, since lines are trimmed before they
are cut into tokens. So the leniency of the readers towards a line feed never matters for program
texts. -/
theorem unbroken_of_mem_sourceLines {source word : Text} {line : Line} {tokens : List Text}
    (inside : line ∈ sourceLines source) (stated : line.statement = .instruction word tokens) :
    ∀ token ∈ tokens, token.dropFinalNewline = token := by
  obtain ⟨i, found⟩ := List.mem_iff_getElem?.mp inside
  rw [sourceLines, getElem?_numberedFrom, Option.map_eq_some_iff] at found
  obtain ⟨text, -, rfl⟩ := found
  exact unbroken_of_statementOf stated

theorem statement_eq_of_mem_sourceLines {source : Text} {line : Line}
    (inside : line ∈ sourceLines source) :
    line.statement = statementOf line.place.text := by
  obtain ⟨i, found⟩ := List.mem_iff_getElem?.mp inside
  rw [sourceLines, getElem?_numberedFrom, Option.map_eq_some_iff] at found
  obtain ⟨text, -, rfl⟩ := found
  rfl

/-- Lines without naming defects are all read, and numbered from the given number on. -/
theorem readLinesFrom_of_freeOf {first : Int} {texts : List Text}
    (free : FreeOf (fun _ => NamingDefect) (texts.map statementOf)) :
    readLinesFrom first texts = .ok (numberedFrom first texts) := by
  induction texts generalizing first with
  | nil => rfl
  | cons text texts ih =>
      rw [List.map_cons, freeOf_cons_iff] at free
      have head : readLine ⟨first, text⟩ = .ok (lineOf ⟨first, text⟩) :=
        readLine_of_not_namingDefect free.1
      rw [readLinesFrom, head, ih free.2]
      rfl

/-- Lines the first bad one of which has a naming defect are refused for that defect, under the
number of that line. -/
theorem readLinesFrom_of_firstAt (first : Int) {texts : List Text} {i : Nat}
    {cause : SourceError.Cause}
    (bad : FirstAt (fun _ => NamingDefect) (texts.map statementOf) i cause) :
    ∃ text, texts[i]? = some text ∧
      readLinesFrom first texts = .error (Place.reject ⟨first + i, text⟩ cause) := by
  induction texts generalizing first i with
  | nil => exact absurd bad not_firstAt_nil
  | cons text texts ih =>
      rw [List.map_cons] at bad
      cases i with
      | zero =>
          have head : readLine ⟨first, text⟩ = .error (Place.reject ⟨first, text⟩ cause) :=
            readLine_of_namingDefect (firstAt_zero_iff.mp bad)
          refine ⟨text, rfl, ?_⟩
          rw [readLinesFrom, head, Int.natCast_zero, Int.add_zero]
          rfl
      | succ i =>
          obtain ⟨clean, bad⟩ := firstAt_succ_iff.mp bad
          have head : readLine ⟨first, text⟩ = .ok (lineOf ⟨first, text⟩) :=
            readLine_of_not_namingDefect clean
          obtain ⟨wrong, found, tail⟩ := ih (first + 1) bad
          have number : first + 1 + (i : Int) = first + ((i + 1 : Nat) : Int) := by omega
          refine ⟨wrong, found, ?_⟩
          rw [readLinesFrom, head, tail, number]
          rfl

/-- A program text without naming defects is **read** as its lines, numbered from one. -/
theorem readSource_of_freeOf {source : Text}
    (free : FreeOf (fun _ => NamingDefect) (statements source)) :
    readSource source = .ok (sourceLines source) :=
  readLinesFrom_of_freeOf free

/-- A program text with a naming defect is **refused** for the first one. The lines behind it are
not looked at. -/
theorem readSource_of_firstAt {source : Text} {i : Nat} {cause : SourceError.Cause}
    (bad : FirstAt (fun _ => NamingDefect) (statements source) i cause) :
    ∃ text, (Text.lines source)[i]? = some text ∧
      readSource source = .error (Place.reject ⟨i + 1, text⟩ cause) := by
  obtain ⟨text, found, refused⟩ := readLinesFrom_of_firstAt 1 bad
  exact ⟨text, found, by rw [readSource, refused, Int.add_comm]⟩

end ByteMachine
