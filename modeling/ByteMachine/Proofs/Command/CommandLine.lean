import ByteMachine.Command.Request

/-!
# Command lines of the assembler

The command lines that the help page shows for `asm`: an input, an output, and options behind
them in any order and number. Each of them is accepted, and what it asks for is read off its
words: the two paths, and the settings that the options make of the default ones, the last
profile being the one that holds.

The words are read twice. The toolchain knows none of the options, so to it they are words
behind a command, which it hands on as they are. The command classifies them again, and scans and
meets them in their order.

## Main results

* `ofWords_asm`: what a command line of this form asks for.
-/

namespace ByteMachine.Command

/-- An **option** of `asm`, as a user may give it. The options of the other commands are not spoken
of. -/
inductive AsmOption
  | profile (profile : Profile)
  | listing
  | verbose
  deriving DecidableEq, Repr

namespace AsmOption

/-- The words of an option on the command line, in the order in which they stand. -/
def words : AsmOption → List Text
  | profile chosen => ["--profile".toList, chosen.name.toList]
  | listing => ["--listing".toList]
  | verbose => ["-v".toList]

/-- The settings after an option. Of several options of one sort the last one counts. -/
def apply (settings : Settings) : AsmOption → Settings
  | profile chosen => { settings with profile := chosen }
  | listing => { settings with listing := true }
  | verbose => { settings with verbose := true }

/-- The option names a profile that there is, if it names one. -/
def IsKnown : AsmOption → Prop
  | profile chosen => chosen ∈ Profile.named
  | _ => True

/-- The tokens that the words of an option are classified as. -/
def tokens : AsmOption → List Token
  | profile chosen =>
    [.opt "--profile".toList "--profile".toList (.setting .profile) none, .word chosen.name.toList]
  | listing => [.opt "--listing".toList "--listing".toList (.flag .listing) none]
  | verbose => [.opt "-v".toList "-v".toList (.flag .verbose) none]

/-- The events that the tokens of an option are scanned as. -/
def events : AsmOption → List Event
  | profile chosen => [.setting .profile chosen.name.toList]
  | listing => [.flag .listing]
  | verbose => [.flag .verbose]

end AsmOption

variable {grammar : Grammar} {word : Text} {words : List Text} {option : AsmOption}
  {options : List AsmOption}

/-! ### Classification -/

/-- A word is plain if it does not begin with a dash. So it is taken for no option. -/
def IsPlainWord (word : Text) : Prop :=
  word.head? ≠ some '-'

instance (word : Text) : Decidable (IsPlainWord word) :=
  inferInstanceAs (Decidable (word.head? ≠ some '-'))

/-- A plain word is not the one that ends the options, since that consists of dashes. -/
theorem IsPlainWord.ne_markWord (plain : IsPlainWord word) : word ≠ markWord := by
  rintro rfl
  exact plain rfl

/-- A plain word is classified as a word by every grammar, whatever its options are. -/
theorem IsPlainWord.classify_eq (plain : IsPlainWord word) (grammar : Grammar) :
    grammar.classify word = .ok (.word word) :=
  if_pos plain

/-- The profiles that have a name are the classic one and the resolved one. -/
theorem mem_named_iff {profile : Profile} :
    profile ∈ Profile.named ↔ profile = .classic ∨ profile = .resolved := by
  rw [Profile.named, List.mem_cons, List.mem_singleton]

/-- The name of a profile that there is is a plain word, so that it can stand behind its option. -/
theorem isPlainWord_of_mem_named {profile : Profile} (known : profile ∈ Profile.named) :
    IsPlainWord profile.name.toList := by
  obtain rfl | rfl := mem_named_iff.mp known
  · decide
  · decide

/-- Words are classified one after the other, as long as none of them ends the options. -/
theorem tokens_cons {token : Token} {tokens : List Token} (other : word ≠ markWord)
    (first : grammar.classify word = .ok token) (rest : grammar.tokens words = .ok tokens) :
    grammar.tokens (word :: words) = .ok (token :: tokens) := by
  rw [Grammar.tokens, if_neg other, first, rest]
  rfl

/-- A word that the toolchain **passes on** to the command as it is: it may be classified as it
likes, but it stands for itself. -/
def IsPassed (word : Text) : Prop :=
  word ≠ markWord ∧ ∃ token, mainGrammar.classify word = .ok token ∧ token.raw = word

theorem IsPlainWord.isPassed (plain : IsPlainWord word) : IsPassed word :=
  ⟨plain.ne_markWord, .word word, plain.classify_eq mainGrammar, rfl⟩

/-- The words of an option are passed on to the command, though the toolchain has options of its
own. -/
theorem isPassed_of_mem_words (known : option.IsKnown) (inside : word ∈ option.words) :
    IsPassed word := by
  cases option with
  | profile chosen =>
      rcases List.mem_cons.mp inside with rfl | inside
      · exact ⟨by decide, .unknown _, rfl, rfl⟩
      · rw [List.mem_singleton.mp inside]
        exact (isPlainWord_of_mem_named known).isPassed
  | listing | verbose =>
      rw [List.mem_singleton.mp inside]
      exact ⟨by decide, .unknown _, rfl, rfl⟩

/-- Words that are passed on are classified by the toolchain, each as a token that stands for it. -/
theorem exists_tokens_of_isPassed (passed : ∀ word ∈ words, IsPassed word) :
    ∃ tokens, mainGrammar.tokens words = .ok tokens ∧ tokens.map Token.raw = words := by
  induction words with
  | nil => exact ⟨[], rfl, rfl⟩
  | cons word words ih =>
      obtain ⟨⟨other, token, first, raw⟩, later⟩ := List.forall_mem_cons.mp passed
      obtain ⟨tokens, rest, raws⟩ := ih later
      refine ⟨token :: tokens, tokens_cons other first rest, ?_⟩
      rw [List.map_cons, raw, raws]

/-- The command classifies the words of options as the tokens of these options, one option after the
other. -/
theorem tokens_flatMap_words (known : ∀ option ∈ options, option.IsKnown) :
    Verb.asm.grammar.tokens (options.flatMap AsmOption.words) =
      .ok (options.flatMap AsmOption.tokens) := by
  induction options with
  | nil => rfl
  | cons option options ih =>
      obtain ⟨first, later⟩ := List.forall_mem_cons.mp known
      have rest := ih later
      rw [List.flatMap_cons, List.flatMap_cons]
      cases option with
      | profile chosen =>
          have plain := isPlainWord_of_mem_named first
          exact tokens_cons (by decide) rfl
            (tokens_cons plain.ne_markWord (plain.classify_eq _) rest)
      | listing | verbose => exact tokens_cons (by decide) rfl rest

/-! ### Events -/

/-- A plain word is the file name that is due, unless the word that ends the options is next to
it. -/
theorem scan_cons_word {role : FileRole} {roles : List FileRole} {rest : List Token}
    (plain : IsPlainWord word) (unmarked : ∀ behind, rest ≠ .mark :: behind) :
    grammar.scan (role :: roles) (.word word :: rest) =
      (grammar.scan roles rest).behind [.file role (some word)] := by
  rw [Grammar.scan, fileEvent, if_neg plain.ne_markWord]
  exact unmarked

/-- The tokens of options do not begin with the word that ends them, so the scan does not stop in
front of them. -/
theorem flatMap_tokens_ne_mark (options : List AsmOption) (behind : List Token) :
    options.flatMap AsmOption.tokens ≠ .mark :: behind := by
  cases options with
  | nil => exact (List.cons_ne_nil _ _).symm
  | cons option options =>
      rw [List.flatMap_cons]
      intro same
      cases option <;> cases same

/-- The command scans the tokens of options as their events, and no token is left. -/
theorem scan_flatMap_tokens (options : List AsmOption) :
    Verb.asm.grammar.scan [] (options.flatMap AsmOption.tokens) =
      ⟨options.flatMap AsmOption.events, none⟩ := by
  induction options with
  | nil => rfl
  | cons option options ih =>
      rw [List.flatMap_cons, List.flatMap_cons]
      cases option with
      | profile _ | listing | verbose =>
          simp only [AsmOption.tokens, List.cons_append, List.nil_append, Grammar.scan,
            Grammar.expand, ih]
          rfl

theorem namedProfile_of_mem_named {profile : Profile} (known : profile ∈ Profile.named) :
    namedProfile profile.name.toList = .ok profile := by
  obtain rfl | rfl := mem_named_iff.mp known
  · rfl
  · rfl

/-- The events of options are met as the settings that the options make, one after the other. -/
theorem meet_flatMap_events (known : ∀ option ∈ options, option.IsKnown) (settings : Settings) :
    meet .asm settings (options.flatMap AsmOption.events) =
      .ok (options.foldl AsmOption.apply settings) := by
  induction options generalizing settings with
  | nil => rfl
  | cons option options ih =>
      obtain ⟨first, later⟩ := List.forall_mem_cons.mp known
      rw [List.flatMap_cons, List.foldl_cons, ← ih later]
      cases option with
      | profile chosen =>
          have chooses : settings.assign .profile chosen.name.toList =
              .ok { settings with profile := chosen } := by
            rw [Settings.assign, namedProfile_of_mem_named first]
            rfl
          rw [AsmOption.events, List.singleton_append, meet, chooses]
          rfl
      | listing | verbose => rfl

/-- No word of an option is left over as an argument that nothing asks for. -/
theorem surplus_flatMap_events (options : List AsmOption) :
    Scan.surplus ⟨options.flatMap AsmOption.events, none⟩ = [] := by
  rw [Scan.surplus, List.filterMap_eq_nil_iff]
  intro event inside
  obtain ⟨option, -, inside⟩ := List.mem_flatMap.mp inside
  cases option with
  | profile _ | listing | verbose => rw [List.mem_singleton.mp inside]

/-! ### The whole command line -/

variable {input output : Text}

/-- The command reads an input, an output and options as its settings, and leaves nothing
over. -/
theorem readCommand_asm (first : IsPlainWord input) (second : IsPlainWord output)
    (known : ∀ option ∈ options, option.IsKnown) :
    readCommand .asm (input :: output :: options.flatMap AsmOption.words) =
      .ok (options.foldl AsmOption.apply { input := some input, output := some output }, []) := by
  have tokens : Verb.asm.grammar.tokens (input :: output :: options.flatMap AsmOption.words) =
      .ok (.word input :: .word output :: options.flatMap AsmOption.tokens) :=
    tokens_cons first.ne_markWord (first.classify_eq _)
      (tokens_cons second.ne_markWord (second.classify_eq _) (tokens_flatMap_words known))
  have scan : Verb.asm.grammar.scanWords (input :: output :: options.flatMap AsmOption.words) =
      ⟨.file .input (some input) :: .file .output (some output) ::
        options.flatMap AsmOption.events, none⟩ := by
    have files : Verb.asm.grammar.files = [.input, .output] := rfl
    have unmarked (behind : List Token) :
        Token.word output :: options.flatMap AsmOption.tokens ≠ .mark :: behind := by
      intro same
      cases same
    simp only [Grammar.scanWords, tokens, files]
    rw [scan_cons_word first unmarked, scan_cons_word second (flatMap_tokens_ne_mark options),
      scan_flatMap_tokens]
    rfl
  have left := surplus_flatMap_events options
  rw [readCommand, scan]
  simp only [meet, Settings.place, meet_flatMap_events known]
  exact congrArg (fun words => Except.ok (_, words)) left

/-- What the command line `asm INPUT OUTPUT` with **options** behind it asks for: the two files, and
the settings that the options make of the usual ones. -/
theorem ofWords_asm (first : IsPlainWord input) (second : IsPlainWord output)
    (known : ∀ option ∈ options, option.IsKnown) :
    Request.ofWords ("asm".toList :: input :: output :: options.flatMap AsmOption.words) =
      .perform .asm
        (options.foldl AsmOption.apply { input := some input, output := some output }) := by
  have command : IsPlainWord "asm".toList := by decide
  have passed : ∀ word ∈ input :: output :: options.flatMap AsmOption.words, IsPassed word := by
    refine List.forall_mem_cons.mpr ⟨first.isPassed, List.forall_mem_cons.mpr
      ⟨second.isPassed, fun word inside => ?_⟩⟩
    obtain ⟨option, given, inside⟩ := List.mem_flatMap.mp inside
    exact isPassed_of_mem_words (known option given) inside
  obtain ⟨tokens, classified, raws⟩ := exists_tokens_of_isPassed passed
  have scan : mainGrammar.scanWords
      ("asm".toList :: input :: output :: options.flatMap AsmOption.words) =
        ⟨[.command "asm".toList (input :: output :: options.flatMap AsmOption.words)], none⟩ := by
    rw [Grammar.scanWords, tokens_cons command.ne_markWord (command.classify_eq _) classified]
    rw [← raws]
    rfl
  have verb : Verb.ofName? "asm".toList = some .asm := rfl
  rw [Request.ofWords, scan]
  simp only [meetMain, verb, readCommand_asm first second known]
  rfl

end ByteMachine.Command
