import ByteMachine.Command.Options
import ByteMachine.Text.DecimalDigit

/-!
# Scanning a command line

From the words of a command line to the events that they mean, in order: an option with its
value, a file name, the command with all words behind it, or a word that is left over.

Every word is classified first. The word `--` ends the options. Before it, a word that begins
with a dash is an option if it spells one, or begins one and no other; a value may follow it
behind an equals sign, and several short flags may share one dash. A dash alone, a negative
number, and a word with a space in it are no options.

Then the words are taken from left to right. The scan ends at the first error, and whoever
reads the events meets them in the order of the words, up to that error.
-/

namespace ByteMachine.Command

/-- A **value** written in the same word as its option: behind an equals sign, or right behind
a short spelling. -/
structure Attached where
  behindEquals : Bool
  value : Text
  deriving DecidableEq, Repr

/-- A word, **classified**: an option, a file name, or the mark that ends the options. -/
inductive Token
  | word (word : Text)
  /-- The word that ends the options. -/
  | mark
  | opt (raw spelling : Text) (opt : Opt) (attached : Option Attached)
  /-- A word that looks like an option and is none. -/
  | unknown (raw : Text)
  deriving DecidableEq, Repr

/-- The word that ends the options. -/
def markWord : Text := ['-', '-']

/-- The word that was classified. -/
def Token.raw : Token → Text
  | word text => text
  | mark => markWord
  | opt raw _ _ _ => raw
  | unknown raw => raw

/-! ### Classification -/

/-- A digit of any script. -/
def isAnyDigit (c : Char) : Bool :=
  (decimalDigit? c).isSome

/-- A **negative number**: a dash and digits, or a dash and a decimal fraction; a line feed
may stand at the end. -/
def isNegativeNumber (word : Text) : Bool :=
  match word.dropFinalNewline with
  | '-' :: number =>
    match number.dropWhile isAnyDigit with
    | [] => number ≠ []
    | '.' :: fraction => fraction ≠ [] && fraction.all isAnyDigit
    | _ => false
  | _ => false

/-- A word cut at its first equals sign, and the value behind it. -/
def cutAtEquals (word : Text) : Text × Option Attached :=
  match word.dropWhile (· ≠ '=') with
  | [] => (word, none)
  | _ :: value => (word.takeWhile (· ≠ '='), some ⟨true, value⟩)

/-- The **candidates** for a word that spells no option: after two dashes every spelling that
it begins, after one dash the short spelling in front of it. -/
def Grammar.candidates (grammar : Grammar) (word : Text) : List Token :=
  match word with
  | '-' :: '-' :: _ =>
    let (start, attached) := cutAtEquals word
    (grammar.spellings.filter fun entry => start.isPrefixOf entry.1).map fun entry =>
      .opt word entry.1 entry.2 attached
  | _ =>
    grammar.spellings.filterMap fun entry =>
      if entry.1 = word.take 2 then
        some (.opt word entry.1 entry.2 (some ⟨false, word.drop 2⟩))
      else if word.isPrefixOf entry.1 then some (.opt word entry.1 entry.2 none)
      else none

/-- The spelling that a candidate stands for. -/
def Token.spelling : Token → Text
  | opt _ spelling _ _ => spelling
  | token => token.raw

/-- Classifies a word that begins with a dash and spells no option, given its
candidates. -/
def classifyByCandidates (word : Text) : List Token → Except Misuse Token
  | [token] => .ok token
  | [] => if isNegativeNumber word || word.contains ' ' then .ok (.word word)
      else .ok (.unknown word)
  | tokens => .error (.ambiguous word (tokens.map Token.spelling))

/-- **Classifies** a word before the end of the options, by its first characters and the spellings
of the grammar. -/
def Grammar.classify (grammar : Grammar) (word : Text) : Except Misuse Token :=
  if word.head? ≠ some '-' then .ok (.word word)
  else
    match grammar.option? word with
    | some opt => .ok (.opt word word opt none)
    | none =>
      if word.length = 1 then .ok (.word word)
      else
        match cutAtEquals word with
        | (start, some attached) =>
          match grammar.option? start with
          | some opt => .ok (.opt word start opt (some attached))
          | none => classifyByCandidates word (grammar.candidates word)
        | (_, none) => classifyByCandidates word (grammar.candidates word)

/-- Classifies all words. -/
def Grammar.tokens (grammar : Grammar) : List Text → Except Misuse (List Token)
  | [] => .ok []
  | word :: words =>
    if word = markWord then .ok (.mark :: words.map .word)
    else do
      let token ← grammar.classify word
      let tokens ← grammar.tokens words
      return token :: tokens

/-! ### Events -/

/-- What one or more words **mean**: an option with its value, a file name, the command, or nothing
that was asked for. -/
inductive Event
  | flag (flag : Flag)
  | setting (setting : Setting) (value : Text)
  /-- A file name. There is none where the word that ends the options stands for it. -/
  | file (role : FileRole) (path : Option Text)
  /-- The command and all words behind it. -/
  | command (name : Text) (words : List Text)
  /-- A word that is left over. -/
  | surplus (word : Text)
  deriving DecidableEq, Repr

/-- The **events** of a command line, up to the error that ends them. -/
structure Scan where
  events : List Event
  misuse? : Option Misuse := none
  deriving DecidableEq, Repr

/-- A scan behind other events. -/
def Scan.behind (events : List Event) (scan : Scan) : Scan :=
  { scan with events := events ++ scan.events }

/-- Short flags that share one dash: their events, and the last option if its value may be
in the next word. `opt` is the option read so far, `attached` the value behind it; a value
that no option takes is read as further short flags. -/
def Grammar.cluster (grammar : Grammar) (opt : Opt) (short behindEquals : Bool) :
    Text → Except Misuse (List Event × Option Opt)
  | [] =>
    match opt with
    | .setting setting => .ok ([.setting setting []], none)
    | .flag _ => .error (.valueIgnored opt [])
  | c :: value =>
    match opt with
    | .setting setting => .ok ([.setting setting (c :: value)], none)
    | .flag flag =>
      if !short || behindEquals || c = '-' then .error (.valueIgnored opt (c :: value))
      else
        match grammar.option? ['-', c], value with
        | none, _ => .ok ([.surplus ('-' :: c :: value), .flag flag], none)
        | some next, [] => .ok ([.flag flag], some next)
        | some next, '=' :: value => do
          let (events, last) ← grammar.cluster next true true value
          return (.flag flag :: events, last)
        | some next, value => do
          let (events, last) ← grammar.cluster next true false value
          return (.flag flag :: events, last)

/-- The events of an option and its attached value, and the option itself if its value may be
in the next word. -/
def Grammar.expand (grammar : Grammar) (spelling : Text) (opt : Opt) :
    Option Attached → Except Misuse (List Event × Option Opt)
  | none => .ok ([], some opt)
  | some attached =>
    let short := spelling.take 2 ≠ markWord
    grammar.cluster opt short attached.behindEquals attached.value

/-- The event of a word in the place of a **file name**. A second `--` there leaves the place
without a name, unless the one that ends the options stands right before it. -/
def fileEvent (role : FileRole) (word : Text) : Event :=
  .file role (if word = markWord then none else some word)

/-- Takes tokens from left to right. `roles` are the file names that are still to come. The
word that ends the options belongs to the file name next to it. -/
def Grammar.scan (grammar : Grammar) : List FileRole → List Token → Scan
  | [], [] => ⟨[], none⟩
  | roles, [] => ⟨[], some (.filesMissing roles)⟩
  | roles, .unknown raw :: rest => (grammar.scan roles rest).behind [.surplus raw]
  | roles, .opt _ spelling opt attached :: rest =>
    match grammar.expand spelling opt attached with
    | .error misuse => ⟨[], some misuse⟩
    | .ok (events, none) => (grammar.scan roles rest).behind events
    | .ok (events, some (.flag flag)) =>
      (grammar.scan roles rest).behind (events ++ [.flag flag])
    | .ok (events, some (.setting setting)) =>
      match rest with
      | .word value :: rest =>
        (grammar.scan roles rest).behind (events ++ [.setting setting value])
      | _ => ⟨[], some (.valueMissing (.setting setting))⟩
  | role :: roles, .mark :: .word word :: rest =>
    (grammar.scan roles rest).behind [.file role (some word)]
  | role :: roles, .word word :: .mark :: rest =>
    (grammar.scan roles rest).behind [.file role (some word)]
  | role :: roles, .word word :: rest =>
    (grammar.scan roles rest).behind [fileEvent role word]
  | [], .word word :: rest =>
    if grammar.takesCommand then ⟨[.command word (rest.map Token.raw)], none⟩
    else (grammar.scan [] rest).behind [.surplus word]
  | roles, .mark :: rest =>
    if grammar.takesCommand && !rest.isEmpty then
      ⟨[.command markWord (rest.map Token.raw)], none⟩
    else (grammar.scan roles rest).behind [.surplus markWord]

/-- The scan of the words of a command line, from the first to the last. -/
def Grammar.scanWords (grammar : Grammar) (words : List Text) : Scan :=
  match grammar.tokens words with
  | .error misuse => ⟨[], some misuse⟩
  | .ok tokens => grammar.scan grammar.files tokens

end ByteMachine.Command
