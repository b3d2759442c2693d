import EditorTheme.Text.Quoted

/-!
The arguments of the command. Words that begin with a hyphen are options; long ones may be shortened as long
as they stay clear, and short ones may be joined. The other words are the file name and then, right after it,
the output folder.
-/

set_option autoImplicit false
set_option relaxedAutoImplicit false

namespace EditorTheme.CommandLine

inductive Flag where
  | help
  | paletteJson
  | preview
  | verbose
  deriving Repr, DecidableEq

def spellings : List (String × Flag) :=
  [("-h", .help), ("--help", .help), ("--palette-json", .paletteJson), ("--preview", .preview),
    ("--verbose", .verbose), ("-v", .verbose)]

def Flag.title : Flag → String
  | .help => "-h/--help"
  | .paletteJson => "--palette-json"
  | .preview => "--preview"
  | .verbose => "--verbose/-v"

structure Request where
  filename : String
  output : Option String
  paletteJson : Option String
  preview : Bool
  verbose : Bool
  deriving Repr, DecidableEq

inductive UsageError where
  | ambiguous (word : String) (candidates : List String)
  | expectedArgument (flag : Flag)
  | ignoredArgument (flag : Flag) (argument : String)
  | missingFilename
  | unrecognized (words : List String)
  deriving Repr, DecidableEq

def UsageError.message : UsageError → String
  | .ambiguous word candidates =>
    "ambiguous option: " ++ word ++ " could match " ++ ", ".intercalate candidates
  | .expectedArgument flag => "argument " ++ flag.title ++ ": expected one argument"
  | .ignoredArgument flag argument =>
    "argument " ++ flag.title ++ ": ignored explicit argument " ++ Text.quoted argument
  | .missingFilename => "the following arguments are required: filename"
  | .unrecognized words => "unrecognized arguments: " ++ " ".intercalate words

/-- Why no request comes of the arguments: help was asked for, or they are wrong. -/
inductive Refusal where
  | help
  | usage (error : UsageError)
  deriving Repr, DecidableEq

/-- A word of the command line by its role. -/
inductive Word where
  | plain (s : String)
  /-- The two hyphens after which every word is plain. -/
  | separator
  | option (flag : Flag) (spelling : String) (argument : Option String)
  | unknown (s : String)
  deriving Repr, DecidableEq

def splitArgument (cs : List Char) : List Char × Option String :=
  match cs.dropWhile (· ≠ '=') with
  | [] => (cs, none)
  | _ :: rest => (cs.takeWhile (· ≠ '='), some (String.ofList rest))

/-- A hyphen and digits, with a point among them or without it. A line feed at the end does not count. -/
def isNegativeNumber : List Char → Bool
  | '-' :: cs =>
    let cs := if cs.getLast? = some '\n' then cs.dropLast else cs
    let rest := cs.dropWhile Text.isDecimalDigit
    match rest with
    | [] => !cs.isEmpty
    | '.' :: fraction => !fraction.isEmpty && fraction.all Text.isDecimalDigit
    | _ => false
  | _ => false

/-- The options that a word may stand for: those whose long spelling it begins, or the one whose short
spelling it begins with. -/
def candidates (cs : List Char) : List Word :=
  match cs with
  | '-' :: '-' :: _ =>
    let (start, argument) := splitArgument cs
    (spellings.filter fun s => start.isPrefixOf s.1.toList).map fun s => .option s.2 s.1 argument
  | _ =>
    (spellings.filter fun s => s.1.toList = cs.take 2).map fun s =>
      .option s.2 s.1 (some (String.ofList (cs.drop 2)))

def Word.spelling : Word → String
  | .plain s => s
  | .separator => "--"
  | .option _ spelling _ => spelling
  | .unknown s => s

/-- The role of a word that begins with a hyphen and spells no option in full. -/
def classifyHyphened (s : String) : Except UsageError Word :=
  let cs := s.toList
  let (start, argument) := splitArgument cs
  match argument.bind fun _ => spellings.lookup (String.ofList start) with
  | some flag => .ok (.option flag (String.ofList start) argument)
  | none =>
    match candidates cs with
    | [word] => .ok word
    | [] => .ok (if isNegativeNumber cs || cs.contains ' ' then .plain s else .unknown s)
    | words => .error (.ambiguous s (words.map Word.spelling))

/-- The role of a word. -/
def classify (s : String) : Except UsageError Word :=
  if s.toList.head? ≠ some '-' then .ok (.plain s)
  else match spellings.lookup s with
    | some flag => .ok (.option flag s none)
    | none => if s = "-" then .ok (.plain s) else classifyHyphened s

def classifyAll : List String → Except UsageError (List Word)
  | [] => .ok []
  | s :: rest =>
    if s = "--" then .ok (.separator :: rest.map .plain)
    else do return (← classify s) :: (← classifyAll rest)

/-- Which plain word comes next. -/
inductive Stage where
  | filename
  | output
  /-- The output folder has been read; a separator right after it still belongs to it. -/
  | afterOutput
  | closed
  deriving Repr, DecidableEq

/-- What has been read of the arguments. -/
structure Partial where
  stage : Stage
  filename : String
  output : Option String
  paletteJson : Option String
  preview : Bool
  verbose : Bool
  extras : List String

namespace Partial

def start : Partial where
  stage := .filename
  filename := ""
  output := none
  paletteJson := none
  preview := false
  verbose := false
  extras := []

/-- After an option the output folder can no longer follow the file name. -/
def closeOutput (r : Partial) : Partial :=
  if r.stage = .filename then r else { r with stage := .closed }

/-- An argument; two hyphens as an argument are dropped. -/
def argument (s : String) : Option String := if s = "--" then none else some s

def addPlain (r : Partial) (s : String) : Partial :=
  match r.stage with
  | .filename => { r with filename := s, stage := .output }
  | .output => { r with output := argument s, stage := .afterOutput }
  | .afterOutput => { r with extras := r.extras ++ [s], stage := .closed }
  | .closed => { r with extras := r.extras ++ [s] }

def addSeparator (r : Partial) : Partial :=
  if r.stage = .closed then { r with extras := r.extras ++ ["--"] } else r

def addUnknown (r : Partial) (s : String) : Partial :=
  let r := r.closeOutput
  { r with extras := r.extras ++ [s] }

def apply (r : Partial) : Flag → Except Refusal Partial
  | .help => .error .help
  | .preview => .ok { r with preview := true }
  | .verbose => .ok { r with verbose := true }
  | .paletteJson => .error (.usage (.expectedArgument .paletteJson))

end Partial

def joinedFlags (flag : Flag) : List Char → Except UsageError (List Flag)
  | [] => .ok [flag]
  | c :: rest =>
    match spellings.lookup (String.ofList ['-', c]) with
    | some next => do return flag :: (← joinedFlags next rest)
    | none => .error (.ignoredArgument flag (String.ofList (c :: rest)))

/-- The options of a word that takes no argument from the words after it. Only letters can be joined to an
option, and only to a short one. -/
def flagsOf (flag : Flag) (spelling : String) : Option String → Except UsageError (List Flag)
  | none => .ok [flag]
  | some argument =>
    if spelling.length = 2 ∧ argument ≠ "" then joinedFlags flag argument.toList
    else .error (.ignoredArgument flag argument)

def readWords (r : Partial) : List Word → Except Refusal Partial
  | [] => .ok r
  | .plain s :: rest => readWords (r.addPlain s) rest
  | .separator :: rest => readWords r.addSeparator rest
  | .unknown s :: rest => readWords (r.addUnknown s) rest
  | .option .paletteJson _ (some argument) :: rest =>
    readWords { r.closeOutput with paletteJson := Partial.argument argument } rest
  | .option .paletteJson _ none :: .plain s :: rest =>
    readWords { r.closeOutput with paletteJson := some s } rest
  | .option .paletteJson _ none :: _ => .error (.usage (.expectedArgument .paletteJson))
  | .option flag spelling argument :: rest => do
    let flags ← (flagsOf flag spelling argument).mapError .usage
    readWords (← flags.foldlM Partial.apply r.closeOutput) rest

def Request.read (arguments : List String) : Except Refusal Request := do
  let words ← (classifyAll arguments).mapError .usage
  let r ← readWords Partial.start words
  if r.stage = .filename then throw (.usage .missingFilename)
  if !r.extras.isEmpty then throw (.usage (.unrecognized r.extras))
  return {
    filename := r.filename
    output := r.output
    paletteJson := r.paletteJson
    preview := r.preview
    verbose := r.verbose }

def usage : String :=
  "usage: colorscheme-compiler [-h] [--palette-json JSON] [--preview] [--verbose]\n" ++
  "                            filename [output]\n"

def help : String :=
  usage ++
  "\n" ++
  "Generate a Neovim Lua colorscheme from a TOML theme file\n" ++
  "\n" ++
  "positional arguments:\n" ++
  "  filename             The input colorscheme file\n" ++
  "  output               Directory of the generated colorscheme (default:\n" ++
  "                       current directory)\n" ++
  "\n" ++
  "options:\n" ++
  "  -h, --help           show this help message and exit\n" ++
  "  --palette-json JSON  Also export the resolved palette to this JSON file\n" ++
  "  --preview            Print the resolved palette to the terminal\n" ++
  "  --verbose, -v        Log resolution details\n"

end EditorTheme.CommandLine
