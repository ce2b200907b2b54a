/-!
# Command-line arguments

The arguments ask for the token table of one text or for the values of expressions.  Options may
stand before or after other arguments until two hyphens end them.  Whatever does not fit is a usage
error, before anything is read or evaluated.

The program declares its commands and options and leaves the arguments to a parser from elsewhere.
`Request.ofArguments?` stands for this parser: it spells out the rules that the parser documents,
for the options that are declared.  That the parser keeps to them is an assumption, and whatever is
said about the arguments of a run rests on it.  The parser's own texts, which are its help pages and
its messages about usage errors, are left out.
-/

namespace Calculator

/-- Where the text of a token table comes from. -/
inductive Source
  | file (path : String)
  | argument (text : String)
  | standardInput
  deriving DecidableEq, Repr

/-- What can be done. -/
inductive Command
  /-- Print the token table of a text. -/
  | tokens (source : Source)
  /-- Evaluate expressions, with or without their token tables. -/
  | eval (showTokens : Bool) (expressions : List String)
  deriving DecidableEq, Repr

/-- What the arguments ask for. -/
inductive Request
  | run (command : Command)
  | version
  | help
  deriving DecidableEq, Repr

/-- What an argument looks like. -/
inductive Form
  /-- Two hyphens, which end the options. -/
  | separator
  /-- A hyphen, a letter and the text after it. -/
  | short (letter : Char) (attached : List Char)
  /-- Two hyphens and a name, with the text after an equals sign. -/
  | long (name : List Char) (attached : Option (List Char))
  /-- Anything else, a single hyphen included. -/
  | plain
  deriving DecidableEq, Repr

/-- The form of an argument. -/
def Form.ofText : List Char → Form
  | ['-', '-'] => separator
  | '-' :: '-' :: text =>
    match text.dropWhile (· ≠ '=') with
    | [] => long text none
    | _ :: attached => long (text.takeWhile (· ≠ '=')) (some attached)
  | '-' :: letter :: attached => short letter attached
  | _ => plain

/-- Whether an argument can be the value of the option before it. -/
def isValue (argument : String) : Bool :=
  Form.ofText argument.toList = .plain

/-- What the arguments of the table command have named so far. -/
structure TableChoice where
  /-- The path of a file. -/
  file : Option String
  /-- A text. -/
  text : Option String
  deriving DecidableEq, Repr

namespace TableChoice

/-- Names a file, which has to have a name and to be the only one. -/
def addFile (choice : TableChoice) (path : String) : Option TableChoice :=
  if choice.file = none ∧ path ≠ "" then some { choice with file := path } else none

/-- Names a text, which has to be the only one. -/
def addText (choice : TableChoice) (text : String) : Option TableChoice :=
  if choice.text = none then some { choice with text := text } else none

/-- A file, a text or, by default, the standard input; not a file and a text together. -/
def source? : TableChoice → Option Source
  | ⟨none, none⟩ => some .standardInput
  | ⟨some path, none⟩ => some (.file path)
  | ⟨none, some text⟩ => some (.argument text)
  | ⟨some _, some _⟩ => none

/-- The command for what was named. -/
def request? (choice : TableChoice) : Option Request :=
  choice.source?.map fun source => .run (.tokens source)

end TableChoice

/-- Drops one equals sign between an option and its value. -/
def dropEquals : List Char → List Char
  | '=' :: text => text
  | text => text

/-- Reads the arguments of the table command. -/
def tableRequest? (choice : TableChoice) : List String → Option Request
  | [] => choice.request?
  | argument :: later =>
    match Form.ofText argument.toList with
    | .separator => (later.foldlM TableChoice.addFile choice).bind TableChoice.request?
    | .plain => (choice.addFile argument).bind (tableRequest? · later)
    | .short 'h' _ | .long ['h', 'e', 'l', 'p'] none => some .help
    | .short 'e' [] | .long ['e', 'x', 'p', 'r'] none =>
      match later with
      | [] => none
      | value :: later =>
        if isValue value then (choice.addText value).bind (tableRequest? · later) else none
    | .short 'e' attached =>
      (choice.addText (String.ofList (dropEquals attached))).bind (tableRequest? · later)
    | .long ['e', 'x', 'p', 'r'] (some attached) =>
      (choice.addText (String.ofList attached)).bind (tableRequest? · later)
    | .short _ _ | .long _ _ => none

/-- Evaluates expressions, of which there has to be one. -/
def evalCommand? (showTokens : Bool) (expressions : List String) : Option Request :=
  if expressions = [] then none else some (.run (.eval showTokens expressions))

/-- Reads the arguments of the evaluation command after earlier expressions, the last first. -/
def evalRequest? (showTokens : Bool) (earlier : List String) : List String → Option Request
  | [] => evalCommand? showTokens earlier.reverse
  | argument :: later =>
    match Form.ofText argument.toList with
    | .separator => evalCommand? showTokens (earlier.reverse ++ later)
    | .plain => evalRequest? showTokens (argument :: earlier) later
    | .short 'h' _ | .long ['h', 'e', 'l', 'p'] none => some .help
    | .long ['t', 'o', 'k', 'e', 'n', 's'] none =>
      if showTokens then none else evalRequest? true earlier later
    | .short _ _ | .long _ _ => none

/-- The commands that help can be asked about. -/
def commandNames : List String :=
  ["tokens", "eval", "help"]

/-- Reads the arguments of the help command: at most one name, and only that of a command. -/
def helpRequest? : List String → Option Request
  | [] => some .help
  | [name] => if name ∈ commandNames then some .help else none
  | _ :: _ :: _ => none

/-- Reads all arguments; there is no request if they do not fit. -/
def Request.ofArguments? : List String → Option Request
  | [] => none
  | argument :: later =>
    match Form.ofText argument.toList with
    | .short 'V' _ | .long ['v', 'e', 'r', 's', 'i', 'o', 'n'] none => some .version
    | .short 'h' _ | .long ['h', 'e', 'l', 'p'] none => some .help
    | .plain =>
      if argument = "tokens" then tableRequest? ⟨none, none⟩ later
      else if argument = "eval" then evalRequest? false [] later
      else if argument = "help" then helpRequest? later
      else none
    | _ => none

end Calculator
