import Calculator.Command.Arguments

/-!
# Reading sources

A source is a text or bytes that spell one.  Reading fails for a reason that the command reports.
-/

namespace Calculator

/-- Why a source cannot be read. -/
inductive ReadError
  | missing
  | directory
  | notDirectory
  /-- The bytes are not UTF-8. -/
  | notText
  /-- Any other failure, in words. -/
  | other (description : String)
  deriving DecidableEq, Repr

/-- The message of a failure to read. -/
def ReadError.message : ReadError → List Char
  | missing => "No such file or directory (os error 2)".toList
  | directory => "Is a directory (os error 21)".toList
  | notDirectory => "Not a directory (os error 20)".toList
  | notText => "stream did not contain valid UTF-8".toList
  | other description => description.toList

/-- What the command line can read. -/
structure Surroundings where
  /-- The bytes of the file at a path. -/
  file : String → Except ReadError ByteArray
  /-- The bytes of the standard input. -/
  standardInput : Except ReadError ByteArray

/-- Surroundings in which nothing can be read. -/
def Surroundings.empty : Surroundings :=
  ⟨fun _ => .error .missing, .error .missing⟩

/-- The text that bytes spell. -/
def decodeText (bytes : ByteArray) : Except ReadError String :=
  match String.fromUTF8? bytes with
  | some text => .ok text
  | none => .error .notText

namespace Source

/-- How a source is called in reports. -/
def label : Source → List Char
  | file path => path.toList
  | argument _ => "<expr>".toList
  | standardInput => "<stdin>".toList

/-- The text of a source. -/
def load (surroundings : Surroundings) : Source → Except ReadError String
  | file path => surroundings.file path >>= decodeText
  | argument text => .ok text
  | standardInput => surroundings.standardInput >>= decodeText

end Source
end Calculator
