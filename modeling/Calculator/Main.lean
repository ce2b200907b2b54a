import Calculator.Command.Report

/-!
# The program

The outermost layer: it reads files and the standard input, prints reports and measures how long
the stages of a calculation take.
-/

namespace Calculator

/-- The number of a failure of the system; some calls report it with a minus sign. -/
def systemNumber (code : UInt32) : Nat :=
  min code.toNat (-code).toNat

/-- The words and the number of a failure of the system. -/
def systemFailure (code : UInt32) (details : String) : ReadError :=
  .other (details.capitalize ++ " (os error " ++ toString (systemNumber code) ++ ")")

/-- The reason why the system refused to read. -/
def readErrorOfIO : IO.Error → ReadError
  | .noFileOrDirectory .. => .missing
  | .inappropriateType _ code _ => if systemNumber code = 20 then .notDirectory else .directory
  | .permissionDenied _ code details => systemFailure code details
  | .invalidArgument _ code details => systemFailure code details
  | .resourceExhausted _ code details => systemFailure code details
  | error => .other (toString error)

/-- Reads bytes, or says why they cannot be read. -/
def tryRead (bytes : IO ByteArray) : IO (Except ReadError ByteArray) :=
  tryCatch (Except.ok <$> bytes) fun error => return .error (readErrorOfIO error)

/-- The surroundings of a request: what it names is read beforehand, and nothing else. -/
def readSurroundings : Request → IO Surroundings
  | .run (.tokens (.file path)) => do
    let content ← tryRead (IO.FS.readBinFile path)
    return { Surroundings.empty with file := fun _ => content }
  | .run (.tokens .standardInput) => do
    let input ← IO.getStdin
    return { Surroundings.empty with standardInput := ← tryRead input.readBinToEnd }
  | _ => return .empty

/-- A result and how long computing it takes, in nanoseconds. -/
def timed {α : Type} (compute : Unit → α) : IO (α × Nat) := do
  let before ← IO.monoNanosNow
  let result ← IO.lazyPure compute
  let after ← IO.monoNanosNow
  return (result, after - before)

/-- How long the tokens of a source that can be loaded take. -/
def measureTokens (surroundings : Surroundings) (source : Source) : IO Durations := do
  match source.load surroundings with
  | .ok text => return ⟨(← timed fun _ => tokenize text).2, 0⟩
  | .error _ => return ⟨0, 0⟩

/-- How long the stages of a calculation take. -/
def measureCalculation (text : String) : IO Durations := do
  let (tokens, scanning) ← timed fun _ => tokens text
  let (_, evaluating) ← timed fun _ => evaluate tokens
  return ⟨scanning, evaluating⟩

/-- Prints a report. -/
def Report.print (durations : Durations) (report : Report) : IO Report := do
  (← IO.getStdout).putStr (String.ofList report.output)
  (← IO.getStderr).putStr (String.ofList (report.notes.flatMap (Note.text durations)))
  return report

/-- Prints the report of a request and gives it back.  Expressions have their reports printed one by
one, each with the time that it takes itself; in turn these are the report of all of them. -/
def Request.print (surroundings : Surroundings) : Request → IO Report
  | .run (.tokens source) => do
    let durations ← measureTokens surroundings source
    ((Command.tokens source).report surroundings).print durations
  | .run (.eval showTokens expressions) => do
    let reports ← expressions.mapM fun expression => do
      let durations ← measureCalculation expression
      ((Command.eval showTokens [expression]).report surroundings).print durations
    return reports.foldr (· ++ ·) .empty
  | request => (request.report surroundings).print ⟨0, 0⟩

end Calculator

/-- Runs the program on its arguments. -/
def main (arguments : List String) : IO UInt32 := do
  let report ← (Calculator.Request.ofArguments? arguments).mapM fun request => do
    request.print (← Calculator.readSurroundings request)
  return (Calculator.exitStatus report).toUInt32
