import Mathlib.Data.List.Forall2
import Calculator.Command.Report
import Calculator.Proofs.Token.Table

/-!
# What is printed of tokens

The table of a source depends on its text alone, not on the way in which the text is found.  The end
marker is left out of it and of the number of tokens, so a table with the end marker is the same as
one without it.
-/

namespace Calculator

theorem filter_tokens (source : String) :
    (tokens source).filter (·.kind ≠ .special .endOfInput) = tokens source :=
  List.filter_eq_self.mpr fun _ member => decide_eq_true (kind_ne_endOfInput_of_mem member)

theorem filter_tokenize (source : String) :
    (tokenize source).filter (·.kind ≠ .special .endOfInput) = tokens source := by
  rw [tokenize, List.filter_append, filter_tokens]
  exact List.append_nil _

theorem table_tokens (source : String) :
    Token.table (tokens source) = Token.table (tokenize source) := by
  rw [Token.table, Token.table, filter_tokens, filter_tokenize]

section Reports

variable {surroundings : Surroundings} {source : Source} {text : String}

theorem report_tokens_of_load (loaded : source.load surroundings = .ok text) :
    (Command.tokens source).report surroundings =
      ⟨Token.table (tokenize text), [.counted source.label (tokens text).length], true⟩ := by
  rw [Command.report, loaded, Report.ofSource, Report.ofTokens]
  simp [tokenize]

theorem tokens_of_calculate {calculation : Calculation}
    (calculated : calculate text = .ok calculation) : calculation.tokens = tokens text := by
  rw [calculate_eq] at calculated
  cases evaluated : evaluate (tokens text) with
  | error error =>
      rw [evaluated] at calculated
      cases calculated
  | ok value =>
      rw [evaluated] at calculated
      obtain rfl := Except.ok.inj calculated
      rfl

/-- With tables, the value of an expression stands behind the table of its text. -/
theorem output_eval_of_calculate {calculation : Calculation}
    (calculated : calculate text = .ok calculation) :
    ((Command.eval true [text]).report surroundings).output =
      Token.table (tokenize text) ++ text.toList ++ " = ".toList ++ calculation.value.text ++
        ['\n'] := by
  rw [Command.report, Report.ofExpressions_cons, calculated, Report.ofOutcome,
    tokens_of_calculate calculated, table_tokens]
  exact List.append_nil _

end Reports

/-- The table of a source that can be loaded has a header and one row for each token but the end
marker.  Runs of spaces separate the cells of a row, so that these tokens are read back; their
number is reported. -/
theorem tokens_report_reads_back {surroundings : Surroundings} {source : Source} {text : String}
    (loaded : source.load surroundings = .ok text) :
    ∃ header rows,
      ((Command.tokens source).report surroundings).output.splitOn '\n' =
        header :: rows ++ [[]] ∧
      Token.IsRow ["KIND".toList, "TEXT".toList, "LINE".toList, "COLUMN".toList] header ∧
      List.Forall₂ Token.IsRow
        (((tokenize text).filter (·.kind ≠ .special .endOfInput)).map Token.cells) rows ∧
      Token.ofTable? ((Command.tokens source).report surroundings).output =
        some ((tokenize text).filter (·.kind ≠ .special .endOfInput)) ∧
      ∀ durations,
        ((Command.tokens source).report surroundings).notes.map (Note.text durations) =
          [source.label ++ ": ".toList ++ Numeral.ofNat rows.length ++ " token(s) in ".toList ++
            milliseconds durations.tokenize ++ ['\n']] := by
  have solid : ∀ token ∈ (tokenize text).filter (·.kind ≠ .special .endOfInput),
      Token.IsCell token.text.toList := by
    rw [filter_tokenize]
    exact fun _ => Token.isCell_text
  obtain ⟨header, rows, lines, isHeader, areRows, read⟩ := Token.exists_rows_of_table solid
  have count : rows.length = (tokens text).length := by
    rw [← areRows.length_eq, List.length_map, filter_tokenize]
  rw [report_tokens_of_load loaded]
  refine ⟨header, rows, lines, isHeader, areRows, read, fun durations => ?_⟩
  rw [count]
  rfl

/-- The table of `1/* 10` can be loaded from the arguments, and is read back. -/
theorem tokens_report_of_quotient :
    Source.load ⟨fun _ => .error .missing, .error .missing⟩ (.argument "1/* 10") = .ok "1/* 10" ∧
    Token.ofTable? ((Command.tokens (.argument "1/* 10")).report
        ⟨fun _ => .error .missing, .error .missing⟩).output =
      some [⟨.literal .integer, "1", ⟨1, 1⟩⟩, ⟨.operator .divide, "/", ⟨1, 2⟩⟩,
        ⟨.operator .multiply, "*", ⟨1, 3⟩⟩, ⟨.literal .integer, "10", ⟨1, 5⟩⟩] := by
  have loaded : Source.load ⟨fun _ => .error .missing, .error .missing⟩ (.argument "1/* 10") =
      .ok "1/* 10" := rfl
  obtain ⟨_, _, _, _, _, read, _⟩ := tokens_report_reads_back loaded
  refine ⟨loaded, read.trans ?_⟩
  decide +kernel

theorem decodeText_eq_ok_iff {bytes : ByteArray} {text : String} :
    decodeText bytes = .ok text ↔ text.toUTF8 = bytes := by
  constructor
  · intro decoded
    unfold decodeText String.fromUTF8? at decoded
    split at decoded
    · rename_i found
      split at found
      · obtain rfl := Option.some.inj found
        obtain rfl := Except.ok.inj decoded
        rfl
      · cases found
    · cases decoded
  · rintro rfl
    have decoded : String.fromUTF8? text.toUTF8 = some text := by
      rw [String.fromUTF8?, String.toUTF8_eq_toByteArray, dif_pos text.isValidUTF8]
      rfl
    rw [decodeText, decoded]

theorem decodeText_of_forall_ne {bytes : ByteArray}
    (noText : ∀ text : String, text.toUTF8 ≠ bytes) : decodeText bytes = .error .notText := by
  cases decoded : decodeText bytes with
  | ok text => exact absurd (decodeText_eq_ok_iff.mp decoded) (noText text)
  | error reason =>
      unfold decodeText at decoded
      split at decoded
      · cases decoded
      · exact decoded.symm

namespace Source

variable {surroundings : Surroundings} {path : String} {bytes : ByteArray}

theorem load_file (stored : surroundings.file path = .ok bytes) :
    (file path).load surroundings = decodeText bytes := by
  rw [load, stored]
  rfl

theorem load_standardInput (input : surroundings.standardInput = .ok bytes) :
    standardInput.load surroundings = decodeText bytes := by
  rw [load, input]
  rfl

end Source

/-- Bytes that encode a text lead to its table and to the number of its tokens from a file as well
as from the standard input, as the text itself does as an argument; before the value of the text the
same table is printed.  Other bytes lead to an error and no output from either. -/
theorem table_reports_agree {surroundings : Surroundings} {path : String} {bytes : ByteArray}
    (file : surroundings.file path = .ok bytes)
    (input : surroundings.standardInput = .ok bytes) :
    (∀ text : String, text.toUTF8 = bytes →
      (∃ count, ∀ source ∈ [Source.file path, .standardInput, .argument text],
        (Command.tokens source).report surroundings =
            ⟨Token.table (tokenize text), [.counted source.label count], true⟩ ∧
          ((Command.tokens source).report surroundings).exitCode = 0) ∧
      ∀ calculation, calculate text = .ok calculation →
        ((Command.eval true [text]).report surroundings).output =
          Token.table (tokenize text) ++ text.toList ++ " = ".toList ++ calculation.value.text ++
            ['\n']) ∧
    ((∀ text : String, text.toUTF8 ≠ bytes) →
      ∀ source ∈ [Source.file path, .standardInput],
        ((Command.tokens source).report surroundings).output = [] ∧
        ((Command.tokens source).report surroundings).exitCode = 1 ∧
        ∀ durations,
          ((Command.tokens source).report surroundings).notes.map (Note.text durations) =
            [source.label ++ ": ".toList ++ "stream did not contain valid UTF-8".toList ++
              ['\n']]) := by
  have fromFile := Source.load_file file
  have fromInput := Source.load_standardInput input
  constructor
  · intro text encodes
    rw [decodeText_eq_ok_iff.mpr encodes] at fromFile fromInput
    have loads : ∀ source ∈ [Source.file path, .standardInput, .argument text],
        source.load surroundings = .ok text :=
      List.forall_mem_cons.mpr ⟨fromFile, List.forall_mem_cons.mpr ⟨fromInput,
        List.forall_mem_singleton.mpr rfl⟩⟩
    refine ⟨⟨(tokens text).length, fun source member => ?_⟩, fun calculation calculated =>
      output_eval_of_calculate calculated⟩
    rw [report_tokens_of_load (loads source member)]
    exact ⟨rfl, rfl⟩
  · intro noText
    rw [decodeText_of_forall_ne noText] at fromFile fromInput
    have loads : ∀ source ∈ [Source.file path, .standardInput],
        source.load surroundings = .error .notText :=
      List.forall_mem_cons.mpr ⟨fromFile, List.forall_mem_singleton.mpr fromInput⟩
    intro source member
    rw [Command.report, loads source member]
    exact ⟨rfl, rfl, fun durations => rfl⟩

/-- A file and the standard input can hold the digit `7`, and a byte with which no text begins. -/
theorem table_reports_of_bytes :
    (∀ source ∈ [Source.file "digit", .standardInput, .argument "7"],
      ((Command.tokens source).report ⟨fun _ => .ok "7".toUTF8, .ok "7".toUTF8⟩).output =
        Token.table (tokenize "7")) ∧
    ∀ source ∈ [Source.file "digit", .standardInput],
      ((Command.tokens source).report ⟨fun _ => .ok ⟨#[0xff]⟩, .ok ⟨#[0xff]⟩⟩).exitCode = 1 := by
  constructor
  · intro source member
    have agree := @table_reports_agree ⟨fun _ => .ok "7".toUTF8, .ok "7".toUTF8⟩ "digit" _ rfl rfl
    obtain ⟨⟨count, reports⟩, -⟩ := agree.1 "7" rfl
    rw [(reports source member).1]
  · intro source member
    have noText : ∀ text : String, text.toUTF8 ≠ ⟨#[0xff]⟩ := fun text encodes => by
      have undecoded : decodeText ⟨#[0xff]⟩ = .error .notText := by decide +kernel
      cases undecoded.symm.trans (decodeText_eq_ok_iff.mpr encodes)
    have agree := @table_reports_agree ⟨fun _ => .ok ⟨#[0xff]⟩, .ok ⟨#[0xff]⟩⟩ "digit" _ rfl rfl
    exact (agree.2 noText source member).2.1

end Calculator
