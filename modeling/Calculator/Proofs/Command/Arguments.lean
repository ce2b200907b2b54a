import Mathlib.Data.List.Basic
import Calculator.Command.Report

/-!
# The placing of options

Up to the first two hyphens an option counts wherever it stands, and behind them every argument is
taken as it is.  The value of an option may be written in one argument with it or in the next one.
What does not fit is found before anything is read or evaluated.
-/

namespace Calculator

/-- The texts of a form. -/
def Form.Spells : Form → List Char → Prop
  | separator, text => text = ['-', '-']
  | short letter attached, text => text = '-' :: letter :: attached
  | long name none, text => text = '-' :: '-' :: name
  | long name (some attached), text => text = '-' :: '-' :: (name ++ '=' :: attached)
  | plain, text => text = ['-'] ∨ text.head? ≠ some '-'

theorem Form.spells_ofText (text : List Char) : (ofText text).Spells text := by
  unfold ofText
  split
  · rfl
  · rename_i text _
    have parts := List.takeWhile_append_dropWhile (p := (· ≠ '=')) (l := text)
    split
    · rfl
    · rename_i sign attached rest
      rw [rest] at parts
      have equals : sign = '=' := by
        have stopped := List.head?_dropWhile_not (· ≠ '=') text
        rw [rest] at stopped
        simpa using stopped
      subst equals
      exact congrArg ('-' :: '-' :: ·) parts.symm
  · rfl
  · rename_i noSeparator noLong noShort
    cases text with
    | nil => exact .inr (by simp)
    | cons first later =>
        by_cases hyphen : first = '-'
        · subst hyphen
          cases later with
          | nil => exact .inl rfl
          | cons letter attached => exact absurd rfl (noShort letter attached)
        · refine .inr fun begins => ?_
          exact hyphen (Option.some.inj begins)

/-- An argument that is no option: a hyphen alone, or one that does not begin with a hyphen. -/
def IsPositional (argument : String) : Prop :=
  argument = "-" ∨ argument.toList.head? ≠ some '-'

theorem IsPositional.ofText_eq {argument : String} (positional : IsPositional argument) :
    Form.ofText argument.toList = .plain := by
  rcases positional with rfl | noHyphen
  · rfl
  have spells := Form.spells_ofText argument.toList
  cases form : Form.ofText argument.toList with
  | plain => rfl
  | separator | short letter attached =>
      rw [form] at spells
      exact absurd (congrArg List.head? spells) noHyphen
  | long name attached =>
      rw [form] at spells
      cases attached <;> exact absurd (congrArg List.head? spells) noHyphen

/-! ## The evaluation command -/

/-- An argument that asks for help. -/
def IsHelp (argument : String) : Prop :=
  "-h".toList <+: argument.toList ∨ argument = "--help"

instance (argument : String) : Decidable (IsHelp argument) :=
  inferInstanceAs (Decidable (_ ∨ _))

/-- An argument that looks like an option and is none of the evaluation command. -/
def IsUnknown (argument : String) : Prop :=
  argument.toList.head? = some '-' ∧ argument ≠ "-" ∧ argument ≠ "--tokens"

instance (argument : String) : Decidable (IsUnknown argument) :=
  inferInstanceAs (Decidable (_ ∧ _))

/-- The arguments in front of the first two hyphens. -/
def optionPart (arguments : List String) : List String :=
  arguments.takeWhile (· ≠ "--")

/-- The arguments behind the first two hyphens. -/
def verbatimPart (arguments : List String) : List String :=
  (arguments.dropWhile (· ≠ "--")).tail

/-- The arguments that are expressions. -/
def expressionsAmong (arguments : List String) : List String :=
  (optionPart arguments).filter (· ≠ "--tokens") ++ verbatimPart arguments

/-- Arguments of which one is an unknown option, in which tables are asked for twice, or none of
which is an expression. -/
def Unfit (arguments : List String) : Prop :=
  (∃ argument ∈ optionPart arguments, IsUnknown argument) ∨
    1 < (optionPart arguments).count "--tokens" ∨ expressionsAmong arguments = []

instance (arguments : List String) : Decidable (Unfit arguments) :=
  inferInstanceAs (Decidable (_ ∨ _))

section Parts

variable {argument : String} {before after : List String}

theorem optionPart_separator (after : List String) : optionPart ("--" :: after) = [] := by
  simp [optionPart]

theorem verbatimPart_separator (after : List String) : verbatimPart ("--" :: after) = after := by
  simp [verbatimPart]

theorem optionPart_cons (noSeparator : argument ≠ "--") (later : List String) :
    optionPart (argument :: later) = argument :: optionPart later := by
  simp [optionPart, noSeparator]

theorem verbatimPart_cons (noSeparator : argument ≠ "--") (later : List String) :
    verbatimPart (argument :: later) = verbatimPart later := by
  simp [verbatimPart, noSeparator]

theorem optionPart_append (noSeparator : "--" ∉ before) (later : List String) :
    optionPart (before ++ later) = before ++ optionPart later := by
  have options : ∀ argument ∈ before, argument ≠ "--" := fun argument member separator =>
    noSeparator (separator ▸ member)
  exact List.takeWhile_append_of_pos (by simpa using options)

theorem verbatimPart_append (noSeparator : "--" ∉ before) (later : List String) :
    verbatimPart (before ++ later) = verbatimPart later := by
  have options : ∀ argument ∈ before, argument ≠ "--" := fun argument member separator =>
    noSeparator (separator ▸ member)
  rw [verbatimPart, List.dropWhile_append_of_pos (by simpa using options), verbatimPart]

end Parts

section Steps

variable {shown : Bool} {earlier later : List String} {argument : String}

theorem evalRequest?_separator :
    evalRequest? shown earlier ("--" :: later) = evalCommand? shown (earlier.reverse ++ later) :=
  rfl

theorem evalRequest?_tokens :
    evalRequest? shown earlier ("--tokens" :: later) =
      if shown then none else evalRequest? true earlier later :=
  rfl

theorem evalRequest?_positional (positional : IsPositional argument) :
    evalRequest? shown earlier (argument :: later) =
      evalRequest? shown (argument :: earlier) later := by
  rw [evalRequest?, positional.ofText_eq]

theorem evalRequest?_unknown (unknown : IsUnknown argument) (noHelp : ¬IsHelp argument)
    (noSeparator : argument ≠ "--") : evalRequest? shown earlier (argument :: later) = none := by
  obtain ⟨hyphen, notAlone, notTokens⟩ := unknown
  have spells := Form.spells_ofText argument.toList
  rw [evalRequest?]
  split
  · rename_i form
    rw [form] at spells
    have separator : argument.toList = "--".toList := spells
    exact absurd (String.toList_injective separator) noSeparator
  · rename_i form
    rw [form] at spells
    rcases spells with alone | noHyphen
    · have alone : argument.toList = "-".toList := alone
      exact absurd (String.toList_injective alone) notAlone
    · exact absurd hyphen noHyphen
  · rename_i attached form
    rw [form] at spells
    exact absurd (.inl ⟨attached, spells.symm⟩) noHelp
  · rename_i form
    rw [form] at spells
    have asksForHelp : argument.toList = "--help".toList := spells
    exact absurd (.inr (String.toList_injective asksForHelp)) noHelp
  · rename_i form
    rw [form] at spells
    have asksForTables : argument.toList = "--tokens".toList := spells
    exact absurd (String.toList_injective asksForTables) notTokens
  · rfl
  · rfl

/-- An argument is two hyphens, asks for tables, is unknown or an expression. -/
theorem argument_cases (argument : String) :
    argument = "--" ∨ argument = "--tokens" ∨ IsUnknown argument ∧ argument ≠ "--" ∨
      IsPositional argument ∧ argument ≠ "--" ∧ argument ≠ "--tokens" := by
  by_cases separator : argument = "--"
  · exact .inl separator
  by_cases asksForTables : argument = "--tokens"
  · exact .inr (.inl asksForTables)
  by_cases hyphen : argument.toList.head? = some '-'
  · by_cases alone : argument = "-"
    · exact .inr (.inr (.inr ⟨.inl alone, separator, asksForTables⟩))
    · exact .inr (.inr (.inl ⟨⟨hyphen, alone, asksForTables⟩, separator⟩))
  · exact .inr (.inr (.inr ⟨.inr hyphen, separator, asksForTables⟩))

end Steps

theorem not_isHelp_tokens : ¬IsHelp "--tokens" := by
  decide

theorem not_isUnknown_tokens : ¬IsUnknown "--tokens" :=
  fun unknown => unknown.2.2 rfl

theorem IsPositional.not_isUnknown {argument : String} (positional : IsPositional argument) :
    ¬IsUnknown argument := by
  rintro ⟨hyphen, notAlone, -⟩
  exact positional.elim notAlone fun noHyphen => noHyphen hyphen

theorem fits_nil (shown : Bool) :
    ¬((∃ argument ∈ ([] : List String), IsUnknown argument) ∨
      1 < shown.toNat + List.count "--tokens" []) := by
  cases shown <;> simp

/-- An unknown option does not fit, wherever it stands, nor does asking for tables twice. -/
theorem evalRequest?_eq_none {arguments : List String}
    (noHelp : ∀ argument ∈ optionPart arguments, ¬IsHelp argument) {shown : Bool}
    {earlier : List String}
    (unfit : (∃ argument ∈ optionPart arguments, IsUnknown argument) ∨
      1 < shown.toNat + (optionPart arguments).count "--tokens") :
    evalRequest? shown earlier arguments = none := by
  induction arguments generalizing shown earlier with
  | nil => exact absurd unfit (fits_nil shown)
  | cons argument later induction =>
      rcases argument_cases argument with rfl | rfl | ⟨unknown, noSeparator⟩ |
        ⟨positional, noSeparator, noTables⟩
      · rw [optionPart_separator] at unfit
        exact absurd unfit (fits_nil shown)
      · rw [optionPart_cons (by decide)] at noHelp unfit
        rw [evalRequest?_tokens]
        cases shown with
        | true => rfl
        | false =>
            refine induction (List.forall_mem_cons.mp noHelp).2 ?_
            simp only [List.mem_cons, exists_eq_or_imp, not_isUnknown_tokens, false_or,
              List.count_cons_self] at unfit
            refine unfit.imp id fun twice => ?_
            simpa [Nat.add_comm] using twice
      · rw [optionPart_cons noSeparator] at noHelp
        exact evalRequest?_unknown unknown (List.forall_mem_cons.mp noHelp).1 noSeparator
      · rw [optionPart_cons noSeparator] at noHelp unfit
        rw [evalRequest?_positional positional]
        refine induction (List.forall_mem_cons.mp noHelp).2 ?_
        simpa [positional.not_isUnknown, noTables] using unfit

/-- What fits asks for the evaluation of all expressions, with tables if an option asks for them. -/
theorem evalRequest?_eq_evalCommand? {arguments : List String}
    (known : ¬∃ argument ∈ optionPart arguments, IsUnknown argument) {shown : Bool}
    {earlier : List String} (once : shown.toNat + (optionPart arguments).count "--tokens" ≤ 1) :
    evalRequest? shown earlier arguments =
      evalCommand? (shown || decide ("--tokens" ∈ optionPart arguments))
        (earlier.reverse ++ expressionsAmong arguments) := by
  induction arguments generalizing shown earlier with
  | nil => simp [evalRequest?, expressionsAmong, optionPart, verbatimPart]
  | cons argument later induction =>
      rcases argument_cases argument with rfl | rfl | ⟨unknown, noSeparator⟩ |
        ⟨positional, noSeparator, noTables⟩
      · rw [evalRequest?_separator, expressionsAmong, optionPart_separator, verbatimPart_separator]
        simp
      · rw [optionPart_cons (by decide)] at known once
        simp only [List.mem_cons, exists_eq_or_imp, not_or] at known
        rw [List.count_cons_self] at once
        obtain rfl : shown = false := by
          cases shown with
          | false => rfl
          | true =>
              rw [Bool.toNat_true] at once
              omega
        rw [evalRequest?_tokens, if_neg (by decide),
          induction known.2 (by simpa [Nat.add_comm] using once)]
        simp [expressionsAmong, optionPart_cons, verbatimPart_cons]
      · rw [optionPart_cons noSeparator] at known
        exact absurd ⟨argument, List.mem_cons_self, unknown⟩ known
      · rw [optionPart_cons noSeparator] at known once
        simp only [List.mem_cons, exists_eq_or_imp, not_or] at known
        rw [List.count_cons_of_ne noTables] at once
        rw [evalRequest?_positional positional, induction known.2 once]
        simp [expressionsAmong, optionPart_cons noSeparator, verbatimPart_cons noSeparator,
          noTables, noTables.symm]

theorem ofArguments?_eval (arguments : List String) :
    Request.ofArguments? ("eval" :: arguments) = evalRequest? false [] arguments :=
  rfl

theorem ofArguments?_eval_of_unfit {arguments : List String}
    (noHelp : ∀ argument ∈ optionPart arguments, ¬IsHelp argument) (unfit : Unfit arguments) :
    Request.ofArguments? ("eval" :: arguments) = none := by
  rw [ofArguments?_eval]
  by_cases misplaced : (∃ argument ∈ optionPart arguments, IsUnknown argument) ∨
      1 < false.toNat + (optionPart arguments).count "--tokens"
  · exact evalRequest?_eq_none noHelp misplaced
  · rw [not_or] at misplaced
    obtain ⟨known, once⟩ := misplaced
    have nothing : expressionsAmong arguments = [] := by
      rcases unfit with unknown | twice | nothing
      · exact absurd unknown known
      · exact absurd (by simpa using twice) once
      · exact nothing
    rw [evalRequest?_eq_evalCommand? known (Nat.not_lt.mp once), nothing]
    rfl

theorem ofArguments?_eval_of_fit {arguments : List String} (fit : ¬Unfit arguments) :
    Request.ofArguments? ("eval" :: arguments) =
      some (.run (.eval (decide ("--tokens" ∈ optionPart arguments))
        (expressionsAmong arguments))) := by
  rw [Unfit, not_or, not_or] at fit
  obtain ⟨known, once, something⟩ := fit
  rw [ofArguments?_eval, evalRequest?_eq_evalCommand? known (by simpa using once), Bool.false_or,
    List.reverse_nil, List.nil_append]
  exact if_neg something

section Insertion

variable {front back : List String} (noSeparator : "--" ∉ front)

include noSeparator

theorem expressionsAmong_insert :
    expressionsAmong (front ++ "--tokens" :: back) = expressionsAmong (front ++ back) := by
  have noSeparator_tokens : "--tokens" ≠ "--" := by decide
  rw [expressionsAmong, expressionsAmong, optionPart_append noSeparator,
    optionPart_append noSeparator, verbatimPart_append noSeparator,
    verbatimPart_append noSeparator, optionPart_cons noSeparator_tokens,
    verbatimPart_cons noSeparator_tokens]
  simp

/-- Asking for tables once does not change whether arguments fit. -/
theorem unfit_insert (noTables : "--tokens" ∉ optionPart (front ++ back)) :
    Unfit (front ++ "--tokens" :: back) ↔ Unfit (front ++ back) := by
  have noSeparator_tokens : "--tokens" ≠ "--" := by decide
  have never := List.count_eq_zero.mpr noTables
  rw [Unfit, Unfit, expressionsAmong_insert noSeparator]
  rw [optionPart_append noSeparator] at never ⊢
  rw [optionPart_append noSeparator, optionPart_cons noSeparator_tokens]
  refine or_congr ?unknown (or_congr ?twice Iff.rfl)
  case unknown => simp [or_and_right, exists_or, not_isUnknown_tokens]
  case twice =>
    rw [List.count_append] at never
    rw [List.count_append, List.count_append, List.count_cons_self]
    omega

end Insertion

/-! ## The table command -/

/-- The arguments that name a text for the table command. -/
def spellings (text : String) : List (List String) :=
  [["-e" ++ text], ["-e=" ++ text], ["-e", text], ["--expr=" ++ text], ["--expr", text]]

theorem tableRequest?_spelling {text : String} (nonempty : text ≠ "")
    (noHyphen : text.toList.head? ≠ some '-') (noEquals : text.toList.head? ≠ some '=')
    {form : List String} (spelled : form ∈ spellings text) (choice : TableChoice)
    (later : List String) :
    tableRequest? choice (form ++ later) = (choice.addText text).bind (tableRequest? · later) := by
  obtain ⟨first, others, split⟩ : ∃ first others, text.toList = first :: others := by
    refine List.exists_cons_of_ne_nil fun empty => nonempty ?_
    exact String.toList_injective (empty.trans String.toList_empty.symm)
  have isText : isValue text = true := by
    rw [isValue, IsPositional.ofText_eq (.inr noHyphen)]
    rfl
  have noEquals : first ≠ '=' := by
    rintro rfl
    exact noEquals (by rw [split]; rfl)
  have attached (text : List Char) : dropEquals ('=' :: text) = text := rfl
  have value : dropEquals text.toList = text.toList := by
    rw [split, dropEquals]
    rintro _ ⟨⟩
    exact noEquals rfl
  simp only [spellings, List.mem_cons, List.not_mem_nil, or_false] at spelled
  rcases spelled with rfl | rfl | rfl | rfl | rfl
  · have form : Form.ofText ("-e" ++ text).toList = .short 'e' (first :: others) := by
      rw [String.toList_append, split]
      rfl
    rw [List.singleton_append, tableRequest?.eq_def]
    simp only [form]
    rw [← split, value, String.ofList_toList]
  · have form : Form.ofText ("-e=" ++ text).toList = .short 'e' ('=' :: text.toList) := by
      rw [String.toList_append]
      rfl
    rw [List.singleton_append, tableRequest?.eq_def]
    simp only [form]
    rw [attached, String.ofList_toList]
  · change (if isValue text then _ else _) = _
    rw [if_pos isText]
    rfl
  · have form : Form.ofText ("--expr=" ++ text).toList =
        .long ['e', 'x', 'p', 'r'] (some text.toList) := by
      rw [String.toList_append]
      rfl
    rw [List.singleton_append, tableRequest?.eq_def]
    simp only [form]
    rw [String.ofList_toList]
  · change (if isValue text then _ else _) = _
    rw [if_pos isText]
    rfl

theorem tableRequest?_positional {file : String} (positional : IsPositional file)
    (choice : TableChoice) (later : List String) :
    tableRequest? choice (file :: later) =
      (choice.addFile file).bind (tableRequest? · later) := by
  rw [tableRequest?.eq_def]
  simp only [positional.ofText_eq]

theorem addFile_bind_request? (file text : String) :
    (TableChoice.addFile ⟨none, some text⟩ file).bind TableChoice.request? = none := by
  rw [TableChoice.addFile]
  split <;> rfl

theorem addFile_bind_addText_bind_request? (file text : String) :
    (TableChoice.addFile ⟨none, none⟩ file).bind
      (fun choice => (choice.addText text).bind TableChoice.request?) = none := by
  rw [TableChoice.addFile]
  split <;> rfl

section Spelling

variable {text : String} (nonempty : text ≠ "") (noHyphen : text.toList.head? ≠ some '-')
  (noEquals : text.toList.head? ≠ some '=') {form : List String} (spelled : form ∈ spellings text)

include nonempty noHyphen noEquals spelled

theorem ofArguments?_spelling :
    Request.ofArguments? ("tokens" :: form) = some (.run (.tokens (.argument text))) := by
  have read := tableRequest?_spelling nonempty noHyphen noEquals spelled ⟨none, none⟩ []
  rw [List.append_nil] at read
  exact read

theorem ofArguments?_spelling_file {file : String} (positional : IsPositional file) :
    Request.ofArguments? ("tokens" :: (form ++ [file])) = none := by
  have read := tableRequest?_spelling nonempty noHyphen noEquals spelled ⟨none, none⟩ [file]
  refine read.trans ?_
  change tableRequest? ⟨none, some text⟩ [file] = none
  rw [tableRequest?_positional positional]
  exact addFile_bind_request? file text

theorem ofArguments?_file_spelling {file : String} (positional : IsPositional file) :
    Request.ofArguments? ("tokens" :: file :: form) = none := by
  have read (choice : TableChoice) :=
    tableRequest?_spelling nonempty noHyphen noEquals spelled choice []
  simp only [List.append_nil] at read
  change tableRequest? ⟨none, none⟩ (file :: form) = none
  rw [tableRequest?_positional positional]
  simp only [read]
  exact addFile_bind_addText_bind_request? file text

theorem ofArguments?_spelling_separator (file : String) :
    Request.ofArguments? ("tokens" :: (form ++ ["--", file])) = none := by
  have read := tableRequest?_spelling nonempty noHyphen noEquals spelled ⟨none, none⟩ ["--", file]
  refine read.trans ?_
  change ((TableChoice.addFile ⟨none, some text⟩ file).bind some).bind TableChoice.request? = none
  rw [Option.bind_fun_some]
  exact addFile_bind_request? file text

end Spelling

/-- What a run evaluates does not depend on where its option for tables stands, and behind two
hyphens every argument is an expression.  An unknown option, asking for tables twice and having no
expression end a run with status 2, without any report.  A text may be named for the table command
in five ways, all with the same report, but not together with a file. -/
theorem options_stand_anywhere (surroundings : Surroundings) :
    (∀ arguments, (∀ argument ∈ optionPart arguments, ¬IsHelp argument) →
      (Unfit arguments →
        Report.ofArguments? surroundings ("eval" :: arguments) = none ∧
          exitStatus (Report.ofArguments? surroundings ("eval" :: arguments)) = 2) ∧
      (¬Unfit arguments →
        Report.ofArguments? surroundings ("eval" :: arguments) =
          some ((Command.eval (decide ("--tokens" ∈ optionPart arguments))
            (expressionsAmong arguments)).report surroundings))) ∧
    (∀ front back, (∀ argument ∈ optionPart (front ++ back), ¬IsHelp argument) →
      "--" ∉ front → "--tokens" ∉ optionPart (front ++ back) →
      (Unfit (front ++ back) →
        Report.ofArguments? surroundings ("eval" :: (front ++ "--tokens" :: back)) = none) ∧
      (¬Unfit (front ++ back) →
        Report.ofArguments? surroundings ("eval" :: (front ++ "--tokens" :: back)) =
          some ((Command.eval true (expressionsAmong (front ++ back))).report surroundings))) ∧
    (∀ before after, "--" ∉ before →
      expressionsAmong (before ++ "--" :: after) = before.filter (· ≠ "--tokens") ++ after) ∧
    ∀ text : String, text ≠ "" → text.toList.head? ≠ some '-' → text.toList.head? ≠ some '=' →
      ∀ form ∈ spellings text,
        Report.ofArguments? surroundings ("tokens" :: form) =
          some ((Command.tokens (.argument text)).report surroundings) ∧
        ∀ file : String,
          (IsPositional file →
            exitStatus (Report.ofArguments? surroundings ("tokens" :: (form ++ [file]))) = 2 ∧
            exitStatus (Report.ofArguments? surroundings ("tokens" :: file :: form)) = 2) ∧
          exitStatus
            (Report.ofArguments? surroundings ("tokens" :: (form ++ ["--", file]))) = 2 := by
  refine ⟨fun arguments noHelp => ⟨fun unfit => ?_, fun fit => ?_⟩, ?insertion, ?verbatim, ?texts⟩
  · rw [Report.ofArguments?, ofArguments?_eval_of_unfit noHelp unfit]
    exact ⟨rfl, rfl⟩
  · rw [Report.ofArguments?, ofArguments?_eval_of_fit fit]
    rfl
  case insertion =>
    intro front back noHelp noSeparator noTables
    refine ⟨fun unfit => ?_, fun fit => ?_⟩
    · have noHelp_tokens : ∀ argument ∈ optionPart (front ++ "--tokens" :: back),
          ¬IsHelp argument := by
        rw [optionPart_append noSeparator] at noHelp
        rw [optionPart_append noSeparator, optionPart_cons (by decide)]
        simp only [List.mem_append, List.mem_cons] at noHelp ⊢
        rintro argument (inFront | rfl | inBack)
        · exact noHelp argument (.inl inFront)
        · exact not_isHelp_tokens
        · exact noHelp argument (.inr inBack)
      rw [Report.ofArguments?, ofArguments?_eval_of_unfit noHelp_tokens
        ((unfit_insert noSeparator noTables).mpr unfit)]
      rfl
    · have asked : "--tokens" ∈ optionPart (front ++ "--tokens" :: back) := by
        rw [optionPart_append noSeparator, optionPart_cons (by decide)]
        simp
      rw [Report.ofArguments?, ofArguments?_eval_of_fit
        ((unfit_insert noSeparator noTables).not.mpr fit), decide_eq_true asked,
        expressionsAmong_insert noSeparator]
      rfl
  case verbatim =>
    intro before after noSeparator
    rw [expressionsAmong, optionPart_append noSeparator, verbatimPart_append noSeparator,
      optionPart_separator, verbatimPart_separator, List.append_nil]
  case texts =>
    intro text nonempty noHyphen noEquals form spelled
    refine ⟨?_, fun file => ⟨fun positional => ⟨?_, ?_⟩, ?_⟩⟩
    · rw [Report.ofArguments?, ofArguments?_spelling nonempty noHyphen noEquals spelled]
      rfl
    · rw [Report.ofArguments?,
        ofArguments?_spelling_file nonempty noHyphen noEquals spelled positional]
      rfl
    · rw [Report.ofArguments?,
        ofArguments?_file_spelling nonempty noHyphen noEquals spelled positional]
      rfl
    · rw [Report.ofArguments?, ofArguments?_spelling_separator nonempty noHyphen noEquals spelled]
      rfl

/-- Tables are asked for behind an expression and in front of one that looks like the same option,
and in front of the only expression; an option is unknown; and a text is in one argument with its
option, in front of a file. -/
theorem options_behind_expressions :
    (¬Unfit ["1", "--tokens", "--", "--tokens"] ∧
      Report.ofArguments? .empty ["eval", "1", "--tokens", "--", "--tokens"] =
        some (.ofExpressions true ["1", "--tokens"])) ∧
    (¬Unfit ["1"] ∧
      Report.ofArguments? .empty ["eval", "--tokens", "1"] = some (.ofExpressions true ["1"])) ∧
    (Unfit ["1", "-x"] ∧ exitStatus (Report.ofArguments? .empty ["eval", "1", "-x"]) = 2) ∧
    ["-e=1"] ∈ spellings "1" ∧ IsPositional "file" ∧
      exitStatus (Report.ofArguments? .empty ["tokens", "-e=1", "file"]) = 2 := by
  obtain ⟨placed, inserted, -, named⟩ := options_stand_anywhere .empty
  have tables : ¬Unfit ["1", "--tokens", "--", "--tokens"] := by decide
  have one : ¬Unfit ["1"] := by decide
  have unknown : Unfit ["1", "-x"] := by decide
  have positional : IsPositional "file" := .inr (by decide)
  have spelled : ["-e=1"] ∈ spellings "1" := by decide
  refine ⟨⟨tables, (placed _ (by decide)).2 tables⟩,
    ⟨one, (inserted [] ["1"] (by decide) (by decide) (by decide)).2 one⟩,
    ⟨unknown, ((placed _ (by decide)).1 unknown).2⟩, spelled, positional, ?_⟩
  exact ((named "1" (by decide) (by decide) (by decide) _ spelled).2 "file").1 positional |>.1

end Calculator
