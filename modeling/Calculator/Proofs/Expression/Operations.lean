import Calculator.Expression.Tree
import Calculator.Proofs.Value.Integer

/-!
# Operations of expressions

An expression of integers has a value in exact arithmetic and a list of operations that lead to it,
in the order of evaluation.  The first of them with a fault decides how an evaluation ends.
-/

namespace Calculator

/-- What a phrase stands for in exact arithmetic. -/
abbrev Phrase.Exact : Phrase → Type
  | arguments count => Vector Int count
  | _ => Int

namespace Tree

/-- The value in exact arithmetic, for trees of integers alone. -/
def exactValue {phrase : Phrase} : Tree phrase → phrase.Exact
  | integer text => (Numeral.toInt? text.toList).getD 0
  | float _ => 0
  | call function arguments => (function.operation? arguments.exactValue).elim 0 Operation.result
  | ofOperand operand => operand.exactValue
  | raise base exponent => (Operation.power base.exactValue exponent.exactValue).result
  | single _ operand => operand.exactValue
  | join _ left sign _ right =>
    (sign.operation? left.exactValue right.exactValue).elim 0 Operation.result
  | one argument => #v[argument.exactValue]
  | more earlier last => earlier.exactValue.push last.exactValue

/-- The operations of a tree in the order of evaluation, each with the index of its literal, its
name or its sign.  The tree is spelled from the token at the given index on. -/
def operations {phrase : Phrase} : Tree phrase → (index : Nat) → List (Nat × Operation)
  | integer text, index => [(index, .literal (integer text).exactValue)]
  | float _, _ => []
  | call function arguments, index =>
    arguments.operations (index + 2) ++
      (function.operation? arguments.exactValue).toList.map (index, ·)
  | ofOperand operand, index => operand.operations index
  | raise base exponent, index =>
    let sign := index + base.symbols.length
    base.operations index ++ (exponent.operations (sign + 1) ++
      [(sign, .power base.exactValue exponent.exactValue)])
  | single _ operand, index => operand.operations index
  | join _ left operator _ right, index =>
    let sign := index + left.symbols.length
    left.operations index ++ (right.operations (sign + 1) ++
      (operator.operation? left.exactValue right.exactValue).toList.map (sign, ·))
  | one argument, index => argument.operations index
  | more earlier last, index =>
    earlier.operations index ++ last.operations (index + earlier.symbols.length + 1)

/-- A tree of integers alone: its literals are integers, and its operators and functions are exact
for integers. -/
def IsWhole {phrase : Phrase} : Tree phrase → Prop
  | integer text => (Numeral.toInt? text.toList).isSome
  | float _ => False
  | call function arguments => (function = .abs ∨ function = .pow) ∧ arguments.IsWhole
  | ofOperand operand => operand.IsWhole
  | raise base exponent => base.IsWhole ∧ exponent.IsWhole
  | single _ operand => operand.IsWhole
  | join _ left sign _ right => sign ≠ .divide ∧ left.IsWhole ∧ right.IsWhole
  | one argument => argument.IsWhole
  | more earlier last => earlier.IsWhole ∧ last.IsWhole

end Tree

/-- The fault of the first operation that has one. -/
def firstFault? (operations : List (Nat × Operation)) : Option EvalError :=
  operations.findSome? fun entry => entry.2.fault?.map fun reason => ⟨.fault reason, entry.1⟩

/-- Exponents are not negative as far as no operation before them has a fault. -/
def NaturalWhereReached (operations : List (Nat × Operation)) : Prop :=
  ∀ (before after : List (Nat × Operation)) (entry : Nat × Operation),
    operations = before ++ entry :: after → (∀ earlier ∈ before, earlier.2.fault? = none) →
      entry.2.HasNaturalExponent

/-- An outcome is the first fault of some operations, or an exact result if none has a fault. -/
structure Settles {α β : Type} (Denotes : α → β → Prop) (operations : List (Nat × Operation))
    (size : β) (outcome : Except EvalError α) : Prop where
  /-- The first fault stops the evaluation. -/
  fails : ∀ error, firstFault? operations = some error → outcome = .error error
  /-- Without a fault the result is exact. -/
  succeeds : firstFault? operations = none → ∃ value, outcome = .ok value ∧ Denotes value size

theorem firstFault?_append (earlier later : List (Nat × Operation)) :
    firstFault? (earlier ++ later) = (firstFault? earlier).or (firstFault? later) :=
  List.findSome?_append

theorem firstFault?_eq_none_iff {operations : List (Nat × Operation)} :
    firstFault? operations = none ↔ ∀ entry ∈ operations, entry.2.fault? = none := by
  simp [firstFault?]

theorem firstFault?_of_split {before : List (Nat × Operation)} {entry : Nat × Operation}
    {reason : Fault} (after : List (Nat × Operation))
    (faultless : ∀ earlier ∈ before, earlier.2.fault? = none)
    (fault : entry.2.fault? = some reason) :
    firstFault? (before ++ entry :: after) = some ⟨.fault reason, entry.1⟩ := by
  rw [firstFault?_append, firstFault?_eq_none_iff.mpr faultless, Option.none_or]
  simp [firstFault?, fault]

namespace NaturalWhereReached

theorem of_forall {operations : List (Nat × Operation)}
    (natural : ∀ entry ∈ operations, entry.2.HasNaturalExponent) :
    NaturalWhereReached operations := by
  rintro before after entry rfl -
  exact natural entry (by simp)

theorem left {earlier later : List (Nat × Operation)}
    (natural : NaturalWhereReached (earlier ++ later)) : NaturalWhereReached earlier := by
  rintro before after entry rfl faultless
  exact natural before (after ++ later) entry (by simp) faultless

theorem right {earlier later : List (Nat × Operation)}
    (natural : NaturalWhereReached (earlier ++ later)) (faultless : firstFault? earlier = none) :
    NaturalWhereReached later := by
  rintro before after entry rfl before_faultless
  refine natural (earlier ++ before) after entry (by simp) fun other member => ?_
  rcases List.mem_append.mp member with first | second
  · exact firstFault?_eq_none_iff.mp faultless other first
  · exact before_faultless other second

theorem only {index : Nat} {operation : Operation}
    (natural : NaturalWhereReached [(index, operation)]) : operation.HasNaturalExponent :=
  natural [] [] (index, operation) rfl nofun

end NaturalWhereReached

namespace Settles

/-- What comes later is settled once everything before it has its exact value. -/
theorem bind {α β γ δ : Type} {FirstDenotes : α → β → Prop} {Denotes : γ → δ → Prop}
    {earlier later : List (Nat × Operation)} {firstSize : β} {size : δ}
    {first : Except EvalError α} {second : α → Except EvalError γ}
    (settles : Settles FirstDenotes earlier firstSize first)
    (next : firstFault? earlier = none → ∀ value, FirstDenotes value firstSize →
      Settles Denotes later size (second value)) :
    Settles Denotes (earlier ++ later) size (first >>= second) := by
  cases found : firstFault? earlier with
  | some error =>
      have failed : firstFault? (earlier ++ later) = some error := by
        rw [firstFault?_append, found, Option.some_or]
      rw [settles.fails error found]
      refine ⟨fun other same => ?_, fun none => ?_⟩
      · exact congrArg Except.error (Option.some.inj (failed.symm.trans same))
      · rw [failed] at none
        cases none
  | none =>
      obtain ⟨value, evaluated, denotes⟩ := settles.succeeds found
      have same : firstFault? (earlier ++ later) = firstFault? later := by
        rw [firstFault?_append, found, Option.none_or]
      rw [evaluated]
      refine ⟨fun error failed => ?_, fun faultless => ?_⟩
      · exact (next found value denotes).fails error (same.symm.trans failed)
      · exact (next found value denotes).succeeds (same.symm.trans faultless)

theorem pure {α β : Type} {Denotes : α → β → Prop} {value : α} {size : β}
    (denotes : Denotes value size) : Settles Denotes [] size (Except.ok value) :=
  ⟨nofun, fun _ => ⟨value, rfl, denotes⟩⟩

theorem of_agrees {operation : Operation} {outcome : Except Fault Value} (index : Nat)
    (agrees : operation.Agrees outcome) :
    Settles Value.Denotes [(index, operation)] operation.result
      (outcome.mapError (⟨.fault ·, index⟩)) := by
  have first : firstFault? [(index, operation)] =
      operation.fault?.map fun reason => ⟨.fault reason, index⟩ := by
    simp [firstFault?]
  unfold Operation.Agrees at agrees
  cases fault : operation.fault? with
  | some reason =>
      rw [fault] at first agrees
      rw [agrees]
      refine ⟨fun error same => ?_, fun none => ?_⟩
      · exact congrArg Except.error (Option.some.inj (first.symm.trans same))
      · rw [first] at none
        cases none
  | none =>
      rw [fault] at first agrees
      obtain ⟨value, rfl, denotes⟩ := agrees
      refine ⟨fun error same => ?_, fun _ => ⟨value, rfl, denotes⟩⟩
      rw [first] at same
      cases same

end Settles

/-- An operation is that of a literal, of a sign or of the name of a function. -/
inductive Symbol.Performs : Symbol → Operation → Prop
  | literal {text : String} {n : Int} (read : Numeral.toInt? text.toList = some n) :
    Performs (.literal .integer text) (.literal n)
  | sign {sign : Operator} {m n : Int} {operation : Operation}
    (found : sign.operation? m n = some operation) : Performs (.mark (.operator sign)) operation
  | name {function : Builtin} {arguments : Vector Int function.arity} {operation : Operation}
    (found : function.operation? arguments = some operation) :
    Performs (.literal .identifier function.name) operation

/-- The symbol of an operation stands at its index, counted from that of the first symbol. -/
def PerformedIn (symbols : List Symbol) (index : Nat) (entry : Nat × Operation) : Prop :=
  ∃ offset symbol, entry.1 = index + offset ∧ symbols[offset]? = some symbol ∧
    symbol.Performs entry.2

namespace PerformedIn

variable {left right : List Symbol} {symbol : Symbol} {index : Nat} {entry : Nat × Operation}

theorem append (performed : PerformedIn left index entry) :
    PerformedIn (left ++ right) index entry := by
  obtain ⟨offset, symbol, position, found, performs⟩ := performed
  have inside := (List.getElem?_eq_some_iff.mp found).1
  exact ⟨offset, symbol, position, by rw [List.getElem?_append_left inside, found], performs⟩

theorem behind (performed : PerformedIn right (index + left.length + 1) entry) :
    PerformedIn (left ++ symbol :: right) index entry := by
  obtain ⟨offset, other, position, found, performs⟩ := performed
  refine ⟨left.length + 1 + offset, other, by omega, ?_, performs⟩
  rw [List.append_cons, List.getElem?_append_right (by simp), ← found]
  simp

theorem between {operation : Operation} (performs : symbol.Performs operation) :
    PerformedIn (left ++ symbol :: right) index (index + left.length, operation) :=
  ⟨left.length, symbol, rfl, by simp, performs⟩

end PerformedIn

/-- The operations of an expression of integers stand at its literals, signs and names. -/
theorem Tree.performedIn_symbols {phrase : Phrase} {tree : Tree phrase} {index : Nat}
    (whole : tree.IsWhole) :
    ∀ entry ∈ tree.operations index, PerformedIn tree.symbols index entry := by
  induction tree generalizing index with
  | integer text =>
      obtain ⟨n, read⟩ := Option.isSome_iff_exists.mp whole
      intro entry member
      obtain rfl := List.mem_singleton.mp member
      rw [exactValue, read]
      exact ⟨0, _, rfl, rfl, .literal read⟩
  | float text => exact whole.elim
  | call function arguments induction =>
      rw [operations, symbols, List.forall_mem_append]
      refine ⟨fun entry member => ?_, ?_⟩
      · have inner := induction whole.2 entry member
        exact PerformedIn.append (@PerformedIn.behind [_] _ _ _ _ inner)
      · cases found : function.operation? arguments.exactValue with
        | none => simp
        | some operation => simpa using ⟨0, _, rfl, rfl, .name found⟩
  | ofOperand operand induction => exact induction whole
  | raise base exponent base_induction exponent_induction =>
      rw [operations, symbols, List.forall_mem_append, List.forall_mem_append]
      refine ⟨fun entry member => (base_induction whole.1 entry member).append,
        fun entry member => (exponent_induction whole.2 entry member).behind, ?_⟩
      rw [List.forall_mem_singleton]
      exact .between (@Symbol.Performs.sign .power _ _ _ rfl)
  | single joins operand induction => exact induction whole
  | join joins left sign bound right left_induction right_induction =>
      rw [operations, symbols, List.forall_mem_append, List.forall_mem_append]
      refine ⟨fun entry member => (left_induction whole.2.1 entry member).append,
        fun entry member => (right_induction whole.2.2 entry member).behind, ?_⟩
      cases found : sign.operation? left.exactValue right.exactValue with
      | none => simp
      | some operation =>
          rw [Option.toList_some, List.map_singleton, List.forall_mem_singleton]
          exact .between (.sign found)
  | one argument induction => exact induction whole
  | more earlier last earlier_induction last_induction =>
      rw [operations, symbols, List.forall_mem_append]
      exact ⟨fun entry member => (earlier_induction whole.1 entry member).append,
        fun entry member => (last_induction whole.2 entry member).behind⟩

end Calculator
