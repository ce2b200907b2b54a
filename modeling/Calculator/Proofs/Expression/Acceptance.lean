import Calculator.Proofs.Expression.Outcome

/-!
# What evaluation accepts

Evaluation has a value exactly if the tokens begin with an expression that has this value.  The
expression and the tokens behind it are then the only ones.
-/

namespace Calculator
namespace Tree

/-- All literals of a tree can be read. -/
def Readable {phrase : Phrase} : Tree phrase → Prop
  | integer text => ∃ value, integerLiteral text = .ok value
  | float text => ∃ value, floatLiteral text = .ok value
  | call _ arguments => arguments.Readable
  | ofOperand operand => operand.Readable
  | raise base exponent => base.Readable ∧ exponent.Readable
  | single _ operand => operand.Readable
  | join _ left _ _ right => left.Readable ∧ right.Readable
  | one argument => argument.Readable
  | more earlier last => earlier.Readable ∧ last.Readable

/-- A tree with a value has readable literals, and there was room for its calls. -/
theorem readable_and_depth_le {phrase : Phrase} {tree : Tree phrase} {room index : Nat}
    {value : phrase.Meaning} (evaluated : tree.eval room index = .ok value) :
    tree.Readable ∧ tree.depth ≤ room := by
  induction tree generalizing room index with
  | integer text => exact ⟨⟨value, mapError_eq_ok_iff.mp evaluated⟩, Nat.zero_le _⟩
  | float text => exact ⟨⟨value, mapError_eq_ok_iff.mp evaluated⟩, Nat.zero_le _⟩
  | call function arguments induction =>
      cases room with
      | zero => cases evaluated
      | succ room =>
          obtain ⟨values, inner, _⟩ := bind_eq_ok_iff.mp evaluated
          obtain ⟨readable, depth_le⟩ := induction inner
          exact ⟨readable, Nat.succ_le_succ depth_le⟩
  | ofOperand operand induction => exact induction evaluated
  | raise base exponent base_induction exponent_induction =>
      obtain ⟨left, base_evaluated, later⟩ := bind_eq_ok_iff.mp evaluated
      obtain ⟨right, exponent_evaluated, _⟩ := bind_eq_ok_iff.mp later
      have base_sound := base_induction base_evaluated
      have exponent_sound := exponent_induction exponent_evaluated
      exact ⟨⟨base_sound.1, exponent_sound.1⟩, Nat.max_le.mpr ⟨base_sound.2, exponent_sound.2⟩⟩
  | single joins operand induction => exact induction evaluated
  | join joins left sign bound right left_induction right_induction =>
      obtain ⟨first, left_evaluated, later⟩ := bind_eq_ok_iff.mp evaluated
      obtain ⟨second, right_evaluated, _⟩ := bind_eq_ok_iff.mp later
      have left_sound := left_induction left_evaluated
      have right_sound := right_induction right_evaluated
      exact ⟨⟨left_sound.1, right_sound.1⟩, Nat.max_le.mpr ⟨left_sound.2, right_sound.2⟩⟩
  | one argument induction =>
      obtain ⟨_, argument_evaluated, _⟩ := bind_eq_ok_iff.mp evaluated
      exact induction argument_evaluated
  | more earlier last earlier_induction last_induction =>
      obtain ⟨_, earlier_evaluated, later⟩ := bind_eq_ok_iff.mp evaluated
      obtain ⟨_, last_evaluated, _⟩ := bind_eq_ok_iff.mp later
      have earlier_sound := earlier_induction earlier_evaluated
      have last_sound := last_induction last_evaluated
      exact ⟨⟨earlier_sound.1, last_sound.1⟩, Nat.max_le.mpr ⟨earlier_sound.2, last_sound.2⟩⟩

/-- Tokens begin with the expression of a tree, and what follows it is a tail without an operator
in front. -/
def Begins (tree : Tree (.chain .sum)) (tokens tail : List Token) : Prop :=
  ∃ front, tokens = front ++ tail ∧ front.map Token.symbol = tree.symbols ∧
    ∀ token ∈ tail.head?, ∀ sign, token.kind ≠ .operator sign

/-- Tokens begin with one expression at most. -/
theorem Begins.unique {tree other : Tree (.chain .sum)} {tokens tail otherTail : List Token}
    (begins : tree.Begins tokens tail) (otherBegins : other.Begins tokens otherTail) :
    tree = other ∧ tail = otherTail := by
  obtain ⟨front, rfl, spelled, ended⟩ := begins
  obtain ⟨otherFront, split, otherSpelled, otherEnded⟩ := otherBegins
  have symbols_eq := congrArg (List.map Token.symbol) split
  rw [List.map_append, List.map_append, spelled, otherSpelled] at symbols_eq
  have ends := Phrase.ends_of_no_operator (.chain .sum) ended
  have otherEnds := Phrase.ends_of_no_operator (.chain .sum) otherEnded
  rw [← List.head?_map] at ends otherEnds
  obtain ⟨rfl, -⟩ := tree.unique other _ _ ends otherEnds symbols_eq
  have lengths : front.length = otherFront.length := by
    have sizes := congrArg List.length (spelled.trans otherSpelled.symm)
    rwa [List.length_map, List.length_map] at sizes
  exact ⟨rfl, (List.append_inj split lengths).2⟩

theorem Begins.evaluate_eq {tree : Tree (.chain .sum)} {tokens tail : List Token}
    (begins : tree.Begins tokens tail) : evaluate tokens = tree.eval maxNesting 0 := by
  obtain ⟨front, rfl, spelled, ended⟩ := begins
  rw [evaluate_eq_read,
    tree.read_of_ends maxNesting 0 spelled (Phrase.ends_of_no_operator _ ended)]
  cases tree.eval maxNesting 0 <;> rfl

theorem Begins.getElem?_symbol {tree : Tree (.chain .sum)} {tokens tail : List Token}
    (begins : tree.Begins tokens tail) {index : Nat} {symbol : Symbol}
    (found : tree.symbols[index]? = some symbol) :
    ∃ token, tokens[index]? = some token ∧ token.symbol = symbol := by
  obtain ⟨front, rfl, spelled, _⟩ := begins
  rw [← spelled, List.getElem?_map, Option.map_eq_some_iff] at found
  obtain ⟨token, standing, same⟩ := found
  have inside := (List.getElem?_eq_some_iff.mp standing).1
  exact ⟨token, by rw [List.getElem?_append_left inside, standing], same⟩

end Tree

theorem exists_begins_of_evaluate {tokens : List Token} {value : Value}
    (result : evaluate tokens = .ok value) :
    ∃ (tree : Tree (.chain .sum)) (tail : List Token), tree.Begins tokens tail := by
  rw [evaluate_eq_read] at result
  cases Phrase.explained_sum maxNesting 0 tokens with
  | @failure front rest error split failure =>
      rw [split, failure.read rfl] at result
      cases result
  | @value tree front rest found split yields ends =>
      exact ⟨tree, rest, front, split, yields.spelled, Phrase.no_operator_of_ends ends⟩

/-- Evaluation has a value exactly if the tokens begin with an expression of that value, with calls
nested no deeper than they may be; no other expression begins them, and no other tail is left. -/
theorem evaluate_eq_ok_iff_unique_tree (tokens : List Token) (value : Value) :
    evaluate tokens = .ok value ↔
      ∃ (tree : Tree (.chain .sum)) (tail : List Token),
        tree.Begins tokens tail ∧ tree.depth ≤ maxNesting ∧
        tree.eval maxNesting 0 = .ok value ∧
        ∀ (other : Tree (.chain .sum)) (otherTail : List Token),
          other.Begins tokens otherTail → other = tree ∧ otherTail = tail := by
  constructor
  · intro result
    rw [evaluate_eq_read] at result
    cases Phrase.explained_sum maxNesting 0 tokens with
    | @failure front rest error split failure =>
        rw [split, failure.read rfl] at result
        cases result
    | @value tree front rest found split yields ends =>
        rw [split, yields.read rest (Phrase.ends_last ends),
          Phrase.resume_of_ends (.chain .sum) _ _ found ends] at result
        obtain rfl := Except.ok.inj result
        have begins : tree.Begins tokens rest :=
          ⟨front, split, yields.spelled, Phrase.no_operator_of_ends ends⟩
        exact ⟨tree, rest, begins, (Tree.readable_and_depth_le yields.evaluated).2,
          yields.evaluated, fun other otherTail otherBegins => otherBegins.unique begins⟩
  · rintro ⟨tree, tail, ⟨front, rfl, spelled, ended⟩, _, evaluated, _⟩
    rw [evaluate_eq_read,
      tree.read_of_ends maxNesting 0 spelled (Phrase.ends_of_no_operator _ ended), evaluated]
    rfl

end Calculator
