import Calculator.Proofs.Expression.Reading

/-!
# The grammar is unambiguous

A tree and what follows it are determined by their symbols, as soon as nothing that follows goes on
with the phrase.  Trees that grow on their left side are compared from the left, as a first operand
and the steps behind it.
-/

namespace Calculator
namespace Tree

/-- No other tree of the same phrase begins the same symbols. -/
def Unique {phrase : Phrase} (tree : Tree phrase) : Prop :=
  ∀ (other : Tree phrase) (rest otherRest : List Symbol),
    phrase.Ends rest.head? → phrase.Ends otherRest.head? →
      tree.symbols ++ rest = other.symbols ++ otherRest → tree = other ∧ rest = otherRest

/-- An operator of a level and the operand behind it. -/
@[ext]
structure Step (whole part : Level) where
  /-- The operator. -/
  sign : Operator
  /-- The operator belongs to the chain. -/
  bound : sign.level = whole
  /-- The operand behind the operator. -/
  right : Tree (.chain part)

/-- The symbols of a step. -/
def Step.symbols {whole part : Level} (step : Step whole part) : List Symbol :=
  .mark (.operator step.sign) :: step.right.symbols

/-- Joins steps to a chain, from left to right. -/
def joinAll {whole part : Level} (joins : whole.Joins part) (left : Tree (.chain whole))
    (steps : List (Step whole part)) : Tree (.chain whole) :=
  steps.foldl (fun left step => .join joins left step.sign step.bound step.right) left

/-- The chain has a first operand and steps behind it that are all unique. -/
def PartsUnique {whole part : Level} (joins : whole.Joins part) (tree : Tree (.chain whole)) :
    Prop :=
  ∃ first steps, tree = joinAll joins (.single joins first) steps ∧ first.Unique ∧
    ∀ step ∈ steps, step.right.Unique

section Chains

variable {whole part : Level} {joins : whole.Joins part}

theorem symbols_joinAll (left : Tree (.chain whole)) (steps : List (Step whole part)) :
    (joinAll joins left steps).symbols = left.symbols ++ steps.flatMap Step.symbols := by
  induction steps generalizing left with
  | nil => simp [joinAll]
  | cons step steps induction =>
      rw [joinAll, List.foldl_cons]
      refine (induction _).trans ?_
      simp [symbols, Step.symbols]

theorem joinAll_append (left : Tree (.chain whole)) (steps : List (Step whole part))
    (step : Step whole part) :
    joinAll joins left (steps ++ [step]) =
      .join joins (joinAll joins left steps) step.sign step.bound step.right := by
  simp [joinAll]

theorem exists_joinAll : {whole part : Level} → (joins : whole.Joins part) →
    (tree : Tree (.chain whole)) → ∃ first steps, tree = joinAll joins (.single joins first) steps
  | _, _, joins, .ofOperand _ | _, _, joins, .raise _ _ => nomatch joins
  | _, _, joins, .single other first => by
      cases joins <;> cases other <;> exact ⟨first, [], rfl⟩
  | _, _, joins, .join other left sign bound right => by
      obtain ⟨first, steps, left_eq⟩ := exists_joinAll joins left
      cases joins <;> cases other <;>
        exact ⟨first, steps ++ [⟨sign, bound, right⟩], by rw [joinAll_append, ← left_eq]⟩

theorem ends_part_steps (joins : whole.Joins part) (steps : List (Step whole part))
    {rest : List Symbol} (ends : (Phrase.chain whole).Ends rest.head?) :
    (Phrase.chain part).Ends (steps.flatMap Step.symbols ++ rest).head? := by
  cases steps with
  | nil => exact Phrase.ends_part joins ends
  | cons step steps => exact Phrase.ends_part_sign joins step.bound

theorem not_ends_step (step : Step whole part) (later : List Symbol) :
    ¬(Phrase.chain whole).Ends (step.symbols ++ later).head? := by
  intro ends
  refine ends step.sign rfl ?_
  rw [step.bound]
  exact Phrase.continues_level whole

/-- Steps with unique operands are determined by their symbols. -/
theorem steps_eq (joins : whole.Joins part) {steps : List (Step whole part)}
    (unique : ∀ step ∈ steps, step.right.Unique) {others : List (Step whole part)}
    {rest otherRest : List Symbol} (ends : (Phrase.chain whole).Ends rest.head?)
    (otherEnds : (Phrase.chain whole).Ends otherRest.head?)
    (same : steps.flatMap Step.symbols ++ rest = others.flatMap Step.symbols ++ otherRest) :
    steps = others ∧ rest = otherRest := by
  induction steps generalizing others with
  | nil =>
      cases others with
      | nil => exact ⟨rfl, same⟩
      | cons other others =>
          rw [List.flatMap_nil, List.nil_append, List.flatMap_cons, List.append_assoc] at same
          exact absurd (same ▸ ends) (not_ends_step other _)
  | cons step steps induction =>
      cases others with
      | nil =>
          rw [List.flatMap_nil, List.nil_append, List.flatMap_cons, List.append_assoc] at same
          exact absurd (same ▸ otherEnds) (not_ends_step step _)
      | cons other others =>
          simp only [List.flatMap_cons, List.append_assoc, Step.symbols, List.cons_append] at same
          obtain ⟨sign_eq, rest_eq⟩ := List.cons.inj same
          obtain ⟨right_eq, later_eq⟩ := unique step List.mem_cons_self other.right _ _
            (ends_part_steps joins steps ends) (ends_part_steps joins others otherEnds) rest_eq
          obtain ⟨steps_eq, rest_eq⟩ :=
            induction (fun step later => unique step (List.mem_cons_of_mem _ later)) later_eq
          have step_eq : step = other :=
            Step.ext (Kind.operator.inj (Symbol.mark.inj sign_eq)) right_eq
          exact ⟨by rw [step_eq, steps_eq], rest_eq⟩

theorem PartsUnique.unique {tree : Tree (.chain whole)} (parts : tree.PartsUnique joins) :
    tree.Unique := by
  obtain ⟨first, steps, rfl, first_unique, steps_unique⟩ := parts
  intro other rest otherRest ends otherEnds same
  obtain ⟨otherFirst, otherSteps, rfl⟩ := exists_joinAll joins other
  rw [symbols_joinAll, symbols_joinAll, List.append_assoc, List.append_assoc] at same
  obtain ⟨rfl, later_eq⟩ := first_unique otherFirst _ _ (ends_part_steps joins steps ends)
    (ends_part_steps joins otherSteps otherEnds) same
  obtain ⟨rfl, rest_eq⟩ := steps_eq joins steps_unique ends otherEnds later_eq
  exact ⟨rfl, rest_eq⟩

theorem PartsUnique.single {operand : Tree (.chain part)} (unique : operand.Unique) :
    (Tree.single joins operand).PartsUnique joins :=
  ⟨operand, [], rfl, unique, nofun⟩

theorem PartsUnique.join {left : Tree (.chain whole)} {sign : Operator} (bound : sign.level = whole)
    {right : Tree (.chain part)} (parts : left.PartsUnique joins) (unique : right.Unique) :
    (Tree.join joins left sign bound right).PartsUnique joins := by
  obtain ⟨first, steps, rfl, first_unique, steps_unique⟩ := parts
  refine ⟨first, steps ++ [⟨sign, bound, right⟩], ?_, first_unique, ?_⟩
  · rw [joinAll_append]
  intro step member
  rcases List.mem_append.mp member with earlier | last
  · exact steps_unique step earlier
  · obtain rfl := List.mem_singleton.mp last
    exact unique

end Chains

namespace Unique

theorem integer (text : String) : (Tree.integer text).Unique := by
  intro other rest otherRest _ _ same
  cases other with
  | integer => simpa [symbols] using same
  | float | call => simp [symbols] at same

theorem float (text : String) : (Tree.float text).Unique := by
  intro other rest otherRest _ _ same
  cases other with
  | float => simpa [symbols] using same
  | integer | call => simp [symbols] at same

/-- The name fixes the number of the arguments, and the parenthesis ends them. -/
theorem call {function : Builtin} {arguments : Tree (.arguments function.arity)}
    (unique : arguments.Unique) : (Tree.call function arguments).Unique := by
  intro other rest otherRest _ _ same
  cases other with
  | integer | float => simp [symbols] at same
  | call otherFunction otherArguments =>
      simp only [symbols, List.cons_append, List.append_assoc, List.nil_append] at same
      obtain ⟨name_eq, opening_eq⟩ := List.cons.inj same
      obtain ⟨-, inner_eq⟩ := List.cons.inj opening_eq
      obtain rfl := Builtin.name_injective (Symbol.literal.inj name_eq).2
      obtain ⟨rfl, closing_eq⟩ := unique otherArguments _ _ (Phrase.ends_delimiter _ .rightParen)
        (Phrase.ends_delimiter _ .rightParen) inner_eq
      exact ⟨rfl, (List.cons.inj closing_eq).2⟩

theorem ofOperand {operand : Tree .operand} (unique : operand.Unique) :
    (Tree.ofOperand operand).Unique := by
  intro other rest otherRest ends _ same
  cases other with
  | ofOperand otherOperand =>
      obtain ⟨rfl, rest_eq⟩ :=
        unique otherOperand _ _ (Phrase.ends_operand _) (Phrase.ends_operand _) same
      exact ⟨rfl, rest_eq⟩
  | raise base exponent =>
      simp only [symbols, List.append_assoc, List.cons_append] at same
      obtain ⟨-, rest_eq⟩ := unique base _ _ (Phrase.ends_operand _) (Phrase.ends_operand _) same
      exact absurd rfl (ends .power (congrArg List.head? rest_eq))
  | single joins | join joins => cases joins

theorem raise {base : Tree .operand} {exponent : Tree (.chain .power)}
    (base_unique : base.Unique) (exponent_unique : exponent.Unique) :
    (Tree.raise base exponent).Unique := by
  intro other rest otherRest ends otherEnds same
  cases other with
  | ofOperand otherOperand =>
      simp only [symbols, List.append_assoc, List.cons_append] at same
      obtain ⟨-, rest_eq⟩ :=
        base_unique otherOperand _ _ (Phrase.ends_operand _) (Phrase.ends_operand _) same
      exact absurd rfl (otherEnds .power (congrArg List.head? rest_eq.symm))
  | raise otherBase otherExponent =>
      simp only [symbols, List.append_assoc, List.cons_append] at same
      obtain ⟨rfl, later_eq⟩ :=
        base_unique otherBase _ _ (Phrase.ends_operand _) (Phrase.ends_operand _) same
      obtain ⟨rfl, rest_eq⟩ :=
        exponent_unique otherExponent _ _ ends otherEnds (List.cons.inj later_eq).2
      exact ⟨rfl, rest_eq⟩
  | single joins | join joins => cases joins

theorem one {argument : Tree (.chain .sum)} (unique : argument.Unique) :
    (Tree.one argument).Unique := by
  intro other rest otherRest ends otherEnds same
  cases other with
  | one otherArgument =>
      obtain ⟨rfl, rest_eq⟩ := unique otherArgument _ _ ends otherEnds same
      exact ⟨rfl, rest_eq⟩

theorem more {count : Nat} {earlier : Tree (.arguments (count + 1))} {last : Tree (.chain .sum)}
    (earlier_unique : earlier.Unique) (last_unique : last.Unique) :
    (Tree.more earlier last).Unique := by
  intro other rest otherRest ends otherEnds same
  cases other with
  | more otherEarlier otherLast =>
      simp only [symbols, List.append_assoc, List.cons_append] at same
      obtain ⟨rfl, later_eq⟩ := earlier_unique otherEarlier _ _ (Phrase.ends_delimiter _ .comma)
        (Phrase.ends_delimiter _ .comma) same
      obtain ⟨rfl, rest_eq⟩ := last_unique otherLast _ _ ends otherEnds (List.cons.inj later_eq).2
      exact ⟨rfl, rest_eq⟩

end Unique

/-- What the induction over trees carries: a longer chain is taken apart from the left as well. -/
def Settled : {phrase : Phrase} → Tree phrase → Prop
  | .chain whole, tree =>
    tree.Unique ∧ ∀ {part : Level} (joins : whole.Joins part), tree.PartsUnique joins
  | .operand, tree | .arguments _, tree => tree.Unique

theorem Settled.unique {phrase : Phrase} {tree : Tree phrase} (settled : tree.Settled) :
    tree.Unique := by
  cases phrase with
  | operand => exact settled
  | chain level => exact settled.1
  | arguments count => exact settled

theorem PartsUnique.settled {whole part : Level} {joins : whole.Joins part}
    {tree : Tree (.chain whole)} (parts : tree.PartsUnique joins) : tree.Settled := by
  refine ⟨parts.unique, fun other => ?_⟩
  cases joins <;> cases other <;> exact parts

theorem settled {phrase : Phrase} (tree : Tree phrase) : tree.Settled := by
  induction tree with
  | integer text => exact Unique.integer text
  | float text => exact Unique.float text
  | call function arguments induction => exact Unique.call induction
  | ofOperand operand induction => exact ⟨Unique.ofOperand induction, nofun⟩
  | raise base exponent base_induction exponent_induction =>
      exact ⟨Unique.raise base_induction exponent_induction.1, nofun⟩
  | single joins operand induction =>
      have parts : (single joins operand).PartsUnique joins := .single induction.unique
      exact parts.settled
  | join joins left sign bound right left_induction right_induction =>
      have parts : (join joins left sign bound right).PartsUnique joins :=
        .join bound (left_induction.2 joins) right_induction.unique
      exact parts.settled
  | one argument induction => exact Unique.one induction.1
  | more earlier last earlier_induction last_induction =>
      exact Unique.more earlier_induction last_induction.1

/-- At the front of a list of symbols every phrase stands for one tree at most. -/
theorem unique {phrase : Phrase} (tree : Tree phrase) : tree.Unique :=
  tree.settled.unique

end Tree
end Calculator
