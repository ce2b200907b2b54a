import Mathlib.Computability.StateTransition
import Calculator.Proofs.Expression.Reading

/-!
# Reading step by step

Readers are functions that call one another, and nothing is seen of them but their results.  Here
phrases are read by a machine: a phrase that is begun and waits for a part of itself stands on a
stack, and a counter says how many calls are open.  A step sees the top of the stack only, so that
a phrase is read in the same way wherever it is begun, and the machine ends with what the reader of
the phrase gives.
-/

namespace Calculator

/-- What is done next. -/
inductive Control
  /-- A phrase is begun. -/
  | enter (phrase : Phrase)
  /-- A phrase is over and gives its values. -/
  | give (values : List Value)
  /-- A phrase is over without values. -/
  | fail (error : EvalError)

/-- A phrase that waits for a part of itself. -/
inductive Frame
  /-- A chain waits for its first operand. -/
  | first (level : Level)
  /-- A sum or a product waits for the operand behind a sign. -/
  | right (level : Level) (left : Value) (sign : Operator) (index : Nat)
  /-- A chain of powers waits for the operand behind a sign. -/
  | exponent (base : Value) (earlier : List (Nat × Value)) (index : Nat)
  /-- Some arguments wait for the next of them. -/
  | argument (count : Nat) (earlier : List Value)
  /-- A call waits for its arguments. -/
  | call (function : Builtin) (index : Nat)

/-- A moment of reading. -/
structure Config where
  /-- The place in the token list. -/
  cursor : Cursor
  /-- The counter of open calls. -/
  depth : Nat
  /-- What is done next. -/
  control : Control
  /-- The phrases that wait, the one that waits for the next values first. -/
  frames : List Frame

/-- The operands of a level. -/
def Level.part : Level → Phrase
  | sum => .chain .product
  | product => .chain .power
  | power => .operand

theorem Level.Joins.part_eq {whole part : Level} (joins : whole.Joins part) :
    whole.part = .chain part := by
  cases joins <;> rfl

/-- Gives a value or fails. -/
def Control.ofResult : Except EvalError Value → Control
  | .ok value => give [value]
  | .error error => fail error

/-- Applies a function to the first of some values, as many as it has arguments. -/
def Builtin.callOn? (function : Builtin) (values : List Value) : Option (Except Fault Value) :=
  if enough : function.arity ≤ values.length then
    some (function.call ⟨(values.take function.arity).toArray, by simp [enough]⟩)
  else none

theorem Builtin.callOn?_toList (function : Builtin) (values : Vector Value function.arity) :
    function.callOn? values.toList = some (function.call values) := by
  obtain ⟨⟨values⟩, size⟩ := values
  have enough : function.arity ≤ values.length := Nat.le_of_eq size.symm
  have whole : values.take function.arity = values := List.take_of_length_le (Nat.le_of_eq size)
  simp [callOn?, enough, whole]

namespace Config

/-- The phrases of a configuration with others that wait below. -/
def on (config : Config) (below : List Frame) : Config :=
  { config with frames := config.frames ++ below }

/-- Goes on behind a delimiter that has to come next. -/
def expecting (mark : Delimiter) (cursor : Cursor) (depth : Nat) (behind : Cursor → Config) :
    Config :=
  match cursor.expect mark with
  | .ok after => behind after
  | .error error => ⟨cursor, depth, .fail error, []⟩

/-- Begins a call behind its name, which fails if too many calls are open. -/
def startCall (function : Builtin) (index : Nat) (cursor : Cursor) (depth : Nat) : Config :=
  expecting .leftParen cursor depth fun opened =>
    if depth < maxNesting then
      ⟨opened, depth + 1, .enter (.arguments function.arity), [.call function index]⟩
    else ⟨opened, depth, .fail ⟨.nestingTooDeep, index⟩, []⟩

/-- Begins a literal or a call. -/
def startOperand (depth : Nat) : Cursor → Config
  | ⟨index, []⟩ => ⟨⟨index, []⟩, depth, .fail ⟨.endOfTokens, index⟩, []⟩
  | ⟨index, token :: rest⟩ =>
    match token.kind with
    | .literal .integer =>
      ⟨⟨index + 1, rest⟩, depth,
        .ofResult ((integerLiteral token.text).mapError (⟨·, index⟩)), []⟩
    | .literal .float =>
      ⟨⟨index + 1, rest⟩, depth, .ofResult ((floatLiteral token.text).mapError (⟨·, index⟩)), []⟩
    | .literal .identifier =>
      match Builtin.ofName? token.text with
      | some function => startCall function index ⟨index + 1, rest⟩ depth
      | none => ⟨⟨index + 1, rest⟩, depth, .fail ⟨.unknownName token.text, index⟩, []⟩
    | _ => ⟨⟨index + 1, rest⟩, depth, .fail ⟨.unexpected .expression (some token.text), index⟩, []⟩

/-- Begins a phrase. -/
def start (cursor : Cursor) (depth : Nat) : Phrase → Config
  | .operand => startOperand depth cursor
  | .chain level => ⟨cursor, depth, .enter level.part, [.first level]⟩
  | .arguments count => ⟨cursor, depth, .enter (.chain .sum), [.argument count []]⟩

/-- Goes on behind a part of a sum or a product. -/
def behindPart (cursor : Cursor) (depth : Nat) (level : Level) (left : Value) : Config :=
  match cursor.operator? level with
  | some (sign, after) =>
    ⟨after, depth, .enter level.part, [.right level left sign cursor.index]⟩
  | none => ⟨cursor, depth, .give [left], []⟩

/-- Goes on behind an operand of a chain of powers. -/
def behindExponent (cursor : Cursor) (depth : Nat) (base : Value) (earlier : List (Nat × Value)) :
    Config :=
  match cursor.operator? .power with
  | some (_, after) => ⟨after, depth, .enter .operand, [.exponent base earlier cursor.index]⟩
  | none => ⟨cursor, depth, .ofResult (raiseAll base earlier), []⟩

/-- Goes on behind an argument, with a comma unless it is the last one. -/
def behindArgument (cursor : Cursor) (depth count : Nat) (values : List Value) : Config :=
  if values.length < count then
    expecting .comma cursor depth fun after =>
      ⟨after, depth, .enter (.chain .sum), [.argument count values]⟩
  else expecting .rightParen cursor depth fun after => ⟨after, depth, .give values, []⟩

/-- Goes on with the values that a phrase waits for.  There is no way to go on with more or fewer
values, nor to close a call that the counter does not count. -/
def resume (cursor : Cursor) : (depth : Nat) → Frame → List Value → Option Config
  | depth, .first .power, [base] => some (behindExponent cursor depth base [])
  | depth, .first level, [left] => some (behindPart cursor depth level left)
  | depth, .right level left sign index, [right] =>
    match sign.apply left right with
    | .ok value => some (behindPart cursor depth level value)
    | .error reason => some ⟨cursor, depth, .fail ⟨.fault reason, index⟩, []⟩
  | depth, .exponent base earlier index, [value] =>
    some (behindExponent cursor depth base ((index, value) :: earlier))
  | depth, .argument count earlier, [value] =>
    some (behindArgument cursor depth count (earlier ++ [value]))
  | depth + 1, .call function index, values =>
    (function.callOn? values).map fun result =>
      ⟨cursor, depth, .ofResult (result.mapError (⟨.fault ·, index⟩)), []⟩
  | _, _, _ => none

/-- One step.  A phrase that waits for a part without values has none either; the counter of open
calls is left as it is. -/
def next : Config → Option Config
  | ⟨cursor, depth, .enter phrase, frames⟩ => some ((start cursor depth phrase).on frames)
  | ⟨cursor, depth, .give values, frame :: frames⟩ =>
    (resume cursor depth frame values).map (·.on frames)
  | ⟨cursor, depth, .fail error, _ :: frames⟩ => some ⟨cursor, depth, .fail error, frames⟩
  | ⟨_, _, .give _, []⟩ | ⟨_, _, .fail _, []⟩ => none

/-- Some steps lead from one configuration to another. -/
abbrev Reaches : Config → Config → Prop :=
  StateTransition.Reaches next

/-- A phrase is about to be read, and nothing waits for it. -/
def entered (phrase : Phrase) (depth : Nat) (cursor : Cursor) : Config :=
  ⟨cursor, depth, .enter phrase, []⟩

/-- A phrase has given its values, and nothing waits for them. -/
def given (depth : Nat) (answer : List Value × Cursor) : Config :=
  ⟨answer.2, depth, .give answer.1, []⟩

@[simp]
theorem on_nil (config : Config) : config.on [] = config := by
  simp [on]

theorem on_on (config : Config) (above below : List Frame) :
    (config.on above).on below = config.on (above ++ below) := by
  simp [on]

/-- A step is the same whatever waits below. -/
theorem next_on {config following : Config} (step : config.next = some following)
    (below : List Frame) : (config.on below).next = some (following.on below) := by
  obtain ⟨cursor, depth, control, frames⟩ := config
  cases control with
  | enter phrase =>
      obtain rfl := Option.some.inj step
      rw [on_on]
      rfl
  | give values =>
      cases frames with
      | nil => cases step
      | cons frame frames =>
          obtain ⟨upper, resumed, rfl⟩ := Option.map_eq_some_iff.mp step
          rw [on_on]
          exact Option.map_eq_some_iff.mpr ⟨upper, resumed, rfl⟩
  | fail error =>
      cases frames with
      | nil => cases step
      | cons frame frames =>
          obtain rfl := Option.some.inj step
          rfl

theorem next_entered (phrase : Phrase) (depth : Nat) (cursor : Cursor) :
    (entered phrase depth cursor).next = some (start cursor depth phrase) :=
  congrArg some (on_nil _)

theorem Reaches.on {before after : Config} (reaches : before.Reaches after) (below : List Frame) :
    (before.on below).Reaches (after.on below) :=
  Relation.ReflTransGen.lift (Config.on · below) (fun _ _ step => next_on step below) _ _ reaches

theorem reaches_fail (cursor : Cursor) (depth : Nat) (error : EvalError) (frames : List Frame) :
    Reaches ⟨cursor, depth, .fail error, frames⟩ ⟨cursor, depth, .fail error, []⟩ := by
  induction frames with
  | nil => exact .refl
  | cons frame frames induction => exact .head rfl induction

/-! ## What readings lead to -/

/-- Steps lead to a configuration, or to a failure of all that is read. -/
inductive LeadsTo (before : Config) : Except EvalError Config → Prop
  | ok {after : Config} (reaches : before.Reaches after) : LeadsTo before (.ok after)
  | error {cursor : Cursor} {depth : Nat} {error : EvalError}
    (reaches : before.Reaches ⟨cursor, depth, .fail error, []⟩) : LeadsTo before (.error error)

namespace LeadsTo

variable {before after : Config} {result : Except EvalError Config}

theorem trans (reaches : before.Reaches after) (leads : after.LeadsTo result) :
    before.LeadsTo result := by
  cases leads with
  | ok later => exact .ok (reaches.trans later)
  | error later => exact .error (reaches.trans later)

theorem step (step : before.next = some after) (leads : after.LeadsTo result) :
    before.LeadsTo result :=
  leads.trans (.single step)

/-- What follows a part goes on where the part leads to, below which something may wait. -/
theorem bind {α : Type} {part : Except EvalError α} {into : α → Config}
    {rest : α → Except EvalError Config}
    (leads : before.LeadsTo (do let value ← part; return into value)) (frames : List Frame)
    (behind : ∀ value, part = .ok value → ((into value).on frames).LeadsTo (rest value)) :
    (before.on frames).LeadsTo (part >>= rest) := by
  cases part with
  | ok value =>
      cases leads with
      | ok reaches => exact (behind value rfl).trans (reaches.on frames)
  | error error =>
      cases leads with
      | error reaches => exact .error ((reaches.on frames).trans (reaches_fail _ _ _ _))

theorem fail (cursor : Cursor) (depth : Nat) (error : EvalError) :
    LeadsTo ⟨cursor, depth, .fail error, []⟩ (.error error) :=
  .error .refl

theorem ofResult (cursor : Cursor) (depth : Nat) (result : Except EvalError Value) :
    LeadsTo ⟨cursor, depth, .ofResult result, []⟩ (do
      let value ← result
      return given depth ([value], cursor)) := by
  cases result with
  | ok value => exact .ok .refl
  | error error => exact .error .refl

theorem resumed {cursor : Cursor} {depth : Nat} {frame : Frame} {values : List Value}
    (resumed : resume cursor depth frame values = some after) (leads : after.LeadsTo result) :
    ((given depth (values, cursor)).on [frame]).LeadsTo result :=
  leads.step (Option.map_eq_some_iff.mpr ⟨after, resumed, on_nil after⟩)

theorem expecting {mark : Delimiter} {cursor : Cursor} {depth : Nat} {behind : Cursor → Config}
    {rest : Cursor → Except EvalError Config}
    (leads : ∀ after, cursor.expect mark = .ok after → (behind after).LeadsTo (rest after)) :
    (Config.expecting mark cursor depth behind).LeadsTo (cursor.expect mark >>= rest) := by
  unfold Config.expecting
  cases expected : cursor.expect mark with
  | ok after => exact leads after expected
  | error error => exact .error .refl

end LeadsTo
end Config

/-! ## The machine reads as readers do -/

namespace Phrase

open Config (LeadsTo entered given)

/-- Reads some arguments and the parenthesis that closes them. -/
def readClosed (room count : Nat) (cursor : Cursor) :
    Except EvalError (Vector Value count × Cursor) := do
  let (values, after) ← (arguments count).read room cursor
  let closed ← after.expect .rightParen
  return (values, closed)

/-- The values of a phrase and the place behind it, which for arguments is that behind the closing
parenthesis.  There is always an argument. -/
def answer (room : Nat) : Phrase → Cursor → Except EvalError (List Value × Cursor)
  | operand, cursor => do
    let (value, after) ← operand.read room cursor
    return ([value], after)
  | chain level, cursor => do
    let (value, after) ← (chain level).read room cursor
    return ([value], after)
  | arguments count, cursor => do
    let (values, after) ← readClosed room (max count 1) cursor
    return (values.toList, after)

/-- The machine reads a phrase as its reader does, if so many more calls can be opened. -/
def Agrees (phrase : Phrase) (room : Nat) : Prop :=
  ∀ (depth : Nat) (cursor : Cursor), depth + room = maxNesting →
    (entered phrase depth cursor).LeadsTo (do
      let answer ← phrase.answer room cursor
      return given depth answer)

variable {room : Nat}

theorem Agrees.leadsTo_operand (agrees : operand.Agrees room) {depth : Nat}
    (counted : depth + room = maxNesting) (cursor : Cursor) :
    (entered operand depth cursor).LeadsTo (do
      let (value, after) ← operand.read room cursor
      return given depth ([value], after)) := by
  have leads := agrees depth cursor counted
  simpa only [answer, bind_assoc, pure_bind] using leads

theorem Agrees.leadsTo_chain {level : Level} (agrees : (chain level).Agrees room) {depth : Nat}
    (counted : depth + room = maxNesting) (cursor : Cursor) :
    (entered (chain level) depth cursor).LeadsTo (do
      let (value, after) ← (chain level).read room cursor
      return given depth ([value], after)) := by
  have leads := agrees depth cursor counted
  simpa only [answer, bind_assoc, pure_bind] using leads

theorem shortens_chain {level : Level} {before after : Cursor} {value : Value}
    (result : (chain level).read room before = .ok (value, after)) :
    after.rest.length < before.rest.length := by
  cases level with
  | power => exact (Level.operands room .power).powers.shortens result
  | product => exact ((Level.operands room .product).chain .product).shortens result
  | sum => exact ((Level.operands room .sum).chain .sum).shortens result

/-- Behind a part of a sum or a product the machine goes on as the loop of the reader does. -/
theorem leadsTo_behindPart {whole part : Level} (joins : whole.Joins part)
    (operands : (chain part).Agrees room) {depth : Nat} (counted : depth + room = maxNesting)
    (left : Value) (cursor : Cursor) :
    (Config.behindPart cursor depth whole left).LeadsTo (do
      let (value, after) ← (chain whole).resume room left cursor
      return given depth ([value], after)) := by
  generalize size : cursor.rest.length = length
  induction length using Nat.strongRecOn generalizing left cursor with
  | ind length induction =>
      cases found : cursor.operator? whole with
      | none =>
          rw [Config.behindPart, found, resume, Reader.extend_of_none _ left found]
          exact .ok .refl
      | some sign =>
          -- Sign and operand take tokens, so that the loop goes on with fewer of them.
          obtain ⟨sign, afterSign⟩ := sign
          have leads := operands.leadsTo_chain counted afterSign
          rw [Config.behindPart, found, resume_chain joins left found]
          simp only [bind_assoc, joins.part_eq]
          refine leads.bind [.right whole left sign cursor.index] fun read reading => ?_
          cases applied : sign.apply left read.1 with
          | error reason =>
              exact .resumed (by simp only [Config.resume, applied]) (.fail read.2 depth _)
          | ok value =>
              have signLength := Cursor.length_of_operator? found
              have operandLength := shortens_chain reading
              exact .resumed (by simp only [Config.resume, applied])
                (induction _ (by omega) value read.2 rfl)

theorem agrees_chain {whole part : Level} (joins : whole.Joins part)
    (operands : (chain part).Agrees room) : (chain whole).Agrees room := by
  intro depth cursor counted
  have leads := operands.leadsTo_chain counted cursor
  simp only [answer, bind_assoc, pure_bind]
  rw [read_chain joins, bind_assoc]
  refine .step (Config.next_entered _ _ _) ?_
  simp only [Config.start, joins.part_eq]
  refine leads.bind [.first whole] fun first _ => .resumed ?_
    (leadsTo_behindPart joins operands counted first.1 first.2)
  cases joins <;> rfl

theorem leadsTo_behindExponent (operands : operand.Agrees room) {depth : Nat}
    (counted : depth + room = maxNesting) (base : Value) (earlier : List (Nat × Value))
    (cursor : Cursor) :
    (Config.behindExponent cursor depth base earlier).LeadsTo (do
      let (others, after) ← (Level.operands room .power).exponents earlier cursor
      let power ← raiseAll base others
      return given depth ([power], after)) := by
  generalize size : cursor.rest.length = length
  induction length using Nat.strongRecOn generalizing earlier cursor with
  | ind length induction =>
      cases found : cursor.operator? .power with
      | none =>
          rw [Config.behindExponent, found, Reader.exponents_of_none _ earlier found]
          exact .ofResult cursor depth (raiseAll base earlier)
      | some sign =>
          obtain ⟨sign, afterSign⟩ := sign
          have leads := operands.leadsTo_operand counted afterSign
          rw [Config.behindExponent, found, Reader.exponents_of_some _ earlier found]
          simp only [bind_assoc]
          refine leads.bind [.exponent base earlier cursor.index] fun read reading => ?_
          have signLength := Cursor.length_of_operator? found
          have operandLength := (Level.operands room .power).shortens reading
          exact .resumed rfl (induction _ (by omega) _ read.2 rfl)

theorem agrees_power (operands : operand.Agrees room) : (chain .power).Agrees room := by
  intro depth cursor counted
  have leads := operands.leadsTo_operand counted cursor
  simp only [answer, read, Reader.powers, bind_assoc, pure_bind]
  refine .step (Config.next_entered _ _ _) ?_
  exact leads.bind [.first .power] fun first _ => .resumed rfl
    (leadsTo_behindExponent operands counted first.1 [] first.2)

theorem toList_pop_append_back {count : Nat} (values : Vector Value (count + 1)) :
    values.pop.toList ++ [values.back] = values.toList := by
  rw [← Vector.toList_push, Vector.push_pop_back]

theorem leadsTo_argument (sums : (chain .sum).Agrees room) {depth : Nat}
    (counted : depth + room = maxNesting) (cursor : Cursor) {total count : Nat}
    (among : count < max total 1) :
    Config.LeadsTo ⟨cursor, depth, .enter (.chain .sum), [.argument total []]⟩ (do
      let (values, after) ← (arguments (count + 1)).read room cursor
      return ⟨after, depth, .give [values.back], [.argument total values.pop.toList]⟩) := by
  induction count with
  | zero =>
      have leads := sums.leadsTo_chain counted cursor
      rw [read_arguments_one]
      simp only [bind_assoc, pure_bind]
      exact leads.bind [.argument total []] fun _ _ => .ok .refl
  | succ count induction =>
      have earlier := induction (by omega)
      rw [read_arguments_more]
      simp only [bind_assoc, pure_bind]
      refine earlier.bind [] fun ⟨values, afterValues⟩ _ => .resumed rfl ?_
      rw [toList_pop_append_back, Config.behindArgument, if_pos (by simp; omega)]
      refine .expecting fun afterComma _ => ?_
      have leads := sums.leadsTo_chain counted afterComma
      refine leads.bind [.argument total values.toList] fun ⟨last, after⟩ _ => ?_
      have back_eq : (values.push last).back = last := by simp [Vector.back]
      rw [back_eq, Vector.pop_push]
      exact .ok .refl

theorem agrees_arguments (sums : (chain .sum).Agrees room) (count : Nat) :
    (arguments count).Agrees room := by
  intro depth cursor counted
  obtain ⟨earlier, count_eq⟩ : ∃ earlier, max count 1 = earlier + 1 := ⟨max count 1 - 1, by omega⟩
  have among : earlier < max count 1 := by omega
  have leads := leadsTo_argument sums counted cursor among
  simp only [answer]
  rw [count_eq]
  simp only [readClosed, bind_assoc, pure_bind]
  refine .step (Config.next_entered _ _ _) ?_
  refine leads.bind [] fun ⟨values, after⟩ _ => .resumed rfl ?_
  rw [toList_pop_append_back, Config.behindArgument, if_neg (by simp; omega)]
  exact .expecting fun closed _ => .ok .refl

theorem answer_arguments {count : Nat} (positive : 0 < count) (cursor : Cursor) :
    (arguments count).answer room cursor = (do
      let (values, after) ← readClosed room count cursor
      return (values.toList, after)) := by
  have count_eq : max count 1 = count := by omega
  simp only [answer]
  rw [count_eq]

theorem readCall_within_succ (function : Builtin) (index : Nat) (cursor : Cursor) :
    readCall (Reader.within (room + 1)) function index cursor = (do
      let opened ← cursor.expect .leftParen
      let (values, closed) ← readClosed room function.arity opened
      let value ← (function.call values).mapError (⟨.fault ·, index⟩)
      return (value, closed)) := by
  simp only [readCall, Reader.within, readClosed, bind_assoc, pure_bind]
  rfl

theorem leadsTo_startCall
    (inside : ∀ deeper, room = deeper + 1 → ∀ count, (arguments count).Agrees deeper) {depth : Nat}
    (counted : depth + room = maxNesting) (function : Builtin) (index : Nat) (cursor : Cursor) :
    (Config.startCall function index cursor depth).LeadsTo (do
      let (value, after) ← readCall (Reader.within room) function index cursor
      return given depth ([value], after)) := by
  cases room with
  | zero =>
      simp only [readCall, Reader.within, bind_assoc]
      refine .expecting fun opened _ => ?_
      rw [if_neg (by omega)]
      exact .fail opened depth _
  | succ room =>
      rw [readCall_within_succ]
      simp only [bind_assoc, pure_bind]
      refine .expecting fun opened _ => ?_
      rw [if_pos (by omega)]
      have leads := inside room rfl function.arity (depth + 1) opened (by omega)
      rw [answer_arguments (by cases function <;> decide)] at leads
      simp only [bind_assoc, pure_bind] at leads
      exact leads.bind [.call function index] fun read _ =>
        .resumed (by simp only [Config.resume, Builtin.callOn?_toList, Option.map_some])
          (.ofResult read.2 depth _)

theorem agrees_operand
    (inside : ∀ deeper, room = deeper + 1 → ∀ count, (arguments count).Agrees deeper) :
    operand.Agrees room := by
  intro depth cursor counted
  simp only [answer, read, bind_assoc, pure_bind]
  refine .step (Config.next_entered _ _ _) ?_
  obtain ⟨index, _ | ⟨token, rest⟩⟩ := cursor
  · exact .fail ⟨index, []⟩ depth _
  · simp only [Config.start, Config.startOperand, readOperand]
    cases token.kind with
    | literal form =>
        cases form with
        | integer | float =>
            simp only [bind_assoc, pure_bind]
            exact .ofResult ⟨index + 1, rest⟩ depth _
        | identifier =>
            cases Builtin.ofName? token.text with
            | some function =>
                exact leadsTo_startCall inside counted function index ⟨index + 1, rest⟩
            | none => exact .fail ⟨index + 1, rest⟩ depth _
    | keyword | operator | comparison | punctuation | special => exact .fail _ depth _

theorem agrees_sum (operands : operand.Agrees room) : (chain .sum).Agrees room :=
  agrees_chain .sum (agrees_chain .product (agrees_power operands))

/-- Whatever its tokens, the machine reads a phrase as its reader does. -/
theorem agrees (phrase : Phrase) (room : Nat) : phrase.Agrees room := by
  -- A call reads its arguments with room for one call less.
  have operands : operand.Agrees room := by
    induction room with
    | zero => exact agrees_operand nofun
    | succ room induction =>
        refine agrees_operand fun deeper same count => ?_
        obtain rfl := Nat.succ.inj same
        exact agrees_arguments (agrees_sum induction) count
  cases phrase with
  | operand => exact operands
  | chain level =>
      cases level with
      | power => exact agrees_power operands
      | product => exact agrees_chain .product (agrees_power operands)
      | sum => exact agrees_sum operands
  | arguments count => exact agrees_arguments (agrees_sum operands) count

end Phrase
end Calculator
