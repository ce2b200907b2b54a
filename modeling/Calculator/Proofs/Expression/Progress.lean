import Calculator.Proofs.Expression.Machine
import Calculator.Proofs.Expression.Nesting

/-!
# Progress and nesting

The counter of open calls is kept by steps that know nothing of one another: opening a call counts
up, closing it counts down, and a failure leaves the counter where it is.  What holds at every
moment of reading is found from the stack: the counter is the number of calls that wait there, and
each phrase on the stack gives as many values as the one below waits for.  Together with the result
of the reader this says how reading a phrase ends, whatever the tokens are.
-/

namespace Calculator

open Config (entered given)

/-- The tokens behind a cursor are those of a list from its index on. -/
structure Cursor.StandsIn (cursor : Cursor) (tokens : List Token) : Prop where
  index_le : cursor.index ≤ tokens.length
  rest_eq : cursor.rest = tokens.drop cursor.index

namespace Cursor.StandsIn

variable {tokens : List Token} {before after : Cursor}

theorem index_add_length (standsIn : before.StandsIn tokens) :
    before.index + before.rest.length = tokens.length := by
  rw [standsIn.rest_eq, List.length_drop]
  have := standsIn.index_le
  omega

theorem succ {index : Nat} {token : Token} {rest : List Token}
    (standsIn : StandsIn ⟨index, token :: rest⟩ tokens) : StandsIn ⟨index + 1, rest⟩ tokens := by
  have length : index + (rest.length + 1) = tokens.length := standsIn.index_add_length
  have index_le : index + 1 ≤ tokens.length := by omega
  have tail := congrArg List.tail standsIn.rest_eq
  rw [List.tail_drop] at tail
  exact ⟨index_le, tail⟩

theorem operator? (standsIn : before.StandsIn tokens) {level : Level} {sign : Operator}
    (found : before.operator? level = some (sign, after)) : after.StandsIn tokens := by
  revert found
  fun_cases Cursor.operator? level before with
  | case1 | case3 | case4 => simp
  | case2 =>
      intro found
      obtain ⟨-, rfl⟩ := Prod.mk.inj (Option.some.inj found)
      exact standsIn.succ

theorem expect (standsIn : before.StandsIn tokens) {mark : Delimiter}
    (found : before.expect mark = .ok after) : after.StandsIn tokens := by
  revert found
  fun_cases Cursor.expect mark before with
  | case1 | case3 => simp
  | case2 =>
      intro found
      obtain rfl := Except.ok.inj found
      exact standsIn.succ

theorem index_lt (beforeIn : before.StandsIn tokens) (afterIn : after.StandsIn tokens)
    (shorter : after.rest.length < before.rest.length) : before.index < after.index := by
  have beforeLength := beforeIn.index_add_length
  have afterLength := afterIn.index_add_length
  omega

end Cursor.StandsIn

/-- The number of values that a phrase gives.  Arguments are at least one. -/
def Phrase.count : Phrase → Nat
  | arguments count => max count 1
  | operand | chain _ => 1

namespace Frame

/-- Calls that wait for their arguments are open. -/
def isCall : Frame → Bool
  | call _ _ => true
  | _ => false

/-- The number of values that a phrase waits for. -/
def awaits : Frame → Nat
  | call function _ => function.arity
  | _ => 1

/-- The number of values that a phrase gives when it is over. -/
def gives : Frame → Nat
  | argument count _ => max count 1
  | _ => 1

/-- Only those arguments wait of which one is missing. -/
def IsReady : Frame → Prop
  | argument count earlier => earlier.length < max count 1
  | _ => True

end Frame

/-- The number of open calls on a stack. -/
def openCalls (frames : List Frame) : Nat :=
  frames.countP Frame.isCall

theorem openCalls_append (above below : List Frame) :
    openCalls (above ++ below) = openCalls above + openCalls below :=
  List.countP_append

theorem openCalls_cons (frame : Frame) (below : List Frame) :
    openCalls (frame :: below) = openCalls [frame] + openCalls below :=
  openCalls_append [frame] below

/-- Each phrase on a stack gives what the one below waits for: with so many values for the first,
the last gives so many. -/
inductive Feeds : Nat → List Frame → Nat → Prop
  | nil (count : Nat) : Feeds count [] count
  | cons {frame : Frame} {frames : List Frame} {count answer : Nat} (ready : frame.IsReady)
    (awaited : frame.awaits = count) (below : Feeds frame.gives frames answer) :
    Feeds count (frame :: frames) answer

theorem Feeds.eq_of_nil {given answer : Nat} (feeds : Feeds given [] answer) : given = answer := by
  cases feeds
  rfl

theorem Feeds.awaits_eq {frame : Frame} {below : List Frame} {given answer : Nat}
    (feeds : Feeds given (frame :: below) answer) : frame.awaits = given := by
  cases feeds
  assumption

theorem Feeds.append {given middle answer : Nat} {above below : List Frame}
    (feeds : Feeds given above middle) (rest : Feeds middle below answer) :
    Feeds given (above ++ below) answer := by
  induction feeds with
  | nil => exact rest
  | cons ready awaited _ induction => exact .cons ready awaited (induction rest)

/-- The number of values that are expected of a phrase, or given, unless it fails. -/
def Control.count? : Control → Option Nat
  | enter phrase => some phrase.count
  | give values => some values.length
  | fail _ => none

/-- What holds at every moment of reading. -/
structure Config.Sound (tokens : List Token) (outside answer : Nat) (config : Config) : Prop where
  /-- The cursor stands in the token list. -/
  standsIn : config.cursor.StandsIn tokens
  /-- The counter keeps to the limit. -/
  depth_le : config.depth ≤ maxNesting
  /-- The counter counts the calls outside and those on the stack. -/
  counted : outside + openCalls config.frames ≤ config.depth
  /-- Unless all that waits fails, it counts no others, and what is given is what is waited for. -/
  feeds : ∀ count ∈ config.control.count?,
    config.depth = outside + openCalls config.frames ∧ Feeds count config.frames answer

namespace Config

variable {tokens : List Token} {cursor : Cursor} {depth : Nat}

/-! ## One step -/

section Parts

variable (standsIn : cursor.StandsIn tokens) (shallow : depth ≤ maxNesting)

include standsIn shallow

theorem sound_fail (error : EvalError) (count : Nat) :
    Sound tokens depth count ⟨cursor, depth, .fail error, []⟩ :=
  ⟨standsIn, shallow, Nat.le_refl depth, nofun⟩

theorem sound_give (values : List Value) :
    Sound tokens depth values.length ⟨cursor, depth, .give values, []⟩ := by
  refine ⟨standsIn, shallow, Nat.le_refl depth, fun count given => ?_⟩
  obtain rfl := Option.some.inj given
  exact ⟨rfl, .nil _⟩

theorem sound_ofResult (result : Except EvalError Value) :
    Sound tokens depth 1 ⟨cursor, depth, .ofResult result, []⟩ := by
  cases result with
  | ok value => exact sound_give standsIn shallow [value]
  | error error => exact sound_fail standsIn shallow error 1

theorem sound_enter (phrase : Phrase) (frame : Frame) (noCall : frame.isCall = false)
    (ready : frame.IsReady) (awaited : frame.awaits = phrase.count) :
    Sound tokens depth frame.gives ⟨cursor, depth, .enter phrase, [frame]⟩ := by
  have none_open : openCalls [frame] = 0 := by simp [openCalls, noCall]
  refine ⟨standsIn, shallow, by simp [none_open], fun count expected => ?_⟩
  obtain rfl := Option.some.inj expected
  exact ⟨by simp [none_open], .cons ready awaited (.nil _)⟩

theorem sound_expecting {mark : Delimiter} {behind : Cursor → Config} {count : Nat}
    (sound : ∀ after : Cursor, after.StandsIn tokens → Sound tokens depth count (behind after)) :
    Sound tokens depth count (expecting mark cursor depth behind) := by
  unfold expecting
  cases expected : cursor.expect mark with
  | ok after => exact sound after (standsIn.expect expected)
  | error error => exact sound_fail standsIn shallow error count

theorem sound_startCall (function : Builtin) (index : Nat) :
    Sound tokens depth 1 (startCall function index cursor depth) := by
  refine sound_expecting standsIn shallow fun opened openedIn => ?_
  split
  · rename_i room
    have one_open : openCalls [.call function index] = 1 := rfl
    refine ⟨openedIn, room, Nat.le_of_eq (by rw [one_open]), fun count expected => ?_⟩
    obtain rfl := Option.some.inj expected
    refine ⟨by rw [one_open], .cons trivial ?_ (.nil 1)⟩
    cases function <;> rfl
  · exact sound_fail openedIn shallow _ 1

theorem sound_start (phrase : Phrase) :
    Sound tokens depth phrase.count (start cursor depth phrase) := by
  cases phrase with
  | operand =>
      obtain ⟨index, _ | ⟨token, rest⟩⟩ := cursor
      · exact sound_fail standsIn shallow _ 1
      · have behind := standsIn.succ
        simp only [start, startOperand]
        split
        · exact sound_ofResult behind shallow _
        · exact sound_ofResult behind shallow _
        · split
          · exact sound_startCall behind shallow _ index
          · exact sound_fail behind shallow _ 1
        · exact sound_fail behind shallow _ 1
  | chain level =>
      refine sound_enter standsIn shallow level.part (.first level) rfl trivial ?_
      cases level <;> rfl
  | arguments count =>
      have missing : 0 < max count 1 := by omega
      exact sound_enter standsIn shallow (.chain .sum) (.argument count []) rfl missing rfl

theorem sound_behindPart (level : Level) (left : Value) :
    Sound tokens depth 1 (behindPart cursor depth level left) := by
  unfold behindPart
  split
  · rename_i sign after found
    refine sound_enter (standsIn.operator? found) shallow level.part
      (.right level left sign cursor.index) rfl trivial ?_
    cases level <;> rfl
  · exact sound_give standsIn shallow [left]

theorem sound_behindExponent (base : Value) (earlier : List (Nat × Value)) :
    Sound tokens depth 1 (behindExponent cursor depth base earlier) := by
  unfold behindExponent
  split
  · rename_i sign after found
    exact sound_enter (standsIn.operator? found) shallow .operand
      (.exponent base earlier cursor.index) rfl trivial rfl
  · exact sound_ofResult standsIn shallow _

theorem sound_behindArgument {count : Nat} {values : List Value} (some_read : 0 < values.length)
    (atMost : values.length ≤ max count 1) :
    Sound tokens depth (max count 1) (behindArgument cursor depth count values) := by
  unfold behindArgument
  split
  · refine sound_expecting standsIn shallow fun after afterIn => ?_
    have missing : values.length < max count 1 := by omega
    exact sound_enter afterIn shallow (.chain .sum) (.argument count values) rfl missing rfl
  · refine sound_expecting standsIn shallow fun after afterIn => ?_
    have all_read : max count 1 = values.length := by omega
    rw [all_read]
    exact sound_give afterIn shallow values

end Parts

/-- With the values that it waits for a phrase goes on. -/
theorem sound_resume (standsIn : cursor.StandsIn tokens) (shallow : depth ≤ maxNesting)
    {frame : Frame} {values : List Value} {outside : Nat} (ready : frame.IsReady)
    (awaited : frame.awaits = values.length) (counted : depth = outside + openCalls [frame]) :
    ∃ after, resume cursor depth frame values = some after ∧
      Sound tokens outside frame.gives after := by
  cases frame with
  | first level =>
      obtain rfl : depth = outside := counted
      obtain ⟨value, rfl⟩ := List.length_eq_one_iff.mp awaited.symm
      cases level with
      | power => exact ⟨_, rfl, sound_behindExponent standsIn shallow value []⟩
      | sum | product => exact ⟨_, rfl, sound_behindPart standsIn shallow _ value⟩
  | right level left sign index =>
      obtain rfl : depth = outside := counted
      obtain ⟨value, rfl⟩ := List.length_eq_one_iff.mp awaited.symm
      simp only [resume]
      split
      · exact ⟨_, rfl, sound_behindPart standsIn shallow level _⟩
      · exact ⟨_, rfl, sound_fail standsIn shallow _ 1⟩
  | exponent base earlier index =>
      obtain rfl : depth = outside := counted
      obtain ⟨value, rfl⟩ := List.length_eq_one_iff.mp awaited.symm
      exact ⟨_, rfl, sound_behindExponent standsIn shallow base ((index, value) :: earlier)⟩
  | argument count earlier =>
      obtain rfl : depth = outside := counted
      obtain ⟨value, rfl⟩ := List.length_eq_one_iff.mp awaited.symm
      have missing : earlier.length < max count 1 := ready
      have read : (earlier ++ [value]).length = earlier.length + 1 := List.length_append
      exact ⟨_, rfl, sound_behindArgument standsIn shallow (by omega) (by omega)⟩
  | call function index =>
      -- The counter is not zero since it counts this call.
      obtain rfl : depth = outside + 1 := counted
      have enough : function.arity ≤ values.length := Nat.le_of_eq awaited
      simp only [resume, Builtin.callOn?, dif_pos enough]
      exact ⟨_, rfl, sound_ofResult standsIn (Nat.le_of_succ_le shallow) _⟩

variable {outside answer : Nat} {config after : Config}

theorem Sound.on {middle : Nat} {below : List Frame}
    (sound : config.Sound tokens (outside + openCalls below) middle)
    (feeds : Feeds middle below answer) : (config.on below).Sound tokens outside answer := by
  have calls := openCalls_append config.frames below
  have counted := sound.counted
  refine ⟨sound.standsIn, sound.depth_le, ?_, fun count expected => ?_⟩
  · change outside + openCalls (config.frames ++ below) ≤ config.depth
    omega
  · obtain ⟨all, above⟩ := sound.feeds count expected
    refine ⟨?_, above.append feeds⟩
    change config.depth = outside + openCalls (config.frames ++ below)
    omega

/-- What holds at every moment holds one step later. -/
theorem Sound.next (sound : config.Sound tokens outside answer)
    (step : config.next = some after) : after.Sound tokens outside answer := by
  obtain ⟨cursor, depth, control, frames⟩ := config
  obtain ⟨standsIn, shallow, counted, feeds⟩ := sound
  dsimp only at standsIn shallow counted feeds
  cases control with
  | enter phrase =>
      obtain rfl := Option.some.inj step
      obtain ⟨all, rest⟩ := feeds phrase.count rfl
      have started := sound_start standsIn shallow phrase
      exact Sound.on (all ▸ started) rest
  | give values =>
      cases frames with
      | nil => cases step
      | cons frame below =>
          have calls := openCalls_cons frame below
          obtain ⟨all, _ | ⟨ready, awaited, rest⟩⟩ := feeds values.length rfl
          -- For the step of the frame on top, the calls below it are outside.
          have counted : depth = outside + openCalls below + openCalls [frame] := by omega
          obtain ⟨upper, resumed, sound⟩ := sound_resume standsIn shallow ready awaited counted
          obtain ⟨_, same, rfl⟩ := Option.map_eq_some_iff.mp step
          obtain rfl : upper = _ := Option.some.inj (resumed.symm.trans same)
          exact sound.on rest
  | fail error =>
      cases frames with
      | nil => cases step
      | cons frame below =>
          obtain rfl := Option.some.inj step
          have calls := openCalls_cons frame below
          have fewer : outside + openCalls below ≤ depth := by omega
          exact ⟨standsIn, shallow, fewer, nofun⟩

/-- What holds at the beginning holds at every moment. -/
theorem Sound.reaches (sound : config.Sound tokens outside answer)
    (reaches : config.Reaches after) : after.Sound tokens outside answer := by
  induction reaches with
  | refl => exact sound
  | tail _ step induction => exact induction.next step

theorem sound_entered (standsIn : cursor.StandsIn tokens) (shallow : depth ≤ maxNesting)
    (phrase : Phrase) : Sound tokens depth phrase.count (entered phrase depth cursor) := by
  refine ⟨standsIn, shallow, Nat.le_refl depth, fun count expected => ?_⟩
  obtain rfl := Option.some.inj expected
  exact ⟨rfl, .nil _⟩

theorem Reaches.reaches_of_mem_eval {last : Config} (reaches : config.Reaches after)
    (ends : last ∈ StateTransition.eval next config) : after.Reaches last :=
  (StateTransition.mem_eval.mp (StateTransition.reaches_eval reaches ▸ ends)).1

end Config

namespace Phrase

variable {room : Nat}

theorem length_of_answer {phrase : Phrase} {before : Cursor} {read : List Value × Cursor}
    (answered : phrase.answer room before = .ok read) :
    read.2.rest.length < before.rest.length := by
  cases phrase with
  | operand =>
      obtain ⟨found, reading, returned⟩ := bind_eq_ok_iff.mp answered
      cases returned
      exact (Reader.operand (Reader.within room)).shortens reading
  | chain level =>
      obtain ⟨found, reading, returned⟩ := bind_eq_ok_iff.mp answered
      cases returned
      exact shortens_chain reading
  | arguments count =>
      obtain ⟨found, reading, returned⟩ := bind_eq_ok_iff.mp answered
      cases returned
      obtain ⟨values, valuesRead, afterValues⟩ := bind_eq_ok_iff.mp reading
      obtain ⟨closed, closedRead, returned⟩ := bind_eq_ok_iff.mp afterValues
      cases returned
      have valuesLength : values.2.rest.length ≤ before.rest.length :=
        Reader.length_of_arguments valuesRead
      have closedLength := Cursor.length_of_expect closedRead
      change closed.rest.length < before.rest.length
      omega

/-- The run of a phrase ends with what its reader gives. -/
theorem exists_eval (phrase : Phrase) {depth : Nat} (counted : depth + room = maxNesting)
    (cursor : Cursor) :
    ∃ last ∈ StateTransition.eval Config.next (entered phrase depth cursor),
      (∃ read, phrase.answer room cursor = .ok read ∧ last = given depth read) ∨
        ∃ error, phrase.answer room cursor = .error error ∧
          last.control = .fail error ∧ last.frames = [] := by
  have leads := phrase.agrees room depth cursor counted
  cases answered : phrase.answer room cursor with
  | ok read =>
      rw [answered] at leads
      change Config.LeadsTo _ (.ok (given depth read)) at leads
      cases leads with
      | ok reaches =>
          exact ⟨_, StateTransition.mem_eval.mpr ⟨reaches, rfl⟩, .inl ⟨read, rfl, rfl⟩⟩
  | error error =>
      rw [answered] at leads
      change Config.LeadsTo _ (.error error) at leads
      cases leads with
      | error reaches =>
          exact ⟨_, StateTransition.mem_eval.mpr ⟨reaches, rfl⟩, .inr ⟨error, rfl, rfl, rfl⟩⟩

end Phrase

/-- The run of a token list ends with its value. -/
theorem exists_eval_evaluate (tokens : List Token) :
    ∃ last ∈ StateTransition.eval Config.next (entered (.chain .sum) 0 ⟨0, tokens⟩),
      last.control = .ofResult (evaluate tokens) := by
  have ended := (Phrase.chain .sum).exists_eval (Nat.zero_add maxNesting) ⟨0, tokens⟩
  rw [evaluate_eq_read]
  simp only [Phrase.answer] at ended
  cases result : (Phrase.chain .sum).read maxNesting ⟨0, tokens⟩ with
  | ok read =>
      rw [result] at ended
      obtain ⟨last, ends, ⟨_, same, rfl⟩ | ⟨_, failed, _⟩⟩ := ended
      · cases same
        exact ⟨_, ends, rfl⟩
      · cases failed
  | error error =>
      rw [result] at ended
      obtain ⟨last, ends, ⟨_, same, _⟩ | ⟨_, failed, stands, _⟩⟩ := ended
      · cases same
      · cases failed
        exact ⟨_, ends, stands⟩

/-- Reading is over after some steps: the run of a sum ends with the value of the token list, that
of any phrase with what its reader gives, wherever it is begun.  If at most 200 calls are open at
the beginning, at most 200 are at every moment, those on the stack included, whether values or a
failure follow; no place is behind the last token, and a function is called with as many values as
it has arguments.  When a phrase gives values, they are as many as it has, some token is taken, and
the counter is what it was. -/
theorem reading_progresses_within_nesting_limit :
    (∀ tokens, ∃ last ∈ StateTransition.eval Config.next (entered (.chain .sum) 0 ⟨0, tokens⟩),
      last.control = .ofResult (evaluate tokens)) ∧
    ∀ (tokens : List Token) (phrase : Phrase) (position depth : Nat),
      position ≤ tokens.length → depth ≤ maxNesting →
        ∃ last ∈ StateTransition.eval Config.next
            (entered phrase depth ⟨position, tokens.drop position⟩),
          (∀ below, ((entered phrase depth ⟨position, tokens.drop position⟩).on below).Reaches
            (last.on below)) ∧
          ((∃ values after,
              phrase.answer (maxNesting - depth) ⟨position, tokens.drop position⟩ =
                .ok (values, after) ∧
              last = given depth (values, after) ∧ values.length = phrase.count ∧
              position < after.index ∧ after.index ≤ tokens.length) ∨
            ∃ error,
              phrase.answer (maxNesting - depth) ⟨position, tokens.drop position⟩ =
                .error error ∧
              last.control = .fail error ∧ last.frames = []) ∧
          ∀ moment, (entered phrase depth ⟨position, tokens.drop position⟩).Reaches moment →
            moment.Reaches last ∧ moment.cursor.StandsIn tokens ∧
            moment.depth ≤ maxNesting ∧ depth + openCalls moment.frames ≤ moment.depth ∧
            ∀ values function index below, moment.control = .give values →
              moment.frames = .call function index :: below → values.length = function.arity := by
  refine ⟨exists_eval_evaluate, fun tokens phrase position depth inList shallow => ?_⟩
  have begins : Cursor.StandsIn ⟨position, tokens.drop position⟩ tokens := ⟨inList, rfl⟩
  have sound := Config.sound_entered begins shallow phrase
  obtain ⟨last, ends, outcome⟩ :=
    phrase.exists_eval (Nat.add_sub_of_le shallow) ⟨position, tokens.drop position⟩
  have leads : Config.Reaches _ last := (StateTransition.mem_eval.mp ends).1
  refine ⟨last, ends, leads.on, ?_, fun moment reaches => ?_⟩
  · obtain ⟨read, answered, rfl⟩ | failed := outcome
    · have atEnd := sound.reaches leads
      have further := begins.index_lt atEnd.standsIn (Phrase.length_of_answer answered)
      obtain ⟨-, feeds⟩ := atEnd.feeds read.1.length rfl
      exact .inl ⟨read.1, read.2, answered, rfl, feeds.eq_of_nil, further, atEnd.standsIn.index_le⟩
    · exact .inr failed
  · have now := sound.reaches reaches
    refine ⟨reaches.reaches_of_mem_eval ends, now.standsIn, now.depth_le, now.counted, ?_⟩
    intro values function index below gives waits
    obtain ⟨-, feeds⟩ := now.feeds values.length (by rw [gives]; rfl)
    rw [waits] at feeds
    exact feeds.awaits_eq.symm

/-- The tokens of a function of zero. -/
def Builtin.ofZero (function : Builtin) : List Token :=
  [function.token, Delimiter.leftParen.token, .zero, Delimiter.rightParen.token]

/-- With 199 open calls `abs(0)` is read to its end, and the counter is 199 again; with 200 its call
fails, and the counter stays. -/
theorem reading_absolute_value_at_limit :
    (0 ≤ Builtin.abs.ofZero.length ∧ 199 ≤ maxNesting ∧ 200 ≤ maxNesting) ∧
    given 199 ([.integer 0], ⟨4, []⟩) ∈
      StateTransition.eval Config.next (entered .operand 199 ⟨0, Builtin.abs.ofZero⟩) ∧
    ∃ last ∈ StateTransition.eval Config.next (entered .operand 200 ⟨0, Builtin.abs.ofZero⟩),
      last.control = .fail ⟨.nestingTooDeep, 0⟩ ∧ last.depth = 200 := by
  obtain ⟨-, progress⟩ := reading_progresses_within_nesting_limit
  refine ⟨by decide, ?_, ?_⟩
  · have spelled : Builtin.abs.ofZero.map Token.symbol = (Tree.call .abs (.one (.single .sum
        (.single .product (.ofOperand (.integer "0")))))).symbols := rfl
    have read : Phrase.operand.read 1 ⟨0, Builtin.abs.ofZero⟩ = .ok (.integer 0, ⟨4, []⟩) :=
      Tree.read_of_ends _ 1 0 spelled (Phrase.ends_operand none)
    have answered : Phrase.operand.answer 1 ⟨0, Builtin.abs.ofZero⟩ =
        .ok ([.integer 0], ⟨4, []⟩) := by
      rw [Phrase.answer, read]
      rfl
    obtain ⟨last, ends, -, ⟨values, after, result, rfl, -⟩ | ⟨_, failed, -⟩, -⟩ :=
      progress Builtin.abs.ofZero .operand 0 199 (by decide) (by decide)
    · cases answered.symm.trans result
      exact ends
    · cases answered.symm.trans failed
  · have answered : Phrase.operand.answer 0 ⟨0, Builtin.abs.ofZero⟩ =
        .error ⟨.nestingTooDeep, 0⟩ := rfl
    obtain ⟨last, ends, -, ⟨_, _, result, -⟩ | ⟨_, failed, fails, -⟩, moments⟩ :=
      progress Builtin.abs.ofZero .operand 0 200 (by decide) (by decide)
    · cases answered.symm.trans result
    · cases answered.symm.trans failed
      obtain ⟨-, -, atMost, counted, -⟩ := moments last (StateTransition.mem_eval.mp ends).1
      exact ⟨last, ends, fails, Nat.le_antisymm atMost (Nat.le_of_add_right_le counted)⟩

end Calculator
