import BroadcastIntake.Child.Program
import BroadcastIntake.Number.Reading

/-!
# Programs that wait or test
-/

namespace BroadcastIntake

namespace Child

/-- The microseconds of a time such as `0.5` or `2m`. -/
def microsOf? (word : String) : Option Nat :=
  let (number, seconds) :=
    match word.toList.reverse with
    | 's' :: rest => (rest.reverse, 1)
    | 'm' :: rest => (rest.reverse, 60)
    | 'h' :: rest => (rest.reverse, 3600)
    | 'd' :: rest => (rest.reverse, 86400)
    | _ => (word.toList, 1)
  match readBinary64 (String.ofList number) with
  | .ok x =>
    if x < 0 || !x.isFinite then none
    else
      some (divideToNearest (x.signedQuanta.natAbs * seconds * 1000000) Binary64.quantaPerOne)
  | .error _ => none

/-- Waits. -/
def sleep : Program := fun call =>
  match call.words with
  | [] => .misuse "sleep" "missing operand"
  | words =>
    if words.contains "infinity" then .stays
    else
      match words.find? fun word => (microsOf? word).isNone with
      | some word => .misuse "sleep" s!"invalid time interval ‘{word}’"
      | none =>
        { ProgramRun.quiet 0 with micros := some ((words.filterMap microsOf?).foldl (· + ·) 0) }

/-- Whether a test holds; none when it is no test. -/
def holds? (tree : FileTree) : List String → Option Bool
  | [] => some false
  | [word] => some (word ≠ "")
  | ["!", word] => some (word = "")
  | ["-n", word] => some (word ≠ "")
  | ["-z", word] => some (word = "")
  | ["-e", word] => (tree.pathExists (Path.ofString word)).toOption
  | ["-f", word] => (tree.isFile (Path.ofString word)).toOption
  | ["-d", word] => (tree.isDirectory (Path.ofString word)).toOption
  | ["-s", word] => some ((tree.read (Path.ofString word)).toOption.any fun c => !c.isEmpty)
  | ["!", a, b] => (holds? tree [a, b]).map (!·)
  | [a, "=", b] => some (a = b)
  | [a, "!=", b] => some (a ≠ b)
  | [a, relation, b] => do
    let x ← (readInt a).toOption
    let y ← (readInt b).toOption
    let relations : List (String × Bool) :=
      [("-eq", x = y), ("-ne", x ≠ y), ("-lt", x < y), ("-le", x ≤ y), ("-gt", y < x),
       ("-ge", y ≤ x)]
    relations.lookup relation
  | ["!", a, b, c] => (holds? tree [a, b, c]).map (!·)
  | _ => none

/-- The words before the first that is a given one, and the words after it. -/
def splitAtWord (mark : String) (words : List String) : List String × Option (List String) :=
  match words.dropWhile (· ≠ mark) with
  | [] => (words, none)
  | _ :: after => (words.takeWhile (· ≠ mark), some after)

/-- Whether tests hold of which at most `n` are joined by `-o`, and these by `-a`. -/
def holdsJoined? (tree : FileTree) : Nat → List String → Option Bool
  | 0, words => holds? tree words
  | n + 1, words =>
    if words.length ≤ 3 then holds? tree words
    else
      match splitAtWord "-o" words, splitAtWord "-a" words with
      | (first, some second), _ => do
        return (← holdsJoined? tree n first) || (← holdsJoined? tree n second)
      | _, (first, some second) => do
        return (← holdsJoined? tree n first) && (← holdsJoined? tree n second)
      | _, _ => holds? tree words

/-- Tells by its status whether a test holds. -/
def test : Program := fun call =>
  match holdsJoined? call.tree call.words.length call.words with
  | some true => .quiet 0
  | some false => .quiet 1
  | none => .fails 2 "test: syntax error\n"

def bracketTest : Program := fun call =>
  if call.words.getLast? = some "]" then test { call with words := call.words.dropLast }
  else .fails 2 "[: missing ‘]’\n"

end Child

end BroadcastIntake
