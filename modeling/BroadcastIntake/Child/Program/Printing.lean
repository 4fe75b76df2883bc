import BroadcastIntake.Child.Escape
import BroadcastIntake.Child.Program

/-!
# Programs that print

Programs that print what they are told, without reading anything.
-/

namespace BroadcastIntake

namespace Child

/-- Whether a word is a row of options of `echo`. -/
def isEchoOption (word : String) : Bool :=
  match word.toList with
  | '-' :: c :: rest => (c :: rest).all fun c => c = 'n' || c = 'e' || c = 'E'
  | _ => false

/-- The bytes of words with spaces between them; `dialect?` is there when escapes are resolved. -/
def echoed (dialect? : Option EscapeDialect) (endsLine : Bool) (words : List String) : ByteArray :=
  let line := (String.intercalate " " words).toList
  let (bytes, stops) :=
    match dialect? with
    | some dialect => unescape dialect line
    | none => (bytesOf line, false)
  ⟨(if endsLine && !stops then bytes ++ [10] else bytes).toArray⟩

/-- Prints its words on a line; options ask for escapes, or for no line end. -/
def echo : Program := fun call =>
  let options := (call.words.takeWhile isEchoOption).flatMap String.toList
  let words := call.words.dropWhile isEchoOption
  let withEscapes := (options.filter fun c => c = 'e' || c = 'E').getLast? = some 'e'
  .prints (echoed (if withEscapes then some ⟨true, true⟩ else none) (!options.contains 'n') words)

/-- Prints its words on a line, always with escapes, as a shell does. -/
def shellEcho : Program := fun call =>
  if call.words.head? = some "-n" then .prints (echoed (some ⟨true, false⟩) false call.words.tail)
  else .prints (echoed (some ⟨true, false⟩) true call.words)

/-- Fills a format with words. -/
def printf : Program := fun call =>
  match call.words with
  | [] => .misuse "printf" "missing operand"
  | format :: words =>
    let (bytes, wrong) := fillFormat true format words
    let errors := wrong.map fun word => s!"printf: ‘{word}’: expected a numeric value\n"
    ⟨if wrong.isEmpty then 0 else 1, .bytes ⟨bytes.toArray⟩, String.join errors, some 0⟩

/-- Fills a format with words, as a shell does. -/
def shellPrintf : Program := fun call =>
  match call.words with
  | [] => .fails 2 "sh: 1: printf: usage: printf format [arg ...]\n"
  | format :: words =>
    let (bytes, wrong) := fillFormat false format words
    let errors := wrong.map fun word => s!"sh: 1: printf: {word}: expected numeric value\n"
    ⟨if wrong.isEmpty then 0 else 1, .bytes ⟨bytes.toArray⟩, String.join errors, some 0⟩

/-- Prints a line for ever. -/
def yes : Program := fun call =>
  let line := if call.words.isEmpty then "y" else String.intercalate " " call.words
  ⟨0, .endless ByteArray.empty (line ++ "\n").toUTF8, "", some 0⟩

/-- The whole numbers from the first on, as long as they do not go past the last. -/
def numbersBetween (first step last : Int) : List Int :=
  if step = 0 then []
  else (List.range ((last - first) / step + 1).toNat).map fun (n : Nat) => first + n * step

/-- Prints whole numbers, one on each line. -/
def seq : Program := fun call =>
  let print (first step last : Int) : ProgramRun :=
    .printsText (String.join ((numbersBetween first step last).map fun n => intText n ++ "\n"))
  match call.words.mapM fun word => (readInt word).toOption with
  | some [last] => print 1 1 last
  | some [first, last] => print first 1 last
  | some [first, step, last] => print first step last
  | some [] => .misuse "seq" "missing operand"
  | some (_ :: _ :: _ :: word :: _) => .misuse "seq" s!"extra operand ‘{word}’"
  | none =>
    let wrong := (call.words.find? fun word => (readInt word).toOption.isNone).getD ""
    .misuse "seq" s!"invalid floating point argument: ‘{wrong}’"

/-- Prints the working directory. -/
def pwd : Program := fun call =>
  .printsText ("/" ++ String.intercalate "/" call.tree.workingDirectory ++ "\n")

/-- Prints the last name of a path, without an ending if that is asked for. -/
def basename : Program := fun call =>
  let print (path ending : String) : ProgramRun :=
    let p := Path.ofString path
    let name := if p.names.isEmpty then p.toString else p.name
    let short :=
      if ending ≠ "" && name ≠ ending && name.endsWith ending then
        (name.dropEnd ending.length).toString
      else name
    .printsText (short ++ "\n")
  match call.words with
  | [path] => print path ""
  | [path, ending] => print path ending
  | [] => .misuse "basename" "missing operand"
  | _ :: _ :: word :: _ => .misuse "basename" s!"extra operand ‘{word}’"

/-- Prints paths without their last names. -/
def dirname : Program := fun call =>
  if call.words.isEmpty then .misuse "dirname" "missing operand"
  else
    .printsText (String.join (call.words.map fun word => s!"{(Path.ofString word).parent}\n"))

/-- The names of what stands in a directory, in order. -/
def namesIn (tree : FileTree) (location : Location) : List String :=
  (tree.entries.filterMap fun (l, _) =>
    if l.dropLast = location && !l.isEmpty then l.getLast? else none).mergeSort

/-- Prints the names of what stands in directories.  Files come first, as they are named; the
directories are headed by their names when there are several words. -/
def ls : Program := fun call =>
  let (options, words) := call.splitOptions
  let showsAll := options.any fun word => word.toList.contains 'a'
  let list (location : Location) : String :=
    let names := (namesIn call.tree location).filter fun name => showsAll || !name.startsWith "."
    let names := if showsAll then "." :: ".." :: names else names
    String.join (names.map (· ++ "\n"))
  let words := if words.isEmpty then ["."] else words
  let found := words.map fun word => (word, call.tree.locate (Path.ofString word))
  let files := found.filterMap fun
    | (word, .ok (_, some (.file _))) => some (word ++ "\n")
    | _ => none
  let directories := found.filterMap fun
    | (word, .ok (location, some .directory)) =>
      some ((if words.length = 1 then "" else word ++ ":\n") ++ list location)
    | _ => none
  let errors := String.join (found.filterMap fun
    | (word, .ok (_, none)) => some (account word .missing)
    | (word, .error fault) => some (account word fault)
    | _ => none)
  let groups := (if files.isEmpty then [] else [String.join files]) ++ directories
  ⟨if errors = "" then 0 else 2, .ofText (String.intercalate "\n" groups), errors, some 0⟩
where
  /-- What is told about a word that names nothing. -/
  account (word : String) (fault : FileFault) : String :=
    s!"ls: cannot access '{word}': {fault.code.2}\n"

end Child

end BroadcastIntake
