import BroadcastIntake.Child.Escape
import BroadcastIntake.Child.Program

/-!
# Programs that read

Programs that print what they read, a part of it, or something about it.
-/

namespace BroadcastIntake

namespace Child

/-- Prints what it reads. -/
def cat : Program := fun call =>
  let (flow, errors) := call.readAll "cat" call.words
  ⟨statusOf errors, flow, errors, some 0⟩

/-! ## Parts -/

/-- How much of a flow is taken. -/
structure Amount where
  count : Nat
  isBytes : Bool
  /-- The count is of what is left out. -/
  isRest : Bool

/-- A number of bytes or lines, which may be counted in thousands. -/
def countOf? (word : List Char) : Option Nat :=
  let digits := word.takeWhile Char.isDigit
  if digits.isEmpty then none
  else
    match word.dropWhile Char.isDigit with
    | [] => some (Text.digitsValue digits)
    | ['k'] | ['K'] => some (Text.digitsValue digits * 1024)
    | ['M'] => some (Text.digitsValue digits * 1024 * 1024)
    | _ => none

/-- The amount that the text of an option asks for; `sign` marks a count of what is left out. -/
def amountOf (program : String) (sign : Char) (isBytes : Bool) (text : String) :
    Except ProgramRun Amount :=
  let (isRest, digits) :=
    match text.toList with
    | c :: rest => if c = sign then (true, rest) else (false, c :: rest)
    | [] => (false, [])
  match countOf? digits with
  | some count => .ok ⟨count, isBytes, isRest⟩
  | none =>
    let unit := if isBytes then "bytes" else "lines"
    .error (.fails 1 s!"{program}: invalid number of {unit}: ‘{text}’\n")

/-- The amount that options ask for, ten lines if there are none, and the other words. -/
def readAmount (program : String) (sign : Char) :
    List String → Except ProgramRun (Amount × List String)
  | "-c" :: count :: words => (amountOf program sign true count).map (·, words)
  | "-n" :: count :: words => (amountOf program sign false count).map (·, words)
  | word :: words =>
    match word.toList with
    | '-' :: 'c' :: count => (amountOf program sign true (String.ofList count)).map (·, words)
    | '-' :: 'n' :: count => (amountOf program sign false (String.ofList count)).map (·, words)
    | '-' :: d :: count =>
      (amountOf program sign false (String.ofList (d :: count))).map (·, words)
    | _ => .ok (⟨10, false, false⟩, word :: words)
  | [] => .ok (⟨10, false, false⟩, [])

/-- What can be counted in bytes: lines, or the bytes themselves, each on its own. -/
def unitsOf (isBytes : Bool) (bytes : List UInt8) : List (List UInt8) :=
  if isBytes then bytes.map ([·]) else Flow.lines bytes

/-- Prints the start of what it reads. -/
def head : Program := fun call =>
  match readAmount "head" '-' call.words with
  | .error run => run
  | .ok (amount, words) =>
    let account (word : String) (fault : FileFault) : String :=
      match fault with
      | .isDirectory => s!"head: error reading '{word}': {fault.code.2}\n"
      | fault => s!"head: cannot open '{word}' for reading: {fault.code.2}\n"
    let (flow, errors) := call.readWords account (if words.isEmpty then ["-"] else words)
    let taken : Option ByteArray :=
      match amount.isRest, flow with
      | false, flow =>
        some (if amount.isBytes then flow.take amount.count else flow.takeLines amount.count)
      | true, .bytes content =>
        let units := unitsOf amount.isBytes content.toList
        some ⟨(units.take (units.length - amount.count)).flatten.toArray⟩
      | true, .endless _ _ => none
    match taken with
    | some content => ⟨statusOf errors, .bytes content, errors, some 0⟩
    | none => .stays

/-- Prints the end of what it reads. -/
def tail : Program := fun call =>
  match readAmount "tail" '+' call.words with
  | .error run => run
  | .ok (amount, words) =>
    let account (word : String) (fault : FileFault) : String :=
      match fault with
      | .isDirectory => s!"tail: error reading '{word}': {fault.code.2}\n"
      | fault => s!"tail: cannot open '{word}' for reading: {fault.code.2}\n"
    match call.readWords account (if words.isEmpty then ["-"] else words) with
    | (.endless _ _, _) => .stays
    | (.bytes content, errors) =>
      let units := unitsOf amount.isBytes content.toList
      let dropped := if amount.isRest then amount.count - 1 else units.length - amount.count
      ⟨statusOf errors, .bytes ⟨(units.drop dropped).flatten.toArray⟩, errors, some 0⟩

/-! ## Orders -/

def bareLines (bytes : List UInt8) : List (List UInt8) :=
  (Flow.lines bytes).map fun line =>
    if line.getLast? = some Flow.lineEnd then line.dropLast else line

/-- The bytes of lines, each of which gets a line end. -/
def withLineEnds (lines : List (List UInt8)) : List UInt8 :=
  lines.flatMap (· ++ [Flow.lineEnd])

/-- The number at the start of a line, zero when there is none. -/
def numberAtStart (line : List UInt8) : Int :=
  let cs := (line.map fun b => Char.ofNat b.toNat).dropWhile (· = ' ')
  let number (cs : List Char) : Int := Text.digitsValue (cs.takeWhile Char.isDigit)
  match cs with
  | '-' :: rest => -number rest
  | cs => number cs

/-- Whether one line comes before another or is equal to it. -/
def lineLe (isNumeric : Bool) (a b : List UInt8) : Bool :=
  if isNumeric && numberAtStart a ≠ numberAtStart b then numberAtStart a < numberAtStart b
  else a ≤ b

/-- Prints lines in order. -/
def sort : Program := fun call =>
  let (options, words) := call.splitOptions
  let has (c : Char) : Bool := options.any fun word => word.toList.contains c
  let change (bytes : List UInt8) : List UInt8 :=
    let sorted := (bareLines bytes).mergeSort (lineLe (has 'n'))
    let ordered := if has 'r' then sorted.reverse else sorted
    withLineEnds (if has 'u' then ordered.eraseReps else ordered)
  match call.readWords account (if words.isEmpty then ["-"] else words) with
  | (_, message) =>
    if message = "" then filterProgram "sort" change words call else .fails 2 message
where
  /-- What is told about a word that cannot be read. -/
  account (word : String) (fault : FileFault) : String :=
    match fault with
    | .isDirectory => s!"sort: read failed: {word}: {fault.code.2}\n"
    | fault => s!"sort: cannot read: {word}: {fault.code.2}\n"

/-- Prints lines, but of equal ones that follow each other only the first. -/
def uniq : Program := fun call =>
  filterProgram "uniq" (fun bytes => withLineEnds (bareLines bytes).eraseReps) call.words call

/-- Prints lines, the last one first. -/
def tac : Program := fun call =>
  filterProgram "tac" (fun bytes => (Flow.lines bytes).reverse.flatten) call.words call

/-! ## Counting -/

/-- How many words, rows of bytes that are not blank, there are. -/
def countWords (inWord : Bool) : List UInt8 → Nat
  | [] => 0
  | b :: rest =>
    let isBlank := b = 32 || (9 ≤ b && b ≤ 13)
    (if isBlank || inWord then 0 else 1) + countWords (!isBlank) rest

/-- The counts of lines, words, characters and bytes that options ask for, in this order. -/
def countsOf (options : List String) (content : ByteArray) : List Nat :=
  let letters := options.flatMap fun word => word.toList.drop 1
  let letters := if letters.isEmpty then ['l', 'w', 'c'] else letters
  let counts : List (Char × Nat) :=
    [('l', content.toList.count Flow.lineEnd), ('w', countWords false content.toList),
     ('m', (String.fromUTF8? content).elim content.size String.length), ('c', content.size)]
  (counts.filter fun c => letters.contains c.1).map Prod.snd

def countLine (width : Nat) (counts : List Nat) (name : String) : String :=
  let shown := counts.map fun n =>
    let digits := toString n
    "".pushn ' ' (width - digits.length) ++ digits
  String.intercalate " " (shown ++ (if name = "" then [] else [name])) ++ "\n"

/-- Counts the bytes, lines or words that it reads. -/
def wc : Program := fun call =>
  let (options, words) := call.splitOptions
  let names := if words.isEmpty then ["-"] else words
  let read := names.map fun word => (word, call.readWord word)
  let contents := read.filterMap fun (word, found) =>
    match found with
    | .ok (.bytes content) => some (if words.isEmpty then "" else word, content)
    | _ => none
  let errors := read.filterMap fun (word, found) =>
    match found with
    | .error fault => some s!"wc: {word}: {fault.code.2}\n"
    | .ok _ => none
  if read.any fun (_, found) => found matches .ok (.endless _ _) then .stays
  else
    let total := contents.foldl (fun sum (_, content) => sum ++ content) ByteArray.empty
    let isSingle := (countsOf options total).length = 1 && names.length = 1
    let width :=
      if isSingle then 1 else if words.isEmpty then 7 else (toString total.size).length
    let lines := contents.map fun (name, content) =>
      countLine width (countsOf options content) name
    let sums := if 1 < names.length then [countLine width (countsOf options total) "total"] else []
    ⟨if errors.isEmpty then 0 else 1, .ofText (String.join (lines ++ sums)), String.join errors,
      some 0⟩

/-! ## Changing -/

/-- The bytes that a set of `tr` names. -/
def byteSet : List UInt8 → List UInt8
  | a :: 45 :: b :: rest =>
    ((List.range (b.toNat + 1 - a.toNat)).map fun n => UInt8.ofNat (a.toNat + n)) ++ byteSet rest
  | a :: rest => a :: byteSet rest
  | [] => []

/-- Replaces or drops bytes. -/
def tr : Program := fun call =>
  let set (word : String) : List UInt8 := byteSet (unescape ⟨false, false⟩ word.toList).1
  let change : UInt8 → List UInt8 :=
    match call.words with
    | ["-d", drop] => fun b => if (set drop).contains b then [] else [b]
    | [old, new] => fun b =>
      match (set old).idxOf? b with
      | some n => [((set new)[n]?.or (set new).getLast?).getD b]
      | none => [b]
    | _ => fun b => [b]
  let changed (content : ByteArray) : ByteArray := ⟨(content.toList.flatMap change).toArray⟩
  match call.input with
  | .bytes content => .prints (changed content)
  | .endless start unit => ⟨0, .endless (changed start) (changed unit), "", some 0⟩

/-- Prints lines, each from its end to its start. -/
def rev : Program := fun call =>
  let turned (bytes : List UInt8) : List UInt8 :=
    (Flow.lines bytes).flatMap fun line =>
      if line.getLast? = some Flow.lineEnd then line.dropLast.reverse ++ [Flow.lineEnd]
      else line.reverse
  filterProgram "rev" turned call.words call

end Child

end BroadcastIntake
