import HomeControl.Client.Request
import HomeControl.Home.Table
import HomeControl.Text.Blank
import HomeControl.Text.Decimal
import HomeControl.Text.Quoted
import HomeControl.Text.Split

/-!
# The prompt

The dialog that turns typed lines into a request. It shows the home and asks, in this order, for a
kind of which the home has devices, for a device of that kind, for an operation of the kind, and for
the arguments of the operation if it takes any. Every question can be answered with T, which ends the
session, and is asked again after an answer it rejects. A dialog reads one line for each question it
asks, and no line after the one that completes it.
-/

namespace HomeControl.Prompt

/-- What a question comes to. -/
inductive Answer (α : Type) where
  /-- An answer that was accepted. -/
  | value (a : α)
  /-- The user ends the session. -/
  | terminate
  /-- There are no more lines. -/
  | dry

/-- A question that has been dealt with. -/
structure Asked (α : Type) where
  /-- What it came to. -/
  answer : Answer α
  /-- The lines left. -/
  rest : List String
  /-- The texts printed, in order. -/
  printed : List String

/-- Whether an answer ends the session. -/
def isTerminate (input : String) : Bool :=
  input == "t" || input == "T"

/-- Asks until an answer is accepted. -/
def ask {α : Type} (menu : String) (parse : String → Except String α) : List String → Asked α
  | [] => { answer := .dry, rest := [], printed := [menu, "\n"] }
  | line :: rest =>
    let input := Text.trim line
    if isTerminate input then { answer := .terminate, rest, printed := [menu, "\n"] }
    else
      match parse input with
      | .ok a => { answer := .value a, rest, printed := [menu, "\n"] }
      | .error reason =>
        let again := ask menu parse rest
        let complaint := "Illegal selection, try again: " ++ reason ++ "\n"
        { again with printed := menu :: "\n" :: complaint :: again.printed }

/-- The question for a kind. -/
def kindMenu : String :=
  let choice (k : Kind) := s!"[{k.code}] " ++ k.label ++ "  "
  Text.trimEnd
    ("Select device type or press T to terminate:\n" ++ String.join (Kind.all.map choice))

/-- The question for a device. -/
def deviceMenu (ds : List Device) : String :=
  let choice (index : Nat) (d : Device) := s!"\n[{index}] " ++ d.name
  "Select device or press T to terminate:" ++ String.join (ds.mapIdx choice)

/-- The question for an operation. -/
def operationMenu (k : Kind) : String :=
  let choice (op : Operation) := s!"\n[{op.opcode}] " ++ op.name
  "Select operation or press T to terminate:" ++ String.join (k.operations.map choice)

/-- The question for the arguments of an operation. -/
def argumentMenu (op : Operation) : String :=
  let separated := if op.arguments.length > 1 then " (separated by commas)" else ""
  "Input " ++ ", ".intercalate op.arguments ++ separated ++ " or press T to terminate:"

/-- Reads a number, with the complaint for anything else. -/
def parseNumber (input : String) : Except String UInt8 :=
  match Decimal.byte? input with
  | some n => .ok n
  | none => .error (Text.quoted input ++ " is not a number")

/-- Reads the code of a kind the home has devices of. -/
def parseKind (h : Home) (input : String) : Except String Kind := do
  let code ← parseNumber input
  match Kind.ofCode? code with
  | none => throw "selected device code not in range"
  | some k => if (h.group k).isEmpty then throw "no devices of selected type" else return k

/-- Reads the index of one of `count` devices. -/
def parseIndex (count : Nat) (input : String) : Except String UInt8 := do
  let index ← parseNumber input
  if count ≤ index.toNat then throw "selected device number not in range" else return index

/-- Reads the opcode of an operation of the kind. -/
def parseOperation (k : Kind) (input : String) : Except String Operation := do
  let opcode ← parseNumber input
  match k.operation? opcode with
  | none => throw "selected opcode not in range"
  | some op => return op

/-- Reads one argument. -/
def parseArgument (input : String) : Except String UInt8 :=
  match Decimal.byte? input with
  | some n => .ok n
  | none => .error (Text.quoted input ++ " is not a value in 0-255")

/-- Reads arguments separated by commas. -/
def parseArguments (expected : Nat) (input : String) : Except String Bytes :=
  let parts := (Text.split ',' input).map Text.trim
  if parts.length ≠ expected then .error "unexpected number of parameters"
  else parts.mapM parseArgument

/-- A dialog that has ended. -/
structure Dialog where
  /-- The request, unless the lines ran out before it was complete. -/
  request : Option Request
  /-- The lines left. -/
  rest : List String
  /-- The texts printed, in order. -/
  printed : List String

/-- All that a dialog printed. -/
def Dialog.text (d : Dialog) : String :=
  String.join d.printed

/-- Puts what was printed before a dialog in front of it. -/
def Dialog.after (d : Dialog) (printed : List String) : Dialog :=
  { d with printed := printed ++ d.printed }

/-- Goes on with the answer to a question, or ends the dialog with it. -/
def Asked.andThen {α : Type} (q : Asked α) (next : α → List String → Dialog) : Dialog :=
  match q.answer with
  | .value a => (next a q.rest).after q.printed
  | .terminate => { request := some .terminate, rest := q.rest, printed := q.printed }
  | .dry => { request := none, rest := q.rest, printed := q.printed }

/-- Asks for the arguments of an operation that takes any. -/
def collectArguments (op : Operation) (lines : List String) (done : Bytes → Request) : Dialog :=
  if op.arguments.isEmpty then
    { request := some (done []), rest := lines
      printed := ["No parameters for operation: " ++ op.name ++ "\n"] }
  else
    (ask (argumentMenu op) (parseArguments op.arguments.length) lines).andThen fun params rest =>
      { request := some (done params), rest, printed := [] }

/-- Runs the dialog on a queue of lines. -/
def collect (h : Home) (lines : List String) : Dialog :=
  let dialog := (ask kindMenu (parseKind h) lines).andThen fun k rest =>
    let ds := h.group k
    (ask (deviceMenu ds) (parseIndex ds.length) rest).andThen fun index rest =>
      let selected := match h.device? k index with
        | some d => ["selected device: " ++ d.describe ++ "\n"]
        | none => []
      let rest := (ask (operationMenu k) (parseOperation k) rest).andThen fun op rest =>
        collectArguments op rest fun params => .act k index op.opcode params
      rest.after selected
  dialog.after [h.table, "\n"]

/-- Runs the dialog unless the question has been withdrawn already: a withdrawn dialog shows the home
and the first question and reads nothing. -/
def collectUnless (withdrawn : Bool) (h : Home) (lines : List String) : Dialog :=
  if withdrawn then { collect h [] with rest := lines } else collect h lines

end HomeControl.Prompt
