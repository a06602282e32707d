import HomeControl.Text.Column
import HomeControl.Text.Decimal

/-!
# Command lines

How a program takes its settings from the words it is started with. A setting has a name of its own,
`--name`, and its value stands in the same word after an equals sign, or is the next word. The words
are taken from left to right, and the first that is out of place, or that asks for help or for the
version, decides what happens. What is not set by a word may be set by a variable of the environment,
which is not even looked at otherwise.
-/

namespace HomeControl.CommandLine

/-- Why a program does not go on with its settings. -/
inductive Stop where
  /-- It is to explain how it is used. -/
  | help
  /-- It is to tell its version. -/
  | version
  /-- It cannot be used like this. -/
  | misuse
  deriving DecidableEq

/-- How a setting is made. -/
inductive Form (σ : Type) where
  /-- With a value, which may be refused. -/
  | value (store : String → σ → Option σ)
  /-- By its name alone. -/
  | flag (store : σ → σ)

/-- A setting that words can make. -/
structure Setting (σ : Type) where
  /-- Its name, and other names that mean the same. -/
  names : List String
  /-- The variable that makes it when no word does. -/
  variableName : Option String := none
  /-- How it is made. -/
  form : Form σ
  /-- What it is for, in a few words. -/
  meaning : String

/-- A line of explanation: a name, and what it is for. -/
def explain (name meaning : String) : String :=
  Text.padRight 34 ("  " ++ name) ++ meaning

/-- The explanation of a setting. -/
def Setting.explanation {σ : Type} (s : Setting σ) : String :=
  let value := match s.form with
    | .value _ => " <VALUE>"
    | .flag _ => ""
  let source := match s.variableName with
    | some variableName => " [env: " ++ variableName ++ "]"
    | none => ""
  explain ("--" ++ s.names.headD "" ++ value) (s.meaning ++ source)

/-- How a program with some settings is used. -/
def usage {σ : Type} (program : String) (all : List (Setting σ)) : List String :=
  ["Usage: " ++ program ++ " [OPTIONS]", "", "Options:"] ++ all.map Setting.explanation
    ++ [explain "-h, --help" "Print help", explain "-V, --version" "Print version"]

/-- What a word is at first sight. -/
inductive Word where
  /-- A name with two dashes, and the value after an equals sign, if there is one. -/
  | long (name : String) (attached : Option String)
  /-- Letters after one dash. -/
  | short (letters : List Char)
  /-- Two dashes alone: no names follow. -/
  | terminator
  /-- Anything else. -/
  | plain
  deriving DecidableEq

/-- What a word is. -/
def Word.ofString (word : String) : Word :=
  match word.toList with
  | ['-', '-'] => .terminator
  | '-' :: '-' :: cs =>
    let name := String.ofList (cs.takeWhile (· != '='))
    match cs.dropWhile (· != '=') with
    | [] => .long name none
    | _ :: value => .long name (some (String.ofList value))
  | '-' :: c :: cs => .short (c :: cs)
  | _ => .plain

/-- Whether a word can be the value of the name before it. -/
def isValue (word : String) : Bool :=
  match word.toList with
  | '-' :: _ :: _ => false
  | _ => true

/-- What has been taken from the words so far. -/
structure Reading (σ : Type) where
  /-- The settings. -/
  settings : σ
  /-- The names of the settings made. -/
  made : List String := []

variable {σ : Type}

/-- Makes a setting that has not been made before. -/
def make (r : Reading σ) (names : List String) (settings : Option σ) : Except Stop (Reading σ) :=
  if names.any r.made.contains then .error .misuse
  else
    match settings with
    | none => .error .misuse
    | some settings => .ok { settings, made := names ++ r.made }

/-- What letters after one dash come to: the first decides. -/
def stopOfLetters : List Char → Stop
  | 'h' :: _ => .help
  | 'V' :: _ => .version
  | _ => .misuse

/-- What a name that is no setting comes to. -/
def stopOfName (name : String) (attached : Option String) : Stop :=
  if attached.isSome then .misuse
  else if name = "help" then .help
  else if name = "version" then .version
  else .misuse

/-- Takes settings from words. -/
def takeWords (all : List (Setting σ)) (r : Reading σ) : List String → Except Stop (Reading σ)
  | [] => .ok r
  | word :: rest =>
    match Word.ofString word with
    | .plain => .error .misuse
    | .short letters => .error (stopOfLetters letters)
    | .terminator => if rest.isEmpty then .ok r else .error .misuse
    | .long name attached =>
      match all.find? fun s => s.names.contains name with
      | none => .error (stopOfName name attached)
      | some setting =>
        match setting.form, attached with
        | .flag store, none => do
          let r ← make r setting.names (some (store r.settings))
          takeWords all r rest
        | .flag _, some _ => .error .misuse
        | .value store, some value => do
          let r ← make r setting.names (store value r.settings)
          takeWords all r rest
        | .value store, none =>
          match rest with
          | [] => .error .misuse
          | value :: rest =>
            if isValue value then do
              let r ← make r setting.names (store value r.settings)
              takeWords all r rest
            else .error .misuse

/-- Takes settings that no word has made from the environment. -/
def takeVariables (environment : String → Option String) (r : Reading σ) :
    List (Setting σ) → Except Stop (Reading σ)
  | [] => .ok r
  | setting :: rest =>
    match setting.form, setting.variableName.bind environment with
    | .value store, some value =>
      if setting.names.any r.made.contains then takeVariables environment r rest
      else do
        let r ← make r setting.names (store value r.settings)
        takeVariables environment r rest
    | _, _ => takeVariables environment r rest

/-- The settings that words and the environment make out of the given ones. -/
def read (all : List (Setting σ)) (settings : σ) (environment : String → Option String)
    (words : List String) : Except Stop σ := do
  let r ← takeWords all { settings } words
  let r ← takeVariables environment r all
  return r.settings

/-- A port, as a word gives it. -/
def port? (text : String) : Option UInt16 :=
  (Decimal.signedBelow? UInt16.size text).map UInt16.ofNat

/-- A number of milliseconds, as a word gives it. -/
def milliseconds? (text : String) : Option UInt64 :=
  (Decimal.unsignedBelow? UInt64.size text).map UInt64.ofNat

end HomeControl.CommandLine
