import Speedtest.Text.Scan

/-!
# Reading a command line

A command line is a list of words. An option is named by a letter behind one dash or by a name behind two, and
takes a value, in the same word or as the next one; it may come once. Other words are either what the command is
about or the name of a command that the rest is for. Behind two dashes alone no word is an option or a
command. Asking for help ends the reading, and so does the first mistake.
-/
namespace Speedtest.CommandLine

/-- An option with a value: its letter, its name, and whether the value may be empty. -/
structure ValueOption where
  letter : Char
  name : String
  emptyAllowed : Bool
  deriving DecidableEq

/-- What a command takes: options, words that it needs, and commands that it hands over to. -/
structure Grammar where
  options : List ValueOption
  words : List String
  commands : List String
  deriving DecidableEq

/-- What is wrong with a command line. -/
inductive Misuse where
  | unknownOption (word : String)
  | missingValue (name : String)
  | emptyValue (name : String)
  | repeated (name : String)
  | unexpectedValue (name : String)
  | unexpectedWord (word : String)
  | unknownCommand (word : String)
  | missingWord (name : String)
  | missingOption (name : String)
  | missingCommand
  deriving DecidableEq

def Misuse.message : Misuse → String
  | .unknownOption word => "unexpected argument '" ++ word ++ "' found"
  | .missingValue name => "a value is required for '--" ++ name ++ "' but none was supplied"
  | .emptyValue name => "a value is required for '--" ++ name ++ "' but none was supplied"
  | .repeated name => "the argument '--" ++ name ++ "' cannot be used multiple times"
  | .unexpectedValue name => "unexpected value for '--" ++ name ++ "' found"
  | .unexpectedWord word => "unexpected argument '" ++ word ++ "' found"
  | .unknownCommand word => "unrecognized subcommand '" ++ word ++ "'"
  | .missingWord name => "the following required arguments were not provided: <" ++ name ++ ">"
  | .missingOption name => "the following required arguments were not provided: --" ++ name
  | .missingCommand => "a subcommand was not provided"

/-- What was read: the values of options by their names, the words, and the command that the rest is for. -/
structure Reading where
  values : List (String × String)
  words : List String
  command : Option (String × List String)
  deriving DecidableEq

namespace Reading

def empty : Reading := ⟨[], [], none⟩

def value? (r : Reading) (name : String) : Option String := r.values.lookup name

/-- The reading with the value of an option, which must be the first. -/
def withValue (r : Reading) (o : ValueOption) (value : String) : Except Misuse Reading :=
  if (r.value? o.name).isSome then .error (.repeated o.name)
  else if value = "" ∧ !o.emptyAllowed then .error (.emptyValue o.name)
  else .ok { r with values := r.values ++ [(o.name, value)] }

end Reading

/-- A word on its own. -/
inductive Word where
  /-- Two dashes. -/
  | divider
  /-- An option by its name, with the value behind an equals sign. -/
  | named (name : String) (value : Option String)
  /-- An option by its letter, with the value behind it. -/
  | lettered (letter : Char) (value : Option String)
  | plain
  deriving DecidableEq

/-- What a word is. A dash alone is a plain word. -/
def Word.ofText (word : String) : Word :=
  match word.toList with
  | ['-', '-'] => .divider
  | '-' :: '-' :: s =>
    match Text.cutAt? (· == '=') s with
    | some (name, value) => .named (String.ofList name) (some (String.ofList value))
    | none => .named (String.ofList s) none
  | '-' :: letter :: '=' :: s => .lettered letter (some (String.ofList s))
  | ['-', letter] => .lettered letter none
  | '-' :: letter :: s => .lettered letter (some (String.ofList s))
  | _ => .plain

/-- What an option asks for. -/
inductive Wish where
  | help
  | option (o : ValueOption) (value : Option String)

/-- What an option of a grammar asks for; help can be asked for everywhere. -/
def Grammar.wish (g : Grammar) (text : String) : Word → Except Misuse Wish
  | .named "help" none => .ok .help
  | .named "help" (some _) => .error (.unexpectedValue "help")
  | .lettered 'h' _ => .ok .help
  | .named name value =>
    match g.options.find? (·.name == name) with
    | some o => .ok (.option o value)
    | none => .error (.unknownOption text)
  | .lettered letter value =>
    match g.options.find? (·.letter == letter) with
    | some o => .ok (.option o value)
    | none => .error (.unknownOption text)
  | _ => .error (.unknownOption text)

def Grammar.withWord (g : Grammar) (r : Reading) (word : String) : Except Misuse Reading :=
  if r.words.length < g.words.length then .ok { r with words := r.words ++ [word] }
  else .error (.unexpectedWord word)

/-- A reading that is over, which has all the words that are needed. -/
def Grammar.complete (g : Grammar) (r : Reading) : Except Misuse Reading :=
  match g.words[r.words.length]? with
  | some name => .error (.missingWord name)
  | none => .ok r

/-- Reads words behind two dashes. -/
def readPlain (g : Grammar) (r : Reading) : List String → Except Misuse Reading
  | [] => g.complete r
  | word :: words => (g.withWord r word).bind fun r => readPlain g r words

/-- Reads words, where `pending` is an option that still needs its value. Nothing comes out when help is asked
for. -/
def readFrom (g : Grammar) (r : Reading) (pending : Option ValueOption) :
    List String → Except Misuse (Option Reading)
  | [] =>
    match pending with
    | some o => .error (.missingValue o.name)
    | none => (g.complete r).map some
  | word :: words =>
    match pending, Word.ofText word with
    | some o, .plain => (r.withValue o word).bind fun r => readFrom g r none words
    | some o, _ => .error (.missingValue o.name)
    | none, .divider => (readPlain g r words).map some
    | none, .plain =>
      if g.commands.isEmpty then (g.withWord r word).bind fun r => readFrom g r none words
      else if word ∈ g.commands then .ok (some { r with command := some (word, words) })
      else .error (.unknownCommand word)
    | none, w =>
      (g.wish word w).bind fun
        | .help => .ok none
        | .option o (some value) => (r.withValue o value).bind fun r => readFrom g r none words
        | .option o none =>
          if (r.value? o.name).isSome then .error (.repeated o.name)
          else readFrom g r (some o) words

/-- Reads a command line. Nothing comes out when help is asked for. -/
def Grammar.read (g : Grammar) (words : List String) : Except Misuse (Option Reading) :=
  readFrom g .empty none words

end Speedtest.CommandLine
