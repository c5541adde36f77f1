import Speedtest.Bytes
import Speedtest.Text.Utf8

/-!
# Files

The files that a program can read. A name is walked one part at a time, from the root when it starts with a slash
and otherwise from the directory that the program runs in, and the first part that leads nowhere decides what
is wrong with the name.
-/
namespace Speedtest

/-- What stands where, by the parts of its place below the root: a file with its content, or a directory. A
directory also stands wherever something stands in it, and the program runs in one. -/
structure Files where
  home : List String
  entries : List (List String × Option Bytes)

namespace Files

/-- Why a file cannot be read. -/
inductive Fault where
  | missing
  | isDirectory
  | notDirectory
  | nameTooLong
  | zeroInName
  | notText
  deriving DecidableEq

def Fault.message : Fault → String
  | .missing => "No such file or directory (os error 2)"
  | .isDirectory => "Is a directory (os error 21)"
  | .notDirectory => "Not a directory (os error 20)"
  | .nameTooLong => "File name too long (os error 36)"
  | .zeroInName => "file name contained an unexpected NUL byte"
  | .notText => "stream did not contain valid UTF-8"

/-- A file with its content, or a directory. -/
inductive Node where
  | file (content : Bytes)
  | directory

/-- Whether a place is that of a directory in which something stands. -/
def leadsTo (f : Files) (place : List String) : Bool :=
  place.isPrefixOf f.home || f.entries.any fun e => place.isPrefixOf e.1

def node? (f : Files) (place : List String) : Option Node :=
  match f.entries.lookup place with
  | some (some content) => some (.file content)
  | some none => some .directory
  | none => if place = [] ∨ f.leadsTo place then some .directory else none

/-- The longest part of a name, and the longest name, in bytes. -/
def maxPart : Nat := 255

def maxName : Nat := 4095

def follow (f : Files) (place : List String) : List String → Except Fault Node
  | [] => .ok .directory
  | part :: parts =>
    if part = "" ∨ part = "." then follow f place parts
    else if part = ".." then follow f place.dropLast parts
    else if maxPart < part.utf8ByteSize then .error .nameTooLong
    else match f.node? (place ++ [part]) with
      | none => .error .missing
      | some .directory => follow f (place ++ [part]) parts
      | some (.file content) => if parts.isEmpty then .ok (.file content) else .error .notDirectory

def find (f : Files) (name : String) : Except Fault Node :=
  if name.toList.contains '\x00' then .error .zeroInName
  else if name = "" then .error .missing
  else if maxName < name.utf8ByteSize then .error .nameTooLong
  else
    let start := if name.toList.head? = some '/' then [] else f.home
    follow f start ((name.toList.splitOn '/').map String.ofList)

def has (f : Files) (name : String) : Bool := (f.find name).toBool

def read (f : Files) (name : String) : Except Fault Bytes :=
  match f.find name with
  | .ok (.file content) => .ok content
  | .ok .directory => .error .isDirectory
  | .error fault => .error fault

/-- The content of a file that holds a text. -/
def readText (f : Files) (name : String) : Except Fault String :=
  (f.read name).bind fun content =>
    match Text.Utf8.decode? content with
    | some s => .ok (String.ofList s)
    | none => .error .notText

end Files
end Speedtest
