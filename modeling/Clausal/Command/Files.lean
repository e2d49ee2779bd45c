import Clausal.Text.Basic

/-!
# Files by path

What commands read is given by a function from paths to texts. A `Directory` holds some texts by
name; a path is followed through it step by step from the directory itself.
-/

namespace Clausal

inductive ReadError
  | missing
  | noPermission
  /-- A step of the path goes on after a file. -/
  | notDirectory
  | isDirectory
  | nameTooLong
  /-- The content of the file is no text. -/
  | notText
deriving DecidableEq, Repr

def ReadError.message : ReadError → String
  | missing => "No such file or directory (os error 2)"
  | noPermission => "Permission denied (os error 13)"
  | notDirectory => "Not a directory (os error 20)"
  | isDirectory => "Is a directory (os error 21)"
  | nameTooLong => "File name too long (os error 36)"
  | notText => "stream did not contain valid UTF-8"

/-- Gives the text at a path. -/
abbrev Files := String → Except ReadError String

/-- Texts by the steps of their paths. A directory inside is where the path of some text goes on. -/
structure Directory where
  texts : List (List String × String)

namespace Directory

/-- The greatest number of bytes of a name in a path, and of a whole path. -/
def maxName : Nat := 255

@[inherit_doc maxName]
def maxPath : Nat := 4095

def ofList (files : List (String × String)) : Directory :=
  ⟨files.map fun f => (f.1.splitOn "/", f.2)⟩

/-- Whether the steps lead to a directory inside. -/
def isInside (d : Directory) (steps : List String) : Bool :=
  d.texts.any fun t => steps.isPrefixOf t.1

/-- Follows steps from outside, where nothing is known but that directories are there. -/
def followOutside : List String → Except ReadError String
  | [] => .error .isDirectory
  | step :: rest =>
    if step ∈ ["", ".", ".."] then followOutside rest
    else if maxName < step.utf8ByteSize then .error .nameTooLong
    else .error .missing

/-- Follows steps from a directory inside, to which the steps in `place` lead. -/
def follow (d : Directory) (place : List String) : List String → Except ReadError String
  | [] => .error .isDirectory
  | step :: rest =>
    if step = "" ∨ step = "." then follow d place rest
    else if step = ".." then
      if place = [] then followOutside rest else follow d place.dropLast rest
    else if maxName < step.utf8ByteSize then .error .nameTooLong
    else
      let place := place ++ [step]
      match d.texts.lookup place with
      | some text => if rest = [] then .ok text else .error .notDirectory
      | none => if d.isInside place then follow d place rest else .error .missing

/-- The text at a path. -/
def read (d : Directory) : Files := fun path =>
  if path = "" then .error .missing
  else if maxPath < path.utf8ByteSize then .error .nameTooLong
  else match path.splitOn "/" with
    | "" :: steps => followOutside steps
    | steps => d.follow [] steps

end Directory

end Clausal
