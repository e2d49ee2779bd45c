import Clausal.Json.Reader
import Clausal.Text.Basic

/-!
# Templates

A template is text with holes for arguments. An empty hole takes the next argument in turn, a
numbered one the argument of that number; a brace in the text is written twice.
-/

namespace Clausal

inductive TemplateFault
  | openHole
  | strayBrace
  | indexTooLarge
  | noArgument (position count : Nat)
deriving DecidableEq

def TemplateFault.message : TemplateFault → String
  | openHole => "unterminated or non-numeric placeholder"
  | strayBrace => "unmatched `\x7d`"
  | indexTooLarge => "number too large to fit in target type"
  | noArgument position count =>
    s!"placeholder {Text.decimal position} but only {Text.decimal count} arguments"

namespace Template

/-- A piece of a template. -/
inductive Segment
  | char (c : Char)
  | next
  | numbered (index : Nat)
  /-- The rest of the template cannot be read. -/
  | broken (why : TemplateFault)
deriving DecidableEq

/-- The hole with the given digits. An index has at most 64 bits. -/
def hole (digits : List Char) : Segment :=
  let index := Document.digitsValue digits
  if digits = [] then .next
  else if index < UInt64.size then .numbered index
  else .broken .indexTooLarge

/-- The segments of characters; `digits` holds those of the hole that is open, if one is. -/
def scan : (digits : Option (List Char)) → List Char → List Segment
  | none, [] => []
  | none, '\x7b' :: '\x7b' :: rest => .char '\x7b' :: scan none rest
  | none, '\x7d' :: '\x7d' :: rest => .char '\x7d' :: scan none rest
  | none, '\x7b' :: rest => scan (some []) rest
  | none, '\x7d' :: _ => [.broken .strayBrace]
  | none, c :: rest => .char c :: scan none rest
  | some digits, '\x7d' :: rest => hole digits :: scan none rest
  | some digits, c :: rest =>
    if c.isDigit then scan (some (digits ++ [c])) rest else [.broken .openHole]
  | some _, [] => [.broken .openHole]

def argument (args : List String) (position : Nat) : Except TemplateFault (List Char) :=
  match args[position]? with
  | some a => .ok a.toList
  | none => .error (.noArgument position args.length)

/-- The characters of segments, with arguments in the holes; `next` counts the empty holes so
far. -/
def fillSegments (args : List String) (next : Nat) : List Segment → Except TemplateFault (List Char)
  | [] => .ok []
  | .char c :: rest => do return c :: (← fillSegments args next rest)
  | .next :: rest => do return (← argument args next) ++ (← fillSegments args (next + 1) rest)
  | .numbered index :: rest => do return (← argument args index) ++ (← fillSegments args next rest)
  | .broken why :: _ => .error why

/-- A template with arguments in its holes. -/
def fill (template : String) (args : List String) : Except TemplateFault String :=
  String.ofList <$> fillSegments args 0 (scan none template.toList)

end Template

end Clausal
