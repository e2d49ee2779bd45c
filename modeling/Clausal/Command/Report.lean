import Clausal.Pipeline

/-!
# Reports of failure

A report says what could not be done and, if that is known, what caused it. Several causes are
numbered from the outermost one.
-/

namespace Clausal

/-- A cause of a failure. -/
structure Cause where
  text : String
  /-- Whether the text is the wording of a JSON reader. -/
  isReaderWording : Bool
deriving DecidableEq

/-- A failure with its causes, the outermost first. -/
structure Report where
  summary : String
  causes : List Cause
deriving DecidableEq

namespace Cause

/-- A cause in the words of this library. -/
def plain (text : String) : Cause := ⟨text, false⟩

/-- A cause in the words of a JSON reader. -/
def reader (text : String) : Cause := ⟨text, true⟩

end Cause

def SchemaError.causes : SchemaError → List Cause
  | e@(.malformed why) => [.reader e.message, .reader why.message]
  | e => [.plain e.message]

def RenderError.causes : RenderError → List Cause
  | .schema why => why.causes
  | e@(.invalidConfig _) => [.reader e.message]
  | e => [.plain e.message]

def LibraryError.causes : LibraryError → List Cause
  | e@(.malformed _) => [.reader e.message]
  | e => [.plain e.message]

def PipelineError.causes : PipelineError → List Cause
  | e@(.validation why) => [.plain e.message, .plain why.message]
  | e@(.render why) => .plain e.message :: why.causes

namespace Report

def textLines (text : String) : List String := text.splitOn "\n"

/-- A text whose first line starts with `first` and whose other lines start with `other`. -/
def indentLines (first other : String) : List String → List String
  | [] => []
  | line :: rest => (first ++ line) :: rest.map (other ++ ·)

/-- The lines for a cause; `number` is its place among several causes. -/
def causeLines (number : Option Nat) (c : Cause) : List String :=
  match number with
  | none => indentLines "    " "    " (textLines c.text)
  | some n =>
    let digits := Text.decimal n
    let blanks := String.ofList (List.replicate (5 - digits.length) ' ')
    indentLines (blanks ++ digits ++ ": ") "       " (textLines c.text)

/-- The lines of a report, with those causes that are to be shown. -/
def lines (r : Report) (shown : Cause → Bool) : List String :=
  let heading := textLines ("Error: " ++ r.summary)
  match r.causes with
  | [] => heading
  | [c] => heading ++ "" :: "Caused by:" :: if shown c then causeLines none c else []
  | causes =>
    heading ++ "" :: "Caused by:" ::
      (causes.zipIdx.filter fun p => shown p.1).flatMap fun p => causeLines (some p.2) p.1

end Report

end Clausal
