/-!
# Parts of texts

Cutting a text at a known start or at a separator, and decimal numerals.
-/

namespace Clausal.Text

/-- What follows `start` in `s`, when `s` starts with it. -/
def stripStart? (start s : String) : Option String :=
  if start.toList.isPrefixOf s.toList then some (String.ofList (s.toList.drop start.length))
  else none

/-- The characters before and after the first `sep`, when there is one. -/
def splitAtFirst? (sep : Char) (cs : List Char) : Option (List Char × List Char) :=
  match cs with
  | [] => none
  | c :: rest =>
    if c = sep then some ([], rest)
    else (splitAtFirst? sep rest).map fun (before, after) => (c :: before, after)

/-- A decimal numeral, most significant digit first. -/
def decimal (n : Nat) : String := String.ofList (Nat.toDigits 10 n)

theorem decimal_injective {m n : Nat} (h : decimal m = decimal n) : m = n := by
  simpa [decimal] using congrArg (fun s => Nat.ofDigitChars 10 s.toList 0) h

end Clausal.Text
