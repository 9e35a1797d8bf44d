import SchemaDesk.Text.Blank

/-!
# Reports a user can act on

A report says where something went wrong, what went wrong and how to mend it.  It is shown as one
line, `context / location: issue. Fix: hint.`, and `isActionable` recognises that form.  The parts
are trimmed and lose their final periods first; a part of which nothing is left has a stand-in.
-/

namespace SchemaDesk

/-- The parts of a report. -/
structure Report where
  context : Text
  location : Text
  issue : Text
  hint : Text
  deriving DecidableEq, Repr

namespace Report

/-- A part as it is shown: without blanks around it and without periods at its end. -/
def cleaned (part standIn : Text) : Text :=
  let t := (part.trim.reverse.dropWhile (· = CodePoint.char '.')).reverse
  if t.isEmpty then standIn else t

/-- The line that is shown. -/
def message (r : Report) : Text :=
  let location := cleaned r.location "Unknown"
  let context := r.context.trim
  let head := if context.isEmpty then location else context ++ " / " ++ location
  head ++ ": " ++ cleaned r.issue "unknown issue" ++ ". Fix: " ++
    cleaned r.hint "review input and retry" ++ "."

/-- What separates the issue from the hint. -/
def fixMark : Text :=
  ". Fix: "

/-- Whether a text has the form of a hint at its end: the mark, then something, then a period. -/
def endsAsHint (t : Text) : Bool :=
  fixMark.isPrefixOf t && decide (fixMark.length + 1 < t.length) && t.getLast? = some (.char '.')

/-- Whether a text, or what is left of it after some code points, has the form of a hint. -/
def holdsHint : Text → Bool
  | [] => false
  | c :: rest => endsAsHint (c :: rest) || holdsHint rest

/-- Whether a text is a report in one line: a heading that ends at the first colon, then an issue
and a hint, none of them empty. -/
def isActionable (text : Text) : Bool :=
  let t := text.trim
  let heading := t.takeWhile (· ≠ CodePoint.char ':')
  match t.drop heading.length with
  | .char ':' :: .char ' ' :: _ :: rest =>
      !heading.isEmpty && !t.contains '\n' && holdsHint rest
  | _ => false

end Report

end SchemaDesk
