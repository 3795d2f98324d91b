/-!
# Well-formed amounts

The filter that a generated text has to pass. A text that starts with `$` passes when it has no
point, or when exactly two characters stand after its first point, up to the next point or the end.
Any other text passes only when it ends in `c` and has two or three characters.
-/

namespace AmountWalk

/-- What stands after the first point, up to the next point or the end. -/
def fraction? (text : List Char) : Option (List Char) :=
  match text.dropWhile (· != '.') with
  | [] => none
  | _ :: rest => some (rest.takeWhile (· != '.'))

/-- Whether a text passes the filter. -/
def isWellFormed (text : List Char) : Bool :=
  match text with
  | '$' :: _ => (fraction? text).all (·.length == 2)
  | _ => text.getLast? == some 'c' && (text.length == 2 || text.length == 3)

end AmountWalk
