/-!
Splitting texts.

* `splitAt`: the parts of a text between its separators; there is always one
  more part than there are separators;
* `afterLast`: the last of these parts;
* `trimEnds`: a text without the characters of a class at its ends.
-/

namespace SchemaTypes

/-- The parts between the characters that are separators. -/
def splitAt (separator : Char → Bool) : List Char → List (List Char)
  | [] => [[]]
  | c :: cs =>
    if separator c then [] :: splitAt separator cs
    else
      match splitAt separator cs with
      | [] => [[c]]
      | part :: parts => (c :: part) :: parts

/-- The characters behind the last separator, or all of them. -/
def afterLast (separator : Char) (cs : List Char) : List Char :=
  (cs.reverse.takeWhile (· ≠ separator)).reverse

/-- The characters from the first to the last one outside of a class. -/
def trimEnds (outer : Char → Bool) (cs : List Char) : List Char :=
  ((cs.dropWhile outer).reverse.dropWhile outer).reverse

end SchemaTypes
