/-!
# Readers of text

A reader takes something off the front of a text, or refuses it. Readers are put together with `do`;
the first one that refuses makes the whole refuse, and nothing is tried twice.

`Reader.whole?` reads a text to its end.
-/

namespace AccessTokens.Text

/-- Takes a value off the front of a text and leaves the rest. -/
abbrev Reader (α : Type) := StateT (List Char) Option α

namespace Reader

/-- Reads a text to its end. -/
def whole? {α : Type} (r : Reader α) (cs : List Char) : Option α :=
  match r.run cs with
  | some (a, []) => some a
  | _ => none

/-- Refuses. -/
def refuse {α : Type} : Reader α := fun _ => none

/-- Takes nothing, and tells the next character. -/
def peek : Reader (Option Char) := fun cs => some (cs.head?, cs)

/-- Takes one character with a property. -/
def satisfying (p : Char → Bool) : Reader Char
  | [] => none
  | c :: cs => if p c then some (c, cs) else none

/-- Takes one given character. -/
def char (c : Char) : Reader Unit := do
  let _ ← satisfying (· == c)

/-- Takes a given text. -/
def text (word : List Char) : Reader Unit := fun cs =>
  if word.isPrefixOf cs then some ((), cs.drop word.length) else none

/-- Takes every character with a property that the text begins with. -/
def run (p : Char → Bool) : Reader (List Char) := fun cs =>
  some (cs.takeWhile p, cs.dropWhile p)

/-- Takes the digits that the text begins with, at least `least` and at most `most` of them. -/
def digits (least most : Nat) : Reader (List Char) := fun cs =>
  let ds := (cs.take most).takeWhile Char.isDigit
  if least ≤ ds.length then some (ds, cs.drop ds.length) else none

end Reader

end AccessTokens.Text
