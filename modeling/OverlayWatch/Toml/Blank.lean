import OverlayWatch.Toml.Value

/-!
# Blanks, comments and line ends

* `skipBlanks`    space and tab;
* `newline?`      one line end, with or without a return;
* `skipComment`   from the number sign to the end of the line, if there is one;
* `endLine`       what may follow on a line that is complete;
* `skipLines`     blanks and line ends in any number;
* `skipFiller`    the same with comments.

Control characters other than the tab are no text, not even in a comment.
-/

namespace OverlayWatch.Toml

def isBlank (c : Char) : Bool := c == ' ' || c == '\t'

/-- may stand in a comment or a string of one line -/
def isPlain (c : Char) : Bool := c == '\t' || (0x20 ≤ c.toNat && c.toNat ≠ 0x7F)

def skipBlanks (s : List Char) : List Char := s.dropWhile isBlank

def newline? : List Char → Option (List Char)
  | '\n' :: rest => some rest
  | '\r' :: '\n' :: rest => some rest
  | _ => none

/-- what is no text in a comment is left standing -/
def skipComment : List Char → List Char
  | '#' :: rest => rest.dropWhile isPlain
  | s => s

/-- a comment or nothing, and the end of the line or of the text -/
def endLine (s : List Char) : Option (List Char) :=
  match skipComment (skipBlanks s) with
  | [] => some []
  | rest => newline? rest

def skipLines : (limit : Nat) → List Char → List Char
  | 0, s => s
  | limit + 1, s =>
    match newline? (skipBlanks s) with
    | some rest => skipLines limit rest
    | none => skipBlanks s

def skipFiller : (limit : Nat) → List Char → List Char
  | 0, s => s
  | limit + 1, s =>
    match s with
    | '#' :: rest => skipFiller limit (rest.dropWhile isPlain)
    | c :: rest =>
      if isBlank c then skipFiller limit rest
      else
        match newline? (c :: rest) with
        | some rest => skipFiller limit rest
        | none => c :: rest
    | [] => []

def skipAllFiller (s : List Char) : List Char := skipFiller s.length s

theorem skipAllFiller_nil : skipAllFiller [] = [] := rfl

end OverlayWatch.Toml
