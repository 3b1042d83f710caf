/-!
# Blanks, words and lines

Text is divided into words by runs of blank characters. A blank is a character with the Unicode
white-space property or one of the four information separators U+001C to U+001F.

Everything here works on lists of characters: `trim` removes blanks at both ends, `words` are the
maximal blank-free pieces, and `squeeze` writes the words with one space between them. Splitting at a
character (`splitWhere`, `pieces`) is shared with the readers of types and paths.
-/

namespace DocTree.Text

/-- White space, including the information separators. -/
def isBlank (c : Char) : Bool :=
  let n := c.toNat
  (9 ≤ n && n ≤ 13) || (28 ≤ n && n ≤ 32) || n == 0x85 || n == 0xA0 || n == 0x1680 ||
    (0x2000 ≤ n && n ≤ 0x200A) || n == 0x2028 || n == 0x2029 || n == 0x202F || n == 0x205F ||
    n == 0x3000

/-! ## Ends of a text -/

/-- Remove the blanks at the start. -/
def trimLeft (s : List Char) : List Char := s.dropWhile isBlank

/-- Remove the longest end whose characters all satisfy `p`. -/
def dropEndWhile (p : Char → Bool) (s : List Char) : List Char := (s.reverse.dropWhile p).reverse

/-- Remove the blanks at both ends. -/
def trim (s : List Char) : List Char := dropEndWhile isBlank (trimLeft s)

/-- White space in the sense of the Unicode property, without the information separators. -/
def isWhiteSpace (c : Char) : Bool := isBlank c && !(28 ≤ c.toNat && c.toNat ≤ 31)

/-- Remove the white space at both ends. -/
def stripSpace (s : List Char) : List Char := dropEndWhile isWhiteSpace (s.dropWhile isWhiteSpace)

/-- Nothing but blanks. -/
def allBlank (s : List Char) : Bool := s.all isBlank

/-! ## Splitting -/

/-- Cut a list at every element that satisfies `p`; the elements cut at are dropped. -/
def splitWhere {α : Type} (p : α → Bool) : List α → List (List α)
  | [] => [[]]
  | a :: s =>
    if p a then [] :: splitWhere p s
    else match splitWhere p s with
      | [] => [[a]]
      | w :: ws => (a :: w) :: ws

/-- The non-empty parts between the elements that satisfy `p`. -/
def pieces {α : Type} (p : α → Bool) (s : List α) : List (List α) :=
  (splitWhere p s).filter fun w => !w.isEmpty

/-- The words of a text: its maximal parts without a blank. -/
def words (s : List Char) : List (List Char) := pieces isBlank s

/-- Texts written one after another with one space between them. -/
def joinSpaced (ws : List (List Char)) : List Char := [' '].intercalate ws

/-- The words of a text with one space between them. -/
def squeeze (s : List Char) : List Char := joinSpaced (words s)

/-- The part before the first space U+0020, and what follows that space, both trimmed. -/
def splitHead (s : List Char) : List Char × List Char :=
  let t := trim s
  (t.takeWhile (· != ' '), trim ((t.dropWhile (· != ' ')).drop 1))

/-! ## Lines -/

/-- A carriage return or a line feed. -/
def isLineBreak (c : Char) : Bool := c == '\r' || c == '\n'

/-- Each run of line breaks becomes one space. -/
def collapseBreaks : List Char → List Char
  | [] => []
  | c :: rest =>
    if isLineBreak c then
      match rest with
      | [] => [' ']
      | d :: _ => if isLineBreak d then collapseBreaks rest else ' ' :: collapseBreaks rest
    else c :: collapseBreaks rest

/-- The part of a text before its first line feed. -/
def firstLine (s : List Char) : List Char := s.takeWhile (· != '\n')

/-- A text with every line break, also the two-character one, written as a line feed. -/
def unifyBreaks : List Char → List Char
  | [] => []
  | '\r' :: '\n' :: rest => '\n' :: unifyBreaks rest
  | c :: rest => (if c == '\r' then '\n' else c) :: unifyBreaks rest

end DocTree.Text
