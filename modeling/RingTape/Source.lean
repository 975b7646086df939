import RingTape.Image
import RingTape.Text.Basic

/-!
# Program text

A program is written as tokens separated by runs of ASCII separators. Each token becomes one cell,
whose value is the sum of the token's decimal digits modulo 256; every other character carries no
value and only dresses the program up. A leading run of separators stands after an empty token,
which becomes a zero cell, and a trailing run ends the last token without starting another.

Two definitions of this rule stand side by side. `tokens` cuts the text and says what the cells
are; `scan` finds them in one pass over the bytes of the normalised text, with an accumulator for
the token that is being read, and puts each cell where it belongs as soon as it is known.
-/

namespace RingTape.Source

/-- Replaces each run of separators by one space: a separator is dropped when another follows it. -/
def collapse (text : List Char) : List Char :=
  text.foldr (fun c rest =>
    if Text.isSeparator c then
      match rest with
      | ' ' :: _ => rest
      | _ => ' ' :: rest
    else c :: rest) []

/-- **Normalised program text.** Every run of separators becomes a single space. -/
def normalize (source : String) : String :=
  String.ofList (collapse source.toList)

/-- The tokens of a text: the text up to the first separator, then the tokens of what follows the
run of separators there. The empty text has no tokens. -/
def tokens (text : List Char) : List (List Char) :=
  match text with
  | [] => []
  | c :: rest =>
    (c :: rest).takeWhile (fun x => !Text.isSeparator x) ::
      tokens (((c :: rest).dropWhile (fun x => !Text.isSeparator x)).dropWhile Text.isSeparator)
termination_by text.length
decreasing_by
  by_cases h : Text.isSeparator c = true
  · simp only [List.dropWhile_cons, h, Bool.not_true, Bool.false_eq_true, if_false, if_true,
      List.length_cons]
    have := (List.dropWhile_sublist (l := rest) Text.isSeparator).length_le
    omega
  · simp only [List.dropWhile_cons, h, Bool.not_false, if_true, List.length_cons]
    have inner := (List.dropWhile_sublist (l := rest) fun x => !Text.isSeparator x).length_le
    have outer := (List.dropWhile_sublist
      (l := rest.dropWhile fun x => !Text.isSeparator x) Text.isSeparator).length_le
    omega

/-- Whether a byte is an ASCII decimal digit. -/
def isDigitByte (b : UInt8) : Bool :=
  0x30 ≤ b && b ≤ 0x39

/-- The value of a token, given as bytes: the sum of its decimal digits modulo 256. -/
def tokenValue (token : List UInt8) : UInt8 :=
  (token.filter isDigitByte).foldl (fun sum b => sum + (b - 0x30)) 0

/-- Scans normalised bytes from the middle of a token whose digits so far add up to `sum`. A cell
is put in the store at each space and at the last byte. -/
def scan {Store : Type} (put : Store → UInt8 → Store) (sum : UInt8) (store : Store) :
    List UInt8 → Store
  | [] => store
  | b :: rest =>
    let sum := if isDigitByte b then sum + (b - 0x30) else sum
    if b == 0x20 || rest.isEmpty then scan put 0 (put store sum) rest else scan put sum store rest

/-- The cells of a program, found in one pass over its normalised text. -/
def cells (source : String) : List UInt8 :=
  (scan Array.push 0 #[] (Text.utf8 (collapse source.toList))).toList

/-- **The image of a program text**, written cell by cell during the pass. -/
def encode (source : String) : Image :=
  scan Image.push 0 .empty (Text.utf8 (collapse source.toList))

end RingTape.Source
