import WaitingRoom.Text.Base64
import WaitingRoom.Text.Blank
import WaitingRoom.Text.Utf8

/-!
# Key files

The text form of keys: a labelled frame of dashes around Base64 in lines.
-/

namespace WaitingRoom.Crypto

/-- A labelled block of bytes. -/
structure PemBlock where
  label : List Char
  bytes : List UInt8

namespace PemBlock

/-- Looks for `mark`, of which `left` is still to come; returns what precedes it and
what follows it. A sign that breaks off a beginning of the mark is not tried as a
beginning itself. -/
def splitAt (mark left passed : List Char) : List Char → Option (List Char × List Char)
  | [] => none
  | c :: rest =>
    match left with
    | [] => none
    | d :: more =>
      if c == d then
        if more.isEmpty then
          some ((c :: passed).reverse.take (passed.length + 1 - mark.length), rest)
        else splitAt mark more (c :: passed) rest
      else splitAt mark mark (c :: passed) rest

/-- What precedes the first `mark`, and what follows it. -/
def upTo (mark : String) (cs : List Char) : Option (List Char × List Char) :=
  splitAt mark.toList mark.toList [] cs

/-- The lines of a text, `line` being the one in progress, last character first; a
carriage return before a line feed belongs to the line's end. -/
def linesFrom (line : List Char) : List Char → List (List Char)
  | [] => if line.isEmpty then [] else [line.reverse]
  | c :: rest =>
    if c == '\n' then
      let line := match line with
        | '\r' :: line => line
        | line => line
      line.reverse :: linesFrom [] rest
    else linesFrom (c :: line) rest

/-- The lines of a text. -/
def lines (cs : List Char) : List (List Char) := linesFrom [] cs

/-- Drops the blanks behind a line. -/
def dropBlanksBehind (cs : List Char) : List Char := (Text.dropBlanks cs.reverse).reverse

/-- The blanks that may stand around the parts of a block. -/
def isFiller (c : Char) : Bool := c == ' ' || c == '\t' || c == '\n' || c == '\r'

/-- Header lines and data: an empty line separates the two where there is one. -/
def headersAndData (body : List Char) : List Char × List Char :=
  match upTo "\n\n" body with
  | some found => found
  | none =>
    match upTo "\r\n\r\n" body with
    | some found => found
    | none => ([], body)

/-- Reads the first block of a text. -/
def parse? (cs : List Char) : Option PemBlock := do
  let (_, rest) ← upTo "-----BEGIN " cs
  let (label, rest) ← upTo "-----" rest
  let (body, rest) ← upTo "-----END " (rest.dropWhile isFiller)
  let (closing, _) ← upTo "-----" rest
  let (headers, data) := headersAndData body
  if label.isEmpty || label != closing then none
  else if !(lines headers).all (fun line => line.contains ':') then none
  else
    let bytes ← Text.standardBase64.decode? ((lines data).flatMap dropBlanksBehind)
    return ⟨label, bytes⟩

end PemBlock

/-- The line before a public key. -/
def publicKeyHeader : String := "-----BEGIN PUBLIC KEY-----"

/-- The line after a public key. -/
def publicKeyFooter : String := "-----END PUBLIC KEY-----"

/-- How wide the lines of a key are. -/
def keyLineWidth : Nat := 64

/-- Cuts a row into lines of the given width; `line` is the one in progress, last part first. -/
def wrapFrom {α : Type} (width : Nat) (line : List α) : List α → List (List α)
  | [] => if line.isEmpty then [] else [line.reverse]
  | a :: rest =>
    if line.length + 1 < width then wrapFrom width (a :: line) rest
    else (a :: line).reverse :: wrapFrom width [] rest

/-- A text in lines of the given width, each with its line feed. The width is that of bytes, and
where a line ends within a character, what there is of it on either side is replaced. -/
def wrapLines (width : Nat) (cs : List Char) : List Char :=
  (wrapFrom width [] (Text.utf8Bytes (String.ofList cs))).flatMap fun line =>
    (Text.lenientText line).toList ++ ['\n']

/-- A key as a labelled block: as it is where it has a frame already, else its
characters without blanks, in lines, within the frame of a public key. -/
def toPem (key : String) : String :=
  let key := Text.strip key.toList
  if "-----BEGIN".toList.isPrefixOf key then String.ofList key
  else
    let body := key.filter fun c => !Text.isBlank c
    publicKeyHeader ++ "\n" ++ String.ofList (wrapLines keyLineWidth body) ++ publicKeyFooter

end WaitingRoom.Crypto
