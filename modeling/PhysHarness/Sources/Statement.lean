import PhysHarness.Sources.Unterminated
import PhysHarness.Lib.Lines
import Mathlib.Data.String.Basic

/-!
# Lean headers and statements

`header_problem` and `signature_problem` say why a text is not a plain header or one declaration's
signature. Both look at the code of the text only, as the scanner gives it.
-/
namespace PhysHarness

namespace Sources

/-- The further characters of `LEAN_NAME`. -/
def isNameChar (c : Char) : Bool := c.isAlphanum || c ∈ ['_', '.', '\'']

/-- `LEAN_NAME`. -/
def leanName (name : List Char) : Bool :=
  match name with
  | [] => false
  | c :: rest => (c.isAlpha || c = '_') && rest.all isNameChar && rest.length ≤ 199

/-- Whether a code point is in one of these ranges. -/
def inRanges (ranges : List (Nat × Nat)) (c : Char) : Bool :=
  ranges.any fun range => range.1 ≤ c.toNat && c.toNat ≤ range.2

/-- `_ID_FIRST`. -/
def isIdFirst (c : Char) : Bool :=
  c.isAlpha || c = '_' || inRanges
    [(0x3b1, 0x3ba), (0x3bc, 0x3c9), (0x391, 0x39f), (0x3a1, 0x3a1), (0x3a4, 0x3a9), (0x3ca, 0x3fb),
      (0x1f00, 0x1ffe), (0x2100, 0x214f), (0x1d49c, 0x1d59f)] c

/-- The further characters of an identifier. -/
def isIdRest (c : Char) : Bool :=
  isIdFirst c || c.isDigit || c = '\'' ||
    inRanges [(0x2080, 0x2089), (0x2090, 0x209c), (0x1d62, 0x1d6a)] c

/-- `_ATOM`. -/
def isAtom : List Char → Bool
  | [] => false
  | c :: rest => isIdFirst c && rest.all isIdRest

/-- `_IDENT`. -/
def isIdent (text : List Char) : Bool := (text.splitOn '.').all isAtom

/-- `str.strip`. -/
def strip (text : List Char) : List Char :=
  ((text.dropWhile isSpace).reverse.dropWhile isSpace).reverse

/-- A separator of `_GAP`. -/
def isBlank (c : Char) : Bool := c = ' ' || c = '\t'

def commandWords : List String :=
  ["abbrev", "alias", "attribute", "axiom", "class", "coinductive", "def", "deriving", "dsimproc",
    "elab", "end", "example", "export", "hiding", "import", "in", "include", "inductive", "infix",
    "infixl", "infixr", "initialize", "instance", "lemma", "local", "macro", "meta", "module",
    "mutual", "namespace", "noncomputable", "nonrec", "notation", "notation3", "omit", "opaque",
    "open", "partial", "postfix", "prefix", "prelude", "private", "protected", "public", "recall",
    "renaming", "reprove", "scoped", "seal", "section", "simproc", "structure", "syntax", "theorem",
    "universe", "unsafe", "unseal", "variable"]

/-- `_command_word`: a command keyword, or a name of small letters with an underscore. -/
def commandWord (name : List Char) : Bool :=
  commandWords.any (fun word => word.toList = name) ||
    (name.all (fun c => c.isLower || c = '_') && name.any (· = '_'))

def headerOptions : List String :=
  ["maxHeartbeats", "maxRecDepth", "maxSynthPendingDepth", "synthInstance.maxHeartbeats",
    "synthInstance.maxSize", "exponentiation.threshold", "autoImplicit", "relaxedAutoImplicit"]

def headerOptionPrefixes : List String := ["pp.", "linter."]

inductive HeaderProblem where
  | unreadable | unterminated | headerLine | setOptionNotAllowed
  deriving DecidableEq

def HeaderProblem.text : HeaderProblem → String
  | .unreadable => "unreadable"
  | .unterminated => "unterminated"
  | .headerLine => "header_line"
  | .setOptionNotAllowed => "set_option_not_allowed"

inductive SignatureProblem where
  | empty | unreadable | unterminated | unbalancedBrackets | declarationValue | matchAlternatives
  | whereClause | commandLine
  deriving DecidableEq

def SignatureProblem.text : SignatureProblem → String
  | .empty => "empty"
  | .unreadable => "unreadable"
  | .unterminated => "unterminated"
  | .unbalancedBrackets => "unbalanced_brackets"
  | .declarationValue => "declaration_value"
  | .matchAlternatives => "match_alternatives"
  | .whereClause => "where_clause"
  | .commandLine => "command_line"

/-- `_BRACKETS`. -/
def closerOf (c : Char) : Option Char :=
  match c with
  | '(' => some ')'
  | '[' => some ']'
  | '\x7b' => some '\x7d'
  | '⟨' => some '⟩'
  | '⦃' => some '⦄'
  | _ => none

/-- `_CLOSERS`. -/
def isCloser (c : Char) : Bool := c ∈ [')', ']', '\x7d', '⟩', '⦄']

section

variable [Alphanumerics]

/-- `\w`. -/
def isWord (c : Char) : Bool := Alphanumerics.isAlnum c || c = '_'

/-- `(?![\w'!?])`, with more characters that may not follow. -/
def endsWord (more : List Char) (rest : List Char) : Bool :=
  !(rest.head?.any fun c => isWord c || c ∈ ['\'', '!', '?'] || c ∈ more)

/-- `_WHERE`; `before` is the code before, in reverse. -/
def startsWhere (before code : List Char) : Bool :=
  !(before.head?.any fun c => isWord c || c ∈ ['.', '\'', '!', '?']) &&
    "where".toList.isPrefixOf code && endsWord [] (code.drop 5)

/-- The loop of `signature_problem` over the code. -/
def shape : List Char → Bool → List Char → List Char → Option SignatureProblem
  | stack, _, _, [] => if stack.isEmpty then none else some .unbalancedBrackets
  | stack, bar, before, c :: rest =>
    match closerOf c with
    | some closer => shape (closer :: stack) bar (c :: before) rest
    | none =>
      if isCloser c then
        match stack with
        | [] => some .unbalancedBrackets
        | top :: stack =>
          if top = c then shape stack bar (c :: before) rest else some .unbalancedBrackets
      else if !stack.isEmpty then shape stack bar (c :: before) rest
      else if c = ':' && rest.head? = some '=' then some .declarationValue
      else if c = '|' then shape stack true (c :: before) rest
      else if bar && c = '=' && rest.head? = some '>' then some .matchAlternatives
      else if startsWhere before (c :: rest) then some .whereClause
      else shape stack bar (c :: before) rest

/-- `_SIGNATURE_COMMAND`, at the start of a line. -/
def startsCommand (line : List Char) : Bool :=
  (match line with
    | '#' :: c :: _ => c.isAlpha
    | '@' :: '[' :: _ => true
    | _ => false) ||
  ("set_option" :: commandWords).any fun word =>
    word.toList.isPrefixOf line && endsWord ['.'] (line.drop word.toList.length)

/-- A line behind the first one that could open a command. -/
def commandLine (signature : List Char) : Bool :=
  (signature.splitOn '\n').tail.any fun line => !(line.head?.any isSpace) && startsCommand line

/-- The names of an `open` line: `_OPEN`. -/
def openNames (text : List Char) : Option (List (List Char)) :=
  let front := text.takeWhile (· ≠ '(')
  let behind := text.drop front.length
  let words := Lines.wordsBy isBlank (front.drop 4)
  let names := if words.head? = some "scoped".toList ∧ 2 ≤ words.length then words.tail else words
  let inner := (behind.drop 1).dropLast
  let listed :=
    if behind = [] then !(front.getLast?.any isBlank)
    else
      behind.getLast? = some ')' && Lines.wordsBy isBlank inner ≠ [] &&
        inner.all fun c => isBlank c || isWord c || c ∈ ['.', '\'', '!', '?']
  if "open".toList.isPrefixOf text && (front.drop 4).head?.any isBlank && !words.isEmpty &&
      words.all isIdent && listed then
    some names
  else none

/-- The names of a `universe` line: `_UNIVERSE`. -/
def universeNames (text : List Char) : Option (List (List Char)) :=
  let words := Lines.wordsBy isBlank (text.drop 8)
  if "universe".toList.isPrefixOf text && (text.drop 8).head?.any isBlank &&
      !(text.getLast?.any isBlank) && !words.isEmpty && words.all isAtom then
    some words
  else none

scoped instance lawfulLines : LawfulBEq (List Char) := inferInstance

/-- The option and the value of a `set_option` line: `_SET_OPTION`. -/
def optionLine (text : List Char) : Option (List Char × List Char) :=
  match Lines.wordsBy isBlank text with
  | [command, option, value] =>
    let literal := value.length = 18 && value.head? = some '\x00' && value.getLast? = some '\x00' &&
      value.tail.dropLast.all fun c => c ∈ "0123456789ABCDEF".toList
    if command = "set_option".toList && isIdent option &&
        (value ∈ ["true".toList, "false".toList] || value.all Char.isDigit || literal) &&
        !(text.head?.any isBlank) && !(text.getLast?.any isBlank) then
      some (option, value)
    else none
  | _ => none

/-- `_IMPORT`. -/
def importLine (text : List Char) : Bool :=
  let words := Lines.wordsBy isSpace text
  let words := if words.head? = some "public".toList then words.tail else words
  let words := if words.head? = some "meta".toList then words.tail else words
  match words with
  | [command, c :: name] =>
    command = "import".toList && (c.isAlpha || c = '_') &&
      name.all fun c => isWord c || c ∈ ['.', '\'']
  | _ => false

/-- `_OPEN_CONTINUATION`. -/
def continuationNames (text : List Char) : Option (List (List Char)) :=
  if (Lines.wordsBy isBlank text).all isIdent && !(text.head?.any isBlank) &&
      !(text.getLast?.any isBlank) then
    some (Lines.wordsBy isBlank text)
  else none

/-- The loop of `header_problem` over the lines of the code. -/
def headerLines : Bool → List (List Char) → Option HeaderProblem
  | _, [] => none
  | opened, line :: lines =>
    let text := strip line
    if text = [] then headerLines opened lines
    else
      let command := (openNames text).or (universeNames text)
      let option := optionLine text
      let continuation :=
        if opened && line.head?.any isSpace then continuationNames text else none
      let names : Option (List (List Char) × Bool) :=
        match command with
        | some names => some (names, false)
        | none =>
          if option.isSome || importLine text then some ([], false)
          else continuation.map (·, true)
      match names with
      | none => some .headerLine
      | some (names, continued) =>
        if names.any commandWord then some .headerLine
        else if option.any fun (option, value) =>
            value.head? = some '\x00' ||
              !(headerOptions.any (fun name => name.toList = option) ||
                headerOptionPrefixes.any fun start => start.toList.isPrefixOf option) then
          some .setOptionNotAllowed
        else headerLines (if continued then opened else "open".toList.isPrefixOf text) lines

variable [LiteralDigest]

def signatureProblem (limit : Nat) (signature : List Char) : Option SignatureProblem :=
  if strip signature = [] then some .empty
  else
    match scanned limit signature with
    | none => some .unreadable
    | some code =>
      if strip code = [] then some .unreadable
      else if unterminated limit signature then some .unterminated
      else
        match shape [] false [] code with
        | some problem => some problem
        | none => if commandLine signature then some .commandLine else none

def headerProblem (limit : Nat) (header : Option (List Char)) : Option HeaderProblem :=
  match header with
  | none => none
  | some header =>
    match scanned limit header with
    | none => some .unreadable
    | some code =>
      if unterminated limit header then some .unterminated
      else headerLines false (code.splitOn '\n')

end

end Sources

end PhysHarness
