import PhysHarness.Lib.Lexing
import Mathlib.Data.List.Basic

/-!
# The Lean scanner

`_scan` copies the code of a Lean text and blanks the rest: a comment becomes whitespace, a literal, an
escaped identifier or a quotation one opaque token. Interpolations and quotations hold code that is
scanned in turn; a text that nests them deeper than the interpreter's recursion has no code.

A text is a list of characters. A function that looks for an end says how much there is up to it.
-/
namespace PhysHarness

namespace Sources

/-- `str.isalnum` up to U+00FF. -/
def isAlnumLatin (c : Char) : Bool :=
  c.isAlphanum || c.toNat ∈ [0xaa, 0xb2, 0xb3, 0xb5, 0xb9, 0xba, 0xbc, 0xbd, 0xbe] ||
    (0xc0 ≤ c.toNat && c.toNat ≤ 0xff && c.toNat ≠ 0xd7 && c.toNat ≠ 0xf7)

/-- The character database behind `str.isalnum`. -/
class Alphanumerics where
  isAlnum : Char → Bool
  latin : ∀ c : Char, c.toNat ≤ 0xff → isAlnum c = isAlnumLatin c

/-- The 16 hex digits that stand for a literal in the code. -/
class LiteralDigest where
  digits : List Char → List Char
  hex : ∀ text, ∀ c ∈ digits text, c ∈ "0123456789ABCDEF".toList
  size : ∀ text, (digits text).length = 16

/-- `str.isspace`. -/
def isSpace (c : Char) : Bool :=
  let code := c.toNat
  (9 ≤ code && code ≤ 13) || (28 ≤ code && code ≤ 32) || code ∈ [0x85, 0xA0, 0x1680] ||
    (0x2000 ≤ code && code ≤ 0x200A) || code ∈ [0x2028, 0x2029, 0x202F, 0x205F, 0x3000]

def isHex (c : Char) : Bool :=
  ('0' ≤ c && c ≤ '9') || ('a' ≤ c && c ≤ 'f') || ('A' ≤ c && c ≤ 'F')

/-- How far it is to an end that is looked for. -/
inductive Extent where
  | tooDeep
  | runsOff
  | upTo (length : Nat)
  deriving DecidableEq

def Extent.shift (extent : Extent) (passed : Nat) : Extent :=
  match extent with
  | .upTo length => .upTo (length + passed)
  | other => other

@[simp]
theorem Extent.shift_eq_runsOff {extent : Extent} {passed : Nat} :
    extent.shift passed = .runsOff ↔ extent = .runsOff := by
  cases extent <;> simp [shift]

@[simp]
theorem Extent.shift_eq_upTo {extent : Extent} {passed length : Nat} :
    extent.shift passed = .upTo length ↔ ∃ more, extent = .upTo more ∧ more + passed = length := by
  cases extent <;> simp [shift]

/-- `source.find(closer, index)`, up to the end of what is found. -/
def findEnd (closer : List Char) : List Char → Extent
  | [] => .runsOff
  | c :: rest =>
    if closer.isPrefixOf (c :: rest) then .upTo closer.length else (findEnd closer rest).shift 1

/-- The end of a line comment is before the newline. -/
def lineEnd : List Char → Extent
  | [] => .runsOff
  | c :: rest => if c = '\n' then .upTo 0 else (lineEnd rest).shift 1

/-- `_block_comment_end`, inside `depth` comments. -/
def blockCommentEnd : Nat → List Char → Extent
  | _, [] => .runsOff
  | _, [_] => .runsOff
  | depth, c :: d :: rest =>
    if c = '/' ∧ d = '-' then (blockCommentEnd (depth + 1) rest).shift 2
    else if c = '-' ∧ d = '/' then
      if depth ≤ 1 then .upTo 2 else (blockCommentEnd (depth - 1) rest).shift 2
    else (blockCommentEnd depth (d :: rest)).shift 1

/-- The hex digits that a text begins with. -/
def hexRun (text : List Char) : Nat := (text.takeWhile isHex).length

/-- What `_CHAR` may take after the backslash, in the order of its alternatives. -/
def escapeLengths : List Char → List Nat
  | [] => []
  | c :: rest =>
    (if c = 'x' ∧ 2 ≤ hexRun rest then [3] else []) ++
    (if c = 'u' ∧ 4 ≤ hexRun rest then [5] else []) ++
    (if c = 'u' ∧ rest.head? = some '\x7b' ∧ 0 < hexRun rest.tail ∧
        rest.tail[hexRun rest.tail]? = some '\x7d' then [hexRun rest.tail + 3] else []) ++
    (if c = '\n' then [] else [1])

/-- `_CHAR`, after the opening apostrophe. -/
def charEnd (text : List Char) : Option Nat :=
  match text with
  | [] => none
  | c :: rest =>
    if c = '\\' then
      ((escapeLengths rest).find? fun length => rest[length]? = some '\'').map (· + 2)
    else if c = '\'' ∨ c = '\n' then none
    else if rest.head? = some '\'' then some 2 else none

/-- The number of hashes of `_RAW_STRING`, after the `r`. -/
def rawHashes (text : List Char) : Option Nat :=
  let hashes := (text.takeWhile (· = '#')).length
  if text[hashes]? = some '"' then some hashes else none

section

variable [Alphanumerics]

/-- `_ident_before`: the text before a place is given in reverse. -/
def identBefore (before : List Char) : Bool :=
  before.head?.any fun c => Alphanumerics.isAlnum c || c ∈ ['_', '\'', '!', '?', '.']

/-- `_interpolation_prefix`. -/
def interpolationPrefix : List Char → Bool
  | '!' :: letter :: before => letter ∈ ['f', 'm', 's'] && !identBefore before
  | _ => false

end

/-- The branch of `_scan` that a place goes to. -/
inductive Opening where
  | line | block | string | escaped | symbol
  | raw (hashes : Nat)
  | char (length : Nat)
  | quotation (bracket : Nat)
  deriving DecidableEq

/-- What the loop of `_scan` takes at a place. -/
inductive Kind where
  | lineComment | blockComment | literal | symbol
  deriving DecidableEq

/-- The tests of `_scan`, in its order. -/
def opening [Alphanumerics] (before : List Char) (c : Char) (rest : List Char) : Opening :=
  if c = '-' ∧ rest.head? = some '-' then .line
  else if c = '/' ∧ rest.head? = some '-' then .block
  else if c = '"' then .string
  else
    match if c = 'r' ∧ identBefore before = false then rawHashes rest else none with
    | some hashes => .raw hashes
    | none =>
      match if c = '\'' ∧ identBefore before = false then charEnd rest else none with
      | some length => .char length
      | none =>
        if c = '\u00ab' then .escaped
        else if c = '\u0060' ∧ rest.head? = some '(' then .quotation 1
        else if c = '\u0060' ∧ rest.take 2 = ['\u0060', '('] then .quotation 2
        else .symbol

section

variable (nested : Char → List Char → List Char → Extent)

/-- `_string_end`, after the opening quote; `skip` characters are passed over. -/
def stringEnd (interpolated : Bool) : List Char → Nat → List Char → Extent
  | _, _, [] => .runsOff
  | before, skip + 1, c :: rest => (stringEnd interpolated (c :: before) skip rest).shift 1
  | before, 0, c :: rest =>
    if c = '\\' then (stringEnd interpolated (c :: before) 1 rest).shift 1
    else if c = '"' then .upTo 1
    else if interpolated && c = '\x7b' then
      match nested '\x7d' (c :: before) rest with
      | .upTo length => (stringEnd interpolated (c :: before) length rest).shift 1
      | other => other
    else (stringEnd interpolated (c :: before) 0 rest).shift 1

variable [Alphanumerics]

/-- What stands at this place and how far it goes. -/
def token (before : List Char) : List Char → Kind × Extent
  | [] => (.symbol, .runsOff)
  | c :: rest =>
    match opening before c rest with
    | .line => (.lineComment, (lineEnd rest).shift 1)
    | .block => (.blockComment, (blockCommentEnd 1 rest.tail).shift 2)
    | .string =>
      (.literal, (stringEnd nested (interpolationPrefix before) (c :: before) 0 rest).shift 1)
    | .raw hashes =>
      (.literal, (findEnd ('"' :: List.replicate hashes '#') (rest.drop (hashes + 1))).shift
        (hashes + 2))
    | .char length => (.literal, .upTo (length + 1))
    | .escaped => (.literal, (findEnd ['\u00bb'] rest).shift 1)
    | .quotation bracket =>
      -- the code starts behind the bracket
      (.literal, (nested ')' ((rest.take bracket).reverse ++ c :: before) (rest.drop bracket)).shift
        (bracket + 1))
    | .symbol => (.symbol, .upTo 1)

/-- `_OPENERS`. -/
def opener (close : Char) : Char := if close = ')' then '(' else '\x7b'

/-- `_scan` up to an unmatched `close`, which is taken too. -/
def scanTo (close : Char) : Nat → List Char → Nat → List Char → Extent
  | _, _, _, [] => .runsOff
  | depth, before, skip + 1, c :: rest => (scanTo close depth (c :: before) skip rest).shift 1
  | depth, before, 0, c :: rest =>
    match token nested before (c :: rest) with
    | (.symbol, _) =>
      if c = opener close then (scanTo close (depth + 1) (c :: before) 0 rest).shift 1
      else if c = close then
        if depth = 0 then .upTo 1 else (scanTo close (depth - 1) (c :: before) 0 rest).shift 1
      else (scanTo close depth (c :: before) 0 rest).shift 1
    | (_, .upTo length) => (scanTo close depth (c :: before) (length - 1) rest).shift 1
    | (_, other) => other

end

section

variable [Alphanumerics]

/-- `_scan` in an interpolation or a quotation, `limit` levels above the recursion's end. -/
def nestedScan : Nat → Char → List Char → List Char → Extent
  | 0 => fun _ _ _ => .tooDeep
  | limit + 1 => fun close before text => scanTo (nestedScan limit) close 0 before 0 text

/-- A piece ends where its end was found, or runs to the end of the text. -/
structure Form where
  kind : Kind
  ended : Bool
  deriving DecidableEq

/-- One turn of `_scan`. -/
def nextPiece (limit : Nat) (before text : List Char) : Option (Form × Nat) :=
  match token (nestedScan limit) before text with
  | (_, .tooDeep) => none
  | (kind, .runsOff) => some (⟨kind, false⟩, text.length)
  | (kind, .upTo length) => some (⟨kind, true⟩, length)

abbrev Piece := Form × List Char

/-- The pieces of a text, `None` when it is nested too deeply. -/
def pieces (limit : Nat) (source : List Char) : Option (List Piece) :=
  Lexing.read (nextPiece limit) [] 0 source

variable [LiteralDigest]

/-- `_opaque`. -/
def opaqueToken (text : List Char) : List Char := '\x00' :: LiteralDigest.digits text ++ ['\x00']

/-- What `_scan` writes for a piece. -/
def Piece.code (piece : Piece) : List Char :=
  match piece.1.kind with
  | .lineComment => [' ']
  | .blockComment => ' ' :: piece.2.filter (· = '\n')
  | .literal => opaqueToken piece.2
  | .symbol => piece.2

def codeOf (list : List Piece) : List Char := list.flatMap Piece.code

omit [Alphanumerics] in
@[simp]
theorem codeOf_cons (piece : Piece) (list : List Piece) :
    codeOf (piece :: list) = piece.code ++ codeOf list := rfl

omit [Alphanumerics] in
@[simp]
theorem codeOf_append (first second : List Piece) :
    codeOf (first ++ second) = codeOf first ++ codeOf second :=
  List.flatMap_append

/-- `_scanned`. -/
def scanned (limit : Nat) (source : List Char) : Option (List Char) :=
  (pieces limit source).map codeOf

/-- `lean_code`. -/
def leanCode (limit : Nat) (source : List Char) : List Char := (scanned limit source).getD []

/-- `_END_MARK`. -/
def endMark : Char := '\x01'

/-- `_unterminated`. -/
def unterminated (limit : Nat) (text : List Char) : Bool :=
  match scanned limit (text ++ ['\n', endMark]) with
  | none => true
  | some code => code.getLast? ≠ some endMark

end

end Sources

end PhysHarness
