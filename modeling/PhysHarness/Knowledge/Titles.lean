import PhysHarness.Lib.Regex
import Mathlib.Data.List.Infix

/-!
Title fragments: how a title or a text is normalized to words, and how a fragment is looked for in a
text whose boundaries may be read joined or split.
-/
namespace PhysHarness

namespace Knowledge

open Regex (char text oneOf maybe many either seq group ahead notAhead behind sequence)

/-- The tables of `unicodedata`, `html` and `re`: the classes and the case folding of characters. -/
class UnicodeText where
  /-- `html.unescape` -/
  unescape : List Char → List Char
  /-- `unicodedata.normalize("NFKD", text)` -/
  nfkd : List Char → List Char
  casefold : List Char → List Char
  /-- `[^\W\d_]` -/
  isLetter : Char → Bool
  /-- `\d` -/
  isDigit : Char → Bool
  /-- `\s` -/
  isSpace : Char → Bool
  /-- of category `Cf` -/
  isFormat : Char → Bool
  isCombining : Char → Bool
  word_not_space : ∀ c, isLetter c = true ∨ isDigit c = true → isSpace c = false
  space : isSpace ' ' = true
  softJoin : isLetter '\x00' = false ∧ isDigit '\x00' = false

variable [UnicodeText]

open UnicodeText

/-! ### Marking -/

def softJoin : Char := '\x00'

def softSplit : Char := '\x01'

def softMarks : List Char := [softJoin, softSplit]

/-- `[a-z]` under `IGNORECASE` -/
def isTagLetter (c : Char) : Bool :=
  c.isAlpha || c.toNat ∈ [0x130, 0x131, 0x17F, 0x212A]

def isHyphen (c : Char) : Bool := c.toNat ∈ [0x2D, 0x2010, 0x2011]

def spaces : Regex := many (.set UnicodeText.isSpace)

def letter : Regex := .set isLetter

def notLetterAhead : Regex := notAhead (.set Char.isAlpha)

def tag : Regex :=
  sequence [char '<', maybe (char '/'), .set isTagLetter, many (.set fun c => isTagLetter c || c.isDigit),
    maybe (seq (.set UnicodeText.isSpace) (many (.set fun c => c ≠ '<' && c ≠ '>'))), maybe (char '/'), char '>']

def softHyphenBreak : Regex := seq (.set fun c => c.toNat = 0xAD) (.some (.set UnicodeText.isSpace))

def lineBreakHyphen : Regex :=
  sequence [behind isLetter, .set isHyphen, many (.set fun c => c = ' ' || c = '\t'), maybe (char '\r'),
    char '\n', spaces, ahead letter]

def spacedHyphen : Regex :=
  sequence [behind isLetter, .set isHyphen, .some (.set UnicodeText.isSpace), ahead letter]

def texLetter : Regex :=
  sequence [char '\\', group 1 (oneOf ["ss", "ae", "AE", "oe", "OE", "aa", "AA", "o", "O", "l", "L", "i", "j"]),
    notLetterAhead, spaces, maybe (text "\x7b\x7d")]

def texLetters : List (String × String) :=
  [("ss", "ss"), ("ae", "ae"), ("oe", "oe"), ("aa", "a"), ("o", "o"), ("l", "l"), ("i", "i")]

def latexAccent : Regex :=
  sequence [char '\\',
    either (.set fun c => c ∈ ['"', Char.ofNat 0x27, Char.ofNat 0x60, '^', '~', '=', '.'])
      (seq (.set fun c => c ∈ "uvHckbdrt".toList) notLetterAhead),
    spaces,
    either (sequence [char '\x7b', spaces, group 1 letter, spaces, char '\x7d']) (group 2 letter)]

def latexVar : Regex :=
  seq (text "\\var") (ahead (seq (oneOf ["epsilon", "phi", "theta", "pi", "rho", "sigma", "kappa"]) notLetterAhead))

def latexStyle : Regex :=
  let small := many (.set Char.isLower)
  let words := [seq (text "math") small, seq (text "text") small, text "emph", text "operatorname",
    text "boldsymbol", text "bm", text "rm", text "bf", text "it", text "sf", text "tt", text "cal", text "scr",
    text "frak", text "left", text "right",
    sequence [.set fun c => c = 'b' || c = 'B', text "ig", .some (char 'g'), maybe (.set fun c => c = 'l' || c = 'r')]]
  sequence [char '\\', words.foldr either (.set fun _ => false), notLetterAhead, maybe (char '*')]

def latexCommand : Regex := seq (char '\\') (group 1 (.some (.set Char.isAlpha)))

/-- The last words of the names of the Greek letters from `0x391` on. -/
def greekNames : List String :=
  let letters := ["alpha", "beta", "gamma", "delta", "epsilon", "zeta", "eta", "theta", "iota", "kappa", "lamda",
    "mu", "nu", "xi", "omicron", "pi", "rho"]
  let rest := ["sigma", "tau", "upsilon", "phi", "chi", "psi", "omega"]
  letters ++ [""] ++ rest ++ ["dialytika", "dialytika", "tonos", "tonos", "tonos", "tonos", "tonos"] ++
    letters ++ ["sigma"] ++ rest

/-- `_FOLD` of one character -/
def fold (c : Char) : List Char :=
  if 0x391 ≤ c.toNat ∧ c.toNat < 0x3CA ∧ c.toNat ≠ 0x3A2 then
    (" " ++ (greekNames.getD (c.toNat - 0x391) "") ++ " ").toList
  else
    match c with
    | 'ø' => ['o']
    | 'ł' => ['l']
    | 'đ' => ['d']
    | 'ð' => ['d']
    | 'æ' => ['a', 'e']
    | 'œ' => ['o', 'e']
    | 'ħ' => ['h']
    | 'ı' => ['i']
    | 'ŀ' => ['l']
    | 'þ' => ['t', 'h']
    | c => [c]

/-- `_unescape`: at most four times -/
def unescaped : Nat → List Char → List Char
  | 0, text => text
  | times + 1, text => if unescape text = text then text else unescaped times (unescape text)

/-- `_marked` -/
def marked (text : String) : List Char :=
  let plain := (unescaped 4 text.toList).map fun c => if c ∈ softMarks then ' ' else c
  let broken := softHyphenBreak.sub (fun _ => [softJoin]) (tag.sub (fun _ => [' ']) plain)
  let hyphens := spacedHyphen.sub (fun _ => [softSplit]) (lineBreakHyphen.sub (fun _ => [softJoin]) broken)
  let letters := texLetter.sub (fun found =>
    let name := (found.group 1).getD []
    match texLetters.find? fun entry => entry.1.toList = name.map Char.toLower with
    | some (_, letter) => letter.toList
    | none => name) hyphens
  let accents := latexAccent.sub (fun found => ((found.group 1).or (found.group 2)).getD []) letters
  let vars := latexVar.sub (fun _ => ['\\']) accents
  let styles := latexStyle.sub (fun _ => [' ']) vars
  let commands := latexCommand.sub (fun found => ' ' :: (found.group 1).getD [] ++ [' ']) styles
  let folded := casefold (nfkd (commands.map fun c => if c = '\x7b' ∨ c = '\x7d' then softJoin else c))
  let visible :=
    if folded.all fun c => c.toNat < 128 then folded
    else (folded.filter fun c => !isCombining c).map fun c => if isFormat c then softJoin else c
  visible.flatMap fold

/-! ### Words and boundaries -/

inductive Gap where
  | hard | join | split
  deriving DecidableEq

/-- `_WORD` -/
def wordPattern : Regex := either (.some letter) (.some (.set isDigit))

def gapOf (gap : List Char) : Gap :=
  if gap ≠ [] ∧ gap.all (· ∈ softMarks) then (if softSplit ∈ gap then .split else .join) else .hard

/-- `_title_tokens` -/
def titleTokens (text : String) : List (List Char) × List Gap :=
  let (found, _) := wordPattern.finditer (marked text)
  (found.map Regex.Found.taken, found.tail.map fun found => gapOf found.gap)

/-- `normalize_title` -/
def normalizeTitle (text : String) : List Char :=
  let (words, gaps) := titleTokens text
  match words with
  | [] => []
  | word :: words =>
    word ++ (gaps.zip words).flatMap fun (gap, word) => (if gap = .join then [] else [' ']) ++ word

/-- `str.split` -/
def splitWords (text : List Char) : List (List Char) := (text.splitOnP UnicodeText.isSpace).filter (· ≠ [])

/-- One word of `_soft_pattern` -/
def softWord : List Char → Regex
  | [] => .empty
  | [c] => char c
  | c :: word => seq (char c) (seq (maybe (char softJoin)) (softWord word))

def isBoundary (c : Char) : Bool := c = ' ' || c = softJoin

def softWords : List (List Char) → Regex
  | [] => .empty
  | [word] => softWord word
  | word :: words => seq (softWord word) (seq (.set isBoundary) (softWords words))

/-- `_soft_pattern` -/
def softPattern (title : List Char) : Regex :=
  seq (behind isBoundary) (seq (softWords (splitWords title)) (ahead (.set isBoundary)))

/-- `_title_hit` -/
def titleHit (titles : List (List Char)) (text : String) : Bool :=
  if titles = [] then false
  else
    let (words, gaps) := titleTokens text
    if gaps.all (· = .hard) then
      let haystack := [' '] ++ [' '].intercalate words ++ [' ']
      titles.any fun title => decide ([' '] ++ title ++ [' '] <:+: haystack)
    else
      let compact := words.flatten
      let haystack := ((Gap.hard :: gaps).zip words).flatMap fun (gap, word) =>
        (if gap = .hard then ' ' else softJoin) :: word
      titles.any fun title =>
        decide (title.filter (· ≠ ' ') <:+: compact) && ((softPattern title).search (haystack ++ [' '])).isSome

end Knowledge

end PhysHarness
