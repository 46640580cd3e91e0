import PatternHarvest.Grammar.Rule

/-!
# The tokens of Java

Every token that is not a fixed text is given here by its pattern, in the order that decides
between tokens of equal standing. The fixed texts that have nodes of their own come last.
-/

namespace PatternHarvest.Java

open PatternHarvest.Grammar

namespace Lexicon

open Regex

/-! ## Classes of characters -/

/-- Any of the characters of a text. -/
def oneOf (s : String) : Regex :=
  chars (.ofList s.toList)

/-- Any character but those of a text. -/
def noneOf (s : String) : Regex :=
  chars (.compl (.ofList s.toList))

/-- Exactly a text. -/
def exactly (s : String) : Regex :=
  text s.toList

/-- A decimal digit. -/
def digit : CharSet := .range '0' '9'

/-- An octal digit. -/
def octalDigit : CharSet := .range '0' '7'

/-- A hexadecimal digit. -/
def hexDigit : CharSet := .union digit (.union (.range 'a' 'f') (.range 'A' 'F'))

/-! ## Numbers -/

/-- Groups of digits of a class, with single underscores between. -/
def groups (digits : CharSet) : Regex :=
  separated (plus (chars digits)) (exactly "_")

/-- Zero, or a number that does not begin with zero; between its groups of digits may stand any
number of underscores. -/
def digits : Regex :=
  any [exactly "0",
    all [chars (.range '1' '9'),
      opt (all [opt (exactly "_"), separated (plus (chars digit)) (plus (exactly "_"))])]]

/-- The mark of a long number. -/
def longMark : Regex := opt (oneOf "lL")

/-- The mark of a floating point number. -/
def floatMark : Regex := oneOf "fFdD"

/-- A sign, or none. -/
def sign : Regex := opt (oneOf "+-")

/-- A decimal exponent. -/
def exponent : Regex := all [oneOf "eE", sign, groups digit]

def decimalInteger : Regex :=
  all [digits, longMark]

def hexInteger : Regex :=
  all [any [exactly "0x", exactly "0X"], groups hexDigit, longMark]

def octalInteger : Regex :=
  all [any [exactly "0o", exactly "0O", exactly "0"], groups octalDigit, longMark]

def binaryInteger : Regex :=
  all [any [exactly "0b", exactly "0B"], groups (.range '0' '1'), longMark]

def decimalFloat : Regex :=
  any [
    all [groups digit, exactly ".", opt (groups digit), opt exponent, opt floatMark],
    all [exactly ".", groups digit, opt exponent, opt floatMark],
    all [digits, exponent, opt floatMark],
    all [digits, opt exponent, floatMark]]

def hexFloat : Regex :=
  all [
    any [exactly "0x", exactly "0X"],
    any [
      all [groups hexDigit, opt (exactly ".")],
      all [opt (groups hexDigit), exactly ".", groups hexDigit]],
    opt (all [oneOf "pP", sign, digits, opt floatMark])]

/-! ## Characters and strings -/

/-- A character literal, of any number of characters. -/
def character : Regex :=
  all [exactly "'",
    plus (any [noneOf "\\'\n", all [exactly "\\", noneOf "\n"], exactly "\\\n"]),
    exactly "'"]

/-- A run of plain characters in a string. -/
def stringFragment : Regex :=
  plus (noneOf "\"\\")

/-- A quote in a text block, with what follows it up to the next quote or escape. -/
def quotedFragment : Regex :=
  all [exactly "\"", star (any [noneOf "\"\\", exactly "\\\""])]

/-- A backslash in a text block before a character that it does not escape. -/
def looseEscape : Regex :=
  all [exactly "\\", noneOf "bfnrts'\"\\"]

def escapeSequence : Regex :=
  all [exactly "\\",
    any [
      chars (.compl (.union (.ofList ['x', 'u']) octalDigit)),
      any [chars octalDigit, times (chars octalDigit) 2, times (chars octalDigit) 3],
      all [exactly "x", times (chars hexDigit) 2],
      all [exactly "u", times (chars hexDigit) 4],
      all [exactly "u\x7b", plus (chars hexDigit), exactly "\x7d"]]]

/-! ## Words and comments -/

def identifier : Regex :=
  all [
    chars (.union .idStart (.ofList ['_', '$'])),
    star (chars (.union .idContinue (.ofList ['\u00A2', '_', '$'])))]

def lineComment : Regex :=
  all [exactly "//", star (noneOf "\n")]

def blockComment : Regex :=
  all [exactly "/*",
    star (noneOf "*"), plus (exactly "*"),
    star (all [noneOf "/*", star (noneOf "*"), plus (exactly "*")]),
    exactly "/"]

end Lexicon

open Lexicon in
/-- The tokens of Java that have nodes of their own. -/
def tokens : List TokenRule := [
  { kind := "decimal_integer_literal", pattern := decimalInteger },
  { kind := "hex_integer_literal", pattern := hexInteger },
  { kind := "octal_integer_literal", pattern := octalInteger },
  { kind := "binary_integer_literal", pattern := binaryInteger },
  { kind := "decimal_floating_point_literal", pattern := decimalFloat },
  { kind := "hex_floating_point_literal", pattern := hexFloat },
  { kind := "character_literal", pattern := character },
  { kind := "string_fragment", pattern := stringFragment, immediate := true, level := 1,
    piece := true },
  { kind := "plain_fragment", pattern := stringFragment, rank := 0, piece := true },
  { kind := "quoted_fragment", pattern := quotedFragment, rank := 0, piece := true },
  { kind := "loose_escape", pattern := looseEscape, immediate := true, piece := true },
  { kind := "escape_sequence", pattern := escapeSequence, immediate := true, piece := true },
  { kind := "identifier", pattern := identifier, rank := 0 },
  { kind := "line_comment", pattern := lineComment },
  { kind := "block_comment", pattern := blockComment },
  .ofText "true" "true" true,
  .ofText "false" "false" true,
  .ofText "null_literal" "null" true,
  .ofText "underscore_pattern" "_" true,
  .ofText "boolean_type" "boolean" true,
  .ofText "void_type" "void" true,
  .ofText "this" "this" true,
  .ofText "super" "super" true]

end PatternHarvest.Java
