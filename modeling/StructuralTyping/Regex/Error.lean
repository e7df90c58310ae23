/-!
# What can be wrong with a pattern

The reasons for which a pattern is refused, and their wording.  Characters are
held by their code points, since an escape may name a code point that is no
character.
-/

namespace StructuralTyping

/-- Why a pattern is not well formed. -/
inductive RegexError where
  | unterminatedComment
  | repeatCount
  | numberOutOfRange
  | unexpectedClose
  | missingClose
  | missingBrace
  | nestedRepeat
  | nothingToRepeat
  | tooManyAlternatives
  | unknownGroup (text : String)
  | groupName
  | groupZero
  | undefinedGroup (number : Nat)
  | undefinedName (name : String)
  | conditionCapture
  | conditionComment
  | malformedCondition (number : Nat)
  | undefinedCondition (number : Nat)
  | illegalEnd
  | incompleteProperty
  | unknownProperty (name : String)
  | fewHexDigits
  | hexTooLarge
  | malformedReference
  | classInRange (letter : Nat)
  | unterminatedSet
  | subtractionNotLast
  | reversedRange (low high : Nat)
  deriving DecidableEq, Repr

namespace RegexError

/-- A code point as text.  One that is no character shows as the replacement
character. -/
def codePointText (n : Nat) : String :=
  String.singleton (if n.isValidChar then Char.ofNat n else Char.ofNat 0xfffd)

/-- The wording of a reason. -/
def text : RegexError → String
  | .unterminatedComment => "unterminated comment"
  | .repeatCount => "invalid repeat count"
  | .numberOutOfRange => "capture group number out of range"
  | .unexpectedClose => "unexpected )"
  | .missingClose => "missing closing )"
  | .missingBrace => "missing closing \x7d"
  | .nestedRepeat => "invalid nested repetition operator"
  | .nothingToRepeat => "missing argument to repetition operator"
  | .tooManyAlternatives => "too many | in (?()|)"
  | .unknownGroup text => "unrecognized grouping construct: (" ++ text
  | .groupName =>
    "invalid group name: group names must begin with a word character " ++
      "and have a matching terminator"
  | .groupZero => "capture number cannot be zero"
  | .undefinedGroup n => "reference to undefined group number " ++ toString n
  | .undefinedName name => "reference to undefined group name " ++ name
  | .conditionCapture => "alternation conditions do not capture and cannot be named"
  | .conditionComment => "alternation conditions cannot be comments"
  | .malformedCondition n => "(?(" ++ toString n ++ ") ) malformed"
  | .undefinedCondition n => "(?(" ++ toString n ++ ") ) reference to undefined group"
  | .illegalEnd => "illegal \\ at end of pattern"
  | .incompleteProperty => "incomplete \\p\x7bX\x7d character escape"
  | .unknownProperty name => "unknown unicode category, script, or property '" ++ name ++ "'"
  | .fewHexDigits => "insufficient hexadecimal digits"
  | .hexTooLarge => "hex values may not be larger than 0x10FFFF"
  | .malformedReference => "malformed \\k<...> named back reference"
  | .classInRange letter => "cannot include class \\" ++ toString letter ++ " in character range"
  | .unterminatedSet => "unterminated [] set"
  | .subtractionNotLast => "a subtraction must be the last element in a character class"
  | .reversedRange low high =>
    "[" ++ codePointText low ++ "-" ++ codePointText high ++ "] range in reverse order"

end RegexError

end StructuralTyping
