/-!
What can be wrong with the text of a pattern.
-/

namespace Taproom.Regex

inductive Fault where
  | missingArgument (part : String)
  | nestedRepetition (part : String)
  | repeatCount (part : String)
  | missingParen (part : String)
  | unexpectedParen (part : String)
  | missingBracket (part : String)
  | charRange (part : String)
  | escape (part : String)
  | groupOption (part : String)
  | captureName (part : String)
  | trailingBackslash
  | nesting (part : String)
  | large (part : String)
  deriving DecidableEq, Repr

namespace Fault

def message : Fault → String
  | missingArgument p => text "missing argument to repetition operator" p
  | nestedRepetition p => text "invalid nested repetition operator" p
  | repeatCount p => text "invalid repeat count" p
  | missingParen p => text "missing closing )" p
  | unexpectedParen p => text "unexpected )" p
  | missingBracket p => text "missing closing ]" p
  | charRange p => text "invalid character class range" p
  | escape p => text "invalid escape sequence" p
  | groupOption p => text "invalid or unsupported Perl syntax" p
  | captureName p => text "invalid named capture" p
  | trailingBackslash => text "trailing backslash at end of expression" ""
  | nesting p => text "expression nests too deeply" p
  | large p => text "expression too large" p
where
  text (problem part : String) : String := s!"error parsing regexp: {problem}: `{part}`"

end Fault

end Taproom.Regex
