import Retrieval.Enumeration
import Retrieval.Text.Blank

/-!
# Encodings

The encoding of a text decides which characters are blanks between words.
-/

namespace Retrieval

/-- The encoding of a text. -/
inductive Encoding where
  | unspecified
  | ascii
  | eucJp
  | utf8
  | shiftJis
deriving DecidableEq, Repr

namespace Encoding

instance : Enumeration Encoding where
  values := [unspecified, ascii, eucJp, utf8, shiftJis]
  name
    | unspecified => "default"
    | ascii => "none"
    | eucJp => "euc_jp"
    | utf8 => "utf8"
    | shiftJis => "sjis"

/-- Whether a character separates words. The plainest encoding knows the blanks of ASCII only,
and every other one has all blanks. -/
def isSpace : Encoding → Char → Bool
  | ascii => Text.isAsciiBlank
  | _ => Text.isBlank

end Encoding

end Retrieval
