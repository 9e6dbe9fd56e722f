import TschLearning.Text.Printable

/-! Texts in quotes. Single quotes are used unless the text holds one and no
double quote; characters that would not show are written by their code. -/

namespace TschLearning.Text

/-- The lower-case hexadecimal digits of a number, at least `width` of them. -/
def hexadecimal (width n : Nat) : String :=
  let digits := String.ofList (Nat.toDigits 16 n)
  "".pushn '0' (width - digits.length) ++ digits

/-- The code of a character that does not show, in the shortest of three forms. -/
def escapedCode (c : Char) : String :=
  if c.toNat < 0x100 then "\\x" ++ hexadecimal 2 c.toNat
  else if c.toNat < 0x10000 then "\\u" ++ hexadecimal 4 c.toNat
  else "\\U" ++ hexadecimal 8 c.toNat

/-- One character inside quotes of the given kind. -/
def escaped (quote c : Char) : String :=
  if c == quote then "\\" ++ c.toString
  else match c with
    | '\\' => "\\\\"
    | '\n' => "\\n"
    | '\r' => "\\r"
    | '\t' => "\\t"
    | c => if isPrintable c then c.toString else escapedCode c

/-- The quotes that a text stands in. -/
def quoteFor (s : String) : Char :=
  if s.toList.contains '\'' && !s.toList.contains '"' then '"' else '\''

def quoted (s : String) : String :=
  let q := quoteFor s
  q.toString ++ String.join (s.toList.map (escaped q)) ++ q.toString

end TschLearning.Text
