import DurableFlow.Text.Invisible

/-! # Texts in quotation marks

Descriptions for log lines show texts within quotation marks. A quotation mark and a backslash are
written behind a backslash, some controls by a letter, and other characters that do not show by
their number.
-/

namespace DurableFlow.Text

/-- How a character is written within quotation marks. -/
def quoteChar (c : Char) : String :=
  if c = '"' then "\\\""
  else if c = '\\' then "\\\\"
  else if c = '\t' then "\\t"
  else if c = '\n' then "\\n"
  else if c = '\r' then "\\r"
  else if c.toNat = 0 then "\\0"
  else if isInvisible c then
    "\\u\x7b" ++ String.ofList (Nat.toDigits 16 c.toNat) ++ "\x7d"
  else String.singleton c

def quote (text : String) : String := "\"" ++ String.join (text.toList.map quoteChar) ++ "\""

end DurableFlow.Text
