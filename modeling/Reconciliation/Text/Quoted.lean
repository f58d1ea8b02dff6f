/-
# Quoted text

Messages quote the texts they complain about so that every character can be seen:
quotes and backslashes are escaped, the common controls have short escapes, and a
character that does not show is given by its code point in hexadecimal.
-/

import Reconciliation.Text.Decimal
import Reconciliation.Text.Hidden

namespace Reconciliation

/-- One character inside a quoted text. -/
def quotedChar (c : Char) : List Char :=
  if c = '"' then ['\\', '"']
  else if c = '\\' then ['\\', '\\']
  else if c = '\n' then ['\\', 'n']
  else if c = '\r' then ['\\', 'r']
  else if c = '\t' then ['\\', 't']
  else if c = '\x00' then ['\\', '0']
  else if isHidden c then '\\' :: 'u' :: '{' :: (hexadecimal c.toNat ++ ['}'])
  else [c]

/-- A text in quotes. -/
def quoted (s : String) : String :=
  String.ofList ('"' :: (s.toList.flatMap quotedChar ++ ['"']))

end Reconciliation
