/-!
# Quoted text

How a text is written in JSON: between quotes, with a backslash before a quote, before a backslash
and in place of every control character. All other characters stand for themselves, DEL and
everything outside ASCII included.
-/

namespace Settle.Json

/-- How one character is written between quotes. -/
def escape (c : Char) : List Char :=
  if c = '"' then ['\\', '"']
  else if c = '\\' then ['\\', '\\']
  else if c = '\x08' then ['\\', 'b']
  else if c = '\t' then ['\\', 't']
  else if c = '\n' then ['\\', 'n']
  else if c = '\x0c' then ['\\', 'f']
  else if c = '\r' then ['\\', 'r']
  else if c.toNat < 0x20 then
    ['\\', 'u', '0', '0', Nat.digitChar (c.toNat / 16), Nat.digitChar (c.toNat % 16)]
  else [c]

/-- A text between quotes. -/
def quoted (cs : List Char) : List Char :=
  '"' :: (cs.flatMap escape ++ ['"'])

end Settle.Json
