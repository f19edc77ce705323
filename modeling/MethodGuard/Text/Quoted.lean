/-
# Quoted text

A string is quoted by writing it between double quotes with six characters escaped by a letter or
by themselves, and with every character that has no visible form of its own, or that would combine
with the character before it, spelled as its code point.  Messages quote map keys and string
values this way, and lists and sets of names in log records are made of quoted names.
-/
import MethodGuard.Text.Hexadecimal
import MethodGuard.Text.Printable

namespace MethodGuard

namespace Quoted

/-- The code point in hexadecimal digits, without leading zeros. -/
def spelled (c : Char) : List Char :=
  '\\' :: 'u' :: '\x7b' :: (Hexadecimal.digits c.toNat ++ ['\x7d'])

/-- Whether a character stands for itself inside quotes. -/
def isShown (c : Char) : Bool :=
  (decide (' ' ≤ c) && decide (c ≤ '~')) || !(isInvisible c || isCombining c)

/-- One character inside quotes. -/
def escape (c : Char) : List Char :=
  if c = '\x00' then ['\\', '0']
  else if c = '\t' then ['\\', 't']
  else if c = '\r' then ['\\', 'r']
  else if c = '\n' then ['\\', 'n']
  else if c = '\\' then ['\\', '\\']
  else if c = '"' then ['\\', '"']
  else if isShown c then [c]
  else spelled c

/-- The quoted form of a list of characters. -/
def chars (cs : List Char) : List Char := '"' :: (cs.flatMap escape ++ ['"'])

end Quoted

/-- The string in double quotes, with escapes. -/
def quoted (s : String) : String := String.ofList (Quoted.chars s.toList)

/-- Texts between brackets, separated by commas. -/
def bracketed (texts : List String) : String := "[" ++ ", ".intercalate texts ++ "]"

/-- Texts between braces, separated by commas. -/
def braced (texts : List String) : String := "\x7b" ++ ", ".intercalate texts ++ "\x7d"

/-- The quoted names of a list, in brackets. -/
def quotedList (names : List String) : String := bracketed (names.map quoted)

/-- The quoted names of a set, in braces. -/
def quotedSet (names : List String) : String := braced (names.map quoted)

end MethodGuard
