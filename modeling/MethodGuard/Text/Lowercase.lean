/-
# Lower case

Lower-casing is the full mapping of the Unicode Standard: character by character, except that the
capital I with a dot above becomes two characters and that a capital sigma at the end of a word
becomes a final sigma.  The end of a word is read off both neighbours, so the mapping of a text is
not put together from the mappings of its parts.
-/
import MethodGuard.Text.CaseData

namespace MethodGuard

namespace Lowercase

/-- The lower case of a character that has one of a single character, else the character. -/
def single (c : Char) : Char :=
  match CaseRun.all.find? fun run => run.holds c.toNat with
  | some run => Char.ofNat (c.toNat + run.shift).toNat
  | none => c

/-- Whether the first character that is not passed over is cased. -/
def casedAhead (cs : List Char) : Bool :=
  match cs.dropWhile CodePointSet.caseIgnorable.contains with
  | c :: _ => CodePointSet.cased.contains c
  | [] => false

/-- The lower case of a capital sigma between what precedes it, nearest first, and what follows. -/
def sigma (before after : List Char) : Char :=
  if casedAhead before && !casedAhead after then 'ς' else 'σ'

/-- The lower case of one character in its place. -/
def inPlace (before : List Char) (c : Char) (after : List Char) : List Char :=
  if c = 'Σ' then [sigma before after]
  else if c = 'İ' then ['i', '\u0307']
  else [single c]

/-- The lower case of the rest of a text, given what precedes it, nearest first. -/
def chars (before : List Char) : List Char → List Char
  | [] => []
  | c :: rest => inPlace before c rest ++ chars (c :: before) rest

end Lowercase

/-- The text in lower case. -/
def lowercase (s : String) : String := String.ofList (Lowercase.chars [] s.toList)

/-- Whether the characters of `part` stand together in `text`. -/
def occursIn (part : List Char) : List Char → Bool
  | [] => part.isEmpty
  | c :: rest => part.isPrefixOf (c :: rest) || occursIn part rest

end MethodGuard
