/-
Lower case, as far as a comparison with an ASCII word can tell. Of the characters outside ASCII only
the kelvin sign and the dotted capital I have an ASCII character in their lower case; every other
one has a lower case outside ASCII and stands for itself here.
-/

namespace AccessPolicy.Text

def kelvinSign : Char := '\u212a'

def dottedCapitalI : Char := '\u0130'

def combiningDotAbove : Char := '\u0307'

def lowerChar (c : Char) : List Char :=
  if c = kelvinSign then ['k']
  else if c = dottedCapitalI then ['i', combiningDotAbove]
  else [c.toLower]

def lower (text : String) : String := String.ofList (text.toList.flatMap lowerChar)

/-- Equality of a text with an ASCII word where only ASCII letters lose their case. -/
def sameIgnoringCase (text word : String) : Bool :=
  text.toList.map Char.toLower = word.toList.map Char.toLower

end AccessPolicy.Text
