/-
Names taken from types. The full name of a type is a path of identifiers joined by `::`, possibly
with arguments; its simple name is the last identifier in front of the arguments. A type that leaves
nothing in front of its brackets keeps its full name.
-/

namespace AccessPolicy.TypeName

def opensArguments (c : Char) : Bool := c = '<' || c = '(' || c = '[' || c = ';'

def afterSeparator? : List Char → Option (List Char)
  | [] => none
  | c :: rest =>
    match afterSeparator? rest with
    | some found => some found
    | none =>
      match c, rest with
      | ':', ':' :: behind => some behind
      | _, _ => none

def lastSegment (path : List Char) : List Char := (afterSeparator? path).getD path

def withoutArguments (full : List Char) : List Char :=
  full.takeWhile fun c => !opensArguments c

def simpleChars (full : List Char) : List Char :=
  match lastSegment (withoutArguments full) with
  | [] => full
  | name => name

def simple (full : String) : String := String.ofList (simpleChars full.toList)

end AccessPolicy.TypeName
