/-
Settings in YAML, in the block style that files of settings are written in: tables and lists by
indentation, scalars plain, quoted or in blocks, and flow collections. A text holds at most one
document; anchors, tags and keys that are no scalars are not read.
-/

import AccessPolicy.Settings.Yaml.Flow

namespace AccessPolicy.Yaml

structure Line where
  indent : Nat
  text : List Char

def Line.of (chars : List Char) : Line :=
  let text := chars.dropWhile fun c => c = ' '
  { indent := chars.length - text.length, text }

def Line.chars (line : Line) : List Char := List.replicate line.indent ' ' ++ line.text

def isIdle (text : List Char) : Bool :=
  match skipBlanks text with
  | [] => true
  | '#' :: _ => true
  | _ => false

def skipIdle (lines : List Line) : List Line := lines.dropWhile fun line => isIdle line.text

def isTail (text : List Char) : Bool :=
  match text with
  | [] => true
  | c :: _ => isBlank c && isIdle text

/-- Puts text back in front of lines, so that what is left of a line counts again. -/
def joinLines (text : List Char) (lines : List Line) : List Char :=
  lines.foldl (fun chars line => chars ++ '\n' :: line.chars) text

def cutLines (rest : List Char) : List Char × List Line :=
  match splitLines rest with
  | [] => ([], [])
  | first :: lines => (first, lines.map Line.of)

/-! ### Scalars in blocks -/

/-- The lines of a block, and what follows them. A block goes on while lines are empty or indented by
at least `outer`. -/
def takeBlock (outer : Nat) : List Line → List Line × List Line
  | [] => ([], [])
  | line :: lines =>
    if line.text.isEmpty || outer ≤ line.indent then
      let (block, rest) := takeBlock outer lines
      (line :: block, rest)
    else ([], line :: lines)

def blockLines (depth : Nat) (block : List Line) : List (List Char) :=
  block.map fun line => line.chars.drop depth

inductive Chomp
  | strip
  | clip
  | keep
  deriving DecidableEq, Repr

def startsBlank (line : List Char) : Bool := line.head?.elim false isBlank

/-- The lines behind one that starts with a blank, or not. Line ends around such lines are kept. -/
def foldBlock (blank : Bool) (ends : Nat) : List (List Char) → List Char
  | [] => []
  | line :: lines =>
    if line.isEmpty then foldBlock blank (ends + 1) lines
    else
      let kept := blank || startsBlank line
      (if kept then List.replicate (ends + 1) '\n' else joint ends) ++ line
        ++ foldBlock (startsBlank line) 0 lines

def folded (lines : List (List Char)) : List Char :=
  match lines.dropWhile List.isEmpty with
  | [] => []
  | line :: others =>
    List.replicate (lines.length - others.length - 1) '\n' ++ line
      ++ foldBlock (startsBlank line) 0 others

def blockText (fold : Bool) (chomp : Chomp) (lines : List (List Char)) : String :=
  let behind := (lines.reverse.takeWhile List.isEmpty).length
  let content := lines.take (lines.length - behind)
  let body := if fold then folded content else ['\n'].intercalate content
  let ending := match chomp with
    | .strip => []
    | .clip => if content.isEmpty then [] else ['\n']
    | .keep => List.replicate (behind + if content.isEmpty then 0 else 1) '\n'
  String.ofList (body ++ ending)

def blockHeader? (text : List Char) : Option (Chomp × Option Nat) :=
  let chompOf (c : Char) : Option Chomp :=
    if c = '-' then some .strip else if c = '+' then some .keep else none
  let depthOf (c : Char) : Option Nat :=
    if Text.isDigit c && c ≠ '0' then some (Text.digitValue c) else none
  match text.takeWhile (fun c => !isBlank c), isTail (text.dropWhile fun c => !isBlank c) with
  | [], true => some (.clip, none)
  | [c], true => ((chompOf c).map (·, none)).or ((depthOf c).map (Chomp.clip, some ·))
  | [c, d], true =>
    match chompOf c, depthOf d, depthOf c, chompOf d with
    | some chomp, some depth, _, _ => some (chomp, some depth)
    | _, _, some depth, some chomp => some (chomp, some depth)
    | _, _, _, _ => none
  | _, _ => none

def block? (fold : Bool) (outer : Nat) (header : List Char) (lines : List Line) :
    Option (Setting × List Line) := do
  let (chomp, depth) ← blockHeader? header
  let (block, rest) := takeBlock outer lines
  let first := (block.find? fun line => !line.text.isEmpty).map Line.indent
  let depth := match depth with
    | some depth => outer - 1 + depth
    | none => first.getD outer
  return (.text (blockText fold chomp (blockLines depth block)), rest)

/-! ### Nodes -/

def isItem (text : List Char) : Bool :=
  match text with
  | '-' :: rest => endsKey false rest
  | _ => false

def keyLine? (text : List Char) : Option (String × List Char) := do
  let (name, rest) ← key? false text
  match skipBlanks rest with
  | ':' :: behind => if endsKey false behind then some (name, behind) else none
  | _ => none

/-- The lines that continue a plain scalar, up to the first that is not deeper than what holds it. -/
def continued (outer : Nat) : List Line → List Line × List Line
  | [] => ([], [])
  | line :: lines =>
    if line.text.isEmpty || (outer ≤ line.indent && !isIdle line.text) then
      let (more, rest) := continued outer lines
      (line :: more, rest)
    else ([], line :: lines)

def plainLines? (outer : Nat) (text : List Char) (lines : List Line) :
    Option (Setting × List Line) := do
  let (word, rest) ← plainWord? false text
  if !isTail rest then none
  else if !rest.isEmpty && !isEmptyLine rest then return (plain word, lines)
  else
    let (more, after) := continued outer lines
    if more.all fun line => isEmptyLine line.text then return (plain word, lines)
    else
      let words := more.map fun line => plainChars false line.text
      let bad := (more.zip words).any fun (line, word) => !isTail (line.text.drop word.length)
      if bad then none
      else return (plain (String.ofList (foldLines (word.toList :: words.map trimEnd))), after)

def inline? (outer : Nat) (text : List Char) (lines : List Line) : Option (Setting × List Line) :=
  let closed : Setting × List Char → Option (Setting × List Line)
    | (value, rest) =>
      let (tail, lines) := cutLines rest
      if isTail tail then some (value, lines) else none
  match text with
  | '|' :: header => block? false outer header lines
  | '>' :: header => block? true outer header lines
  | c :: _ =>
    if c = '[' || c = '\x7b' then (flow? (joinLines text lines)).bind closed
    else if startsQuoted text then
      (quoted? (joinLines text lines)).bind fun (value, rest) => closed (.text value, rest)
    else plainLines? outer text lines
  | [] => none

mutual

/-- The node on the lines that are indented by at least `outer`; there may be none. -/
def node? (fuel outer : Nat) (lines : List Line) : Option (Setting × List Line) :=
  match fuel, skipIdle lines with
  | 0, _ => none
  | _ + 1, [] => some (.absent, [])
  | fuel + 1, line :: rest =>
    if line.indent < outer then some (.absent, line :: rest)
    else if isItem line.text then
      (items? fuel line.indent (line :: rest)).map fun (items, rest) => (.list items, rest)
    else if (keyLine? line.text).isSome then
      (entries? fuel line.indent [] (line :: rest)).map fun (entries, rest) =>
        (.table entries, rest)
    else inline? outer line.text rest

/-- The items at an indentation. What follows a dash stands as deep as it is written. -/
def items? (fuel depth : Nat) (lines : List Line) : Option (List Setting × List Line) :=
  match fuel, skipIdle lines with
  | 0, _ => none
  | _ + 1, [] => some ([], [])
  | fuel + 1, line :: rest =>
    if line.indent < depth || (line.indent = depth && !isItem line.text) then
      some ([], line :: rest)
    else if depth < line.indent then none
    else do
      let behind := Line.of (' ' :: line.text.drop 1)
      let inner : Line := { behind with indent := behind.indent + depth }
      let (item, rest) ← node? fuel (depth + 1) (inner :: rest)
      let (items, rest) ← items? fuel depth rest
      return (item :: items, rest)

def entries? (fuel depth : Nat) (entries : List (String × Setting)) (lines : List Line) :
    Option (List (String × Setting) × List Line) :=
  match fuel, skipIdle lines with
  | 0, _ => none
  | _ + 1, [] => some (entries, [])
  | fuel + 1, line :: rest =>
    if line.indent < depth then some (entries, line :: rest)
    else if depth < line.indent then none
    else do
      let (name, behind) ← keyLine? line.text
      let (value, rest) ← entryValue? fuel depth behind rest
      entries? fuel depth (Setting.putEntry name value entries) rest

/-- The value behind a colon: on the same line, or on the lines below. A list below may stand as deep
as its key. -/
def entryValue? (fuel depth : Nat) (behind : List Char) (rest : List Line) :
    Option (Setting × List Line) :=
  match fuel with
  | 0 => none
  | fuel + 1 =>
    if !isIdle behind then inline? (depth + 1) (skipBlanks behind) rest
    else match skipIdle rest with
      | line :: rest =>
        if line.indent = depth && isItem line.text then
          (items? fuel depth (line :: rest)).map fun (items, rest) => (.list items, rest)
        else node? fuel (depth + 1) (line :: rest)
      | [] => some (.absent, [])

end

/-! ### Documents -/

def isMarker (mark : String) (line : Line) : Bool :=
  line.indent = 0 && line.text.take 3 = mark.toList && endsKey false (line.text.drop 3)

def isStart (line : Line) : Bool := isMarker "---" line

def isEnd (line : Line) : Bool := isMarker "..." line

def hasTab (line : Line) : Bool :=
  match line.text with
  | '\t' :: _ => !isIdle line.text
  | _ => false

def unifyLineEnds : List Char → List Char
  | '\r' :: '\n' :: rest => '\n' :: unifyLineEnds rest
  | '\r' :: rest => '\n' :: unifyLineEnds rest
  | c :: rest => c :: unifyLineEnds rest
  | [] => []

def body? (lines : List Line) : Option (List Line) :=
  let lines := skipIdle lines
  let lines := match lines with
    | line :: rest =>
      if isStart line then Line.of ("   ".toList ++ line.text.drop 3) :: rest else lines
    | [] => []
  let body := lines.takeWhile fun line => !isStart line && !isEnd line
  let behind := skipIdle (lines.drop body.length)
  let behind := match behind with
    | line :: rest => if isEnd line then skipIdle rest else behind
    | [] => []
  if behind.isEmpty && !body.any hasTab then some body else none

/-- The last line end ends a line and starts none. -/
def linesOf (text : List Char) : List Line :=
  let lines := splitLines text
  (if lines.getLast? = some [] then lines.dropLast else lines).map Line.of

def read? (text : String) : Option Setting := do
  let body ← body? (linesOf (unifyLineEnds text.toList))
  let (value, rest) ← node? (4 * text.length + 4) 0 body
  if (skipIdle rest).isEmpty then return value else none

end AccessPolicy.Yaml
