/-
Filters of a log: directives between commas, each with a target, a span in square brackets with fields
in curly ones, and a level behind an equals sign, all of which may be left out. The log of a process
is installed once; a later installation reads its filter and then fails.
-/

import AccessPolicy.Settings.Config
import AccessPolicy.Text.Alphanumeric
import AccessPolicy.Text.WhiteSpace

namespace AccessPolicy

namespace Filter

inductive Fault
  | directive
  | level
  deriving DecidableEq, Repr

def Fault.message : Fault → String
  | .directive => "invalid filter directive"
  | .level =>
    "error parsing level filter: expected one of \"off\", \"error\", \"warn\", \"info\", "
      ++ "\"debug\", \"trace\", or a number 0-5"

/-! ### Levels -/

def levelNames : List String := ["off", "error", "warn", "info", "debug", "trace"]

/-- A level is a name in any case, its number, or nothing. -/
def isLevel (text : String) : Bool :=
  text.isEmpty || levelNames.any (Text.sameIgnoringCase text)
    || match text.toList with
      | '+' :: digits => (Text.readNatural? digits).any (· ≤ 5)
      | digits => (Text.readNatural? digits).any (· ≤ 5)

/-! ### Directives -/

def isAlphanumeric (c : Char) : Bool := c.isAlphanum || Text.isWideAlphanumeric c

def opensTarget (c : Char) : Bool := c = '-' || c = ':' || c = '_' || isAlphanumeric c

/-- What a directive has come to; `behind` counts the bytes in front of its level. -/
inductive State
  | start
  | target
  | span
  | field (isEmpty : Bool)
  | fields
  | closed
  | level (behind : Nat)

/-- `place` counts the bytes up to and with the character. -/
def State.next? (state : State) (c : Char) (place : Nat) : Option State :=
  match state with
  | .start =>
    if c = '[' then some .span else if opensTarget c then some .target else none
  | .target =>
    some (if c = '=' then .level place else if c = '[' then .span else .target)
  | .span =>
    some (if c = ']' then .closed else if c = '\x7b' then .field true else .span)
  | .field isEmpty =>
    if c = '\x7d' then (if isEmpty then none else some .fields) else some (.field false)
  | .fields => if c = ']' then some .closed else none
  | .closed => if c = '=' then some (.level place) else none
  | .level behind => some (.level behind)

def scan? (state : State) (place : Nat) : List Char → Option State
  | [] => some state
  | c :: rest =>
    let place := place + c.utf8Size
    match state.next? c place with
    | none => none
    | some state => scan? state place rest

def dropBytes (count : Nat) : List Char → List Char
  | [] => []
  | c :: rest => if count = 0 then c :: rest else dropBytes (count - c.utf8Size) rest

/-- White space around a directive is skipped, but the place of its level counts from the start. -/
def checkDirective (directive : List Char) : Except Fault Unit :=
  match scan? .start 0 (Text.trim directive) with
  | some .target => .ok ()
  | some .closed => .ok ()
  | some (.level behind) =>
    if isLevel (String.ofList (dropBytes behind directive)) then .ok () else .error .level
  | _ => .error .directive

def splitDirectives (text : List Char) : List (List Char) :=
  text.foldr (fun c pieces =>
    match c, pieces with
    | ',', pieces => [] :: pieces
    | c, [] => [[c]]
    | c, piece :: pieces => (c :: piece) :: pieces) [[]]

def check (text : String) : Except Fault Unit :=
  (splitDirectives text.toList).forM fun directive =>
    if directive.isEmpty then .ok () else checkDirective directive

end Filter

/-- Installs the log of a process that has one already. A valid filter of the environment goes before
the level of the settings. -/
def LoggingConfig.reinstall (logging : LoggingConfig) (environment : Option String) :
    Except Error Unit := do
  let ignored := match environment with
    | some filter => (Filter.check filter).toBool
    | none => false
  if !ignored then
    (Filter.check logging.level).mapError fun fault =>
      .telemetry ("invalid log level '" ++ logging.level ++ "': " ++ fault.message)
  .error (.telemetry ("failed to install subscriber: a global default trace dispatcher has "
    ++ "already been set"))

end AccessPolicy
