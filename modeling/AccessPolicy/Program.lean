/-
Programs: what an information point does, as the tree of its requests. A node asks the context for
something and goes on with the answer, whatever it is; a leaf is the outcome. A failed request is an
answer like any other, so a program may pass a failure on, replace it or ask again.
-/

import AccessPolicy.Attribute.Key

namespace AccessPolicy

/-- How many requests of a context were answered from its cache, and how many by running an
information point with success. No run makes enough requests for the counts to need a bound. -/
structure ResolutionStats where
  cacheHits : Nat := 0
  cacheMisses : Nat := 0
  deriving DecidableEq, Repr

/-- What a program may ask of the context it runs in. A count raises a counter of the host, which is
how the side effects of a caller's code are told. -/
inductive Request
  | resolve (name : String)
  | report (message : String)
  | indent
  | unindent
  | stats
  | trace
  | count (counter : String)
  deriving DecidableEq, Repr

def Request.Answer : Request → Type
  | .resolve _ => Except Error Value
  | .report _ => Unit
  | .indent => Unit
  | .unindent => Unit
  | .stats => ResolutionStats
  | .trace => String
  | .count _ => Nat

inductive Program (α : Type)
  | done (result : Except Error α)
  | ask (request : Request) (next : request.Answer → Program α)

namespace Program

def handle {α β : Type} : Program α → (Except Error α → Program β) → Program β
  | .done result, next => next result
  | .ask request answered, next => .ask request fun answer => (answered answer).handle next

def bind {α β : Type} (program : Program α) (next : α → Program β) : Program β :=
  program.handle fun
    | .ok value => next value
    | .error error => .done (.error error)

instance : Monad Program where
  pure value := .done (.ok value)
  bind := bind

def fail {α : Type} (error : Error) : Program α := .done (.error error)

def attempt {α : Type} (program : Program α) : Program (Except Error α) :=
  program.handle fun outcome => .done (.ok outcome)

def orElse {α : Type} (first second : Program α) : Program α :=
  first.handle fun
    | .ok value => .done (.ok value)
    | .error _ => second

def resolve (name : String) : Program Value := .ask (.resolve name) .done

def get {kind : Kind} (key : Key kind) : Program kind.Datum :=
  .ask (.resolve key.name) fun answer => .done (key.read answer)

def report (message : String) : Program Unit := .ask (.report message) fun _ => .done (.ok ())

def indent : Program Unit := .ask .indent fun _ => .done (.ok ())

def unindent : Program Unit := .ask .unindent fun _ => .done (.ok ())

def stats : Program ResolutionStats := .ask .stats fun stats => .done (.ok stats)

def trace : Program String := .ask .trace fun text => .done (.ok text)

def count (counter : String) : Program Nat := .ask (.count counter) fun n => .done (.ok n)

/-- Runs a program against anything that answers its requests and changes with them. -/
def run {α σ : Type} (answer : (request : Request) → σ → request.Answer × σ) :
    Program α → σ → Except Error α × σ
  | .done result, state => (result, state)
  | .ask request next, state =>
    let answered := answer request state
    (next answered.1).run answer answered.2

/-! ### Laws -/

theorem handle_assoc {α β γ : Type} (program : Program α)
    (first : Except Error α → Program β) (second : Except Error β → Program γ) :
    (program.handle first).handle second =
      program.handle fun outcome => (first outcome).handle second := by
  induction program with
  | done result => rfl
  | ask request next ih =>
      exact congrArg (Program.ask request) (funext fun answer => ih answer)

theorem handle_done {α : Type} (program : Program α) : program.handle .done = program := by
  induction program with
  | done result => rfl
  | ask request next ih =>
      exact congrArg (Program.ask request) (funext fun answer => ih answer)

instance : LawfulMonad Program :=
  LawfulMonad.mk' Program
    (fun program => by
      refine Eq.trans ?_ (handle_done program)
      exact congrArg program.handle (funext fun outcome => by cases outcome <;> rfl))
    (fun _ _ => rfl)
    (fun program first second => by
      refine (handle_assoc program _ _).trans ?_
      exact congrArg program.handle (funext fun outcome => by cases outcome <;> rfl))

end Program

end AccessPolicy
