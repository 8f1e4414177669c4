/-
What programs ask for. A program that asks for keys alone may write to the trace and count, but nothing
that it is told by other requests reaches its outcome; a forwarding one ends with the first failure that
it is answered. The outcome of such a program is settled by the answers to its requests for keys, which
is what two runs of it are compared by.
-/

import AccessPolicy.Program

namespace AccessPolicy

def Request.Aside (request : Request) : Prop := ∀ name, request ≠ .resolve name

theorem Request.resolve_or_aside (request : Request) :
    (∃ name, request = .resolve name) ∨ request.Aside := by
  by_cases asked : ∃ name, request = .resolve name
  · exact Or.inl asked
  · exact Or.inr fun name same => asked ⟨name, same⟩

namespace Program

/-- The outcome hangs on the answers to requests for keys alone, and these are among `names`. -/
inductive AsksOnly {α : Type} (names : String → Prop) : Program α → Prop
  | done (result : Except Error α) : AsksOnly names (.done result)
  | resolve (name : String) (next : Except Error Value → Program α) (allowed : names name)
      (goes : ∀ answer, AsksOnly names (next answer)) : AsksOnly names (.ask (.resolve name) next)
  | aside (request : Request) (isAside : request.Aside) (next : Program α)
      (goes : AsksOnly names next) : AsksOnly names (.ask request fun _ => next)

/-- Nothing more is asked that could make a difference, and the outcome is the failure. -/
inductive FailsWith {α : Type} (error : Error) : Program α → Prop
  | done : FailsWith error (.done (.error error))
  | aside (request : Request) (isAside : request.Aside) (next : Program α)
      (goes : FailsWith error next) : FailsWith error (.ask request fun _ => next)

/-- The outcome hangs on the answers to requests for keys alone, and a failed one becomes the
outcome. -/
inductive Forwarding {α : Type} : Program α → Prop
  | done (result : Except Error α) : Forwarding (.done result)
  | resolve (name : String) (next : Except Error Value → Program α)
      (passes : ∀ error, (next (.error error)).FailsWith error)
      (goes : ∀ value, Forwarding (next (.ok value))) : Forwarding (.ask (.resolve name) next)
  | aside (request : Request) (isAside : request.Aside) (next : Program α)
      (goes : Forwarding next) : Forwarding (.ask request fun _ => next)

theorem FailsWith.run_eq {α σ : Type} {program : Program α} {error : Error}
    (fails : program.FailsWith error) (answer : (request : Request) → σ → request.Answer × σ)
    (state : σ) :
    (program.run answer state).1 = .error error := by
  induction fails generalizing state with
  | done => rfl
  | aside request isAside next goes ih => exact ih (answer request state).2

theorem FailsWith.asksOnly {α : Type} {names : String → Prop} {program : Program α} {error : Error}
    (fails : program.FailsWith error) : program.AsksOnly names := by
  induction fails with
  | done => exact .done (.error error)
  | aside request isAside next goes ih => exact .aside request isAside next ih

theorem Forwarding.asksOnly {α : Type} {program : Program α} (forwards : program.Forwarding) :
    program.AsksOnly fun _ => True := by
  induction forwards with
  | done result => exact .done result
  | resolve name next passes goes ih =>
      refine .resolve name next trivial fun answer => ?_
      cases answer with
      | ok value => exact ih value
      | error error => exact (passes error).asksOnly
  | aside request isAside next goes ih => exact .aside request isAside next ih

theorem AsksOnly.widen {α : Type} {names others : String → Prop} {program : Program α}
    (asks : program.AsksOnly names) (wider : ∀ name, names name → others name) :
    program.AsksOnly others := by
  induction asks with
  | done result => exact .done result
  | resolve name next allowed goes ih => exact .resolve name next (wider name allowed) ih
  | aside request isAside next goes ih => exact .aside request isAside next ih

/-- Two runs stay related, and come to the same outcome, where related states answer the requests for
keys alike. -/
theorem AsksOnly.run_related {α σ τ : Type} {names : String → Prop} {program : Program α}
    (asks : program.AsksOnly names) (left : (request : Request) → σ → request.Answer × σ)
    (right : (request : Request) → τ → request.Answer × τ) (related : σ → τ → Prop)
    (resolves : ∀ name first second, names name → related first second →
      (left (.resolve name) first).1 = (right (.resolve name) second).1 ∧
        related (left (.resolve name) first).2 (right (.resolve name) second).2)
    (asides : ∀ request : Request, request.Aside → ∀ first second, related first second →
      related (left request first).2 (right request second).2)
    (first : σ) (second : τ) (start : related first second) :
    (program.run left first).1 = (program.run right second).1 ∧
      related (program.run left first).2 (program.run right second).2 := by
  induction asks generalizing first second with
  | done result => exact ⟨rfl, start⟩
  | resolve name next allowed goes ih =>
      obtain ⟨same, still⟩ := resolves name first second allowed start
      have rest := ih (left (.resolve name) first).1 _ _ still
      change _ = ((next (right (.resolve name) second).1).run right _).1 ∧
        related _ ((next (right (.resolve name) second).1).run right _).2
      rw [← same]
      exact rest
  | aside request isAside next goes ih => exact ih _ _ (asides request isAside first second start)

def askAll (names : List String) (value : Value) : Program Value :=
  match names with
  | [] => .done (.ok value)
  | name :: names => (Program.resolve name).bind fun _ => askAll names value

theorem askAll_forwarding (names : List String) (value : Value) :
    (askAll names value).Forwarding := by
  induction names with
  | nil => exact .done (.ok value)
  | cons name names ih => exact .resolve name _ (fun _ => .done) fun _ => ih

end Program

end AccessPolicy
