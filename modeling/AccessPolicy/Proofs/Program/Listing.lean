/-
Programs that ask for a fixed list of keys. Such a program may make what it likes of the values, but the
keys and their order are given beforehand, and every value of the kind declared for its key can be read.
-/

import AccessPolicy.Proofs.Program.Asking

namespace AccessPolicy

theorem Key.read_of_kind {kind : Kind} (key : Key kind) {value : Value} (same : value.kind = kind) :
    ∃ datum, key.read (.ok value) = .ok datum := by
  obtain ⟨own, datum⟩ := value
  change own = kind at same
  subst same
  exact ⟨datum, by simp only [read, Value.as?_mk]⟩

namespace Program

/-- Asks for the keys of the list in turn, ends with the first failure that it is answered, and
otherwise comes to a value of its own kind. A key without a declared kind may be read in any way. -/
inductive Lists (kinds : String → Option Kind) (own : Kind) : List String → Program Value → Prop
  | done (datum : own.Datum) : Lists kinds own [] (.done (.ok ⟨own, datum⟩))
  | ask {α : Type} (name : String) (read : Except Error Value → Except Error α)
      (fails : ∀ error, read (.error error) = .error error)
      (fits : ∀ value : Value, kinds name = some value.kind →
        ∃ datum, read (.ok value) = .ok datum)
      (next : Except Error α → Program Value) {names : List String}
      (passes : ∀ error, (next (.error error)).FailsWith error)
      (goes : ∀ datum, Lists kinds own names (next (.ok datum))) :
      Lists kinds own (name :: names) (.ask (.resolve name) fun answer => next (read answer))
  | aside (request : Request) (isAside : request.Aside) (next : Program Value)
      {names : List String} (goes : Lists kinds own names next) :
      Lists kinds own names (.ask request fun _ => next)

theorem FailsWith.forwarding {α : Type} {program : Program α} {error : Error}
    (fails : program.FailsWith error) : program.Forwarding := by
  induction fails with
  | done => exact .done (.error error)
  | aside request isAside next goes ih => exact .aside request isAside next ih

namespace Lists

variable {kinds : String → Option Kind} {own : Kind} {names : List String}
variable {program : Program Value}

theorem get {kind : Kind} (key : Key kind) (declared : ∀ other ∈ kinds key.name, other = kind)
    {next : kind.Datum → Program Value} (goes : ∀ datum, Lists kinds own names (next datum)) :
    Lists kinds own (key.name :: names) ((Program.get key).bind next) := by
  refine .ask key.name key.read (fun _ => rfl) (fun value kinded => ?_)
    (fun answer => (Program.done answer).bind next) (fun _ => .done) goes
  exact key.read_of_kind (declared _ (Option.mem_def.mpr kinded))

theorem forwarding (lists : program.Lists kinds own names) : program.Forwarding := by
  induction lists with
  | done datum => exact .done _
  | @ask α name read fails fits next names passes goes ih =>
      refine .resolve name _ (fun error => ?_) fun value => ?_
      · rw [fails]
        exact passes error
      · cases read (.ok value) with
        | ok datum => exact ih datum
        | error error => exact (passes error).forwarding
  | aside request isAside next goes ih => exact .aside request isAside next ih

theorem asksOnly (lists : program.Lists kinds own names) :
    program.AsksOnly fun name => name ∈ names := by
  induction lists with
  | done datum => exact .done _
  | @ask α name read fails fits next names passes goes ih =>
      refine .resolve name _ List.mem_cons_self fun answer => ?_
      cases read answer with
      | ok datum => exact (ih datum).widen fun _ member => List.mem_cons_of_mem _ member
      | error error => exact (passes error).asksOnly
  | aside request isAside next goes ih => exact .aside request isAside next ih

end Lists

end Program

end AccessPolicy
