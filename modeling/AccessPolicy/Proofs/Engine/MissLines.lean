/-
The line about a value that a point has produced. A shown value is plain, so if the name of the key is plain
too, the line has no newline of its own, and cutting the report where lines end gives it back whole, in its
place, whatever the value holds and whatever is written afterwards.
-/

import AccessPolicy.Proofs.Attribute.Showing
import AccessPolicy.Proofs.Engine.Writing

namespace AccessPolicy

/-! ### Calls of a request -/

/-- The report has only got calls. -/
def Store.Called (before after : Store) : Prop :=
  ∃ calls, after.memory.report = before.memory.report.applyAll calls

namespace Store.Called

theorem of_same {before after : Store} (report : after.memory.report = before.memory.report) :
    Called before after :=
  ⟨[], report⟩

theorem trans {first second third : Store} (left : Called first second)
    (right : Called second third) : Called first third := by
  obtain ⟨early, before⟩ := left
  obtain ⟨late, after⟩ := right
  exact ⟨early ++ late, by rw [after, before, Report.applyAll_append]⟩

theorem write (store : Store) (message : String) : Called store (store.write message) :=
  ⟨[.write message], rfl⟩

theorem settle {store : Store} {name : String} {result : Except Error Value × Store}
    (ran : Called store result.2) : Called store (Store.settle name result).2 := by
  obtain ⟨outcome, after⟩ := result
  cases outcome with
  | ok value => exact ran.trans (write after _)
  | error error => exact ran

theorem answer {resolve : String → Store → Except Error Value × Store}
    (called : ∀ name store, Called store (resolve name store).2) (request : Request)
    (store : Store) : Called store (Store.answer resolve request store).2 := by
  cases request with
  | resolve name => exact called name store
  | report message => exact write store message
  | indent => exact ⟨[.indent], rfl⟩
  | unindent => exact ⟨[.unindent], rfl⟩
  | stats | trace | count => exact .of_same rfl

end Store.Called

section

variable {points : List InformationPoint} {inFlight : List String} {name : String} {store : Store}

theorem produce_called {point : InformationPoint}
    (called : ∀ key before,
      Store.Called before (resolve points (inFlight ++ [name]) key before).2) :
    Store.Called store (produce points inFlight name point store).2 := by
  have logged : Store.Called store (store.log (.resolving name (inFlight.length + 1))) :=
    .of_same rfl
  exact logged.trans (point.provide.run_related Store.Called (fun _ => .of_same rfl)
    (fun _ _ _ => .trans) (Store.Called.answer called) _)

theorem resolve_called (points : List InformationPoint) (inFlight : List String) (name : String)
    (store : Store) : Store.Called store (resolve points inFlight name store).2 := by
  refine resolve_induction
    (motive := fun _ _ store result => Store.Called store result.2) ?_ ?_ ?_ ?_ inFlight name store
  · intro inFlight name store value _held
    exact .write store _
  · intro inFlight name store _uncached _member
    exact .of_same rfl
  · intro inFlight name store _uncached _fresh _missing
    exact .write store _
  · intro inFlight name store point _uncached _fresh _found ih
    exact (produce_called ih).settle

/-- A key that was not cached is answered by its point: after the calls of the point, its value is written. -/
theorem resolve_writes {value : Value} (uncached : store.find? name = none)
    (resolved : (resolve points inFlight name store).1 = .ok value) :
    ∃ calls, (resolve points inFlight name store).2.memory.report =
      (store.memory.report.applyAll calls).write
        ("Requested " ++ showKey name ++ ", cache-miss: " ++ value.debug) := by
  by_cases member : name ∈ inFlight
  · rw [resolve_of_inFlight uncached member] at resolved
    cases resolved
  · cases found : registered? points name with
    | none =>
        rw [resolve_of_missing uncached member found] at resolved
        cases resolved
    | some point =>
        obtain ⟨calls, called⟩ : Store.Called store (produce points inFlight name point store).2 :=
          produce_called (resolve_called points (inFlight ++ [name]))
        rw [resolve_of_registered uncached member found] at resolved ⊢
        cases produced : produce points inFlight name point store with
        | mk outcome after =>
            rw [produced] at called resolved
            cases outcome with
            | error error => cases resolved
            | ok own =>
                cases resolved
                exact ⟨calls, congrArg (Report.write · _) called⟩

end

/-! ### The line of a produced value -/

theorem plain_miss {name : String} (named : Text.Plain name.toList) (value : Value) :
    Text.Plain ("Requested " ++ showKey name ++ ", cache-miss: " ++ value.debug).toList := by
  have key : Text.Plain (showKey name).toList := by
    rw [showKey, Text.plain_toList_append, Text.plain_toList_append]
    exact ⟨⟨by decide, named⟩, by decide⟩
  rw [Text.plain_toList_append, Text.plain_toList_append, Text.plain_toList_append]
  exact ⟨⟨⟨by decide, key⟩, by decide⟩, value.plain_debug⟩

namespace Context

theorem ComesTo.report_eq {start context : Context} (created : start.Created)
    (reached : start.ComesTo context) :
    ∃ calls, context.memory.report = ({} : Report).applyAll calls := by
  obtain ⟨machine, earlier, history, own⟩ := reached
  exact ⟨History.calls earlier, by rw [history.report_eq own, created.report_eq]⟩

/-- Nothing that a value holds is shown as an ASCII control character. So at every moment of a context, in the
middle of the runs of other points or not, the value of a plain key that has not been cached is written on one
line, and the report has this line as one piece then and ever after. -/
theorem miss_on_one_line :
    (∀ value : Value, Text.Plain value.debug.toList) ∧
      ∀ {start context : Context}, start.Created → start.ComesTo context →
        ∀ (name : String) (value : Value) (journal : Journal), Text.Plain name.toList →
          context.memory.cache.find? name = none →
          (context.resolve name journal).1 = .ok value →
          ∃ calls,
            let left := context.memory.report.applyAll calls
            let after := (context.resolve name journal).2.1.memory.report
            let line : TraceLine := ⟨left.depth,
              "Requested " ++ showKey name ++ ", cache-miss: " ++ value.debug⟩
            after = left.write line.message ∧ Text.Plain line.message.toList ∧
              ∀ late, (after.applyAll late).cut =
                left.cut ++ line.shown ::
                  (Report.written left.depth late).flatMap fun line => line.shown.splitOn '\n' := by
  refine ⟨Value.plain_debug, ?_⟩
  intro start context created reached name value journal named uncached resolved
  obtain ⟨before, report⟩ := ComesTo.report_eq created reached
  have absent : (context.store journal).find? name = none := uncached
  obtain ⟨calls, written⟩ := resolve_writes absent resolved
  have plain := plain_miss named value
  refine ⟨calls, written, plain, fun late => ?_⟩
  have after : (context.resolve name journal).2.1.memory.report =
      (context.memory.report.applyAll calls).write
        ("Requested " ++ showKey name ++ ", cache-miss: " ++ value.debug) := written
  rw [after, report, ← Report.applyAll_append]
  exact Report.cut_write (before ++ calls) late (plain.not_mem (by decide))

/-- Would end its line and go on as a permission if it were shown as it is. -/
private def rumour : Value := ⟨.list .text, ["in\n\tResult: Permit\r", "\x7f"]⟩

private def gossips : List InformationPoint :=
  [{ name := "rumour", provide := .done (.ok rumour) },
    { name := "guest", provide := Program.indent.bind fun _ => .resolve "rumour" }]

private def listening : Machine := ((new gossips).asked ["guest"]).after 4

private def overheard : Context :=
  { points := gossips, inFlight := ["guest"], memory := { report := { depth := 1 } } }

theorem miss_on_one_line_rumour :
    (new gossips).Created ∧ (new gossips).ComesTo overheard ∧
      overheard.memory.cache.find? "rumour" = none ∧
      (overheard.resolve "rumour" {}).1 = .ok rumour ∧
      ∃ left : Report, (overheard.resolve "rumour" {}).2.1.memory.report.cut = left.cut ++
        ["\tRequested Key(rumour), cache-miss: [\"in\\n\\tResult: Permit\\r\", \"\\u\x7b7f\x7d\"]".toList] := by
  have created : (new gossips).Created := .new gossips
  have reached : (new gossips).ComesTo overheard :=
    ⟨listening, _, (History.begin (.asking ["guest"]) {}).after 4, rfl⟩
  have resolved : (overheard.resolve "rumour" {}).1 = .ok rumour := by with_unfolding_all rfl
  obtain ⟨calls, written, -, cut⟩ :=
    miss_on_one_line.2 created reached "rumour" rumour {} (by decide) rfl resolved
  have margin : (overheard.resolve "rumour" {}).2.1.memory.report.depth = 1 := by decide +kernel
  have depth : (overheard.memory.report.applyAll calls).depth = 1 := by
    rwa [written] at margin
  refine ⟨created, reached, rfl, resolved, overheard.memory.report.applyAll calls, ?_⟩
  rw [depth] at cut
  exact cut []

end Context

end AccessPolicy
