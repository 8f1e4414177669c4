/-
The trace as a printed tree. An evaluation whose policies and points do not write to the trace themselves
adds to it the lines of its tree: a section for an enforcement and for each member of a combination, one level
deeper than what it stands in, and between them one line for each request, after the lines of the requests
that its point has made. Requests move no margin, so however deep they go, they show at the depth of their
section; and every section ends at the depth where it began, whichever way it ends.
-/

import AccessPolicy.Proofs.Engine.Tree
import AccessPolicy.Proofs.Policy.Effects

namespace AccessPolicy

/-! ### Lines -/

structure TraceLine where
  depth : Nat
  message : String
  deriving DecidableEq, Repr

def TraceLine.text (line : TraceLine) : String := Report.line line.depth line.message

/-- The line as it shows, without the newline that ends it. -/
def TraceLine.shown (line : TraceLine) : List Char :=
  List.replicate line.depth '\t' ++ line.message.toList

theorem TraceLine.toList_text (line : TraceLine) : line.text.toList = line.shown ++ ['\n'] := by
  unfold text shown Report.line Report.tabs
  rw [String.toList_append, String.toList_append, String.toList_ofList]
  rfl

theorem TraceLine.flatMap_shown (lines : List TraceLine) :
    (lines.flatMap fun line => line.shown ++ ['\n']) =
      (String.join (lines.map TraceLine.text)).toList := by
  rw [String.toList_join, List.flatMap_map]
  exact congrArg lines.flatMap (funext fun line => line.toList_text.symm)

namespace Report

def print (report : Report) (lines : List TraceLine) : Report :=
  { report with text := lines.foldl (fun text line => text ++ line.text) report.text }

theorem print_append (report : Report) (early late : List TraceLine) :
    report.print (early ++ late) = (report.print early).print late :=
  congrArg (Report.mk · report.depth) (List.foldl_append ..)

theorem depth_print (report : Report) (lines : List TraceLine) :
    (report.print lines).depth = report.depth := rfl

theorem toList_text_print (report : Report) (lines : List TraceLine) :
    (report.print lines).text.toList =
      report.text.toList ++ lines.flatMap fun line => line.shown ++ ['\n'] := by
  induction lines generalizing report with
  | nil => exact (List.append_nil _).symm
  | cons line rest ih =>
      change (({ report with text := report.text ++ line.text } : Report).print rest).text.toList = _
      rw [ih, String.toList_append, line.toList_text, List.flatMap_cons, List.append_assoc]

end Report

def Finding.message? (key : String) : Finding → Option String
  | .hit => some ("Requested " ++ showKey key ++ ", cache-hit")
  | .produced value => some ("Requested " ++ showKey key ++ ", cache-miss: " ++ value.debug)
  | .missing => some ("Requested " ++ showKey key ++ ", no provider found")
  | .cyclic => none
  | .failed => none

mutual

/-- A request writes after the requests that it has made. -/
def Query.messages : Query → List String
  | .node key finding asked => Query.allMessages asked ++ (finding.message? key).toList

def Query.allMessages : List Query → List String
  | [] => []
  | query :: rest => query.messages ++ Query.allMessages rest

end

/-- A section has a last line of its own if it comes to a decision. -/
def sectionLines (depth : Nat) (name : String) (inside : List TraceLine)
    (result : Except Error Decision) : List TraceLine :=
  ⟨depth, name⟩ :: inside ++
    match result with
    | .ok decision => [⟨depth + 1, "Result: " ++ decision.display⟩]
    | .error _ => []

mutual

/-- What a node prints at a depth. -/
def Node.lines (depth : Nat) : Node → List TraceLine
  | .request query => query.messages.map (TraceLine.mk depth)
  | .evaluation _ inside => Node.allLines depth inside
  | .member visit inside =>
    sectionLines depth visit.policy.name (Node.allLines (depth + 1) inside) visit.result
  | .enforcement call inside =>
    sectionLines depth call.policy.name (Node.allLines (depth + 1) inside)
      (call.outcome.map Outcome.decision)

def Node.allLines (depth : Nat) : List Node → List TraceLine
  | [] => []
  | node :: rest => node.lines depth ++ Node.allLines depth rest

end

theorem Node.allLines_append (depth : Nat) (early late : List Node) :
    Node.allLines depth (early ++ late) = Node.allLines depth early ++ Node.allLines depth late := by
  induction early with
  | nil => rfl
  | cons node rest ih => exact (congrArg _ ih).trans (List.append_assoc _ _ _).symm

theorem Node.allLines_singleton (depth : Nat) (node : Node) :
    Node.allLines depth [node] = node.lines depth := List.append_nil _

theorem Query.allMessages_append (early late : List Query) :
    Query.allMessages (early ++ late) = Query.allMessages early ++ Query.allMessages late := by
  induction early with
  | nil => rfl
  | cons query rest ih => exact (congrArg _ ih).trans (List.append_assoc _ _ _).symm

theorem Node.allLines_requests (depth : Nat) (queries : List Query) :
    Node.allLines depth (queries.map .request) =
      (Query.allMessages queries).map (TraceLine.mk depth) := by
  induction queries with
  | nil => rfl
  | cons query rest ih => exact (congrArg _ ih).trans List.map_append.symm

/-! ### Requests -/

def Request.Silent : Request → Prop
  | .report _ => False
  | .indent => False
  | .unindent => False
  | .resolve _ => True
  | .stats => True
  | .trace => True
  | .count _ => True

inductive Program.Within {α : Type} (may : Request → Prop) : Program α → Prop
  | done (result : Except Error α) : Program.Within may (.done result)
  | ask (request : Request) (next : request.Answer → Program α) (allowed : may request)
      (goes : ∀ answer, Program.Within may (next answer)) :
      Program.Within may (.ask request next)

/-- The report has got the messages of some requests, at its own depth. -/
def Store.Prints (queries : List Query) (before after : Store) : Prop :=
  after.memory.report = before.memory.report.print
    ((Query.allMessages queries).map (TraceLine.mk before.memory.report.depth))

namespace Store.Prints

variable {first second third : Store} {early late : List Query}

theorem of_same (report : second.memory.report = first.memory.report) : Prints [] first second :=
  report

theorem depth (prints : Prints early first second) :
    second.memory.report.depth = first.memory.report.depth := by
  unfold Prints at prints
  rw [prints, Report.depth_print]

theorem trans (left : Prints early first second) (right : Prints late second third) :
    Prints (early ++ late) first third := by
  unfold Prints at right ⊢
  rw [right, left.depth, left, Query.allMessages_append, List.map_append, Report.print_append]

/-- What a request has asked for has been printed, and then it writes its own message. -/
theorem settle {asked : List Query} (ran : Prints asked first second) (name : String)
    (finding : Finding) (written : third.memory.report = second.memory.report.print
      ((finding.message? name).toList.map (TraceLine.mk second.memory.report.depth))) :
    Prints [.node name finding asked] first third := by
  have messages : Query.allMessages [.node name finding asked] =
      Query.allMessages asked ++ (finding.message? name).toList := List.append_nil _
  unfold Prints
  rw [written, ran.depth, ran, messages, List.map_append, Report.print_append]

theorem answer {resolve : String → Store → Except Error Value × Store}
    {query : String → Store → Query}
    (resolves : ∀ name store, Prints [query name store] store (resolve name store).2)
    (request : Request) (silent : request.Silent) (store : Store) :
    Prints (request.queries fun name => query name store) store
      (Store.answer resolve request store).2 := by
  cases request with
  | resolve name => exact resolves name store
  | report message => exact silent.elim
  | indent => exact silent.elim
  | unindent => exact silent.elim
  | stats => exact .of_same rfl
  | trace => exact .of_same rfl
  | count counter => exact .of_same rfl

end Store.Prints

theorem Program.run_prints {α : Type} {resolve : String → Store → Except Error Value × Store}
    {query : String → Store → Query}
    (resolves : ∀ name store, Store.Prints [query name store] store (resolve name store).2)
    (program : Program α) (silent : program.Within Request.Silent) (store : Store) :
    Store.Prints (program.queries resolve query store) store
      (program.run (Store.answer resolve) store).2 := by
  induction silent generalizing store with
  | done result => exact .of_same rfl
  | ask request next allowed goes ih =>
      have first := Store.Prints.answer resolves request allowed store
      exact first.trans (ih _ _)

def SilentPoints (points : List InformationPoint) : Prop :=
  ∀ point ∈ points, point.provide.Within Request.Silent

theorem resolve_prints {points : List InformationPoint} (silent : SilentPoints points)
    (inFlight : List String) (name : String) (store : Store) :
    Store.Prints [query points inFlight name store] store
      (resolve points inFlight name store).2 := by
  refine resolve_induction (motive := fun inFlight name store result =>
    Store.Prints [query points inFlight name store] store result.2) ?_ ?_ ?_ ?_ inFlight name store
  · intro inFlight name store value held
    rw [query_of_cached held]
    exact (Store.Prints.of_same rfl).settle name .hit rfl
  · intro inFlight name store uncached member
    rw [query_of_inFlight uncached member]
    exact (Store.Prints.of_same rfl).settle name .cyclic rfl
  · intro inFlight name store uncached fresh missing
    rw [query_of_missing uncached fresh missing]
    exact (Store.Prints.of_same rfl).settle name .missing rfl
  · intro inFlight name store point uncached fresh found ih
    rw [query_of_registered uncached fresh found]
    -- All that the point asks for has been printed when its own key is settled.
    have ran := Program.run_prints ih point.provide (silent point (registered?_mem found))
      (store.log (.resolving name (inFlight.length + 1)))
    have logged : Store.Prints [] store (store.log (.resolving name (inFlight.length + 1))) :=
      .of_same rfl
    have through := logged.trans ran
    change Store.Prints _ store (produce points inFlight name point store).2 at through
    cases produced : produce points inFlight name point store with
    | mk outcome after =>
        rw [produced] at through
        cases outcome with
        | ok value => exact through.settle name (.produced value) rfl
        | error error => exact through.settle name .failed rfl

/-! ### Sections -/

def Report.close (report : Report) : Except Error Decision → Report
  | .ok decision => (report.write (resultLine decision)).unindent
  | .error _ => report.unindent

theorem Report.close_section (report : Report) (name : String) (inside : List TraceLine)
    (result : Except Error Decision) :
    ((report.write name).indent.print inside).close result =
      report.print (sectionLines report.depth name inside result) := by
  unfold sectionLines
  rw [Report.print_append]
  cases result <;> rfl

namespace Scene

/-- The report of a context has got the lines of some nodes, at its own depth. -/
def Prints (nodes : List Node) (before after : Scene) : Prop :=
  ∀ context, before.context = .resolution context → SilentPoints context.points →
    ∃ now, after.context = .resolution now ∧ now.points = context.points ∧
      now.memory.report =
        context.memory.report.print (Node.allLines context.memory.report.depth nodes)

def Closes (result : Except Error Decision) (before after : Scene) : Prop :=
  ∀ context, before.context = .resolution context → after.context =
    .resolution { context with memory.report := context.memory.report.close result }

theorem closes_decided (scene : Scene) (decision : Decision) :
    Closes (.ok decision) scene (scene.write (resultLine decision)).unindent := by
  obtain ⟨host, final⟩ := scene
  intro context same
  cases same
  rfl

theorem closes_failed (scene : Scene) (error : Error) :
    Closes (.error error) scene scene.unindent := by
  obtain ⟨host, final⟩ := scene
  intro context same
  cases same
  rfl

theorem closes_traced (name : String) (evaluate : Evaluation Scene) (scene : Scene) :
    Closes (evaluate (scene.write name).indent).1 (evaluate (scene.write name).indent).2
      (traced name evaluate scene).2 := by
  unfold traced
  cases evaluate (scene.write name).indent with
  | mk result after =>
      cases result with
      | ok decision => exact closes_decided after decision
      | error error => exact closes_failed after error

theorem closes_call (call : Call) :
    Closes (call.outcome.map Outcome.decision) call.visit.last call.last := by
  intro context same
  have outcome := call.outcome_eq
  cases came : call.visit.result with
  | ok own =>
      rw [came] at outcome
      rw [outcome, Call.last_of_ok came]
      refine (context_updateMeter _ call.point.meter _).trans ?_
      exact closes_decided call.visit.last _ context same
  | error error =>
      rw [came] at outcome
      rw [outcome, Call.last_of_error came]
      refine (context_updateMeter _ call.point.meter _).trans ?_
      exact closes_failed call.visit.last error context same

namespace Prints

variable {first second third : Scene} {early late : List Node}

theorem refl (scene : Scene) : Prints [] scene scene :=
  fun context same _ => ⟨context, same, rfl, rfl⟩

theorem trans (left : Prints early first second) (right : Prints late second third) :
    Prints (early ++ late) first third := by
  intro context same silent
  obtain ⟨between, kept, points, printed⟩ := left context same silent
  obtain ⟨now, last, pointsAgain, printedAgain⟩ := right between kept (points ▸ silent)
  refine ⟨now, last, pointsAgain.trans points, ?_⟩
  rw [printedAgain, printed, Report.depth_print, Node.allLines_append, Report.print_append]

theorem answer (request : Request) (silent : request.Silent) (scene : Scene) :
    Prints ((request.queries scene.query).map .request) scene (scene.answer request).2 := by
  obtain ⟨host, context⟩ := scene
  intro context same points
  cases same
  have answered := Store.Prints.answer (resolve_prints points context.inFlight) request silent
    (context.store host.journal)
  refine ⟨_, rfl, rfl, ?_⟩
  rw [Node.allLines_requests]
  exact answered

theorem close {scene : Scene} {name : String} {inside : List Node} {result : Except Error Decision}
    (ran : Prints inside (scene.write name).indent second) (closed : Closes result second third)
    {node : Node} (lines : ∀ depth, node.lines depth =
      sectionLines depth name (Node.allLines (depth + 1) inside) result) :
    Prints [node] scene third := by
  obtain ⟨host, context⟩ := scene
  intro context same silent
  cases same
  obtain ⟨now, last, points, printed⟩ := ran _ rfl silent
  refine ⟨_, closed now last, points, ?_⟩
  rw [Node.allLines_singleton, lines, ← Report.close_section]
  exact congrArg (Report.close · result) printed

theorem along : Scene.AlongTree Request.Silent Prints where
  refl := refl
  trans := trans
  answer := answer
  evaluation visit inside := by
    intro context same silent
    obtain ⟨now, last, points, printed⟩ := inside context same silent
    refine ⟨now, last, points, printed.trans ?_⟩
    rw [Node.allLines_singleton]
    rfl
  member policy scene inside := inside.close (closes_traced policy.name policy.evaluate scene)
    fun _ => rfl
  enforcement call inside := inside.close (closes_call call) fun _ => rfl

end Prints

end Scene

/-- An enforcement adds its section to the text of the trace, each line behind its tabs and before a newline,
and leaves the margin where it was. -/
theorem EnforcementPoint.prints_section (point : EnforcementPoint) (bias : Option Bias)
    (policy : Policy) (silent : policy.Within Request.Silent) (context : Context)
    (points : SilentPoints context.points) (host : Host) :
    let scene := host.scene (.resolution context)
    let depth := context.memory.report.depth
    let inside := Node.allLines (depth + 1) (policy.nodes (scene.write policy.name).indent)
    let enforced := point.evaluateInContext bias policy scene
    ∃ now, enforced.2.context = .resolution now ∧ now.memory.report.depth = depth ∧
      now.memory.report.text.toList = context.memory.report.text.toList ++
        (sectionLines depth policy.name inside enforced.1).flatMap fun line =>
          line.shown ++ ['\n'] := by
  intro scene depth inside enforced
  let call : Call := ⟨point, bias, policy, scene⟩
  obtain ⟨now, last, -, printed⟩ := call.node_told Scene.Prints.along silent context rfl points
  rw [Node.allLines_singleton] at printed
  refine ⟨now, last, ?_, ?_⟩
  · rw [printed, Report.depth_print]
  · rw [printed, Report.toList_text_print]
    rfl

namespace EnforcementPoint

private def inquiring (name : String) : Policy :=
  .rule ("by " ++ name) (.ask (.resolve name) fun _ => .done (.ok (.notApplicable name)))

private def inquiry : Policy :=
  .combined .denyOverride
    [inquiring "adult",
      .combined .firstApplicable [inquiring "age", inquiring "loop", inquiring "name"]]

private def inquired : Context where
  points := [{ name := "age", provide := .done (.ok .unit) },
    { name := "adult", provide := .resolve "age" },
    { name := "loop", provide := .resolve "loop" }]
  memory := { report := { depth := 1 } }

private theorem inquiring_silent (name : String) : (inquiring name).Within Request.Silent :=
  .rule _ _ (.ask _ _ trivial fun _ => .done _)

private theorem inquiry_silent : inquiry.Within Request.Silent := by
  apply Policy.Within.combined
  intro member within
  simp only [List.mem_cons, List.not_mem_nil, or_false] at within
  rcases within with rfl | rfl
  · exact inquiring_silent "adult"
  · apply Policy.Within.combined
    intro member within
    simp only [List.mem_cons, List.not_mem_nil, or_false] at within
    rcases within with rfl | rfl | rfl <;> exact inquiring_silent _

private theorem inquired_silent : SilentPoints inquired.points := by
  intro point within
  simp only [inquired, List.mem_cons, List.not_mem_nil, or_false] at within
  rcases within with rfl | rfl | rfl
  · exact .done _
  · exact .ask _ _ trivial fun _ => .done _
  · exact .ask _ _ trivial fun _ => .done _

/-- One key is found on behalf of another one and then again, one is in a cycle and one is not known. -/
theorem prints_section_inquiry :
    ∃ now, (({ bias := .deny } : EnforcementPoint).evaluateInContext none inquiry
        (({} : Host).scene (.resolution inquired))).2.context = .resolution now ∧
      now.memory.report.depth = 1 ∧ now.memory.report.text = String.join
        ["\tdeny-override\n",
          "\t\tby adult\n",
          "\t\t\tRequested Key(age), cache-miss: ()\n",
          "\t\t\tRequested Key(adult), cache-miss: ()\n",
          "\t\t\tResult: NotApplicable(message=adult)\n",
          "\t\tfirst-applicable\n",
          "\t\t\tby age\n",
          "\t\t\t\tRequested Key(age), cache-hit\n",
          "\t\t\t\tResult: NotApplicable(message=age)\n",
          "\t\t\tby loop\n",
          "\t\t\t\tResult: NotApplicable(message=loop)\n",
          "\t\t\tby name\n",
          "\t\t\t\tRequested Key(name), no provider found\n",
          "\t\t\t\tResult: NotApplicable(message=name)\n",
          "\t\t\tResult: NotApplicable(message=No applicable policy found (first-applicable))\n",
          "\t\tResult: Deny(message=No applicable policy found, code=NO_APPLICABLE_POLICY_FOUND)\n"] := by
  obtain ⟨now, last, depth, text⟩ :=
    prints_section { bias := .deny } none inquiry inquiry_silent inquired inquired_silent {}
  have empty : inquired.memory.report.text.toList = [] := rfl
  rw [empty, List.nil_append, TraceLine.flatMap_shown] at text
  refine ⟨now, last, depth, (String.toList_injective text).trans ?_⟩
  decide +kernel

end EnforcementPoint

end AccessPolicy
