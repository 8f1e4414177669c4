/-
Which point a name leads to. A decision point keeps one point for each name, in the order in which the names
were installed first, and the point is the one installed last. A context takes the points that are there when it
is made, and the attributes after them; so an attribute of a name goes before what is installed for it, and
nothing that is installed later can be seen in the context.
-/

import AccessPolicy.Proofs.Engine.Merging
import AccessPolicy.Proofs.Engine.Representation
import AccessPolicy.Session.Run

namespace AccessPolicy

/-! ### Lists with one point for each name -/

private theorem eraseDups_concat (names : List String) (last : String) :
    (names ++ [last]).eraseDups =
      if last ∈ names then names.eraseDups else names.eraseDups ++ [last] := by
  rw [List.eraseDups_append]
  by_cases known : last ∈ names
  · simp [known, List.removeAll]
  · simp [known, List.removeAll, List.eraseDups_cons]

section

variable {points : List InformationPoint}

theorem registered?_eq_some_iff_mem (distinct : (points.map InformationPoint.name).Nodup)
    {name : String} {point : InformationPoint} :
    registered? points name = some point ↔ point ∈ points ∧ point.name = name := by
  constructor
  · intro found
    exact ⟨registered?_mem found, registered?_name found⟩
  · rintro ⟨member, named⟩
    have known : (registered? points name).isSome :=
      registered?_isSome_iff.mpr (List.mem_map.mpr ⟨point, member, named⟩)
    obtain ⟨other, found⟩ := Option.isSome_iff_exists.mp known
    have same := List.inj_on_of_nodup_map distinct (registered?_mem found) member
      ((registered?_name found).trans named.symm)
    rw [found, same]

/-- A list of points has this one, and no later one of its name. -/
def InformationPoint.LatestOf (point : InformationPoint) (points : List InformationPoint) : Prop :=
  ∃ before after, points = before ++ point :: after ∧ ∀ other ∈ after, other.name ≠ point.name

theorem latestOf_iff {point : InformationPoint} :
    point.LatestOf points ↔ registered? points point.name = some point := by
  rw [registered?_eq_some_iff]
  constructor
  · rintro ⟨before, after, shape, others⟩
    exact ⟨before, after, shape, rfl, others⟩
  · rintro ⟨before, after, shape, _, others⟩
    exact ⟨before, after, shape, others⟩

theorem registered?_eq_none_iff {name : String} :
    registered? points name = none ↔ ∀ point ∈ points, point.name ≠ name := by
  rw [← Option.not_isSome_iff_eq_none, registered?_isSome_iff, List.mem_map]
  constructor
  · intro absent point member same
    exact absent ⟨point, member, same⟩
  · rintro others ⟨point, member, same⟩
    exact others point member same

namespace DecisionPoint

theorem names_replaceOrAppend (point : InformationPoint) (points : List InformationPoint) :
    (replaceOrAppend point points).map InformationPoint.name =
      if point.name ∈ points.map InformationPoint.name then points.map InformationPoint.name
      else points.map InformationPoint.name ++ [point.name] := by
  induction points with
  | nil => simp [replaceOrAppend]
  | cons other others ih =>
      unfold replaceOrAppend
      by_cases same : other.name = point.name
      · simp [same]
      · rw [if_neg same, List.map_cons, ih]
        by_cases known : point.name ∈ others.map InformationPoint.name
        · simp [known]
        · simp [known, Ne.symm same]

theorem nodup_replaceOrAppend (distinct : (points.map InformationPoint.name).Nodup)
    (point : InformationPoint) :
    ((replaceOrAppend point points).map InformationPoint.name).Nodup := by
  rw [names_replaceOrAppend]
  by_cases known : point.name ∈ points.map InformationPoint.name
  · rw [if_pos known]
    exact distinct
  · rw [if_neg known]
    exact List.nodup_append_comm.mpr (List.nodup_cons.mpr ⟨known, distinct⟩)

theorem mem_replaceOrAppend (distinct : (points.map InformationPoint.name).Nodup)
    {point other : InformationPoint} :
    other ∈ replaceOrAppend point points ↔
      other = point ∨ other ∈ points ∧ other.name ≠ point.name := by
  induction points with
  | nil => simp [replaceOrAppend]
  | cons first rest ih =>
      obtain ⟨apart, later⟩ := List.nodup_cons.mp distinct
      unfold replaceOrAppend
      by_cases same : first.name = point.name
      · have elsewhere (within : other ∈ rest) : other.name ≠ point.name := by
          intro named
          rw [← same] at named
          exact apart (List.mem_map.mpr ⟨other, within, named⟩)
        rw [if_pos same, List.mem_cons, List.mem_cons]
        constructor
        · rintro (here | within)
          · exact .inl here
          · exact .inr ⟨.inr within, elsewhere within⟩
        · rintro (here | ⟨rfl | within, differs⟩)
          · exact .inl here
          · exact absurd same differs
          · exact .inr within
      · rw [if_neg same, List.mem_cons, List.mem_cons, ih later]
        constructor
        · rintro (rfl | here | ⟨within, differs⟩)
          · exact .inr ⟨.inl rfl, same⟩
          · exact .inl here
          · exact .inr ⟨.inr within, differs⟩
        · rintro (here | ⟨rfl | within, differs⟩)
          · exact .inr (.inl here)
          · exact .inl rfl
          · exact .inr (.inr ⟨within, differs⟩)

theorem replaceOrAppend_of_mem (distinct : (points.map InformationPoint.name).Nodup)
    {point : InformationPoint} (member : point ∈ points) : replaceOrAppend point points = points := by
  induction points with
  | nil => cases member
  | cons first rest ih =>
      obtain ⟨apart, later⟩ := List.nodup_cons.mp distinct
      unfold replaceOrAppend
      rcases List.mem_cons.mp member with here | within
      · subst here
        rw [if_pos rfl]
      · have differs : first.name ≠ point.name := by
          intro same
          exact apart (List.mem_map.mpr ⟨point, within, same.symm⟩)
        rw [if_neg differs, ih later within]

/-- Where both names are there, nothing is appended, and each point takes a place of its own. -/
theorem replaceOrAppend_comm {first second : InformationPoint} (apart : first.name ≠ second.name)
    (known : first.name ∈ points.map InformationPoint.name)
    (also : second.name ∈ points.map InformationPoint.name) :
    replaceOrAppend second (replaceOrAppend first points) =
      replaceOrAppend first (replaceOrAppend second points) := by
  induction points with
  | nil => cases known
  | cons point rest ih =>
      by_cases here : point.name = first.name
      · simp [replaceOrAppend, here, apart]
      · by_cases there : point.name = second.name
        · simp [replaceOrAppend, there, Ne.symm apart]
        · rw [List.map_cons, List.mem_cons] at known also
          have inside := known.resolve_left fun same => here same.symm
          have alsoInside := also.resolve_left fun same => there same.symm
          simp [replaceOrAppend, here, there, ih inside alsoInside]

end DecisionPoint

end

/-! ### Installs, one after the other -/

namespace DecisionPoint

def installAll (points : List InformationPoint) : DecisionPoint := points.foldl install {}

theorem installedKeys_install (decisionPoint : DecisionPoint) (point : InformationPoint) :
    (decisionPoint.install point).installedKeys =
      if point.name ∈ decisionPoint.installedKeys then decisionPoint.installedKeys
      else decisionPoint.installedKeys ++ [point.name] :=
  names_replaceOrAppend point decisionPoint.installed

theorem installAll_concat (points : List InformationPoint) (point : InformationPoint) :
    installAll (points ++ [point]) = (installAll points).install point :=
  List.foldl_concat ..

theorem nodup_installedKeys (points : List InformationPoint) :
    (installAll points).installedKeys.Nodup := by
  induction points using List.reverseRecOn with
  | nil => exact List.nodup_nil
  | append_singleton points point ih =>
      rw [installAll_concat]
      exact nodup_replaceOrAppend ih point

theorem installedKeys_installAll (points : List InformationPoint) :
    (installAll points).installedKeys = (points.map InformationPoint.name).eraseDups := by
  induction points using List.reverseRecOn with
  | nil => rfl
  | append_singleton points point ih =>
      rw [installAll_concat, installedKeys_install, List.map_append, List.map_singleton,
        eraseDups_concat]
      simp only [ih, List.mem_eraseDups]

theorem mem_installAll {points : List InformationPoint} {point : InformationPoint} :
    point ∈ (installAll points).installed ↔ registered? points point.name = some point := by
  induction points using List.reverseRecOn with
  | nil => simp [installAll, registered?]
  | append_singleton points last ih =>
      rw [installAll_concat, registered?_append]
      refine (mem_replaceOrAppend (nodup_installedKeys points)).trans ?_
      rw [ih]
      by_cases same : last.name = point.name
      · simp [registered?, same, eq_comm]
      · have differs : point ≠ last := fun equal => same (congrArg InformationPoint.name equal.symm)
        simp [registered?, same, differs, Ne.symm same]

theorem registered?_installAll (points : List InformationPoint) (name : String) :
    registered? (installAll points).installed name = registered? points name := by
  apply Option.ext
  intro point
  rw [registered?_eq_some_iff_mem (nodup_installedKeys points), mem_installAll]
  constructor
  · rintro ⟨found, rfl⟩
    exact found
  · intro found
    have named := registered?_name found
    subst named
    exact ⟨found, rfl⟩

/-- What a name leads to in a context: its last attribute, or else the point that was installed last for it. -/
inductive Chosen (points attributes : List InformationPoint) (name : String) :
    Option InformationPoint → Prop
  | given {point : InformationPoint} (named : point.name = name)
      (latest : point.LatestOf attributes) : Chosen points attributes name (some point)
  | installed {point : InformationPoint} (unset : ∀ given ∈ attributes, given.name ≠ name)
      (named : point.name = name) (latest : point.LatestOf points) :
      Chosen points attributes name (some point)
  | missing (unset : ∀ given ∈ attributes, given.name ≠ name)
      (absent : ∀ point ∈ points, point.name ≠ name) : Chosen points attributes name none

theorem chosen_iff {points attributes : List InformationPoint} {name : String}
    {choice : Option InformationPoint} :
    Chosen points attributes name choice ↔
      choice = (registered? attributes name).or (registered? points name) := by
  constructor
  · rintro (⟨rfl, latest⟩ | ⟨unset, rfl, latest⟩ | ⟨unset, absent⟩)
    · rw [latestOf_iff.mp latest]
      rfl
    · rw [registered?_eq_none_iff.mpr unset, latestOf_iff.mp latest]
      rfl
    · rw [registered?_eq_none_iff.mpr unset, registered?_eq_none_iff.mpr absent]
      rfl
  · rintro rfl
    have latest {points : List InformationPoint} {point : InformationPoint}
        (found : registered? points name = some point) : point.LatestOf points :=
      latestOf_iff.mpr (by rwa [registered?_name found])
    cases bound : registered? attributes name with
    | some given => exact .given (registered?_name bound) (latest bound)
    | none =>
        have unset := registered?_eq_none_iff.mp bound
        cases found : registered? points name with
        | some point => exact .installed unset (registered?_name found) (latest found)
        | none => exact .missing unset (registered?_eq_none_iff.mp found)

theorem install_of_mem {points : List InformationPoint} {point : InformationPoint}
    (member : point ∈ (installAll points).installed) :
    (installAll points).install point = installAll points :=
  congrArg mk (replaceOrAppend_of_mem (nodup_installedKeys points) member)

theorem install_comm {decisionPoint : DecisionPoint} {first second : InformationPoint}
    (apart : first.name ≠ second.name) (known : first.name ∈ decisionPoint.installedKeys)
    (also : second.name ∈ decisionPoint.installedKeys) :
    (decisionPoint.install first).install second = (decisionPoint.install second).install first :=
  congrArg mk (replaceOrAppend_comm apart known also)

/-- Whatever is asked when, each name that has not come to a value is looked up among the points that were
there when the context was made. -/
theorem createContext_answers {points attributes : List InformationPoint} {machine : Machine}
    {earlier : List Machine}
    (history : ((installAll points).createContext attributes).History machine earlier) {now : Context}
    (own : machine.scene.context = .resolution now) {name : String} (fresh : name ∉ now.inFlight)
    (unresolved : ∀ value, .ended name (.ok value) ∉ chronicle machine.focus earlier)
    (frames : List Frame) (host : Host) :
    Machine.Answers ⟨.request name, frames, host.scene (.resolution now)⟩ name none
      ((registered? attributes name).or (registered? points name)) := by
  have uncached : now.memory.cache.find? name = none := history.find?_eq own unresolved
  have registered : now.points = (installAll points).installed ++ attributes :=
    ((history.stacked rfl).of_context own).1
  have answered := Machine.request_answers fresh frames host
  rwa [uncached, registered, registered?_append, registered?_installAll] at answered

end DecisionPoint

/-! ### Installs and contexts in between -/

/-- Something is installed, or a context made from what is installed. -/
inductive Making
  | install (script : PointScript)
  | context (name : String) (attributes : List PointScript)

namespace Making

def step (decisionPoint : String) : Making → Step
  | .install script => .install decisionPoint script
  | .context name attributes => .context name (.decisionPoint decisionPoint) attributes

def installed? : Making → Option InformationPoint
  | .install script => script.make.toOption
  | .context _ _ => none

def context? : Making → Option String
  | .install _ => none
  | .context name _ => some name

end Making

namespace Session

def cleared (session : Session) : Session := { session with host.journal.events := [] }

section

variable {session after : Session} {step : Step} {answer : Answer}

theorem step_of_error (failed : session.cleared.perform step = .error answer) :
    (session.step step).2 = session.cleared := by
  unfold cleared at failed ⊢
  simp only [Session.step, failed]

theorem step_of_ok (performed : session.cleared.perform step = .ok (answer, after)) :
    (session.step step).2 = after := by
  unfold cleared at performed
  simp only [Session.step, performed]

end

def afterAll (session : Session) (steps : List Step) : Session :=
  steps.foldl (fun session step => (session.step step).2) session

theorem afterAll_append (session : Session) (first second : List Step) :
    session.afterAll (first ++ second) = (session.afterAll first).afterAll second :=
  List.foldl_append

/-- A name leads to a decision point on which these points have been installed. -/
structure Installed (session : Session) (name : String) (place : Nat)
    (points : List InformationPoint) : Prop where
  named : session.decisionPointNames.lookup name = some place
  held : session.decisionPoints[place]? = some (.installAll points)

namespace Installed

variable {session : Session} {name : String} {place : Nat} {points : List InformationPoint}

theorem find (installed : session.Installed name place points) :
    Session.find session.decisionPointNames name = .ok place := by
  unfold Session.find
  rw [installed.named]

theorem decisionPointAt (installed : session.Installed name place points) :
    session.decisionPointAt place = .installAll points := by
  unfold Session.decisionPointAt
  rw [List.getD_eq_getElem?_getD, installed.held]
  rfl

theorem cleared (installed : session.Installed name place points) :
    session.cleared.Installed name place points :=
  ⟨installed.named, installed.held⟩

theorem install (installed : session.Installed name place points) (script : PointScript) :
    let after := (session.step (.install name script)).2
    after.Installed name place (points ++ script.make.toOption.toList) ∧
      after.contexts = session.contexts := by
  cases made : script.make with
  | error error =>
      have failed : session.cleared.perform (.install name script) = .error (.failed error) := by
        simp only [perform, Session.install, orFail, made]
        rfl
      rw [step_of_error failed]
      constructor
      · simpa [Except.toOption] using installed.cleared
      · rfl
  | ok point =>
      have performed : session.cleared.perform (.install name script) =
          .ok (.installed ((DecisionPoint.installAll points).install point),
            { session.cleared with
              decisionPoints :=
                session.decisionPoints.set place ((DecisionPoint.installAll points).install point)
              host.journal := session.cleared.host.journal.log (.installed point.name) }) := by
        rw [← installed.cleared.decisionPointAt]
        simp only [perform, Session.install, orFail, made, installed.cleared.find]
        rfl
      rw [step_of_ok performed]
      refine ⟨⟨installed.named, ?_⟩, rfl⟩
      have inside : place < session.decisionPoints.length :=
        (List.getElem?_eq_some_iff.mp installed.held).1
      change (session.decisionPoints.set place _)[place]? = _
      rw [List.getElem?_set_self inside, ← DecisionPoint.installAll_concat]
      rfl

theorem context (installed : session.Installed name place points) (context : String)
    (scripts : List PointScript) :
    let after := (session.step (.context context (.decisionPoint name) scripts)).2
    after.Installed name place points ∧
      (∀ other, other ≠ context → after.contexts.lookup other = session.contexts.lookup other) ∧
      ∀ attributes, PointScript.makeAll scripts = .ok attributes →
        after.contexts.lookup context =
          some (.resolution ((DecisionPoint.installAll points).createContext attributes)) := by
  let step : Step := .context context (.decisionPoint name) scripts
  cases made : PointScript.makeAll scripts with
  | error error =>
      have failed : session.cleared.perform step = .error (.failed error) := by
        simp only [step, perform, makeContext, orFail, made]
        rfl
      rw [step_of_error failed]
      exact ⟨installed.cleared, fun _ _ => rfl, nofun⟩
  | ok attributes =>
      let opened : EvaluationContext :=
        .resolution ((DecisionPoint.installAll points).createContext attributes)
      have performed : session.cleared.perform step =
          .ok (.done, session.cleared.setContext context opened) := by
        unfold opened
        rw [← installed.cleared.decisionPointAt]
        simp only [step, perform, makeContext, orFail, made, sourcePoint, installed.cleared.find]
        rfl
      rw [step_of_ok performed]
      refine ⟨⟨installed.named, installed.held⟩, ?_, ?_⟩
      · intro other apart
        exact lookup_replace_of_ne session.contexts apart opened
      · rintro _ ⟨⟩
        exact List.lookup_cons_self

theorem step (installed : session.Installed name place points) (making : Making) :
    let after := (session.step (making.step name)).2
    after.Installed name place (points ++ making.installed?.toList) ∧
      ∀ context, making.context? ≠ some context →
        after.contexts.lookup context = session.contexts.lookup context := by
  cases making with
  | install script =>
      obtain ⟨more, same⟩ := installed.install script
      exact ⟨more, fun _ _ => congrArg _ same⟩
  | context made scripts =>
      obtain ⟨still, kept, _⟩ := installed.context made scripts
      constructor
      · rw [show Making.installed? (.context made scripts) = none from rfl, Option.toList_none,
          List.append_nil]
        exact still
      · intro context apart
        exact kept context fun same => apart (congrArg some same.symm)

theorem afterAll (installed : session.Installed name place points) (makings : List Making) :
    let after := session.afterAll (makings.map (Making.step name))
    after.Installed name place (points ++ makings.filterMap Making.installed?) ∧
      ∀ context, (∀ making ∈ makings, making.context? ≠ some context) →
        after.contexts.lookup context = session.contexts.lookup context := by
  induction makings generalizing session points with
  | nil =>
      rw [List.filterMap_nil, List.append_nil]
      exact ⟨installed, fun _ _ => rfl⟩
  | cons making makings ih =>
      obtain ⟨more, kept⟩ := installed.step making
      obtain ⟨all, still⟩ := ih more
      constructor
      · cases made : making.installed? <;> simpa [made, Session.afterAll] using all
      · intro context apart
        rw [List.forall_mem_cons] at apart
        exact (still context apart.2).trans (kept context apart.1)

end Installed

theorem installed_new (session : Session) (name : String) :
    (session.step (.decisionPoint name)).2.Installed name session.decisionPoints.length [] := by
  rw [step_of_ok (rfl : session.cleared.perform (.decisionPoint name) = .ok (.done, _))]
  constructor
  · exact List.lookup_cons_self
  · exact List.getElem?_concat_length

/-- A context that has been made stays as it was made, whatever is installed before or after it. -/
theorem afterAll_context (session : Session) {name context : String} {earlier later : List Making}
    {scripts : List PointScript} {points attributes : List InformationPoint}
    (installed : earlier.filterMap Making.installed? = points)
    (made : PointScript.makeAll scripts = .ok attributes)
    (last : ∀ making ∈ later, making.context? ≠ some context) :
    (session.afterAll (.decisionPoint name ::
      (earlier ++ .context context scripts :: later).map (Making.step name))).contexts.lookup context =
        some (.resolution ((DecisionPoint.installAll points).createContext attributes)) := by
  obtain ⟨before, _⟩ := (session.installed_new name).afterAll earlier
  rw [installed, List.nil_append] at before
  obtain ⟨still, _, bound⟩ := before.context context scripts
  obtain ⟨_, kept⟩ := still.afterAll later
  rw [List.map_append, List.map_cons, ← List.cons_append, afterAll_append]
  exact (kept context last).trans (bound attributes made)

end Session

/-- A decision point keeps the names in the order in which they were installed first, each one once, and for
each name the point that was installed last; so a point that is there changes nothing when it is installed
again, and two installs under names that are there can change places. A context that is made from it starts,
for each name that has not come to a value since and is not in flight, the last attribute of that name, else
the point that was installed last before the context was made, else it reports that there is none. It is the
same context after every install that follows. -/
theorem DecisionPoint.installAll_latest (points attributes : List InformationPoint) :
    let decisionPoint := installAll points
    (decisionPoint.installedKeys = (points.map InformationPoint.name).eraseDups ∧
      decisionPoint.installedKeys.Nodup) ∧
    (∀ point, point ∈ decisionPoint.installed ↔ point.LatestOf points) ∧
    (∀ point ∈ decisionPoint.installed, decisionPoint.install point = decisionPoint) ∧
    (∀ first second, first.name ≠ second.name → first.name ∈ decisionPoint.installedKeys →
      second.name ∈ decisionPoint.installedKeys →
      (decisionPoint.install first).install second = (decisionPoint.install second).install first) ∧
    (∀ machine earlier, (decisionPoint.createContext attributes).History machine earlier →
      ∃ now, machine.scene.context = .resolution now ∧
        ∀ name, name ∉ now.inFlight →
          (∀ value, .ended name (.ok value) ∉ chronicle machine.focus earlier) →
          ∃ choice, Chosen points attributes name choice ∧
            ∀ (frames : List Frame) (host : Host), Machine.Answers
              ⟨.request name, frames, host.scene (.resolution now)⟩ name none choice) ∧
    ∀ (session : Session) (name context : String) (earlier later : List Making)
      (scripts : List PointScript), earlier.filterMap Making.installed? = points →
      PointScript.makeAll scripts = .ok attributes →
      (∀ making ∈ later, making.context? ≠ some context) →
      (session.afterAll (.decisionPoint name ::
        (earlier ++ .context context scripts :: later).map (Making.step name))).contexts.lookup context =
          some (.resolution (decisionPoint.createContext attributes)) := by
  intro decisionPoint
  refine ⟨⟨installedKeys_installAll points, nodup_installedKeys points⟩, ?_, ?_, ?_, ?_, ?_⟩
  · intro point
    exact mem_installAll.trans latestOf_iff.symm
  · intro point member
    exact install_of_mem member
  · intro first second apart known also
    exact install_comm apart known also
  · intro machine earlier history
    obtain ⟨now, own⟩ := history.exists_context
    refine ⟨now, own, fun name fresh unresolved => ⟨_, chosen_iff.mpr rfl, ?_⟩⟩
    intro frames host
    exact createContext_answers history own fresh unresolved frames host
  · intro session name context earlier later scripts installed made last
    exact session.afterAll_context installed made last

namespace DecisionPoint

private def number (n : Int64) : Value := ⟨.int64, n⟩

private def text (content : String) : Value := ⟨.text, content⟩

private def constant (name : String) (value : Value) : InformationPoint :=
  { name, provide := .done (.ok value) }

/-- One name is installed twice, and a context is made in between. -/
private def birthday : List Making :=
  [.install (.constant "age" (number 17)), .install (.constant "role" (text "guest")),
    .context "before" [], .install (.constant "age" (number 18))]

private def birthdayPoints : List InformationPoint :=
  [constant "age" (number 17), constant "role" (text "guest"), constant "age" (number 18)]

private def party : List Making :=
  birthday ++ .context "after" [.constant "role" (text "host")] ::
    [.install (.constant "role" (text "nobody"))]

private def evening : Session :=
  { stamp := { id := ⟨0⟩, finished := ⟨0, 0, 0⟩, elapsed := .of 0 0 } }

theorem installAll_latest_birthday :
    (installAll birthdayPoints).installedKeys = ["age", "role"] ∧
      constant "age" (number 17) ∉ (installAll birthdayPoints).installed ∧
      (installAll birthdayPoints).install (constant "age" (number 18)) = installAll birthdayPoints ∧
      let context := (installAll birthdayPoints).createContext [constant "role" (text "host")]
      Machine.Answers ⟨.request "role", [], Host.scene {} (.resolution context)⟩ "role" none
        (some (constant "role" (text "host"))) ∧
      (evening.afterAll (.decisionPoint "engine" ::
        party.map (Making.step "engine"))).contexts.lookup "after" = some (.resolution context) := by
  obtain ⟨⟨keys, _⟩, latest, again, _, answers, session⟩ :=
    installAll_latest birthdayPoints [constant "role" (text "host")]
  refine ⟨?_, ?_, ?_, ?_, ?_⟩
  · rw [keys]
    decide
  · rw [latest, latestOf_iff]
    intro same
    have programs : Program.done (.ok (number 18)) = Program.done (.ok (number 17)) :=
      congrArg InformationPoint.provide (Option.some.inj same)
    have values := Except.ok.inj (Program.done.inj programs)
    exact absurd (eq_of_heq (Value.mk.inj values).2) (by decide : (18 : Int64) ≠ 17)
  · apply again
    rw [latest, latestOf_iff]
    rfl
  · obtain ⟨now, own, answered⟩ := answers _ _ (.begin (.asking []) {})
    cases own
    obtain ⟨choice, chosen, told⟩ := answered "role" nofun nofun
    cases chosen_iff.mp chosen
    exact told [] {}
  · refine session evening "engine" "after" birthday [.install (.constant "role" (text "nobody"))]
      [.constant "role" (text "host")] rfl rfl ?_
    exact List.forall_mem_singleton.mpr nofun

end DecisionPoint

end AccessPolicy
