import ModelGraph.CommandLine.Outcome
import ModelGraph.Proofs.Problem.Report

/-! # The check command

The command that checks a schema ends with the verdict on the resolved model: its exit code tells
whether the model is in order, and its log how many problems there are (`reports_check`). -/

namespace ModelGraph.CommandLine

namespace Request

variable (request : Request) (settingsText : Option FileText) (schemaText : FileText)

/-- The settings that a request starts from. -/
def base : Except SourceError Settings :=
  match request.settingsFile, settingsText with
  | some path, some text => Settings.ofFileText path text
  | _, _ => .ok {}

/-- The model that a request is about, or why there is none. -/
def resolved : Except SourceError Registry :=
  (request.base settingsText).bind fun base =>
    (runFile (request.settings base) request.schema schemaText).outcome

variable {request settingsText schemaText}

/-- Once its model is resolved, a request to check reports on it. -/
theorem outcome_of_resolved {registry : Registry} (hcommand : request.command = .check)
    (h : request.resolved settingsText schemaText = .ok registry) :
    ∃ log, request.outcome settingsText schemaText = reportModel log registry := by
  obtain ⟨base, hbase, hmodel⟩ := bind_eq_ok_iff.1 h
  refine ⟨eventLines request.verbosity
    (runFile (request.settings base) request.schema schemaText).events ++
      [resolvedLine request.schema registry], ?_⟩
  -- the settings are read only if there are both a file and its text
  rcases hfile : request.settingsFile with _ | path <;> rcases settingsText with _ | text <;>
    simp only [Request.base, hfile, Except.ok.injEq] at hbase <;>
    simp only [outcome, hfile, hbase, hmodel, hcommand]

end Request

/-- A check passes exactly if all references are resolved and the names in each entity are pairwise
distinct. Otherwise it reports each unresolved reference and each repeated name once, in order. The
command that checks a resolved schema exits with the verdict, and tells the number of problems. -/
theorem reports_check (registry : Registry) :
    (registry.check = .ok () ↔ registry.unresolvedReferences = [] ∧
      ∀ entity ∈ registry.entities, (entity.body.fields.map Field.name).Nodup) ∧
    (∀ problems, registry.check = .error problems → problems.Reports registry) ∧
    (∀ entity ∈ registry.entities, ∃ positions,
      Enumerates (· < ·) (RepeatsAt entity.body.fields) positions entity.duplicateNames) ∧
    ∀ (request : Request) (settingsText : Option FileText) (schemaText : FileText),
      request.command = .check → request.resolved settingsText schemaText = .ok registry →
        ((request.outcome settingsText schemaText).exitCode = 0 ↔ registry.check = .ok ()) ∧
        ∀ problems, registry.check = .error problems →
          (request.outcome settingsText schemaText).exitCode = 1 ∧
          ∃ earlier, (request.outcome settingsText schemaText).log = earlier ++
            [.say .error
              (toString problems.count ++ " problem(s) found:\n" ++ withoutEnd problems.text)] := by
  refine ⟨registry.check_eq_ok_iff, fun problems h => ?_,
    fun entity _ => enumerates_duplicateNames entity, ?_⟩
  · rw [ProblemTree.eq_of_verdict_eq_error h]
    exact registry.reports_problems
  · intro request settingsText schemaText hcommand hresolved
    obtain ⟨log, houtcome⟩ := Request.outcome_of_resolved hcommand hresolved
    rw [houtcome, reportModel]
    cases hcheck : registry.check with
    | ok passed =>
        refine ⟨⟨fun _ => rfl, fun _ => rfl⟩, fun problems hproblems => ?_⟩
        cases hproblems
    | error found =>
        constructor
        · constructor <;> rintro ⟨⟩
        · intro problems hproblems
          cases hproblems
          exact ⟨rfl, _, rfl⟩

/-- A record with three fields of one name, two of them unresolved, and a union that comes first in
the report though it stands behind the record. -/
theorem reports_check_repeated :
    ∃ registry problems,
      Request.resolved ⟨.check, "schema", none, [], [], 0⟩ none
          (.ok "type B \x7b a_b: X aB: Y z: X aB: Int \x7d\nunion A = Z") = .ok registry ∧
        registry.check = .error problems ∧ problems.Reports registry ∧ problems.count = 6 ∧
        problems.flatten =
          [("A.Z", "reference to undeclared type 'Z'"),
            ("B", "duplicate member name 'aB' for 'a_b' and 'aB'"),
            ("B", "duplicate member name 'aB' for 'aB' and 'aB'"),
            ("B.aB", "reference to undeclared type 'X'"),
            ("B.aB", "reference to undeclared type 'Y'"),
            ("B.z", "reference to undeclared type 'X'")] ∧
        (Request.outcome ⟨.check, "schema", none, [], [], 0⟩ none
          (.ok "type B \x7b a_b: X aB: Y z: X aB: Int \x7d\nunion A = Z")).exitCode = 1 := by
  have h : resolve "type B \x7b a_b: X aB: Y z: X aB: Int \x7d\nunion A = Z" {} = .ok
      { entities :=
          [ { definition := ⟨"B", "B", ""⟩
              body := .record
                [ .typed ⟨"aB", "a_b"⟩ (.unresolved "X") false,
                  .typed ⟨"aB", "aB"⟩ (.unresolved "Y") false,
                  .typed ⟨"z", "z"⟩ (.unresolved "X") false,
                  .typed ⟨"aB", "aB"⟩ (.scalar .int) false ] },
            { definition := ⟨"A", "A", ""⟩
              body := .union [⟨"Z", .unresolved "Z"⟩] } ]
        positions := [("A", 1), ("B", 0)] } :=
    resolve_eq_ok_of_toOption (by decide +kernel)
  have hresolved : Request.resolved ⟨.check, "schema", none, [], [], 0⟩ none
      (.ok "type B \x7b a_b: X aB: Y z: X aB: Int \x7d\nunion A = Z") = .ok _ :=
    congrArg (Except.mapError SourceError.resolution) h
  obtain ⟨hok, hreports, -, hcommand⟩ := reports_check _
  obtain ⟨-, hexit⟩ := hcommand _ _ _ rfl hresolved
  cases hcheck : Registry.check _ with
  | ok passed => exact absurd (hok.1 hcheck).1 (by decide +kernel)
  | error problems =>
      refine ⟨_, problems, hresolved, hcheck, hreports problems hcheck, ?_, ?_, ?_⟩
      · exact (hreports problems hcheck).count.trans (by decide +kernel)
      · rw [ProblemTree.eq_of_verdict_eq_error hcheck]
        decide +kernel
      · exact (hexit problems hcheck).1

end ModelGraph.CommandLine
