import EntityScaffold.Generation.Report

/-!
# Runs

A run takes one class through checks and a plan to a store.

* The class is checked, then the entity, then the features of the project. Each of these may stop
  the run; warnings and missing features may be confirmed.
* All conflicts are settled before anything is written, so that a run cancelled there changes
  nothing.
* The artifacts are written in order. A write that fails ends the run; what is written stays.

Whoever is asked answers from a state of their own, which also takes the log.
-/

namespace EntityScaffold

/-- Everybody a run talks to. -/
structure Partner (σ : Type) where
  log : LogLine → σ → σ
  advisor : Advisor σ
  alternative : Option (String → String)
  hasFeature : Feature → σ → Bool × σ
  confirmConcerns : List Concern → σ → Bool × σ
  confirmMissing : FeatureReport → σ → Bool × σ

namespace Partner

/-- A partner who listens to nothing, skips conflicts, offers all features and confirms nothing. -/
def passive (σ : Type) : Partner σ where
  log _ s := s
  advisor := .constant (.once .skip)
  alternative := none
  hasFeature _ s := (true, s)
  confirmConcerns _ s := (false, s)
  confirmMissing _ s := (false, s)

variable {σ : Type} (w : Partner σ)

/-- Logs a line. -/
def say (level : LogLevel) (text : String) (s : σ) : σ := w.log ⟨level, text⟩ s

/-- Logs lines of one level. -/
def sayAll (level : LogLevel) (texts : List String) (s : σ) : σ :=
  texts.foldl (fun s t => w.say level t s) s

/-- The features of a list that are missing. -/
def missingOf : List Feature → σ → List Feature × σ
  | [], s => ([], s)
  | f :: fs, s =>
    let (found, s) := w.hasFeature f s
    let (rest, s) := missingOf fs s
    (if found then rest else f :: rest, s)

/-- Lets findings pass, or gives the report that stops the run. Concerns of an earlier check are
reported too. -/
def passFindings (found : Findings) (earlier : List Concern) (s : σ) : Option RunReport × σ :=
  if found.isValid then
    if found.hasConcerns then
      let s := w.sayAll .warning found.warnings s
      let (accepted, s) := w.confirmConcerns found.concerns s
      if accepted then (none, s)
      else
        (some { status := .cancelled, concerns := earlier ++ found.concerns },
          w.say .info "Cancelled: warnings not accepted" s)
    else (none, s)
  else
    (some { status := .invalid, defects := found.defects, concerns := earlier ++ found.concerns },
      w.sayAll .error found.errors s)

/-- Lets the settings pass if their features are there or those missing are confirmed. Gives the
missing features and whether to go on. -/
def passFeatures (p : Settings) (s : σ) : List Feature × Bool × σ :=
  let (missing, s) := w.missingOf (Feature.required p) s
  if missing.isEmpty then (missing, true, s)
  else
    let s := w.sayAll .warning (missing.map fun f => "Missing dependency: " ++ f.name) s
    let (accepted, s) := w.confirmMissing ⟨Feature.required p, missing⟩ s
    if accepted then (missing, true, s)
    else (missing, false, w.say .info "Cancelled: missing dependencies" s)

/-- Settles artifacts in order, unless somebody cancels. -/
def settle (existing : List Identity) :
    List Artifact → Batch → σ → Except Batch.NoNameLeft (Option (List (Artifact × Decision))) × σ
  | [], _, s => (.ok (some []), s)
  | a :: rest, b, s =>
    match b.resolve w.advisor w.alternative existing a.identity s with
    | (.error e, _, s) => (.error e, s)
    | (.ok d, b, s) =>
      if b.cancelled then (.ok none, s)
      else
        let (plan, s) := settle existing rest b s
        (plan.map fun o => o.map fun ds => (a, d) :: ds, s)

/-- The plan for artifacts: what becomes of each. -/
def plan (p : Settings) (existing : List Identity) (artifacts : List Artifact) (s : σ) :
    Except Batch.NoNameLeft (Option (List (Artifact × Decision))) × σ :=
  w.settle existing artifacts (if p.overwrite then .pinned .write else {}) s

end Partner

/-- The identity and text under which a decision files an artifact, if it files it. -/
def Artifact.filed (a : Artifact) : Decision → Except Text.Template.Fault (Option (Identity × String))
  | .skip => .ok none
  | .write => .ok (some (a.identity, a.text))
  | .rename newName =>
    (Text.rename a.text a.className newName).map fun text =>
      some ({ a.identity with className := newName }, text)

namespace Partner

variable {σ τ : Type} (w : Partner σ) [Store τ]

/-- Logs that an artifact is renamed, if it is. -/
def sayRenamed (a : Artifact) (d : Decision) (s : σ) : σ :=
  match d with
  | .rename newName => w.say .rename (a.identity.qualifiedName ++ " -> " ++ newName) s
  | _ => s

/-- Carries out a plan, adding to a report. -/
def emit : List (Artifact × Decision) → RunReport → τ → σ →
    Except RunFault RunReport × τ × σ
  | [], report, k, s =>
    (.ok report, k,
      w.say .info ("Done: " ++ toString report.written.length ++ " written, " ++
        toString report.skipped.length ++ " skipped") s)
  | (a, d) :: rest, report, k, s =>
    match a.filed d with
    | .error fault => (.error (.template fault), k, s)
    | .ok none =>
      emit rest { report with skipped := report.skipped ++ [a.ref] } k
        (w.say .skip a.identity.qualifiedName s)
    | .ok (some (id, text)) =>
      -- the new name is told even if the write fails
      let s := w.sayRenamed a d s
      match Store.write k id (markedText text) with
      | (.error cause, k) =>
        (.ok { report with status := .failed, failure := some ⟨a.layer, cause⟩ }, k,
          w.say .error cause.message s)
      | (.ok (), k) =>
        emit rest { report with written := report.written ++ [⟨a.layer, id⟩] } k
          (w.say .write id.qualifiedName s)

/-- Plans and writes the artifacts of an entity that passed all checks. -/
def produce (m : Entity) (p : Settings) (concerns : List Concern) (missing : List Feature)
    (k : τ) (s : σ) : Except RunFault RunReport × τ × σ :=
  match Artifact.all m p with
  | .error fault => (.error (.braces fault), k, s)
  | .ok artifacts =>
    match w.plan p (Store.existing k) artifacts s with
    | (.error fault, s) => (.error (.noNameLeft fault), k, s)
    | (.ok none, s) =>
      (.ok { status := .cancelled, skipped := artifacts.map (·.ref), concerns, missing }, k,
        w.say .info "Cancelled while resolving conflicts" s)
    | (.ok (some plan), s) => w.emit plan { status := .ok, concerns, missing } k s

/-- Takes a class through all checks and writes its artifacts. -/
def run (table : TypeTable) (c : SourceClass) (p : Settings) (k : τ) (s : σ) :
    Except RunFault RunReport × τ × σ :=
  let s := w.say .info ("Entity: " ++ c.qualifiedName) s
  -- the class as it is declared
  let found := c.check
  match w.passFindings found [] s with
  | (some report, s) => (.ok report, k, s)
  | (none, s) =>
    match Entity.ofClass? table c with
    | none => (.error (.notAnEntity c.qualifiedName), k, s)
    | some m =>
      -- the entity that the class is
      let foundInEntity := m.check
      match w.passFindings foundInEntity found.concerns s with
      | (some report, s) => (.ok report, k, s)
      | (none, s) =>
        -- the project around it
        let concerns := found.concerns ++ foundInEntity.concerns
        match w.passFeatures p s with
        | (missing, false, s) => (.ok { status := .cancelled, concerns, missing }, k, s)
        | (missing, true, s) => w.produce m p concerns missing k s

end Partner

/-- The words for a fault that is no formatting matter. -/
def RunFault.message : RunFault → String
  | notAnEntity name => "Not a valid JPA entity: " ++ name
  | noNameLeft fault => fault.message
  | braces _ => "A name holds braces that do not fit"
  | template _ => "A name is no replacement"

end EntityScaffold
