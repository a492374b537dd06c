import SignerBench.Files.Path
import SignerBench.Json.Printer
import SignerBench.Vectors.Convert
import SignerBench.Vectors.Fixture
import SignerBench.Outside

namespace SignerBench.Vectors

structure GeneratorOptions where
  base : String := defaultBase
  commit : String := commit
  /-- Plans below this index are of interest. -/
  count : Nat := planCount
  /-- Those among them that are not fetched. -/
  skip : List Nat := skipped
  seed : String := testSeed
  deriving DecidableEq, Repr

/-- A published plan, which need not be one that is understood. -/
structure FetchedPlan where
  index : Nat
  plan : Json
  deriving DecidableEq, Repr

namespace FetchedPlan

abbrev Columns : List Type := [Nat, Json]

def record : Json.Record Columns where
  name := "FetchedPlan"
  fields := .cons (.size "index") (.cons (.any "plan") .nil)

def ofRow : Json.Row Columns → FetchedPlan
  | (index, plan, ()) => ⟨index, plan⟩

def toRow (p : FetchedPlan) : Json.Row Columns := (p.index, p.plan, ())

def read (room : Nat) (d : Json.Draft) : Json.Read FetchedPlan := (record.read room d).map ofRow

def toJson (p : FetchedPlan) : Json := record.write p.toRow

end FetchedPlan

namespace Generator

structure Request where
  index : Nat
  url : String
  deriving DecidableEq, Repr

inductive Ask where
  /-- Fetches all at the same time. -/
  | fetch (requests : List Request)
  | authorize (submission : Submission)
  | files (ask : Files.Ask)

/-- What was fetched comes in any order, under the index of its request. -/
def Reply : Ask → Type
  | .fetch _ => List (Nat × Web.Response)
  | .authorize _ => Except Error Authorized
  | .files ask => Files.Reply ask

abbrev Work := Attempt Ask Reply Empty Error

def requests (o : GeneratorOptions) : List Request :=
  ((List.range o.count).filter fun i => !o.skip.contains i).map fun i => ⟨i, planUrl o.base o.commit i⟩

/-- The plan in an answer. Answers without one are passed over. -/
def planIn : Web.Response → Option Json
  | .body content => (Json.parse content).toOption
  | .refused _ => none
  | .unreachable _ => none

/-- Brings the plans that have come into the order of the requests. -/
def gather (arrivals : List (Nat × Web.Response)) (requests : List Request) : List FetchedPlan :=
  requests.filterMap fun r => do
    let response ← arrivals.lookup r.index
    let plan ← planIn response
    return ⟨r.index, plan⟩

def fetchPlans (o : GeneratorOptions) : Work (List FetchedPlan) := do
  let requests := requests o
  let arrivals ← Attempt.query (Ask.fetch requests)
  return gather arrivals requests

def withFiles {α : Type} (w : FileWork α) : Work α := ExceptT.mk (w.run.via Ask.files (fun _ r => r) id)

def withAuthorizer {α : Type} (w : Authorizing α) : Work α :=
  ExceptT.mk (w.run.via Ask.authorize (fun _ r => r) id)

def convertAll (seed : String) (plans : List FetchedPlan) : Work (List PlanCase) :=
  plans.mapM fun p => withAuthorizer (convert seed p.index p.plan)

def writeJson (path : String) (v : Json) : FileWork Unit :=
  onFile path (Files.Access.write path (Bytes.ofText (Json.pretty v)))

/-- Stores the test cases, then the plans. -/
def writeOutputs (dir : String) (cases : List PlanCase) (plans : List FetchedPlan) : FileWork Unit := do
  onFile dir (Files.Access.createDirs dir)
  writeJson (Files.join dir testCasesFile) (.array (cases.map PlanCase.toJson))
  writeJson (Files.join dir plansFile) (.array (plans.map FetchedPlan.toJson))

/-- Gives the number of test cases made. Nothing is stored unless every fetched plan could be made into one. -/
def generate (o : GeneratorOptions) (dir : String) : Work Nat := do
  let plans ← fetchPlans o
  let cases ← convertAll o.seed plans
  withFiles (writeOutputs dir cases plans)
  return cases.length

end Generator

end SignerBench.Vectors
