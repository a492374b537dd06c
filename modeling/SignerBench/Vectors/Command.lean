import SignerBench.Vectors.CommandLine

namespace SignerBench.Vectors.Command

inductive Ask where
  | fetch (requests : List Generator.Request)
  | run (run : Program.Run)
  | files (ask : Files.Ask)

def Reply : Ask → Type
  | .fetch _ => List (Nat × Web.Response)
  | .run _ => Program.Outcome
  | .files ask => Files.Reply ask

structure Ending where
  code : Nat
  output : String := ""
  /-- The error that its work came to. -/
  problem : Option String := none
  /-- Why its command line was refused. -/
  complaint : Option String := none
  deriving DecidableEq, Repr

def authorizerRun (job : Job) (s : Submission) : Program.Run :=
  ⟨job.program, job.arguments, Authorizer.request s.seed s.plan⟩

def question (job : Job) : Generator.Ask → Ask
  | .fetch requests => .fetch requests
  | .authorize submission => .run (authorizerRun job submission)
  | .files ask => .files ask

def reply (job : Job) : (q : Generator.Ask) → Reply (question job q) → Generator.Reply q
  | .fetch _, r => r
  | .authorize _, outcome => Authorizer.conclude job.program outcome
  | .files _, r => r

def perform (job : Job) : Talk Ask Reply (Except Error Nat) :=
  (Generator.generate job.options job.outDir).run.via (question job) (reply job) id

def execute (arguments : List String) : Talk Ask Reply Ending :=
  match CommandLine.read arguments with
  | .error .help => pure { code := 0, output := CommandLine.helpText }
  | .error .version => pure { code := 0, output := CommandLine.versionText }
  | .error (.misuse cause) => pure { code := 2, complaint := some cause.message }
  | .ok job => do
    match ← perform job with
    | .ok _ => return { code := 0 }
    | .error e => return { code := 1, problem := some e.message }

end SignerBench.Vectors.Command
