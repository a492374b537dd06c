import SignerBench.Files.Tree
import SignerBench.Program.Shell
import SignerBench.Vectors.Command

namespace SignerBench.Vectors

/-- What an authorizer answers, as far as it is fixed. -/
inductive Authority where
  | fails (cause : Error)
  /-- Left open are the plan, which is then its own text, and the lists, which are then as long as they should
  be and hold the same byte all over. -/
  | answers (plan : Option Bytes) (effectHash : Bytes) (spendAuths delegatorVotes lqtVotes : Option (List Bytes))

def Authority.authorize (plan : Plan) : Authority → Except Error Authorized
  | .fails cause => .error cause
  | .answers text effectHash spendAuths delegatorVotes lqtVotes =>
    let filled (given : Option (List Bytes)) (kind : Authorization) (b : UInt8) : List Bytes :=
      given.getD (List.replicate (plan.needed kind) (List.replicate signatureLength b))
    .ok ⟨text.getD (Bytes.ofText (Json.compact plan.toJson)), effectHash, filled spendAuths .spendAuth 1,
      filled delegatorVotes .delegatorVote 2, filled lqtVotes .lqtVote 3⟩

structure Replica where
  /-- Pages by the end of their address. -/
  pages : List (String × Web.Response) := []
  /-- The server can be reached. -/
  reachable : Bool := true
  tree : Files.Tree := {}
  scratch : String := "scratch"
  authority : Authority := .fails .crash
  /-- The addresses that were asked for, and the words that plans were submitted with, in reverse. -/
  asked : List String := []
  seeds : List String := []

namespace Replica

def page (r : Replica) (url : String) : Web.Response :=
  ((r.pages.find? fun (name, _) => url.endsWith name).map (·.2)).getD (.refused 404)

def fetch (requests : List Generator.Request) (r : Replica) : List (Nat × Web.Response) × Replica :=
  if r.reachable then
    (requests.map fun q => (q.index, r.page q.url), { r with asked := (requests.map (·.url)).reverse ++ r.asked })
  else (requests.map fun q => (q.index, .unreachable "Connection refused"), r)

def submit (s : Submission) (r : Replica) : Except Error Authorized × Replica :=
  (r.authority.authorize s.plan, { r with seeds := s.seed :: r.seeds })

def work (ask : Files.Ask) (r : Replica) : Files.Reply ask × Replica :=
  let (answer, tree) := r.tree.reply r.scratch ask
  (answer, { r with tree := tree })

def reply : (q : Generator.Ask) → Replica → Generator.Reply q × Replica
  | .fetch requests, r => r.fetch requests
  | .authorize submission, r => r.submit submission
  | .files ask, r => r.work ask

/-- For the program, whose authorizer is a program as well. -/
def commandReply : (q : Command.Ask) → Replica → Command.Reply q × Replica
  | .fetch requests, r => r.fetch requests
  | .run run, r => (Program.Simulated.run run, r)
  | .files ask, r => r.work ask

end Replica

end SignerBench.Vectors
