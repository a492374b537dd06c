namespace SignerBench.Vectors

inductive Authorization where
  | spendAuth
  | delegatorVote
  | lqtVote
  deriving DecidableEq, Repr

def Authorization.name : Authorization → String
  | .spendAuth => "spend auth"
  | .delegatorVote => "delegator vote"
  | .lqtVote => "lqt vote"

inductive ActionKind where
  | spend
  | output
  | swap
  | swapClaim
  | validatorDefinition
  | ibcRelayAction
  | proposalSubmit
  | proposalWithdraw
  | validatorVote
  | delegatorVote
  | proposalDepositClaim
  | positionOpen
  | positionClose
  | positionWithdraw
  | positionRewardClaim
  | delegate
  | undelegate
  | undelegateClaim
  | communityPoolSpend
  | communityPoolOutput
  | communityPoolDeposit
  | ics20Withdrawal
  | actionDutchAuctionSchedule
  | actionDutchAuctionEnd
  | actionDutchAuctionWithdraw
  | actionLiquidityTournamentVote
  deriving DecidableEq, Repr

namespace ActionKind

def all : List ActionKind :=
  [spend, output, swap, swapClaim, validatorDefinition, ibcRelayAction, proposalSubmit, proposalWithdraw,
    validatorVote, delegatorVote, proposalDepositClaim, positionOpen, positionClose, positionWithdraw,
    positionRewardClaim, delegate, undelegate, undelegateClaim, communityPoolSpend, communityPoolOutput,
    communityPoolDeposit, ics20Withdrawal, actionDutchAuctionSchedule, actionDutchAuctionEnd,
    actionDutchAuctionWithdraw, actionLiquidityTournamentVote]

def name : ActionKind → String
  | spend => "spend"
  | output => "output"
  | swap => "swap"
  | swapClaim => "swapClaim"
  | validatorDefinition => "validatorDefinition"
  | ibcRelayAction => "ibcRelayAction"
  | proposalSubmit => "proposalSubmit"
  | proposalWithdraw => "proposalWithdraw"
  | validatorVote => "validatorVote"
  | delegatorVote => "delegatorVote"
  | proposalDepositClaim => "proposalDepositClaim"
  | positionOpen => "positionOpen"
  | positionClose => "positionClose"
  | positionWithdraw => "positionWithdraw"
  | positionRewardClaim => "positionRewardClaim"
  | delegate => "delegate"
  | undelegate => "undelegate"
  | undelegateClaim => "undelegateClaim"
  | communityPoolSpend => "communityPoolSpend"
  | communityPoolOutput => "communityPoolOutput"
  | communityPoolDeposit => "communityPoolDeposit"
  | ics20Withdrawal => "ics20Withdrawal"
  | actionDutchAuctionSchedule => "actionDutchAuctionSchedule"
  | actionDutchAuctionEnd => "actionDutchAuctionEnd"
  | actionDutchAuctionWithdraw => "actionDutchAuctionWithdraw"
  | actionLiquidityTournamentVote => "actionLiquidityTournamentVote"

/-- The other spelling of the name, with underscores between its words. -/
def snakeName (k : ActionKind) : String :=
  String.ofList (k.name.toList.flatMap fun c => if c.isUpper then ['_', c.toLower] else [c])

def ofName? (s : String) : Option ActionKind := all.find? fun k => k.name = s || k.snakeName = s

/-- What an action of this kind has to be authorized with, if it has to be. -/
def authorization? : ActionKind → Option Authorization
  | spend => some .spendAuth
  | delegatorVote => some .delegatorVote
  | actionLiquidityTournamentVote => some .lqtVote
  | _ => none

end ActionKind

end SignerBench.Vectors
