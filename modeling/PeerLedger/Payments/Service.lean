import PeerLedger.Ledger.Soundness
import PeerLedger.Payments.MoneyText

/-!
# The two services together

The world of the payments service holds its own database, the requests that it has sent, and the
whole ledger with its threads.  The network may lose or delay every request and every response: a
request that was sent may be executed by the ledger at any later time, or never; a response may be
lost or replaced by an error at any time; and a response that comes may have lost its body.  Owners
use the ledger's public commands meanwhile.

What is not in any table is kept for reference: the commits of the payments service, the program of
every started thread, and for every request the contents of the ledger when it was sent.
-/

namespace PeerLedger

namespace Payments

open Transactions

/-- A commit of the payments service. -/
abbrev PaymentsCommit := Commit Nat Database Write PaymentsError Reply

/-- A program that was started. -/
structure Job where
  command : Command
  draw : Draw

/-- A request that was sent to the ledger. -/
structure Request where
  command : Ledger.Command
  /-- The committed contents of the ledger when it was sent. -/
  ledgerDb : Ledger.Database

/-- The state of both services and of the network between them. -/
structure World where
  db : Database
  /-- The commits of the payments service. -/
  log : List PaymentsCommit
  jobs : Nat → Option Job
  /-- The requests sent so far; the ticket of a request is its place. -/
  sent : List Request
  ledger : Ledger.LedgerSys
  /-- The request that a thread of the ledger executes. -/
  origin : Nat → Option Nat

/-- The surroundings of the two services. -/
structure Setting where
  config : Config
  ledger : Ledger.Setting
  /-- The errors that a statement of the payments service may throw at any time. -/
  fails : PaymentsError → Prop
  /-- A restriction on the commits of the payments service in a run, given what all its threads have
  pending. -/
  admits : World → (Nat → List Write) → PaymentsCommit → Prop
  /-- The commands that the payments service is asked to execute. -/
  serves : Command → Prop
  /-- What a thread of the payments service can draw. -/
  draws : Nat → Draw → Prop
  /-- The commands that owners give. -/
  owners : Ledger.Command → Prop
  /-- A restriction on the commands of owners in a run. -/
  allows : World → Ledger.Command → Prop := fun _ _ => True
  /-- The successful responses that may lose their body. -/
  loses : Ledger.Command → Ledger.Reply → Prop

/-- The commands of the ledger's public endpoints. -/
def isPublic : Ledger.Command → Bool
  | .getOrCreateForUser .. => true
  | .deposit .. => true
  | .withdraw .. => true
  | .placeHold .. => true
  | .releaseHold .. => true
  | .consumeHold .. => true
  | _ => false

/-- The transfer that an internal command is about. -/
def transferOf : Ledger.Command → Option String
  | .validateTransfer dto => some dto.transferId
  | .placeTransferHold transferId _ => some transferId
  | .releaseTransferHold transferId _ => some transferId
  | .settleTransfer transferId _ => some transferId
  | _ => none

/-- The world before any request. -/
def World.initial (users : List Ledger.User) : World :=
  { db := Database.initial, log := [], jobs := fun _ => none, sent := [],
    ledger := Sys.init (Ledger.LedgerWorld.initial users), origin := fun _ => none }

/-- The ledger after thread `i` has started a command. -/
def startLedger (l : Ledger.LedgerSys) (i : Nat) (command : Ledger.Command)
    (draw : Nat → Ledger.Draw) : Ledger.LedgerSys :=
  l.set i (.run (command.program draw)) (l.world.start i command draw)

/-- Thread `i` of the ledger can start, with what it draws. -/
structure CanStart (setting : Setting) (l : Ledger.LedgerSys) (i : Nat) (draw : Nat → Ledger.Draw) :
    Prop where
  idle : l.threads i = .idle
  jobs : l.world.jobs i = none
  uuid : ∀ n, setting.ledger.uuid (draw n).transactionId

/-- The steps of the ledger: its threads go on, an owner gives a command, or a request arrives. -/
inductive LedgerMoves (setting : Setting) (w : World) : World → Prop
  | move {l} : Step (Ledger.ledger setting.ledger).closed w.ledger l →
      LedgerMoves setting w { w with ledger := l }
  | owner {i command draw} : isPublic command → setting.owners command → setting.allows w command →
      CanStart setting w.ledger i draw →
      LedgerMoves setting w { w with ledger := startLedger w.ledger i command draw }
  | deliver {i n request draw} : w.sent[n]? = some request → CanStart setting w.ledger i draw →
      LedgerMoves setting w
        { w with
          ledger := startLedger w.ledger i request.command draw
          origin := Function.update w.origin i (some n) }

/-- The command of the request with ticket `n` has returned `reply`. -/
def World.Returned (w : World) (n : Nat) (reply : Ledger.Reply) : Prop :=
  ∃ i, w.origin i = some n ∧ w.ledger.threads i = .run (.done (.ok reply))

/-- How the fetch of the request with ticket `n` can end. -/
inductive Fetched (setting : Setting) (w : World) (n : Nat) (command : Ledger.Command) :
    FetchOutcome → Prop
  | aborted : Fetched setting w n command .aborted
  | rejected {message} : Fetched setting w n command (.rejected message)
  | refused {status body} : isOk status = false →
      Fetched setting w n command (.response status body)
  | answered {reply status} : w.Returned n reply → isOk status = true →
      Fetched setting w n command (.response status { reply := some reply })
  | truncated {reply status} : w.Returned n reply → setting.loses command reply →
      isOk status = true → Fetched setting w n command (.response status {})

/-- The payments service in this world. -/
def payments (setting : Setting) :
    Service Nat World Database Write PaymentsError Reply Ask Answer Nat Result where
  db w := w.db
  commit w c := { w with db := view w.db c.writes, log := w.log ++ [c] }
  admits := setting.admits
  fails := setting.fails
  issue w _ q t w' :=
    match q with
    | .fetch command =>
      t = w.sent.length ∧ w' = { w with sent := w.sent ++ [⟨command, w.ledger.world.db⟩] }
    | _ => w' = w
  answer w _ q t u :=
    match q with
    | .fetch command => ∃ outcome, u = .fetched outcome ∧ Fetched setting w t command outcome
    | _ => ∃ b, u = .flag b
  starts w i program w' := w.jobs i = none ∧ ∃ command draw, setting.serves command ∧
    setting.draws i draw ∧ program = command.program setting.config draw ∧
    w' = { w with jobs := Function.update w.jobs i (some ⟨command, draw⟩) }
  env := LedgerMoves setting

/-- A state of the payments service and its world. -/
abbrev System := Sys Nat World Database Write PaymentsError Reply Ask Answer Nat Result

end Payments

end PeerLedger
