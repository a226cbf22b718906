import ForgetOps.Database.PrivacyRequestRepository
import ForgetOps.Api.SubjectBinding
import ForgetOps.Api.Pairing

/-
  The system: the three transaction scripts, and everything that goes on around them.

  Around them, any transaction may write a row of the tables the scripts only read or tidy up
  (`OtherWrite`), and the process creates aggregates, issues commands on them and acknowledges
  saves (`ProcessAction`). A `Discipline` restricts what a run may contain; without one the runs
  are all interleavings.
-/

namespace ForgetOps.Database

open Domain Api
open ReadCommitted (Script)

/-- One row written by code outside of the three scripts. Tokens are only ever inserted there. -/
inductive OtherWrite where
  | environment (id : String) (row : Option EnvironmentRow)
  | agent (id : String) (row : Option AgentRow)
  | envelope (requestId : String) (row : Option EnvelopeRow)
  | job (id : String) (row : Option JobRow)
  | token (id : String) (row : TokenRow)
  | «alias» (key : AliasKey) (row : Option AliasRow)

/-- `validate_subject_envelope_scope`: an envelope belongs to a request of its scope. -/
def validateEnvelopeScope (requestId : String) : Option EnvelopeRow → Transaction Unit
  | none => .done ()
  | some envelope => do
    let request ← Script.read fun (w : World) => w.requests.find requestId
    Script.failIf (request.map (fun row => (row.tenantId, row.environmentId)) ≠
      some (envelope.tenantId, envelope.environmentId)) "42501"

def writeRow (k : Key) (v : Row k) : Transaction Unit := do
  let _ ← Script.update k fun _ => some ((), v)
  return ()

def OtherWrite.script : OtherWrite → Transaction Unit
  | .environment id row => writeRow (.environment id) row
  | .agent id row => writeRow (.agent id) row
  | .envelope requestId row => do
    validateEnvelopeScope requestId row
    writeRow (.envelope requestId) row
  | .job id row => writeRow (.job id) row
  | .token id row => do
    let inserted ← Script.update (.token id) (whenAbsent row)
    Script.failIf (inserted = none) "unique_violation"
  | .alias key row => writeRow (.alias key) row

inductive TransactionRequest where
  | save (input : SaveRequest)
  | bindSubject (input : BindSubjectRequest)
  | consumeAndPair (input : ConsumeAndPairInput)
  | other (write : OtherWrite)

namespace TransactionRequest

def script (rt : Runtime) : TransactionRequest → Transaction Unit
  | .save input => PrivacyRequestRepository.save rt input
  | .bindSubject input => do
    let _ ← SubjectBinding.bindSubjectInTransaction rt input
    return ()
  | .consumeAndPair input => do
    let _ ← Pairing.consumeAndPair input
    return ()
  | .other write => write.script

/-- `save` reads the aggregate when it is called. -/
def Starts (w : World) : TransactionRequest → Prop
  | .save input => ∃ a, w.aggregates[input.aggregate]? = some a ∧
      input.snapshot = a.snapshot ∧ input.pendingEvents = a.pendingEvents
  | _ => True

/-- A committed save waits for its acknowledgement. -/
def settle (w : World) : TransactionRequest → World
  | .save input =>
    { w with
      acknowledgements := w.acknowledgements ++ [⟨input.aggregate, input.pendingEvents.length⟩] }
  | _ => w

end TransactionRequest

inductive ProcessAction where
  | create (input : CreatePrivacyRequest)
  | command (aggregate : Nat) (call : Call)
  | acknowledge (ack : Acknowledgement)
  /-- The process never learns that the save was committed. -/
  | lose (ack : Acknowledgement)

namespace World

def modifyAggregate (w : World) (i : Nat)
    (f : PrivacyRequestAggregate → PrivacyRequestAggregate) : World :=
  { w with aggregates := w.aggregates.modify i f }

/-- The world after a process action. -/
def act (w : World) : ProcessAction → World
  | .create input =>
    { w with aggregates := w.aggregates ++ [PrivacyRequestAggregate.create input] }
  | .command i call => w.modifyAggregate i fun a => (invoke a call).2
  | .acknowledge ack =>
    { w.modifyAggregate ack.aggregate fun a =>
        ((PrivacyRequestAggregate.markEventsCommitted ack.count).exec a).2 with
      acknowledgements := w.acknowledgements.erase ack }
  | .lose ack => { w with acknowledgements := w.acknowledgements.erase ack }

/-- Only a committed save is acknowledged. -/
def Enabled (w : World) : ProcessAction → Prop
  | .acknowledge ack | .lose ack => ack ∈ w.acknowledgements
  | _ => True

def initial : World where
  requests := .empty
  attempts := .empty
  auditEvents := .empty
  outboxEvents := .empty
  chainHeads := .empty
  environments := .empty
  agents := .empty
  envelopes := .empty
  jobs := .empty
  tokens := .empty
  aliases := .empty
  aggregates := []
  acknowledgements := []

end World

/-- What a run may contain: which transactions may commit, and which process actions may happen
    while some transactions are live. -/
structure Discipline where
  commits : World → TransactionRequest → Prop
  acts : (TransactionRequest → Prop) → World → ProcessAction → Prop

def anyRun : Discipline where
  commits _ _ := True
  acts _ _ _ := True

def system (rt : Runtime) (d : Discipline) :
    ReadCommitted.System World Row TransactionRequest Unit where
  starts w request := request.Starts w
  body request := request.script rt
  commits := d.commits
  settle request _ w := request.settle w
  environment live w w' := ∃ action, w.Enabled action ∧ d.acts live w action ∧ w' = w.act action

abbrev Configuration := ReadCommitted.Conf World Row TransactionRequest Unit

/-- The configurations of all interleavings that keep to the discipline. -/
def Reachable (rt : Runtime) (d : Discipline) (c : Configuration) : Prop :=
  ReadCommitted.Reachable (system rt d) World.initial c

end ForgetOps.Database
