import Strij.Gateway.ReceiverResolution
import Strij.NodeAgent.DefaultLocalScheduler

/-! The way back of a forwarded child: the executing node sends its results to the gateway, the receiver
of the submitting connection makes frames of them, and the scheduler of the submitting node makes calls
of these frames. -/
namespace Strij.Gateway
open Strij.Lib Strij.Wire
open Strij.NodeAgent (DefaultLocalScheduler ChildReceiver resultCall)

/-- A frame about a child, as the submitting node finds it. -/
inductive OutcomeFrame
  | result (result : TaskResult)
  | rejected (rejected : TaskRejected)
  deriving DecidableEq, Repr

def NodeConnectionResultReceiver.frame (taskId : String) : ReceiverCall → OutcomeFrame
  | .deliver value isFinal => .result { id := taskId, body := value, isFinal := some isFinal }
  | .deliverError reason _ => .rejected ⟨taskId,reason⟩

/-- The frames put into the mailbox of a connection so far. -/
def ResultReceiverStorage.mailbox (s : ResultReceiverStorage) (conn : ℕ) : List OutcomeFrame :=
  s.calls.filterMap fun
    | (.nodeConnection taskId c,call) => if c = conn then some (NodeConnectionResultReceiver.frame taskId call)
      else none
    | _ => none

def handleOutcomeFrame (s : DefaultLocalScheduler) : OutcomeFrame → DefaultLocalScheduler
  | .result result => s.handleResultFrame result
  | .rejected rejected => s.handleRejectedFrame rejected

section Observed
variable (s : DefaultLocalScheduler)

/-- The calls that a result of a child makes on the receivers of its node, if the child runs there. -/
def observedLocally (id : String) (result : TaskResult) : List (ChildReceiver × ReceiverCall) :=
  (s.send id result).calls.drop s.calls.length

/-- The calls it makes there if it comes from another node: the gateway handles it, and the frames this
puts into the mailbox of the connection are handled by the node. -/
def observedRemotely (gateway : ResultReceiverStorage) (conn : ℕ) (result : TaskResult) :
    Option (List (ChildReceiver × ReceiverCall)) :=
  (gateway.handleTaskResultFrame result).map fun (_,gateway') =>
    (((gateway'.mailbox conn).drop (gateway.mailbox conn).length).foldl handleOutcomeFrame s).calls.drop
      s.calls.length

end Observed

/-- What becomes of a call on the way: an error loses its status. -/
def relayedCall : ReceiverCall → ReceiverCall
  | .deliver value isFinal => .deliver value isFinal
  | .deliverError reason _ => .deliverError reason .capacityRefused

section Relayed
variable {s : DefaultLocalScheduler} {gateway : ResultReceiverStorage} {id : String} {r : ChildReceiver}
  {conn : ℕ} {result : TaskResult}

lemma answer_calls (hget : s.get id = some r) (call : ReceiverCall) :
    (s.answer id call).calls = s.calls ++ [(r,call)] := by
  rw [DefaultLocalScheduler.answer,hget]
  rfl

lemma observedLocally_eq (hget : s.get id = some r) :
    observedLocally s id result = [(r,resultCall result)] := by
  rw [observedLocally,DefaultLocalScheduler.send,answer_calls hget,List.drop_left]

lemma handleOutcomeFrame_calls (hget : s.get id = some r) (call : ReceiverCall) :
    (handleOutcomeFrame s (NodeConnectionResultReceiver.frame id call)).calls =
      s.calls ++ [(r,relayedCall call)] := by
  cases call with
  | deliver value isFinal => exact answer_calls hget _
  | deliverError reason status => exact answer_calls hget _

@[simp] lemma mailbox_erase (id : String) : (gateway.erase id).mailbox conn = gateway.mailbox conn := rfl

@[simp] lemma mailbox_eraseIf (b : Bool) (id : String) :
    (gateway.eraseIf b id).mailbox conn = gateway.mailbox conn := by
  cases b <;> rfl

lemma mailbox_record (call : ReceiverCall) : (gateway.record (.nodeConnection id conn) call).mailbox conn =
      gateway.mailbox conn ++ [NodeConnectionResultReceiver.frame id call] := by
  simp [ResultReceiverStorage.mailbox,ResultReceiverStorage.record]

lemma handleTaskResultFrame_mailbox (hget : gateway.get result.id = some (.nodeConnection result.id conn)) :
    ∃ gateway', gateway.handleTaskResultFrame result = some (.ok,gateway') ∧ gateway'.mailbox conn =
        gateway.mailbox conn ++ [NodeConnectionResultReceiver.frame result.id (resultCall result)] := by
  have hcall (call : ReceiverCall) := ResultReceiverStorage.call_of_endpoint (s := gateway)
    (r := .nodeConnection result.id conn) rfl call
  rw [ResultReceiverStorage.handleTaskResultFrame,hget,resultCall]
  cases hok : result.isOk with
  | false =>
    simp only [Bool.not_false,if_true,hcall,Option.map_some]
    exact ⟨_,rfl,(mailbox_erase _).trans (mailbox_record _)⟩
  | true =>
    simp only [Bool.not_true,Bool.false_eq_true,if_false,hcall,Option.map_some]
    exact ⟨_,rfl,(mailbox_eraseIf _ _).trans (mailbox_record _)⟩

lemma observedRemotely_eq (hgateway : gateway.get id = some (.nodeConnection id conn))
    (hget : s.get id = some r) (hid : result.id = id) :
    observedRemotely s gateway conn result = some [(r,relayedCall (resultCall result))] := by
  subst hid
  obtain ⟨gateway',hframe,hmailbox⟩ := handleTaskResultFrame_mailbox hgateway
  rw [observedRemotely,hframe,Option.map_some]
  simp only [hmailbox,List.drop_left,List.foldl_cons,List.foldl_nil]
  rw [handleOutcomeFrame_calls hget,List.drop_left]

end Relayed

def waitingGateway : ResultReceiverStorage := ({} : ResultReceiverStorage).put "b" (.nodeConnection "b" 3) "node-2"

def childNode (admitted : Bool) : DefaultLocalScheduler :=
  ({ handlers := fun _ => true, forward := true } : DefaultLocalScheduler).schedule
    (DefaultLocalScheduler.childTask "b" "batch") 2 admitted true

end Strij.Gateway
