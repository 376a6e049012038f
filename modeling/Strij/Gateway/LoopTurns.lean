import Strij.Gateway.DeskSteps

/-! What one event of the loop can come to: a change of the network with its close callbacks, a node
that gets another id, or work on the desk. -/
namespace Strij.Gateway
open Strij.Lib Strij.Wire

lemma mem_handledFrameTypes {schedulers : List RoutedScheduler} {typeId : UInt8} {i : ℕ}
    {routed : RoutedScheduler} (h : findFrameOwner schedulers typeId = some i)
    (hrouted : schedulers[i]? = some routed) : typeId ∈ routed.scheduler.handledFrameTypes := by
  obtain ⟨hi,hhandles,-⟩ := List.findIdx?_eq_some_iff_getElem.mp h
  obtain ⟨-,rfl⟩ := List.getElem?_eq_some_iff.mp hrouted
  simpa using hhandles

def bareTask (id type : String) : Task := ⟨id,type,⟨[],List.nodup_nil⟩,[]⟩

namespace EventLoop
variable {g g' : EventLoop} {e : LoopEvent} {n : NodeRecord}

def start (schedulers : List RoutedScheduler) : EventLoop := ⟨{},{ schedulers := schedulers }⟩

structure Reads (net : Network) (nodeId : String) (n : NodeRecord) (conn : ℕ) : Prop where
  node : net.getNode nodeId = some n
  link : n.link = some ⟨conn,true⟩

inductive Turn (g : EventLoop) : LoopEvent → EventLoop → Prop
  | network {e : LoopEvent} {net : Network} {closed : List String} (h : g.net.Evolves net closed) :
    Turn g e ⟨net,g.desk.close closed⟩
  | rekeyed {nodeId : String} {n : NodeRecord} {conn : ℕ} (h : Reads g.net nodeId n conn) (now : ℤ)
      {a : Advertisement} (hrekeys : g.net.Rekeys n a) :
    Turn g (.frame nodeId now (.advertisement a)) ⟨g.net.advertise n a,g.desk⟩
  | answered {e : LoopEvent} {out : Option ResultReceiverStorage} (h : g.desk.storage.Plain →
      ∃ s, out = some s ∧ ResultReceiverStorage.Progress g.desk.storage s) :
    Turn g e ⟨g.net,g.desk.settle out⟩
  | withdrawn (id : String) (h : ∃ key, (id,.client key) ∈ g.desk.submitted) :
    Turn g (.clientClosed id) ⟨g.net,{ g.desk with
      storage := g.desk.storage.erase id, withdrawn := g.desk.withdrawn ++ [id] }⟩
  | submitted (now : ℤ) (task : Task) : Turn g (.httpTask now task) ⟨g.net,Desk.schedule g.net
      { g.desk with submitted := g.desk.submitted ++ [(task.id,g.client)] } now task g.client⟩
  | child {nodeId : String} {n : NodeRecord} {conn : ℕ} (h : Reads g.net nodeId n conn) (now : ℤ)
      (task : Task) : Turn g (.frame nodeId now (.submission task))
        ⟨g.net,g.desk.handleChildTaskSubmission g.net now task n conn⟩
  | scheduling {nodeId : String} {n : NodeRecord} {conn : ℕ} (h : Reads g.net nodeId n conn) (now : ℤ)
      (frame : NodeFrame) : Turn g (.frame nodeId now (.scheduling frame))
        ⟨g.net,g.desk.routeFrame g.net frame n ⟨conn,some n.nodeId⟩⟩
  | swept (i : ℕ) (now : ℤ) : Turn g (.sweep i now)
      ⟨g.net,g.desk.withScheduler g.net i (·.sweepExpired g.net.directory now)⟩

lemma running_of_step (h : g.step e = some g') : g.desk.hung = false := by
  by_contra hhung
  unfold step at h
  rw [if_pos (by simpa using hhung)] at h
  cases h

lemma turn_handleFrame (hsound : g.net.Sound) {nodeId : String} {conn : ℕ}
    (h : Reads g.net nodeId n conn) (now : ℤ) (frame : UpFrame) :
    Turn g (.frame nodeId now frame) (g.handleFrame n conn now frame) := by
  cases frame with
  | advertisement a =>
    by_cases hrekeys : g.net.Rekeys n a
    · exact .rekeyed h now hrekeys
    · exact .network (Network.evolves_advertise hsound h.node hrekeys)
  | nodeState state => exact .network (Network.evolves_nodeState hsound h.node state)
  | rejected rejected => exact .answered fun hplain => hplain.progress_rejected rejected
  | result result => exact .answered fun hplain => hplain.progress_result result
  | submission task => exact .child h now task
  | scheduling frame => exact .scheduling h now frame
  | ignored => exact .network (.refl hsound)

inductive Happened (g : EventLoop) : LoopEvent → EventLoop → Prop
  | network {e : LoopEvent} {net : Network} {closed : List String}
      (h : g.net.Sound → g.net.Evolves net closed) : Happened g e ⟨net,g.desk.close closed⟩
  | framed {nodeId : String} {n : NodeRecord} {conn : ℕ} (h : Reads g.net nodeId n conn) (now : ℤ)
      (frame : UpFrame) : Happened g (.frame nodeId now frame) (g.handleFrame n conn now frame)
  | withdrawn (id : String) (h : ∃ key, (id,.client key) ∈ g.desk.submitted) :
    Happened g (.clientClosed id) ⟨g.net,{ g.desk with
      storage := g.desk.storage.erase id, withdrawn := g.desk.withdrawn ++ [id] }⟩
  | submitted (now : ℤ) (task : Task) : Happened g (.httpTask now task) ⟨g.net,Desk.schedule g.net
      { g.desk with submitted := g.desk.submitted ++ [(task.id,g.client)] } now task g.client⟩
  | swept (i : ℕ) (now : ℤ) : Happened g (.sweep i now)
      ⟨g.net,g.desk.withScheduler g.net i (·.sweepExpired g.net.directory now)⟩

lemma happened_of_step (h : g.step e = some g') : Happened g e g' := by
  have hrunning := running_of_step h
  unfold step at h
  rw [if_neg (by simp [hrunning])] at h
  cases e with
  | httpTask now task =>
    cases h
    exact .submitted now task
  | clientClosed id =>
    rw [Option.ite_none_right_eq_some] at h
    obtain ⟨hclient,⟨⟩⟩ := h
    obtain ⟨⟨k,r⟩,hmem,hk⟩ := List.any_eq_true.mp hclient
    rw [Bool.and_eq_true] at hk
    cases of_decide_eq_true hk.1
    cases r with
    | client key => exact .withdrawn _ ⟨key,hmem⟩
    | nodeConnection taskId conn => cases hk.2
    | forwarder taskId => cases hk.2
  | frame nodeId now frame =>
    simp only at h
    split at h
    · cases h
    next n hget =>
    split at h
    · next conn hlink =>
      cases h
      exact .framed ⟨hget,hlink⟩ now frame
    · cases h
  | endOfStream nodeId =>
    simp only at h
    split at h
    · cases h
    next n hget =>
    rw [Option.ite_none_right_eq_some] at h
    obtain ⟨-,⟨⟩⟩ := h
    exact .network fun hsound => Network.evolves_endOfStream hsound hget
  | connect nodeId ok =>
    simp only at h
    split at h
    · cases h
    next n hget =>
    rw [Option.ite_none_right_eq_some] at h
    obtain ⟨-,⟨⟩⟩ := h
    exact .network fun hsound => Network.evolves_handleConnect hsound hget ok
  | sweep i now =>
    cases h
    exact .swept i now
  | reconcile snapshot =>
    cases h
    exact .network fun hsound => Network.evolves_reconcile hsound snapshot
  | tick =>
    cases h
    exact .network fun hsound => Network.evolves_tick hsound

lemma turn_of_step (hsound : g.net.Sound) (h : g.step e = some g') : Turn g e g' := by
  cases happened_of_step h with
  | network hnet => exact .network (hnet hsound)
  | framed hreads now frame => exact turn_handleFrame hsound hreads now frame
  | withdrawn id hclient => exact .withdrawn id hclient
  | submitted now task => exact .submitted now task
  | swept i now => exact .swept i now

lemma Turn.sound (hsound : g.net.Sound) (h : Turn g e g') : g'.net.Sound := by
  cases h with
  | network h => exact h.sound
  | rekeyed h now hrekeys => exact hsound.advertise h.node hrekeys
  | _ => exact hsound

def taskOf : LoopEvent → Option Task
  | .httpTask _ task => some task
  | .frame _ _ (.submission task) => some task
  | _ => none

def Fresh (g : EventLoop) (e : LoopEvent) : Prop :=
  ∀ task ∈ taskOf e, task.id ∉ g.desk.submitted.map Prod.fst

instance (e : LoopEvent) : Decidable (g.Fresh e) :=
  inferInstanceAs (Decidable (∀ task ∈ taskOf e, _))

def renamed (g : EventLoop) : LoopEvent → Option String
  | .frame nodeId _ (.advertisement a) =>
    (g.net.getNode nodeId).bind (fun n => if g.net.Rekeys n a then some nodeId else none)
  | _ => none

lemma Reads.renamed {nodeId : String} {conn : ℕ} (h : Reads g.net nodeId n conn)
    {a : Advertisement} (hrekeys : g.net.Rekeys n a) (now : ℤ) :
    g.renamed (.frame nodeId now (.advertisement a)) = some nodeId := by
  simp [EventLoop.renamed,h.node,hrekeys]

def twoNodes : List LoopEvent :=
  [.reconcile [⟨"a","10.0.0.1:1"⟩,⟨"b","10.0.0.2:1"⟩],.connect "a" true,.connect "b" true]

end EventLoop
end Strij.Gateway
