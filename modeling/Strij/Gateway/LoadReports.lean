import Strij.Gateway.Eligibility
import Strij.Io.OutboundMailbox
import Strij.Lib.Runs
import Strij.NodeAgent.ProbeLocalScheduler

/-! The load that gateways see of a node. The node broadcasts snapshots of its admission controller on the connections
that its reporter knows, and a gateway keeps the last one it has read. -/
namespace Strij.NodeAgent
open Strij.Io

structure StateReporter where
  nodeId : String
  seq : UInt64 := 0
  connections : List (ℕ × Mailbox) := []

namespace StateReporter
variable (r : StateReporter)

def removeConnection (mailbox : Mailbox) : StateReporter :=
  { r with connections := r.connections.eraseP (fun entry => entry.2 = mailbox) }

/-- The close callback of a mailbox stands for `removeConnection` of it; it runs at once if the mailbox is closed. -/
def addConnection (mailbox : Mailbox) (m : OutboundMailbox Mailbox) : StateReporter × OutboundMailbox Mailbox :=
  let registered := m.registerOnClose mailbox
  let r := registered.2.1.foldl removeConnection r
  ({ r with connections := r.connections ++ [(registered.1,mailbox)] },registered.2.2)

/-- The snapshot, and the mailboxes that it is put into. -/
def broadcast (c : AdmissionController) (now : UInt64) : StateReporter × List (Mailbox × NodeState) :=
  if r.connections = [] then (r,[])
  else ({ r with seq := r.seq+1 },
    r.connections.map (fun entry => (entry.2,c.buildStateSnapshot r.nodeId (r.seq+1) now)))

end StateReporter
end Strij.NodeAgent

namespace Strij.Gateway
open Strij.Io Strij.Lib
open Strij.NodeAgent (AdmissionController AdmissionEvent Admissions Mailbox NodeCapabilities NodeState StateReporter)

/-- A node and its connections, with the frames on their way and what the gateway at the other end has stored. -/
structure LoadReports where
  node : Admissions
  reporter : StateReporter
  mailboxes : Mailbox → OutboundMailbox Mailbox := fun _ => {}
  wire : Mailbox → List NodeState := fun _ => []
  views : Mailbox → Option NodeState := fun _ => none

inductive ReportEvent
  | admission (e : AdmissionEvent)
  | accept (mailbox : Mailbox)
  | close (mailbox : Mailbox)
  | tick (now : UInt64)
  | read (mailbox : Mailbox)

namespace LoadReports
variable (s : LoadReports)

def init (capabilities : NodeCapabilities) (nodeId : String) : LoadReports :=
  ⟨.init capabilities,⟨nodeId,0,[]⟩,fun _ => {},fun _ => [],fun _ => none⟩

/-- What reaches the connection. -/
def enqueued (sent : List (Mailbox × NodeState)) (mailbox : Mailbox) : List NodeState :=
  (sent.filter (fun x => x.1 = mailbox)).flatMap (fun x => (s.mailboxes mailbox).enqueue x.2)

/-- One event; a connection that the reporter knows is not accepted again, and only what was sent is read. -/
def step : ReportEvent → Option LoadReports
  | .admission e => (s.node.step e).map fun node => { s with node := node }
  | .accept mailbox =>
    let added := s.reporter.addConnection mailbox (s.mailboxes mailbox)
    if mailbox ∈ s.reporter.connections.map Prod.snd then none
    else some { s with reporter := added.1, mailboxes := Function.update s.mailboxes mailbox added.2 }
  | .close mailbox =>
    let closed := (s.mailboxes mailbox).close
    some { s with
      reporter := closed.1.foldl StateReporter.removeConnection s.reporter
      mailboxes := Function.update s.mailboxes mailbox closed.2 }
  | .tick now =>
    let sent := s.reporter.broadcast s.node.controller now
    some { s with reporter := sent.1, wire := fun mailbox => s.wire mailbox ++ s.enqueued sent.2 mailbox }
  | .read mailbox =>
    match s.wire mailbox with
    | [] => none
    | state :: rest => some { s with
      wire := Function.update s.wire mailbox rest
      views := Function.update s.views mailbox (some state) }

/-- What the gateway has stored and what it is going to read. -/
def reported (mailbox : Mailbox) : List NodeState := (s.views mailbox).toList ++ s.wire mailbox

def snapshot (now : UInt64) : NodeState :=
  s.node.controller.buildStateSnapshot s.reporter.nodeId (s.reporter.seq+1) now

def Known (mailbox : Mailbox) : Prop :=
  mailbox ∈ s.reporter.connections.map Prod.snd ∧ (s.mailboxes mailbox).active = true

def Distinct : Prop := (s.reporter.connections.map Prod.snd).Nodup

variable {s} {t : LoadReports} {mailbox : Mailbox} {e : ReportEvent}

lemma enqueued_broadcast (now : UInt64) : s.enqueued (s.reporter.broadcast s.node.controller now).2 mailbox =
    (s.reporter.connections.filter (fun entry => entry.2 = mailbox)).flatMap
      fun _ => (s.mailboxes mailbox).enqueue (s.snapshot now) := by
  rw [StateReporter.broadcast]
  split
  · next h => simp [h,enqueued]
  · simp only [enqueued,List.filter_map,List.flatMap_map,Function.comp_def,snapshot]

lemma enqueued_known (hdistinct : s.Distinct) (h : s.Known mailbox) (now : UInt64) :
    s.enqueued (s.reporter.broadcast s.node.controller now).2 mailbox = [s.snapshot now] := by
  have hcount : (s.reporter.connections.filter (fun entry => entry.2 = mailbox)).length = 1 := by
    rw [← List.countP_eq_length_filter,← List.count_eq_one_of_mem hdistinct h.1,List.count,List.countP_map]
    rfl
  obtain ⟨entry,hentry⟩ := List.length_eq_one_iff.mp hcount
  rw [enqueued_broadcast,hentry]
  simp [OutboundMailbox.enqueue,h.2]

lemma enqueued_unknown (h : ¬s.Known mailbox) (now : UInt64) :
    s.enqueued (s.reporter.broadcast s.node.controller now).2 mailbox = [] := by
  rw [enqueued_broadcast,List.flatMap_eq_nil_iff]
  intro entry hentry
  have hmem := List.mem_filter.mp hentry
  refine if_neg fun hactive => h ⟨?_,hactive⟩
  exact List.mem_map.mpr ⟨entry,hmem.1,of_decide_eq_true hmem.2⟩

lemma removed_sublist (l : List Mailbox) (r : StateReporter) :
    (l.foldl StateReporter.removeConnection r).connections.Sublist r.connections := by
  induction l generalizing r with
  | nil => exact List.Sublist.refl _
  | cons m l ih => exact (ih _).trans List.eraseP_sublist

/-- What one event does. A gateway stores the next of the snapshots on their way, or a new one is on its way. -/
structure Follows (t : LoadReports) (e : ReportEvent) (s : LoadReports) : Prop where
  distinct : s.Distinct
  node : (∀ a, e ≠ .admission a) → s.node = t.node
  reported : ∀ mailbox,
    (s.reported mailbox <:+ t.reported mailbox ∧ (s.reported mailbox = [] → t.reported mailbox = [])) ∨
      ∃ now, e = .tick now ∧ s.reported mailbox = t.reported mailbox ++ [t.snapshot now]

lemma Distinct.step (h : t.Distinct) (hstep : t.step e = some s) : Follows t e s := by
  cases e with
  | admission e =>
    obtain ⟨node,-,rfl⟩ := Option.map_eq_some_iff.mp hstep
    exact ⟨h,fun hother => absurd rfl (hother e),fun _ => .inl ⟨List.suffix_rfl,id⟩⟩
  | accept m =>
    obtain ⟨hnew,hstep⟩ := Option.ite_none_left_eq_some.mp hstep
    cases hstep
    refine ⟨?_,fun _ => rfl,fun _ => .inl ⟨List.suffix_rfl,id⟩⟩
    have hsub := (removed_sublist ((t.mailboxes m).registerOnClose m).2.1 t.reporter).map Prod.snd
    simp only [Distinct,StateReporter.addConnection,List.map_append,List.map_singleton]
    rw [← List.concat_eq_append]
    exact (h.sublist hsub).concat fun hmem => hnew (hsub.subset hmem)
  | close m =>
    cases hstep
    exact ⟨h.sublist ((removed_sublist _ _).map Prod.snd),fun _ => rfl,fun _ => .inl ⟨List.suffix_rfl,id⟩⟩
  | tick now =>
    cases hstep
    refine ⟨?_,fun _ => rfl,fun mailbox => ?_⟩
    · rw [Distinct,StateReporter.broadcast]
      split <;> exact h
    · by_cases hknown : t.Known mailbox
      · exact .inr ⟨now,rfl,by simp [LoadReports.reported,enqueued_known h hknown]⟩
      · left
        simp [LoadReports.reported,enqueued_unknown hknown]
  | read m =>
    rw [LoadReports.step] at hstep
    split at hstep
    · cases hstep
    next state rest hwire =>
    cases hstep
    refine ⟨h,fun _ => rfl,fun mailbox => .inl ?_⟩
    by_cases hm : mailbox = m
    · subst hm
      simp only [LoadReports.reported,Function.update_self,hwire]
      exact ⟨List.suffix_append _ _,by simp⟩
    · simp [LoadReports.reported,hm]

/-- The `k`-th event was the broadcast of this snapshot. -/
def Broadcast (s : LoadReports) (events : List ReportEvent) (k : ℕ) (state : NodeState) : Prop :=
  ∃ t now, runAll step s (events.take k) = some t ∧ events[k]? = some (.tick now) ∧ state = t.snapshot now

lemma Broadcast.snoc {s₀ : LoadReports} {events : List ReportEvent} {k : ℕ} {state : NodeState}
    (h : Broadcast s₀ events k state) : Broadcast s₀ (events ++ [e]) k state := by
  obtain ⟨t,now,hrun,hk,hstate⟩ := h
  have hlt := (List.getElem?_eq_some_iff.mp hk).1
  exact ⟨t,now,by rwa [List.take_append_of_le_length hlt.le],by rwa [List.getElem?_append_left hlt],hstate⟩

section Runs
variable {capabilities : NodeCapabilities} {nodeId : String} {events : List ReportEvent}

lemma traced (hrun : runAll step (init capabilities nodeId) events = some s) :
    s.Distinct ∧ ∀ mailbox, ∃ ks : List ℕ, ks.Pairwise (· < ·) ∧ (∀ k ∈ ks, k < events.length) ∧
      List.Forall₂ (Broadcast (init capabilities nodeId) events) ks (s.reported mailbox) := by
  induction events using List.reverseRecOn generalizing s with
  | nil =>
    cases hrun
    exact ⟨List.nodup_nil,fun _ => ⟨[],.nil,by simp,.nil⟩⟩
  | append_singleton events e ih =>
    rw [runAll_append] at hrun
    obtain ⟨t,ht,hrun⟩ := Option.bind_eq_some_iff.mp hrun
    obtain ⟨u,hstep,hu⟩ := Option.bind_eq_some_iff.mp hrun
    cases hu
    obtain ⟨hdistinct,htraced⟩ := ih ht
    have hfollows := hdistinct.step hstep
    refine ⟨hfollows.distinct,fun mailbox => ?_⟩
    obtain ⟨ks,hks,hlt,hall⟩ := htraced mailbox
    have hlt' : ∀ k ∈ ks, k < (events ++ [e]).length := by
      intro k hk
      rw [List.length_append,List.length_singleton]
      exact (hlt k hk).trans (Nat.lt_succ_self _)
    have hall' := hall.imp fun _ _ h => h.snoc (e := e)
    rcases hfollows.reported mailbox with ⟨⟨first,hfirst⟩,-⟩ | ⟨now,rfl,hnew⟩
    · rw [← hfirst] at hall'
      refine ⟨ks.drop first.length,hks.drop,fun k hk => hlt' k (List.mem_of_mem_drop hk),?_⟩
      simpa using List.forall₂_drop first.length hall'
    · refine ⟨ks ++ [events.length],?_,?_,?_⟩
      · exact List.pairwise_append.mpr ⟨hks,List.pairwise_singleton _ _,by simpa using hlt⟩
      · simpa [or_imp,forall_and] using hlt'
      · rw [hnew]
        exact List.rel_append hall' (.cons ⟨t,now,by simpa using ht,by simp,rfl⟩ .nil)

/-- The last snapshot that the gateway has or is going to have shows the controller as it is. -/
def UpToDate (s : LoadReports) (mailbox : Mailbox) : Prop :=
  ∃ nodeId seq now, (s.reported mailbox).getLast? = some (s.node.controller.buildStateSnapshot nodeId seq now)

lemma UpToDate.step (h : t.UpToDate mailbox) (hfollows : Follows t e s) (hother : ∀ a, e ≠ .admission a) :
    s.UpToDate mailbox := by
  rw [UpToDate,hfollows.node hother]
  rcases hfollows.reported mailbox with ⟨⟨first,hfirst⟩,hnil⟩ | ⟨now,rfl,hnew⟩
  · obtain ⟨nodeId,seq,now,hlast⟩ := h
    have hne : s.reported mailbox ≠ [] := fun hempty => by simp [hnil hempty] at hlast
    exact ⟨nodeId,seq,now,by rwa [← hfirst,List.getLast?_append_of_ne_nil _ hne] at hlast⟩
  · exact ⟨_,_,now,by rw [hnew,List.getLast?_concat]; rfl⟩

lemma UpToDate.run (h : t.UpToDate mailbox) (hdistinct : t.Distinct) (hother : ∀ a, .admission a ∉ events)
    (hrun : runAll LoadReports.step t events = some s) : s.UpToDate mailbox := by
  induction events generalizing t with
  | nil =>
    cases hrun
    exact h
  | cons e events ih =>
    obtain ⟨u,hstep,hrun⟩ := Option.bind_eq_some_iff.mp hrun
    have hfollows := hdistinct.step hstep
    refine ih (h.step hfollows fun a ha => hother a ?_) hfollows.distinct (fun a ha => hother a ?_) hrun
    · exact ha ▸ List.mem_cons_self
    · exact List.mem_cons_of_mem _ ha

end Runs

/-- What a gateway has stored and is going to read are snapshots of states that the node was in, in the order in which
it was in them. And when it has read all that came over its connection, up to a broadcast after which the node has
admitted and released nothing, it has the numbers of the node. -/
theorem views_follow_node (capabilities : NodeCapabilities) (nodeId : String) (events : List ReportEvent)
    (s : LoadReports) (hrun : runAll step (init capabilities nodeId) events = some s) (mailbox : Mailbox) :
    (∃ ks : List ℕ, ks.Pairwise (· < ·) ∧
      List.Forall₂ (Broadcast (init capabilities nodeId) events) ks (s.reported mailbox)) ∧
    ∀ before now after t, events = before ++ .tick now :: after →
      runAll step (init capabilities nodeId) before = some t → t.Known mailbox →
      (∀ a, .admission a ∉ after) → s.wire mailbox = [] →
      (∀ type, CapabilityAware.typeInFlight (s.views mailbox) type = s.node.controller.inFlight type) ∧
      ∀ pool total, s.node.controller.poolTotal[pool]? = some total →
        CapabilityAware.poolInUse (s.views mailbox) pool = s.node.controller.poolInUse.value pool := by
  obtain ⟨ks,hks,-,hall⟩ := (traced hrun).2 mailbox
  refine ⟨⟨ks,hks,hall⟩,?_⟩
  rintro before now after t rfl hbefore hknown hother hread
  rw [runAll_append,hbefore,Option.bind_some] at hrun
  obtain ⟨u,hu,hrun⟩ := Option.bind_eq_some_iff.mp hrun
  have hdistinct := (traced hbefore).1
  have hlast : u.UpToDate mailbox := by
    cases hu
    refine ⟨t.reporter.nodeId,t.reporter.seq+1,now,?_⟩
    dsimp only [reported]
    rw [enqueued_known hdistinct hknown,← List.append_assoc,List.getLast?_concat]
    rfl
  obtain ⟨nodeId',seq,now',hlast⟩ := hlast.run (hdistinct.step hu).distinct hother hrun
  have hview : s.views mailbox = some (s.node.controller.buildStateSnapshot nodeId' seq now') := by
    rw [reported,hread,List.append_nil] at hlast
    cases hview : s.views mailbox <;> simp_all
  rw [hview]
  exact ⟨CapabilityAware.typeInFlight_snapshot _ _ _ _,fun _ _ => CapabilityAware.poolInUse_snapshot _ _ _⟩

/-- Two gateways; the second one dials after the first broadcast, and the first one reads late. -/
def twoViews : List ReportEvent :=
  [.accept 0,.tick 5,.admission (.admitTask "echo" ⟨[("cpu",3)],List.nodup_singleton "cpu"⟩
    ⟨16,NodeAgent.Admissions.sixteen_ne_zero⟩),.accept 1,.tick 6,.read 1,.read 0,.read 0]

theorem views_follow_node_two : ∃ s, runAll step (init NodeAgent.Admissions.echoNode "n") twoViews = some s ∧
    s.views 0 = s.views 1 ∧ CapabilityAware.typeInFlight (s.views 0) "echo" = s.node.controller.inFlight "echo" := by
  have hrun : (runAll step (init NodeAgent.Admissions.echoNode "n") twoViews).any (fun s =>
    s.wire 0 = [] ∧ s.views 0 = s.views 1) = true := by decide +kernel
  have hbefore : (runAll step (init NodeAgent.Admissions.echoNode "n") (twoViews.take 4)).any (fun t =>
    0 ∈ t.reporter.connections.map Prod.snd ∧ (t.mailboxes 0).active = true) = true := by decide +kernel
  obtain ⟨s,hs,hend⟩ := (Option.any_eq_true _ _).mp hrun
  obtain ⟨t,ht,hknown⟩ := (Option.any_eq_true _ _).mp hbefore
  obtain ⟨hwire,hviews⟩ := of_decide_eq_true hend
  have hknown : t.Known 0 := by simpa [Known] using hknown
  have hfollows := (views_follow_node _ _ twoViews s hs 0).2 (twoViews.take 4) 6 (twoViews.drop 5) t rfl ht hknown
    (by simp [twoViews]) hwire
  exact ⟨s,hs,hviews,hfollows.1 "echo"⟩

end LoadReports
end Strij.Gateway
