import Strij.Io.OutboundMailbox
import Strij.NodeAgent.DefaultLocalScheduler

/-! The forward path of a node: the client that takes a child task to one of the gateway connections in turn,
and the default scheduler, which keeps the children of a connection that closes. -/
namespace Strij.NodeAgent
open Strij.Lib Strij.Wire Strij.Io
open Strij.Gateway (ReceiverCall)

abbrev GatewayConnection := ℕ

structure GatewayClient where
  /-- A registration whose connection has closed is null. -/
  liveMailboxes : List (Option GatewayConnection) := []
  nextIndex : ℕ := 0

namespace GatewayClient
variable (client : GatewayClient)

def forward : Option GatewayConnection × GatewayClient :=
  let live := client.liveMailboxes.filter Option.isSome
  if live.isEmpty then (none,{ client with liveMailboxes := live })
  else (live[client.nextIndex % live.length]?.join,
    { liveMailboxes := live, nextIndex := (client.nextIndex+1) % live.length })

def onClose (conn : GatewayConnection) : GatewayClient :=
  { client with liveMailboxes := client.liveMailboxes.replace (some conn) none }

def runCallbacks (callbacks : List GatewayConnection) : GatewayClient := callbacks.foldl onClose client

end GatewayClient

structure ForwardingNode where
  scheduler : DefaultLocalScheduler
  client : GatewayClient := {}
  mailboxes : GatewayConnection → OutboundMailbox GatewayConnection := fun _ => {}
  forwardedOn : String → Option GatewayConnection := fun _ => none

inductive ForwardingEvent
  | register (conn : GatewayConnection)
  | close (conn : GatewayConnection)
  | schedule (task : Task) (receiver : ChildReceiver) (admitted : Bool)
  | send (id : String) (result : TaskResult)
  | result (result : TaskResult)
  | rejected (rejected : TaskRejected)
  | malformed
  | returned

namespace ForwardingNode
variable (n : ForwardingNode)

def register (conn : GatewayConnection) : ForwardingNode :=
  let (_,callbacks,mailbox) := (n.mailboxes conn).registerOnClose conn
  { n with
    client := GatewayClient.runCallbacks
      { n.client with liveMailboxes := n.client.liveMailboxes ++ [some conn] } callbacks
    mailboxes := Function.update n.mailboxes conn mailbox }

def close (conn : GatewayConnection) : ForwardingNode :=
  let (callbacks,mailbox) := (n.mailboxes conn).close
  { n with
    client := n.client.runCallbacks callbacks
    mailboxes := Function.update n.mailboxes conn mailbox }

/-- `Schedule` with the forward path: it is asked only for a child that cannot run here. -/
def schedule (task : Task) (receiver : ChildReceiver) (admitted : Bool) : ForwardingNode :=
  if n.scheduler.forward && (!n.scheduler.handlers task.type || !admitted) then
    let (conn,client) := n.client.forward
    { n with
      scheduler := n.scheduler.schedule task receiver admitted conn.isSome
      client := client
      forwardedOn := Function.update n.forwardedOn task.id conn }
  else { n with
    scheduler := n.scheduler.schedule task receiver admitted false
    forwardedOn := Function.update n.forwardedOn task.id none }

def step (n : ForwardingNode) : ForwardingEvent → Option ForwardingNode
  | .register conn => some (n.register conn)
  | .close conn => some (n.close conn)
  | .schedule task receiver admitted => some (n.schedule task receiver admitted)
  | .send id result => some { n with scheduler := n.scheduler.send id result }
  | .result result => some { n with scheduler := n.scheduler.handleResultFrame result }
  | .rejected rejected => some { n with scheduler := n.scheduler.handleRejectedFrame rejected }
  | .malformed => some n
  | .returned => n.scheduler.return_.map (fun s => { n with scheduler := s })

/-- Every unresolved child that was forwarded has the connection it was forwarded on. -/
def KeepsResolvers (n : ForwardingNode) : Prop :=
  ∀ id r conn, n.scheduler.Open id r → n.forwardedOn id = some conn → (n.mailboxes conn).active = true

/-- A connection closes only when no child forwarded on it is unresolved. -/
def Settled (n : ForwardingNode) : ForwardingEvent → Prop
  | .close conn => ∀ x ∈ n.scheduler.receivers.entries, n.scheduler.Open x.1 x.2 → n.forwardedOn x.1 ≠ some conn
  | _ => True

instance (s : DefaultLocalScheduler) (id : String) (r : ChildReceiver) : Decidable (s.Open id r) :=
  inferInstanceAs (Decidable (_ ∧ _))

instance (e : ForwardingEvent) : Decidable (n.Settled e) := by
  cases e <;> unfold Settled <;> infer_instance

end ForwardingNode

namespace DefaultLocalScheduler
variable {s s' : DefaultLocalScheduler} {id k : String} {r q : ChildReceiver}

lemma open_answer {c : ReceiverCall} (h : (s.answer id c).Open k q) : s.Open k q := by
  rw [answer] at h
  split at h
  · exact h
  · exact ⟨h.1,fun hmem => h.2 (List.mem_cons_of_mem _ hmem)⟩

lemma open_return (hreturn : s.return_ = some s') (h : s'.Open k q) : s.Open k q := by
  rw [return_] at hreturn
  split at hreturn
  · cases hreturn
  · next hactive =>
    cases hreturn
    exact ⟨h.1,by simpa [hactive] using h.2⟩
  · next hactive =>
    cases hreturn
    obtain ⟨hne,hget⟩ := lookup_erase_eq_some h.1
    exact ⟨hget,by simpa [hactive,hne] using h.2⟩

lemma open_schedule {task : Task} {admitted reachable : Bool} (hk : k ≠ task.id)
    (h : (s.schedule task r admitted reachable).Open k q) : s.Open k q := by
  have hput (h : (s.put task.id r).Open k q) : s.Open k q :=
    ⟨(AList.lookup_insert_ne hk).symm.trans h.1,h.2⟩
  have hforward (h : ((s.put task.id r).forwardOrError task reachable).Open k q) : s.Open k q := by
    rw [forwardOrError] at h
    split at h
    · exact hput h
    · exact hput (open_answer h)
  rw [schedule] at h
  split at h
  · exact hforward h
  split at h
  · exact hforward h
  · exact hput h

end DefaultLocalScheduler

namespace GatewayClient
variable {client : GatewayClient} {conn : GatewayConnection} {α : Type*} {a b : α}

lemma count_replace [BEq α] [LawfulBEq α] (hab : a ≠ b) (l : List α) :
    (l.replace a b).count a = l.count a-1 := by
  induction l with
  | nil => rfl
  | cons x l ih =>
    by_cases hx : x = a
    · subst hx
      simp [hab.symm]
    · have hax : (a == x) = false := by simpa using Ne.symm hx
      simp [List.replace_cons,hax,hx,ih]

lemma count_replace_of_ne [BEq α] [LawfulBEq α] {c : α} (hca : c ≠ a) (hcb : c ≠ b) (l : List α) :
    (l.replace a b).count c = l.count c := by
  induction l with
  | nil => rfl
  | cons x l ih =>
    by_cases hx : x = a
    · subst hx
      simp [hca.symm,hcb.symm]
    · have hax : (a == x) = false := by simpa using Ne.symm hx
      simp [List.replace_cons,hax,List.count_cons,ih]

lemma count_runCallbacks {callbacks : List GatewayConnection} (hown : ∀ c ∈ callbacks, c = conn)
    (c : GatewayConnection) : (client.runCallbacks callbacks).liveMailboxes.count (some c) =
      client.liveMailboxes.count (some c)-if c = conn then callbacks.length else 0 := by
  induction callbacks generalizing client with
  | nil => simp [runCallbacks]
  | cons first callbacks ih =>
    obtain ⟨rfl,hrest⟩ := List.forall_mem_cons.mp hown
    have hrun : client.runCallbacks (first :: callbacks) = (client.onClose first).runCallbacks callbacks := rfl
    have hlive : (client.onClose first).liveMailboxes = client.liveMailboxes.replace (some first) none := rfl
    rw [hrun,ih hrest,hlive]
    by_cases hc : c = first
    · subst hc
      rw [if_pos rfl,if_pos rfl,count_replace (by simp),List.length_cons]
      omega
    · rw [if_neg hc,if_neg hc,count_replace_of_ne (by simpa using hc) (by simp)]

lemma mem_of_forward (h : client.forward.1 = some conn) : some conn ∈ client.liveMailboxes := by
  rw [forward] at h
  split at h
  · cases h
  · exact (List.mem_filter.mp (List.mem_of_getElem? (Option.join_eq_some_iff.mp h))).1

lemma count_forward (c : GatewayConnection) :
    client.forward.2.liveMailboxes.count (some c) = client.liveMailboxes.count (some c) := by
  rw [forward]
  split <;> exact List.count_filter rfl

end GatewayClient

namespace ForwardingNode
variable {n n' : ForwardingNode} {conn : GatewayConnection}

structure Registered (client : GatewayClient)
    (mailboxes : GatewayConnection → OutboundMailbox GatewayConnection) : Prop where
  counted : ∀ conn, client.liveMailboxes.count (some conn) ≤ (mailboxes conn).closeCallbacks.length
  own : ∀ conn, ∀ entry ∈ (mailboxes conn).closeCallbacks, entry.2 = conn
  closed : ∀ conn, (mailboxes conn).active = false → (mailboxes conn).closeCallbacks = []

section Registered
variable {client : GatewayClient} {mailboxes : GatewayConnection → OutboundMailbox GatewayConnection}

lemma Registered.active (h : Registered client mailboxes) (hmem : some conn ∈ client.liveMailboxes) :
    (mailboxes conn).active = true := by
  by_contra hclosed
  have hnone := h.closed conn (by simpa using hclosed)
  have hcount := h.counted conn
  rw [hnone,List.length_nil,Nat.le_zero,List.count_eq_zero] at hcount
  exact hcount hmem

lemma Registered.update (h : Registered client mailboxes) {client' : GatewayClient}
    {mailbox : OutboundMailbox GatewayConnection}
    (hother : ∀ c, c ≠ conn → client'.liveMailboxes.count (some c) = client.liveMailboxes.count (some c))
    (hcounted : client'.liveMailboxes.count (some conn) ≤ mailbox.closeCallbacks.length)
    (hown : ∀ entry ∈ mailbox.closeCallbacks, entry.2 = conn)
    (hclosed : mailbox.active = false → mailbox.closeCallbacks = []) :
    Registered client' (Function.update mailboxes conn mailbox) := by
  refine ⟨fun c => ?_,fun c => ?_,fun c => ?_⟩ <;> by_cases hc : c = conn
  · subst hc
    simpa using hcounted
  · simpa [Function.update_of_ne hc,hother c hc] using h.counted c
  · subst hc
    simpa using hown
  · simpa [Function.update_of_ne hc] using h.own c
  · subst hc
    simpa using hclosed
  · simpa [Function.update_of_ne hc] using h.closed c

end Registered

lemma Registered.register (h : Registered n.client n.mailboxes) (conn : GatewayConnection) :
    Registered (n.register conn).client (n.register conn).mailboxes := by
  have hcounted := h.counted conn
  rw [ForwardingNode.register,OutboundMailbox.registerOnClose]
  cases hactive : (n.mailboxes conn).active with
  | true =>
    refine h.update (fun c hc => ?_) ?_ (fun entry hentry => ?_) nofun
    · simp [GatewayClient.runCallbacks,Ne.symm hc]
    · simpa [GatewayClient.runCallbacks] using hcounted
    · rcases List.mem_append.mp hentry with hentry | hentry
      · exact h.own conn entry hentry
      · exact List.mem_singleton.mp hentry ▸ rfl
  | false =>
    have hnone := h.closed conn hactive
    rw [hnone,List.length_nil,Nat.le_zero] at hcounted
    have hrun (c : GatewayConnection) : (GatewayClient.runCallbacks { n.client with
        liveMailboxes := n.client.liveMailboxes ++ [some conn] } [conn]).liveMailboxes.count (some c) =
        (n.client.liveMailboxes ++ [some conn]).count (some c)-if c = conn then 1 else 0 :=
      GatewayClient.count_runCallbacks (by simp) c
    refine h.update (fun c hc => (hrun c).trans ?_) ((hrun conn).le.trans ?_) ?_ ?_
    · simp [hc,Ne.symm hc]
    · simp [hcounted]
    · simp [hnone]
    · simp [hnone]

lemma Registered.close (h : Registered n.client n.mailboxes) (conn : GatewayConnection) :
    Registered (n.close conn).client (n.close conn).mailboxes := by
  have hcounted := h.counted conn
  have hown : ∀ c ∈ (n.mailboxes conn).closeCallbacks.map Prod.snd, c = conn := by
    intro c hc
    obtain ⟨entry,hentry,rfl⟩ := List.mem_map.mp hc
    exact h.own conn entry hentry
  refine h.update (fun c hc => ?_) ?_ nofun (fun _ => rfl)
  · exact (GatewayClient.count_runCallbacks hown c).trans (by rw [if_neg hc,Nat.sub_zero])
  · refine (GatewayClient.count_runCallbacks hown conn).le.trans ?_
    rw [if_pos rfl,List.length_map]
    exact (Nat.sub_eq_zero_of_le hcounted).le

lemma step_keeps {e : ForwardingEvent} (h : Registered n.client n.mailboxes ∧ n.KeepsResolvers)
    (hsettled : n.Settled e) (hstep : n.step e = some n') :
    Registered n'.client n'.mailboxes ∧ n'.KeepsResolvers := by
  obtain ⟨hregistered,hkeeps⟩ := h
  cases e with
  | register conn =>
    cases hstep
    refine ⟨hregistered.register conn,fun id r c hopen hon => ?_⟩
    have hactive := hkeeps id r c hopen hon
    by_cases hc : c = conn
    · subst hc
      simp [register,OutboundMailbox.registerOnClose,hactive]
    · simpa [register,Function.update_of_ne hc] using hactive
  | close conn =>
    cases hstep
    refine ⟨hregistered.close conn,fun id r c hopen hon => ?_⟩
    have hc : c ≠ conn := by
      rintro rfl
      exact hsettled ⟨id,r⟩ (AList.mem_lookup_iff.mp hopen.1) hopen hon
    simpa [close,Function.update_of_ne hc] using hkeeps id r c hopen hon
  | schedule task receiver admitted =>
    cases hstep
    rw [schedule]
    split
    · refine ⟨⟨fun c => ?_,hregistered.own,hregistered.closed⟩,fun id r c hopen hon => ?_⟩
      · exact (GatewayClient.count_forward c).le.trans (hregistered.counted c)
      · by_cases hid : id = task.id
        · subst hid
          simp only [Function.update_self] at hon
          exact hregistered.active (GatewayClient.mem_of_forward hon)
        · simp only [Function.update_of_ne hid] at hon
          exact hkeeps id r c (DefaultLocalScheduler.open_schedule hid hopen) hon
    · refine ⟨hregistered,fun id r c hopen hon => ?_⟩
      by_cases hid : id = task.id
      · subst hid
        simp at hon
      · simp only [Function.update_of_ne hid] at hon
        exact hkeeps id r c (DefaultLocalScheduler.open_schedule hid hopen) hon
  | send id result =>
    cases hstep
    exact ⟨hregistered,fun k r c hopen => hkeeps k r c (DefaultLocalScheduler.open_answer hopen)⟩
  | result result =>
    cases hstep
    exact ⟨hregistered,fun k r c hopen => hkeeps k r c (DefaultLocalScheduler.open_answer hopen)⟩
  | rejected rejected =>
    cases hstep
    exact ⟨hregistered,fun k r c hopen => hkeeps k r c (DefaultLocalScheduler.open_answer hopen)⟩
  | malformed =>
    cases hstep
    exact ⟨hregistered,hkeeps⟩
  | returned =>
    obtain ⟨s,hs,rfl⟩ := Option.map_eq_some_iff.mp hstep
    exact ⟨hregistered,fun k r c hopen => hkeeps k r c (DefaultLocalScheduler.open_return hs hopen)⟩

def init (handlers : String → Bool) (forward : Bool) : ForwardingNode where
  scheduler := { handlers := handlers, forward := forward }

/-- If no connection closes before the children forwarded on it are resolved, every unresolved child that
was forwarded keeps its connection. -/
theorem forwarded_keep_resolvers (handlers : String → Bool) (forward : Bool) (events : List ForwardingEvent)
    (hsettled : Throughout step Settled (init handlers forward) events)
    (hrun : runAll step (init handlers forward) events = some n) : n.KeepsResolvers := by
  have hinv : Registered n.client n.mailboxes ∧ n.KeepsResolvers := by
    refine runAll_invariant (I := fun n => Registered n.client n.mailboxes ∧ n.KeepsResolvers)
      (fun n e n' h hs hstep => step_keeps h hs hstep) ?_ hsettled hrun
    refine ⟨⟨fun conn => ?_,fun conn => ?_,fun conn => ?_⟩,fun id r conn hopen => ?_⟩
    · simp [init]
    · simp [init]
    · simp [init]
    · cases hopen.1
  exact hinv.2

/-- Two gateways take a child each in turn; the first gateway answers and leaves. -/
def inTurn : List ForwardingEvent :=
  [.register 0,.register 1,.schedule (DefaultLocalScheduler.childTask "a" "echo") 1 true,
    .schedule (DefaultLocalScheduler.childTask "b" "echo") 2 true,.result ⟨"a","done",none,none⟩,.returned,
    .close 0]

theorem forwarded_keep_resolvers_inTurn : ∃ n, runAll step (init (fun _ => false) true) inTurn = some n ∧
      n.forwardedOn "b" = some 1 ∧ n.KeepsResolvers := by
  obtain ⟨n,hn,hb⟩ : ∃ n, runAll step (init (fun _ => false) true) inTurn = some n ∧
      n.forwardedOn "b" = some 1 := ⟨_,rfl,by decide +kernel⟩
  exact ⟨n,hn,hb,forwarded_keep_resolvers _ _ inTurn (by decide +kernel) hn⟩

/-- The gateway leaves before it has answered: the child stays in the storage, nobody resolves it, and its
receiver is not called. -/
theorem orphaned_child : ∃ n, runAll step (init (fun _ => false) true)
        [.register 0,.schedule (DefaultLocalScheduler.childTask "a" "echo") 1 true,.close 0] = some n ∧
      n.scheduler.Open "a" 1 ∧ n.scheduler.calls = [] ∧ ¬ n.KeepsResolvers := by
  refine ⟨_,rfl,by decide +kernel,by decide +kernel,fun h => ?_⟩
  have hactive := h "a" 1 0 (by decide +kernel) (by decide +kernel)
  cases hactive

end ForwardingNode
end Strij.NodeAgent
