import Strij.Io.TlvFrame
import Strij.Lib.Rounds
import Strij.NodeAgent.GatewayClient

/-! The gateway client over any history of registrations, closes and forwards: its list, without the
registrations that are null, is the list of those whose mailbox is open, in order. -/
namespace Strij.NodeAgent
open Strij.Lib Strij.Wire Strij.Io

inductive ForwardStatus
  | ok
  | unavailable (message : String)
  | internal (message : String)
  deriving DecidableEq, Repr

def GatewayClient.liveCount (client : GatewayClient) : ℕ := client.liveMailboxes.countP Option.isSome

/-- The client with the mailboxes of the connections, the registrations made so far and the frames that
the mailboxes have passed on. -/
structure GatewayLinks where
  client : GatewayClient := {}
  mailboxes : GatewayConnection → OutboundMailbox GatewayConnection := fun _ => {}
  registered : List GatewayConnection := []
  sent : List (GatewayConnection × List UInt8) := []

inductive LinkEvent
  | register (conn : GatewayConnection)
  | close (conn : GatewayConnection)
  | forward (task : Task)

namespace GatewayLinks
variable (serialize : Task → Option (List UInt8)) (links : GatewayLinks)

def isOpen (conn : GatewayConnection) : Bool := (links.mailboxes conn).active

def register (conn : GatewayConnection) : GatewayLinks :=
  let (_,callbacks,mailbox) := (links.mailboxes conn).registerOnClose conn
  { links with
    client := GatewayClient.runCallbacks
      { links.client with liveMailboxes := links.client.liveMailboxes ++ [some conn] } callbacks
    mailboxes := Function.update links.mailboxes conn mailbox
    registered := links.registered ++ [conn] }

def close (conn : GatewayConnection) : GatewayLinks :=
  let (callbacks,mailbox) := (links.mailboxes conn).close
  { links with
    client := links.client.runCallbacks callbacks
    mailboxes := Function.update links.mailboxes conn mailbox }

/-- `Forward`; the turn has passed on when the task turns out not to be serializable. -/
def forward (task : Task) : ForwardStatus × GatewayLinks :=
  match links.client.forward with
  | (none,client) =>
    (.unavailable ("no live gateway connection to forward child task '" ++ task.id ++ "'"),
      { links with client := client })
  | (some conn,client) =>
    match serialize task with
    | none =>
      (.internal ("failed to serialize child task '" ++ task.id ++ "' for forwarding"),
        { links with client := client })
    | some bytes =>
      (.ok,{ links with
        client := client
        sent := links.sent ++
          ((links.mailboxes conn).enqueue (serializeTlvFrame 0 bytes)).map (conn,·) })

def step (links : GatewayLinks) : LinkEvent → GatewayLinks
  | .register conn => links.register conn
  | .close conn => links.close conn
  | .forward task => (links.forward serialize task).2

def run (events : List LinkEvent) : GatewayLinks := events.foldl (step serialize) links

def openRegistrations : List GatewayConnection := links.registered.filter links.isOpen

end GatewayLinks

namespace GatewayClient
variable {client : GatewayClient} {conn : GatewayConnection}

def live (client : GatewayClient) : List GatewayConnection := client.liveMailboxes.reduceOption

lemma filter_isSome (l : List (Option GatewayConnection)) : l.filter Option.isSome = l.reduceOption.map some := by
  induction l with
  | nil => rfl
  | cons x l ih => cases x <;> simp [ih]

lemma liveCount_eq : client.liveCount = client.live.length := by
  rw [liveCount,List.countP_eq_length_filter,filter_isSome,List.length_map,live]

lemma reduceOption_replace (l : List (Option GatewayConnection)) :
    (l.replace (some conn) none).reduceOption = l.reduceOption.erase conn := by
  induction l with
  | nil => rfl
  | cons x l ih =>
    cases x with
    | none => simpa [List.replace_cons] using ih
    | some c =>
      by_cases hc : c = conn
      · subst hc
        simp
      · have hother : (conn == c) = false := by simpa using Ne.symm hc
        simp [List.replace_cons,hother,hc,ih]

lemma erase_all (l : List GatewayConnection) :
    (fun l => l.erase conn)^[l.count conn] l = l.filter (· ≠ conn) := by
  have hcons {c : GatewayConnection} (hc : c ≠ conn) (k : ℕ) (l : List GatewayConnection) :
      (fun l => l.erase conn)^[k] (c :: l) = c :: (fun l => l.erase conn)^[k] l := by
    induction k generalizing l with
    | zero => rfl
    | succ k ih => rw [Function.iterate_succ_apply,List.erase_cons_tail (by simpa using hc),ih,Function.iterate_succ_apply]
  induction l with
  | nil => rfl
  | cons c l ih =>
    by_cases hc : c = conn
    · subst hc
      rw [List.count_cons_self,Function.iterate_succ_apply,List.erase_cons_head,ih]
      simp
    · rw [List.count_cons_of_ne hc,hcons hc,ih]
      simp [hc]

lemma live_runCallbacks : (client.runCallbacks (List.replicate (client.live.count conn) conn)).live =
      client.live.filter (· ≠ conn) := by
  have hiterate (k : ℕ) (client : GatewayClient) :
      (client.runCallbacks (List.replicate k conn)).live = (fun l => l.erase conn)^[k] client.live := by
    induction k generalizing client with
    | zero => rfl
    | succ k ih => exact (ih (client.onClose conn)).trans (congrArg _ (reduceOption_replace _))
  rw [hiterate,erase_all]

lemma forward_eq : client.forward = if client.live.isEmpty then (none,{ client with liveMailboxes := [] })
    else (client.live[client.nextIndex % client.live.length]?,
      ⟨client.live.map some,(client.nextIndex+1) % client.live.length⟩) := by
  rw [forward,filter_isSome,← live]
  cases hlive : client.live with
  | nil => rfl
  | cons c rest =>
    have hjoin (i : ℕ) : ((c :: rest).map some)[i]?.join = (c :: rest)[i]? := by
      rw [List.getElem?_map]
      cases (c :: rest)[i]? <;> rfl
    simp only [List.isEmpty_map,List.isEmpty_cons,Bool.false_eq_true,if_false,hjoin,List.length_map]

lemma live_forward : client.forward.2.live = client.live := by
  rw [forward_eq]
  split
  · next hempty => exact (List.isEmpty_iff.mp hempty).symm
  · simp [live,List.reduceOption,List.filterMap_map]

def circle (client : GatewayClient) : List GatewayConnection := client.live.rotate client.nextIndex

lemma forward_turn (client : GatewayClient) (h : client.circle.filter (fun _ => true) ≠ []) :
    ∃ conn, client.forward.1 = some conn ∧ Turn (fun _ => true) conn client.circle client.forward.2.circle := by
  have hne : client.live ≠ [] := by simpa [circle] using h
  rw [circle,circle,live_forward,forward_eq,if_neg (by simpa using hne)]
  exact Turn.of_index hne client.nextIndex

end GatewayClient

namespace GatewayLinks
variable {serialize : Task → Option (List UInt8)} {links : GatewayLinks} {conn : GatewayConnection}

structure Live (links : GatewayLinks) : Prop where
  live : links.client.live = links.openRegistrations
  callbacks : ∀ conn, (links.mailboxes conn).closeCallbacks.map Prod.snd =
    List.replicate (links.client.live.count conn) conn

lemma isOpen_register : (links.register conn).isOpen = links.isOpen := by
  funext c
  by_cases hc : c = conn
  · subst hc
    cases hactive : (links.mailboxes c).active <;>
      simp [isOpen,register,OutboundMailbox.registerOnClose,hactive]
  · simp [isOpen,register,Function.update_of_ne hc]

variable (h : links.Live)
include h

lemma Live.register (conn : GatewayConnection) : (links.register conn).Live := by
  have hopen : (links.register conn).openRegistrations =
      links.openRegistrations ++ [conn].filter links.isOpen := by
    rw [openRegistrations,isOpen_register]
    exact List.filter_append _ _
  have hcalls := h.callbacks
  cases hactive : (links.mailboxes conn).active with
  | true =>
    have hlive : (links.register conn).client.live = links.client.live ++ [conn] := by
      simp [GatewayLinks.register,OutboundMailbox.registerOnClose,hactive,GatewayClient.runCallbacks,
        GatewayClient.live,List.reduceOption_append]
    refine ⟨by rw [hlive,hopen,h.live]; simp [isOpen,hactive],fun c => ?_⟩
    rw [hlive,List.count_append]
    by_cases hc : c = conn
    · subst hc
      simp [GatewayLinks.register,OutboundMailbox.registerOnClose,hactive,hcalls,List.replicate_succ']
    · simp [GatewayLinks.register,Function.update_of_ne hc,hcalls,Ne.symm hc]
  | false =>
    have hnot : conn ∉ links.client.live := by
      rw [h.live,openRegistrations,List.mem_filter]
      simp [isOpen,hactive]
    have hlive : (links.register conn).client.live = links.client.live := by
      rw [GatewayLinks.register,OutboundMailbox.registerOnClose,hactive]
      refine (GatewayClient.reduceOption_replace _).trans ?_
      rw [List.reduceOption_append]
      refine (List.erase_append_right _ hnot).trans ?_
      simp [GatewayClient.live]
    refine ⟨by rw [hlive,hopen,h.live]; simp [isOpen,hactive],fun c => ?_⟩
    rw [hlive]
    by_cases hc : c = conn
    · subst hc
      simpa [GatewayLinks.register,OutboundMailbox.registerOnClose,hactive] using hcalls c
    · simpa [GatewayLinks.register,Function.update_of_ne hc] using hcalls c

lemma Live.close (conn : GatewayConnection) : (links.close conn).Live := by
  have hlive : (links.close conn).client.live = links.client.live.filter (· ≠ conn) := by
    rw [GatewayLinks.close,OutboundMailbox.close,h.callbacks]
    exact GatewayClient.live_runCallbacks
  have hopen : (links.close conn).isOpen = fun c => links.isOpen c && decide (c ≠ conn) := by
    funext c
    by_cases hc : c = conn
    · subst hc
      simp [isOpen,GatewayLinks.close,OutboundMailbox.close]
    · simp [isOpen,GatewayLinks.close,hc]
  refine ⟨?_,fun c => ?_⟩
  · rw [hlive,h.live,openRegistrations,openRegistrations,hopen,List.filter_filter]
    simp only [Bool.and_comm]
    rfl
  · rw [hlive]
    by_cases hc : c = conn
    · subst hc
      have hnone : (links.client.live.filter (· ≠ c)).count c = 0 := List.count_eq_zero.mpr (by simp)
      rw [hnone]
      simp [GatewayLinks.close,OutboundMailbox.close]
    · rw [List.count_filter (by simpa using hc)]
      simpa [GatewayLinks.close,Function.update_of_ne hc] using h.callbacks c

lemma Live.forward (serialize : Task → Option (List UInt8)) (task : Task) : (links.forward serialize task).2.Live := by
  have hlive := links.client.live_forward
  rw [GatewayLinks.forward]
  generalize links.client.forward = r at hlive
  obtain ⟨conn,client⟩ := r
  have hkept (sent : List (GatewayConnection × List UInt8)) : Live { links with client := client, sent := sent } :=
    ⟨hlive.trans h.live,fun c => by rw [hlive]; exact h.callbacks c⟩
  cases conn with
  | none => exact hkept _
  | some conn => cases serialize task <;> exact hkept _

theorem Live.run (events : List LinkEvent) : (links.run serialize events).Live := by
  induction events generalizing links with
  | nil => exact h
  | cons e events ih =>
    cases e with
    | register conn => exact ih (h.register conn)
    | close conn => exact ih (h.close conn)
    | forward task => exact ih (h.forward serialize task)

lemma Live.forward_cases (serialize : Task → Option (List UInt8)) (task : Task) :
    (links.openRegistrations = [] ∧ ∃ message, links.forward serialize task =
      (.unavailable message,{ links with client := links.client.forward.2 })) ∨
    ∃ conn ∈ links.openRegistrations, links.client.forward.1 = some conn ∧
      ((serialize task = none ∧ ∃ message, links.forward serialize task =
        (.internal message,{ links with client := links.client.forward.2 })) ∨
      ∃ bytes, serialize task = some bytes ∧ links.forward serialize task =
        (.ok,{ links with
          client := links.client.forward.2
          sent := links.sent ++ [(conn,serializeTlvFrame 0 bytes)] })) := by
  rw [GatewayLinks.forward,← h.live]
  by_cases hlive : links.client.live = []
  · have hnone : links.client.forward.1 = none := by
      rw [GatewayClient.forward_eq,if_pos (by simp [hlive])]
    generalize links.client.forward = r at hnone
    obtain ⟨first,client⟩ := r
    cases hnone
    exact .inl ⟨hlive,_,rfl⟩
  · obtain ⟨conn,hconn,-⟩ := links.client.forward_turn (by simpa [GatewayClient.circle] using hlive)
    have hmem : conn ∈ links.client.live := List.reduceOption_mem_iff.mpr (GatewayClient.mem_of_forward hconn)
    have hopen : (links.mailboxes conn).active = true := by
      rw [h.live] at hmem
      exact (List.mem_filter.mp hmem).2
    generalize links.client.forward = r at hconn
    obtain ⟨first,client⟩ := r
    cases hconn
    refine .inr ⟨conn,hmem,rfl,?_⟩
    cases hbytes : serialize task with
    | none => exact .inl ⟨rfl,_,rfl⟩
    | some bytes => exact .inr ⟨bytes,rfl,by simp [OutboundMailbox.enqueue,hopen]⟩

lemma Live.sent_forwards {tasks : List Task} {conns : List GatewayConnection} {bytes : List (List UInt8)}
    (hpicks : picks GatewayClient.forward tasks.length links.client = conns.map some)
    (hbytes : tasks.map serialize = bytes.map some) : (links.run serialize (tasks.map .forward)).sent =
      links.sent ++ conns.zip (bytes.map (serializeTlvFrame 0)) := by
  induction tasks generalizing links conns bytes with
  | nil =>
    cases bytes with
    | nil => simp [GatewayLinks.run]
    | cons => simp at hbytes
  | cons task tasks ih =>
    obtain ⟨conn,conns,rfl,hconn,hrest⟩ := List.map_eq_cons_iff.mp hpicks.symm
    obtain ⟨b,bytes,rfl,hb,hbytes⟩ := List.map_eq_cons_iff.mp hbytes.symm
    have hnext := h.forward serialize task
    rw [List.map_cons,GatewayLinks.run,List.foldl_cons,← GatewayLinks.run,GatewayLinks.step]
    obtain ⟨hnone,-⟩ | ⟨c,-,hc,⟨hunserialized,-⟩ | ⟨b',hb',hforward⟩⟩ :=
      h.forward_cases serialize task
    · have hmem := List.reduceOption_mem_iff.mpr (GatewayClient.mem_of_forward hconn.symm)
      rw [← GatewayClient.live,h.live,hnone] at hmem
      cases hmem
    · rw [← hb] at hunserialized
      cases hunserialized
    · rw [← hb] at hb'
      rw [← hconn] at hc
      cases hb'
      cases hc
      rw [hforward] at hnext ⊢
      rw [ih hnext hrest.symm hbytes.symm]
      simp

end GatewayLinks

/-- After any history: a task is forwarded exactly if a registered mailbox is open, as one frame on such a
mailbox, unless it cannot be serialized; the live count is the number of open registrations; and as many
consecutive forwards as there are of them use each one once. -/
theorem forwards_on_live_links (serialize : Task → Option (List UInt8)) (events : List LinkEvent)
    (links : GatewayLinks) (hrun : GatewayLinks.run serialize {} events = links) :
    (∀ task, (links.forward serialize task).1 = .ok ↔
      ∃ conn bytes, conn ∈ links.registered ∧ links.isOpen conn = true ∧ serialize task = some bytes ∧
        (links.forward serialize task).2.sent = links.sent ++ [(conn,serializeTlvFrame 0 bytes)]) ∧
    (∀ task, (∃ message, (links.forward serialize task).1 = .unavailable message) ↔
      ∀ conn ∈ links.registered, links.isOpen conn = false) ∧
    links.client.liveCount = links.registered.countP links.isOpen ∧
    ∀ (tasks : List Task) (bytes : List (List UInt8)),
      tasks.length = links.openRegistrations.length → tasks.map serialize = bytes.map some →
        (links.run serialize (tasks.map .forward)).sent = links.sent ++
          (links.openRegistrations.rotate links.client.nextIndex).zip (bytes.map (serializeTlvFrame 0)) := by
  have hlive : links.Live := by
    rw [← hrun]
    exact GatewayLinks.Live.run ⟨rfl,fun _ => rfl⟩ events
  have hmem (conn : GatewayConnection) :
      conn ∈ links.openRegistrations ↔ conn ∈ links.registered ∧ links.isOpen conn = true := List.mem_filter
  refine ⟨fun task => ?_,fun task => ?_,?_,fun tasks bytes hlength hbytes => ?_⟩
  · obtain ⟨-,message,hforward⟩ | ⟨conn,hconn,-,⟨hnone,message,hforward⟩ | ⟨bytes,hbytes,hforward⟩⟩ :=
      hlive.forward_cases serialize task
    · rw [hforward]
      simp
    · rw [hforward]
      simp
    · rw [hforward]
      obtain ⟨hregistered,hopen⟩ := (hmem conn).mp hconn
      exact iff_of_true rfl ⟨conn,bytes,hregistered,hopen,hbytes,rfl⟩
  · have hclosed : links.openRegistrations = [] ↔ ∀ conn ∈ links.registered, links.isOpen conn = false := by
      simp [GatewayLinks.openRegistrations]
    obtain ⟨hnone,message,hforward⟩ | ⟨conn,hconn,-,⟨-,message,hforward⟩ | ⟨bytes,-,hforward⟩⟩ :=
      hlive.forward_cases serialize task
    · rw [hforward]
      exact iff_of_true ⟨message,rfl⟩ (hclosed.mp hnone)
    · rw [hforward,← hclosed]
      simp [List.ne_nil_of_mem hconn]
    · rw [hforward,← hclosed]
      simp [List.ne_nil_of_mem hconn]
  · rw [GatewayClient.liveCount_eq,hlive.live,GatewayLinks.openRegistrations,List.countP_eq_length_filter]
  · refine hlive.sent_forwards ?_ hbytes
    have hround := picks_of_turns GatewayClient.forward_turn tasks.length links.client
      (by simp [GatewayClient.circle,hlength,hlive.live])
    rw [hround,List.filter_true,List.take_of_length_le (by simp [GatewayClient.circle,hlength,hlive.live]),
      GatewayClient.circle,hlive.live]

/-- Three gateways register, the one with the next turn leaves, and one registers that has left before. -/
def gatewayLeaves : List LinkEvent :=
  [.register 0,.register 1,.register 2,.forward (DefaultLocalScheduler.childTask "a" "echo"),.close 1,.close 3,
    .register 3]

theorem forwards_on_live_links_gatewayLeaves :
    ∃ links, GatewayLinks.run (fun task => some (task.id.toUTF8.toList)) {} gatewayLeaves = links ∧
      links.client.liveCount = links.registered.countP links.isOpen ∧ links.openRegistrations = [0,2] ∧
      (links.run (fun task => some (task.id.toUTF8.toList))
        [.forward (DefaultLocalScheduler.childTask "b" "echo"),
          .forward (DefaultLocalScheduler.childTask "c" "echo")]).sent =
        links.sent ++ [(2,[0,0,0,0,1,98]),(0,[0,0,0,0,1,99])] := by
  have hlive := forwards_on_live_links (fun task => some (task.id.toUTF8.toList)) gatewayLeaves _ rfl
  refine ⟨_,rfl,hlive.2.2.1,by decide +kernel,?_⟩
  exact hlive.2.2.2
    [DefaultLocalScheduler.childTask "b" "echo",DefaultLocalScheduler.childTask "c" "echo"] [[98],[99]]
    (by decide +kernel) (by decide +kernel)

end Strij.NodeAgent
