import Strij.Lib.Runs
import Strij.NodeAgent.DefaultLocalScheduler
import Strij.NodeAgent.Walk

/-! What becomes of the probes that reach a node: at every moment each of them is queued, held, or finished. -/
namespace Strij.NodeAgent
open Strij.Lib Strij.Wire

namespace ProbeLocalScheduler
variable {s : ProbeLocalScheduler}

lemma count_ids_filter (items : List QueuedProbe) (id other : String) :
    (ids (items.filter (fun item => item.probe.id ≠ id))).count other =
      if other = id then 0 else (ids items).count other := by
  rw [ids,ids,List.count_eq_countP,List.count_eq_countP,List.countP_map,List.countP_map,List.countP_filter]
  split
  · next hid =>
    subst hid
    refine List.countP_eq_zero.mpr fun item _ => ?_
    simp
  · next hid =>
    refine List.countP_congr fun item _ => ?_
    simp only [Function.comp_apply,Bool.and_eq_true,beq_iff_eq,decide_eq_true_eq]
    exact ⟨And.left,fun hother => ⟨hother,hother ▸ hid⟩⟩

lemma filter_eq_eraseP {items : List QueuedProbe} {id : String} (h : (ids items).Nodup) :
    items.filter (fun item => item.probe.id ≠ id) = items.eraseP (fun item => item.probe.id = id) := by
  induction items with
  | nil => rfl
  | cons item items ih =>
    obtain ⟨hitem,hnodup⟩ := List.nodup_cons.mp h
    by_cases hid : item.probe.id = id
    · rw [List.filter_cons_of_neg (by simp [hid]),List.eraseP_cons_of_pos (by simp [hid])]
      refine List.filter_eq_self.mpr fun other hother => decide_eq_true fun heq => ?_
      exact hitem (List.mem_map.mpr ⟨other,hother,heq.trans hid.symm⟩)
    · rw [List.filter_cons_of_pos (by simp [hid]),List.eraseP_cons_of_neg (by simp [hid]),ih hnodup]

lemma removeQueued_eq (h : s.queue.items.length ≤ s.queue.maxSize) (id : String) : s.removeQueued id = { s with
    queue := { s.queue with items := s.queue.items.filter (fun item => item.probe.id ≠ id) } } := by
  have hlength := List.length_filter_le (fun item : QueuedProbe => item.probe.id ≠ id) s.queue.items
  rw [removeQueued,BoundedQueue.pushAll_of_room _ (by simp only [List.length_nil]; omega),List.nil_append]

lemma runTask_keeps (task : Task) (scope : AdmissionScope) (s : ProbeLocalScheduler) :
    (s.runTask task scope).1.queue = s.queue ∧ (s.runTask task scope).1.pullPending = s.pullPending := by
  rw [runTask]
  split <;> exact ⟨rfl,rfl⟩

end ProbeLocalScheduler

inductive Finish
  | declined
  | cancelled
  | granted
  deriving DecidableEq, Repr

/-- A scheduler with the probes that arrived and those that were finished. -/
structure ProbeRecord where
  scheduler : ProbeLocalScheduler
  arrived : List String := []
  finished : List (String × Finish) := []

inductive ProbeRecordEvent
  | probe (cached : AllCached) (probe : TaskProbe) (mailbox : Mailbox)
  | grant (cached : AllCached) (task : Task) (mailbox : Mailbox)
  | cancel (cached : AllCached) (id : String) (mailbox : Mailbox)
  | walk (cached : AllCached) (command : CommandType)
  | elsewhere (controller : AdmissionController)

namespace ProbeRecord

def declined (effects : List NodeEffect) : List (String × Finish) :=
  (declines effects).map (fun d => (d.2.1,.declined))

def step (n : ProbeRecord) : ProbeRecordEvent → Option ProbeRecord
  | .probe cached probe mailbox =>
    let r := n.scheduler.handleFrame cached (.probe probe) mailbox
    if probe.id ∈ n.arrived then none
    else some ⟨r.2.1,n.arrived ++ [probe.id],n.finished ++ declined r.2.2⟩
  | .grant cached task mailbox =>
    let r := n.scheduler.handleFrame cached (.grant task) mailbox
    some ⟨r.2.1,n.arrived,
      n.finished ++ if task.id ∈ n.scheduler.pullPending then [(task.id,.granted)] else []⟩
  | .cancel cached id mailbox =>
    let r := n.scheduler.handleFrame cached (.cancel id) mailbox
    some ⟨r.2.1,n.arrived,
      n.finished ++ if id ∈ n.scheduler.pullPending ∨ id ∈ ProbeLocalScheduler.ids n.scheduler.queue.items
        then [(id,.cancelled)] else []⟩
  | .walk cached command =>
    let r := n.scheduler.processCommand cached command
    some ⟨r.1,n.arrived,n.finished ++ declined r.2⟩
  | .elsewhere controller => some { n with scheduler := { n.scheduler with admission := controller } }

structure Conserved (n : ProbeRecord) : Prop where
  nodup : n.arrived.Nodup
  places (id : String) : n.arrived.count id =
    (ProbeLocalScheduler.ids n.scheduler.queue.items).count id + n.scheduler.pullPending.keys.count id +
      (n.finished.map Prod.fst).count id
  bounded : n.scheduler.queue.items.length ≤ n.scheduler.queue.maxSize

variable {n : ProbeRecord}

lemma declined_append (a b : List NodeEffect) : declined (a ++ b) = declined a ++ declined b := by
  simp [declined,declines]

lemma declined_startPrefetch (cached : AllCached) (probe : TaskProbe) :
    declined (ProbeLocalScheduler.startPrefetch cached probe) = [] := by
  rw [ProbeLocalScheduler.startPrefetch]
  split <;> rfl

lemma declined_sendDecline (mailbox : Mailbox) (id reason : String) :
    declined [ProbeLocalScheduler.sendDecline mailbox id reason] = [(id,.declined)] := rfl

lemma declined_pull (mailbox : Mailbox) (id : String) : declined [.enqueue mailbox (.pull id)] = [] := rfl

lemma count_finish (finished : List (String × Finish)) (id other : String) (f : Finish) :
    ((finished ++ [(id,f)]).map Prod.fst).count other =
      (finished.map Prod.fst).count other + if other = id then 1 else 0 := by
  simp only [List.map_append,List.count_append,List.map_cons,List.map_nil,List.count_singleton,beq_iff_eq,@eq_comm _ id]

namespace Conserved
variable {id : String}

variable (h : n.Conserved)
include h

lemma distinct : n.scheduler.Distinct := by
  refine ⟨List.nodup_iff_count_le_one.mpr fun id => ?_,h.bounded⟩
  have hplaces := h.places id
  have hone := List.nodup_iff_count_le_one.mp h.nodup id
  rw [List.count_append]
  omega

lemma fresh (hid : id ∉ n.arrived) : id ∉ n.scheduler.pullPending := by
  have hplaces := h.places id
  rw [List.count_eq_zero_of_not_mem hid] at hplaces
  refine List.count_eq_zero.mp ?_
  omega

lemma nodup_snoc (hid : id ∉ n.arrived) : (n.arrived ++ [id]).Nodup :=
  List.nodup_append.mpr
    ⟨h.nodup,List.nodup_singleton _,fun _ ha _ hb hab => hid (List.mem_singleton.mp hb ▸ hab ▸ ha)⟩

lemma walk (cached : AllCached) : Conserved
    ⟨(n.scheduler.walk cached).1,n.arrived,n.finished ++ declined (n.scheduler.walk cached).2⟩ := by
  obtain ⟨hscheduler,-,hdeclined⟩ := h.distinct.walk_eq cached
  have hkeys := ProbeLocalScheduler.keys_holdAll (h.distinct.fresh cached)
  have hperm := greedyPass_perm (ProbeLocalScheduler.judge cached) n.scheduler.queue.items n.scheduler.room
    n.scheduler.admission
  refine ⟨h.nodup,fun id => ?_,?_⟩
  · have hcount := (hperm.map (·.probe.id)).count_eq id
    have hplaces := h.places id
    rw [hscheduler]
    simp only [declined,hdeclined,hkeys]
    simp only [List.map_append,List.count_append,ProbeLocalScheduler.ids,List.map_map,List.count_reverse,
      ProbeLocalScheduler.pass,Function.comp_def] at hcount hplaces ⊢
    omega
  · have hlength := hperm.length_eq
    have hbounded := h.bounded
    rw [hscheduler]
    simp only [List.length_append,ProbeLocalScheduler.pass] at hlength ⊢
    omega

lemma handleProbe (cached : AllCached) {probe : TaskProbe} (mailbox : Mailbox)
    (hnew : probe.id ∉ n.arrived) : Conserved ⟨(n.scheduler.handleProbe cached probe mailbox).1,
      n.arrived ++ [probe.id],n.finished ++ declined (n.scheduler.handleProbe cached probe mailbox).2⟩ := by
  have hid := h.fresh hnew
  rw [ProbeLocalScheduler.handleProbe]
  rcases n.scheduler.admission.admitTask probe.type probe.requirements with ⟨(message | message) | u,c⟩
  · exact ⟨h.nodup_snoc hnew,fun id => by simp [h.places id,declined_sendDecline,Nat.add_assoc],h.bounded⟩
  · cases hpush : n.scheduler.queue.push ⟨probe,mailbox⟩ with
    | none => exact ⟨h.nodup_snoc hnew,fun id => by simp [h.places id,declined_sendDecline,Nat.add_assoc],h.bounded⟩
    | some queue =>
      obtain ⟨hroom,rfl⟩ := BoundedQueue.push_eq_some _ hpush
      refine ⟨h.nodup_snoc hnew,fun id => ?_,?_⟩
      · have hplaces := h.places id
        simp only [ProbeLocalScheduler.ids,declined_startPrefetch,List.append_nil,List.map_append,List.map_cons,
          List.map_nil,List.count_append] at hplaces ⊢
        omega
      · simp only [List.length_append,List.length_singleton]
        omega
  · simp only [ProbeLocalScheduler.preallocate_of_not_mem hid,declined_append,declined_startPrefetch]
    refine ⟨h.nodup_snoc hnew,fun id => ?_,h.bounded⟩
    have hplaces := h.places id
    simp only [ProbeLocalScheduler.keys_insert_of_not_mem hid,declined_pull,List.append_nil,List.count_append,
      List.count_cons,List.count_nil] at hplaces ⊢
    omega

lemma grant (task : Task) : Conserved ⟨(n.scheduler.handleGrant task).1,n.arrived,
    n.finished ++ if task.id ∈ n.scheduler.pullPending then [(task.id,.granted)] else []⟩ := by
  rw [ProbeLocalScheduler.handleGrant]
  cases hlookup : n.scheduler.pullPending.lookup task.id with
  | none =>
    rw [if_neg (AList.lookup_eq_none.mp hlookup),List.append_nil]
    exact h
  | some pending =>
    have hheld : task.id ∈ n.scheduler.pullPending := AList.lookup_isSome.mp (by rw [hlookup]; rfl)
    obtain ⟨hqueue,hpending⟩ := ProbeLocalScheduler.runTask_keeps task pending.scope
      { n.scheduler with pullPending := n.scheduler.pullPending.erase task.id }
    rw [if_pos hheld]
    refine ⟨h.nodup,fun id => ?_,?_⟩
    · have hplaces := h.places id
      have hcount := List.count_pos_iff.mpr (AList.mem_keys.mp hheld)
      rw [count_finish,hqueue,hpending,AList.keys_erase,List.count_erase]
      by_cases hid : id = task.id
      · subst hid
        simp only [beq_self_eq_true,if_true]
        omega
      · simp only [hid,if_false,beq_iff_eq,Ne.symm hid]
        omega
    · rw [hqueue]
      exact h.bounded

lemma cancel (id : String) : Conserved ⟨n.scheduler.handleCancel id,n.arrived,
    n.finished ++ if id ∈ n.scheduler.pullPending ∨ id ∈ ProbeLocalScheduler.ids n.scheduler.queue.items
      then [(id,.cancelled)] else []⟩ := by
  have hone := List.nodup_iff_count_le_one.mp h.nodup id
  rw [h.places id] at hone
  have hfilter := List.length_filter_le (fun item : QueuedProbe => item.probe.id ≠ id) n.scheduler.queue.items
  rw [ProbeLocalScheduler.handleCancel]
  cases hlookup : n.scheduler.pullPending.lookup id with
  | none =>
    have hfree := AList.lookup_eq_none.mp hlookup
    have hkeys : n.scheduler.pullPending.keys.count id = 0 := List.count_eq_zero_of_not_mem hfree
    simp only [ProbeLocalScheduler.removeQueued_eq h.bounded]
    refine ⟨h.nodup,fun other => ?_,hfilter.trans h.bounded⟩
    rw [ProbeLocalScheduler.count_ids_filter,h.places other]
    by_cases hqueued : id ∈ ProbeLocalScheduler.ids n.scheduler.queue.items
    · have hcount := List.count_pos_iff.mpr hqueued
      rw [if_pos (Or.inr hqueued),count_finish]
      by_cases hother : other = id
      · subst hother
        rw [if_pos rfl,if_pos rfl]
        simp only
        omega
      · rw [if_neg hother,if_neg hother]
        rfl
    · have hcount := List.count_eq_zero_of_not_mem hqueued
      rw [if_neg (not_or.mpr ⟨hfree,hqueued⟩),List.append_nil]
      by_cases hother : other = id
      · subst hother
        rw [if_pos rfl,hcount]
      · rw [if_neg hother]
  | some pending =>
    have hheld : id ∈ n.scheduler.pullPending := AList.lookup_isSome.mp (by rw [hlookup]; rfl)
    have hcount : 0 < n.scheduler.pullPending.keys.count id := List.count_pos_iff.mpr hheld
    have hremove := ProbeLocalScheduler.removeQueued_eq (s := { n.scheduler with
      pullPending := n.scheduler.pullPending.erase id
      admission := (pending.scope.release n.scheduler.admission).2 }) h.bounded id
    rw [if_pos (.inl hheld)]
    simp only [hremove]
    refine ⟨h.nodup,fun other => ?_,hfilter.trans h.bounded⟩
    rw [ProbeLocalScheduler.count_ids_filter,count_finish,AList.keys_erase,List.count_erase,h.places other]
    by_cases hother : other = id
    · subst hother
      simp only [if_true,beq_self_eq_true]
      omega
    · simp only [hother,if_false,beq_iff_eq,Ne.symm hother]
      rfl

lemma step (e : ProbeRecordEvent) (t : ProbeRecord) (hstep : n.step e = some t) : t.Conserved := by
  cases e with
  | probe cached probe mailbox =>
    rw [ProbeRecord.step] at hstep
    split at hstep
    · cases hstep
    · next hnew =>
      obtain rfl := Option.some.inj hstep
      have hnext := (h.walk cached).handleProbe cached mailbox hnew
      rw [List.append_assoc,← declined_append] at hnext
      exact hnext
  | grant cached task mailbox =>
    obtain rfl := Option.some.inj hstep
    exact h.grant task
  | cancel cached id mailbox =>
    obtain rfl := Option.some.inj hstep
    exact h.cancel id
  | walk cached command =>
    obtain rfl := Option.some.inj hstep
    cases command with
    | capacityReleased => exact h.walk cached
    | depCompleted => exact h.walk cached
    | other =>
      have hkept : n.finished ++ declined (n.scheduler.processCommand cached .other).2 = n.finished :=
        List.append_nil _
      rw [hkept]
      exact h
  | elsewhere controller =>
    obtain rfl := Option.some.inj hstep
    exact ⟨h.nodup,h.places,h.bounded⟩

omit h

lemma run {s : ProbeLocalScheduler} (hqueue : s.queue.items = []) (hheld : s.pullPending = ∅)
    {events : List ProbeRecordEvent} (hrun : runAll ProbeRecord.step { scheduler := s } events = some n) :
    n.Conserved := by
  have hinit : ProbeRecord.Conserved { scheduler := s } :=
    ⟨List.nodup_nil,fun id => by simp [hqueue,hheld,ProbeLocalScheduler.ids],by simp [hqueue]⟩
  exact runAll_invariant (P := fun _ _ => True)
    (fun _ e t hn _ hstep => hn.step e t hstep) hinit (.of_forall fun _ _ => trivial) hrun

end Conserved
end ProbeRecord

namespace ProbeLocalScheduler
variable {s : ProbeLocalScheduler}

lemma Distinct.walk_rejected (h : s.Distinct) (cached : AllCached) :
    let r := s.walkLoop cached s.queue.items []
    r.1.queue.rejected r.2.1 = [] := by
  obtain ⟨hscheduler,hdeferred,-,-⟩ := walkLoop_walked s.queue.items [] (h.fresh cached)
  have hlength := (greedyPass_perm (judge cached) s.queue.items s.room s.admission).length_eq
  have hbounded := h.bounded
  simp only [List.length_append] at hlength
  simp only [hscheduler,hdeferred,List.nil_append]
  refine BoundedQueue.rejected_of_room _ ?_
  simp only
  omega

lemma Distinct.walk_dial (h : s.Distinct) (cached : AllCached) : (s.walk cached).1.pullPending.keys.length ≤
    max s.pullPending.keys.length s.maxConcurrentPreallocations := by
  have htaken := greedyPass_taken_le (judge cached) s.queue.items s.room s.admission
  rw [(h.walk_eq cached).1]
  simp only [keys_holdAll (h.fresh cached)]
  simp only [ids,List.length_append,List.length_reverse,List.length_map,pass,room] at htaken ⊢
  omega

lemma Distinct.removeQueued_eraseP (h : s.Distinct) (id : String) :
    (s.removeQueued id).queue.items = s.queue.items.eraseP (fun item => item.probe.id = id) := by
  rw [removeQueued_eq h.bounded]
  have hnodup : (ids s.queue.items).Nodup := h.nodup.sublist (List.sublist_append_left _ _)
  exact filter_eq_eraseP hnodup

end ProbeLocalScheduler

/-- For probes with distinct ids, at each moment of a node's life every probe that arrived is queued once,
held once, or finished by one decline, cancel or grant. The queue does not exceed its capacity, and what a walk
or `removeQueued` pushes back is not rejected; `removeQueued` removes the probe with that id and keeps the
others in order, and a walk does not go over the dial. -/
theorem probe_conservation (s : ProbeLocalScheduler) (hqueue : s.queue.items = []) (hheld : s.pullPending = ∅)
    (events : List ProbeRecordEvent) (n : ProbeRecord)
    (hrun : runAll ProbeRecord.step { scheduler := s } events = some n) :
    (∀ id, (ProbeLocalScheduler.ids n.scheduler.queue.items).count id + n.scheduler.pullPending.keys.count id +
      (n.finished.map Prod.fst).count id = if id ∈ n.arrived then 1 else 0) ∧
    n.scheduler.queue.items.length ≤ n.scheduler.queue.maxSize ∧
    (∀ cached, let r := n.scheduler.walkLoop cached n.scheduler.queue.items []
      r.1.queue.rejected r.2.1 = []) ∧
    (∀ id, BoundedQueue.rejected { n.scheduler.queue with items := [] }
        (n.scheduler.queue.items.filter (fun item => item.probe.id ≠ id)) = [] ∧
      (n.scheduler.removeQueued id).queue.items =
        n.scheduler.queue.items.eraseP (fun item => item.probe.id = id)) ∧
    ∀ cached, (n.scheduler.walk cached).1.pullPending.keys.length ≤
      max n.scheduler.pullPending.keys.length n.scheduler.maxConcurrentPreallocations := by
  have hn := ProbeRecord.Conserved.run hqueue hheld hrun
  refine ⟨fun id => ?_,hn.bounded,hn.distinct.walk_rejected,fun id => ⟨?_,hn.distinct.removeQueued_eraseP id⟩,
    hn.distinct.walk_dial⟩
  · rw [← hn.places id,hn.nodup.count]
  · refine BoundedQueue.rejected_of_room _ ?_
    have hbounded := hn.bounded
    have hfilter := List.length_filter_le (fun item : QueuedProbe => item.probe.id ≠ id) n.scheduler.queue.items
    simp only [List.length_nil]
    omega

def smallNode : ProbeLocalScheduler where
  admission := .ofCapabilities { pools := [⟨"gpu",2⟩] }
  handlers _ := true
  maxConcurrentPreallocations := 1
  queue := ⟨1,[]⟩

def gpuProbe (id : String) (amount : UInt64) : TaskProbe := ⟨id,"echo",⟨[("gpu",amount)],List.nodup_singleton "gpu"⟩,[]⟩

/-- Two probes are held and one is queued; one finds the queue full, one asks for too much, and one is cancelled. -/
def sixProbes : List ProbeRecordEvent :=
  let cached : AllCached := fun _ => true
  [.probe cached (gpuProbe "a" 1) 0,.probe cached (gpuProbe "b" 1) 0,.probe cached (gpuProbe "c" 1) 1,
    .probe cached (gpuProbe "d" 1) 1,.probe cached (gpuProbe "e" 3) 0,.cancel cached "b" 0,.walk cached .capacityReleased,
    .grant cached (DefaultLocalScheduler.childTask "a" "echo") 0,.probe cached (gpuProbe "f" 1) 0]

theorem probe_conservation_sixProbes :
    ∃ n, runAll ProbeRecord.step { scheduler := smallNode } sixProbes = some n ∧
      (n.finished = [("d",.declined),("e",.declined),("b",.cancelled),("a",.granted)] ∧
        n.scheduler.pullPending.keys = ["c"] ∧ ProbeLocalScheduler.ids n.scheduler.queue.items = ["f"]) ∧
      n.scheduler.queue.items.length ≤ n.scheduler.queue.maxSize := by
  have hrun : (runAll ProbeRecord.step { scheduler := smallNode } sixProbes).any (fun n =>
      n.finished = [("d",.declined),("e",.declined),("b",.cancelled),("a",.granted)] ∧
        n.scheduler.pullPending.keys = ["c"] ∧ ProbeLocalScheduler.ids n.scheduler.queue.items = ["f"]) = true := by
    decide +kernel
  obtain ⟨n,hn,hplaces⟩ := (Option.any_eq_true _ _).mp hrun
  exact ⟨n,hn,of_decide_eq_true hplaces,(probe_conservation smallNode rfl rfl sixProbes n hn).2.1⟩

end Strij.NodeAgent
