import Strij.Lib.FiniteMap
import Strij.NodeAgent.AdmissionAccounts
import Strij.NodeAgent.ProbeLocalScheduler

/-! The admission books of a node that runs the probe scheduler: what is in use is what the held
reservations, the running tasks and the node's other services hold together. -/
namespace Strij.NodeAgent
open Strij.Lib Strij.Wire

/-- The controller's pools account for exactly these scopes, none of which is released. -/
structure Books (c : AdmissionController) (scopes : List AdmissionScope) : Prop where
  pools : c.PoolAccounts scopes
  unreleased : ∀ scope ∈ scopes, scope.released = false

namespace Books
variable {c c' : AdmissionController} {scopes l : List AdmissionScope} {scope : AdmissionScope}

lemma start (capabilities : NodeCapabilities) : Books (.ofCapabilities capabilities) [] where
  pools := .start capabilities
  unreleased scope hscope := by cases hscope

lemma perm (h : Books c scopes) (hp : scopes.Perm l) : Books c l :=
  ⟨h.pools.perm hp,fun x hx => h.unreleased x (hp.mem_iff.mpr hx)⟩

lemma admitTask (h : Books c scopes) {taskType : String} {r : ResourceRequirements}
    (ha : c.admitTask taskType r = (.ok (),c')) : Books c' (⟨taskType,r,false⟩ :: scopes) := by
  refine ⟨h.pools.admitTask ha,fun x hx => ?_⟩
  rcases List.mem_cons.mp hx with rfl | hx
  · rfl
  · exact h.unreleased x hx

lemma release (h : Books c (scope :: scopes)) : Books (scope.release c).2 scopes := by
  have hlive := h.unreleased scope List.mem_cons_self
  rw [AdmissionScope.release,if_neg (by simp [hlive])]
  exact ⟨h.pools.release,fun x hx => h.unreleased x (List.mem_cons_of_mem _ hx)⟩

end Books

/-- What is said of a controller and the scopes that are alive when `k` more may be admitted, and survives what
the node does to them. -/
structure Accounting (A : ℕ → AdmissionController → List AdmissionScope → Prop) : Prop where
  perm {k : ℕ} {c : AdmissionController} {scopes l : List AdmissionScope} : A k c scopes → scopes.Perm l → A k c l
  skip {k : ℕ} {c : AdmissionController} {scopes : List AdmissionScope} : A (k+1) c scopes → A k c scopes
  admitTask {k : ℕ} {c c' : AdmissionController} {scopes : List AdmissionScope} {taskType : String}
    {r : ResourceRequirements} : A (k+1) c scopes → c.admitTask taskType r = (.ok (),c') →
      A k c' (⟨taskType,r,false⟩ :: scopes)
  release {k : ℕ} {c : AdmissionController} {scopes : List AdmissionScope} {scope : AdmissionScope} :
    A k c (scope :: scopes) → A k (scope.release c).2 scopes

lemma Books.accounting : Accounting (fun _ => Books) := ⟨Books.perm,id,fun h => h.admitTask,Books.release⟩

namespace ProbeLocalScheduler
variable {s : ProbeLocalScheduler}

def heldScopes (s : ProbeLocalScheduler) : List AdmissionScope :=
  s.pullPending.entries.map (fun x => x.2.scope)

def scopes (s : ProbeLocalScheduler) : List AdmissionScope :=
  s.heldScopes ++ (s.running.map Prod.snd ++ s.others)

def Accounted (s : ProbeLocalScheduler) : Prop := Books s.admission s.scopes

def attributed (s : ProbeLocalScheduler) (id : String) : List AdmissionScope :=
  ((s.pullPending.lookup id).map PullPending.scope).toList ++
    (s.running.filter (fun x => x.1 = id)).map Prod.snd

lemma scopes_of_lookup {id : String} {p : PullPending} (h : s.pullPending.lookup id = some p) :
    s.scopes.Perm (p.scope :: { s with pullPending := s.pullPending.erase id }.scopes) :=
  ((entries_perm_erase h).map (fun x => x.2.scope)).append_right _

lemma scopes_assign (id : String) (p : PullPending) :
    { s with pullPending := s.pullPending.insert id p }.scopes =
      p.scope :: { s with pullPending := s.pullPending.erase id }.scopes := by
  simp [scopes,heldScopes]
  rfl

end ProbeLocalScheduler

lemma AdmissionController.eq_of_refused {c c' : AdmissionController} {taskType : String} {r : ResourceRequirements}
    {e : AdmitError} (ha : c.admitTask taskType r = (.error e,c')) : c' = c := by
  obtain ⟨e',he⟩ | ⟨-,-,hok⟩ := c.admitTask_cases taskType r
  · exact (Prod.mk.inj (he.symm.trans ha)).2.symm
  · cases hok.symm.trans ha

lemma perm_eraseIdx {α : Type*} {l : List α} {i : ℕ} {x : α} (h : l[i]? = some x) :
    l.Perm (x :: l.eraseIdx i) := by
  obtain ⟨hi,rfl⟩ := List.getElem?_eq_some_iff.mp h
  exact (List.getElem_cons_eraseIdx_perm hi).symm

namespace Accounting
open ProbeLocalScheduler
variable {A : ℕ → AdmissionController → List AdmissionScope → Prop} (hA : Accounting A) {s : ProbeLocalScheduler}
  {k : ℕ} {cached : AllCached} {c : AdmissionController}
include hA

lemma skipAll (m : ℕ) {scopes : List AdmissionScope} (h : A (m+k) c scopes) : A k c scopes := by
  induction m with
  | zero => rwa [Nat.zero_add] at h
  | succ m ih => exact ih (hA.skip (by rwa [Nat.add_right_comm] at h))

variable (h : A (k+1) s.admission s.scopes)
include h

lemma preallocate_new {probe : TaskProbe}
    (ha : s.admission.admitTask probe.type probe.requirements = (.ok (),c)) (mailbox : Mailbox)
    (hnone : s.pullPending.lookup probe.id = none) :
    A k (s.preallocate c probe mailbox).1.admission (s.preallocate c probe mailbox).1.scopes := by
  have herase : s.pullPending.erase probe.id = s.pullPending :=
    AList.ext (List.kerase_of_notMem_keys (AList.lookup_eq_none.mp hnone))
  simp only [preallocate,assignPullPending,hnone]
  change A k c (scopes { s with pullPending := _ })
  rw [scopes_assign,herase]
  exact hA.admitTask h ha

lemma preallocate_old {probe : TaskProbe} {old : PullPending}
    (ha : s.admission.admitTask probe.type probe.requirements = (.ok (),c)) (mailbox : Mailbox)
    (hold : s.pullPending.lookup probe.id = some old) :
    A k c (old.scope :: (s.preallocate c probe mailbox).1.scopes) ∧
      (s.preallocate c probe mailbox).1.admission = (old.scope.release c).2 := by
  simp only [preallocate,assignPullPending,hold]
  refine ⟨?_,trivial⟩
  change A k c (old.scope :: scopes { s with pullPending := _ })
  rw [scopes_assign]
  exact hA.perm (hA.admitTask h ha) (((scopes_of_lookup hold).cons _).trans (List.Perm.swap _ _ _))

lemma preallocate {probe : TaskProbe}
    (ha : s.admission.admitTask probe.type probe.requirements = (.ok (),c)) (mailbox : Mailbox) :
    A k (s.preallocate c probe mailbox).1.admission (s.preallocate c probe mailbox).1.scopes := by
  cases hlookup : s.pullPending.lookup probe.id with
  | none => exact hA.preallocate_new h ha mailbox hlookup
  | some old =>
    obtain ⟨hold,hreleased⟩ := hA.preallocate_old h ha mailbox hlookup
    rw [hreleased]
    exact hA.release hold

omit h

lemma walkLoop (items deferred : List QueuedProbe) (h : A (items.length+k) s.admission s.scopes) :
    A k (s.walkLoop cached items deferred).1.admission (s.walkLoop cached items deferred).1.scopes := by
  induction items generalizing deferred s with
  | nil => rwa [List.length_nil,Nat.zero_add] at h
  | cons item rest ih =>
    rw [List.length_cons,Nat.add_right_comm] at h
    rw [ProbeLocalScheduler.walkLoop]
    split
    · exact hA.skipAll rest.length (hA.skip h)
    split
    · exact ih _ (hA.skip h)
    split
    · next ha => exact ih _ (hA.preallocate h ha _)
    · exact ih _ (hA.skip h)
    · exact ih _ (hA.skip h)

lemma walk (h : A (s.queue.items.length+k) s.admission s.scopes) :
    A k (s.walk cached).1.admission (s.walk cached).1.scopes :=
  hA.walkLoop s.queue.items [] h

lemma handleProbe (probe : TaskProbe) (mailbox : Mailbox) (h : A (k+1) s.admission s.scopes) :
    A k (s.handleProbe cached probe mailbox).1.admission (s.handleProbe cached probe mailbox).1.scopes := by
  rw [ProbeLocalScheduler.handleProbe]
  split
  · next ha => exact hA.preallocate h ha mailbox
  · exact hA.skip h
  · split <;> exact hA.skip h

lemma runTask (task : Task) {scope : AdmissionScope} (h : A k s.admission (scope :: s.scopes)) :
    A k (s.runTask task scope).1.admission (s.runTask task scope).1.scopes := by
  rw [ProbeLocalScheduler.runTask]
  split
  · refine hA.perm h ?_
    simp only [scopes,List.map_append,List.map_singleton,heldScopes]
    rw [List.append_assoc (s.running.map Prod.snd),List.singleton_append]
    exact ((List.perm_middle.append_left _).trans List.perm_middle).symm
  · exact hA.release h

lemma handleGrant (task : Task) (h : A k s.admission s.scopes) :
    A k (s.handleGrant task).1.admission (s.handleGrant task).1.scopes := by
  rw [ProbeLocalScheduler.handleGrant]
  split
  · exact h
  · next p hp => exact hA.runTask task (hA.perm h (scopes_of_lookup hp))

lemma handleCancel (id : String) (h : A k s.admission s.scopes) :
    A k (s.handleCancel id).admission (s.handleCancel id).scopes := by
  rw [ProbeLocalScheduler.handleCancel]
  split
  · exact h
  · next p hp => exact hA.release (hA.perm h (scopes_of_lookup hp))

lemma handleFrame (frame : GatewayFrame) (mailbox : Mailbox)
    (h : A (s.queue.items.length+(k+1)) s.admission s.scopes) :
    A k (s.handleFrame cached frame mailbox).2.1.admission (s.handleFrame cached frame mailbox).2.1.scopes := by
  have hk : A k s.admission s.scopes := hA.skip (hA.skipAll _ h)
  cases frame with
  | submission task => exact hk
  | probe probe => exact hA.handleProbe probe mailbox (hA.walk h)
  | grant task => exact hA.handleGrant task hk
  | cancel id => exact hA.handleCancel id hk
  | malformed kind => exact hk
  | other typeId => exact hk

lemma processCommand (command : CommandType) (h : A (s.queue.items.length+k) s.admission s.scopes) :
    A k (s.processCommand cached command).1.admission (s.processCommand cached command).1.scopes := by
  cases command with
  | capacityReleased => exact hA.walk h
  | depCompleted => exact hA.walk h
  | other => exact hA.skipAll _ h

lemma finishTask (i : ℕ) (h : A k s.admission s.scopes) :
    A k (s.finishTask i).admission (s.finishTask i).scopes := by
  rw [ProbeLocalScheduler.finishTask]
  split
  · exact h
  · next id scope hi =>
    apply hA.release
    refine hA.perm h ?_
    have hrunning := (perm_eraseIdx hi).map Prod.snd
    exact ((hrunning.append_right _).append_left _).trans List.perm_middle

lemma admitOther (taskType : String) (r : ResourceRequirements) (h : A (k+1) s.admission s.scopes) :
    A k (s.admitOther taskType r).admission (s.admitOther taskType r).scopes := by
  rw [ProbeLocalScheduler.admitOther]
  split
  · next ha =>
    refine hA.perm (hA.admitTask h ha) ?_
    simp only [scopes,heldScopes]
    rw [← List.append_assoc,← List.append_assoc,← List.append_assoc]
    exact (List.perm_append_singleton _ _).symm
  · next ha =>
    rw [AdmissionController.eq_of_refused ha]
    exact hA.skip h

lemma releaseOther (i : ℕ) (h : A k s.admission s.scopes) :
    A k (s.releaseOther i).admission (s.releaseOther i).scopes := by
  rw [ProbeLocalScheduler.releaseOther]
  split
  · exact h
  · next scope hi =>
    apply hA.release
    refine hA.perm h ?_
    have hothers := perm_eraseIdx hi
    exact ((hothers.append_left _).append_left _).trans
      ((List.perm_middle.append_left _).trans List.perm_middle)

end Accounting

namespace ProbeLocalScheduler
variable {s : ProbeLocalScheduler}

lemma handleFrame_accounted (cached : AllCached) (frame : GatewayFrame) (mailbox : Mailbox)
    (h : s.Accounted) : (s.handleFrame cached frame mailbox).2.1.Accounted :=
  Books.accounting.handleFrame (k := 0) frame mailbox h

lemma processCommand_accounted (cached : AllCached) (command : CommandType) (h : s.Accounted) :
    (s.processCommand cached command).1.Accounted := Books.accounting.processCommand (k := 0) command h

lemma finishTask_accounted (i : ℕ) (h : s.Accounted) : (s.finishTask i).Accounted :=
  Books.accounting.finishTask (k := 0) i h

lemma admitOther_accounted (taskType : String) (r : ResourceRequirements) (h : s.Accounted) :
    (s.admitOther taskType r).Accounted := Books.accounting.admitOther (k := 0) taskType r h

lemma releaseOther_accounted (i : ℕ) (h : s.Accounted) : (s.releaseOther i).Accounted :=
  Books.accounting.releaseOther (k := 0) i h

end ProbeLocalScheduler
end Strij.NodeAgent
