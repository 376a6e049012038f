import Strij.NodeAgent.AdmissionAccounts
import Strij.NodeAgent.ProbeLocalScheduler

/-! Which probes a node refuses for good: the scheduler reads it off the first check of `Admit` that fails. -/
namespace Strij.NodeAgent
open Strij.Lib Strij.Wire

namespace NodeCapabilities
variable (capabilities : NodeCapabilities)

def total (pool : String) : Option UInt64 := (AdmissionController.ofCapabilities capabilities).poolTotal[pool]?

/-- No usage of the node leaves room for the requirements: a pool is not declared, or too small. -/
def Unsatisfiable (r : ResourceRequirements) : Prop :=
  ∃ x ∈ r.resources, ∀ total, capabilities.total x.1 = some total → total < x.2

def Fits (probe : TaskProbe) : Prop :=
  ((AdmissionController.ofCapabilities capabilities).admitTask probe.type probe.requirements).1 = .ok ()

instance (probe : TaskProbe) : Decidable (capabilities.Fits probe) := inferInstanceAs (Decidable (_ = _))

end NodeCapabilities

namespace AdmissionController
variable {capabilities : NodeCapabilities} {c c' : AdmissionController} {taskType : String}
  {r : ResourceRequirements} {resources : List (String × UInt64)} {message : String}

/-- A pool that is not declared is asked for before any pool that has too little left. -/
def UndeclaredFirst (c : AdmissionController) (r : ResourceRequirements) : Prop :=
  ∃ before pool amount rest, r.resources = before ++ (pool,amount) :: rest ∧
    c.poolTotal[pool]? = none ∧ ∀ x ∈ before, x.2 ≤ c.sharedFree x.1

lemma checkResources_undeclared {before rest : List (String × UInt64)} {pool : String} {amount : UInt64}
    (hpool : c.poolTotal[pool]? = none) (hbefore : ∀ x ∈ before, x.2 ≤ c.sharedFree x.1) :
    ∃ message, c.checkResources taskType (before ++ (pool,amount) :: rest) =
      .error (.failedPrecondition message) := by
  induction before with
  | nil =>
    rw [List.nil_append,checkResources,if_pos (by simpa using hpool)]
    exact ⟨_,rfl⟩
  | cons x before ih =>
    obtain ⟨name,demand⟩ := x
    rw [List.cons_append,checkResources]
    split
    · exact ⟨_,rfl⟩
    · rw [if_neg (UInt64.not_lt.mpr (hbefore _ List.mem_cons_self))]
      exact ih (fun x hx => hbefore x (List.mem_cons_of_mem _ hx))

lemma checkResources_failedPrecondition
    (h : c.checkResources taskType resources = .error (.failedPrecondition message)) :
    ∃ x ∈ resources, c.poolTotal[x.1]? = none := by
  induction resources with
  | nil => cases h
  | cons x resources ih =>
    obtain ⟨name,demand⟩ := x
    rw [checkResources] at h
    split at h
    · next hundeclared => exact ⟨_,List.mem_cons_self,by simpa using hundeclared⟩
    · split at h
      · cases h
      · obtain ⟨y,hy,hnone⟩ := ih h
        exact ⟨y,List.mem_cons_of_mem _ hy,hnone⟩

lemma checkResources_declared (h : c.checkResources taskType resources = .ok ()) :
    ∀ x ∈ resources, c.poolTotal[x.1]? ≠ none := by
  induction resources with
  | nil => simp
  | cons x resources ih =>
    obtain ⟨name,demand⟩ := x
    rw [checkResources] at h
    split at h
    · cases h
    · next hdeclared =>
      split at h
      · cases h
      · refine List.forall_mem_cons.mpr ⟨?_,ih h⟩
        simpa using hdeclared

lemma admitTask_failedPrecondition : (c.admitTask taskType r).1 = .error (.failedPrecondition message) ↔
      c.checkResources taskType r.resources = .error (.failedPrecondition message) := by
  rw [admitTask]
  cases hresources : c.checkResources taskType r.resources with
  | error e => simp
  | ok u =>
    simp only [reduceCtorEq,iff_false]
    rw [checkConcurrency]
    split
    · next h =>
      split at h
      · cases h
      · split at h
        · cases h
          simp
        · cases h
    · simp

lemma Offers.not_failedPrecondition {probe : TaskProbe} (h : c.Offers capabilities)
    (hfits : capabilities.Fits probe) (message : String) :
    (c.admitTask probe.type probe.requirements).1 ≠ .error (.failedPrecondition message) := by
  intro hrefused
  obtain ⟨x,hx,hnone⟩ := checkResources_failedPrecondition (admitTask_failedPrecondition.mp hrefused)
  rcases admitTask_cases (ofCapabilities capabilities) probe.type probe.requirements with
    ⟨e,he⟩ | ⟨hok,-,-⟩
  · rw [NodeCapabilities.Fits,he] at hfits
    cases hfits
  · exact checkResources_declared hok x hx (h.poolTotal ▸ hnone)

end AdmissionController

def unsatisfiableReason : String := "requirements unsatisfiable"

def refusals (effects : List NodeEffect) : List (Mailbox × String) :=
  effects.filterMap fun
    | .enqueue mailbox (.decline id reason) => if reason = unsatisfiableReason then some (mailbox,id) else none
    | _ => none

namespace ProbeLocalScheduler
variable {capabilities : NodeCapabilities} {s : ProbeLocalScheduler} {cached : AllCached}
  {probe : TaskProbe} {mailbox : Mailbox}

@[simp] lemma refusals_pull (id : String) (effects : List NodeEffect) :
    refusals (.enqueue mailbox (.pull id) :: effects) = refusals effects := rfl

@[simp] lemma refusals_startPrefetch : refusals (startPrefetch cached probe) = [] := by
  rw [startPrefetch]
  split <;> rfl

lemma offers_preallocate {c : AdmissionController} (h : c.Offers capabilities) (mailbox : Mailbox) :
    (s.preallocate c probe mailbox).1.admission.Offers capabilities := by
  simp only [preallocate,assignPullPending]
  split
  · exact h
  · exact h.release _

lemma offers_walkLoop (items deferred : List QueuedProbe) (h : s.admission.Offers capabilities) :
    (s.walkLoop cached items deferred).1.admission.Offers capabilities := by
  induction items generalizing deferred s with
  | nil => exact h
  | cons item rest ih =>
    rw [walkLoop]
    split
    · exact h
    split
    · exact ih _ h
    split
    · next c hadmitted => exact ih _ (offers_preallocate (h.admitTask hadmitted) _)
    · exact ih _ h
    · exact ih _ h

/-- The queued probes that a walk refuses for good are ones that the idle node would not admit. -/
lemma refusals_walkLoop (items deferred : List QueuedProbe) (h : s.admission.Offers capabilities) :
    (refusals (s.walkLoop cached items deferred).2.2).Sublist
      ((items.filter (fun item => ¬ capabilities.Fits item.probe)).map
        (fun item => (item.pullMailbox,item.probe.id))) := by
  induction items generalizing deferred s with
  | nil => exact List.Sublist.refl _
  | cons item rest ih =>
    have hskip : ((rest.filter (fun item => ¬ capabilities.Fits item.probe)).map
        (fun item => (item.pullMailbox,item.probe.id))).Sublist
        (((item :: rest).filter (fun item => ¬ capabilities.Fits item.probe)).map
          (fun item => (item.pullMailbox,item.probe.id))) :=
      ((List.sublist_cons_self item rest).filter _).map _
    rw [walkLoop]
    split
    · exact List.nil_sublist _
    split
    · exact (ih _ h).trans hskip
    split
    · next c hadmitted =>
      exact (ih _ (offers_preallocate (h.admitTask hadmitted) item.pullMailbox)).trans hskip
    · next message c hrefused =>
      have hfits : ¬ capabilities.Fits item.probe := fun hfits =>
        h.not_failedPrecondition hfits message (congrArg Prod.fst hrefused)
      rw [List.filter_cons_of_pos (by simpa using hfits),List.map_cons]
      exact (ih _ h).cons_cons _
    · exact (ih _ h).trans hskip

def onePool : NodeCapabilities := { pools := [⟨"gpu",1⟩] }

def onePoolScheduler (controller : AdmissionController) : ProbeLocalScheduler where
  admission := controller
  handlers _ := true
  maxConcurrentPreallocations := 1
  queue := ⟨4,[]⟩

def undeclaredProbe : TaskProbe := ⟨"t","echo",⟨[("tpu",1),("gpu",1)],by decide⟩,[]⟩

def oversizedProbe : TaskProbe := ⟨"t","echo",⟨[("gpu",2)],by decide⟩,[]⟩

def busyScheduler : ProbeLocalScheduler :=
  onePoolScheduler ((AdmissionController.ofCapabilities onePool).admitTask "echo" ⟨[("gpu",1)],by decide⟩).2

/-- As `undeclaredProbe`, with the requirements in the other order. -/
def lateProbe : TaskProbe := ⟨"t","echo",⟨[("gpu",1),("tpu",1)],by decide⟩,[]⟩

end ProbeLocalScheduler
end Strij.NodeAgent
