import Strij.Gateway.SchedulerRouter
import Strij.Lib.Rounds

/-! The two ways of the gateway to take the nodes in turn. Whatever their index was left at, a round gives every
node its turn once. -/
namespace Strij.Gateway
open Strij.Lib Strij.Wire

namespace RoundRobinScheduler
variable (d : NodeDirectoryImpl)

def choose (nextIndex : ℕ) : Option NodeRecord × ℕ :=
  let candidates := d.getCandidates "push"
  if candidates.isEmpty then (none,nextIndex)
  else (candidates[nextIndex % candidates.length]?,(nextIndex+1) % candidates.length)

lemma schedule_eq (now : ℤ) (task : Task) (receiver : Receiver) (nextIndex : ℕ) :
    GatewayScheduler.schedule d now task receiver (.roundRobin nextIndex) = match (choose d nextIndex).1 with
      | none => (.roundRobin (choose d nextIndex).2,
          [.deliverError receiver "no available node for task submission" .capacityRefused])
      | some n => (.roundRobin (choose d nextIndex).2,pushTask n task receiver) := by
  rw [GatewayScheduler.schedule,choose]
  cases hcandidates : d.getCandidates "push" with
  | nil => rfl
  | cons n rest =>
    have hi : nextIndex % (n :: rest).length < (n :: rest).length := Nat.mod_lt _ (by simp)
    simp only [List.isEmpty_cons,Bool.false_eq_true,if_false,List.getElem?_eq_getElem hi]

def circle (nextIndex : ℕ) : List NodeRecord := (d.getCandidates "push").rotate nextIndex

lemma choose_turn (nextIndex : ℕ) (h : (circle d nextIndex).filter (fun _ => true) ≠ []) :
    ∃ n, (choose d nextIndex).1 = some n ∧
      Turn (fun _ => true) n (circle d nextIndex) (circle d (choose d nextIndex).2) := by
  have hne : d.getCandidates "push" ≠ [] := by simpa [circle] using h
  rw [choose,if_neg (by simpa using hne)]
  exact Turn.of_index hne nextIndex

end RoundRobinScheduler

namespace NodeDirectoryImpl
variable (d : NodeDirectoryImpl)

def available : List NodeRecord := d.ordered.filter NodeRecord.isAvailable

def circle : List NodeRecord := d.ordered.rotate d.nextNodeIndex

lemma availableAt_eq {i : ℕ} (hi : i < d.ordered.length) : d.availableAt i = d.circle[i]?.bind (fun n =>
      if n.isAvailable then some ((d.nextNodeIndex+i) % d.ordered.length,n) else none) := by
  rw [availableAt,circle,List.getElem?_rotate hi,Nat.add_comm]

lemma getNextNode_eq : d.getNextNode = match d.circle.findIdx? NodeRecord.isAvailable with
    | none => (none,d)
    | some i => (d.circle[i]?,{ d with nextNodeIndex := (d.nextNodeIndex+(i+1)) % d.ordered.length }) := by
  rw [getNextNode]
  cases hfind : d.circle.findIdx? NodeRecord.isAvailable with
  | none =>
    have hnone : (List.range d.ordered.length).findSome? d.availableAt = none := by
      refine List.findSome?_eq_none_iff.mpr fun i hi => ?_
      rw [availableAt_eq d (List.mem_range.mp hi)]
      refine Option.bind_eq_none_iff.mpr fun n hn => if_neg ?_
      simpa using List.findIdx?_eq_none_iff.mp hfind n (List.mem_of_getElem? hn)
    rw [hnone]
  | some i =>
    obtain ⟨hi,hready,hpassed⟩ := List.findIdx?_eq_some_iff_getElem.mp hfind
    have hlength : i < d.ordered.length := by simpa [circle] using hi
    have hrange : List.range d.ordered.length =
        List.range i ++ i :: List.range' (i+1) (d.ordered.length-i-1) := by
      have happend := List.range'_append_1 (s := 0) (m := i) (n := d.ordered.length-i-1+1)
      rw [List.range'_succ,Nat.zero_add,show i+(d.ordered.length-i-1+1) = d.ordered.length by omega] at happend
      rw [List.range_eq_range',List.range_eq_range',happend]
    have hsome : (List.range d.ordered.length).findSome? d.availableAt =
        some ((d.nextNodeIndex+i) % d.ordered.length,d.circle[i]) := by
      refine List.findSome?_eq_some_iff.mpr ⟨_,i,_,hrange,?_,fun j hj => ?_⟩
      · rw [availableAt_eq d hlength,List.getElem?_eq_getElem hi]
        exact if_pos hready
      · have hj := List.mem_range.mp hj
        rw [availableAt_eq d (hj.trans hlength),List.getElem?_eq_getElem (hj.trans hi)]
        exact if_neg (hpassed j hj)
    simp only [hsome,List.getElem?_eq_getElem hi,Nat.mod_add_mod,Nat.add_assoc]

lemma getNextNode_turn (h : d.circle.filter NodeRecord.isAvailable ≠ []) :
    ∃ n, d.getNextNode.1 = some n ∧ Turn NodeRecord.isAvailable n d.circle d.getNextNode.2.circle := by
  rw [getNextNode_eq]
  cases hfind : d.circle.findIdx? NodeRecord.isAvailable with
  | none =>
    refine absurd (List.filter_eq_nil_iff.mpr fun n hn => ?_) h
    simpa using List.findIdx?_eq_none_iff.mp hfind n hn
  | some i =>
    obtain ⟨n,hn,hturn⟩ := Turn.of_findIdx? hfind
    refine ⟨n,hn,?_⟩
    have hcircle : circle { d with nextNodeIndex := (d.nextNodeIndex+(i+1)) % d.ordered.length } =
        d.circle.rotate (i+1) := by
      rw [circle,circle,List.rotate_rotate]
      exact List.rotate_mod _ _
    rwa [hcircle]

end NodeDirectoryImpl

/-- From any state of the directory and with any saved index: a round of choices takes every candidate
once, and a round of the directory every available node once, in the order of their ids around. -/
theorem every_node_in_turn (d : NodeDirectoryImpl) :
    (∀ nextIndex, picks (RoundRobinScheduler.choose d) (d.getCandidates "push").length nextIndex =
      ((d.getCandidates "push").rotate nextIndex).map some) ∧
    (d.getNextNode.1 = none ↔ ∀ n ∈ d.ordered, n.isAvailable = false) ∧
    ∃ start, picks NodeDirectoryImpl.getNextNode d.available.length d = (d.available.rotate start).map some := by
  refine ⟨fun nextIndex => ?_,?_,?_⟩
  · have hround := picks_of_turns (RoundRobinScheduler.choose_turn d) (d.getCandidates "push").length nextIndex
      (by simp [RoundRobinScheduler.circle])
    rw [hround,List.filter_true,List.take_of_length_le (by simp [RoundRobinScheduler.circle])]
    rfl
  · rw [d.getNextNode_eq]
    have hcircle (n : NodeRecord) : n ∈ d.circle ↔ n ∈ d.ordered := List.mem_rotate
    cases hfind : d.circle.findIdx? NodeRecord.isAvailable with
    | none =>
      have hnone := List.findIdx?_eq_none_iff.mp hfind
      exact iff_of_true rfl fun n hn => hnone n ((hcircle n).mpr hn)
    | some i =>
      obtain ⟨hi,hready,-⟩ := List.findIdx?_eq_some_iff_getElem.mp hfind
      refine iff_of_false (by simp [hi]) fun hnone => ?_
      have hunready := hnone d.circle[i] ((hcircle _).mp (List.getElem_mem hi))
      exact Bool.noConfusion (hunready.symm.trans hready)
  · obtain ⟨start,hstart⟩ : d.available ~r d.circle.filter NodeRecord.isAvailable :=
      filter_isRotated ⟨d.nextNodeIndex,rfl⟩
    refine ⟨start,?_⟩
    have hlength : d.available.length = (d.circle.filter NodeRecord.isAvailable).length := by
      rw [← hstart,List.length_rotate]
    have hround : picks NodeDirectoryImpl.getNextNode d.available.length d = _ :=
      picks_of_turns NodeDirectoryImpl.getNextNode_turn d.available.length d hlength.le
    rw [hround,hstart,List.take_of_length_le hlength.ge]

end Strij.Gateway
