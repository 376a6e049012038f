import Strij.Gateway.NetworkChanges
import Strij.Lib.Runs

/-! Which nodes the directory holds. What the calls on a directory are for is stated by sets of identities; the
directory keeps to it unless `Reconcile` has left an origin behind. -/
namespace Strij.Gateway
open Strij.Lib

inductive DirectoryCall
  | addNode (id address : String)
  | removeNode (id : String)
  | rekeyNode (fromId toId : String)
  | reconcile (snapshot : List NodeInfo)

/-- The directory after a call; the close callbacks that run are left out. -/
def Network.call (net : Network) : DirectoryCall → Network
  | .addNode id address => (net.addNode id address).1
  | .removeNode id => (net.removeNode id).1
  | .rekeyNode fromId toId => { net with directory := net.directory.rekeyNode fromId toId }
  | .reconcile snapshot => (net.reconcile snapshot).1

def Network.calls (net : Network) (calls : List DirectoryCall) : Network := calls.foldl call net

/-- The identities a directory should hold, and the one that the record of an origin was moved to, which
is held. -/
structure Membership where
  members : Set String
  movedTo : String → Option String
  held : ∀ origin id, movedTo origin = some id → id ∈ members

namespace Membership
open Classical
variable (m : Membership)

def empty : Membership := ⟨∅,fun _ => none,by simp⟩

/-- The identity under which a discovered node is expected. -/
def resolve (id : String) : String := (m.movedTo id).getD id

def add (id : String) : Membership where
  members := insert id m.members
  movedTo := m.movedTo
  held origin id' h := Set.mem_insert_of_mem id (m.held origin id' h)

/-- Only the given identities are kept, and the origins that lead to them. -/
noncomputable def restrict (kept : Set String) : Membership where
  members := kept
  movedTo origin := (m.movedTo origin).filter (· ∈ kept)
  held origin id h := by simpa using (Option.filter_eq_some_iff.mp h).2

/-- A record is moved to another identity, with the origins that lead to it. -/
noncomputable def move (fromId toId : String) : Membership where
  members := insert toId (m.members \ {fromId})
  movedTo origin :=
    if origin = fromId then some toId
    else (m.movedTo origin).map (fun id => if id = fromId then toId else id)
  held origin id h := by
    split at h
    · exact .inl (Option.some.inj h).symm
    · obtain ⟨id',hid',heq⟩ := Option.map_eq_some_iff.mp h
      split at heq
      · exact .inl heq.symm
      · next hne =>
        subst heq
        exact .inr ⟨m.held origin id' hid',hne⟩

noncomputable def call : DirectoryCall → Membership
  | .addNode id _ => m.add id
  | .removeNode id => m.restrict (m.members \ {id})
  | .rekeyNode fromId toId =>
    if fromId ≠ toId ∧ fromId ∈ m.members ∧ toId ∉ m.members then m.move fromId toId else m
  | .reconcile snapshot => m.restrict { id | ∃ info ∈ snapshot, m.resolve info.nodeId = id }

noncomputable def after (calls : List DirectoryCall) : Membership := calls.foldl call empty

end Membership

namespace Network
variable {net : Network} {m : Membership} {id : String} {snapshot : List NodeInfo}

def Has (net : Network) (id : String) : Prop := id ∈ net.directory.nodes

instance (net : Network) (id : String) : Decidable (net.Has id) :=
  inferInstanceAs (Decidable (id ∈ net.directory.nodes))

lemma has_iff : net.Has id ↔ ∃ n, net.getNode id = some n := mem_iff_lookup

/-- Every entry of the snapshot has its record, and there is no other. -/
def Reflects (net : Network) (m : Membership) (snapshot : List NodeInfo) : Prop :=
  ∀ id, net.Has id ↔ ∃ info ∈ snapshot, m.resolve info.nodeId = id

/-- An origin that the directory would follow for an entry of a snapshot leads to the record that was
moved from it. -/
def Current (net : Network) (m : Membership) : DirectoryCall → Prop
  | .reconcile snapshot => ∀ info ∈ snapshot, ∀ id,
    net.directory.originToCanonical.lookup info.nodeId = some id → m.movedTo info.nodeId = some id
  | _ => True

def Named (net : Network) : Prop := ∀ id n, net.getNode id = some n → n.nodeId = id

structure Follows (net : Network) (m : Membership) : Prop where
  named : net.Named
  members : ∀ id, net.Has id ↔ id ∈ m.members
  origins : ∀ origin id, m.movedTo origin = some id →
    net.directory.originToCanonical.lookup origin = some id

lemma Follows.empty : Follows {} .empty where
  named _ _ h := by cases h
  members id := by
    change id ∈ (∅ : AList (fun _ : String => NodeRecord)) ↔ _
    simp [Membership.empty]
  origins _ _ h := by cases h

section Steps
variable {n : NodeRecord} {a b address : String} {info : NodeInfo} {snapshot : List NodeInfo}
  {nodes : List NodeRecord}

lemma has_set : (net.set n).Has id ↔ id = n.nodeId ∨ net.Has id := AList.mem_insert _

lemma Named.set (h : net.Named) : (net.set n).Named := by
  intro id n' hget
  rw [getNode_set] at hget
  split at hget
  · next heq => exact (Option.some.inj hget) ▸ heq.symm
  · exact h id n' hget

lemma has_addNode : (net.addNode a address).1.Has id ↔ id = a ∨ net.Has id := AList.mem_insert _

lemma Named.addNode (h : net.Named) : (net.addNode a address).1.Named := h.set

lemma has_removeNode : (net.removeNode a).1.Has id ↔ id ≠ a ∧ net.Has id := by
  rw [removeNode]
  cases hget : net.getNode a with
  | none =>
    refine ⟨fun h => ⟨?_,h⟩,And.right⟩
    rintro rfl
    obtain ⟨n,hn⟩ := has_iff.mp h
    cases hget.symm.trans hn
  | some n => exact AList.mem_erase

lemma Named.removeNode (h : net.Named) : (net.removeNode a).1.Named := by
  rw [Network.removeNode]
  cases net.getNode a with
  | none => exact h
  | some n => exact fun id n' hget => h id n' (lookup_erase_eq_some hget).2

lemma origin_removeNode {origin : String} (hne : id ≠ a)
    (h : net.directory.originToCanonical.lookup origin = some id) :
    (net.removeNode a).1.directory.originToCanonical.lookup origin = some id := by
  rw [removeNode]
  cases net.getNode a with
  | none => exact h
  | some n => exact lookup_filterValues_eq_some.mpr ⟨h,by simpa using hne⟩

lemma rekeyNode_cases (net : Network) (a b : String) :
    (a ≠ b ∧ net.Has a ∧ ¬ net.Has b ∧ ∃ n : NodeRecord, net.directory.rekeyNode a b = { net.directory with
      originToCanonical :=
        (mapValues (fun canonical => if canonical = a then b else canonical)
          net.directory.originToCanonical).insert a b
      nodes := (net.directory.nodes.erase a).insert b { n with nodeId := b } }) ∨
    (¬ (a ≠ b ∧ net.Has a ∧ ¬ net.Has b) ∧ net.directory.rekeyNode a b = net.directory) := by
  rw [NodeDirectoryImpl.rekeyNode]
  by_cases heq : a = b
  · exact .inr ⟨fun h => h.1 heq,if_pos heq⟩
  rw [if_neg heq]
  cases hget : net.directory.getNode a with
  | none =>
    refine .inr ⟨fun h => ?_,rfl⟩
    obtain ⟨n,hn⟩ := has_iff.mp h.2.1
    cases hget.symm.trans hn
  | some n =>
    by_cases hb : b ∈ net.directory.nodes
    · exact .inr ⟨fun h => h.2.2 hb,if_pos hb⟩
    · exact .inl ⟨heq,has_iff.mpr ⟨n,hget⟩,hb,n,if_neg hb⟩

lemma announce_origins :
    (net.announce info).1.directory.originToCanonical = net.directory.originToCanonical := by
  rw [announce]
  split
  · rfl
  · split <;> rfl

lemma canonical_congr {net' : Network}
    (h : net'.directory.originToCanonical = net.directory.originToCanonical) (a : String) :
    net'.directory.canonical a = net.directory.canonical a := by
  rw [NodeDirectoryImpl.canonical,NodeDirectoryImpl.canonical,h]

lemma Named.announce (h : net.Named) : (net.announce info).1.Named := by
  rw [Network.announce]
  split
  · exact h.addNode
  · split
    · exact h.set
    · exact h

lemma has_announce (h : net.Named)
    (hlive : ∀ c, net.directory.originToCanonical.lookup info.nodeId = some c → net.Has c) :
    (net.announce info).1.Has id ↔ net.directory.canonical info.nodeId = id ∨ net.Has id := by
  rw [announce]
  cases hget : net.getNode (net.directory.canonical info.nodeId) with
  | none =>
    have hcanonical : net.directory.canonical info.nodeId = info.nodeId := by
      cases horigin : net.directory.originToCanonical.lookup info.nodeId with
      | none => rw [NodeDirectoryImpl.canonical,horigin,Option.getD_none]
      | some c =>
        obtain ⟨n,hn⟩ := has_iff.mp (hlive c horigin)
        rw [NodeDirectoryImpl.canonical,horigin,Option.getD_some,hn] at hget
        cases hget
    rw [hcanonical,eq_comm]
    exact has_addNode
  | some n =>
    have hhas : net.Has (net.directory.canonical info.nodeId) := has_iff.mpr ⟨n,hget⟩
    have habsorb : net.directory.canonical info.nodeId = id ∨ net.Has id ↔ net.Has id :=
      ⟨fun hor => hor.elim (fun heq => heq ▸ hhas) (fun hhas => hhas),.inr⟩
    dsimp only
    split
    · have hid : (n.reconnectTo info.address).nodeId = net.directory.canonical info.nodeId := h _ n hget
      rw [has_set,hid,eq_comm]
    · exact habsorb.symm

lemma announceAll_spec (h : net.Named) (hlive : ∀ info ∈ snapshot, ∀ c,
      net.directory.originToCanonical.lookup info.nodeId = some c → net.Has c) :
    (announceAll snapshot net).1.Named ∧
    (announceAll snapshot net).1.directory.originToCanonical = net.directory.originToCanonical ∧
    ∀ id, (announceAll snapshot net).1.Has id ↔
      (∃ info ∈ snapshot, net.directory.canonical info.nodeId = id) ∨ net.Has id := by
  induction snapshot generalizing net with
  | nil => exact ⟨h,rfl,fun id => by simp [announceAll]⟩
  | cons info snapshot ih =>
    have horigins : (net.announce info).1.directory.originToCanonical = net.directory.originToCanonical :=
      announce_origins
    have hhas (k : String) : (net.announce info).1.Has k ↔
        net.directory.canonical info.nodeId = k ∨ net.Has k :=
      has_announce h (hlive info List.mem_cons_self)
    have hnamed : (net.announce info).1.Named := h.announce
    obtain ⟨hnamed,hkept,hall⟩ := ih hnamed fun info' hmem c hc =>
      (hhas c).mpr (.inr (hlive info' (List.mem_cons_of_mem _ hmem) c (horigins ▸ hc)))
    refine ⟨hnamed,hkept.trans horigins,fun id => (hall id).trans ?_⟩
    simp only [hhas,canonical_congr horigins,List.exists_mem_cons_iff]
    rw [or_left_comm,or_assoc]

lemma removeAll_spec (h : net.Named) (nodes : List NodeRecord) : (removeAll nodes net).1.Named ∧
    (removeAll nodes net).1.directory.originToCanonical = net.directory.originToCanonical ∧
    ∀ id, (removeAll nodes net).1.Has id ↔ net.Has id ∧ ∀ n ∈ nodes, n.nodeId ≠ id := by
  induction nodes generalizing net with
  | nil => exact ⟨h,rfl,fun id => by simp [removeAll]⟩
  | cons n nodes ih =>
    have hhas (k : String) : (net.remove n).1.Has k ↔ k ≠ n.nodeId ∧ net.Has k := AList.mem_erase
    have hremoved : (net.remove n).1.Named := fun id n' hget => h id n' (lookup_erase_eq_some hget).2
    obtain ⟨hnamed,hkept,hall⟩ := ih hremoved
    refine ⟨hnamed,hkept,fun id => (hall id).trans ?_⟩
    rw [hhas,List.forall_mem_cons]
    tauto

lemma reconcile_spec (h : net.Named) (hlive : ∀ info ∈ snapshot, ∀ c,
      net.directory.originToCanonical.lookup info.nodeId = some c → net.Has c) :
    (net.reconcile snapshot).1.Named ∧
    (net.reconcile snapshot).1.directory.originToCanonical = net.directory.originToCanonical ∧
    ∀ id, (net.reconcile snapshot).1.Has id ↔ ∃ info ∈ snapshot, net.directory.canonical info.nodeId = id := by
  obtain ⟨hnamed,horigins,hall⟩ := announceAll_spec h hlive
  obtain ⟨hnamed',horigins',hall'⟩ := removeAll_spec hnamed
    ((announceAll snapshot net).1.directory.ordered.filter (fun n => n.nodeId ∉
      snapshot.map (fun info => net.directory.canonical info.nodeId)))
  refine ⟨hnamed',horigins'.trans horigins,fun id => (hall' id).trans ?_⟩
  simp only [List.mem_filter,decide_eq_true_eq,List.mem_map,not_exists,not_and]
  constructor
  · rintro ⟨hhas,hremoved⟩
    by_contra hnone
    obtain ⟨n,hn⟩ := has_iff.mp hhas
    refine hremoved n ⟨NodeDirectoryImpl.mem_ordered.mpr ⟨id,hn⟩,fun info hmem heq => hnone ?_⟩ (hnamed id n hn)
    exact ⟨info,hmem,heq.trans (hnamed id n hn)⟩
  · rintro ⟨info,hmem,heq⟩
    refine ⟨(hall id).mpr (.inl ⟨info,hmem,heq⟩),?_⟩
    rintro n ⟨-,hn⟩ hid
    exact hn info hmem (heq.trans hid.symm)

end Steps

lemma Follows.canonical (h : Follows net m) {info : NodeInfo}
    (hcurrent : ∀ id, net.directory.originToCanonical.lookup info.nodeId = some id →
      m.movedTo info.nodeId = some id) : net.directory.canonical info.nodeId = m.resolve info.nodeId := by
  have heq : net.directory.originToCanonical.lookup info.nodeId = m.movedTo info.nodeId := by
    ext id
    exact ⟨hcurrent id,h.origins info.nodeId id⟩
  rw [NodeDirectoryImpl.canonical,Membership.resolve,heq]

lemma Follows.live (h : Follows net m) (hcurrent : net.Current m (.reconcile snapshot)) :
    ∀ info ∈ snapshot, ∀ id, net.directory.originToCanonical.lookup info.nodeId = some id → net.Has id :=
  fun info hmem id hid => (h.members id).mpr (m.held _ id (hcurrent info hmem id hid))

lemma Follows.reflects (h : Follows net m) (hcurrent : net.Current m (.reconcile snapshot)) :
    (net.reconcile snapshot).1.Reflects m snapshot := by
  intro id
  rw [(reconcile_spec h.named (h.live hcurrent)).2.2 id]
  refine exists_congr fun info => and_congr_right fun hmem => ?_
  rw [h.canonical (hcurrent info hmem)]

theorem Follows.call (h : Follows net m) (c : DirectoryCall) (hcurrent : net.Current m c) :
    Follows (net.call c) (m.call c) := by
  cases c with
  | addNode a address =>
    exact ⟨h.named.addNode,fun id => has_addNode.trans (or_congr_right (h.members id)),h.origins⟩
  | removeNode a =>
    refine ⟨h.named.removeNode,fun id => ?_,fun origin id hmoved => ?_⟩
    · change (net.removeNode a).1.Has id ↔ _
      rw [has_removeNode,h.members,and_comm]
      rfl
    · obtain ⟨hmoved,hkept⟩ := Option.filter_eq_some_iff.mp hmoved
      have hkept : id ∈ m.members \ {a} := by simpa using hkept
      exact origin_removeNode hkept.2 (h.origins origin id hmoved)
  | rekeyNode a b =>
    have hcond : (a ≠ b ∧ a ∈ m.members ∧ b ∉ m.members) ↔ (a ≠ b ∧ net.Has a ∧ ¬ net.Has b) := by
      rw [h.members,h.members]
    obtain ⟨hne,ha,hb,n,heq⟩ | ⟨hnot,heq⟩ := rekeyNode_cases net a b
    · rw [Membership.call,if_pos (hcond.mpr ⟨hne,ha,hb⟩),Network.call,heq]
      refine ⟨fun id n' hget => ?_,fun id => ?_,fun origin id hmoved => ?_⟩
      · by_cases hid : id = b
        · subst hid
          cases (AList.lookup_insert _).symm.trans hget
          rfl
        · have hget := (AList.lookup_insert_ne hid).symm.trans hget
          exact h.named id n' (lookup_erase_eq_some hget).2
      · refine (AList.mem_insert _).trans (or_congr_right ?_)
        rw [AList.mem_erase,and_comm]
        exact and_congr_left' (h.members id)
      · simp only [Membership.move] at hmoved
        split at hmoved
        · next horigin =>
          subst horigin
          exact (AList.lookup_insert _).trans hmoved
        · next horigin =>
          obtain ⟨c,hc,hid⟩ := Option.map_eq_some_iff.mp hmoved
          refine (AList.lookup_insert_ne horigin).trans ?_
          rw [lookup_mapValues,h.origins origin c hc]
          exact congrArg some hid
    · rw [Membership.call,if_neg (fun hpos => hnot (hcond.mp hpos)),Network.call,heq]
      exact h
  | reconcile snapshot =>
    obtain ⟨hnamed,horigins,-⟩ := reconcile_spec h.named (h.live hcurrent)
    refine ⟨hnamed,h.reflects hcurrent,fun origin id hmoved => ?_⟩
    rw [Network.call,horigins]
    exact h.origins origin id (Option.filter_eq_some_iff.mp hmoved).1

/-- Every snapshot of the calls announces only identities whose origins are current. -/
def CurrentCalls (calls : List DirectoryCall) : Prop :=
  ∀ before call rest, calls = before ++ call :: rest →
    (Network.calls {} before).Current (Membership.after before) call

theorem CurrentCalls.follows {calls : List DirectoryCall} (h : CurrentCalls calls) :
    Follows (Network.calls {} calls) (Membership.after calls) := by
  induction calls using List.reverseRecOn with
  | nil => exact Follows.empty
  | append_singleton calls call ih =>
    have hbefore : CurrentCalls calls := fun before c rest heq =>
      h before c (rest ++ [call]) (by rw [heq,List.append_assoc,List.cons_append])
    rw [Network.calls,Membership.after,List.foldl_concat,List.foldl_concat]
    exact (ih hbefore).call call (h calls call [] rfl)

def discovered : List DirectoryCall :=
  [.reconcile [⟨"host1:9090","host1:9090"⟩],.rekeyNode "host1:9090" "n1"]

end Network
end Strij.Gateway
