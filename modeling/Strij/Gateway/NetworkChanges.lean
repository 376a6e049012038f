import Strij.Gateway.NodeDirectory

/-! What the operations on the network keep, such as that no open connection goes away without its close
callback. -/
namespace Strij.Gateway
open Strij.Lib

namespace NodeDirectoryImpl
variable {d : NodeDirectoryImpl} {n : NodeRecord}

lemma mem_ordered : n ∈ d.ordered ↔ ∃ id, d.getNode id = some n := by
  rw [ordered,List.mem_map]
  constructor
  · rintro ⟨⟨id,m⟩,hmem,rfl⟩
    exact ⟨id,AList.mem_lookup_iff.mpr ((List.perm_insertionSort _ _).mem_iff.mp hmem)⟩
  · rintro ⟨id,hget⟩
    exact ⟨⟨id,n⟩,(List.perm_insertionSort _ _).mem_iff.mpr (AList.mem_lookup_iff.mp hget),rfl⟩

lemma mem_getCandidates {protocol : String} (h : n ∈ d.getCandidates protocol) :
    (∃ id, d.getNode id = some n) ∧ n.isAvailable = true := by
  obtain ⟨hmem,hcond⟩ := List.mem_filter.mp h
  exact ⟨mem_ordered.mp hmem,(Bool.and_eq_true_iff.mp hcond).1⟩

lemma mem_getNextNode (h : d.getNextNode.1 = some n) :
    (∃ id, d.getNode id = some n) ∧ n.isAvailable = true := by
  rw [getNextNode] at h
  split at h
  · cases h
  · next i m hfound =>
    cases h
    obtain ⟨j,-,hat⟩ := List.exists_of_findSome?_eq_some hfound
    obtain ⟨m,hm,hif⟩ := Option.bind_eq_some_iff.mp hat
    split at hif
    · next havailable =>
      cases hif
      exact ⟨mem_ordered.mp (List.mem_of_getElem? hm),havailable⟩
    · cases hif

end NodeDirectoryImpl

namespace NodeRecord
variable {n : NodeRecord} {k : ℕ}

lemma isOpen_iff : n.isOpen = true ↔ ∃ k, n.link = some ⟨k,true⟩ := by
  obtain ⟨_,_,_,_,link,_,_,_⟩ := n
  cases link with
  | none => simp [isOpen]
  | some l =>
    obtain ⟨key,o⟩ := l
    cases o <;> simp [isOpen]

lemma mem_closing (h : n.link = some ⟨k,true⟩) : n.nodeId ∈ n.closing := by
  rw [closing,if_pos (isOpen_iff.mpr ⟨k,h⟩)]
  exact List.mem_singleton_self _

end NodeRecord

namespace Network
variable {net net' net'' : Network} {id : String} {n n' : NodeRecord} {closed more : List String}
  {a : Advertisement} {commands : List ℕ}

lemma getNode_set (k : String) : (net.set n).getNode k = if k = n.nodeId then some n else net.getNode k := by
  by_cases h : k = n.nodeId
  · subst h
    rw [if_pos rfl]
    exact AList.lookup_insert _
  · rw [if_neg h]
    exact AList.lookup_insert_ne h

structure Sound (net : Network) : Prop where
  named : ∀ id n, net.getNode id = some n → n.nodeId = id
  linked : ∀ id n, net.getNode id = some n → n.isAvailable = true → n.link.isSome = true
  ended : ∀ id n l, net.getNode id = some n → n.link = some l → l.isOpen = false → n.key ∈ net.commands
  keys : ∀ id n, net.getNode id = some n → n.key < net.nextKey
  distinct : ∀ id id' n n', net.getNode id = some n → net.getNode id' = some n' → n.key = n'.key → id = id'

lemma Sound.empty : Sound {} := by
  refine ⟨?_,?_,?_,?_,?_⟩ <;> intros <;> contradiction

/-- A sound network changed without renaming a node: every node is an old one under its old id or has a
new identity, and the open connections that are gone are those of the listed nodes. -/
structure Evolves (net net' : Network) (closed : List String) : Prop where
  sound : net'.Sound
  keeps : ∀ id n k, net.getNode id = some n → n.link = some ⟨k,true⟩ →
    id ∈ closed ∨ ∃ n', net'.getNode id = some n' ∧ n'.link = some ⟨k,true⟩
  origin : ∀ id n', net'.getNode id = some n' →
    (∃ n, net.getNode id = some n ∧ n.key = n'.key) ∨ net.nextKey ≤ n'.key
  grows : net.nextKey ≤ net'.nextKey

namespace Evolves

lemma refl (h : net.Sound) : Evolves net net [] where
  sound := h
  keeps _ n _ hget hlink := .inr ⟨n,hget,hlink⟩
  origin _ n hget := .inl ⟨n,hget,rfl⟩
  grows := le_rfl

lemma trans (h : Evolves net net' closed) (h' : Evolves net' net'' more) :
    Evolves net net'' (closed ++ more) where
  sound := h'.sound
  keeps id n k hget hlink := by
    rcases h.keeps id n k hget hlink with hclosed | ⟨n',hget',hlink'⟩
    · exact .inl (List.mem_append_left _ hclosed)
    · exact (h'.keeps id n' k hget' hlink').imp_left (List.mem_append_right _)
  origin id n'' hget := by
    rcases h'.origin id n'' hget with ⟨n',hget',hkey⟩ | hnew
    · rcases h.origin id n' hget' with ⟨n,hget,hkey'⟩ | hnew
      · exact .inl ⟨n,hget,hkey'.trans hkey⟩
      · exact .inr (hkey ▸ hnew)
    · exact .inr (h.grows.trans hnew)
  grows := h.grows.trans h'.grows

end Evolves

variable (h : net.Sound)
include h

lemma Sound.set (n' : NodeRecord) (hget : net.getNode id = some n) (hid : n'.nodeId = id)
    (hkey : n'.key = n.key) (hlinked : n'.isAvailable = true → n'.link.isSome = true)
    (hended : ∀ l, n'.link = some l → l.isOpen = false → n'.key ∈ net.commands) : (net.set n').Sound := by
  subst hid
  have hold (k : String) (m : NodeRecord) (hm : (net.set n').getNode k = some m) :
      k = n'.nodeId ∧ m = n' ∨ k ≠ n'.nodeId ∧ net.getNode k = some m := by
    rw [getNode_set] at hm
    split at hm
    · next heq => exact .inl ⟨heq,(Option.some.inj hm).symm⟩
    · next hne => exact .inr ⟨hne,hm⟩
  have hkeyOf (k : String) (m : NodeRecord) (hm : (net.set n').getNode k = some m) :
      ∃ m', net.getNode k = some m' ∧ m'.key = m.key := by
    rcases hold k m hm with ⟨rfl,rfl⟩ | ⟨-,hm⟩
    · exact ⟨n,hget,hkey.symm⟩
    · exact ⟨m,hm,rfl⟩
  constructor
  case named =>
    intro k m hm
    rcases hold k m hm with ⟨rfl,rfl⟩ | ⟨-,hm⟩
    · rfl
    · exact h.named k m hm
  case linked =>
    intro k m hm havailable
    rcases hold k m hm with ⟨rfl,rfl⟩ | ⟨-,hm⟩
    · exact hlinked havailable
    · exact h.linked k m hm havailable
  case ended =>
    intro k m l hm hlink hclosed
    rcases hold k m hm with ⟨rfl,rfl⟩ | ⟨-,hm⟩
    · exact hended l hlink hclosed
    · exact h.ended k m l hm hlink hclosed
  case keys =>
    intro k m hm
    obtain ⟨m',hm',hmkey⟩ := hkeyOf k m hm
    exact hmkey ▸ h.keys k m' hm'
  case distinct =>
    intro k k' m m' hm hm' heq
    obtain ⟨p,hp,hpkey⟩ := hkeyOf k m hm
    obtain ⟨q,hq,hqkey⟩ := hkeyOf k' m' hm'
    exact h.distinct k k' p q hp hq (hpkey.trans (heq.trans hqkey.symm))

lemma Sound.grow (hsub : net.commands ⊆ commands) {nextKey : ℕ}
    (hle : net.nextKey ≤ nextKey) : Sound { net with commands := commands, nextKey := nextKey } :=
  ⟨h.named,h.linked,fun id n l hget hlink hclosed => hsub (h.ended id n l hget hlink hclosed),
    fun id n hget => (h.keys id n hget).trans_le hle,h.distinct⟩

omit h in
lemma Evolves.of_set (n' : NodeRecord) (hget : net.getNode id = some n) (hid : n'.nodeId = id)
    (hkey : n'.key = n.key) (hlink : ∀ k, n.link = some ⟨k,true⟩ → id ∈ closed ∨ n'.link = some ⟨k,true⟩)
    (hsame : net'.directory = (net.set n').directory) (hsound : net'.Sound)
    (hgrows : net.nextKey ≤ net'.nextKey) : Evolves net net' closed := by
  subst hid
  have hlookup (k : String) : net'.getNode k = if k = n'.nodeId then some n' else net.getNode k := by
    rw [← getNode_set,getNode,hsame,getNode]
  refine ⟨hsound,fun k m c hm hopen => ?_,fun k m hm => ?_,hgrows⟩
  · by_cases heq : k = n'.nodeId
    · subst heq
      cases Option.some.inj (hget.symm.trans hm)
      refine (hlink c hopen).imp_right fun hlink' => ⟨n',?_,hlink'⟩
      rw [hlookup,if_pos rfl]
    · exact .inr ⟨m,by rw [hlookup,if_neg heq,hm],hopen⟩
  · rw [hlookup] at hm
    split at hm
    · next heq =>
      subst heq
      cases hm
      exact .inl ⟨n,hget,hkey.symm⟩
    · exact .inl ⟨m,hm,rfl⟩

lemma evolves_remove (hget : ∀ m, net.getNode n.nodeId = some m → m = n) :
    Evolves net (net.remove n).1 (net.remove n).2 := by
  have hlookup {k : String} {m : NodeRecord} (hm : (net.remove n).1.getNode k = some m) :
      k ≠ n.nodeId ∧ net.getNode k = some m := lookup_erase_eq_some hm
  refine ⟨⟨?_,?_,?_,?_,?_⟩,fun k m c hm hopen => ?_,fun k m hm => .inl ⟨m,(hlookup hm).2,rfl⟩,le_rfl⟩
  · exact fun k m hm => h.named k m (hlookup hm).2
  · exact fun k m hm => h.linked k m (hlookup hm).2
  · exact fun k m l hm => h.ended k m l (hlookup hm).2
  · exact fun k m hm => h.keys k m (hlookup hm).2
  · exact fun k k' m m' hm hm' => h.distinct k k' m m' (hlookup hm).2 (hlookup hm').2
  · by_cases heq : k = n.nodeId
    · subst heq
      cases hget m hm
      exact .inl (NodeRecord.mem_closing hopen)
    · exact .inr ⟨m,(AList.lookup_erase_ne heq).trans hm,hopen⟩

lemma evolves_removeAll {nodes : List NodeRecord}
    (hget : ∀ n ∈ nodes, ∀ m, net.getNode n.nodeId = some m → m = n) :
    Evolves net (removeAll nodes net).1 (removeAll nodes net).2 := by
  induction nodes generalizing net with
  | nil => exact .refl h
  | cons n nodes ih =>
    have hfirst := evolves_remove h (hget n List.mem_cons_self)
    refine hfirst.trans (ih hfirst.sound fun n' hn' m hm => hget n' (List.mem_cons_of_mem _ hn') m ?_)
    exact (lookup_erase_eq_some hm).2

lemma evolves_addNode (id address : String) :
    Evolves net (net.addNode id address).1 (net.addNode id address).2 := by
  have hlookup (k : String) : (net.addNode id address).1.getNode k =
      if k = id then some (NodeRecord.startConnect ⟨net.nextKey,id,address,.initial,none,0,none,none⟩)
      else net.getNode k := getNode_set k
  have hold {k : String} {m : NodeRecord} (hm : (net.addNode id address).1.getNode k = some m) :
      k = id ∧ m = NodeRecord.startConnect ⟨net.nextKey,id,address,.initial,none,0,none,none⟩ ∨
        k ≠ id ∧ net.getNode k = some m := by
    rw [hlookup] at hm
    split at hm
    · next heq => exact .inl ⟨heq,(Option.some.inj hm).symm⟩
    · next hne => exact .inr ⟨hne,hm⟩
  refine ⟨⟨?_,?_,?_,?_,?_⟩,fun k m c hm hopen => ?_,fun k m hm => ?_,Nat.le_succ _⟩
  · intro k m hm
    rcases hold hm with ⟨rfl,rfl⟩ | ⟨-,hm⟩
    · rfl
    · exact h.named k m hm
  · intro k m hm havailable
    rcases hold hm with ⟨rfl,rfl⟩ | ⟨-,hm⟩
    · cases havailable
    · exact h.linked k m hm havailable
  · intro k m l hm hlink
    rcases hold hm with ⟨rfl,rfl⟩ | ⟨-,hm⟩
    · cases hlink
    · exact h.ended k m l hm hlink
  · intro k m hm
    rcases hold hm with ⟨rfl,rfl⟩ | ⟨-,hm⟩
    · exact Nat.lt_succ_self _
    · exact (h.keys k m hm).trans (Nat.lt_succ_self _)
  · intro k k' m m' hm hm' heq
    rcases hold hm with ⟨hk,rfl⟩ | ⟨-,hget⟩ <;> rcases hold hm' with ⟨hk',rfl⟩ | ⟨-,hget'⟩
    · exact hk.trans hk'.symm
    · exact absurd heq (h.keys k' m' hget').ne'
    · exact absurd heq (h.keys k m hget).ne
    · exact h.distinct k k' m m' hget hget' heq
  · by_cases heq : k = id
    · subst heq
      left
      rw [addNode,hm,Option.map_some,Option.getD_some]
      exact h.named k m hm ▸ NodeRecord.mem_closing hopen
    · exact .inr ⟨m,by rw [hlookup,if_neg heq,hm],hopen⟩
  · rcases hold hm with ⟨rfl,rfl⟩ | ⟨-,hm⟩
    · exact .inr le_rfl
    · exact .inl ⟨m,hm,rfl⟩

lemma evolves_announce (info : NodeInfo) : Evolves net (net.announce info).1 (net.announce info).2 := by
  rw [announce]
  split
  · exact evolves_addNode h _ _
  · next n hget =>
    split
    · have hid : n.nodeId = net.directory.canonical info.nodeId := h.named _ n hget
      refine .of_set (n.reconnectTo info.address) hget hid rfl
        (fun k hlink => .inl (hid ▸ NodeRecord.mem_closing hlink)) rfl ?_ le_rfl
      exact h.set _ hget hid rfl (fun havailable => nomatch havailable) (fun l hl => nomatch hl)
    · exact .refl h

lemma evolves_announceAll {snapshot : List NodeInfo} :
    Evolves net (announceAll snapshot net).1 (announceAll snapshot net).2 := by
  induction snapshot generalizing net with
  | nil => exact .refl h
  | cons info snapshot ih =>
    have hfirst := evolves_announce h info
    exact hfirst.trans (ih hfirst.sound)

lemma evolves_reconcile (snapshot : List NodeInfo) :
    Evolves net (net.reconcile snapshot).1 (net.reconcile snapshot).2 := by
  have hfirst : Evolves net (announceAll snapshot net).1 (announceAll snapshot net).2 :=
    evolves_announceAll h
  refine hfirst.trans (evolves_removeAll hfirst.sound fun n hn m hm => ?_)
  obtain ⟨id,hget⟩ := NodeDirectoryImpl.mem_ordered.mp (List.mem_filter.mp hn).1
  have hid := hfirst.sound.named id n hget
  rw [hid] at hm
  exact Option.some.inj (hm.symm.trans hget)

variable (hget : net.getNode id = some n)
include hget

lemma evolves_handleConnect (ok : Bool) :
    Evolves net (net.handleConnect n ok).1 (net.handleConnect n ok).2 := by
  have hid := h.named id n hget
  cases ok with
  | true =>
    refine .of_set (n.handleConnect net.nextKey true) hget hid rfl
      (fun k hlink => .inl (hid ▸ NodeRecord.mem_closing hlink)) rfl ?_ (Nat.le_succ _)
    refine (h.set (n.handleConnect net.nextKey true) hget hid rfl (fun _ => rfl)
      fun l hl hclosed => ?_).grow (List.Subset.refl _) (Nat.le_succ _)
    cases hl
    cases hclosed
  | false =>
    refine .of_set (n.handleConnect net.nextKey false) hget hid rfl
      (fun k hlink => .inr hlink) rfl ?_ (Nat.le_succ _)
    exact (h.set (n.handleConnect net.nextKey false) hget hid rfl (fun havailable => nomatch havailable)
      (fun l hl hclosed => h.ended id n l hget hl hclosed)).grow (List.Subset.refl _) (Nat.le_succ _)

lemma evolves_endOfStream : Evolves net (net.endOfStream n).1 (net.endOfStream n).2 := by
  have hid := h.named id n hget
  refine .of_set n.endOfStream hget hid rfl
    (fun k hlink => .inl (hid ▸ NodeRecord.mem_closing hlink)) rfl ?_ le_rfl
  have hcommands := h.grow (List.subset_cons_self n.key net.commands) le_rfl
  refine hcommands.set n.endOfStream hget hid rfl (fun havailable => ?_) (fun _ _ _ => List.mem_cons_self)
  have hlink := h.linked id n hget havailable
  rw [Option.isSome_iff_exists] at hlink ⊢
  obtain ⟨l,hl⟩ := hlink
  exact ⟨_,by rw [NodeRecord.endOfStream,hl]; rfl⟩

lemma evolves_nodeState
    (state : Strij.NodeAgent.NodeState) : Evolves net (net.set { n with state := some state }) [] := by
  have hid := h.named id n hget
  exact .of_set { n with state := some state } hget hid rfl (fun k hlink => .inr hlink) rfl
    (h.set _ hget hid rfl (h.linked id n hget) (fun l hl hclosed => h.ended id n l hget hl hclosed)) le_rfl

omit hget in
omit h in
lemma evolves_deferredDelete {key : ℕ} {rest : List ℕ} (h : Sound { net with commands := key :: rest }) :
    Evolves { net with commands := key :: rest } { (net.deferredDelete key).1 with commands := rest }
      (net.deferredDelete key).2 := by
  have hlookup (k : String) : (net.deferredDelete key).1.getNode k =
      (net.getNode k).map (fun n => if n.key = key then n.disconnect else n) := lookup_mapValues _ _ _
  have hold {k : String} {m : NodeRecord} (hm : (net.deferredDelete key).1.getNode k = some m) :
      ∃ n, net.getNode k = some n ∧ (n.key = key ∧ m = n.disconnect ∨ n.key ≠ key ∧ m = n) := by
    rw [hlookup] at hm
    obtain ⟨n,hn,rfl⟩ := Option.map_eq_some_iff.mp hm
    refine ⟨n,hn,?_⟩
    by_cases hkey : n.key = key
    · exact .inl ⟨hkey,if_pos hkey⟩
    · exact .inr ⟨hkey,if_neg hkey⟩
  have hkeyOf {k : String} {m : NodeRecord} (hm : (net.deferredDelete key).1.getNode k = some m) :
      ∃ n, net.getNode k = some n ∧ n.key = m.key := by
    obtain ⟨n,hn,⟨-,rfl⟩ | ⟨-,rfl⟩⟩ := hold hm <;> exact ⟨_,hn,rfl⟩
  refine ⟨⟨?_,?_,?_,?_,?_⟩,fun k m c hm hopen => ?_,fun k m hm => .inl (hkeyOf hm),le_rfl⟩
  · intro k m hm
    obtain ⟨n,hn,⟨-,rfl⟩ | ⟨-,rfl⟩⟩ := hold hm
    · exact (h.named k n hn :)
    · exact h.named k _ hn
  · intro k m hm havailable
    obtain ⟨n,hn,⟨-,rfl⟩ | ⟨-,rfl⟩⟩ := hold hm
    · cases havailable
    · exact h.linked k m hn havailable
  · intro k m l hm hlink hclosed
    obtain ⟨n,hn,⟨-,rfl⟩ | ⟨hkey,rfl⟩⟩ := hold hm
    · cases hlink
    · exact (List.mem_cons.mp (h.ended k m l hn hlink hclosed)).resolve_left hkey
  · intro k m hm
    obtain ⟨n,hn,hkey⟩ := hkeyOf hm
    exact hkey ▸ h.keys k n hn
  · intro k k' m m' hm hm' heq
    obtain ⟨n,hn,hkey⟩ := hkeyOf hm
    obtain ⟨n',hn',hkey'⟩ := hkeyOf hm'
    exact h.distinct k k' n n' hn hn' (hkey.trans (heq.trans hkey'.symm))
  · by_cases hkey : m.key = key
    · left
      refine List.mem_flatMap.mpr ⟨⟨k,m⟩,List.mem_filter.mpr ⟨AList.mem_lookup_iff.mp hm,by simpa using hkey⟩,?_⟩
      exact h.named k m hm ▸ NodeRecord.mem_closing hopen
    · exact .inr ⟨m,(hlookup k).trans (by rw [show net.getNode k = some m from hm]; simp [hkey]),hopen⟩

omit hget in
omit h in
lemma evolves_processCommands (h : Sound { net with commands := commands }) :
    Evolves { net with commands := commands } { (processCommands commands net).1 with commands := [] }
      (processCommands commands net).2 := by
  induction commands generalizing net with
  | nil => exact .refl h
  | cons key commands ih =>
    have hfirst := evolves_deferredDelete h
    exact hfirst.trans (ih hfirst.sound)

omit hget in
omit h in
lemma processCommands_commands (commands : List ℕ) :
    (processCommands commands net).1.commands = net.commands := by
  induction commands generalizing net with
  | nil => rfl
  | cons key commands ih => exact ih

omit hget in
lemma evolves_tick : Evolves net net.tick.1 net.tick.2 := by
  have hwaiting : Sound { ({ net with commands := [] } : Network) with commands := net.commands } := h
  have hall : Evolves net { net.tick.1 with commands := [] } net.tick.2 :=
    evolves_processCommands hwaiting
  have hcommands : net.tick.1.commands = [] := processCommands_commands _
  have heq : ({ net.tick.1 with commands := [] } : Network) = net.tick.1 := by
    rw [← hcommands]
  rwa [heq] at hall

/-- The advertisement gives the node's record a new id. -/
def Rekeys (net : Network) (n : NodeRecord) (a : Advertisement) : Prop :=
  a.nodeId ≠ n.nodeId ∧ a.nodeId ∉ net.directory.nodes

instance (a : Advertisement) : Decidable (net.Rekeys n a) :=
  inferInstanceAs (Decidable (_ ∧ _))

lemma evolves_advertise (hrekeys : ¬net.Rekeys n a) : Evolves net (net.advertise n a) [] := by
  have hid := h.named id n hget
  have heq : net.advertise n a = net.set { n with advertisement := some a } := by
    rw [advertise,NodeDirectoryImpl.rekeyNode]
    split
    · rfl
    · next hne =>
      have htaken : a.nodeId ∈ net.directory.nodes := by
        by_contra hfree
        exact hrekeys ⟨Ne.symm hne,hfree⟩
      split
      · rfl
      · have hmem : a.nodeId ∈ (net.directory.set { n with advertisement := some a }).nodes :=
          (AList.mem_insert _).mpr (.inr htaken)
        simp only [hmem,if_true]
        rfl
  rw [heq]
  exact .of_set { n with advertisement := some a } hget hid rfl (fun k hlink => .inr hlink) rfl
    (h.set _ hget hid rfl (h.linked id n hget) (fun l hl hclosed => h.ended id n l hget hl hclosed)) le_rfl

omit hget in
omit h in
lemma getNode_advertise (hrekeys : net.Rekeys n a) (k : String) :
    (net.advertise n a).getNode k = if k = a.nodeId then
      some { n with advertisement := some a, nodeId := a.nodeId }
      else if k = n.nodeId then none else net.getNode k := by
  obtain ⟨hne,hfree⟩ := hrekeys
  have hset : (net.directory.set { n with advertisement := some a }).getNode n.nodeId =
      some { n with advertisement := some a } := AList.lookup_insert _
  have hnot : a.nodeId ∉ (net.directory.set { n with advertisement := some a }).nodes := by
    intro hmem
    exact ((AList.mem_insert _).mp hmem).elim hne hfree
  rw [advertise,getNode,NodeDirectoryImpl.rekeyNode,if_neg (Ne.symm hne),hset]
  simp only [if_neg hnot,NodeDirectoryImpl.getNode]
  by_cases hk : k = a.nodeId
  · subst hk
    rw [if_pos rfl]
    exact AList.lookup_insert _
  rw [if_neg hk,AList.lookup_insert_ne hk]
  by_cases hk' : k = n.nodeId
  · subst hk'
    rw [if_pos rfl]
    exact AList.lookup_erase _ _
  · rw [if_neg hk',AList.lookup_erase_ne hk']
    exact AList.lookup_insert_ne hk'

lemma Sound.advertise (hrekeys : net.Rekeys n a) : (net.advertise n a).Sound := by
  have hid := h.named id n hget
  have hold {k : String} {m : NodeRecord} (hm : (net.advertise n a).getNode k = some m) :
      k = a.nodeId ∧ m = { n with advertisement := some a, nodeId := a.nodeId } ∨
        k ≠ id ∧ net.getNode k = some m := by
    rw [getNode_advertise hrekeys] at hm
    split at hm
    · next heq => exact .inl ⟨heq,(Option.some.inj hm).symm⟩
    split at hm
    · cases hm
    · next hne => exact .inr ⟨hid ▸ hne,hm⟩
  refine ⟨fun k m hm => ?_,fun k m hm havailable => ?_,fun k m l hm hlink hclosed => ?_,
    fun k m hm => ?_,fun k k' m m' hm hm' heq => ?_⟩
  · rcases hold hm with ⟨rfl,rfl⟩ | ⟨-,hm⟩
    · rfl
    · exact h.named k m hm
  · rcases hold hm with ⟨rfl,rfl⟩ | ⟨-,hm⟩
    · exact h.linked id n hget havailable
    · exact h.linked k m hm havailable
  · rcases hold hm with ⟨rfl,rfl⟩ | ⟨-,hm⟩
    · exact h.ended id n l hget hlink hclosed
    · exact h.ended k m l hm hlink hclosed
  · rcases hold hm with ⟨rfl,rfl⟩ | ⟨-,hm⟩
    · exact h.keys id n hget
    · exact h.keys k m hm
  · rcases hold hm with ⟨hk,rfl⟩ | ⟨hne,hget₁⟩ <;> rcases hold hm' with ⟨hk',rfl⟩ | ⟨hne',hget₂⟩
    · exact hk.trans hk'.symm
    · exact absurd (h.distinct id k' n m' hget hget₂ heq).symm hne'
    · exact absurd (h.distinct k id m n hget₁ hget heq) hne
    · exact h.distinct k k' m m' hget₁ hget₂ heq

end Network
end Strij.Gateway
