import Strij.Probe.System

/-! What each operation of the gateway means for one task and one node: whether the gateway still
waits for the node, and what it sends to it about the task. -/
namespace Strij.Probe
open Strij.Gateway Strij.Wire
variable {g : ProbeScheduler} {i : String}

section Writes
variable (id n : String)

lemma connection_inj {m n : String} : connection m = connection n ↔ m = n := by
  simp [connection]

@[simp] lemma connection_owner : (connection n).owner = some n := rfl

@[simp] lemma writesTo_nil : writesTo n [] = [] := rfl

@[simp] lemma writesTo_append (a b : List Effect) :
    writesTo n (a ++ b) = writesTo n a ++ writesTo n b := List.filterMap_append

@[simp] lemma sentTo_nil : sentTo id n [] = [] := rfl

@[simp] lemma sentTo_append (a b : List Effect) : sentTo id n (a ++ b) = sentTo id n a ++ sentTo id n b := by
  simp [sentTo]

lemma sentTo_write (m : String) (frame : GatewayFrame) (effects : List Effect) :
    sentTo id n (.write (connection m) frame :: effects) =
      (if m = n then (downOf id frame).toList else []) ++ sentTo id n effects := by
  by_cases h : m = n
  · subst h
    cases hf : downOf id frame <;> simp [sentTo,writesTo,hf]
  · simp [sentTo,writesTo,connection_inj,h]

@[simp] lemma sentTo_put (i : String) (r : Receiver) (m : String) (effects : List Effect) :
    sentTo id n (.put i r m :: effects) = sentTo id n effects := rfl

@[simp] lemma sentTo_deliverError (r : Receiver) (message : String) (status : TaskStatus)
    (effects : List Effect) :
    sentTo id n (.deliverError r message status :: effects) = sentTo id n effects := rfl

lemma sentTo_cancelNodes (candidates : List String) (i : String) (nodeIds : List String) :
    sentTo id n (ProbeScheduler.cancelNodes (directory candidates) i nodeIds) =
      if i = id then List.replicate (nodeIds.count n) .cancel else [] := by
  induction nodeIds with
  | nil => simp [ProbeScheduler.cancelNodes]
  | cons m nodeIds ih =>
    have hcons : ProbeScheduler.cancelNodes (directory candidates) i (m :: nodeIds) =
        .write (connection m) (.cancel i) ::
          ProbeScheduler.cancelNodes (directory candidates) i nodeIds := rfl
    rw [hcons,sentTo_write,ih]
    by_cases hi : i = id
    · by_cases hm : m = n
      · simp [hi,hm,downOf,List.replicate_succ]
      · simp [hi,hm]
    · simp [hi,downOf]

end Writes

section Waiting
variable (id n : String) (g : ProbeScheduler) {g : ProbeScheduler}

lemma waits_of_none (h : g.pending.lookup id = none) : waits id g n = false := by
  simp [waits,h]

lemma waits_of_some {round : PendingProbe} (h : g.pending.lookup id = some round) :
    waits id g n = decide (n ∈ round.probedNodeIds) := by
  simp [waits,h]

lemma waits_erase (i : String) : waits id (g.erase i) n = if id = i then false else waits id g n := by
  by_cases h : id = i
  · subst h
    simp [waits,ProbeScheduler.erase]
  · simp [waits,ProbeScheduler.erase,h]

lemma waits_assign (i : String) (round : PendingProbe) : waits id (g.assign i round) n =
      if id = i then decide (n ∈ round.probedNodeIds) else waits id g n := by
  by_cases h : id = i
  · subst h
    simp [waits,ProbeScheduler.assign]
  · simp [waits,ProbeScheduler.assign,h]

end Waiting

def Rounds (g : ProbeScheduler) : Prop :=
  ∀ id round, g.pending.lookup id = some round → round.task.id = id ∧ round.probedNodeIds.Nodup

lemma Rounds.erase (h : Rounds g) (i : String) : Rounds (g.erase i) := by
  intro id round hround
  by_cases hid : id = i
  · subst hid
    simp [ProbeScheduler.erase] at hround
  · rw [ProbeScheduler.erase,AList.lookup_erase_ne hid] at hround
    exact h id round hround

lemma Rounds.assign (h : Rounds g) {new : PendingProbe}
    (hnew : new.task.id = i ∧ new.probedNodeIds.Nodup) : Rounds (g.assign i new) := by
  intro id round hround
  by_cases hid : id = i
  · subst hid
    simp only [ProbeScheduler.assign,AList.lookup_insert,Option.some.injEq] at hround
    exact hround ▸ hnew
  · rw [ProbeScheduler.assign,AList.lookup_insert_ne hid] at hround
    exact h id round hround

lemma sentTo_cancelRound {candidates : List String} {nodeIds : List String}
    (h : nodeIds.Nodup) (id n : String) :
    sentTo id n (ProbeScheduler.cancelNodes (directory candidates) i nodeIds) =
      if i = id ∧ n ∈ nodeIds then [.cancel] else [] := by
  rw [sentTo_cancelNodes]
  by_cases hi : i = id
  · by_cases hn : n ∈ nodeIds
    · simp [hi,hn,List.count_eq_one_of_mem h hn]
    · simp [hi,hn,List.count_eq_zero_of_not_mem hn]
  · simp [hi]

section Operations
variable {g : ProbeScheduler} {candidates : List String}

lemma sample_directory (h : candidates.Nodup) (draw : ℕ → ℕ) (k : ℕ) :
    ∃ sampled : List String, sampled.Nodup ∧ sampleCandidates draw (directory candidates).candidates k =
        sampled.map (fun m => ⟨m,some (connection m)⟩) := by
  obtain ⟨rest,hperm⟩ := sampleCandidates_perm draw (directory candidates).candidates k
  refine ⟨(sampleCandidates draw (directory candidates).candidates k).map Node.nodeId,?_,?_⟩
  · have hids := hperm.map Node.nodeId
    have hall : (directory candidates).candidates.map Node.nodeId = candidates :=
      List.map_map.trans (List.map_id _)
    rw [List.map_append,hall] at hids
    exact (List.nodup_append.mp (hids.nodup_iff.mpr h)).1
  · rw [List.map_map]
    refine (List.map_id _).symm.trans (List.map_congr_left fun node hnode => ?_)
    have hmem : node ∈ (directory candidates).candidates :=
      hperm.subset (List.mem_append_left _ hnode)
    obtain ⟨m,-,rfl⟩ := List.mem_map.mp hmem
    rfl

lemma sentTo_probes (id n : String) (task : Task) {sampled : List String} (h : sampled.Nodup) :
    sentTo id n (sampled.map (fun m => .write (connection m) (.probe task.probe))) =
      if task.id = id ∧ n ∈ sampled then [.probe] else [] := by
  induction sampled with
  | nil => simp
  | cons m sampled ih =>
    obtain ⟨hm,h⟩ := List.nodup_cons.mp h
    rw [List.map_cons,sentTo_write,ih h]
    by_cases hmn : m = n
    · subst hmn
      by_cases hid : task.id = id <;> simp [hid,hm,downOf,Task.probe]
    · simp [hmn,Ne.symm hmn]

theorem schedule_view (hc : candidates.Nodup) (now : ℤ) (task : Task)
    (receiver : Receiver) (hnew : g.pending.lookup task.id = none) (hg : Rounds g) :
    Rounds (g.schedule (directory candidates) now task receiver).1 ∧ ∃ sampled : List String, ∀ id n,
      waits id (g.schedule (directory candidates) now task receiver).1 n =
        (if task.id = id then decide (n ∈ sampled) else waits id g n) ∧
      sentTo id n (g.schedule (directory candidates) now task receiver).2 =
        if task.id = id ∧ n ∈ sampled then [.probe] else [] := by
  rw [ProbeScheduler.schedule]
  split
  · refine ⟨hg,[],fun id n => ⟨?_,by simp⟩⟩
    by_cases hid : task.id = id
    · subst hid
      simp [waits_of_none _ n hnew]
    · simp [hid]
  · obtain ⟨sampled,hnodup,heq⟩ := sample_directory hc (g.rng task.id)
      (min g.candidateCount (directory candidates).candidates.length)
    simp only [heq,List.map_map]
    have hids : sampled.map (Node.nodeId ∘ fun m => ⟨m,some (connection m)⟩) = sampled :=
      List.map_id _
    rw [hids]
    refine ⟨hg.assign ⟨rfl,hnodup⟩,sampled,fun id n => ⟨?_,sentTo_probes id n task hnodup⟩⟩
    rw [waits_assign]
    by_cases hid : task.id = id
    · simp [hid]
    · simp [hid,Ne.symm hid]

theorem pull_view (hg : Rounds g) (i m : String) :
    Rounds (g.handleTaskPullFrame (directory []) i (connection m)).2.1 ∧ ∀ id n,
      waits id (g.handleTaskPullFrame (directory []) i (connection m)).2.1 n =
        (if i = id ∧ waits i g m then false else waits id g n) ∧
      sentTo id n (g.handleTaskPullFrame (directory []) i (connection m)).2.2 = if i = id then
          if waits i g m then (if m = n then [.grant] else if waits i g n then [.cancel] else [])
          else if m = n then [.cancel] else [] else [] := by
  have hrevoke : ∀ id n, sentTo id n [.write (connection m) (.cancel i)] =
      if i = id then (if m = n then [.cancel] else []) else [] := by
    intro id n
    rw [sentTo_write]
    by_cases hi : i = id <;> by_cases hm : m = n <;> simp [hi,hm,downOf]
  rw [ProbeScheduler.handleTaskPullFrame]
  cases hround : g.pending.lookup i with
  | none =>
    have hw := fun n => waits_of_none i n hround
    exact ⟨hg,fun id n => ⟨by simp [hw],by simp [hw,hrevoke]⟩⟩
  | some round =>
    obtain ⟨htask,hnodup⟩ := hg i round hround
    have hw := fun n => waits_of_some i n hround
    simp only [connection_owner]
    by_cases hm : m ∈ round.probedNodeIds
    · rw [if_neg (not_not.mpr hm)]
      refine ⟨hg.erase i,fun id n => ⟨?_,?_⟩⟩
      · rw [waits_erase]
        by_cases hi : i = id
        · subst hi
          simp [hw,hm]
        · simp [hi,Ne.symm hi]
      · rw [List.cons_append,sentTo_write,sentTo_append,
          sentTo_cancelRound (hnodup.filter _)]
        by_cases hi : i = id
        · subst hi
          by_cases hmn : m = n
          · subst hmn
            simp [hw,hm,downOf,htask]
          · simp [hw,hm,hmn,Ne.symm hmn]
        · simp [hi,downOf,htask]
    · rw [if_pos hm]
      exact ⟨hg,fun id n => ⟨by simp [hw,hm],by simp [hw,hm,hrevoke]⟩⟩

theorem decline_view (hg : Rounds g) (i reason m : String) :
    Rounds (g.handleTaskDeclineFrame i reason (connection m)).2.1 ∧ ∀ id n,
      waits id (g.handleTaskDeclineFrame i reason (connection m)).2.1 n =
        (if i = id ∧ m = n then false else waits id g n) ∧
      sentTo id n (g.handleTaskDeclineFrame i reason (connection m)).2.2 = [] := by
  rw [ProbeScheduler.handleTaskDeclineFrame]
  cases hround : g.pending.lookup i with
  | none =>
    refine ⟨hg,fun id n => ⟨?_,rfl⟩⟩
    by_cases hi : i = id
    · subst hi
      simp [waits_of_none i n hround]
    · simp [hi]
  | some round =>
    obtain ⟨htask,hnodup⟩ := hg i round hround
    have hw := fun n => waits_of_some i n hround
    have hdrop : ProbeScheduler.dropDecliner (connection m) round.probedNodeIds =
        round.probedNodeIds.filter (· ≠ m) := rfl
    simp only [hdrop]
    split
    · next hempty =>
      refine ⟨hg.erase i,fun id n => ⟨?_,rfl⟩⟩
      rw [waits_erase]
      by_cases hi : i = id
      · subst hi
        have hn : n ∈ round.probedNodeIds → n = m := by
          simpa using List.filter_eq_nil_iff.mp hempty n
        by_cases hmn : m = n
        · simp [hmn]
        · have hno : n ∉ round.probedNodeIds := fun h => hmn (hn h).symm
          simp [hw,hmn,hno]
      · simp [hi,Ne.symm hi]
    · refine ⟨hg.assign ⟨htask,hnodup.filter _⟩,fun id n => ⟨?_,rfl⟩⟩
      rw [waits_assign]
      by_cases hi : i = id
      · subst hi
        by_cases hmn : m = n
        · simp [hmn]
        · simp [hw,hmn,Ne.symm hmn]
      · simp [hi,Ne.symm hi]

theorem sweep_view (now : ℤ) (id n : String)
    {entries : List (Sigma (fun _ : String => PendingProbe))} (hkeys : entries.NodupKeys)
    (hentries : ∀ x ∈ entries, g.pending.lookup x.1 = some x.2) (hg : Rounds g) :
    Rounds (ProbeScheduler.sweep (directory []) now entries g).1 ∧
    ((waits id (ProbeScheduler.sweep (directory []) now entries g).1 n = waits id g n ∧
        sentTo id n (ProbeScheduler.sweep (directory []) now entries g).2 = []) ∨ waits id g n = true ∧
        waits id (ProbeScheduler.sweep (directory []) now entries g).1 n = false ∧
        sentTo id n (ProbeScheduler.sweep (directory []) now entries g).2 = [.cancel]) := by
  induction entries generalizing g with
  | nil => exact ⟨hg,.inl ⟨rfl,rfl⟩⟩
  | cons x rest ih =>
    obtain ⟨i,round⟩ := x
    obtain ⟨hid,hkeys⟩ := List.nodupKeys_cons.mp hkeys
    have hrest := fun y hy => hentries y (List.mem_cons_of_mem _ hy)
    rw [ProbeScheduler.sweep]
    split
    · exact ih hkeys hrest hg
    have hround := hentries ⟨i,round⟩ List.mem_cons_self
    obtain ⟨-,hnodup⟩ := hg i round hround
    obtain ⟨hrounds,hnext⟩ := ih hkeys (g := g.erase i) (fun y hy => by
      have hkey : y.1 ∈ rest.keys := List.mem_map_of_mem hy
      have hne : y.1 ≠ i := fun heq => hid (heq ▸ hkey)
      rw [ProbeScheduler.erase,AList.lookup_erase_ne hne]
      exact hrest y hy) (hg.erase i)
    refine ⟨hrounds,?_⟩
    rw [waits_erase] at hnext
    simp only [ProbeScheduler.expire,sentTo_append,sentTo_deliverError,sentTo_nil,List.append_nil,
      sentTo_cancelRound hnodup]
    by_cases hi : i = id
    · subst hi
      rw [waits_of_some i n hround]
      simp only [if_true] at hnext
      obtain ⟨hwaits,hsent⟩ | ⟨hfalse,-⟩ := hnext
      · by_cases hn : n ∈ round.probedNodeIds
        · exact .inr ⟨by simp [hn],hwaits,by simp [hn,hsent]⟩
        · exact .inl ⟨by simp [hwaits,hn],by simp [hn,hsent]⟩
      · cases hfalse
    · simp only [if_neg (Ne.symm hi)] at hnext
      simpa [hi] using hnext

end Operations
end Strij.Probe
