import Strij.Gateway.EventLoop
import Strij.Gateway.NetworkChanges

/-! What the operations of a scheduler can come to, with the effects of each outcome. -/
namespace Strij.Gateway
open Strij.Lib Strij.Wire

namespace ProbeScheduler
variable {s : ProbeScheduler} {directory : NodeDirectory} {now : ℤ}
  {entries : List (Sigma (fun _ : String => PendingProbe))}

lemma mem_sampleCandidates {α : Type} {draw : ℕ → ℕ} {l : List α} {k : ℕ} {x : α}
    (h : x ∈ sampleCandidates draw l k) : x ∈ l := by
  obtain ⟨rest,hperm⟩ := sampleCandidates_perm draw l k
  exact hperm.subset (List.mem_append_left _ h)

lemma sweep_lookup {id : String}
    {round : PendingProbe} (h : (sweep directory now entries s).1.pending.lookup id = some round) :
    s.pending.lookup id = some round := by
  induction entries generalizing s with
  | nil => exact h
  | cons x entries ih =>
    obtain ⟨k,other⟩ := x
    rw [sweep] at h
    split at h
    · exact ih h
    · exact (lookup_erase_eq_some (ih h)).2

lemma mem_sweep {e : Effect} (h : e ∈ (sweep directory now entries s).2) :
    ∃ x ∈ entries, x.2.deadline < now ∧ e ∈ expire directory x.1 x.2 := by
  induction entries generalizing s with
  | nil => cases h
  | cons x entries ih =>
    obtain ⟨k,other⟩ := x
    rw [sweep] at h
    split at h
    · obtain ⟨y,hy,hlate,he⟩ := ih h
      exact ⟨y,List.mem_cons_of_mem _ hy,hlate,he⟩
    · next hlate =>
      rcases List.mem_append.mp h with h | h
      · exact ⟨⟨k,other⟩,List.mem_cons_self,not_le.mp hlate,h⟩
      · obtain ⟨y,hy,hlate,he⟩ := ih h
        exact ⟨y,List.mem_cons_of_mem _ hy,hlate,he⟩

end ProbeScheduler

namespace GatewayScheduler
variable {s s' : GatewayScheduler} {d : NodeDirectoryImpl} {now : ℤ} {task : Task} {receiver : Receiver}
  {candidates : List NodeRecord}

structure SameRounds (s s' : GatewayScheduler) : Prop where
  pending : s'.pending = s.pending
  types : s'.handledFrameTypes = s.handledFrameTypes

def protocol : GatewayScheduler → String
  | .probe _ => "probe"
  | _ => "push"

inductive Scheduled (d : NodeDirectoryImpl) (task : Task) (receiver : Receiver) (s : GatewayScheduler) :
    GatewayScheduler × List Effect → Prop
  | refused {s' : GatewayScheduler} (h : SameRounds s s') (message : String) (status : TaskStatus) :
    Scheduled d task receiver s (s',[.deliverError receiver message status])
  | pushed {s' : GatewayScheduler} (h : SameRounds s s') {n : NodeRecord}
      (hn : n ∈ d.getCandidates s.protocol) :
    Scheduled d task receiver s (s',pushTask n task receiver)
  | probed {p : ProbeScheduler} (h : s = .probe p) {sampled : List NodeRecord} (hne : sampled ≠ [])
      (hn : ∀ n ∈ sampled, n ∈ d.getCandidates s.protocol) (deadline : ℤ) :
    Scheduled d task receiver s
      (.probe (p.assign task.id ⟨task,receiver,sampled.map (·.nodeId),deadline⟩),
        sampled.map (fun n => n.view.write (.probe task.probe)))

lemma choose_mem {quotient : UInt64 → UInt64 → ℚ} {n : NodeRecord}
    (h : CapabilityAware.choose task quotient candidates = some n) : n ∈ candidates := by
  have hfold (l : List NodeRecord) (best : Option NodeRecord)
      (hbest : l.foldl (CapabilityAware.better task quotient) best = some n) : best = some n ∨ n ∈ l := by
    induction l generalizing best with
    | nil => exact .inl hbest
    | cons m l ih =>
      rcases ih _ hbest with hbest | hmem
      · have hor : CapabilityAware.better task quotient best m = best ∨
            CapabilityAware.better task quotient best m = some m := by
          unfold CapabilityAware.better
          split
          · exact .inl rfl
          split
          · exact .inr rfl
          split
          · exact .inr rfl
          · exact .inl rfl
        rcases hor with heq | heq
        · exact .inl (heq ▸ hbest)
        · cases heq ▸ hbest
          exact .inr List.mem_cons_self
      · exact .inr (List.mem_cons_of_mem _ hmem)
  exact (hfold candidates none h).resolve_left (by simp)

lemma exists_records {views : List Node} (h : ∀ v ∈ views, v ∈ candidates.map NodeRecord.view) :
    ∃ records : List NodeRecord, records.map NodeRecord.view = views ∧ ∀ n ∈ records, n ∈ candidates := by
  induction views with
  | nil => exact ⟨[],rfl,nofun⟩
  | cons v views ih =>
    obtain ⟨n,hn,rfl⟩ := List.mem_map.mp (h v List.mem_cons_self)
    obtain ⟨records,rfl,hrecords⟩ := ih fun v hv => h v (List.mem_cons_of_mem _ hv)
    exact ⟨n :: records,rfl,List.forall_mem_cons.mpr ⟨hn,hrecords⟩⟩

lemma scheduled (d : NodeDirectoryImpl) (now : ℤ) (task : Task) (receiver : Receiver)
    (s : GatewayScheduler) : Scheduled d task receiver s (s.schedule d now task receiver) := by
  cases s with
  | roundRobin nextIndex =>
    rw [schedule]
    split
    · exact .refused ⟨rfl,rfl⟩ _ _
    · next n hn =>
      have hsame (i : ℕ) : SameRounds (.roundRobin nextIndex) (.roundRobin i) := ⟨rfl,rfl⟩
      exact .pushed (hsame _) (List.mem_of_getElem? hn)
  | capabilityAware quotient =>
    rw [schedule]
    split
    · exact .refused ⟨rfl,rfl⟩ _ _
    · next n hn => exact .pushed ⟨rfl,rfl⟩ (choose_mem hn)
  | probe p =>
    unfold schedule ProbeScheduler.schedule
    by_cases hk : min p.candidateCount d.answers.candidates.length = 0
    · simp only [if_pos hk]
      exact .refused ⟨rfl,rfl⟩ _ _
    simp only [if_neg hk]
    generalize hsampled : sampleCandidates (p.rng task.id) d.answers.candidates
      (min p.candidateCount d.answers.candidates.length) = views
    have hmem : ∀ v ∈ views, v ∈ (d.getCandidates "probe").map NodeRecord.view := by
      subst hsampled
      exact fun v hv => ProbeScheduler.mem_sampleCandidates hv
    obtain ⟨records,hviews,hrecords⟩ := exists_records hmem
    have hne : records ≠ [] := by
      rintro rfl
      have hlength := sampleCandidates_length (p.rng task.id) d.answers.candidates
        (min p.candidateCount d.answers.candidates.length)
      rw [hsampled,← hviews,List.map_nil,List.length_nil] at hlength
      omega
    subst hviews
    simp only [List.map_map]
    exact .probed rfl hne hrecords _

inductive Framed (d : NodeDirectoryImpl) (frame : NodeFrame) (conn : Connection) (s : GatewayScheduler) :
    GatewayScheduler × List Effect → Prop
  | ignored (h : ∀ id, frame = .pull id → conn.owner = none) : Framed d frame conn s (s,[])
  | revoked {p : ProbeScheduler} (h : s = .probe p) {id : String} (hframe : frame = .pull id)
      (hround : ∀ round, p.pending.lookup id = some round → ∀ w ∈ conn.owner, w ∉ round.probedNodeIds) :
    Framed d frame conn s (s,[.write conn (.cancel id)])
  | granted {p : ProbeScheduler} (h : s = .probe p) {id : String} (hframe : frame = .pull id)
      {round : PendingProbe} (hround : p.pending.lookup id = some round) {winner : String}
      (hwinner : conn.owner = some winner) (hprobed : winner ∈ round.probedNodeIds) :
    Framed d frame conn s (.probe (p.erase id),.write conn (.grant round.task) ::
      ProbeScheduler.cancelNodes d.answers id (round.probedNodeIds.filter (· ≠ winner)) ++
        [.put id round.receiver winner])
  | declined {p : ProbeScheduler} (h : s = .probe p) {id reason : String}
      (hframe : frame = .decline id reason) {round : PendingProbe}
      (hround : p.pending.lookup id = some round) :
    Framed d frame conn s (.probe (p.assign id { round with
      probedNodeIds := ProbeScheduler.dropDecliner conn round.probedNodeIds }),[])
  | exhausted {p : ProbeScheduler} (h : s = .probe p) {id reason : String}
      (hframe : frame = .decline id reason) {round : PendingProbe}
      (hround : p.pending.lookup id = some round) :
    Framed d frame conn s (.probe (p.erase id),[.deliverError round.receiver reason .capacityRefused])

lemma framed (d : NodeDirectoryImpl) (s : GatewayScheduler) (frame : NodeFrame) (conn : Connection)
    (hs : ∀ id, frame = .pull id → s.handledFrameTypes ≠ []) :
    Framed d frame conn s (s.handleFrame d frame conn) := by
  cases s with
  | roundRobin nextIndex => exact .ignored fun id hid => absurd rfl (hs id hid)
  | capabilityAware quotient => exact .ignored fun id hid => absurd rfl (hs id hid)
  | probe p =>
    cases frame with
    | pull id =>
      simp only [handleFrame,ProbeScheduler.handleFrame,ProbeScheduler.handleTaskPullFrame]
      cases hround : p.pending.lookup id with
      | none =>
        exact .revoked rfl rfl fun round hsome => by simp [hround] at hsome
      | some round =>
      cases hwinner : conn.owner with
      | none => exact .ignored fun _ _ => hwinner
      | some winner =>
      by_cases hmem : winner ∈ round.probedNodeIds
      · simp only [hmem,not_true_eq_false,if_false]
        exact .granted rfl rfl hround hwinner hmem
      · simp only [hmem,not_false_eq_true,if_true]
        refine .revoked rfl rfl fun r hr w hw => ?_
        cases Option.some.inj (hround.symm.trans hr)
        cases Option.some.inj (hwinner.symm.trans hw)
        exact hmem
    | decline id reason =>
      simp only [handleFrame,ProbeScheduler.handleFrame,ProbeScheduler.handleTaskDeclineFrame]
      cases hround : p.pending.lookup id with
      | none => exact .ignored fun k hk => by cases hk
      | some round =>
      by_cases hleft : ProbeScheduler.dropDecliner conn round.probedNodeIds = []
      · simp only [if_pos hleft]
        exact .exhausted rfl rfl hround
      · simp only [if_neg hleft]
        exact .declined rfl rfl hround
    | malformed kind => exact .ignored fun k hk => by cases hk
    | other typeId => exact .ignored fun k hk => by cases hk

/-- The rounds of the second scheduler are rounds of the first, with the nodes that are left. -/
def Shrinks (s s' : GatewayScheduler) : Prop :=
  s'.handledFrameTypes = s.handledFrameTypes ∧ ∀ id round', s'.pending.lookup id = some round' →
    ∃ round, s.pending.lookup id = some round ∧ round'.task = round.task ∧
      round'.receiver = round.receiver ∧ round'.probedNodeIds ⊆ round.probedNodeIds

lemma SameRounds.shrinks (h : SameRounds s s') : Shrinks s s' :=
  ⟨h.types,fun _ round hround => ⟨round,h.pending ▸ hround,rfl,rfl,List.Subset.refl _⟩⟩

lemma shrinks_erase (p : ProbeScheduler) (id : String) : Shrinks (.probe p) (.probe (p.erase id)) :=
  ⟨rfl,fun _ round hround => ⟨round,(lookup_erase_eq_some hround).2,rfl,rfl,List.Subset.refl _⟩⟩

lemma dropDecliner_subset (conn : Connection) (probed : List String) :
    ProbeScheduler.dropDecliner conn probed ⊆ probed := by
  rw [ProbeScheduler.dropDecliner]
  split
  · exact List.filter_sublist.subset
  · exact List.Subset.refl _

lemma Framed.shrinks {frame : NodeFrame} {conn : Connection} {r : GatewayScheduler × List Effect}
    (h : Framed d frame conn s r) : Shrinks s r.1 := by
  cases h with
  | ignored => exact SameRounds.shrinks ⟨rfl,rfl⟩
  | revoked => exact SameRounds.shrinks ⟨rfl,rfl⟩
  | granted h => exact h ▸ shrinks_erase _ _
  | exhausted h => exact h ▸ shrinks_erase _ _
  | @declined p h id reason _ round hround =>
    subst h
    refine ⟨rfl,fun k round' hround' => ?_⟩
    by_cases hk : k = id
    · subst hk
      cases Option.some.inj ((AList.lookup_insert _).symm.trans hround')
      exact ⟨round,hround,rfl,rfl,dropDecliner_subset conn _⟩
    · exact ⟨round',(AList.lookup_insert_ne hk).symm.trans hround',rfl,rfl,List.Subset.refl _⟩

lemma sweepExpired_shrinks (s : GatewayScheduler) : Shrinks s (s.sweepExpired d now).1 := by
  cases s with
  | roundRobin nextIndex => exact SameRounds.shrinks ⟨rfl,rfl⟩
  | capabilityAware quotient => exact SameRounds.shrinks ⟨rfl,rfl⟩
  | probe p =>
    exact ⟨rfl,fun _ round hround =>
      ⟨round,ProbeScheduler.sweep_lookup hround,rfl,rfl,List.Subset.refl _⟩⟩

lemma mem_sweepExpired {e : Effect} (h : e ∈ (s.sweepExpired d now).2) :
    ∃ id round, s.pending.lookup id = some round ∧ round.deadline < now ∧
      e ∈ ProbeScheduler.expire d.answers id round := by
  cases s with
  | roundRobin nextIndex => cases h
  | capabilityAware quotient => cases h
  | probe p =>
    obtain ⟨⟨id,round⟩,hmem,hlate,he⟩ := ProbeScheduler.mem_sweep h
    exact ⟨id,round,AList.mem_lookup_iff.mpr hmem,hlate,he⟩

end GatewayScheduler
end Strij.Gateway
