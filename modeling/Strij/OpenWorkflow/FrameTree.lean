import Strij.Lib.Routes
import Strij.OpenWorkflow.Acts

/-! The frame tree and the world. What a world has to do with a tree is a property of a few things the tree
shows of each sequence frame. -/
namespace Strij.OpenWorkflow
open Relation
open Strij.Lib (Routes)

abbrev FrameSlot := FrameId × Option String

/-- What the tree shows of a sequence frame: its slot and, while a nested frame is there, the cursor
and the input of its step. -/
structure FrameView where
  slot : FrameSlot
  nested : Option (ℕ × Option StepDataValue)

def FrameView.free (id : FrameId) : FrameView := ⟨(id,none),none⟩

namespace SequenceFrame
variable {β κ : Type}

def view (f : SequenceFrame β κ) : FrameView :=
  ⟨(f.id,if f.state = .active then f.waitingChildId else none),f.child.map (fun _ => (f.cursor,f.stepInput))⟩

def views (childViews : κ → List FrameView) (f : SequenceFrame β κ) : List FrameView :=
  f.view :: f.child.elim [] childViews

def Idle (f : SequenceFrame β κ) : Prop := f.child = none ∧ f.waitingChildId = none

structure Ready (step : NamedTask β) (f : SequenceFrame β κ) : Prop where
  step : f.steps[f.cursor]? = some step
  active : f.state = .active
  failure : f.failure = none
  pending : f.pendingResult = none
  waiting : f.waitingChildId = none

end SequenceFrame

def Container.views {β κ : Type} (childViews : κ → List FrameView) : Container β κ → List FrameView
  | .sequence f => f.views childViews
  | .fork f => f.branches.flatMap (fun b => b.frame.views childViews)
  | .for_ f => f.bodyFrame.elim [] (fun body => body.views childViews)

def Contained.views : (n : ℕ) → Contained n → List FrameView
  | 0, c => c.elim
  | n+1, c => Container.views (Contained.views n) c

abbrev Frame.views {n : ℕ} (f : Frame n) : List FrameView := SequenceFrame.views (Contained.views n) f

def Frame.slots {n : ℕ} (f : Frame n) : List FrameSlot := f.views.map FrameView.slot

/-- The routing table is exact for the slots; addresses and child ids are fresh from here on. -/
structure World.Owns (setup : Setup) (w : World) (l : List FrameSlot) : Prop where
  routes : Routes w.owners l
  addresses : ∀ x ∈ l, x.1 < w.nextFrame
  ids : ∀ id ∈ w.owners, ∃ k < w.nextChild, id = setup.freshId k

namespace World.Owns
variable {setup : Setup} {w w' : World} {l l' : List FrameSlot} {fid : FrameId}

lemma perm (h : w.Owns setup l) (hp : l.Perm l') : w.Owns setup l' :=
  ⟨h.routes.perm hp,fun x hx => h.addresses x (hp.mem_iff.mpr hx),h.ids⟩

lemma drop {x : FrameSlot} (h : w.Owns setup (x :: l)) (hx : x.2 = none) : w.Owns setup l := by
  have hroutes : Routes w.owners ([x] ++ l) := h.routes
  exact ⟨hroutes.drop (by simpa using hx),fun y hy => h.addresses y (List.mem_cons_of_mem _ hy),h.ids⟩

lemma same (h : w.Owns setup l) (howners : w'.owners = w.owners) (hframe : w'.nextFrame = w.nextFrame)
    (hchild : w'.nextChild = w.nextChild) : w'.Owns setup l :=
  ⟨howners ▸ h.routes,hframe ▸ h.addresses,by rw [howners,hchild]; exact h.ids⟩

lemma record (h : w.Owns setup l) (e : Event) : (w.record e).Owns setup l := h.same rfl rfl rfl

lemma forget {id : String} (h : w.Owns setup ((fid,some id) :: l)) :
    (w.forgetChild id).Owns setup ((fid,none) :: l) where
  routes := h.routes.erase
  addresses := List.forall_mem_cons.mpr (List.forall_mem_cons.mp h.addresses)
  ids id' hid' := h.ids id' (AList.mem_erase.mp hid').2

lemma register (hfresh : Function.Injective setup.freshId) (h : w.Owns setup ((fid,none) :: l)) :
    (w.register (setup.freshId w.nextChild) fid).Owns setup
      ((fid,some (setup.freshId w.nextChild)) :: l) where
  routes := by
    refine h.routes.insert fun hmem => ?_
    obtain ⟨k,hk,hid⟩ := h.ids _ hmem
    exact absurd (hfresh hid) (by omega)
  addresses := List.forall_mem_cons.mpr (List.forall_mem_cons.mp h.addresses)
  ids id hid := by
    rcases (AList.mem_insert _).mp hid with rfl | hid
    · exact ⟨w.nextChild,Nat.lt_succ_self _,rfl⟩
    · obtain ⟨k,hk,rfl⟩ := h.ids id hid
      exact ⟨k,Nat.lt_succ_of_lt hk,rfl⟩

lemma newFrame (h : w.Owns setup l) :
    ({ w with nextFrame := w.nextFrame+1 } : World).Owns setup ((w.nextFrame,none) :: l) where
  routes := by
    refine h.routes.cons fun hmem => ?_
    obtain ⟨x,hx,hxw⟩ := List.mem_map.mp hmem
    exact (h.addresses x hx).ne hxw
  addresses := by
    refine List.forall_mem_cons.mpr ⟨Nat.lt_succ_self _,fun x hx => ?_⟩
    exact Nat.lt_succ_of_lt (h.addresses x hx)
  ids := h.ids

end World.Owns

def Event.silent : Event → Bool
  | .takeUp _ _ _ _ | .evaluateIf _ _ | .evaluateFrom _ _ | .skip _ _ | .enter _ _ _ _ _
  | .advance _ _ | .leave _ _ _ => false
  | _ => true

/-- Nothing happens to a step, the context or the addresses. -/
inductive Silent : World → World → Prop
  | record {w : World} {e : Event} (h : e.silent = true) : Silent w (w.record e)
  | same {w w' : World} (hlog : w'.log = w.log) (hcontext : w'.context = w.context)
      (hframe : w'.nextFrame = w.nextFrame) : Silent w w'

namespace World
variable {w : World}

lemma record_asks {e : Event} {id : Option String} (he : e.asksFor = some id) : Silent w (w.record e) := by
  refine .record ?_
  cases e <;> first | rfl | cases he

lemma deliver_silent (w : World) (x : String × ChildOutcome) : ReflTransGen Silent w (w.deliver x) := by
  rw [World.deliver]
  split
  · exact .head (.record rfl) (.single (.same rfl rfl rfl))
  · exact .single (.record rfl)

lemma converse_silent (w : World) : ReflTransGen Silent w w.converse.2 := by
  refine converse_keeps (P := ReflTransGen Silent w) (fun _ _ h => ?_) (fun w x h => ?_) .refl
  · exact h.tail (.same rfl rfl rfl)
  · exact h.trans (w.deliver_silent x)

lemma Owns.converse {setup : Setup} {l : List FrameSlot} (h : w.Owns setup l) :
    w.converse.2.Owns setup l := by
  refine converse_keeps (P := fun w => w.Owns setup l) (fun _ _ h => h.same rfl rfl rfl) (fun w x h => ?_) h
  rw [deliver]
  split
  · exact h.same rfl rfl rfl
  · exact h.record _

end World

/-- A property of the world and the tree, and what has to be known of the events of a step. -/
structure Account (setup : Setup) where
  Holds : World → List FrameView → Prop
  Ended : World → Prop
  Spoiled : World → Prop
  plain : {β : Type} → NamedTask β → Prop
  steady : {β κ : Type} → NamedTask β → SequenceFrame β κ → Prop
  Taken : {β κ : Type} → World → NamedTask β → SequenceFrame β κ → List FrameView → Prop
  start : ∀ {w}, Holds w [] → Holds { w with context := .object [] } []
  perm : ∀ {w l l'}, Holds w l → l.Perm l' → Holds w l'
  drop : ∀ {w x l}, Holds w (x :: l) → Holds w l
  newFrame : ∀ {w l}, Holds w l → Holds { w with nextFrame := w.nextFrame+1 } (.free w.nextFrame :: l)
  view : ∀ {w l fid s s' nested}, Holds w (⟨(fid,s),nested⟩ :: l) → Holds w (⟨(fid,s'),nested⟩ :: l)
  silent : ∀ {w w' l}, Silent w w' → Holds w l → Holds w' l
  ended : ∀ {w l}, Holds w l → Ended w
  ended_silent : ∀ {w w'}, Silent w w' → Ended w → Ended w'
  spoiled : ∀ {w w' : World}, w.log <:+ w'.log → Spoiled w → Spoiled w'
  context : ∀ {β : Type} {step : NamedTask β} {w c l}, plain step →
    SequenceFrame.LeavesContext step w c → Holds w l → Holds { w with context := c } l
  takeUp : ∀ {β κ : Type} {step : NamedTask β} {f : SequenceFrame β κ} {w l}, f.Ready step →
    (f.child.isSome = true → steady step f) → Holds w (f.view :: l) →
    Spoiled (f.takenUp w step) ∨ Ended (f.takenUp w step) ∧
      (evaluateCondition setup.engine w.context f.scope step f.data = .ok false → f.child = none ∧
        Holds ((f.takenUp w step).record (.skip f.id f.cursor)) (f.view :: l)) ∧
      (evaluateCondition setup.engine w.context f.scope step f.data = .ok true →
        Ended (f.transforming (f.takenUp w step) step) ∧
        ∀ input, transformTaskInput setup.engine w.context f.scope step f.data = .ok input →
          Taken (f.transforming (f.takenUp w step) step) step { f with stepInput := some input } l)
  taken : ∀ {β κ : Type} {step : NamedTask β} {f : SequenceFrame β κ} {w l},
    Taken w step f l → Holds w (f.view :: l)
  enter : ∀ {β κ : Type} {step : NamedTask β} {f : SequenceFrame β κ} {w l input} (c : κ),
    Taken w step f l → f.child = none → f.stepInput = some input →
      steady step { f with child := some c } ∧
      Holds ((w.record (.enter f.id f.cursor input step.task.if_.isSome
        (step.task.input.bind Input.from_).isSome)).record (.advance f.id f.cursor))
        ({ f with child := some c }.view :: l)
  again : ∀ {β κ : Type} {step : NamedTask β} {f : SequenceFrame β κ} {w l}, Taken w step f l →
    f.child.isSome = true → steady step f ∧ Holds (w.record (.advance f.id f.cursor)) (f.view :: l)
  leave : ∀ {β κ : Type} {step : NamedTask β} {f : SequenceFrame β κ} {w l}, f.child.isSome = true →
    steady step f → Holds w (f.view :: l) →
      Holds (w.record (.leave f.id f.cursor f.stepInput)) (⟨f.view.slot,none⟩ :: l)
  steady_child : ∀ {β κ : Type} {step : NamedTask β} {f : SequenceFrame β κ} (c : κ),
    steady step f → steady step { f with child := some c }

namespace Account
variable {setup : Setup} (A : Account setup)

structure Agrees (w : World) (l : List FrameView) : Prop where
  owns : w.Owns setup (l.map FrameView.slot)
  holds : A.Holds w l

variable {A} {w w' : World} {l l' R : List FrameView}

lemma holds_silently (h : A.Holds w l) (hw : ReflTransGen Silent w w') : A.Holds w' l := by
  induction hw with
  | refl => exact h
  | tail _ hs ih => exact A.silent hs ih

lemma spoiled_acts (h : A.Spoiled w) (hw : Acts setup w w') : A.Spoiled w' := A.spoiled hw.log_suffix h

namespace Agrees
variable {nested : Option (ℕ × Option StepDataValue)} {e : Event}

variable (h : A.Agrees w l)
include h

lemma ended : A.Ended w := A.ended h.holds

lemma perm (hp : l.Perm l') : A.Agrees w l' :=
  ⟨h.owns.perm (hp.map FrameView.slot),A.perm h.holds hp⟩

omit h in
lemma swap (h : A.Agrees w (l ++ (l' ++ R))) : A.Agrees w (l' ++ (l ++ R)) := by
  refine h.perm ?_
  rw [← List.append_assoc,← List.append_assoc]
  exact List.perm_append_comm.append_right R

omit h in
lemma drop {x : FrameView} (h : A.Agrees w (x :: l)) (hx : x.slot.2 = none) : A.Agrees w l :=
  ⟨h.owns.drop hx,A.drop h.holds⟩

omit h in
lemma dropAll (h : A.Agrees w (l ++ R)) (hl : ∀ x ∈ l, x.slot.2 = none) : A.Agrees w R := by
  induction l with
  | nil => exact h
  | cons x l ih =>
    obtain ⟨hx,hl⟩ := List.forall_mem_cons.mp hl
    exact ih (h.drop hx) hl

lemma newFrame : A.Agrees { w with nextFrame := w.nextFrame+1 } (.free w.nextFrame :: l) :=
  ⟨h.owns.newFrame,A.newFrame h.holds⟩

lemma record (he : e.silent = true) : A.Agrees (w.record e) l :=
  ⟨h.owns.record e,A.silent (.record he) h.holds⟩

lemma recordIf (b : Bool) (he : e.silent = true) : A.Agrees (w.recordIf b e) l := by
  rw [World.recordIf]
  split
  · exact h.record he
  · exact h

lemma same (howners : w'.owners = w.owners) (hchild : w'.nextChild = w.nextChild)
    (hframe : w'.nextFrame = w.nextFrame) (hlog : w'.log = w.log) (hcontext : w'.context = w.context) :
    A.Agrees w' l :=
  ⟨h.owns.same howners hframe hchild,A.silent (.same hlog hcontext hframe) h.holds⟩

lemma converse : A.Agrees w.converse.2 l :=
  ⟨h.owns.converse,holds_silently h.holds w.converse_silent⟩

omit h

lemma forget {fid : FrameId} {id : String} (h : A.Agrees w (⟨(fid,some id),nested⟩ :: l)) :
    A.Agrees (w.forgetChild id) (⟨(fid,none),nested⟩ :: l) := by
  have hs : Silent w (w.forgetChild id) := .same rfl rfl rfl
  exact ⟨h.owns.forget,A.view (A.silent hs h.holds)⟩

lemma register (hfresh : Function.Injective setup.freshId) {fid : FrameId}
    (h : A.Agrees w (⟨(fid,none),nested⟩ :: l)) : A.Agrees (w.register (setup.freshId w.nextChild) fid)
      (⟨(fid,some (setup.freshId w.nextChild)),nested⟩ :: l) := by
  have hs : Silent w (w.register (setup.freshId w.nextChild) fid) := .same rfl rfl rfl
  exact ⟨h.owns.register hfresh,A.view (A.silent hs h.holds)⟩

end Agrees
end Account
end Strij.OpenWorkflow
