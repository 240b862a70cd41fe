import HiveKernel.Ipc.Broker

/-! What a route adds to which queue, and that it touches no other one. -/
namespace HiveKernel
open Lib

namespace Registry
variable {r : Registry}

/-- Two processes have the parent in common, and neither of them is the other's parent. -/
def SiblingsUnder (r : Registry) (parent fromPID toPID : ℕ) : Prop :=
  ∃ sender receiver, r.get fromPID = some sender ∧ r.get toPID = some receiver ∧ sender.ppid = parent ∧
    receiver.ppid = parent ∧ parent ≠ 0 ∧ receiver.ppid ≠ fromPID ∧ sender.ppid ≠ toPID

/-- The route that is found is the one of siblings exactly if they are. -/
lemma findRoute_sibling_iff {fuel fromPID toPID : ℕ} {route : RouteType} {sender : Process}
    (h : r.findRoute fuel fromPID toPID = some (.ok route)) (hs : r.get fromPID = some sender) :
    route = .sibling ↔ r.SiblingsUnder sender.ppid fromPID toPID := by
  obtain ⟨sender',receiver,hs',hr,hsib⟩ := findRoute_ok h
  obtain rfl := Option.some.inj (hs.symm.trans hs')
  constructor
  · rintro rfl
    obtain ⟨hparent,hne⟩ := hsib rfl
    simp only [findRoute,hs,hr] at h
    split_ifs at h with hdirect hsibling
    · cases h
    · exact ⟨sender,receiver,hs,hr,rfl,hparent.symm,hsibling.2,fun he => hdirect (.inl he),
        fun he => hdirect (.inr he)⟩
    · split at h <;> cases h
  · rintro ⟨sender',receiver',hs',hr',-,hparent,hzero,hto,hfrom⟩
    obtain rfl := Option.some.inj (hs.symm.trans hs')
    obtain rfl := Option.some.inj (hr.symm.trans hr')
    simp only [findRoute,hs,hr] at h
    rw [if_neg (by simp [hto,hfrom]),if_pos ⟨hparent.symm,hzero⟩] at h
    cases h
    rfl

end Registry

namespace Broker
variable {b b' : Broker} {r : Registry} {now : ℤ} {msg : Message}

lemma getNamedQueue_deliver (b : Broker) (r : Registry) (now : ℤ) (kind : RouteType) (msg : Message)
    (name : String) : (b.deliver r now kind msg).2.getNamedQueue name = b.getNamedQueue name := by
  simp only [deliver,deliverToParentCopy]
  split_ifs
  · split <;> rfl
  · rfl

lemma getInbox_pushInbox (b : Broker) (now : ℤ) (k : ℕ) (msg : Message) (pid : ℕ) :
    (b.pushInbox now k msg).2.getInbox pid =
      if pid = k then ((b.getInbox pid).push now msg).2 else b.getInbox pid := by
  simp only [pushInbox,getInbox_set]
  split_ifs with hpid
  · rw [hpid]
  · rfl

/-- A direct delivery away from the inbox of the receiver. -/
lemma getInbox_deliver_of_ne {kind : RouteType} {sender : Process} {pid : ℕ}
    (hs : r.get msg.fromPID = some sender) (hpid : pid ≠ msg.toPID) :
    (b.deliver r now kind msg).2.getInbox pid =
      if kind = .sibling ∧ pid = sender.ppid then ((b.getInbox pid).push now (parentCopy msg)).2
      else b.getInbox pid := by
  unfold deliver
  rw [getInbox_pushInbox,if_neg hpid]
  by_cases hkind : kind = .sibling
  · rw [if_pos hkind,deliverToParentCopy_eq hs,getInbox_pushInbox]
    simp only [hkind,true_and]
  · rw [if_neg hkind,if_neg (fun h => hkind h.1)]

/-- The receiver gets the message, once. -/
def Delivers (b b' : Broker) (r : Registry) (now : ℤ) (msg stamped : Message) : Prop :=
  stamped = (b.getInbox msg.toPID).stamp now (prioritized r msg) ∧
  (b'.getInbox msg.toPID).items = stamped::(b.getInbox msg.toPID).items

/-- The named queue gets the message, once. -/
def Enqueues (b b' : Broker) (r : Registry) (now : ℤ) (msg stamped : Message) : Prop :=
  stamped = (b.getNamedQueue msg.toQueue).stamp now (prioritized r msg) ∧
  (b'.getNamedQueue msg.toQueue).items = stamped::(b.getNamedQueue msg.toQueue).items

/-- Among the other inboxes, the one of the parent of two siblings gets a copy and none else changes. -/
def CopiesToParent (b b' : Broker) (r : Registry) (now : ℤ) (msg : Message) : Prop :=
  ∀ pid, pid ≠ msg.toPID →
    (r.SiblingsUnder pid msg.fromPID msg.toPID →
      (b'.getInbox pid).items = (b.getInbox pid).stamp now (parentCopy msg)::(b.getInbox pid).items) ∧
    (¬r.SiblingsUnder pid msg.fromPID msg.toPID → b'.getInbox pid = b.getInbox pid)

lemma copiesToParent_deliver {fuel : ℕ} {kind : RouteType}
    (h : r.findRoute fuel msg.fromPID msg.toPID = some (.ok kind)) :
    CopiesToParent b (b.deliver r now kind (prioritized r msg)).2 r now msg := by
  intro pid hpid
  obtain ⟨sender,receiver,hs,hr,-⟩ := Registry.findRoute_ok h
  have hkind := Registry.findRoute_sibling_iff h hs
  have hget : (b.deliver r now kind (prioritized r msg)).2.getInbox pid =
      if kind = .sibling ∧ pid = sender.ppid
      then ((b.getInbox pid).push now (parentCopy (prioritized r msg))).2 else b.getInbox pid :=
    getInbox_deliver_of_ne hs hpid
  constructor
  · intro hsib
    have hparent : pid = sender.ppid := by
      obtain ⟨sender',-,hs',-,hp,-⟩ := hsib
      obtain rfl := Option.some.inj (hs.symm.trans hs')
      exact hp.symm
    rw [hget,if_pos ⟨hkind.mpr (hparent ▸ hsib),hparent⟩]
    rfl
  · intro hnot
    rw [hget,if_neg]
    rintro ⟨hk,rfl⟩
    exact hnot (hkind.mp hk)

/-- The effect of a route. -/
theorem route_effect {result : Except String Message} (h : b.route r now msg = some (result,b')) :
    (∀ e, result = .error e → b' = b) ∧
    ∀ stamped, result = .ok stamped →
      (msg.toQueue ≠ "" → Enqueues b b' r now msg stamped ∧
        (∀ name, name ≠ msg.toQueue → b'.getNamedQueue name = b.getNamedQueue name) ∧
        ∀ pid, b'.getInbox pid = b.getInbox pid) ∧
      (msg.toQueue = "" → Delivers b b' r now msg stamped ∧ CopiesToParent b b' r now msg ∧
        ∀ name, b'.getNamedQueue name = b.getNamedQueue name) := by
  rcases route_cases h with ⟨e,rfl,rfl⟩ | ⟨-,hqueue,rfl,rfl⟩ | ⟨kind,-,hdirect,hfound,rfl,rfl⟩
  · refine ⟨fun _ _ => rfl,fun stamped hok => ?_⟩
    cases hok
  · refine ⟨fun e he => ?_,fun stamped hok => ⟨fun _ => ⟨?_,fun name hne => ?_,fun _ => rfl⟩,
      fun hempty => absurd hempty hqueue⟩⟩
    · cases he
    · cases hok
      refine ⟨rfl,?_⟩
      simp only [pushNamedQueue,getNamedQueue_set,if_true]
      rfl
    · simp only [pushNamedQueue,getNamedQueue_set,if_neg hne]
  · refine ⟨fun e he => ?_,fun stamped hok => ⟨fun hqueue => absurd hdirect hqueue,fun _ =>
      ⟨?_,copiesToParent_deliver hfound,fun name => getNamedQueue_deliver _ _ _ _ _ _⟩⟩⟩
    · cases he
    · obtain ⟨hstamped,hitems⟩ := inbox_of_deliver b now (prioritized r msg) hfound
      cases hok
      refine ⟨hstamped,?_⟩
      rw [hstamped]
      exact hitems

/-- On an acyclic table a route returns. -/
theorem route_isSome (h : Acyclic r.link) (b : Broker) (now : ℤ) (msg : Message) :
    (b.route r now msg).isSome := by
  have hfound : (r.findRoute r.nextPID msg.fromPID msg.toPID).isSome := by
    have hnca := (Registry.walksReturn_of_acyclic h le_rfl).nearestCommonAncestor msg.fromPID msg.toPID
    obtain ⟨answer,hanswer⟩ := Option.isSome_iff_exists.mp hnca
    unfold Registry.findRoute
    rw [hanswer]
    split
    · rfl
    · split
      · rfl
      · split_ifs
        · rfl
        · rfl
        · cases answer <;> rfl
  unfold route
  split
  · rfl
  · simp only
    split_ifs
    · rfl
    · rw [Option.isSome_map]
      exact hfound
    · rfl

/-- The king, a queen, and two workers below her. -/
def coworkers : Registry :=
  let queen := Registry.child (Registry.agentRequest 1 "queen" .daemon) none
  let worker := fun name => Registry.child (Registry.agentRequest 2 name .worker) none
  (((Registry.boot 0 "king" "root" "vps1").register 0 queen).register 0 (worker "worker-a")).register 0
    (worker "worker-b")

/-- What one worker writes to the other is copied to the queen. -/
theorem route_effect_siblings : ∃ stamped b',
    new.route coworkers 0 { fromPID := 3, toPID := 4, type := "sync", priority := priorityNormal } =
      some (.ok stamped,b') ∧
    (b'.getInbox 4).items = [stamped] ∧ (b'.getInbox 2).items.map Message.priority = [priorityLow] ∧
    b'.getInbox 1 = .new := by
  obtain ⟨stamped,b',h⟩ : ∃ stamped b', new.route coworkers 0
      { fromPID := 3, toPID := 4, type := "sync", priority := priorityNormal } = some (.ok stamped,b') :=
    ⟨_,_,rfl⟩
  obtain ⟨hdelivers,hcopies,-⟩ := ((route_effect h).2 stamped rfl).2 rfl
  refine ⟨stamped,b',h,hdelivers.2,?_,?_⟩
  · rw [(hcopies 2 (by decide)).1 ⟨_,_,rfl,rfl,rfl,rfl,by decide,by decide,by decide⟩]
    rfl
  · apply (hcopies 1 (by decide)).2
    rintro ⟨sender,receiver,hs,-,hparent,-⟩
    cases hs
    revert hparent
    decide

end Broker
end HiveKernel
