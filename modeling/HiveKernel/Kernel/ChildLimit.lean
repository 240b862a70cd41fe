import HiveKernel.Kernel.SpawnRace
import HiveKernel.Process.TreeInvariant
import Mathlib.Data.Finset.Card

/-! The limit on the number of children. A spawn compares it with a count that is out of date when the
child is registered, and a scan that moves the children of a zombie up does not look at it at all. -/
namespace HiveKernel
open Lib
namespace Registry
variable {r r' : Registry}

instance (r : Registry) (j pid : ℕ) : Decidable (r.ChildOf j pid) :=
  decidable_of_iff (∃ p ∈ r.get j, IsChild p pid) Iff.rfl

/-- The registered children of a process. -/
def children (r : Registry) (pid : ℕ) : Finset ℕ := (Finset.range r.nextPID).filter (fun j => r.ChildOf j pid)

lemma mem_children {pid j : ℕ} : j ∈ r.children pid ↔ r.ChildOf j pid := by
  simp only [children,Finset.mem_filter,Finset.mem_range]
  constructor
  · exact fun h => h.2
  · rintro ⟨p,hp,hc⟩
    exact ⟨(get_bound hp).2,p,hp,hc⟩

lemma countChildren_eq (r : Registry) (pid : ℕ) : r.countChildren pid = (r.children pid).card := by
  let v : r.Visits := ⟨fun _ => r.processes.keys,fun _ => List.Perm.refl _⟩
  have hmem := v.mem_getChildren [] pid
  have hnd : ((r.getChildren r.processes.keys pid).map Process.pid).Nodup := by
    apply List.Nodup.map_on ?_ (nodup_getChildren v [] pid)
    intro p hp q hq he
    exact Option.some.inj (((hmem p).mp hp).1.symm.trans (he ▸ ((hmem q).mp hq).1))
  have hset : ((r.getChildren r.processes.keys pid).map Process.pid).toFinset = r.children pid := by
    ext j
    rw [List.mem_toFinset,List.mem_map,mem_children]
    constructor
    · rintro ⟨p,hp,rfl⟩
      exact ⟨p,(hmem p).mp hp⟩
    · rintro ⟨p,hp,hc⟩
      obtain rfl := get_pid hp
      exact ⟨p,(hmem p).mpr ⟨hp,hc⟩,rfl⟩
  rw [← hset,List.toFinset_card_of_nodup hnd,List.length_map]
  rfl

/-- No process has more children than it may have. -/
def WithinLimits (r : Registry) : Prop :=
  ∀ pid p, r.get pid = some p → 0 < p.limits.maxChildren → r.countChildren pid ≤ p.limits.maxChildren.toNat

/-- A process with this PID, if there is one, may have another child. -/
def HasRoom (r : Registry) (pid : ℕ) : Prop :=
  ∀ p, r.get pid = some p → 0 < p.limits.maxChildren → r.countChildren pid < p.limits.maxChildren.toNat

instance (r : Registry) (pid : ℕ) : Decidable (r.HasRoom pid) :=
  decidable_of_iff (∀ p ∈ r.get pid, 0 < p.limits.maxChildren →
    r.countChildren pid < p.limits.maxChildren.toNat) Iff.rfl

/-- Entries only disappear, or change in what does not matter here. -/
structure Shrinks (r r' : Registry) : Prop where
  nextPID : r'.nextPID = r.nextPID
  entry : ∀ j p', r'.get j = some p' → ∃ p, r.get j = some p ∧ p'.ppid = p.ppid ∧ p'.limits = p.limits

lemma Shrinks.refl (r : Registry) : Shrinks r r := ⟨rfl,fun _ p' hp' => ⟨p',hp',rfl,rfl⟩⟩

lemma Shrinks.trans {r₁ r₂ r₃ : Registry} (h : Shrinks r₁ r₂) (h' : Shrinks r₂ r₃) : Shrinks r₁ r₃ := by
  refine ⟨h'.nextPID.trans h.nextPID,fun j p₃ hp₃ => ?_⟩
  obtain ⟨p₂,hp₂,hpp,hl⟩ := h'.entry j p₃ hp₃
  obtain ⟨p₁,hp₁,hpp',hl'⟩ := h.entry j p₂ hp₂
  exact ⟨p₁,hp₁,hpp.trans hpp',hl.trans hl'⟩

lemma shrinks_modify (r : Registry) (pid : ℕ) (fn : Process → Process) (hpid : ∀ p, (fn p).pid = p.pid)
    (hname : ∀ p, (fn p).name = p.name) (hfn : ∀ p, (fn p).ppid = p.ppid ∧ (fn p).limits = p.limits) :
    Shrinks r (r.modify pid fn hpid hname) := by
  refine ⟨nextPID_modify _ _ _ _ _,fun j p' hp' => ?_⟩
  rw [get_modify] at hp'
  split_ifs at hp'
  · obtain ⟨p,hp,rfl⟩ := Option.map_eq_some_iff.mp hp'
    exact ⟨p,hp,hfn p⟩
  · exact ⟨p',hp',rfl,rfl⟩

lemma shrinks_setState (r : Registry) (now : ℤ) (pid : ℕ) (state : ProcessState) :
    Shrinks r (r.setState now pid state) := by
  rw [setState,update]
  exact shrinks_modify r pid _ _ _ (fun _ => ⟨rfl,rfl⟩)

lemma shrinks_remove (r : Registry) (pid : ℕ) : Shrinks r (r.remove pid) := by
  refine ⟨nextPID_remove _ _,fun j p' hp' => ?_⟩
  rw [get_remove] at hp'
  split_ifs at hp'
  exact ⟨p',hp',rfl,rfl⟩

lemma Shrinks.children_subset (h : Shrinks r r') (pid : ℕ) : r'.children pid ⊆ r.children pid := by
  intro j hj
  obtain ⟨p',hp',hc⟩ := mem_children.mp hj
  obtain ⟨p,hp,hppid,-⟩ := h.entry j p' hp'
  refine mem_children.mpr ⟨p,hp,hppid ▸ hc.1,?_⟩
  rw [get_pid hp,← get_pid hp']
  exact hc.2

lemma Shrinks.withinLimits (h : Shrinks r r') (hw : r.WithinLimits) : r'.WithinLimits := by
  intro pid p' hp' hpos
  obtain ⟨p,hp,-,hlimits⟩ := h.entry pid p' hp'
  rw [hlimits] at hpos ⊢
  have hcount := hw pid p hp hpos
  rw [countChildren_eq] at hcount ⊢
  exact Nat.le_trans (Finset.card_le_card (h.children_subset pid)) hcount

/-- A new child under a parent that exists or existed. -/
lemma children_register {now : ℤ} {p : Process} (hppid : p.ppid < r.nextPID) (pid : ℕ) :
    (r.register now p).children pid =
      if pid = p.ppid then insert r.nextPID (r.children pid) else r.children pid := by
  ext j
  have hnew : (r.register now p).ChildOf j pid ↔
      (j = r.nextPID ∧ pid = p.ppid) ∨ (j ≠ r.nextPID ∧ r.ChildOf j pid) := by
    unfold ChildOf
    rw [get_register]
    by_cases hj : j = r.nextPID
    · simp only [hj,if_true,Option.some.injEq,exists_eq_left',true_and,ne_eq,not_true_eq_false,false_and,
        or_false]
      constructor
      · exact fun h => h.1.symm
      · intro h
        exact ⟨h.symm,fun he => by change r.nextPID = pid at he; omega⟩
    · simp [hj]
  have hold : r.ChildOf j pid → j ≠ r.nextPID := by
    rintro ⟨q,hq,-⟩ rfl
    rw [get_nextPID] at hq
    cases hq
  rw [mem_children,hnew]
  split_ifs with hp
  · rw [Finset.mem_insert,mem_children]
    tauto
  · rw [mem_children]
    tauto

/-- A child that is moved to another registered parent. -/
lemma children_tryReparent {now : ℤ} {child new : ℕ} {c : Process} (hc : r.get child = some c)
    (hnew : (r.get new).isSome) (hne : child ≠ new) (pid : ℕ) :
    (r.tryReparent now child new).children pid =
      if pid = new then insert child (r.children pid) else (r.children pid).erase child := by
  ext j
  have hmoved : (r.tryReparent now child new).ChildOf j pid ↔
      (j = child ∧ pid = new) ∨ (j ≠ child ∧ r.ChildOf j pid) := by
    unfold ChildOf
    rw [get_tryReparent]
    by_cases hj : j = child
    · simp only [hj,hnew,and_self,if_true,hc,Option.map_some,Option.some.injEq,exists_eq_left',true_and,
        ne_eq,not_true_eq_false,false_and,or_false]
      constructor
      · exact fun h => h.1.symm
      · intro h
        refine ⟨h.symm,fun he => ?_⟩
        have hpid : c.pid = pid := he
        rw [get_pid hc] at hpid
        omega
    · simp [hj]
  rw [mem_children,hmoved]
  split_ifs with hp
  · rw [Finset.mem_insert,mem_children]
    tauto
  · rw [Finset.mem_erase,mem_children]
    tauto

/-- A registration keeps the limits exactly if the parent has room. -/
lemma withinLimits_register_iff {now : ℤ} {p : Process} (hw : r.WithinLimits) (hppid : p.ppid < r.nextPID)
    (hnone : ∀ j, ¬r.ChildOf j r.nextPID) : (r.register now p).WithinLimits ↔ r.HasRoom p.ppid := by
  have hnew : r.nextPID ∉ r.children p.ppid := by
    rw [mem_children]
    rintro ⟨q,hq,-⟩
    rw [get_nextPID] at hq
    cases hq
  have hcount : (r.register now p).countChildren p.ppid = r.countChildren p.ppid+1 := by
    rw [countChildren_eq,countChildren_eq,children_register hppid,if_pos rfl,Finset.card_insert_of_notMem hnew]
  constructor
  · intro h q hq hpos
    have hget : (r.register now p).get p.ppid = some q := by
      rw [get_register,if_neg hppid.ne]
      exact hq
    have hle := h p.ppid q hget hpos
    omega
  · intro h pid q hq hpos
    rw [get_register] at hq
    split_ifs at hq with hpid
    · have hempty : (r.register now p).children pid = ∅ := by
        rw [children_register hppid,if_neg (by omega),hpid]
        ext j
        simp [mem_children,hnone j]
      rw [countChildren_eq,hempty,Finset.card_empty]
      exact Nat.zero_le _
    · by_cases hp : pid = p.ppid
      · subst hp
        have hroom := h q hq hpos
        omega
      · have hle := hw pid q hq hpos
        rw [countChildren_eq] at hle ⊢
        rw [children_register hppid,if_neg hp]
        exact hle

/-- So does a move of a child to another parent. -/
lemma withinLimits_tryReparent_iff {now : ℤ} {child new : ℕ} {c : Process} (hw : r.WithinLimits)
    (hc : r.get child = some c) (hne : child ≠ new) (hother : c.ppid ≠ new) :
    (r.tryReparent now child new).WithinLimits ↔ r.HasRoom new := by
  cases hnew : r.get new with
  | none =>
    have hsame : ∀ j, (r.tryReparent now child new).get j = r.get j := by
      intro j
      rw [get_tryReparent,if_neg]
      simp [hnew]
    have hshrinks : Shrinks r (r.tryReparent now child new) :=
      ⟨nextPID_tryReparent _ _ _ _,fun j p' hp' => ⟨p',(hsame j).symm.trans hp',rfl,rfl⟩⟩
    refine iff_of_true (hshrinks.withinLimits hw) (fun q hq => ?_)
    rw [hnew] at hq
    cases hq
  | some n =>
    have hsome : (r.get new).isSome := by simp [hnew]
    have hin : child ∉ r.children new := by
      rw [mem_children]
      rintro ⟨q,hq,hchild⟩
      obtain rfl : c = q := Option.some.inj (hc.symm.trans hq)
      exact hother hchild.1
    have hcount : (r.tryReparent now child new).countChildren new = r.countChildren new+1 := by
      rw [countChildren_eq,countChildren_eq,children_tryReparent hc hsome hne,if_pos rfl,
        Finset.card_insert_of_notMem hin]
    constructor
    · intro h q hq hpos
      have hget : (r.tryReparent now child new).get new = some q := by
        rw [get_tryReparent,if_neg (fun hx => hne hx.1.symm)]
        exact hq
      have hle := h new q hget hpos
      omega
    · intro h pid q' hq' hpos
      obtain ⟨q,hq,hlimits⟩ : ∃ q, r.get pid = some q ∧ q'.limits = q.limits := by
        rw [get_tryReparent] at hq'
        split_ifs at hq'
        · obtain ⟨q,hq,rfl⟩ := Option.map_eq_some_iff.mp hq'
          exact ⟨q,hq,rfl⟩
        · exact ⟨q',hq',rfl⟩
      rw [hlimits] at hpos ⊢
      by_cases hp : pid = new
      · subst hp
        have hroom := h q hq hpos
        omega
      · have hle := hw pid q hq hpos
        rw [countChildren_eq] at hle ⊢
        rw [children_tryReparent hc hsome hne,if_neg hp]
        exact Nat.le_trans (Finset.card_le_card (Finset.erase_subset _ _)) hle

end Registry

namespace SpawnCall

/-- The request of a call that has not registered its process yet. -/
def pending : SpawnCall → Option SpawnRequest
  | looking req | validating req _ | registering req _ => some req
  | _ => none

/-- The request of a call that registers its process next. -/
def registers : SpawnCall → Option SpawnRequest
  | registering req _ => some req
  | _ => none

end SpawnCall

namespace SpawnBoard
variable {s s' : SpawnBoard} {op : SpawnOp}

/-- A process is registered, or moved by the supervisor, only below a parent that has room for it. -/
def Respects (s : SpawnBoard) : SpawnOp → Prop
  | .advance i _ _ => ∀ call ∈ s.calls.get i, ∀ req ∈ call.registers, s.king.registry.HasRoom req.parentPID
  | .adopt _ zombie _ => ∀ z ∈ s.king.registry.get zombie, s.king.registry.HasRoom z.ppid
  | _ => True

instance decidableRespects (s : SpawnBoard) : (op : SpawnOp) → Decidable (s.Respects op)
  | .advance i _ _ => inferInstanceAs (Decidable (∀ call ∈ s.calls.get i, ∀ req ∈ call.registers,
      s.king.registry.HasRoom req.parentPID))
  | .adopt _ zombie _ => inferInstanceAs (Decidable (∀ z ∈ s.king.registry.get zombie,
      s.king.registry.HasRoom z.ppid))
  | .spawnChild .. | .setState .. | .reap .. | .createGroup .. => inferInstanceAs (Decidable True)

/-- Parents have smaller PIDs, also the parents of those that are about to be registered. -/
structure Placed (s : SpawnBoard) : Prop where
  ordered : s.king.registry.Ordered
  parents : ∀ i call req, s.calls.get i = some call → call.pending = some req →
    0 < req.parentPID ∧ req.parentPID < s.king.registry.nextPID

lemma shrinks_startChild (k : King) (req : SpawnRequest) (proc : Process) (launch : Except String String) :
    Registry.Shrinks k.registry (k.startChild req proc launch).2.registry := by
  have haddr : ∀ addr, Registry.Shrinks k.registry (King.setAddr k.registry proc.pid addr) :=
    fun addr => Registry.shrinks_modify _ _ _ _ _ (fun _ => ⟨rfl,rfl⟩)
  unfold King.startChild King.launchChild
  cases k.runtime with
  | none =>
    simp only [King.passTrace_registry]
    exact .refl _
  | some manager =>
    by_cases himg : req.runtimeImage = ""
    · simp only [if_pos himg,King.passTrace_registry]
      exact .refl _
    · simp only [if_neg himg]
      cases manager.startRuntime { proc with runtimeAddr := req.runtimeImage } req.runtimeType launch with
      | error e => exact (haddr _).trans (Registry.shrinks_remove _ _)
      | ok q =>
        simp only [King.passTrace_registry]
        exact haddr _

/-- What a step does to the table: it takes nothing in, registers the process of a call, or moves a
child of a zombie. -/
theorem step_registry (hs : s.step op = some s') :
    (Registry.Shrinks s.king.registry s'.king.registry ∧ s.Respects op) ∨
    (∃ i now launch req parent, op = .advance i now launch ∧
      s.calls.get i = some (.registering req parent) ∧
      s'.king.registry = s.king.registry.register now (Registry.child req parent)) ∨
    ∃ now zombie child z c, op = .adopt now zombie child ∧ s.king.registry.get zombie = some z ∧
      s.king.registry.get child = some c ∧ Registry.IsChild c zombie ∧
      s'.king.registry = s.king.registry.tryReparent now child z.ppid := by
  cases op with
  | spawnChild i req =>
    simp only [step] at hs
    split_ifs at hs
    split at hs <;> cases hs <;> exact .inl ⟨.refl _,trivial⟩
  | advance i now launch =>
    have hrespects : ∀ {call}, s.calls.get i = some call → call.registers = none →
        s.Respects (.advance i now launch) := by
      intro call hcall hnone c hc req hreq
      cases hcall.symm.trans hc
      rw [hnone] at hreq
      cases hreq
    cases advanced hs with
    | notFound e stage => exact .inl ⟨.refl _,hrespects stage rfl⟩
    | found stage hparent => exact .inl ⟨.refl _,hrespects stage rfl⟩
    | invalid e stage => exact .inl ⟨.refl _,hrespects stage rfl⟩
    | validated stage hvalid => exact .inl ⟨.refl _,hrespects stage rfl⟩
    | registered stage => exact .inr (.inl ⟨i,now,launch,_,_,rfl,stage,rfl⟩)
    | unfunded e stage => exact .inl ⟨Registry.shrinks_remove _ _,hrespects stage rfl⟩
    | funded budget stage => exact .inl ⟨.refl _,hrespects stage rfl⟩
    | ungrouped stage hgroup => exact .inl ⟨.refl _,hrespects stage rfl⟩
    | grouped stage hgroup => exact .inl ⟨.refl _,hrespects stage rfl⟩
    | joined stage hadd => exact .inl ⟨.refl _,hrespects stage rfl⟩
    | escaped stage hadd => exact .inl ⟨.refl _,hrespects stage rfl⟩
    | launched stage => exact .inl ⟨shrinks_startChild _ _ _ _,hrespects stage rfl⟩
  | setState now pid state =>
    cases hs
    exact .inl ⟨Registry.shrinks_setState _ _ _ _,trivial⟩
  | adopt now zombie child =>
    simp only [step] at hs
    split at hs
    next z c hz hc =>
      split_ifs at hs with hmove
      cases hs
      exact .inr (.inr ⟨now,zombie,child,z,c,rfl,hz,hc,hmove.2.1,rfl⟩)
    next => cases hs
  | reap zombie =>
    simp only [step] at hs
    split at hs
    next z hz =>
      split_ifs at hs
      cases hs
      exact .inl ⟨Registry.shrinks_remove _ _,trivial⟩
    next => cases hs
  | createGroup order name rootPID maxTokens maxProcs =>
    simp only [step] at hs
    obtain ⟨o,-,rfl⟩ := Option.map_eq_some_iff.mp hs
    cases o with
    | error e => exact .inl ⟨.refl _,trivial⟩
    | ok q => exact .inl ⟨.refl _,trivial⟩

lemma nextPID_le_step (hs : s.step op = some s') : s.king.registry.nextPID ≤ s'.king.registry.nextPID := by
  rcases step_registry hs with ⟨h,-⟩ | ⟨i,now,launch,req,parent,-,-,h⟩ | ⟨now,zombie,child,z,c,-,-,-,-,h⟩
  · exact h.nextPID.ge
  · rw [h]
    exact Nat.le_succ _
  · rw [h,Registry.nextPID_tryReparent]

/-- A call that still has to register its process did so before, or it has just been admitted. -/
lemma pending_step (hs : s.step op = some s') {i : ℕ} {call : SpawnCall} {req : SpawnRequest}
    (hi : s'.calls.get i = some call) (hreq : call.pending = some req) :
    (∃ old, s.calls.get i = some old ∧ old.pending = some req) ∨ (s.king.registry.get req.parentPID).isSome := by
  have hset : ∀ {j new} {t : SpawnBoard}, t.calls = s.calls → (t.goOn j new).calls.get i = some call →
      (new.pending = some req → (∃ old, s.calls.get j = some old ∧ old.pending = some req) ∨
        (s.king.registry.get req.parentPID).isSome) →
      (∃ old, s.calls.get i = some old ∧ old.pending = some req) ∨
        (s.king.registry.get req.parentPID).isSome := by
    intro j new t ht hi hnew
    simp only [goOn,ht] at hi
    rcases Table.get_set_some hi with ⟨rfl,rfl⟩ | ⟨-,hi⟩
    · exact hnew hreq
    · exact .inl ⟨call,hi,hreq⟩
  cases op with
  | spawnChild j req' =>
    simp only [step] at hs
    split_ifs at hs
    split at hs
    · cases hs
      exact hset rfl hi (by simp [SpawnCall.pending])
    next u hadm =>
      cases hs
      refine hset rfl hi (fun he => .inr ?_)
      cases he
      exact King.aclCheck_ok (King.admission_ok hadm).1
  | advance j now launch =>
    cases advanced hs with
    | notFound e stage => exact hset rfl hi (by simp [SpawnCall.pending])
    | found stage hparent => exact hset rfl hi (fun he => .inl ⟨_,stage,he⟩)
    | invalid e stage => exact hset rfl hi (by simp [SpawnCall.pending])
    | validated stage hvalid => exact hset rfl hi (fun he => .inl ⟨_,stage,he⟩)
    | registered stage => exact hset rfl hi (by simp [SpawnCall.pending])
    | unfunded e stage => exact hset rfl hi (by simp [SpawnCall.pending])
    | funded budget stage => exact hset rfl hi (by simp [SpawnCall.pending])
    | ungrouped stage hgroup => exact hset rfl hi (by simp [SpawnCall.pending])
    | grouped stage hgroup => exact hset rfl hi (by simp [SpawnCall.pending])
    | joined stage hadd => exact hset rfl hi (by simp [SpawnCall.pending])
    | escaped stage hadd => exact hset rfl hi (by simp [SpawnCall.pending])
    | launched stage => exact hset rfl hi (by simp [SpawnCall.pending])
  | setState now pid state =>
    cases hs
    exact .inl ⟨call,hi,hreq⟩
  | adopt now zombie child =>
    simp only [step] at hs
    split at hs
    next z c hz hc =>
      split_ifs at hs
      cases hs
      exact .inl ⟨call,hi,hreq⟩
    next => cases hs
  | reap zombie =>
    simp only [step] at hs
    split at hs
    next z hz =>
      split_ifs at hs
      cases hs
      exact .inl ⟨call,hi,hreq⟩
    next => cases hs
  | createGroup order name rootPID maxTokens maxProcs =>
    simp only [step] at hs
    obtain ⟨o,-,rfl⟩ := Option.map_eq_some_iff.mp hs
    cases o with
    | error e => exact .inl ⟨call,hi,hreq⟩
    | ok q => exact .inl ⟨call,hi,hreq⟩

/-- A move to the parent of a zombie goes to a smaller PID again. -/
lemma Placed.ordered_adopt (h : s.Placed) {now : ℤ} {zombie child : ℕ} {z c : Process}
    (hz : s.king.registry.get zombie = some z) (hc : s.king.registry.get child = some c)
    (hchild : Registry.IsChild c zombie) : (s.king.registry.tryReparent now child z.ppid).Ordered := by
  have hbound := Registry.get_bound hz
  have hzlt := h.ordered.ppid_lt hz
  have hclt := h.ordered.ppid_lt hc
  rw [hchild.1] at hclt
  constructor
  · intro p hp
    rw [Registry.get_tryReparent] at hp
    split_ifs at hp with hmove
    · omega
    · exact h.ordered.root p hp
  · intro k p hp hk
    rw [Registry.get_tryReparent] at hp
    split_ifs at hp with hmove
    · obtain ⟨q,-,rfl⟩ := Option.map_eq_some_iff.mp hp
      obtain ⟨n,hn⟩ := Option.isSome_iff_exists.mp hmove.2
      have hpos := (Registry.get_bound hn).1
      change 0 < z.ppid ∧ z.ppid < k
      omega
    · exact h.ordered.lower k p hp hk

lemma Placed.ordered_register (h : s.Placed) {i : ℕ} {now : ℤ} {req : SpawnRequest} {parent : Option Process}
    (stage : s.calls.get i = some (.registering req parent)) :
    (s.king.registry.register now (Registry.child req parent)).Ordered := by
  have hb := h.parents i _ req stage rfl
  constructor
  · intro p hp
    rw [Registry.get_register] at hp
    split_ifs at hp with hk
    · omega
    · exact h.ordered.root p hp
  · intro k p hp hk
    rw [Registry.get_register] at hp
    split_ifs at hp with hn
    · cases hp
      change 0 < req.parentPID ∧ req.parentPID < k
      omega
    · exact h.ordered.lower k p hp hk

theorem placed_step (h : s.Placed) (hs : s.step op = some s') : s'.Placed := by
  constructor
  · rcases step_registry hs with ⟨hshrinks,-⟩ | ⟨i,now,launch,req,parent,-,stage,he⟩ |
      ⟨now,zombie,child,z,c,-,hz,hc,hchild,he⟩
    · apply h.ordered.of_ppid
      intro k p' hp'
      obtain ⟨p,hp,hppid,-⟩ := hshrinks.entry k p' hp'
      exact ⟨p,hp,hppid⟩
    · rw [he]
      exact h.ordered_register stage
    · rw [he]
      exact h.ordered_adopt hz hc hchild
  · intro i call req hi hreq
    have hmono := nextPID_le_step hs
    rcases pending_step hs hi hreq with ⟨old,hold,hreq'⟩ | hparent
    · have hb := h.parents i old req hold hreq'
      omega
    · obtain ⟨p,hp⟩ := Option.isSome_iff_exists.mp hparent
      have hb := Registry.get_bound hp
      omega

/-- One step keeps the limits exactly if it respects them. -/
theorem withinLimits_step_iff (h : s.Placed) (hw : s.king.registry.WithinLimits)
    (hs : s.step op = some s') : s'.king.registry.WithinLimits ↔ s.Respects op := by
  rcases step_registry hs with ⟨hshrinks,hresp⟩ | ⟨i,now,launch,req,parent,rfl,stage,he⟩ |
    ⟨now,zombie,child,z,c,rfl,hz,hc,hchild,he⟩
  · exact iff_of_true (hshrinks.withinLimits hw) hresp
  · have hb := h.parents i _ req stage rfl
    have hnone : ∀ j, ¬s.king.registry.ChildOf j s.king.registry.nextPID := by
      rintro j ⟨p,hp,hpp⟩
      have hlt := h.ordered.ppid_lt hp
      have hbound := (Registry.get_bound hp).2
      rw [hpp.1] at hlt
      omega
    rw [he,Registry.withinLimits_register_iff hw hb.2 hnone]
    constructor
    · intro hroom call hcall req' hreq'
      cases stage.symm.trans hcall
      cases hreq'
      exact hroom
    · exact fun hresp => hresp _ stage req rfl
  · have hzlt := h.ordered.ppid_lt hz
    have hclt := h.ordered.ppid_lt hc
    have hpp := hchild.1
    rw [he,Registry.withinLimits_tryReparent_iff hw hc (by omega) (by omega)]
    constructor
    · intro hroom z' hz'
      obtain rfl : z = z' := Option.some.inj (hz.symm.trans hz')
      exact hroom
    · exact fun hresp => hresp z hz

lemma placed_start (cfg : Config) (now : ℤ) (runtime : Option RuntimeManager) :
    (start (King.new cfg now runtime)).Placed := by
  refine ⟨Registry.boot_ordered now "king" cfg.kernelUser cfg.nodeName,fun i call req hi => ?_⟩
  cases hi

lemma withinLimits_start (cfg : Config) (now : ℤ) (runtime : Option RuntimeManager) :
    (start (King.new cfg now runtime)).king.registry.WithinLimits := by
  intro pid p hp hpos
  have hnone : (start (King.new cfg now runtime)).king.registry.countChildren pid = 0 := by
    rw [Registry.countChildren_eq,Finset.card_eq_zero]
    ext j
    simp only [Registry.mem_children,Finset.notMem_empty,iff_false]
    rintro ⟨q,hq,hchild⟩
    have hq' := (Registry.get_boot now "king" cfg.kernelUser cfg.nodeName j).symm.trans hq
    split_ifs at hq'
    cases hq'
    have hpid := (Registry.get_bound hp).1
    have hzero : 0 = pid := hchild.1
    omega
  omega

/-- In every interleaving nobody has more children than allowed exactly if every process is
registered, and every child of a zombie moved, below a parent with room. -/
theorem withinLimits_iff_of_run {cfg : Config} {now : ℤ} {runtime : Option RuntimeManager}
    {trace : List (Transition SpawnBoard SpawnOp)}
    (run : Run step (start (King.new cfg now runtime)) trace s) :
    ((start (King.new cfg now runtime)).king.registry.WithinLimits ∧
      ∀ e ∈ trace, e.target.king.registry.WithinLimits) ↔ ∀ e ∈ trace, e.source.Respects e.label := by
  have h0 := withinLimits_start cfg now runtime
  rw [and_iff_right h0]
  apply run.good_iff_allowed (fun s => s.Placed ∧ s.king.registry.WithinLimits)
    (fun s => s.king.registry.WithinLimits) Respects
  · rintro s op s' ⟨hplaced,hwithin⟩ hs
    have hiff := withinLimits_step_iff hplaced hwithin hs
    exact ⟨hiff,fun hresp => ⟨placed_step hplaced hs,hiff.mpr hresp⟩⟩
  · exact ⟨placed_start cfg now runtime,h0⟩

/-- A lead that may have one child. -/
def smallLead : SpawnRequest :=
  { Registry.agentRequest 1 "lead" .lead with limits := { maxChildren := 1 } }

/-- The lead gets a worker and is refused a second one. When it is reaped, the worker moves up. -/
theorem withinLimits_iff_of_run_refusedWorker : ∃ trace s,
    Run step (start (King.new King.exampleConfig 0 none)) trace s ∧ s.king.registry.countChildren 1 = 1 ∧
    s.king.registry.get 2 = none ∧ ∀ e ∈ trace, e.target.king.registry.WithinLimits := by
  let ops := alone 0 smallLead ++ alone 1 (Registry.agentRequest 2 "worker" .worker) ++
    [.spawnChild 2 (Registry.agentRequest 2 "worker2" .worker),go 2,go 2,.setState 0 2 .zombie,.adopt 0 2 3,
      .reap 2]
  obtain ⟨s,hs,hcount,hgone⟩ : ∃ s, exec step ops (start (King.new King.exampleConfig 0 none)) = some s ∧
      s.king.registry.countChildren 1 = 1 ∧ s.king.registry.get 2 = none := ⟨_,rfl,rfl,rfl⟩
  exact ⟨_,s,Run.of_exec hs,hcount,hgone,
    ((withinLimits_iff_of_run (Run.of_exec hs)).mpr (by decide)).2⟩

/-- Two spawns count the children of the lead before either registers one. -/
theorem concurrent_spawns_exceed_limit :
    ¬ ∀ (cfg : Config) (now : ℤ) (runtime : Option RuntimeManager)
      (trace : List (Transition SpawnBoard SpawnOp)) (s : SpawnBoard),
      Run step (start (King.new cfg now runtime)) trace s → s.king.registry.WithinLimits := by
  intro h
  let ops := alone 0 smallLead ++
    [.spawnChild 1 (Registry.agentRequest 2 "worker" .worker),go 1,go 1,
      .spawnChild 2 (Registry.agentRequest 2 "worker2" .worker),go 2,go 2,go 1,go 2]
  obtain ⟨s,p,hs,hp,hmax,hcount⟩ : ∃ s p,
      exec step ops (start (King.new King.exampleConfig 0 none)) = some s ∧
      s.king.registry.get 2 = some p ∧ p.limits.maxChildren = 1 ∧ s.king.registry.countChildren 2 = 2 :=
    ⟨_,_,rfl,rfl,rfl,rfl⟩
  have hle := h _ _ _ _ s (Run.of_exec hs) 2 p hp (by rw [hmax]; decide)
  rw [hmax,hcount] at hle
  exact absurd hle (by decide)

end SpawnBoard
end HiveKernel
