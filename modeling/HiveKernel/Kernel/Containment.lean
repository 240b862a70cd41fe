import HiveKernel.Kernel.SpawnRace
import HiveKernel.Resources.CGroupIndex
import Mathlib.Data.Set.Card

/-! Groups and concurrent spawns. Whether the group of the parent has room is checked long before the
child is added, and the error of the second check is discarded: a child that finds the group full by
then is spawned outside of it. `Create` does not compare the size of its subtree with the limit. -/
namespace HiveKernel
open Lib

namespace CGroupManager
variable {m m' : CGroupManager} {op : GroupOp}

/-- The members of a group, if there is a group of that name. -/
def membersOf (m : CGroupManager) (name : String) : Finset ℕ :=
  ((m.groups.get name).map CGroup.members).getD ∅

lemma membersOf_eq {name : String} {g : CGroup} (hg : m.groups.get name = some g) :
    m.membersOf name = g.members := by
  simp [membersOf,hg]

/-- A group is stored under its name. -/
def Named (m : CGroupManager) : Prop := ∀ name g, m.groups.get name = some g → g.name = name

lemma Named.removeProcess (h : m.Named) (pid : ℕ) : (m.removeProcess pid).Named := by
  intro n g hg
  rw [groups_removeProcess] at hg
  split_ifs at hg
  · obtain ⟨g₀,hg₀,rfl⟩ := Option.map_eq_some_iff.mp hg
    exact h n g₀ hg₀
  · exact h n g hg

lemma Named.addProcess (h : m.Named) {name : String} {pid : ℕ} (ha : m.addProcess name pid = .ok m') :
    m'.Named := by
  rcases addProcess_ok ha with ⟨rfl,-⟩ | ⟨-,-,-,-,hgroups,-⟩
  · exact h
  · intro n g hg
    rw [hgroups,get_enter] at hg
    split_ifs at hg
    · obtain ⟨g₀,hg₀,rfl⟩ := Option.map_eq_some_iff.mp hg
      exact h.removeProcess pid n g₀ hg₀
    · exact h.removeProcess pid n g hg

theorem named_step (h : m.Named) (hs : m.groupStep op = some m') : m'.Named := by
  rcases groupStep_cases hs with ⟨rfl,-⟩ | ⟨r,visits,name,rootPID,maxTokens,maxProcs,g,rfl,hc⟩ |
    ⟨order,name,rfl,horder,hd⟩ | ⟨name,pid,rfl,ha⟩ | ⟨pid,rfl,rfl⟩ | ⟨pid,tokens,rfl,hc⟩
  · exact h
  · obtain ⟨hname,hgroups,-⟩ := create_ok hc
    intro n g₁ hg₁
    rw [hgroups] at hg₁
    rcases Table.get_set_some hg₁ with ⟨rfl,rfl⟩ | ⟨-,hg₁⟩
    · exact hname
    · exact h n g₁ hg₁
  · obtain ⟨-,-,hgroups,-⟩ := delete_ok horder hd
    intro n g hg
    rw [hgroups] at hg
    exact h n g (Table.get_erase_some hg).2
  · exact h.addProcess ha
  · exact h.removeProcess pid
  · intro n g' hg'
    obtain ⟨g,hg,hname,-⟩ := (consumeTokens_ok hc).get hg'
    exact hname.symm.trans (h n g hg)

lemma named_of_run {history : List (Transition CGroupManager GroupOp)} (run : Run groupStep new history m) :
    m.Named :=
  (run.invariant (fun _ _ _ h hs => named_step h hs) (fun n g (hg : new.groups.get n = some g) => by cases hg)).2

lemma sound_of_run {history : List (Transition CGroupManager GroupOp)} (run : Run groupStep new history m) :
    m.Sound := (run.invariant (fun _ _ _ h hs => sound_step h hs) sound_new).2

/-- The records about one group are right, and it is not too large. -/
structure Holds (m : CGroupManager) (name : String) (maxProcs : ℤ) : Prop where
  found : ∃ g, m.groups.get name = some g ∧ g.name = name ∧ g.maxProcesses = maxProcs ∧
    g.processCount = g.members.card ∧ (0 < maxProcs → (g.members.card : ℤ) ≤ maxProcs)
  index : ∀ j, j ∈ m.membersOf name ↔ m.pidGroup.get j = some name

variable {name : String} {maxProcs : ℤ}

/-- The group of one of its members is found. -/
lemma Holds.getByPID (h : m.Holds name maxProcs) {j : ℕ} (hj : j ∈ m.membersOf name) :
    ∃ g, m.getByPID j = some g ∧ g.name = name := by
  obtain ⟨g,hg,hname,-⟩ := h.found
  refine ⟨g,?_,hname⟩
  simp only [CGroupManager.getByPID,(h.index j).mp hj,hg]

/-- A process that is not a member is added to some group. -/
lemma Holds.addProcess (h : m.Holds name maxProcs) {group : String} {pid : ℕ}
    (hpid : pid ∉ m.membersOf name) (ha : m.addProcess group pid = .ok m') :
    m'.Holds name maxProcs ∧
      m'.membersOf name = if group = name then insert pid (m.membersOf name) else m.membersOf name := by
  obtain ⟨g,hg,hname,hmax,hcount,hbound⟩ := h.found
  have hmembers := membersOf_eq hg
  have hnot : m.pidGroup.get pid ≠ some name := fun hi => hpid ((h.index pid).mpr hi)
  rw [hmembers] at hpid
  rcases addProcess_ok ha with ⟨rfl,g₁,hg₁,hin⟩ | ⟨g₁,hg₁,-,hroom,hgroups,hindex⟩
  · refine ⟨h,?_⟩
    rw [if_neg]
    rintro rfl
    obtain rfl : g = g₁ := Option.some.inj (hg.symm.trans hg₁)
    exact hpid hin
  have hleft : (m.removeProcess pid).groups.get name = some g := by
    rw [groups_removeProcess,if_neg hnot]
    exact hg
  by_cases hgroup : group = name
  · subst hgroup
    obtain rfl : g = g₁ := Option.some.inj (hg.symm.trans hg₁)
    have hnew : m'.groups.get group = some (including pid g) := by
      rw [hgroups,get_enter,if_pos rfl,hleft]
      rfl
    have hset : m'.membersOf group = insert pid (m.membersOf group) := by
      rw [membersOf_eq hnew,hmembers]
      rfl
    have hcard : (including pid g).members.card = g.members.card+1 := Finset.card_insert_of_notMem hpid
    rw [if_pos rfl]
    refine ⟨⟨⟨including pid g,hnew,hname,hmax,?_,?_⟩,fun j => ?_⟩,hset⟩
    · rw [hcard]
      change g.processCount+1 = _
      omega
    · intro hpos
      unfold AtMaxProcesses at hroom
      omega
    · rw [hset,hindex,Finset.mem_insert,h.index]
      by_cases hj : j = pid
      · simp [hj]
      · simp [hj]
  · have hsame : m'.groups.get name = some g := by
      rw [hgroups,get_enter,if_neg (Ne.symm hgroup)]
      exact hleft
    have hset : m'.membersOf name = m.membersOf name := by
      rw [membersOf_eq hsame,hmembers]
    rw [if_neg hgroup]
    refine ⟨⟨⟨g,hsame,hname,hmax,hcount,hbound⟩,fun j => ?_⟩,hset⟩
    rw [hset,hindex,h.index]
    by_cases hj : j = pid
    · simp [hj,hnot,hgroup]
    · simp [hj]

/-- The group takes the process if it is not at its maximum. -/
lemma Holds.addProcess_isOk (h : m.Holds name maxProcs) {pid : ℕ} {e : String}
    (hroom : ∀ g ∈ m.groups.get name, ¬AtMaxProcesses g) : m.addProcess name pid ≠ .error e := by
  obtain ⟨g,hg,-⟩ := h.found
  intro ha
  simp only [CGroupManager.addProcess,hg] at ha
  split_ifs at ha with hmem hmax
  exact hroom g hg hmax

/-- The members of a new group are counted. -/
lemma ncard_subtree {r : Registry} {visits : r.Visits} {rootPID : ℕ} {maxTokens : UInt64} {g : CGroup}
    (hc : m.create r visits.order name rootPID maxTokens maxProcs = some (.ok (g,m'))) :
    Set.ncard { j | InSubtree r j rootPID } = g.members.card := by
  obtain ⟨-,-,-,-,hmem,-⟩ := create_spec hc
  rw [← Set.ncard_coe_finset]
  congr 1
  ext j
  exact (hmem j).symm

/-- A group that was just created, over no more processes than it may have. -/
lemma holds_create {r : Registry} {visits : r.Visits} {rootPID : ℕ} {maxTokens : UInt64} {g : CGroup}
    (hs : m.Sound) (hc : m.create r visits.order name rootPID maxTokens maxProcs = some (.ok (g,m')))
    (hfits : 0 < maxProcs → (Set.ncard { j | InSubtree r j rootPID } : ℤ) ≤ maxProcs) :
    m'.Holds name maxProcs ∧ ∀ j ∈ m'.membersOf name, (r.get j).isSome := by
  obtain ⟨hnew,-,hcount,hmax,-,hgroups,hindex⟩ := create_spec hc
  obtain ⟨hname,-,hreg,-⟩ := create_ok hc
  have hget : m'.groups.get name = some g := by
    rw [hgroups]
    exact Table.get_set_self _ _ _
  refine ⟨⟨⟨g,hget,hname,hmax,hcount,?_⟩,fun j => ?_⟩,?_⟩
  · rw [← ncard_subtree hc]
    exact hfits
  · rw [membersOf_eq hget,hindex]
    split_ifs with hj
    · simp [hj]
    · simp only [hj,false_iff]
      intro hi
      obtain ⟨g₁,hg₁,-⟩ := hs.indexed j name hi
      rw [hnew] at hg₁
      cases hg₁
  · rw [membersOf_eq hget]
    exact hreg

end CGroupManager

namespace SpawnCall

/-- The parent, until its group has been looked up. -/
def parent : SpawnCall → Option ℕ
  | looking req | validating req _ | registering req _ | funding req _ | finding req _ => some req.parentPID
  | _ => none

/-- The process that has been registered, until the group has been asked to take it. -/
def unjoined : SpawnCall → Option Process
  | funding _ proc | finding _ proc | joining _ proc _ => some proc
  | _ => none

/-- The group that is asked next. -/
def joins : SpawnCall → Option String
  | joining _ _ group => some group
  | _ => none

/-- The process, once the call is through with the groups, unless it failed. -/
def settled : SpawnCall → Option Process
  | launching _ proc | returned (.ok proc) => some proc
  | _ => none

end SpawnCall

/-- The running spawns, with those noted whose parent was a member of the watched group at one of
their steps up to the look at its group. No step looks at the notes. -/
structure Watched where
  board : SpawnBoard
  under : Finset ℕ

namespace Watched
open CGroupManager
variable {w w' : Watched} {op : SpawnOp} {name : String} {maxProcs : ℤ}

/-- The call that a step belongs to, with its parent, up to the look at the group. -/
def asker (s : SpawnBoard) : SpawnOp → Option (ℕ × ℕ)
  | .spawnChild i req => some (i,req.parentPID)
  | .advance i _ _ => ((s.calls.get i).bind SpawnCall.parent).map (i,·)
  | _ => none

def note (name : String) (w : Watched) (op : SpawnOp) : Finset ℕ :=
  match asker w.board op with
  | none => w.under
  | some (i,parent) => if parent ∈ w.board.king.cgroups.membersOf name then insert i w.under else w.under

def step (name : String) (w : Watched) (op : SpawnOp) : Option Watched :=
  (w.board.step op).map (fun board => ⟨board,note name w op⟩)

/-- Nobody spawns yet. -/
def opened (k : King) : Watched := ⟨.start k,∅⟩

/-- What was spawned under a member is a member. -/
def Contained (name : String) (w : Watched) : Prop :=
  ∀ i proc, w.board.calls.get i = some (.returned (.ok proc)) → i ∈ w.under →
    proc.pid ∈ w.board.king.cgroups.membersOf name

/-- The group is not larger than it may be. -/
def Bounded (name : String) (w : Watched) : Prop :=
  ∀ g, w.board.king.cgroups.groups.get name = some g → 0 < g.maxProcesses →
    (g.members.card : ℤ) ≤ g.maxProcesses

/-- Later steps: spawns, and whatever the supervisor and the signals do to processes. -/
def IsLater : SpawnOp → Prop
  | .createGroup .. => False
  | _ => True

/-- A spawn that asks the group to take its process finds the group below its maximum. -/
def FindsPlace (name : String) (w : Watched) : SpawnOp → Prop
  | .advance i _ _ => ∀ call ∈ w.board.calls.get i, call.joins = some name →
      ∀ g ∈ w.board.king.cgroups.groups.get name, ¬AtMaxProcesses g
  | _ => True

instance : DecidablePred IsLater
  | .createGroup .. => inferInstanceAs (Decidable False)
  | .spawnChild .. | .advance .. | .setState .. | .adopt .. | .reap .. => inferInstanceAs (Decidable True)

instance (name : String) (w : Watched) : DecidablePred (FindsPlace name w)
  | .advance i _ _ => inferInstanceAs (Decidable (∀ call ∈ w.board.calls.get i, call.joins = some name →
      ∀ g ∈ w.board.king.cgroups.groups.get name, ¬AtMaxProcesses g))
  | .createGroup .. | .spawnChild .. | .setState .. | .adopt .. | .reap .. => inferInstanceAs (Decidable True)

/-- What the steps keep. -/
structure Guarded (name : String) (maxProcs : ℤ) (w : Watched) : Prop where
  holds : w.board.king.cgroups.Holds name maxProcs
  named : w.board.king.cgroups.Named
  known : ∀ j ∈ w.board.king.cgroups.membersOf name, j < w.board.king.registry.nextPID
  procs : ∀ i call proc, w.board.calls.get i = some call → call.unjoined = some proc →
    proc.pid < w.board.king.registry.nextPID ∧ proc.pid ∉ w.board.king.cgroups.membersOf name
  distinct : ∀ i j call call' p q, w.board.calls.get i = some call → w.board.calls.get j = some call' →
    call.unjoined = some p → call'.unjoined = some q → p.pid = q.pid → i = j
  called : ∀ i ∈ w.under, (w.board.calls.get i).isSome
  parents : ∀ i call p, w.board.calls.get i = some call → i ∈ w.under → call.parent = some p →
    p ∈ w.board.king.cgroups.membersOf name
  joins : ∀ i call group, w.board.calls.get i = some call → i ∈ w.under → call.joins = some group →
    group = name
  settled : ∀ i call proc, w.board.calls.get i = some call → i ∈ w.under → call.settled = some proc →
    proc.pid ∈ w.board.king.cgroups.membersOf name

lemma Guarded.contained (h : Guarded name maxProcs w) : Contained name w :=
  fun i proc hi hu => h.settled i _ proc hi hu rfl

lemma Guarded.bounded (h : Guarded name maxProcs w) : Bounded name w := by
  intro g hg hpos
  obtain ⟨g',hg',-,hmax,-,hbound⟩ := h.holds.found
  obtain rfl : g = g' := Option.some.inj (hg.symm.trans hg')
  rw [hmax] at hpos ⊢
  exact hbound hpos

lemma mem_note {i : ℕ} (hi : i ∈ note name w op) :
    i ∈ w.under ∨ ∃ parent, asker w.board op = some (i,parent) ∧
      parent ∈ w.board.king.cgroups.membersOf name := by
  unfold note at hi
  split at hi
  · exact .inl hi
  next j parent hasker =>
    split_ifs at hi with hp
    · rcases Finset.mem_insert.mp hi with rfl | hi
      · exact .inr ⟨parent,hasker,hp⟩
      · exact .inl hi
    · exact .inl hi

/-- A step that goes on with call `i`. The group takes in nobody but the process of that call, and
notes are made about nobody else. -/
lemma Guarded.goOn (h : Guarded name maxProcs w) {king : King} {i : ℕ} {new : SpawnCall} {under : Finset ℕ}
    (hholds : king.cgroups.Holds name maxProcs) (hnamed : king.cgroups.Named)
    (hnext : w.board.king.registry.nextPID ≤ king.registry.nextPID)
    (hmono : w.board.king.cgroups.membersOf name ⊆ king.cgroups.membersOf name)
    (hgrow : ∀ j ∈ king.cgroups.membersOf name, j ∈ w.board.king.cgroups.membersOf name ∨
      ∃ old p, w.board.calls.get i = some old ∧ old.unjoined = some p ∧ p.pid = j ∧ new.unjoined = none)
    (hnew : ∀ p, new.unjoined = some p →
      (∃ old, w.board.calls.get i = some old ∧ old.unjoined = some p) ∨
      (p.pid = w.board.king.registry.nextPID ∧ p.pid < king.registry.nextPID))
    (hunder : ∀ j ∈ under, j ≠ i → j ∈ w.under)
    (hparent : i ∈ under → ∀ p, new.parent = some p → p ∈ king.cgroups.membersOf name)
    (hjoins : i ∈ under → ∀ group, new.joins = some group → group = name)
    (hsettled : i ∈ under → ∀ proc, new.settled = some proc → proc.pid ∈ king.cgroups.membersOf name) :
    Guarded name maxProcs ⟨⟨king,w.board.calls.set i new⟩,under⟩ := by
  have hold : ∀ j call, (w.board.calls.set i new).get j = some call →
      (j = i ∧ call = new) ∨ (j ≠ i ∧ w.board.calls.get j = some call) :=
    fun j call hj => Table.get_set_some hj
  have hapart : ∀ j call p q, j ≠ i → w.board.calls.get j = some call → call.unjoined = some p →
      new.unjoined = some q → p.pid ≠ q.pid := by
    intro j call p q hne hj hp hq he
    rcases hnew q hq with ⟨old,hi,hold'⟩ | ⟨hq',-⟩
    · exact hne (h.distinct j i call old p q hj hi hp hold' he)
    · have := (h.procs j call p hj hp).1
      omega
  constructor
  · exact hholds
  · exact hnamed
  · intro j hj
    rcases hgrow j hj with hj | ⟨old,p,hi,hp,rfl,-⟩
    · exact Nat.lt_of_lt_of_le (h.known j hj) hnext
    · exact Nat.lt_of_lt_of_le (h.procs i old p hi hp).1 hnext
  · intro j call p hj hp
    rcases hold j call hj with ⟨rfl,rfl⟩ | ⟨hne,hj⟩
    · rcases hnew p hp with ⟨old,hi,hp'⟩ | ⟨hp',hlt⟩
      · refine ⟨Nat.lt_of_lt_of_le (h.procs j old p hi hp').1 hnext,fun hmem => ?_⟩
        rcases hgrow p.pid hmem with hmem | ⟨-,-,-,-,-,hnone⟩
        · exact (h.procs j old p hi hp').2 hmem
        · rw [hp] at hnone
          cases hnone
      · refine ⟨hlt,fun hmem => ?_⟩
        rcases hgrow p.pid hmem with hmem | ⟨-,-,-,-,-,hnone⟩
        · have := h.known p.pid hmem
          omega
        · rw [hp] at hnone
          cases hnone
    · refine ⟨Nat.lt_of_lt_of_le (h.procs j call p hj hp).1 hnext,fun hmem => ?_⟩
      rcases hgrow p.pid hmem with hmem | ⟨old,q,hi,hq,he,-⟩
      · exact (h.procs j call p hj hp).2 hmem
      · exact hne (h.distinct j i call old p q hj hi hp hq he.symm)
  · intro j k call call' p q hj hk hp hq he
    rcases hold j call hj with ⟨rfl,rfl⟩ | ⟨hne,hj⟩
    · rcases hold k call' hk with ⟨rfl,-⟩ | ⟨hne',hk⟩
      · rfl
      · exact absurd he.symm (hapart k call' q p hne' hk hq hp)
    · rcases hold k call' hk with ⟨hki,hnewcall⟩ | ⟨hne',hk⟩
      · exact absurd he (hapart j call p q hne hj hp (hnewcall ▸ hq))
      · exact h.distinct j k call call' p q hj hk hp hq he
  · intro j hj
    by_cases hji : j = i
    · subst hji
      exact Option.isSome_iff_exists.mpr ⟨new,Table.get_set_self _ _ _⟩
    · exact Table.isSome_get_set i new (h.called j (hunder j hj hji))
  · intro j call p hj hu hp
    rcases hold j call hj with ⟨rfl,rfl⟩ | ⟨hne,hj⟩
    · exact hparent hu p hp
    · exact hmono (h.parents j call p hj (hunder j hu hne) hp)
  · intro j call group hj hu hg
    rcases hold j call hj with ⟨rfl,rfl⟩ | ⟨hne,hj⟩
    · exact hjoins hu group hg
    · exact h.joins j call group hj (hunder j hu hne) hg
  · intro j call proc hj hu hp
    rcases hold j call hj with ⟨rfl,rfl⟩ | ⟨hne,hj⟩
    · exact hsettled hu proc hp
    · exact hmono (h.settled j call proc hj (hunder j hu hne) hp)

/-- What a note about a call that goes on says. -/
lemma Guarded.noted (h : Guarded name maxProcs w) {i : ℕ} {now : ℤ} {launch : Except String String}
    {old : SpawnCall} (stage : w.board.calls.get i = some old)
    (hi : i ∈ note name w (.advance i now launch)) :
    (∀ p, old.parent = some p → p ∈ w.board.king.cgroups.membersOf name) ∧
      (old.parent = none → i ∈ w.under) := by
  have hasker : asker w.board (.advance i now launch) = old.parent.map (i,·) := by
    simp only [asker,stage,Option.bind_some]
  rcases mem_note hi with hi | ⟨parent,hp,hmem⟩
  · exact ⟨fun p hp => h.parents i old p stage hi hp,fun _ => hi⟩
  · rw [hasker] at hp
    obtain ⟨q,hq,he⟩ := Option.map_eq_some_iff.mp hp
    cases he
    constructor
    · intro p hp'
      cases hq.symm.trans hp'
      exact hmem
    · intro hnone
      rw [hq] at hnone
      cases hnone

/-- Notes are only made about the call that goes on. -/
lemma under_of_note {i j : ℕ} {now : ℤ} {launch : Except String String}
    (hj : j ∈ note name w (.advance i now launch)) (hne : j ≠ i) : j ∈ w.under := by
  rcases mem_note hj with hj | ⟨parent,hp,-⟩
  · exact hj
  · obtain ⟨q,-,he⟩ := Option.map_eq_some_iff.mp hp
    cases he
    exact absurd rfl hne

/-- A step of a call that leaves the groups alone and keeps the process it holds. -/
lemma Guarded.goOn_same (h : Guarded name maxProcs w) {king : King} {i : ℕ} {now : ℤ}
    {launch : Except String String} {old new : SpawnCall} (stage : w.board.calls.get i = some old)
    (hgroups : king.cgroups = w.board.king.cgroups)
    (hnext : w.board.king.registry.nextPID ≤ king.registry.nextPID)
    (hnew : ∀ p, new.unjoined = some p → old.unjoined = some p ∨
      (p.pid = w.board.king.registry.nextPID ∧ p.pid < king.registry.nextPID))
    (hparent : ∀ p, new.parent = some p → old.parent = some p)
    (hjoins : i ∈ note name w (.advance i now launch) → ∀ group, new.joins = some group → group = name)
    (hsettled : i ∈ note name w (.advance i now launch) → ∀ proc, new.settled = some proc →
      proc.pid ∈ w.board.king.cgroups.membersOf name) :
    Guarded name maxProcs ⟨⟨king,w.board.calls.set i new⟩,note name w (.advance i now launch)⟩ := by
  apply h.goOn
  · rw [hgroups]
    exact h.holds
  · rw [hgroups]
    exact h.named
  · exact hnext
  · rw [hgroups]
  · intro j hj
    rw [hgroups] at hj
    exact .inl hj
  · intro p hp
    rcases hnew p hp with hold | hfresh
    · exact .inl ⟨old,stage,hold⟩
    · exact .inr hfresh
  · exact fun j hj hne => under_of_note hj hne
  · intro hi p hp
    rw [hgroups]
    exact (h.noted stage hi).1 p (hparent p hp)
  · exact hjoins
  · rw [hgroups]
    exact hsettled

/-- The group of a member is found when it is looked for. -/
lemma Guarded.group_eq (h : Guarded name maxProcs w) {i : ℕ} {now : ℤ} {launch : Except String String}
    {req : SpawnRequest} {proc : Process} (stage : w.board.calls.get i = some (.finding req proc))
    (hi : i ∈ note name w (.advance i now launch)) :
    ∃ g, w.board.king.cgroups.getByPID req.parentPID = some g ∧ g.name = name :=
  h.holds.getByPID ((h.noted stage hi).1 req.parentPID rfl)

/-- A call that fails. -/
lemma Guarded.fail (h : Guarded name maxProcs w) {king : King} {i : ℕ} {now : ℤ}
    {launch : Except String String} {old : SpawnCall} (stage : w.board.calls.get i = some old)
    (hgroups : king.cgroups = w.board.king.cgroups)
    (hnext : w.board.king.registry.nextPID ≤ king.registry.nextPID) (e : String) :
    Guarded name maxProcs
      ⟨(w.board.setKing king).goOn i (.returned (.error e)),note name w (.advance i now launch)⟩ := by
  refine h.goOn_same stage hgroups hnext ?_ ?_ ?_ ?_
  · intro p hp
    cases hp
  · intro p hp
    cases hp
  · intro hi group hg
    cases hg
  · intro hi p hp
    cases hp

/-- A call that has registered nothing yet and goes on to another such stage. -/
lemma Guarded.prepare (h : Guarded name maxProcs w) {i : ℕ} {now : ℤ} {launch : Except String String}
    {old new : SpawnCall} (stage : w.board.calls.get i = some old)
    (hunjoined : new.unjoined = none) (hparent : new.parent = old.parent) (hjoins : new.joins = none)
    (hsettled : new.settled = none) :
    Guarded name maxProcs ⟨w.board.goOn i new,note name w (.advance i now launch)⟩ := by
  refine h.goOn_same stage rfl le_rfl ?_ ?_ ?_ ?_
  · intro p hp
    rw [hunjoined] at hp
    cases hp
  · intro p hp
    rw [← hparent]
    exact hp
  · intro hi group hg
    rw [hjoins] at hg
    cases hg
  · intro hi p hp
    rw [hsettled] at hp
    cases hp

/-- The process of a call is taken in by the group that the call asks. -/
lemma Guarded.join (h : Guarded name maxProcs w) {i : ℕ} {now : ℤ} {launch : Except String String}
    {req : SpawnRequest} {proc : Process} {group : String} {cgroups : CGroupManager}
    (stage : w.board.calls.get i = some (.joining req proc group))
    (hadd : w.board.king.cgroups.addProcess group proc.pid = .ok cgroups) :
    Guarded name maxProcs
      ⟨(w.board.setKing { w.board.king with cgroups := cgroups }).goOn i (.launching req proc),
        note name w (.advance i now launch)⟩ := by
  have hout := (h.procs i _ proc stage rfl).2
  obtain ⟨hholds,hmembers⟩ := h.holds.addProcess hout hadd
  have hmono : w.board.king.cgroups.membersOf name ⊆ cgroups.membersOf name := by
    rw [hmembers]
    split_ifs
    · exact Finset.subset_insert _ _
    · exact Finset.Subset.refl _
  refine h.goOn hholds (h.named.addProcess hadd) le_rfl hmono ?_ ?_
    (fun j hj hne => under_of_note hj hne) ?_ ?_ ?_
  · intro j hj
    change j ∈ cgroups.membersOf name at hj
    rw [hmembers] at hj
    split_ifs at hj
    · rcases Finset.mem_insert.mp hj with rfl | hj
      · exact .inr ⟨_,proc,stage,rfl,rfl,rfl⟩
      · exact .inl hj
    · exact .inl hj
  · intro p hp
    cases hp
  · intro hi p hp
    cases hp
  · intro hi group hg
    cases hg
  · intro hi p hp
    cases hp
    have hgroup := h.joins i _ group stage ((h.noted stage hi).2 rfl) rfl
    change proc.pid ∈ cgroups.membersOf name
    rw [hmembers,if_pos hgroup]
    exact Finset.mem_insert_self _ _

/-- What a call returns was settled before its runtime was started. -/
lemma Guarded.launch (h : Guarded name maxProcs w) {i : ℕ} {now : ℤ} {launch : Except String String}
    {req : SpawnRequest} {proc : Process} (stage : w.board.calls.get i = some (.launching req proc)) :
    Guarded name maxProcs
      ⟨(w.board.setKing (w.board.king.startChild req proc launch).2).goOn i
        (.returned (w.board.king.startChild req proc launch).1),note name w (.advance i now launch)⟩ := by
  obtain ⟨hgroups,hnext,hpid⟩ := SpawnBoard.startChild_frame w.board.king req proc launch
  refine h.goOn_same stage hgroups hnext.ge ?_ ?_ ?_ ?_
  · intro p hp
    cases hp
  · intro p hp
    cases hp
  · intro hi group hg
    cases hg
  · intro hi p hp
    have hin := h.settled i _ proc stage ((h.noted stage hi).2 rfl) rfl
    cases hr : (w.board.king.startChild req proc launch).1 with
    | error e => simp [hr,SpawnCall.settled] at hp
    | ok p' =>
      simp only [hr,SpawnCall.settled,Option.some.injEq] at hp
      rw [← hp,hpid p' hr]
      exact hin

lemma Guarded.advance (h : Guarded name maxProcs w) {i : ℕ} {now : ℤ} {launch : Except String String}
    {board : SpawnBoard} (hs : w.board.advance i now launch = some board)
    (hplace : FindsPlace name w (.advance i now launch)) :
    Guarded name maxProcs ⟨board,note name w (.advance i now launch)⟩ := by
  cases SpawnBoard.advanced hs with
  | notFound e stage => exact h.fail stage rfl le_rfl e
  | found stage hparent => exact h.prepare stage rfl rfl rfl rfl
  | invalid e stage => exact h.fail stage rfl le_rfl e
  | validated stage hvalid => exact h.prepare stage rfl rfl rfl rfl
  | registered stage =>
    refine h.goOn_same stage rfl (Nat.le_succ _) ?_ ?_ ?_ ?_
    · intro p hp
      cases hp
      exact .inr ⟨rfl,Nat.lt_succ_self _⟩
    · intro p hp
      exact hp
    · intro hi group hg
      cases hg
    · intro hi p hp
      cases hp
  | unfunded e stage =>
    refine h.fail stage ?_ ?_ e
    · rfl
    · exact (Registry.nextPID_remove _ _).ge
  | funded budget stage =>
    refine h.goOn_same stage rfl le_rfl ?_ ?_ ?_ ?_
    · intro p hp
      exact .inl hp
    · intro p hp
      exact hp
    · intro hi group hg
      cases hg
    · intro hi p hp
      cases hp
  | ungrouped stage hgroup =>
    refine h.goOn_same stage rfl le_rfl ?_ ?_ ?_ ?_
    · intro p hp
      cases hp
    · intro p hp
      cases hp
    · intro hi group hg
      cases hg
    · intro hi
      obtain ⟨g,hg,-⟩ := h.group_eq stage hi
      rw [hgroup] at hg
      cases hg
  | grouped stage hgroup =>
    refine h.goOn_same stage rfl le_rfl ?_ ?_ ?_ ?_
    · intro p hp
      exact .inl hp
    · intro p hp
      cases hp
    · intro hi group hjoin
      obtain ⟨g,hg,hname⟩ := h.group_eq stage hi
      cases hjoin
      cases hgroup.symm.trans hg
      exact hname
    · intro hi p hp
      cases hp
  | joined stage hadd => exact h.join stage hadd
  | @escaped req proc group e stage hadd =>
    refine h.goOn_same stage rfl le_rfl ?_ ?_ ?_ ?_
    · intro p hp
      cases hp
    · intro p hp
      cases hp
    · intro hi group' hg
      cases hg
    · intro hi
      obtain rfl := h.joins i _ group stage ((h.noted stage hi).2 rfl) rfl
      exact absurd hadd (h.holds.addProcess_isOk (hplace _ stage rfl))
  | launched stage => exact h.launch stage

/-- A step that touches neither calls nor groups. -/
lemma Guarded.setRegistry (h : Guarded name maxProcs w) {r : Registry}
    (hnext : r.nextPID = w.board.king.registry.nextPID) :
    Guarded name maxProcs ⟨w.board.setKing { w.board.king with registry := r },w.under⟩ := by
  constructor
  · exact h.holds
  · exact h.named
  · intro j hj
    change j < r.nextPID
    rw [hnext]
    exact h.known j hj
  · intro i call proc hi hp
    change proc.pid < r.nextPID ∧ _
    rw [hnext]
    exact h.procs i call proc hi hp
  · exact h.distinct
  · exact h.called
  · exact h.parents
  · exact h.joins
  · exact h.settled

/-- A call that begins. -/
lemma Guarded.begin (h : Guarded name maxProcs w) {i : ℕ} {req : SpawnRequest} {new : SpawnCall}
    (hi : w.board.calls.get i = none) (hunjoined : new.unjoined = none)
    (hparent : ∀ p, new.parent = some p → p = req.parentPID) (hjoins : new.joins = none)
    (hsettled : new.settled = none) :
    Guarded name maxProcs ⟨w.board.goOn i new,note name w (.spawnChild i req)⟩ := by
  have hfree : i ∉ w.under := by
    intro hu
    have hsome := h.called i hu
    rw [hi] at hsome
    cases hsome
  refine h.goOn h.holds h.named le_rfl (Finset.Subset.refl _) (fun j hj => .inl hj) ?_ ?_ ?_ ?_ ?_
  · intro p hp
    rw [hunjoined] at hp
    cases hp
  · intro j hj hne
    rcases mem_note hj with hj | ⟨parent,hasker,-⟩
    · exact hj
    · cases hasker
      exact absurd rfl hne
  · intro hu p hp
    rcases mem_note hu with hu | ⟨parent,hasker,hmem⟩
    · exact absurd hu hfree
    · cases hasker
      rw [hparent p hp]
      exact hmem
  · intro hu group hg
    rw [hjoins] at hg
    cases hg
  · intro hu proc hp
    rw [hsettled] at hp
    cases hp

theorem guarded_step (h : Guarded name maxProcs w) (hlater : IsLater op) (hplace : FindsPlace name w op)
    (hs : step name w op = some w') : Guarded name maxProcs w' := by
  obtain ⟨board,hb,rfl⟩ := Option.map_eq_some_iff.mp hs
  cases op with
  | spawnChild i req =>
    simp only [SpawnBoard.step] at hb
    split_ifs at hb with hsome
    have hi : w.board.calls.get i = none := by simpa using hsome
    cases hadm : w.board.king.admission req with
    | error e =>
      simp only [hadm] at hb
      cases hb
      exact h.begin hi rfl (fun p hp => by cases hp) rfl rfl
    | ok u =>
      simp only [hadm] at hb
      cases hb
      exact h.begin hi rfl (fun p hp => by cases hp; rfl) rfl rfl
  | advance i now launch => exact h.advance hb hplace
  | setState now pid state =>
    cases hb
    exact h.setRegistry (Registry.nextPID_setState _ _ _ _)
  | adopt now zombie child =>
    simp only [SpawnBoard.step] at hb
    split at hb
    next z c hz hc =>
      split_ifs at hb
      cases hb
      exact h.setRegistry (Registry.nextPID_tryReparent _ _ _ _)
    next => cases hb
  | reap zombie =>
    simp only [SpawnBoard.step] at hb
    split at hb
    next z hz =>
      split_ifs at hb
      cases hb
      exact h.setRegistry (Registry.nextPID_remove _ _)
    next => cases hb
  | createGroup => exact hlater.elim

/-- The watched group has just been created. -/
lemma guarded_opened {k : King} {history : List (Transition CGroupManager GroupOp)}
    {visits : k.registry.Visits} {root : ℕ} {maxTokens : UInt64} {g : CGroup} {cgroups : CGroupManager}
    (hist : Run groupStep .new history k.cgroups)
    (hc : k.cgroups.create k.registry visits.order name root maxTokens maxProcs = some (.ok (g,cgroups)))
    (hfits : 0 < maxProcs → (Set.ncard { j | InSubtree k.registry j root } : ℤ) ≤ maxProcs) :
    Guarded name maxProcs (opened { k with cgroups := cgroups }) := by
  obtain ⟨hholds,hreg⟩ := holds_create (sound_of_run hist) hc hfits
  constructor
  · exact hholds
  · obtain ⟨hname,hgroups,-⟩ := create_ok hc
    intro n g₁ hg₁
    change cgroups.groups.get n = some g₁ at hg₁
    rw [hgroups] at hg₁
    rcases Table.get_set_some hg₁ with ⟨rfl,rfl⟩ | ⟨-,hg₁⟩
    · exact hname
    · exact named_of_run hist n g₁ hg₁
  · intro j hj
    obtain ⟨p,hp⟩ := Option.isSome_iff_exists.mp (hreg j hj)
    exact (Registry.get_bound hp).2
  · intro i call proc hi
    cases hi
  · intro i j call call' p q hi
    cases hi
  · intro i hi
    cases hi
  · intro i call p hi
    cases hi
  · intro i call group hi
    cases hi
  · intro i call proc hi
    cases hi

/-- A group that is created over no more processes than it may have, and that every process asked to
join finds below its maximum, contains all that its members spawn and stays within its maximum. -/
theorem contained_of_run {k : King} {history : List (Transition CGroupManager GroupOp)}
    {visits : k.registry.Visits} {root : ℕ} {maxTokens : UInt64} {g : CGroup} {cgroups : CGroupManager}
    {trace : List (Transition Watched SpawnOp)} (hist : Run groupStep .new history k.cgroups)
    (hc : k.cgroups.create k.registry visits.order name root maxTokens maxProcs = some (.ok (g,cgroups)))
    (hfits : 0 < maxProcs → (Set.ncard { j | InSubtree k.registry j root } : ℤ) ≤ maxProcs)
    (run : Run (step name) (opened { k with cgroups := cgroups }) trace w)
    (hlater : ∀ e ∈ trace, IsLater e.label) (hplace : ∀ e ∈ trace, FindsPlace name e.source e.label) :
    Bounded name (opened { k with cgroups := cgroups }) ∧
      ∀ e ∈ trace, Contained name e.target ∧ Bounded name e.target := by
  have hstart := guarded_opened hist hc hfits
  have hinv := (run.invariant_of_allowed
    (fun w op w' (h : Guarded name maxProcs w) (ha : IsLater op ∧ FindsPlace name w op) hs =>
      guarded_step h ha.1 ha.2 hs) hstart (fun e he => ⟨hlater e he,hplace e he⟩)).1
  refine ⟨hstart.bounded,fun e he => ?_⟩
  have htarget := guarded_step (hinv e he).1 (hlater e he) (hplace e he) (hinv e he).2
  exact ⟨htarget.contained,htarget.bounded⟩

def loneKing : King := King.new King.exampleConfig 0 none

def visitKing : loneKing.registry.Visits := ⟨fun _ => [1],fun _ => by decide⟩

/-- The groups after the king has made one of two for itself. -/
def groupOfTwo : CGroupManager :=
  match loneKing.cgroups.create loneKing.registry visitKing.order "grp" 1 100 2 with
  | some (.ok (_,cgroups)) => cgroups
  | _ => loneKing.cgroups

def spawnQueen : SpawnRequest := Registry.agentRequest 1 "queen" .daemon

def spawnScout : SpawnRequest := Registry.agentRequest 1 "scout" .daemon

/-- A group of two takes in the queen; the next spawn of the king is refused. -/
theorem contained_of_run_fullGroup : ∃ trace w,
    Run (step "grp") (opened { loneKing with cgroups := groupOfTwo }) trace w ∧
    2 ∈ w.board.king.cgroups.membersOf "grp" ∧
    (∃ e, w.board.calls.get 1 = some (.returned (.error e))) ∧
    ∀ e ∈ trace, Contained "grp" e.target ∧ Bounded "grp" e.target := by
  obtain ⟨g,hc,hcard⟩ : ∃ g,
      loneKing.cgroups.create loneKing.registry visitKing.order "grp" 1 100 2 =
        some (.ok (g,groupOfTwo)) ∧ g.members.card = 1 := ⟨_,rfl,rfl⟩
  have hfits : (0 : ℤ) < 2 → (Set.ncard { j | InSubtree loneKing.registry j 1 } : ℤ) ≤ 2 := by
    intro _
    rw [ncard_subtree hc,hcard]
    decide
  let ops := SpawnBoard.alone 0 spawnQueen ++ [SpawnBoard.go 0,.spawnChild 1 spawnScout]
  obtain ⟨w,hw,hmem,hrefused⟩ : ∃ w,
      exec (step "grp") ops (opened { loneKing with cgroups := groupOfTwo }) = some w ∧
      2 ∈ w.board.king.cgroups.membersOf "grp" ∧
      ∃ e, w.board.calls.get 1 = some (.returned (.error e)) := ⟨_,rfl,by decide,_,rfl⟩
  exact ⟨_,w,Run.of_exec hw,hmem,hrefused,
    (contained_of_run (.nil _) hc hfits (Run.of_exec hw) (by decide) (by decide)).2⟩

/-- Two spawns find room for one, and both register their process before the group is asked. -/
theorem concurrent_spawn_escapes_group :
    ¬ ∀ (k : King) (history : List (Transition CGroupManager GroupOp)) (visits : k.registry.Visits)
      (name : String) (root : ℕ) (maxTokens : UInt64) (maxProcs : ℤ) (g : CGroup) (cgroups : CGroupManager)
      (trace : List (Transition Watched SpawnOp)) (w : Watched), Run groupStep .new history k.cgroups →
      k.cgroups.create k.registry visits.order name root maxTokens maxProcs = some (.ok (g,cgroups)) →
      Run (step name) (opened { k with cgroups := cgroups }) trace w → (∀ e ∈ trace, IsLater e.label) →
      Contained name w ∧ Bounded name w := by
  intro h
  obtain ⟨g,hc⟩ : ∃ g, loneKing.cgroups.create loneKing.registry visitKing.order "grp" 1 100 2 =
      some (.ok (g,groupOfTwo)) := ⟨_,rfl⟩
  let ops := [.spawnChild 0 spawnQueen,.spawnChild 1 spawnScout] ++ List.replicate 7 (SpawnBoard.go 0) ++
    List.replicate 7 (SpawnBoard.go 1)
  obtain ⟨w,proc,hw,hreturned,hunder,hout⟩ : ∃ w proc,
      exec (step "grp") ops (opened { loneKing with cgroups := groupOfTwo }) = some w ∧
      w.board.calls.get 1 = some (.returned (.ok proc)) ∧ 1 ∈ w.under ∧
      proc.pid ∉ w.board.king.cgroups.membersOf "grp" := ⟨_,_,rfl,rfl,by decide,by decide⟩
  exact hout ((h loneKing [] visitKing "grp" 1 100 2 g groupOfTwo _ w (.nil _) hc (Run.of_exec hw)
    (by decide)).1 1 proc hreturned hunder)

end Watched
end HiveKernel
