import HiveKernel.Process.TreeInvariant
import HiveKernel.Resources.CGroups
import Mathlib.Data.Finset.Card

/-! The three records of who is in which group: the member sets, their counters, and the index from
processes to groups. The counters and the index never say too much. They say too little after a group
is created over processes of another group: these stay members of both, and the index knows one. -/
namespace HiveKernel
open Lib
namespace CGroupManager

inductive GroupOp
  | create (r : Registry) (visits : r.Visits) (name : String) (rootPID : ℕ) (maxTokens : UInt64)
      (maxProcs : ℤ)
  | delete (order : List ℕ) (name : String)
  | addProcess (name : String) (pid : ℕ)
  | removeProcess (pid : ℕ)
  | consumeTokens (pid : ℕ) (tokens : UInt64)

/-- A refused operation changes nothing. -/
def kept (m : CGroupManager) : Except String CGroupManager → CGroupManager
  | .ok m' => m'
  | .error _ => m

/-- One operation. The loop of `delete` visits the members of the group. -/
def groupStep (m : CGroupManager) : GroupOp → Option CGroupManager
  | .create r visits name rootPID maxTokens maxProcs =>
    (m.create r visits.order name rootPID maxTokens maxProcs).map (fun o => m.kept (o.map Prod.snd))
  | .delete order name =>
    if ∀ g ∈ m.groups.get name, order.toFinset = g.members then some (m.kept (m.delete order name))
    else none
  | .addProcess name pid => some (m.kept (m.addProcess name pid))
  | .removeProcess pid => some (m.removeProcess pid)
  | .consumeTokens pid tokens => some (m.kept (m.consumeTokens pid tokens))

/-- Counters, members and index agree, so that a process is in one group at most, and that one is
charged for it and limits it. -/
structure Represents (m : CGroupManager) : Prop where
  count : ∀ name g, m.groups.get name = some g → g.processCount = g.members.card
  index : ∀ name g pid, m.groups.get name = some g → (pid ∈ g.members ↔ m.pidGroup.get pid = some name)
  unique : ∀ name g name' g' pid, m.groups.get name = some g → m.groups.get name' = some g' →
    pid ∈ g.members → pid ∈ g'.members → name = name'
  charged : ∀ name g pid, m.groups.get name = some g → pid ∈ g.members → m.getByPID pid = some g

/-- What holds in any case: the counters are right, and the index names a group with that member. -/
structure Sound (m : CGroupManager) : Prop where
  count : ∀ name g, m.groups.get name = some g → g.processCount = g.members.card
  indexed : ∀ pid name, m.pidGroup.get pid = some name → ∃ g, m.groups.get name = some g ∧ pid ∈ g.members

/-- The index knows of every membership. -/
def Owned (m : CGroupManager) : Prop :=
  ∀ name g pid, m.groups.get name = some g → pid ∈ g.members → m.pidGroup.get pid = some name

variable {m m' : CGroupManager}

lemma represents_iff_owned (h : m.Sound) : m.Represents ↔ m.Owned := by
  constructor
  · intro hr name g pid hg hpid
    exact (hr.index name g pid hg).mp hpid
  · intro ho
    refine ⟨h.count,fun name g pid hg => ⟨ho name g pid hg,fun hi => ?_⟩,?_,?_⟩
    · obtain ⟨g',hg',hpid⟩ := h.indexed pid name hi
      obtain rfl : g = g' := Option.some.inj (hg.symm.trans hg')
      exact hpid
    · intro name g name' g' pid hg hg' hpid hpid'
      exact Option.some.inj ((ho name g pid hg hpid).symm.trans (ho name' g' pid hg' hpid'))
    · intro name g pid hg hpid
      simp only [getByPID,ho name g pid hg hpid,hg]

/-- A group that is rewritten if it is there. -/
lemma get_rewritten (groups : Table String CGroup) (name : String) (f : CGroup → CGroup) (n : String) :
    (match groups.get name with
      | none => groups
      | some g => groups.set name (f g)).get n =
      if n = name then (groups.get n).map f else groups.get n := by
  cases hg : groups.get name with
  | none =>
    split_ifs with hn
    · rw [hn,hg]; rfl
    · rfl
  | some g =>
    simp only [Table.get_set]
    split_ifs with hn
    · rw [hn,hg]; rfl
    · rfl

/-- A group without one of its members. -/
def without (pid : ℕ) (g : CGroup) : CGroup :=
  { g with members := g.members.erase pid, processCount := g.processCount-1 }

/-- A group with one more member. -/
def including (pid : ℕ) (g : CGroup) : CGroup :=
  { g with members := insert pid g.members, processCount := g.processCount+1 }

lemma get_leave (groups : Table String CGroup) (name : String) (pid : ℕ) (n : String) :
    (leave groups name pid).get n = if n = name then (groups.get n).map (without pid) else groups.get n :=
  get_rewritten groups name (without pid) n

lemma get_enter (groups : Table String CGroup) (name : String) (pid : ℕ) (n : String) :
    (enter groups name pid).get n = if n = name then (groups.get n).map (including pid) else groups.get n :=
  get_rewritten groups name (including pid) n

lemma pidGroup_removeProcess (m : CGroupManager) (pid j : ℕ) :
    (m.removeProcess pid).pidGroup.get j = if j = pid then none else m.pidGroup.get j := by
  unfold removeProcess
  cases hi : m.pidGroup.get pid with
  | none =>
    split_ifs with hj
    · rw [hj]; exact hi
    · rfl
  | some name => exact Table.get_erase _ _ _

/-- The group of the process loses it; the others are untouched. -/
lemma groups_removeProcess (m : CGroupManager) (pid : ℕ) (n : String) :
    (m.removeProcess pid).groups.get n = if m.pidGroup.get pid = some n
      then (m.groups.get n).map (without pid) else m.groups.get n := by
  unfold removeProcess
  cases hi : m.pidGroup.get pid with
  | none => simp
  | some name =>
    simp only [get_leave,Option.some.injEq,eq_comm]

lemma Sound.removeProcess (h : m.Sound) (pid : ℕ) : (m.removeProcess pid).Sound := by
  constructor
  · intro n g' hg'
    rw [groups_removeProcess] at hg'
    split_ifs at hg' with hi
    · obtain ⟨g,hg,rfl⟩ := Option.map_eq_some_iff.mp hg'
      obtain ⟨g₀,hg₀,hpid⟩ := h.indexed pid n hi
      obtain rfl : g = g₀ := Option.some.inj (hg.symm.trans hg₀)
      have hcard := Finset.card_erase_add_one hpid
      have hcount := h.count n g hg
      change g.processCount-1 = ((g.members.erase pid).card : ℤ)
      omega
    · exact h.count n g' hg'
  · intro j n hj
    rw [pidGroup_removeProcess] at hj
    split_ifs at hj with hne
    obtain ⟨g,hg,hmem⟩ := h.indexed j n hj
    rw [groups_removeProcess]
    split_ifs
    · exact ⟨_,by rw [hg]; rfl,Finset.mem_erase.mpr ⟨hne,hmem⟩⟩
    · exact ⟨g,hg,hmem⟩

lemma Owned.removeProcess (h : m.Owned) (pid : ℕ) : (m.removeProcess pid).Owned := by
  intro n g' j hg' hj
  rw [groups_removeProcess] at hg'
  rw [pidGroup_removeProcess]
  split_ifs at hg' with hi
  · obtain ⟨g,hg,rfl⟩ := Option.map_eq_some_iff.mp hg'
    obtain ⟨hne,hmem⟩ := Finset.mem_erase.mp hj
    rw [if_neg hne]
    exact h n g j hg hmem
  · rw [if_neg]
    · exact h n g' j hg' hj
    · rintro rfl
      exact hi (h n g' j hg' hj)

/-- An added process is taken out of its group first. -/
lemma addProcess_ok {name : String} {pid : ℕ} (h : m.addProcess name pid = .ok m') :
    (m' = m ∧ ∃ g, m.groups.get name = some g ∧ pid ∈ g.members) ∨
    ∃ g, m.groups.get name = some g ∧ pid ∉ g.members ∧ ¬AtMaxProcesses g ∧
      m'.groups = enter (m.removeProcess pid).groups name pid ∧
      ∀ j, m'.pidGroup.get j = if j = pid then some name else m.pidGroup.get j := by
  unfold addProcess at h
  cases hg : m.groups.get name with
  | none => simp [hg] at h
  | some g =>
    simp only [hg] at h
    split_ifs at h with hmem hmax
    · cases h
      exact .inl ⟨rfl,g,rfl,hmem⟩
    · cases h
      refine .inr ⟨g,rfl,hmem,hmax,?_,fun j => Table.get_set _ _ _ _⟩
      unfold removeProcess
      cases m.pidGroup.get pid <;> rfl

/-- The group a process is not in is not touched when the process leaves its own. -/
lemma Sound.get_removeProcess (h : m.Sound) {name : String} {g : CGroup} {pid : ℕ}
    (hg : m.groups.get name = some g) (hpid : pid ∉ g.members) :
    (m.removeProcess pid).groups.get name = some g := by
  rw [groups_removeProcess,if_neg]
  · exact hg
  · intro hi
    obtain ⟨g',hg',hmem⟩ := h.indexed pid name hi
    obtain rfl : g = g' := Option.some.inj (hg.symm.trans hg')
    exact hpid hmem

lemma Sound.addProcess (h : m.Sound) {name : String} {pid : ℕ} (ha : m.addProcess name pid = .ok m') :
    m'.Sound := by
  rcases addProcess_ok ha with ⟨rfl,-⟩ | ⟨g,hg,hpid,-,hgroups,hindex⟩
  · exact h
  have hleft := h.removeProcess pid
  have hg' := h.get_removeProcess hg hpid
  constructor
  · intro n g₁ hg₁
    rw [hgroups,get_enter] at hg₁
    split_ifs at hg₁ with hn
    · subst hn
      rw [hg'] at hg₁
      cases hg₁
      have hcount := h.count n g hg
      change g.processCount+1 = ((insert pid g.members).card : ℤ)
      rw [Finset.card_insert_of_notMem hpid]
      omega
    · exact hleft.count n g₁ hg₁
  · intro j n hj
    rw [hindex] at hj
    rw [hgroups,get_enter]
    split_ifs at hj with hjp
    · cases hj
      rw [if_pos rfl,hg']
      exact ⟨_,rfl,hjp ▸ Finset.mem_insert_self _ _⟩
    · have hj' : (m.removeProcess pid).pidGroup.get j = some n := by
        rw [pidGroup_removeProcess,if_neg hjp]
        exact hj
      obtain ⟨g₁,hg₁,hmem⟩ := hleft.indexed j n hj'
      rw [hg₁]
      split_ifs
      · exact ⟨_,rfl,Finset.mem_insert_of_mem hmem⟩
      · exact ⟨g₁,rfl,hmem⟩

lemma Owned.addProcess (h : m.Owned) (hs : m.Sound) {name : String} {pid : ℕ}
    (ha : m.addProcess name pid = .ok m') : m'.Owned := by
  rcases addProcess_ok ha with ⟨rfl,-⟩ | ⟨g,hg,hpid,-,hgroups,hindex⟩
  · exact h
  have hleft := h.removeProcess pid
  have hnone : ∀ n g₁ j, (m.removeProcess pid).groups.get n = some g₁ → j ∈ g₁.members →
      j ≠ pid ∧ m.pidGroup.get j = some n := by
    intro n g₁ j hg₁ hj
    have hi := hleft n g₁ j hg₁ hj
    rw [pidGroup_removeProcess] at hi
    split_ifs at hi with hjp
    exact ⟨hjp,hi⟩
  intro n g₁ j hg₁ hj
  rw [hgroups,get_enter] at hg₁
  rw [hindex]
  split_ifs at hg₁ with hn
  · subst hn
    rw [hs.get_removeProcess hg hpid] at hg₁
    cases hg₁
    rcases Finset.mem_insert.mp hj with rfl | hj
    · exact if_pos rfl
    · obtain ⟨hjp,hi⟩ := hnone n g j (hs.get_removeProcess hg hpid) hj
      rw [if_neg hjp]
      exact hi
  · obtain ⟨hjp,hi⟩ := hnone n g₁ j hg₁ hj
    rw [if_neg hjp]
    exact hi

lemma delete_ok {order : List ℕ} {name : String}
    (horder : ∀ g ∈ m.groups.get name, order.toFinset = g.members) (h : m.delete order name = .ok m') :
    ∃ g, m.groups.get name = some g ∧ m'.groups = m.groups.erase name ∧
      ∀ j, m'.pidGroup.get j = if j ∈ g.members then none else m.pidGroup.get j := by
  unfold CGroupManager.delete at h
  cases hg : m.groups.get name with
  | none => simp [hg] at h
  | some g =>
    simp only [hg,Except.ok.injEq] at h
    subst h
    refine ⟨g,rfl,rfl,fun j => ?_⟩
    simp only [Table.get_foldl_erase,← horder g hg,List.mem_toFinset]

lemma Sound.delete (h : m.Sound) {order : List ℕ} {name : String}
    (horder : ∀ g ∈ m.groups.get name, order.toFinset = g.members) (hd : m.delete order name = .ok m') :
    m'.Sound := by
  obtain ⟨g,hg,hgroups,hindex⟩ := delete_ok horder hd
  constructor
  · intro n g₁ hg₁
    rw [hgroups] at hg₁
    exact h.count n g₁ (Table.get_erase_some hg₁).2
  · intro j n hj
    rw [hindex] at hj
    split_ifs at hj with hin
    obtain ⟨g₁,hg₁,hj₁⟩ := h.indexed j n hj
    refine ⟨g₁,?_,hj₁⟩
    rw [hgroups,Table.get_erase_of_ne]
    · exact hg₁
    · rintro rfl
      obtain rfl : g = g₁ := Option.some.inj (hg.symm.trans hg₁)
      exact hin hj₁

lemma Owned.delete (h : m.Owned) {order : List ℕ} {name : String}
    (horder : ∀ g ∈ m.groups.get name, order.toFinset = g.members) (hd : m.delete order name = .ok m') :
    m'.Owned := by
  obtain ⟨g,hg,hgroups,hindex⟩ := delete_ok horder hd
  intro n g₁ j hg₁ hj
  rw [hgroups] at hg₁
  obtain ⟨hne,hg₁⟩ := Table.get_erase_some hg₁
  have hi := h n g₁ j hg₁ hj
  rw [hindex,if_neg]
  · exact hi
  · intro hin
    exact hne (Option.some.inj (hi.symm.trans (h name g j hg hin)))

/-- The counter follows the members as long as nobody is recorded twice. -/
lemma foldl_record_count (name : String) (acc : CGroup × Table ℕ String) (pids : List ℕ)
    (hnd : pids.Nodup) (hnew : ∀ j ∈ pids, j ∉ acc.1.members)
    (hcount : acc.1.processCount = acc.1.members.card) :
    (pids.foldl (record name) acc).1.processCount = (pids.foldl (record name) acc).1.members.card := by
  induction pids generalizing acc with
  | nil => exact hcount
  | cons pid pids ih =>
    obtain ⟨hpid,hnd⟩ := List.nodup_cons.mp hnd
    apply ih (record name acc pid) hnd
    · intro j hj
      simp only [record,Finset.mem_insert,not_or]
      exact ⟨fun he => hpid (he ▸ hj),hnew j (List.mem_cons_of_mem pid hj)⟩
    · simp only [record]
      rw [Finset.card_insert_of_notMem (hnew pid (by simp))]
      omega

lemma maxProcesses_foldl_record (name : String) (acc : CGroup × Table ℕ String) (pids : List ℕ) :
    (pids.foldl (record name) acc).1.maxProcesses = acc.1.maxProcesses := by
  induction pids generalizing acc with
  | nil => rfl
  | cons pid pids ih => exact ih (record name acc pid)

/-- The process with its subtree. -/
def InSubtree (r : Registry) (j rootPID : ℕ) : Prop := Relation.ReflTransGen r.ChildOf j rootPID

/-- A new group has its root and everything below it, each counted once. -/
lemma create_spec {r : Registry} {visits : r.Visits} {name : String} {rootPID : ℕ} {maxTokens : UInt64}
    {maxProcs : ℤ} {g : CGroup}
    (h : m.create r visits.order name rootPID maxTokens maxProcs = some (.ok (g,m'))) :
    m.groups.get name = none ∧ (r.get rootPID).isSome ∧ g.processCount = g.members.card ∧
      g.maxProcesses = maxProcs ∧ (∀ j, j ∈ g.members ↔ InSubtree r j rootPID) ∧
      m'.groups = m.groups.set name g ∧
      ∀ j, m'.pidGroup.get j = if j ∈ g.members then some name else m.pidGroup.get j := by
  unfold create at h
  split_ifs at h with hname
  · cases h
  cases hroot : r.get rootPID with
  | none => simp [hroot] at h
  | some root =>
    simp only [hroot] at h
    obtain ⟨ds,hds,h⟩ := Option.map_eq_some_iff.mp h
    have hnd : (rootPID::ds.map Process.pid).Nodup := by
      rw [List.nodup_cons,Registry.mem_collectDescendants_iff visits hds]
      exact ⟨Registry.not_cyclic_of_collectDescendants visits hds,
        Registry.nodup_collectDescendants visits hds⟩
    let acc : CGroup × Table ℕ String := (⟨name,rootPID,maxTokens,maxProcs,0,0,∅⟩,m.pidGroup)
    obtain ⟨-,hmem,hget⟩ := foldl_record name acc (rootPID::ds.map Process.pid)
    have hcount := foldl_record_count name acc _ hnd (fun j _ => Finset.notMem_empty j) rfl
    have hmax := maxProcesses_foldl_record name acc (rootPID::ds.map Process.pid)
    cases h
    have hsub : ∀ j, j ∈ rootPID::ds.map Process.pid ↔ InSubtree r j rootPID := by
      intro j
      rw [List.mem_cons,Registry.mem_collectDescendants_iff visits hds,InSubtree,
        Relation.reflTransGen_iff_eq_or_transGen,eq_comm]
    have hin : ∀ j, j ∈ ((rootPID::ds.map Process.pid).foldl (record name) acc).1.members ↔
        j ∈ rootPID::ds.map Process.pid := by
      intro j
      rw [hmem]
      exact or_iff_left (Finset.notMem_empty j)
    refine ⟨Option.not_isSome_iff_eq_none.mp hname,rfl,hcount,hmax,fun j => (hin j).trans (hsub j),rfl,
      fun j => ?_⟩
    by_cases hj : j ∈ rootPID::ds.map Process.pid
    · exact (hget j).trans ((if_pos hj).trans (if_pos ((hin j).mpr hj)).symm)
    · exact (hget j).trans ((if_neg hj).trans (if_neg (fun hx => hj ((hin j).mp hx))).symm)

lemma Sound.create (h : m.Sound) {r : Registry} {visits : r.Visits} {name : String} {rootPID : ℕ}
    {maxTokens : UInt64} {maxProcs : ℤ} {g : CGroup}
    (hc : m.create r visits.order name rootPID maxTokens maxProcs = some (.ok (g,m'))) : m'.Sound := by
  obtain ⟨hname,-,hcount,-,-,hgroups,hindex⟩ := create_spec hc
  constructor
  · intro n g₁ hg₁
    rw [hgroups] at hg₁
    rcases Table.get_set_some hg₁ with ⟨-,rfl⟩ | ⟨-,hg₁⟩
    · exact hcount
    · exact h.count n g₁ hg₁
  · intro j n hj
    rw [hindex] at hj
    rw [hgroups]
    split_ifs at hj with hin
    · cases hj
      exact ⟨g,Table.get_set_self _ _ _,hin⟩
    · obtain ⟨g₁,hg₁,hj₁⟩ := h.indexed j n hj
      refine ⟨g₁,?_,hj₁⟩
      rw [Table.get_set_of_ne]
      · exact hg₁
      · rintro rfl
        simp [hname] at hg₁

/-- A process of the subtree that is to become a group is a member of another group already. -/
def Overlapping (m : CGroupManager) (r : Registry) (rootPID : ℕ) : Prop :=
  ∃ j name g, InSubtree r j rootPID ∧ m.groups.get name = some g ∧ j ∈ g.members

lemma owned_create_iff (h : m.Owned) {r : Registry} {visits : r.Visits} {name : String} {rootPID : ℕ}
    {maxTokens : UInt64} {maxProcs : ℤ} {g : CGroup}
    (hc : m.create r visits.order name rootPID maxTokens maxProcs = some (.ok (g,m'))) :
    m'.Owned ↔ ¬m.Overlapping r rootPID := by
  obtain ⟨hname,-,-,-,hmem,hgroups,hindex⟩ := create_spec hc
  have hother : ∀ n g₁, m.groups.get n = some g₁ → m'.groups.get n = some g₁ ∧ n ≠ name := by
    intro n g₁ hg₁
    have hne : n ≠ name := by
      rintro rfl
      simp [hname] at hg₁
    exact ⟨by rw [hgroups,Table.get_set_of_ne hne]; exact hg₁,hne⟩
  constructor
  · rintro ho ⟨j,n,g₁,hj,hg₁,hj₁⟩
    obtain ⟨hg₁',hne⟩ := hother n g₁ hg₁
    have hi := ho n g₁ j hg₁' hj₁
    rw [hindex,if_pos ((hmem j).mpr hj)] at hi
    exact hne (Option.some.inj hi).symm
  · intro hno n g₁ j hg₁ hj
    rw [hindex]
    rw [hgroups] at hg₁
    rcases Table.get_set_some hg₁ with ⟨rfl,rfl⟩ | ⟨-,hg₁⟩
    · exact if_pos hj
    · rw [if_neg]
      · exact h n g₁ j hg₁ hj
      · intro hin
        exact hno ⟨j,n,g₁,(hmem j).mp hin,hg₁,hj⟩

/-- What is recorded about a group, apart from its limits and its consumption. -/
def recorded (g : CGroup) : String × ℤ × Finset ℕ := (g.name,g.processCount,g.members)

/-- The members and counters of all groups and the index are the same. -/
def SameRecords (m m' : CGroupManager) : Prop :=
  m'.pidGroup = m.pidGroup ∧ ∀ n, (m'.groups.get n).map recorded = (m.groups.get n).map recorded

lemma consumeTokens_ok {pid : ℕ} {tokens : UInt64} (h : m.consumeTokens pid tokens = .ok m') :
    m.SameRecords m' := by
  unfold consumeTokens at h
  cases hg : m.getByPID pid with
  | none =>
    simp only [hg] at h
    cases h
    exact ⟨rfl,fun _ => rfl⟩
  | some g =>
    simp only [hg] at h
    split_ifs at h
    cases h
    refine ⟨rfl,fun n => ?_⟩
    unfold getByPID at hg
    cases hi : m.pidGroup.get pid with
    | none => simp [hi] at hg
    | some name =>
      simp only [hi] at hg
      simp only [Option.getD_some,Table.get_set]
      split_ifs with hn
      · rw [hn,hg]; rfl
      · rfl

lemma SameRecords.symm (h : m.SameRecords m') : m'.SameRecords m :=
  ⟨h.1.symm,fun n => (h.2 n).symm⟩

lemma SameRecords.get (h : m.SameRecords m') {n : String} {g' : CGroup} (hg' : m'.groups.get n = some g') :
    ∃ g, m.groups.get n = some g ∧ g.name = g'.name ∧ g.processCount = g'.processCount ∧
      g.members = g'.members := by
  have he := h.2 n
  rw [hg',Option.map_some,eq_comm,Option.map_eq_some_iff] at he
  obtain ⟨g,hg,he⟩ := he
  simp only [recorded,Prod.mk.injEq] at he
  exact ⟨g,hg,he⟩

lemma Sound.of_same (h : m.Sound) (hsame : m.SameRecords m') : m'.Sound := by
  constructor
  · intro n g' hg'
    obtain ⟨g,hg,-,hc,hm⟩ := hsame.get hg'
    rw [← hc,← hm]
    exact h.count n g hg
  · intro j n hj
    rw [hsame.1] at hj
    obtain ⟨g,hg,hmem⟩ := h.indexed j n hj
    obtain ⟨g',hg',-,-,hm⟩ := hsame.symm.get hg
    exact ⟨g',hg',hm ▸ hmem⟩

lemma Owned.of_same (h : m.Owned) (hsame : m.SameRecords m') : m'.Owned := by
  intro n g' j hg' hj
  obtain ⟨g,hg,-,-,hm⟩ := hsame.get hg'
  rw [hsame.1]
  exact h n g j hg (hm ▸ hj)

/-- A process that is not involved stays unknown when another one leaves its group. -/
lemma Ignores.removeProcess {j : ℕ} (h : m.Ignores j) (pid : ℕ) : (m.removeProcess pid).Ignores j := by
  constructor
  · rw [pidGroup_removeProcess]
    split_ifs
    · rfl
    · exact h.1
  · intro n g hg
    rw [groups_removeProcess] at hg
    split_ifs at hg
    · obtain ⟨g₀,hg₀,rfl⟩ := Option.map_eq_some_iff.mp hg
      exact fun hj => h.2 n g₀ hg₀ (Finset.mem_of_mem_erase hj)
    · exact h.2 n g hg

lemma Ignores.addProcess {j : ℕ} (h : m.Ignores j) {name : String} {pid : ℕ} (hne : j ≠ pid)
    (ha : m.addProcess name pid = .ok m') : m'.Ignores j := by
  rcases addProcess_ok ha with ⟨rfl,-⟩ | ⟨-,-,-,-,hgroups,hindex⟩
  · exact h
  constructor
  · rw [hindex,if_neg hne]
    exact h.1
  · intro n g hg
    rw [hgroups,get_enter] at hg
    have hrest := (h.removeProcess pid).2 n
    split_ifs at hg
    · obtain ⟨g₀,hg₀,rfl⟩ := Option.map_eq_some_iff.mp hg
      intro hj
      exact (Finset.mem_insert.mp hj).elim hne (hrest g₀ hg₀)
    · exact hrest g hg

lemma Ignores.delete {j : ℕ} (h : m.Ignores j) {order : List ℕ} {name : String}
    (hd : m.delete order name = .ok m') : m'.Ignores j := by
  unfold CGroupManager.delete at hd
  cases hg : m.groups.get name with
  | none => simp [hg] at hd
  | some g =>
    simp only [hg,Except.ok.injEq] at hd
    subst hd
    constructor
    · change (order.foldl Table.erase m.pidGroup).get j = none
      rw [Table.get_foldl_erase]
      split_ifs
      · rfl
      · exact h.1
    · intro n g' hg'
      exact h.2 n g' (Table.get_erase_some hg').2

lemma Ignores.create {j : ℕ} (h : m.Ignores j) {r : Registry} {order : List ℕ → List ℕ} {name : String}
    {rootPID : ℕ} {maxTokens : UInt64} {maxProcs : ℤ} {g : CGroup} (hj : r.get j = none)
    (hc : m.create r order name rootPID maxTokens maxProcs = some (.ok (g,m'))) : m'.Ignores j := by
  obtain ⟨-,hgroups,hreg,hindex⟩ := create_ok hc
  have hout : j ∉ g.members := by
    intro hin
    have hsome := hreg j hin
    rw [hj] at hsome
    cases hsome
  constructor
  · rw [hindex j hout]
    exact h.1
  · intro n g' hg'
    rw [hgroups] at hg'
    rcases Table.get_set_some hg' with ⟨-,rfl⟩ | ⟨-,hg'⟩
    · exact hout
    · exact h.2 n g' hg'

lemma Ignores.consumeTokens {j : ℕ} (h : m.Ignores j) {pid : ℕ} {tokens : UInt64}
    (hc : m.consumeTokens pid tokens = .ok m') : m'.Ignores j := by
  have hsame := consumeTokens_ok hc
  constructor
  · rw [hsame.1]
    exact h.1
  · intro n g' hg'
    obtain ⟨g,hg,-,-,hmem⟩ := hsame.get hg'
    rw [← hmem]
    exact h.2 n g hg

/-- The operation creates a group, over processes that are in other groups. -/
def Overlaps (m : CGroupManager) : GroupOp → Prop
  | .create r _ name rootPID _ _ =>
    m.groups.get name = none ∧ (r.get rootPID).isSome ∧ m.Overlapping r rootPID
  | _ => False

variable {op : GroupOp}

/-- A creation is refused, or it makes the group. -/
lemma groupStep_create {r : Registry} {visits : r.Visits} {name : String} {rootPID : ℕ}
    {maxTokens : UInt64} {maxProcs : ℤ}
    (h : m.groupStep (.create r visits name rootPID maxTokens maxProcs) = some m') :
    (m' = m ∧ ¬(m.groups.get name = none ∧ (r.get rootPID).isSome)) ∨
    ∃ g, m.create r visits.order name rootPID maxTokens maxProcs = some (.ok (g,m')) := by
  simp only [groupStep] at h
  obtain ⟨o,ho,h⟩ := Option.map_eq_some_iff.mp h
  cases o with
  | error e =>
    refine .inl ⟨h.symm,?_⟩
    rintro ⟨hname,hroot⟩
    obtain ⟨root,hroot⟩ := Option.isSome_iff_exists.mp hroot
    simp [create,hname,hroot] at ho
  | ok q =>
    cases h
    exact .inr ⟨q.1,ho⟩

/-- Every way an operation can go: it is refused, or it does what it is for. -/
theorem groupStep_cases (hs : m.groupStep op = some m') :
    (m' = m ∧ ¬m.Overlaps op) ∨
    (∃ r visits name rootPID maxTokens maxProcs g, op = .create r visits name rootPID maxTokens maxProcs ∧
      m.create r visits.order name rootPID maxTokens maxProcs = some (.ok (g,m'))) ∨
    (∃ order name, op = .delete order name ∧ (∀ g ∈ m.groups.get name, order.toFinset = g.members) ∧
      m.delete order name = .ok m') ∨
    (∃ name pid, op = .addProcess name pid ∧ m.addProcess name pid = .ok m') ∨
    (∃ pid, op = .removeProcess pid ∧ m' = m.removeProcess pid) ∨
    ∃ pid tokens, op = .consumeTokens pid tokens ∧ m.consumeTokens pid tokens = .ok m' := by
  cases op with
  | create r visits name rootPID maxTokens maxProcs =>
    rcases groupStep_create hs with ⟨hsame,hnot⟩ | ⟨g,hc⟩
    · exact .inl ⟨hsame,fun ho => hnot ⟨ho.1,ho.2.1⟩⟩
    · exact .inr (.inl ⟨r,visits,name,rootPID,maxTokens,maxProcs,g,rfl,hc⟩)
  | delete order name =>
    simp only [groupStep] at hs
    split_ifs at hs with horder
    cases hs
    cases hd : m.delete order name with
    | error e => exact .inl ⟨rfl,id⟩
    | ok m₁ => exact .inr (.inr (.inl ⟨order,name,rfl,horder,hd⟩))
  | addProcess name pid =>
    cases hs
    cases ha : m.addProcess name pid with
    | error e => exact .inl ⟨rfl,id⟩
    | ok m₁ => exact .inr (.inr (.inr (.inl ⟨name,pid,rfl,ha⟩)))
  | removeProcess pid =>
    cases hs
    exact .inr (.inr (.inr (.inr (.inl ⟨pid,rfl,rfl⟩))))
  | consumeTokens pid tokens =>
    cases hs
    cases hc : m.consumeTokens pid tokens with
    | error e => exact .inl ⟨rfl,id⟩
    | ok m₁ => exact .inr (.inr (.inr (.inr (.inr ⟨pid,tokens,rfl,hc⟩))))

theorem sound_step (h : m.Sound) (hs : m.groupStep op = some m') : m'.Sound := by
  rcases groupStep_cases hs with ⟨rfl,-⟩ | ⟨r,visits,name,rootPID,maxTokens,maxProcs,g,rfl,hc⟩ |
    ⟨order,name,rfl,horder,hd⟩ | ⟨name,pid,rfl,ha⟩ | ⟨pid,rfl,rfl⟩ | ⟨pid,tokens,rfl,hc⟩
  · exact h
  · exact h.create hc
  · exact h.delete horder hd
  · exact h.addProcess ha
  · exact h.removeProcess pid
  · exact h.of_same (consumeTokens_ok hc)

/-- One operation keeps the index complete exactly if it creates no overlapping group. -/
theorem owned_step_iff (h : m.Owned) (hsound : m.Sound) (hs : m.groupStep op = some m') :
    m'.Owned ↔ ¬m.Overlaps op := by
  rcases groupStep_cases hs with ⟨rfl,hnot⟩ | ⟨r,visits,name,rootPID,maxTokens,maxProcs,g,rfl,hc⟩ |
    ⟨order,name,rfl,horder,hd⟩ | ⟨name,pid,rfl,ha⟩ | ⟨pid,rfl,rfl⟩ | ⟨pid,tokens,rfl,hc⟩
  · exact iff_of_true h hnot
  · obtain ⟨hname,hroot,-⟩ := create_spec hc
    rw [owned_create_iff h hc]
    simp only [Overlaps,hname,hroot,true_and]
  · exact iff_of_true (h.delete horder hd) id
  · exact iff_of_true (h.addProcess hsound ha) id
  · exact iff_of_true (h.removeProcess pid) id
  · exact iff_of_true (h.of_same (consumeTokens_ok hc)) id

lemma sound_new : new.Sound := by
  constructor
  · intro n g hg
    cases hg
  · intro j n hj
    cases hj

lemma owned_new : new.Owned := by
  intro n g j hg
  cases hg

/-- After every sequence of operations the records agree exactly if no group was ever created over
members of other groups. -/
theorem represents_iff_of_run {trace : List (Transition CGroupManager GroupOp)}
    (run : Run groupStep new trace m) :
    (new.Represents ∧ ∀ e ∈ trace, e.target.Represents) ↔ ∀ e ∈ trace, ¬e.source.Overlaps e.label := by
  rw [and_iff_right ((represents_iff_owned sound_new).mpr owned_new)]
  apply run.good_iff_allowed (fun m => m.Sound ∧ m.Owned) Represents (fun m op => ¬m.Overlaps op)
  · rintro m op m' ⟨hsound,howned⟩ hs
    have hsound' := sound_step hsound hs
    have hiff := owned_step_iff howned hsound hs
    exact ⟨(represents_iff_owned hsound').trans hiff,fun hno => ⟨hsound',hiff.mpr hno⟩⟩
  · exact ⟨sound_new,owned_new⟩

/-- The king, a queen below it and a worker below her. -/
def queenAndWorker : Registry :=
  let queen := Registry.child (Registry.agentRequest 1 "queen" .daemon) none
  let worker := Registry.child (Registry.agentRequest 2 "worker" .worker) none
  ((Registry.boot 0 "king" "root" "vps1").register 0 queen).register 0 worker

def visitQueen : queenAndWorker.Visits := ⟨fun _ => [1,2,3],fun _ => by decide⟩

/-- A group of the queen and her worker. -/
def createQueens : GroupOp := .create queenAndWorker visitQueen "grp1" 2 100000 10

/-- The king joins the group, the worker leaves it, and it is deleted. -/
theorem represents_iff_of_run_deletedGroup : ∃ trace m,
    Run groupStep new trace m ∧ m.getByPID 1 = none ∧ ∀ e ∈ trace, e.target.Represents := by
  obtain ⟨m₁,m₂,h₁,h₂,hnone⟩ : ∃ m₁ m₂, groupStep new createQueens = some m₁ ∧
      exec groupStep [.addProcess "grp1" 1,.removeProcess 3,.delete [2,1] "grp1"] m₁ = some m₂ ∧
      m₂.getByPID 1 = none := ⟨_,_,rfl,rfl,rfl⟩
  have hrun := Run.cons h₁ (Run.of_exec h₂)
  refine ⟨_,m₂,hrun,hnone,((represents_iff_of_run hrun).mpr ?_).2⟩
  intro e he
  rcases List.mem_cons.mp he with rfl | he
  · rintro ⟨-,-,j,name,g,-,hg,-⟩
    cases hg
  · have hlabel := label_mem_of_mem_transitions he
    simp only [List.mem_cons,List.not_mem_nil,or_false] at hlabel
    rcases hlabel with h | h | h <;> rw [h] <;> exact id

/-- The nested groups of the test: the queen stays a member of the first group, and is charged and
limited by the second. -/
theorem nested_create_splits_records :
    ¬ ∀ (trace : List (Transition CGroupManager GroupOp)) (m : CGroupManager),
      Run groupStep new trace m → m.Represents := by
  intro h
  obtain ⟨m,g,hm,hg,hmem,hindex⟩ : ∃ m g,
      exec groupStep [createQueens,.create queenAndWorker visitQueen "grp2" 1 200000 20] new = some m ∧
      m.groups.get "grp1" = some g ∧ 2 ∈ g.members ∧ m.pidGroup.get 2 ≠ some "grp1" :=
    ⟨_,_,rfl,rfl,by decide,by decide⟩
  exact hindex (((h _ m (Run.of_exec hm)).index "grp1" g 2 hg).mp hmem)

end CGroupManager
end HiveKernel
