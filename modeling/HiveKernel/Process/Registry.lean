import HiveKernel.Lib.Loop
import HiveKernel.Lib.Table
import HiveKernel.Process.Types

/-! The process table. A value of `Registry` carries what every mutation keeps: an entry is
stored under its own PID, PIDs in use lie between one and the allocation counter, and the name
index points at a process of that name. Loops over the map take the order in which Go's range
statement happens to visit the keys. -/
namespace HiveKernel
open Lib

structure Registry where
  processes : Table ℕ Process
  byName : Table String ℕ
  nextPID : ℕ
  nextPID_pos : 0 < nextPID
  pid_eq : ∀ {k p}, processes.get k = some p → p.pid = k
  pid_bound : ∀ {k p}, processes.get k = some p → 0 < k ∧ k < nextPID
  named : ∀ {n k}, byName.get n = some k → n ≠ "" ∧ ∃ p, processes.get k = some p ∧ p.name = n

namespace Registry

/-- PID 0 is reserved, so allocation starts from one. -/
def new : Registry where
  processes := .empty
  byName := .empty
  nextPID := 1
  nextPID_pos := Nat.one_pos
  pid_eq := by simp
  pid_bound := by simp
  named := by simp

/-- A missing entry is an error in the source, with the text `notFound`. -/
def get (r : Registry) (pid : ℕ) : Option Process := r.processes.get pid

def notFound (pid : ℕ) : String := s!"process {pid} not found"

def getByName (r : Registry) (name : String) : Except String Process :=
  match r.byName.get name with
  | none => .error s!"process {name.quote} not found"
  | some pid => match r.get pid with
    | none => .error s!"process {name.quote} (PID {pid}) not in table"
    | some p => .ok p

lemma get_nextPID (r : Registry) : r.get r.nextPID = none := by
  cases h : r.get r.nextPID with
  | none => rfl
  | some p => exact absurd (r.pid_bound h).2 (Nat.lt_irrefl _)

lemma get_zero (r : Registry) : r.get 0 = none := by
  cases h : r.get 0 with
  | none => rfl
  | some p => exact absurd (r.pid_bound h).1 (Nat.lt_irrefl _)

/-- The entry as `register` stores it: the registry assigns the PID and both time stamps. -/
def stamped (r : Registry) (now : ℤ) (p : Process) : Process :=
  { p with pid := r.nextPID, startedAt := now, updatedAt := now }

/-- Add a process under the next free PID and index it by its name. -/
def register (r : Registry) (now : ℤ) (p : Process) : Registry where
  processes := r.processes.set r.nextPID (r.stamped now p)
  byName := if p.name = "" then r.byName else r.byName.set p.name r.nextPID
  nextPID := r.nextPID+1
  nextPID_pos := Nat.succ_pos _
  pid_eq := by
    intro k q h
    rw [Table.get_set] at h
    split_ifs at h with hk
    · cases h; exact hk.symm
    · exact r.pid_eq h
  pid_bound := by
    intro k q h
    rw [Table.get_set] at h
    split_ifs at h with hk
    · subst hk; exact ⟨r.nextPID_pos,Nat.lt_succ_self _⟩
    · have := r.pid_bound h; omega
  named := by
    have hold : ∀ {n k}, r.byName.get n = some k → n ≠ "" ∧
        ∃ q, (r.processes.set r.nextPID (r.stamped now p)).get k = some q ∧ q.name = n := by
      intro n k h
      obtain ⟨hne,q,hq,hn⟩ := r.named h
      refine ⟨hne,q,?_,hn⟩
      rw [Table.get_set,if_neg (r.pid_bound hq).2.ne]
      exact hq
    intro n k h
    split_ifs at h with hname
    · exact hold h
    · rw [Table.get_set] at h
      split_ifs at h with hn
      · cases h; exact ⟨hn ▸ hname,r.stamped now p,Table.get_set_self _ _ _,hn.symm⟩
      · exact hold h

/-- Rewrite one entry in place. Every caller leaves the PID and the name alone. -/
def modify (r : Registry) (pid : ℕ) (fn : Process → Process)
    (hpid : ∀ p, (fn p).pid = p.pid := by intro _; rfl)
    (hname : ∀ p, (fn p).name = p.name := by intro _; rfl) : Registry :=
  match h : r.processes.get pid with
  | none => r
  | some p =>
    { r with
      processes := r.processes.set pid (fn p)
      pid_eq := by
        intro k q hq
        rw [Table.get_set] at hq
        split_ifs at hq with hk
        · cases hq; rw [hpid,hk]; exact r.pid_eq h
        · exact r.pid_eq hq
      pid_bound := by
        intro k q hq
        rw [Table.get_set] at hq
        split_ifs at hq with hk
        · subst hk; exact r.pid_bound h
        · exact r.pid_bound hq
      named := by
        intro n k hk
        obtain ⟨hne,q,hq,hn⟩ := r.named hk
        by_cases hkp : k = pid
        · subst hkp
          obtain rfl : p = q := Option.some.inj (h.symm.trans hq)
          exact ⟨hne,fn p,Table.get_set_self _ _ _,(hname p).trans hn⟩
        · exact ⟨hne,q,by rw [Table.get_set,if_neg hkp]; exact hq,hn⟩ }

/-- Modify an entry and stamp it. An unknown PID leaves the table as it is; the source also
returns the error `notFound`. -/
def update (r : Registry) (now : ℤ) (pid : ℕ) (fn : Process → Process)
    (hpid : ∀ p, (fn p).pid = p.pid := by intro _; rfl)
    (hname : ∀ p, (fn p).name = p.name := by intro _; rfl) : Registry :=
  r.modify pid (fun p => { fn p with updatedAt := now }) hpid hname

def setState (r : Registry) (now : ℤ) (pid : ℕ) (state : ProcessState) : Registry :=
  r.update now pid (fun p => { p with state := state })

/-- Drop an entry, together with whatever the name index holds under its name. -/
def remove (r : Registry) (pid : ℕ) : Registry :=
  match h : r.processes.get pid with
  | none => r
  | some p =>
    { r with
      processes := r.processes.erase pid
      byName := if p.name = "" then r.byName else r.byName.erase p.name
      pid_eq := by
        intro k q hq
        rw [Table.get_erase] at hq
        split_ifs at hq
        exact r.pid_eq hq
      pid_bound := by
        intro k q hq
        rw [Table.get_erase] at hq
        split_ifs at hq
        exact r.pid_bound hq
      named := by
        intro n k hk
        have hold : p.name ≠ n ∧ r.byName.get n = some k := by
          split_ifs at hk with hname
          · exact ⟨fun he => (r.named hk).1 (he ▸ hname),hk⟩
          · rw [Table.get_erase] at hk
            split_ifs at hk with hn
            exact ⟨Ne.symm hn,hk⟩
        obtain ⟨hne,q,hq,hn⟩ := r.named hold.2
        have hkp : k ≠ pid := by
          rintro rfl
          obtain rfl : p = q := Option.some.inj (h.symm.trans hq)
          exact hold.1 hn
        exact ⟨hne,q,by rw [Table.get_erase,if_neg hkp]; exact hq,hn⟩ }

lemma get_register (r : Registry) (now : ℤ) (p : Process) (k : ℕ) :
    (r.register now p).get k = if k = r.nextPID then some (r.stamped now p) else r.get k :=
  Table.get_set _ _ _ _

lemma get_modify (r : Registry) (pid : ℕ) (fn : Process → Process) (hpid : ∀ p, (fn p).pid = p.pid)
    (hname : ∀ p, (fn p).name = p.name) (k : ℕ) :
    (r.modify pid fn hpid hname).get k = if k = pid then (r.get k).map fn else r.get k := by
  unfold modify
  split
  next h =>
    split_ifs with hk
    · subst hk; rw [show r.get k = none from h]; rfl
    · rfl
  next p h =>
    change (r.processes.set pid (fn p)).get k = _
    rw [Table.get_set]
    split_ifs with hk
    · subst hk; rw [show r.get k = some p from h]; rfl
    · rfl

@[simp] lemma nextPID_modify (r : Registry) (pid : ℕ) (fn : Process → Process)
    (hpid : ∀ p, (fn p).pid = p.pid) (hname : ∀ p, (fn p).name = p.name) :
    (r.modify pid fn hpid hname).nextPID = r.nextPID := by
  unfold modify
  split <;> rfl

@[simp] lemma byName_modify (r : Registry) (pid : ℕ) (fn : Process → Process)
    (hpid : ∀ p, (fn p).pid = p.pid) (hname : ∀ p, (fn p).name = p.name) :
    (r.modify pid fn hpid hname).byName = r.byName := by
  unfold modify
  split <;> rfl

lemma get_update (r : Registry) (now : ℤ) (pid : ℕ) (fn : Process → Process)
    (hpid : ∀ p, (fn p).pid = p.pid) (hname : ∀ p, (fn p).name = p.name) (k : ℕ) :
    (r.update now pid fn hpid hname).get k =
      if k = pid then (r.get k).map (fun p => { fn p with updatedAt := now }) else r.get k := by
  rw [update,get_modify]

lemma get_setState (r : Registry) (now : ℤ) (pid : ℕ) (state : ProcessState) (k : ℕ) :
    (r.setState now pid state).get k =
      if k = pid then (r.get k).map (fun p => { p with state := state, updatedAt := now })
      else r.get k := by
  rw [setState,get_update]

@[simp] lemma nextPID_setState (r : Registry) (now : ℤ) (pid : ℕ) (state : ProcessState) :
    (r.setState now pid state).nextPID = r.nextPID := by
  rw [setState,update,nextPID_modify]

lemma get_remove (r : Registry) (pid k : ℕ) :
    (r.remove pid).get k = if k = pid then none else r.get k := by
  unfold remove
  split
  next h =>
    split_ifs with hk
    · subst hk; exact h
    · rfl
  next p h => exact Table.get_erase _ _ _

lemma remove_of_none {r : Registry} {pid : ℕ} (h : r.get pid = none) : r.remove pid = r := by
  unfold remove
  split
  · rfl
  next p hp => exact absurd (h.symm.trans hp) (by simp)

@[simp] lemma nextPID_remove (r : Registry) (pid : ℕ) : (r.remove pid).nextPID = r.nextPID := by
  unfold remove
  split <;> rfl

lemma byName_remove {r : Registry} {pid : ℕ} {p : Process} (h : r.get pid = some p) :
    (r.remove pid).byName = if p.name = "" then r.byName else r.byName.erase p.name := by
  unfold remove
  split
  next hn => exact absurd (hn.symm.trans h) (by simp)
  next q hq =>
    obtain rfl : q = p := Option.some.inj (hq.symm.trans h)
    rfl

/-- A name that is indexed is found. -/
lemma getByName_of_some {r : Registry} {name : String} {k : ℕ} (h : r.byName.get name = some k) :
    ∃ p, r.getByName name = .ok p := by
  obtain ⟨-,p,hp,-⟩ := r.named h
  exact ⟨p,by simp only [getByName,h,get,hp]⟩

lemma getByName_of_none {r : Registry} {name : String} (h : r.byName.get name = none) :
    ∃ e, r.getByName name = .error e := by
  simp only [getByName,h]
  exact ⟨_,rfl⟩

lemma getByName_congr {r r' : Registry} {name : String} (hname : r'.byName.get name = r.byName.get name)
    (hget : ∀ k, r'.get k = r.get k) : r'.getByName name = r.getByName name := by
  simp only [getByName,hname,hget]

lemma get_pid {r : Registry} {k : ℕ} {p : Process} (h : r.get k = some p) : p.pid = k := r.pid_eq h

lemma get_bound {r : Registry} {k : ℕ} {p : Process} (h : r.get k = some p) :
    0 < k ∧ k < r.nextPID := r.pid_bound h

/-- One pass of a range statement over the process map. -/
def Enumerates (r : Registry) (order : List ℕ) : Prop := r.processes.Enumerates order

instance (r : Registry) (order : List ℕ) : Decidable (r.Enumerates order) :=
  inferInstanceAs (Decidable (r.processes.Enumerates order))

lemma Enumerates.mem_iff {r : Registry} {order : List ℕ} (h : r.Enumerates order) (k : ℕ) :
    k ∈ order ↔ (r.get k).isSome := Table.Enumerates.mem_iff h k

def list (r : Registry) (order : List ℕ) : List Process := order.filterMap r.get

/-- `p` is listed among the children of `ppid`; a process is never its own child. -/
def IsChild (p : Process) (ppid : ℕ) : Prop := p.ppid = ppid ∧ p.pid ≠ ppid

instance (p : Process) (ppid : ℕ) : Decidable (IsChild p ppid) :=
  inferInstanceAs (Decidable (_ ∧ _))

def getChildren (r : Registry) (order : List ℕ) (ppid : ℕ) : List Process :=
  (r.list order).filter (fun p => IsChild p ppid)

/-- The number of direct children, whatever the order of the loop. -/
def countChildren (r : Registry) (ppid : ℕ) : ℕ := (r.getChildren r.processes.keys ppid).length

lemma mem_list {r : Registry} {order : List ℕ} {p : Process} :
    p ∈ r.list order ↔ p.pid ∈ order ∧ r.get p.pid = some p := by
  simp only [list,List.mem_filterMap]
  constructor
  · rintro ⟨k,hk,hp⟩
    obtain rfl := get_pid hp
    exact ⟨hk,hp⟩
  · rintro ⟨hk,hp⟩
    exact ⟨p.pid,hk,hp⟩

lemma mem_getChildren {r : Registry} {order : List ℕ} {ppid : ℕ} {p : Process} :
    p ∈ r.getChildren order ppid ↔ (p.pid ∈ order ∧ r.get p.pid = some p) ∧ IsChild p ppid := by
  simp [getChildren,mem_list]

/-- Depth-first collection of the subtree below `pid`. Each call ranges over the whole map in
an order of its own, so the orders are indexed by the path of calls that led there. Running
out of `fuel` means that the recursion has not returned. -/
def collectDescendants (r : Registry) (order : List ℕ → List ℕ) :
    ℕ → List ℕ → ℕ → Option (List Process)
  | 0,_,_ => none
  | fuel+1,path,pid => do
    let subtrees ← ((r.getChildren (order path) pid)).mapM fun p => do
      let below ← collectDescendants r order fuel (p.pid::path) p.pid
      pure (p::below)
    pure subtrees.flatten

/-- On an acyclic table the recursion is no deeper than the number of processes. -/
def getDescendants (r : Registry) (order : List ℕ → List ℕ) (pid : ℕ) : Option (List Process) :=
  r.collectDescendants order r.nextPID [] pid

/-- One iteration of the walk to the first matching ancestor. -/
def findAncestorBody (r : Registry) (accept : Process → Bool) (current : Process) :
    Process ⊕ Option Process :=
  if current.ppid ≠ 0 ∧ current.ppid ≠ current.pid then
    match r.get current.ppid with
    | none => .inr none
    | some parent => if accept parent then .inr (some parent) else .inl parent
  else .inr none

def findAncestor (r : Registry) (fuel pid : ℕ) (accept : Process → Bool) :
    Option (Option Process) :=
  match r.get pid with
  | none => some none
  | some current => loop (r.findAncestorBody accept) fuel current

/-- The parent both loops of `nearestCommonAncestor` go to, if they go on. -/
def parentOf (r : Registry) (cur : ℕ) : Option ℕ :=
  match r.get cur with
  | none => none
  | some p => if p.ppid = cur ∨ p.ppid = 0 then none else some p.ppid

/-- Collect the ancestors of `a`, itself included. -/
def ancestorsBody (r : Registry) (s : List ℕ × ℕ) : (List ℕ × ℕ) ⊕ List ℕ :=
  match r.parentOf s.2 with
  | none => .inr (s.2::s.1)
  | some next => .inl (s.2::s.1,next)

/-- Walk up from `b`; the first collected process is the answer. -/
def meetBody (r : Registry) (ancestors : List ℕ) (cur : ℕ) : ℕ ⊕ Option ℕ :=
  if cur ∈ ancestors then .inr (some cur)
  else match r.parentOf cur with
    | none => .inr none
    | some next => .inl next

def nearestCommonAncestor (r : Registry) (fuel a b : ℕ) : Option (Option ℕ) := do
  let ancestors ← loop r.ancestorsBody fuel ([],a)
  loop (r.meetBody ancestors) fuel b

end Registry
end HiveKernel
