import HiveKernel.Lib.Run
import HiveKernel.Lib.Table
import HiveKernel.Process.Types

/-! The nodes of the cluster. The two places where the source computes with floating point numbers are
parameters. -/
namespace HiveKernel
open Lib

inductive NodeStatus
  | online | overloaded | draining | offline
  deriving DecidableEq, Repr

def NodeStatus.string : NodeStatus → String
  | online => "online"
  | overloaded => "overloaded"
  | draining => "draining"
  | offline => "offline"

structure NodeInfo where
  id : String
  memoryMB : UInt64
  memoryUsedMB : UInt64 := 0
  diskUsedMB : UInt64 := 0
  processCount : ℤ := 0
  status : NodeStatus := .online
  lastHeartbeat : ℤ := 0
  /-- none for the zero time -/
  registeredAt : Option ℤ := none
  deriving DecidableEq, Repr

/-- What the source does with floating point numbers: whether the used memory is more than 0.9 of the
memory, and the score of a node, with the two constants it is compared with. -/
structure NodeFloat (F : Type) where
  above : (used total : UInt64) → Bool
  score : (used total : UInt64) → (processCount : ℤ) → F
  hundred : F
  limit : F
  lt : F → F → Bool

def NodeInfo.loadScore {F : Type} (fl : NodeFloat F) (n : NodeInfo) : F :=
  if n.memoryMB = 0 then fl.hundred else fl.score n.memoryUsedMB n.memoryMB n.processCount

/-- A node stands under its own identifier. -/
structure NodeRegistry where
  nodes : Table String NodeInfo
  id_eq : ∀ {k n}, nodes.get k = some n → n.id = k

namespace NodeRegistry
variable {F : Type}

def new : NodeRegistry := ⟨.empty,fun h => by cases h⟩

def get (r : NodeRegistry) (nodeID : String) : Option NodeInfo := r.nodes.get nodeID

def notFound (nodeID : String) : String := s!"node {nodeID.quote} not found"

/-- Write the entry of a node. -/
def put (r : NodeRegistry) (n : NodeInfo) : NodeRegistry where
  nodes := r.nodes.set n.id n
  id_eq := by
    intro k m hm
    rcases Table.get_set_some hm with ⟨rfl,rfl⟩ | ⟨-,hm⟩
    · rfl
    · exact r.id_eq hm

/-- Change the node of that identifier, if there is one. Every caller leaves the identifier alone. -/
def modify (r : NodeRegistry) (nodeID : String) (f : NodeInfo → NodeInfo) : Except String NodeRegistry :=
  match r.get nodeID with
  | none => .error (notFound nodeID)
  | some n => .ok (r.put (f n))

def list (r : NodeRegistry) (order : List String) : List NodeInfo := order.filterMap r.get

def listOnline (r : NodeRegistry) (order : List String) : List NodeInfo :=
  (r.list order).filter (fun n => n.status = .online)

/-- The status after a report of used memory. -/
def reportedStatus (fl : NodeFloat F) (n : NodeInfo) (memUsedMB : UInt64) : NodeStatus :=
  if 0 < n.memoryMB ∧ fl.above memUsedMB n.memoryMB = true then .overloaded
  else if n.status = .overloaded then .online
  else n.status

/-- The entry after a report. -/
def reported (fl : NodeFloat F) (now : ℤ) (memUsedMB diskUsedMB : UInt64) (processCount : ℤ) (n : NodeInfo) :
    NodeInfo :=
  { n with
    memoryUsedMB := memUsedMB
    diskUsedMB := diskUsedMB
    processCount := processCount
    lastHeartbeat := now
    status := reportedStatus fl n memUsedMB }

def updateHealth (fl : NodeFloat F) (r : NodeRegistry) (now : ℤ) (nodeID : String)
    (memUsedMB diskUsedMB : UInt64) (processCount : ℤ) : Except String NodeRegistry :=
  r.modify nodeID (reported fl now memUsedMB diskUsedMB processCount)

def setStatus (r : NodeRegistry) (nodeID : String) (status : NodeStatus) : Except String NodeRegistry :=
  r.modify nodeID (fun n => { n with status := status })

def heard (now : ℤ) (n : NodeInfo) : NodeInfo := { n with lastHeartbeat := now }

def heartbeat (r : NodeRegistry) (now : ℤ) (nodeID : String) : Except String NodeRegistry :=
  r.modify nodeID (heard now)

/-- The loop of `FindLeastLoaded`, with the best node and score so far. -/
def leastLoaded (fl : NodeFloat F) (exclude : List String) :
    Option NodeInfo × F → List NodeInfo → Option NodeInfo × F
  | best,[] => best
  | best,n::rest =>
    if n.status ≠ .online ∨ n.id ∈ exclude then leastLoaded fl exclude best rest
    else if fl.lt (n.loadScore fl) best.2 = true then leastLoaded fl exclude (some n,n.loadScore fl) rest
    else leastLoaded fl exclude best rest

def findLeastLoaded (fl : NodeFloat F) (r : NodeRegistry) (order exclude : List String) :
    Except String NodeInfo :=
  match (leastLoaded fl exclude (none,fl.limit) (r.list order)).1 with
  | none => .error "no available online nodes"
  | some n => .ok n

/-- The node has sent no heartbeat since the cutoff. -/
def Stale (cutoff : ℤ) (n : NodeInfo) : Prop := n.status ≠ .offline ∧ n.lastHeartbeat < cutoff

instance (cutoff : ℤ) (n : NodeInfo) : Decidable (Stale cutoff n) := inferInstanceAs (Decidable (_ ∧ _))

/-- One iteration of `CheckStale`. -/
def checkNode (cutoff : ℤ) (s : List String × NodeRegistry) (nodeID : String) : List String × NodeRegistry :=
  match s.2.get nodeID with
  | none => s
  | some n => if Stale cutoff n then (s.1++[n.id],s.2.put { n with status := .offline }) else s

def checkStale (r : NodeRegistry) (now timeout : ℤ) (order : List String) : List String × NodeRegistry :=
  order.foldl (checkNode (now-timeout)) ([],r)

lemma get_put (r : NodeRegistry) (n : NodeInfo) (k : String) :
    (r.put n).get k = if k = n.id then some n else r.get k := Table.get_set _ _ _ _

lemma get_id {r : NodeRegistry} {k : String} {n : NodeInfo} (h : r.get k = some n) : n.id = k := r.id_eq h

lemma get_modify {r r' : NodeRegistry} {nodeID : String} {f : NodeInfo → NodeInfo}
    (hid : ∀ n, (f n).id = n.id) (h : r.modify nodeID f = .ok r') (k : String) :
    r'.get k = if k = nodeID then (r.get k).map f else r.get k := by
  unfold modify at h
  cases hn : r.get nodeID with
  | none => simp [hn] at h
  | some n =>
    simp only [hn,Except.ok.injEq] at h
    rw [← h,get_put,hid,get_id hn]
    split_ifs with hk
    · rw [hk,hn]
      rfl
    · rfl

lemma mem_list {r : NodeRegistry} {order : List String} {n : NodeInfo} :
    n ∈ r.list order ↔ n.id ∈ order ∧ r.get n.id = some n := by
  unfold list
  rw [List.mem_filterMap]
  constructor
  · rintro ⟨k,hk,hn⟩
    rw [get_id hn]
    exact ⟨hk,hn⟩
  · rintro ⟨hk,hn⟩
    exact ⟨n.id,hk,hn⟩

lemma mem_listOnline {r : NodeRegistry} {order : List String} {n : NodeInfo} :
    n ∈ r.listOnline order ↔ (n.id ∈ order ∧ r.get n.id = some n) ∧ n.status = .online := by
  unfold listOnline
  rw [List.mem_filter,mem_list,decide_eq_true_iff]

/-- The loop only takes nodes that are online. -/
lemma leastLoaded_cases (fl : NodeFloat F) (exclude : List String) (best : Option NodeInfo × F)
    (nodes : List NodeInfo) {n : NodeInfo} (h : (leastLoaded fl exclude best nodes).1 = some n) :
    best.1 = some n ∨ n ∈ nodes ∧ n.status = .online ∧ n.id ∉ exclude := by
  induction nodes generalizing best with
  | nil => exact .inl h
  | cons m nodes ih =>
    unfold leastLoaded at h
    split_ifs at h with hskip hlt
    · rcases ih best h with hbest | ⟨hmem,hrest⟩
      · exact .inl hbest
      · exact .inr ⟨List.mem_cons_of_mem m hmem,hrest⟩
    · push Not at hskip
      rcases ih (some m,m.loadScore fl) h with hm | ⟨hmem,hrest⟩
      · cases hm
        exact .inr ⟨List.mem_cons_self,hskip⟩
      · exact .inr ⟨List.mem_cons_of_mem m hmem,hrest⟩
    · rcases ih best h with hbest | ⟨hmem,hrest⟩
      · exact .inl hbest
      · exact .inr ⟨List.mem_cons_of_mem m hmem,hrest⟩

lemma findLeastLoaded_ok {fl : NodeFloat F} {r : NodeRegistry} {order exclude : List String} {n : NodeInfo}
    (h : r.findLeastLoaded fl order exclude = .ok n) : r.get n.id = some n ∧ n.status = .online := by
  unfold findLeastLoaded at h
  cases hbest : (leastLoaded fl exclude (none,fl.limit) (r.list order)).1 with
  | none => simp [hbest] at h
  | some m =>
    simp only [hbest,Except.ok.injEq] at h
    subst h
    rcases leastLoaded_cases fl exclude _ _ hbest with hnone | ⟨hmem,honline,-⟩
    · cases hnone
    · exact ⟨(mem_list.mp hmem).2,honline⟩

/-- The entry of a node after the check. -/
def checked (cutoff : ℤ) (n : NodeInfo) : NodeInfo := if Stale cutoff n then { n with status := .offline } else n

lemma checked_checked (cutoff : ℤ) (n : NodeInfo) : checked cutoff (checked cutoff n) = checked cutoff n := by
  unfold checked
  by_cases hstale : Stale cutoff n
  · rw [if_pos hstale,if_neg (fun h => h.1 rfl)]
  · rw [if_neg hstale,if_neg hstale]

lemma get_checkNode (cutoff : ℤ) (s : List String × NodeRegistry) (nodeID k : String) :
    (checkNode cutoff s nodeID).2.get k = if k = nodeID
      then (s.2.get k).map (checked cutoff) else s.2.get k := by
  unfold checkNode checked
  split_ifs with hk
  · subst hk
    cases hn : s.2.get k with
    | none => simp [hn]
    | some n =>
      by_cases hstale : Stale cutoff n
      · simp [hstale,get_put,get_id hn]
      · simp [hstale,hn]
  · cases hn : s.2.get nodeID with
    | none => rfl
    | some n =>
      by_cases hstale : Stale cutoff n
      · simp [hstale,get_put,get_id hn,hk]
      · simp [hstale]

/-- What the loop does to an entry. -/
lemma get_checkNodes (cutoff : ℤ) (order : List String) (s : List String × NodeRegistry) (k : String) :
    (order.foldl (checkNode cutoff) s).2.get k = if k ∈ order
      then (s.2.get k).map (checked cutoff) else s.2.get k := by
  induction order generalizing s with
  | nil => rfl
  | cons j order ih =>
    rw [List.foldl_cons,ih,get_checkNode]
    by_cases hj : k = j
    · subst hj
      cases s.2.get k with
      | none => simp
      | some n => simp [checked_checked]
    · simp [hj]

lemma get_checkStale (r : NodeRegistry) (now timeout : ℤ) {order : List String}
    (h : r.nodes.Enumerates order) (k : String) :
    (r.checkStale now timeout order).2.get k = (r.get k).map (checked (now-timeout)) := by
  unfold checkStale
  rw [get_checkNodes]
  split_ifs with hk
  · rfl
  · have hnone : r.get k = none := by
      rw [h.mem_iff] at hk
      exact Option.not_isSome_iff_eq_none.mp hk
    rw [hnone]
    rfl

end NodeRegistry
end HiveKernel
