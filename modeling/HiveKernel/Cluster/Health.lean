import HiveKernel.Cluster.Migration
import Mathlib.Algebra.Order.Field.Rat

/-! Health reports and the status of a node. A report of too much memory makes any node overloaded, and
the next report of less makes it online, whatever it was before. -/
namespace HiveKernel
open Lib

inductive HealthOp
  | updateHealth (now : ℤ) (nodeID : String) (memUsedMB diskUsedMB : UInt64) (processCount : ℤ)
  | heartbeat (now : ℤ) (nodeID : String)
  | checkStale (now timeout : ℤ) (order : List String)

namespace NodeRegistry
variable {F : Type} {fl : NodeFloat F} {id : String} {r r' : NodeRegistry} {op : HealthOp}

/-- The table after a call that may have returned an error. -/
def orSame (r : NodeRegistry) : Except String NodeRegistry → NodeRegistry
  | .ok r' => r'
  | .error _ => r

def healthStep (fl : NodeFloat F) (r : NodeRegistry) : HealthOp → Option NodeRegistry
  | .updateHealth now nodeID memUsedMB diskUsedMB processCount =>
    some (r.orSame (r.updateHealth fl now nodeID memUsedMB diskUsedMB processCount))
  | .heartbeat now nodeID => some (r.orSame (r.heartbeat now nodeID))
  | .checkStale now timeout order =>
    if r.nodes.Enumerates order then some (r.checkStale now timeout order).2 else none

/-- Nobody is offered the node. -/
structure Withheld (id : String) (r : NodeRegistry) : Prop where
  status : ∀ n, r.get id = some n → n.status ≠ .online
  listOnline : ∀ order, ∀ n ∈ r.listOnline order, n.id ≠ id
  findLeastLoaded : ∀ {F : Type} (fl : NodeFloat F) order exclude n,
    r.findLeastLoaded fl order exclude = .ok n → n.id ≠ id
  prepareMigration : ∀ c : Cluster, c.nodes = r → ∀ now order rootPID mig c',
    c.prepareMigration now order rootPID id ≠ some (.ok mig,c')

/-- The report is one of too much memory for that node. -/
def Overloads (fl : NodeFloat F) (id : String) (r : NodeRegistry) : HealthOp → Prop
  | .updateHealth _ nodeID memUsedMB _ _ => nodeID = id ∧
      ∃ n, r.get id = some n ∧ 0 < n.memoryMB ∧ fl.above memUsedMB n.memoryMB = true
  | _ => False

/-- The report is one of less. -/
def Relieves (fl : NodeFloat F) (id : String) (r : NodeRegistry) : HealthOp → Prop
  | .updateHealth _ nodeID memUsedMB _ _ => nodeID = id ∧
      ∃ n, r.get id = some n ∧ ¬(0 < n.memoryMB ∧ fl.above memUsedMB n.memoryMB = true)
  | _ => False

/-- The check finds that node stale. -/
def Expires (id : String) (r : NodeRegistry) : HealthOp → Prop
  | .checkStale now timeout _ => ∃ n, r.get id = some n ∧ Stale (now-timeout) n
  | _ => False

/-- Too much memory was reported, and since then the node was not found stale. -/
def LeftOverloaded (fl : NodeFloat F) (id : String) (past : List (Transition NodeRegistry HealthOp)) : Prop :=
  ∃ before e after, past = before++e::after ∧ Overloads fl id e.source e.label ∧
    ∀ d ∈ after, ¬Expires id d.source d.label

lemma prepareMigration_online {c c' : Cluster} {now : ℤ} {order : List ℕ → List ℕ} {rootPID : ℕ} {mig : Migration}
    (h : c.prepareMigration now order rootPID id = some (.ok mig,c')) :
    ∃ n, c.nodes.get id = some n ∧ n.status = .online := by
  obtain ⟨root,descendants,hcheck,-⟩ := Cluster.prepareMigration_ok h
  exact (Cluster.checkMigration_ok hcheck).2.2.2

/-- The status decides. -/
lemma withheld_iff : r.Withheld id ↔ ∀ n, r.get id = some n → n.status ≠ .online := by
  refine ⟨fun h => h.status,fun h => ⟨h,?_,?_,?_⟩⟩
  · rintro order n hn rfl
    obtain ⟨⟨-,hget⟩,honline⟩ := mem_listOnline.mp hn
    exact h n hget honline
  · rintro F fl order exclude n hn rfl
    obtain ⟨hget,honline⟩ := findLeastLoaded_ok hn
    exact h n hget honline
  · rintro c rfl now order rootPID mig c' hprepared
    obtain ⟨n,hget,honline⟩ := prepareMigration_online hprepared
    exact h n hget honline

lemma get_orSame (r : NodeRegistry) (nodeID : String) {f : NodeInfo → NodeInfo} (hid : ∀ n, (f n).id = n.id)
    (k : String) : (r.orSame (r.modify nodeID f)).get k = if k = nodeID then (r.get k).map f else r.get k := by
  cases h : r.modify nodeID f with
  | ok r' => exact get_modify hid h k
  | error e =>
    change r.get k = _
    split_ifs with hk
    · subst hk
      unfold modify at h
      cases hn : r.get k with
      | none => rfl
      | some n => simp [hn] at h
    · rfl

lemma get_self (f : NodeInfo → NodeInfo) (hid : ∀ n, (f n).id = n.id) {n : NodeInfo} (hn : r.get id = some n) :
    (r.orSame (r.modify id f)).get id = some (f n) := by
  rw [get_orSame r id hid,if_pos rfl,hn]
  rfl

lemma get_other {nodeID : String} (f : NodeInfo → NodeInfo) (hid : ∀ n, (f n).id = n.id) (hne : id ≠ nodeID) :
    (r.orSame (r.modify nodeID f)).get id = r.get id := by
  rw [get_orSame r nodeID hid,if_neg hne]

/-- Every way a call can go for one node. -/
lemma status_step {n : NodeInfo} (hs : r.healthStep fl op = some r') (hn : r.get id = some n) :
    ∃ n', r'.get id = some n' ∧
      ((Overloads fl id r op ∧ n'.status = .overloaded) ∨
        (Relieves fl id r op ∧ n'.status = if n.status = .overloaded then .online else n.status) ∨
        (Expires id r op ∧ n'.status = .offline) ∨
        (¬Expires id r op ∧ n'.status = n.status)) := by
  cases op with
  | updateHealth now nodeID memUsedMB diskUsedMB processCount =>
    cases hs
    by_cases hid : id = nodeID
    · subst hid
      refine ⟨_,get_self (reported fl now memUsedMB diskUsedMB processCount) (fun _ => rfl) hn,?_⟩
      by_cases habove : 0 < n.memoryMB ∧ fl.above memUsedMB n.memoryMB = true
      · exact .inl ⟨⟨rfl,n,hn,habove⟩,if_pos habove⟩
      · exact .inr (.inl ⟨⟨rfl,n,hn,habove⟩,if_neg habove⟩)
    · refine ⟨n,(get_other (reported fl now memUsedMB diskUsedMB processCount) (fun _ => rfl) hid).trans hn,?_⟩
      exact .inr (.inr (.inr ⟨not_false,rfl⟩))
  | heartbeat now nodeID =>
    cases hs
    by_cases hid : id = nodeID
    · subst hid
      refine ⟨_,get_self (heard now) (fun _ => rfl) hn,?_⟩
      exact .inr (.inr (.inr ⟨not_false,rfl⟩))
    · refine ⟨n,(get_other (heard now) (fun _ => rfl) hid).trans hn,?_⟩
      exact .inr (.inr (.inr ⟨not_false,rfl⟩))
  | checkStale now timeout order =>
    simp only [healthStep] at hs
    split_ifs at hs with horder
    cases hs
    refine ⟨_,(get_checkStale r now timeout horder id).trans (congrArg _ hn),?_⟩
    by_cases hstale : Stale (now-timeout) n
    · rw [checked,if_pos hstale]
      exact .inr (.inr (.inl ⟨⟨n,hn,hstale⟩,rfl⟩))
    · rw [checked,if_neg hstale]
      refine .inr (.inr (.inr ⟨?_,rfl⟩))
      rintro ⟨m,hm,hstale'⟩
      cases hn.symm.trans hm
      exact hstale hstale'

/-- The reports that make a node overloaded, and those that bring it back. -/
lemma status_of_overloads {n : NodeInfo} (hs : r.healthStep fl op = some r') (hn : r.get id = some n)
    (h : Overloads fl id r op) : ∃ n', r'.get id = some n' ∧ n'.status = .overloaded := by
  cases op with
  | updateHealth now nodeID memUsedMB diskUsedMB processCount =>
    obtain ⟨rfl,m,hm,habove⟩ := h
    cases hn.symm.trans hm
    cases hs
    exact ⟨_,get_self (reported fl now memUsedMB diskUsedMB processCount) (fun _ => rfl) hn,if_pos habove⟩
  | heartbeat now nodeID => exact h.elim
  | checkStale now timeout order => exact h.elim

lemma status_of_relieves {n : NodeInfo} (hs : r.healthStep fl op = some r') (hn : r.get id = some n)
    (h : Relieves fl id r op) (hover : n.status = .overloaded) :
    ∃ n', r'.get id = some n' ∧ n'.status = .online := by
  cases op with
  | updateHealth now nodeID memUsedMB diskUsedMB processCount =>
    obtain ⟨rfl,m,hm,hless⟩ := h
    cases hn.symm.trans hm
    cases hs
    refine ⟨_,get_self (reported fl now memUsedMB diskUsedMB processCount) (fun _ => rfl) hn,?_⟩
    exact (if_neg hless).trans (if_pos hover)
  | heartbeat now nodeID => exact h.elim
  | checkStale now timeout order => exact h.elim

/-- As long as a node is neither relieved nor found stale it stays overloaded. -/
lemma overloaded_of_run {trace : List (Transition NodeRegistry HealthOp)}
    (run : Run (healthStep fl) r trace r') (h : ∃ n, r.get id = some n ∧ n.status = .overloaded)
    (hexpires : ∀ d ∈ trace, ¬Expires id d.source d.label) (hheld : ∀ d ∈ trace, d.target.Withheld id) :
    ∃ n, r'.get id = some n ∧ n.status = .overloaded := by
  induction run with
  | nil => exact h
  | @cons r s t op trace first _ ih =>
    rw [List.forall_mem_cons] at hexpires hheld
    refine ih ?_ hexpires.2 hheld.2
    obtain ⟨n,hn,hover⟩ := h
    obtain ⟨n',hn',hcases⟩ := status_step first hn
    refine ⟨n',hn',?_⟩
    rcases hcases with ⟨-,hst⟩ | ⟨-,hst⟩ | ⟨hexp,-⟩ | ⟨-,hst⟩
    · exact hst
    · rw [if_pos hover] at hst
      exact absurd hst (hheld.1.status n' hn')
    · exact absurd hexp hexpires.1
    · exact hst.trans hover

/-- What holds of the node after a past of reports. -/
def Kept (fl : NodeFloat F) (id : String) (past : List (Transition NodeRegistry HealthOp)) (r : NodeRegistry) :
    Prop :=
  ∃ n, r.get id = some n ∧ n.status ≠ .online ∧ (n.status = .overloaded → LeftOverloaded fl id past)

lemma Kept.withheld {past : List (Transition NodeRegistry HealthOp)} (h : Kept fl id past r) :
    r.Withheld id := by
  obtain ⟨n,hn,hst,-⟩ := h
  rw [withheld_iff]
  intro m hm
  cases hn.symm.trans hm
  exact hst

lemma Kept.step {past : List (Transition NodeRegistry HealthOp)} (h : Kept fl id past r)
    (hs : r.healthStep fl op = some r') (hno : LeftOverloaded fl id past → ¬Relieves fl id r op) :
    Kept fl id (past++[⟨r,op,r'⟩]) r' := by
  obtain ⟨n,hn,hst,hpast⟩ := h
  obtain ⟨n',hn',hcases⟩ := status_step hs hn
  refine ⟨n',hn',?_⟩
  rcases hcases with ⟨hover,hst'⟩ | ⟨hrel,hst'⟩ | ⟨-,hst'⟩ | ⟨hexp,hst'⟩
  · rw [hst']
    exact ⟨by decide,fun _ => ⟨past,⟨r,op,r'⟩,[],rfl,hover,by simp⟩⟩
  · have hnot : n.status ≠ .overloaded := fun he => hno (hpast he) hrel
    rw [if_neg hnot] at hst'
    rw [hst']
    exact ⟨hst,fun he => absurd he hnot⟩
  · rw [hst']
    exact ⟨by decide,fun he => by cases he⟩
  · rw [hst']
    refine ⟨hst,fun he => ?_⟩
    obtain ⟨before,e,after,rfl,hover,hafter⟩ := hpast he
    refine ⟨before,e,after++[⟨r,op,r'⟩],by simp,hover,fun d hd => ?_⟩
    rcases List.mem_append.mp hd with hd | hd
    · exact hafter d hd
    · rw [List.mem_singleton.mp hd]
      exact hexp

lemma withheld_of_kept {past trace : List (Transition NodeRegistry HealthOp)}
    (run : Run (healthStep fl) r trace r') (h : Kept fl id past r)
    (hno : ∀ before e later, trace = before++e::later → LeftOverloaded fl id (past++before) →
      ¬Relieves fl id e.source e.label) : ∀ e ∈ trace, e.target.Withheld id := by
  induction run generalizing past with
  | nil => simp
  | @cons r s t op trace first _ ih =>
    have hs := h.step first (fun hleft => hno [] ⟨r,op,s⟩ trace rfl (by simpa using hleft))
    rw [List.forall_mem_cons]
    refine ⟨hs.withheld,ih hs (fun before e later he hleft => ?_)⟩
    subst he
    exact hno (⟨r,op,s⟩::before) e later rfl (by simpa using hleft)

/-- A node that was set to draining or offline is withheld as long as only reports, heartbeats and checks
come in, exactly if no report of less memory follows one of too much without a check in between that finds
the node stale. -/
theorem withheld_iff_of_run {trace : List (Transition NodeRegistry HealthOp)}
    (run : Run (healthStep fl) r trace r') {n : NodeInfo} (hn : r.get id = some n)
    (hstatus : n.status = .draining ∨ n.status = .offline) :
    (r.Withheld id ∧ ∀ e ∈ trace, e.target.Withheld id) ↔
      ∀ before e later, trace = before++e::later → LeftOverloaded fl id before →
        ¬Relieves fl id e.source e.label := by
  have hkept : Kept fl id [] r := by
    refine ⟨n,hn,?_,fun he => ?_⟩
    · rcases hstatus with h | h <;> simp [h]
    · rcases hstatus with h | h <;> simp [h] at he
  constructor
  · rintro ⟨-,hheld⟩ past e later rfl ⟨before,o,after,rfl,hover,hafter⟩ hrel
    obtain ⟨hpast,hlast,-⟩ := run.split
    obtain ⟨hfirst,hover',hbetween⟩ := hpast.split
    have hthere : ∀ {s t : NodeRegistry} {trace : List (Transition NodeRegistry HealthOp)},
        Run (healthStep fl) s trace t → (∃ m, s.get id = some m) → ∃ m, t.get id = some m := by
      intro s t trace hrun hs
      refine (hrun.invariant (fun s op t (h : ∃ m, s.get id = some m) hst => ?_) hs).2
      obtain ⟨m,hm⟩ := h
      obtain ⟨m',hm',-⟩ := status_step hst hm
      exact ⟨m',hm'⟩
    obtain ⟨m,hm⟩ := hthere hfirst ⟨n,hn⟩
    obtain ⟨m',hm',hst⟩ := overloaded_of_run hbetween (status_of_overloads hover' hm hover) hafter
      (fun d hd => hheld d (by simp [hd]))
    obtain ⟨n',hn',honline⟩ := status_of_relieves hlast hm' hrel hst
    exact (hheld e (by simp)).status n' hn' honline
  · exact fun hno => ⟨hkept.withheld,withheld_of_kept run hkept (by simpa using hno)⟩

/-- The same computations with exact numbers. -/
def exactFloat : NodeFloat ℚ where
  above used total := decide (9*total.toNat < 10*used.toNat)
  score used total processCount := used.toNat/total.toNat+processCount/100
  hundred := 100
  limit := 999
  lt a b := decide (a < b)

/-- A node that is being drained. -/
def drained : NodeRegistry := new.put { id := "vps2", memoryMB := 1000, processCount := 3, status := .draining }

def used (memUsedMB : UInt64) : HealthOp := .updateHealth 5 "vps2" memUsedMB 0 3

/-- It reports little memory, then much. -/
theorem withheld_iff_of_run_filling : ∃ trace r, Run (healthStep exactFloat) drained trace r ∧
    (r.get "vps2").map NodeInfo.status = some .overloaded ∧ ∀ e ∈ trace, e.target.Withheld "vps2" := by
  obtain ⟨s,r,hs,hr⟩ : ∃ s r, drained.healthStep exactFloat (used 500) = some s ∧
      s.healthStep exactFloat (used 950) = some r := ⟨_,_,rfl,rfl⟩
  have hstatus : (r.get "vps2").map NodeInfo.status = some .overloaded := by
    cases hs
    cases hr
    decide +kernel
  have hrun := Run.cons hs (.cons hr (.nil r))
  refine ⟨_,r,hrun,hstatus,((withheld_iff_of_run hrun rfl (.inl rfl)).mpr ?_).2⟩
  rintro before e later he ⟨first,o,after,rfl,hover,-⟩
  have hnot : ¬Overloads exactFloat "vps2" drained (used 500) := by
    rintro ⟨-,n,hn,-,habove⟩
    cases hn
    exact absurd habove (by decide)
  cases first with
  | nil =>
    obtain ⟨rfl,-⟩ := List.cons.inj he
    exact absurd hover hnot
  | cons t first =>
    exfalso
    have hlen := congrArg List.length he
    simp only [List.length_append,List.length_cons,List.length_nil] at hlen
    omega

/-- It reports much, then little, and is online. -/
theorem drained_node_online_again : ¬∀ (r r' : NodeRegistry) (trace : List (Transition NodeRegistry HealthOp))
    (id : String) (n : NodeInfo), Run (healthStep exactFloat) r trace r' → r.get id = some n →
    n.status = .draining ∨ n.status = .offline → r'.Withheld id := by
  intro h
  have hend : (exec (healthStep exactFloat) [used 950,used 500] drained).map
      (fun r => (r.get "vps2").map NodeInfo.status) = some (some .online) := by
    decide +kernel
  obtain ⟨r,hr,hstatus⟩ := Option.map_eq_some_iff.mp hend
  obtain ⟨n,hn,honline⟩ := Option.map_eq_some_iff.mp hstatus
  exact (h drained r _ "vps2" _ (Run.of_exec hr) rfl (.inl rfl)).status n hn honline

end NodeRegistry
end HiveKernel
