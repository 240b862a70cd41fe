import HiveKernel.Lib.Run
import HiveKernel.Process.Spawner

/-! The index of names. It holds one PID for a name, while any number of processes may have that name.
A removal takes the entry of the name away whether or not it belongs to the process that is removed. -/
namespace HiveKernel
open Lib
namespace Registry
variable {r r' : Registry}

inductive IndexOp
  | register (now : ℤ) (p : Process)
  | remove (pid : ℕ)

/-- The error of a removal that finds no process is left out, as it changes nothing. -/
def indexStep (r : Registry) : IndexOp → Option Registry
  | .register now p => some (r.register now p)
  | .remove pid => some (r.remove pid)

/-- A lookup succeeds exactly if somebody has the name, and finds a registered process of that name. -/
def Indexed (r : Registry) : Prop :=
  ∀ name, name ≠ "" →
    ((∃ p, r.getByName name = .ok p) ↔ ∃ k p, r.get k = some p ∧ p.name = name) ∧
    ∀ p, r.getByName name = .ok p → r.get p.pid = some p ∧ p.name = name

/-- The process to be removed has a name, and another one has the same. -/
def SharesName (r : Registry) : IndexOp → Prop
  | .remove pid => ∃ p, r.get pid = some p ∧ p.name ≠ "" ∧
      ∃ k q, r.get k = some q ∧ k ≠ pid ∧ q.name = p.name
  | .register .. => False

/-- Every name that somebody has is in the index. -/
def NamesCovered (r : Registry) : Prop :=
  ∀ k p, r.get k = some p → p.name ≠ "" → (r.byName.get p.name).isSome

/-- What the index finds is never wrong. -/
lemma getByName_sound {name : String} {p : Process} (h : r.getByName name = .ok p) :
    r.get p.pid = some p ∧ p.name = name := by
  unfold getByName at h
  split at h
  · cases h
  next pid hpid =>
    obtain ⟨-,q,hq,hname⟩ := r.named hpid
    rw [show r.get pid = some q from hq] at h
    cases h
    exact ⟨by rw [get_pid hq]; exact hq,hname⟩

lemma indexed_iff_namesCovered : r.Indexed ↔ r.NamesCovered := by
  constructor
  · intro h k p hp hne
    obtain ⟨q,hq⟩ := (h p.name hne).1.mpr ⟨k,p,hp,rfl⟩
    by_contra hnone
    obtain ⟨e,he⟩ := getByName_of_none (Option.not_isSome_iff_eq_none.mp hnone)
    rw [he] at hq
    cases hq
  · intro h name hne
    refine ⟨⟨?_,?_⟩,fun p hp => getByName_sound hp⟩
    · rintro ⟨p,hp⟩
      obtain ⟨hget,hname⟩ := getByName_sound hp
      exact ⟨p.pid,p,hget,hname⟩
    · rintro ⟨k,p,hp,rfl⟩
      obtain ⟨j,hj⟩ := Option.isSome_iff_exists.mp (h k p hp hne)
      exact getByName_of_some hj

lemma namesCovered_new : new.NamesCovered := by
  intro k p hp
  cases hp

lemma NamesCovered.register (h : r.NamesCovered) (now : ℤ) (p : Process) :
    (r.register now p).NamesCovered := by
  intro k q hq hne
  rw [get_register] at hq
  simp only [Registry.register]
  split_ifs at hq with hk
  · cases hq
    rw [if_neg (show ¬p.name = "" from hne)]
    exact Option.isSome_iff_exists.mpr ⟨r.nextPID,Table.get_set_self _ _ _⟩
  · split_ifs
    · exact h k q hq hne
    · exact Table.isSome_get_set _ _ (h k q hq hne)

/-- A removal leaves a process without its entry exactly if the two have the same name. -/
lemma NamesCovered.remove_iff (h : r.NamesCovered) (pid : ℕ) :
    (r.remove pid).NamesCovered ↔ ¬r.SharesName (.remove pid) := by
  cases hp : r.get pid with
  | none =>
    rw [remove_of_none hp]
    refine ⟨?_,fun _ => h⟩
    rintro - ⟨p,hp',-⟩
    cases hp.symm.trans hp'
  | some p =>
    constructor
    · rintro hcov ⟨p',hp',hne,k,q,hq,hk,hname⟩
      cases hp.symm.trans hp'
      have hstays : (r.remove pid).get k = some q := by
        rw [get_remove,if_neg hk]
        exact hq
      have hindexed := hcov k q hstays (hname ▸ hne)
      rw [byName_remove hp,if_neg hne,hname,Table.get_erase,if_pos rfl] at hindexed
      cases hindexed
    · intro hno k q hq hne
      rw [get_remove] at hq
      split_ifs at hq with hk
      rw [byName_remove hp]
      split_ifs with hempty
      · exact h k q hq hne
      · rw [Table.get_erase_of_ne]
        · exact h k q hq hne
        · exact fun hname => hno ⟨p,hp,hempty,k,q,hq,hk,hname⟩

theorem namesCovered_step_iff {op : IndexOp} (h : r.NamesCovered) (hs : r.indexStep op = some r') :
    r'.NamesCovered ↔ ¬r.SharesName op := by
  cases op with
  | register now p =>
    cases hs
    exact ⟨fun _ hno => hno,fun _ => h.register now p⟩
  | remove pid =>
    cases hs
    exact h.remove_iff pid

/-- The index is right in every state exactly if no process is removed while another one has its name. -/
theorem indexed_iff_of_run {trace : List (Transition Registry IndexOp)} (run : Run indexStep new trace r) :
    (new.Indexed ∧ ∀ e ∈ trace, e.target.Indexed) ↔ ∀ e ∈ trace, ¬e.source.SharesName e.label := by
  rw [and_iff_right (indexed_iff_namesCovered.mpr namesCovered_new)]
  apply run.good_iff_allowed NamesCovered Indexed (fun r op => ¬r.SharesName op)
  · intro r op r' h hs
    have hiff := namesCovered_step_iff h hs
    exact ⟨indexed_iff_namesCovered.trans hiff,hiff.mpr⟩
  · exact namesCovered_new

/-- A process as somebody registers it. -/
def unregistered (name : String) : Process := { kernelProcess "" "root" "vps1" with name := name, ppid := 1 }

/-- Two leads of one name stay, a scout goes. -/
theorem indexed_iff_of_run_removedScout : ∃ trace r, Run indexStep new trace r ∧
    r.get 3 = none ∧ ∀ e ∈ trace, e.target.Indexed := by
  obtain ⟨r,hr,hget⟩ : ∃ r, exec indexStep [.register 0 (unregistered "queen-lead"),
        .register 0 (unregistered "queen-lead"),.register 0 (unregistered "scout")] new = some r ∧
      ∀ k q, r.processes.get k = some q → q.name = "scout" → k = 3 := ⟨_,rfl,by decide⟩
  have hrun := (Run.of_exec hr).snoc (show r.indexStep (.remove 3) = some (r.remove 3) from rfl)
  refine ⟨_,r.remove 3,hrun,?_,((indexed_iff_of_run hrun).mpr ?_).2⟩
  · rw [get_remove,if_pos rfl]
  · intro e he
    rcases List.mem_append.mp he with he | he
    · have hlabel := label_mem_of_mem_transitions he
      simp only [List.mem_cons,List.not_mem_nil,or_false] at hlabel
      rcases hlabel with h | h | h <;> rw [h] <;> exact id
    · rw [List.mem_singleton.mp he]
      rintro ⟨p,hp,-,k,q,hq,hk,hname⟩
      cases hr
      cases hp
      exact hk (hget k q hq hname)

/-- The first of two leads is removed, and the other one can no longer be found by its name. -/
theorem removed_lead_hides_other :
    ¬ ∀ (trace : List (Transition Registry IndexOp)) (r : Registry), Run indexStep new trace r → r.Indexed := by
  intro h
  obtain ⟨r,p,e,hr,hp,hname,hfound⟩ : ∃ r p e, exec indexStep [.register 0 (unregistered "queen-lead"),
        .register 0 (unregistered "queen-lead"),.remove 1] new = some r ∧ r.get 2 = some p ∧
      p.name = "queen-lead" ∧ r.getByName "queen-lead" = .error e := ⟨_,_,_,rfl,rfl,rfl,rfl⟩
  obtain ⟨q,hq⟩ := (h _ r (Run.of_exec hr) "queen-lead" (by decide)).1.mpr ⟨2,p,hp,hname⟩
  cases hq.symm.trans hfound

end Registry
end HiveKernel
