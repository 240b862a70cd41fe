import HiveKernel.Process.Signals

/-! Operations on the process tree: moving a subtree under another parent, adopting orphans,
and the depth of a process below a root. -/
namespace HiveKernel
open Lib
namespace Registry

/-- Move a process, with its subtree, under a new parent and notify it. -/
def reparent (r : Registry) (now : ℤ) (pid newParentPID : ℕ) : Except String Registry :=
  match r.get newParentPID with
  | none => .error s!"reparent: new parent {newParentPID} not found: {notFound newParentPID}"
  | some _ => match r.get pid with
    | none => .error s!"reparent: {notFound pid}"
    | some _ => .ok ((r.update now pid (fun p => { p with ppid := newParentPID })).send now pid .sighup)

/-- The write of a move. -/
def setParent (r : Registry) (now : ℤ) (pid newParentPID : ℕ) : Registry :=
  r.update now pid (fun p => { p with ppid := newParentPID })

/-- Callers that ignore the error of a failed move. -/
def tryReparent (r : Registry) (now : ℤ) (pid newParentPID : ℕ) : Registry :=
  match r.reparent now pid newParentPID with
  | .ok r' => r'
  | .error _ => r

/-- `p` has a parent, and that parent is missing or dead. -/
def IsOrphan (r : Registry) (p : Process) : Prop :=
  p.ppid ≠ 0 ∧ ∀ parent, r.get p.ppid = some parent → parent.state = .dead

instance (r : Registry) (p : Process) : Decidable (r.IsOrphan p) :=
  match h : r.get p.ppid with
  | none => decidable_of_iff (p.ppid ≠ 0) (by simp [IsOrphan,h])
  | some parent => decidable_of_iff (p.ppid ≠ 0 ∧ parent.state = .dead) (by simp [IsOrphan,h])

/-- One iteration of `orphanAdoption`, on the list of PIDs adopted so far and the table. -/
def adopt (now : ℤ) (adoptiveParentPID : ℕ) (s : List ℕ × Registry) (k : ℕ) : List ℕ × Registry :=
  match s.2.get k with
  | none => s
  | some p =>
    if p.pid ≠ adoptiveParentPID ∧ s.2.IsOrphan p then
      match s.2.reparent now p.pid adoptiveParentPID with
      | .ok r => (s.1 ++ [p.pid],r)
      | .error _ => s
    else s

/-- Move every orphan under the adoptive parent, in the order the table is listed. -/
def orphanAdoption (r : Registry) (now : ℤ) (order : List ℕ) (adoptiveParentPID : ℕ) :
    List ℕ × Registry := order.foldl (adopt now adoptiveParentPID) ([],r)

/-- One iteration of `depthFrom`, on the current PID and the depth counted so far. -/
def depthFromBody (r : Registry) (root : ℕ) (s : ℕ × ℕ) : (ℕ × ℕ) ⊕ ℕ :=
  if s.1 = root then .inr s.2
  else match r.get s.1 with
    | none => .inr s.2
    | some p => if p.ppid = s.1 then .inr s.2 else .inl (p.ppid,s.2+1)

def depthFrom (r : Registry) (fuel root pid : ℕ) : Option ℕ := loop (r.depthFromBody root) fuel (pid,0)

/-- The raw parent link of the table. -/
def link (r : Registry) (k : ℕ) : Option ℕ := (r.get k).map Process.ppid

lemma link_eq_some {r : Registry} {k b : ℕ} :
    r.link k = some b ↔ ∃ p, r.get k = some p ∧ p.ppid = b := by
  simp [link]

@[simp] lemma link_isSome {r : Registry} {k : ℕ} : (r.link k).isSome = (r.get k).isSome := by
  simp [link]

/-- The entry that a moved process has afterwards. -/
def moved (now : ℤ) (newParentPID : ℕ) (p : Process) : Process :=
  { p with ppid := newParentPID, updatedAt := now }

/-- Moving a process changes its own entry and nothing else. -/
lemma reparent_ok {r r' : Registry} {now : ℤ} {pid newParentPID : ℕ}
    (h : r.reparent now pid newParentPID = .ok r') :
    (r.get newParentPID).isSome ∧ (r.get pid).isSome ∧ r'.nextPID = r.nextPID ∧
      ∀ k, r'.get k = if k = pid then (r.get k).map (moved now newParentPID) else r.get k := by
  unfold reparent at h
  cases hn : r.get newParentPID with
  | none => simp [hn] at h
  | some q =>
    cases hp : r.get pid with
    | none => simp [hn,hp] at h
    | some p =>
      simp only [hn,hp,Except.ok.injEq] at h
      subst h
      rw [send_of_state_none _ _ _ rfl]
      refine ⟨rfl,rfl,by rw [update,nextPID_modify],fun k => ?_⟩
      rw [get_update]
      rfl

lemma reparent_error {r : Registry} {now : ℤ} {pid newParentPID : ℕ} {e : String}
    (h : r.reparent now pid newParentPID = .error e) :
    r.get newParentPID = none ∨ r.get pid = none := by
  unfold reparent at h
  cases hn : r.get newParentPID with
  | none => exact .inl rfl
  | some q =>
    cases hp : r.get pid with
    | none => exact .inr rfl
    | some p => simp [hn,hp] at h

lemma get_tryReparent (r : Registry) (now : ℤ) (pid newParentPID k : ℕ) :
    (r.tryReparent now pid newParentPID).get k =
      if k = pid ∧ (r.get newParentPID).isSome then (r.get k).map (moved now newParentPID)
      else r.get k := by
  unfold tryReparent
  cases h : r.reparent now pid newParentPID with
  | ok r' =>
    obtain ⟨hn,-,-,hget⟩ := reparent_ok h
    simp only [hget,hn,and_true]
  | error e =>
    rcases reparent_error h with hn | hp
    · simp [hn]
    · split_ifs with hk
      · rw [hk.1,hp]; rfl
      · rfl

lemma nextPID_tryReparent (r : Registry) (now : ℤ) (pid newParentPID : ℕ) :
    (r.tryReparent now pid newParentPID).nextPID = r.nextPID := by
  unfold tryReparent
  cases h : r.reparent now pid newParentPID with
  | ok r' => exact (reparent_ok h).2.2.1
  | error e => rfl

lemma reparent_isOk {r : Registry} {pid newParentPID : ℕ} (now : ℤ)
    (hn : (r.get newParentPID).isSome) (hp : (r.get pid).isSome) :
    ∃ r', r.reparent now pid newParentPID = .ok r' := by
  obtain ⟨q,hq⟩ := Option.isSome_iff_exists.mp hn
  obtain ⟨p,hp⟩ := Option.isSome_iff_exists.mp hp
  unfold reparent
  rw [hq,hp]
  exact ⟨_,rfl⟩

end Registry
end HiveKernel
