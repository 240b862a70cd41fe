import HiveKernel.Lib.ParentLinks
import HiveKernel.Process.TreeInvariant

/-! One scan for zombies as a whole. The scan rewrites the parent links it goes over, and a chain of
zombies may be met in any order; what it leaves is described by the tree before it. -/
namespace HiveKernel
open Lib
namespace Registry

/-- No entry was updated after the scan, or the timeout is not negative: a process that was just moved is
due only if it was due before. -/
def ClockSound (config : SupervisorConfig) (now : ℤ) (r : Registry) : Prop :=
  0 ≤ config.zombieTimeout ∨ ∀ k p, r.get k = some p → p.updatedAt ≤ now

/-- What a scan relies on: PID 1 is no zombie, the others have smaller parents, and those that are not
dead have registered ones. -/
structure Scannable (r : Registry) : Prop where
  root : ∀ p, r.get 1 = some p → p.state ≠ .zombie
  lower : ∀ k p, r.get k = some p → k ≠ 1 → 0 < p.ppid ∧ p.ppid < k
  parent : ∀ k p, r.get k = some p → k ≠ 1 → p.state ≠ .dead → (r.get p.ppid).isSome

/-- The table in the middle of a scan, against the table when it started. -/
structure PartlyReaped (config : SupervisorConfig) (now : ℤ) (r r' : Registry) : Prop where
  /-- What is left was there, in the same state, and is due only if it was. -/
  kept : ∀ k p', r'.get k = some p' → ∃ p, r.get k = some p ∧ p'.state = p.state ∧
    (TimedOut config now p' → TimedOut config now p)
  gone : ∀ k p, r.get k = some p → r'.get k = none → TimedOut config now p
  nearest : ∀ k p', r'.get k = some p' → k ≠ 1 → p'.state ≠ .dead →
    Nearest r.link (fun a => (r'.get a).isSome) k p'.ppid

variable {config : SupervisorConfig} {now : ℤ} {r r' : Registry}

lemma Scannable.partlyReaped (h : r.Scannable) : PartlyReaped config now r r where
  kept k p hp := ⟨p,hp,rfl,id⟩
  gone k p hp hnone := by
    rw [hp] at hnone
    cases hnone
  nearest k p hp hk hd := .here (link_eq_some.mpr ⟨p,hp,rfl⟩) (h.parent k p hp hk hd)

/-- A removed process has a smaller parent, as it is not PID 1. -/
lemma PartlyReaped.lower_of_gone (h : PartlyReaped config now r r') (hr : r.Scannable) {x y : ℕ}
    (hx : ¬(r'.get x).isSome) (hxy : Link r.link x y) : y < x := by
  obtain ⟨p,hp,rfl⟩ := link_eq_some.mp hxy
  have hdue := h.gone x p hp (by simpa using hx)
  refine (hr.lower x p hp ?_).2
  rintro rfl
  exact hr.root p hp hdue.1

/-- The process that is reaped has a registered parent below it. -/
lemma PartlyReaped.parent_of_timedOut (h : PartlyReaped config now r r') (hr : r.Scannable) {k : ℕ}
    {p : Process} (hp : r'.get k = some p) (hdue : TimedOut config now p) :
    Nearest r.link (fun a => (r'.get a).isSome) k p.ppid ∧ p.ppid < k := by
  obtain ⟨p₀,hp₀,hstate,-⟩ := h.kept k p hp
  have hk : k ≠ 1 := by
    rintro rfl
    exact hr.root p₀ hp₀ (hstate ▸ hdue.1)
  have hnearest := h.nearest k p hp hk (by rw [hdue.1]; decide)
  refine ⟨hnearest,hnearest.rank_lt id (fun y hy => ?_) (fun x hx y hy => h.lower_of_gone hr hx hy)⟩
  obtain ⟨q,hq,rfl⟩ := link_eq_some.mp hy
  exact (hr.lower k q hq hk).2

lemma timedOut_of_adoptedBy (hclock : ClockSound config now r) {k : ℕ} {p c c₀ : Process}
    (hc₀ : r.get k = some c₀) (hstate : c.state = c₀.state)
    (hdue : TimedOut config now c → TimedOut config now c₀)
    (h : TimedOut config now (r'.adoptedBy now p c)) : TimedOut config now c₀ := by
  by_cases hc : TimedOut config now c
  · exact hdue hc
  · rcases hclock with htimeout | hclock
    · exact absurd h (not_timedOut_adoptedBy r' p htimeout hc)
    · refine ⟨by rw [← hstate,← adoptedBy_state r' now p c]; exact h.1,?_⟩
      have hle := hclock k c₀ hc₀
      have hlt := h.2
      unfold adoptedBy at hlt
      split_ifs at hlt with hm
      · simp only [moved,sub_self] at hlt
        omega
      · exact absurd ⟨by rw [← adoptedBy_state r' now p c]; exact h.1,hlt⟩ hc

/-- One zombie is reaped. -/
lemma PartlyReaped.reap (h : PartlyReaped config now r r') (hr : r.Scannable) (hclock : ClockSound config now r)
    {k : ℕ} {p : Process} {childOrder : List ℕ} (hp : r'.get k = some p) (hdue : TimedOut config now p)
    (hall : ∀ j, (r'.get j).isSome → j ∈ childOrder) : PartlyReaped config now r (r'.reap now childOrder p) := by
  obtain ⟨hpar,hlt⟩ := h.parent_of_timedOut hr hp hdue
  obtain rfl := get_pid hp
  have hget : ∀ x, (r'.reap now childOrder p).get x =
      if x = p.pid then none else (r'.get x).map (r'.adoptedBy now p) := get_reap hall
  have hpresent : ∀ x, ((r'.reap now childOrder p).get x).isSome ↔ (r'.get x).isSome ∧ x ≠ p.pid := by
    intro x
    rw [hget]
    split_ifs with hx
    · simp [hx]
    · simp [hx]
  refine ⟨fun j q hq => ?_,fun j c hc hnone => ?_,fun j q hq hj hd => ?_⟩
  · rw [hget] at hq
    split_ifs at hq
    obtain ⟨c,hc,rfl⟩ := Option.map_eq_some_iff.mp hq
    obtain ⟨c₀,hc₀,hstate,hdue₀⟩ := h.kept j c hc
    exact ⟨c₀,hc₀,by rw [adoptedBy_state,hstate],timedOut_of_adoptedBy hclock hc₀ hstate hdue₀⟩
  · rw [hget] at hnone
    split_ifs at hnone with hj
    · subst hj
      obtain ⟨c₀,hc₀,-,hdue₀⟩ := h.kept _ p hp
      obtain rfl := Option.some.inj (hc.symm.trans hc₀)
      exact hdue₀ hdue
    · exact h.gone j c hc (Option.map_eq_none_iff.mp hnone)
  · rw [hget] at hq
    split_ifs at hq
    obtain ⟨c,hc,rfl⟩ := Option.map_eq_some_iff.mp hq
    rw [adoptedBy_state] at hd
    have hnearest := h.nearest j c hc hj hd
    unfold adoptedBy
    by_cases hcp : c.ppid = p.pid
    · rw [if_pos ⟨hcp,hd,hpar.hit⟩]
      rw [hcp] at hnearest
      exact hnearest.trans_of_removed hpar hpresent hlt.ne
    · rw [if_neg (fun hm => hcp hm.1)]
      exact hnearest.of_ne hpresent hcp

/-- For every order of the loops: only processes that were due are removed, no state changes, and whoever
is left and not dead has as its parent the nearest ancestor before the scan that is left. -/
theorem reapZombies_scan (hr : r.Scannable) (hclock : ClockSound config now r) (order : List ℕ)
    (childOrder : ℕ → List ℕ) (hchildren : ∀ k ∈ order, r.Enumerates (childOrder k)) :
    (∀ k p, r.get k = some p → (r.reapZombies config now order childOrder).get k = none →
      p.state = .zombie ∧ config.zombieTimeout < now-p.updatedAt) ∧
    (∀ k p', (r.reapZombies config now order childOrder).get k = some p' →
      ∃ p, r.get k = some p ∧ p'.state = p.state) ∧
    ∀ k p', (r.reapZombies config now order childOrder).get k = some p' → k ≠ 1 → p'.state ≠ .dead →
      Nearest r.link (fun a => ((r.reapZombies config now order childOrder).get a).isSome) k p'.ppid ∧
      ((r.reapZombies config now order childOrder).get p'.ppid).isSome := by
  have h : PartlyReaped config now r (r.reapZombies config now order childOrder) :=
    reapZombies_induction hchildren (PartlyReaped config now r) hr.partlyReaped
      (fun r' k p hs hp hdue hall => hs.reap hr hclock hp hdue hall)
  refine ⟨h.gone,fun k p' hp' => ?_,fun k p' hp' hk hd => ?_⟩
  · obtain ⟨p,hp,hstate,-⟩ := h.kept k p' hp'
    exact ⟨p,hp,hstate⟩
  · have hnearest := h.nearest k p' hp' hk hd
    exact ⟨hnearest,hnearest.hit⟩

/-- Two zombies above each other with a worker below, at the time of the scan. -/
def zombieChain : Registry :=
  (exec treeStep [.spawn 0 (agentRequest 1 "lead" .lead),.spawn 0 (agentRequest 2 "second" .lead),
    .spawn 0 (agentRequest 3 "worker" .worker),.setState 0 2 .zombie,.setState 0 3 .zombie]
    (boot 0 "king" "root" "vps1")).getD new

lemma zombieChain_scannable : zombieChain.Scannable := by
  have hn : zombieChain.nextPID = 5 := rfl
  refine ⟨fun p hp => ?_,fun k p hp hk => ?_,fun k p hp hk hd => ?_⟩
  · cases hp
    decide
  · have hb := get_bound hp
    obtain rfl | rfl | rfl : k = 2 ∨ k = 3 ∨ k = 4 := by omega
    all_goals
      cases hp
      decide
  · have hb := get_bound hp
    obtain rfl | rfl | rfl : k = 2 ∨ k = 3 ∨ k = 4 := by omega
    all_goals
      cases hp
      rfl

/-- The lower zombie is met first; the worker is moved twice. -/
theorem reapZombies_scan_chain :
    (zombieChain.reapZombies defaultSupervisorConfig (61*second) [3,2,1,4] (fun _ => [1,2,3,4])).link 4 =
      some 1 ∧
    Nearest zombieChain.link (fun a => ((zombieChain.reapZombies defaultSupervisorConfig (61*second) [3,2,1,4]
      (fun _ => [1,2,3,4])).get a).isSome) 4 1 := by
  have hclock : ClockSound defaultSupervisorConfig (61*second) zombieChain := .inl (by decide)
  have h := reapZombies_scan zombieChain_scannable hclock [3,2,1,4] (fun _ => [1,2,3,4]) (by decide)
  exact ⟨rfl,(h.2.2 4 _ rfl (by decide) (by decide)).1⟩

end Registry
end HiveKernel
