import HiveKernel.Lib.Run
import HiveKernel.Lib.Table

/-! The instances behind a PID. The runtime manager keeps one map entry per PID, while the watcher
of an instance, a stop that has let go of the lock and the start of the next instance may all be
under way at once. Instances are told apart by numbers here; the source compares only PIDs. -/
namespace HiveKernel
open Lib

/-- The goroutine that watches an instance, by what it does next. A virtual runtime has none. -/
inductive WatchStage
  | absent
  /-- Wait for the operating system process, then close the exit channel. -/
  | waiting
  /-- Look into the map, and delete the entry of the PID. -/
  | closed
  /-- Report the exit if an entry was found. -/
  | checked (stillTracked : Bool)
  | done
  deriving DecidableEq

/-- A stop that has taken its instance, by what it does next. -/
inductive StopStage
  /-- Ask the agent to shut down. -/
  | shutdown (id : ℕ)
  /-- Wait for the exit channel. -/
  | waiting (id : ℕ)
  /-- Wait again, after the kill. -/
  | killing (id : ℕ)
  deriving DecidableEq

/-- An instance. Whether a stop has taken it, and whether it was tracked when it exited, is
recorded for the statements; no step looks at that. -/
structure Instance where
  pid : ℕ
  exited : Bool := false
  watcher : WatchStage
  taken : Bool := false
  exitedTracked : Bool := false
  deriving DecidableEq

/-- The watcher has not looked into the map yet. -/
def Instance.Unfinished (inst : Instance) : Prop := inst.watcher = .waiting ∨ inst.watcher = .closed

instance (inst : Instance) : Decidable inst.Unfinished := inferInstanceAs (Decidable (_ ∨ _))

structure InstanceBoard where
  instances : Table ℕ Instance
  runtimes : Table ℕ ℕ
  stops : Table ℕ StopStage
  reports : List ℕ

inductive InstanceOp
  /-- A start whose launch works. One that fails leaves no instance behind. -/
  | startRuntime (id pid : ℕ) (isVirtual : Bool)
  /-- The operating system process of an instance exits. -/
  | osExit (id : ℕ)
  | watchProcessExit (id : ℕ)
  | stopRuntime (i pid : ℕ)
  | shutdown (i : ℕ)
  | exited (i : ℕ)
  | timeout (i : ℕ)
  | abandon (i : ℕ)
  | killAll (order : List ℕ)

namespace InstanceBoard

def start : InstanceBoard := ⟨.empty,.empty,.empty,[]⟩

/-- Take the instance of a PID out of the map. -/
def take (s : InstanceBoard) (pid : ℕ) : InstanceBoard :=
  match s.runtimes.get pid with
  | none => s
  | some id => match s.instances.get id with
    | none => s
    | some inst =>
      { s with
        runtimes := s.runtimes.erase pid
        instances := s.instances.set id { inst with taken := true } }

/-- One step of a watcher. It looks up the PID, whosever entry that is. -/
def watch (s : InstanceBoard) (id : ℕ) (inst : Instance) : Option InstanceBoard :=
  match inst.watcher with
  | .absent => none
  | .waiting =>
    if inst.exited then
      some { s with instances := s.instances.set id { inst with watcher := .closed } }
    else none
  | .closed =>
    let stillTracked := (s.runtimes.get inst.pid).isSome
    some { s with
      runtimes := if stillTracked then s.runtimes.erase inst.pid else s.runtimes
      instances := s.instances.set id { inst with watcher := .checked stillTracked } }
  | .checked stillTracked =>
    some { s with
      instances := s.instances.set id { inst with watcher := .done }
      reports := if stillTracked then s.reports ++ [id] else s.reports }
  | .done => none

/-- The exit channel of an instance is closed. -/
def ChannelClosed (s : InstanceBoard) (id : ℕ) : Prop :=
  ∃ inst ∈ s.instances.get id, inst.watcher ≠ .absent ∧ inst.watcher ≠ .waiting

instance (s : InstanceBoard) (id : ℕ) : Decidable (s.ChannelClosed id) :=
  inferInstanceAs (Decidable (∃ inst ∈ s.instances.get id, _))

def step (s : InstanceBoard) : InstanceOp → Option InstanceBoard
  | .startRuntime id pid isVirtual =>
    if (s.instances.get id).isSome then none
    else if (s.runtimes.get pid).isSome then some s
    else
      let inst : Instance := { pid := pid, watcher := if isVirtual then .absent else .waiting }
      some { s with
        instances := s.instances.set id inst
        runtimes := s.runtimes.set pid id }
  | .osExit id => match s.instances.get id with
    | none => none
    | some inst =>
      if inst.watcher = .absent ∨ inst.exited then none
      else
        let inst := { inst with exited := true, exitedTracked := s.runtimes.get inst.pid = some id }
        some { s with instances := s.instances.set id inst }
  | .watchProcessExit id => match s.instances.get id with
    | none => none
    | some inst => s.watch id inst
  | .stopRuntime i pid =>
    if (s.stops.get i).isSome then none
    else match s.runtimes.get pid with
      | none => some s
      | some id =>
        let virtual := (s.instances.get id).any (fun inst => inst.watcher = .absent)
        let s := s.take pid
        some (if virtual then s else { s with stops := s.stops.set i (.shutdown id) })
  | .shutdown i => match s.stops.get i with
    | some (.shutdown id) => some { s with stops := s.stops.set i (.waiting id) }
    | _ => none
  | .exited i => match s.stops.get i with
    | some (.waiting id) | some (.killing id) =>
      if s.ChannelClosed id then some { s with stops := s.stops.erase i } else none
    | _ => none
  | .timeout i => match s.stops.get i with
    | some (.waiting id) => some { s with stops := s.stops.set i (.killing id) }
    | _ => none
  | .abandon i => match s.stops.get i with
    | some (.killing _) => some { s with stops := s.stops.erase i }
    | _ => none
  | .killAll order =>
    if s.runtimes.Enumerates order then some (order.foldl take s) else none

/-- Whoever starts an instance has waited until the watchers of the earlier ones have looked into
the map, and whoever takes one finds it alive. -/
def Orderly (s : InstanceBoard) : InstanceOp → Prop
  | .startRuntime _ pid _ => s.runtimes.get pid = none →
      ∀ j inst, s.instances.get j = some inst → inst.pid = pid → ¬inst.Unfinished
  | .stopRuntime _ pid => ∀ id ∈ s.runtimes.get pid, ∀ inst ∈ s.instances.get id, inst.exited = false
  | .killAll _ => ∀ pid id, s.runtimes.get pid = some id → ∀ inst ∈ s.instances.get id,
      inst.exited = false
  | _ => True

instance (s : InstanceBoard) (op : InstanceOp) : Decidable (s.Orderly op) :=
  match op with
  | .startRuntime _ pid _ => inferInstanceAs (Decidable (s.runtimes.get pid = none →
      ∀ j inst, s.instances.get j = some inst → inst.pid = pid → ¬inst.Unfinished))
  | .stopRuntime _ pid => inferInstanceAs (Decidable (∀ id ∈ s.runtimes.get pid,
      ∀ inst ∈ s.instances.get id, inst.exited = false))
  | .killAll _ => inferInstanceAs (Decidable (∀ pid id, s.runtimes.get pid = some id →
      ∀ inst ∈ s.instances.get id, inst.exited = false))
  | .osExit _ | .watchProcessExit _ | .shutdown _ | .exited _ | .timeout _ | .abandon _ => .isTrue trivial

/-- What holds of an instance: until its watcher has looked, the entry of its PID is its own unless
a stop has taken it, and an exit while tracked is on its way to a report. -/
structure WellKept (s : InstanceBoard) (id : ℕ) (inst : Instance) : Prop where
  own : inst.Unfinished → inst.taken = false → s.runtimes.get inst.pid = some id
  unique : inst.Unfinished → ∀ other, s.runtimes.get inst.pid = some other → other = id
  exitedTracked : inst.exitedTracked = true → inst.exited = true ∧ inst.taken = false
  left : inst.watcher ≠ .absent → inst.watcher ≠ .waiting → inst.exited = true
  promised : inst.watcher = .checked true → inst.taken = false
  reported : id ∈ s.reports → inst.watcher = .done ∧ inst.taken = false ∧ inst.exited = true
  kept : inst.exitedTracked = true →
    inst.Unfinished ∨ inst.watcher = .checked true ∨ id ∈ s.reports

structure Sound (s : InstanceBoard) : Prop where
  instances : ∀ id inst, s.instances.get id = some inst → s.WellKept id inst
  runtimes : ∀ pid id, s.runtimes.get pid = some id → ∃ inst, s.instances.get id = some inst ∧
    inst.pid = pid ∧ inst.taken = false ∧ (inst.watcher = .absent ∨ inst.Unfinished)
  reports : ∀ id ∈ s.reports, (s.instances.get id).isSome
  nodup : s.reports.Nodup

variable {s t : InstanceBoard} {op : InstanceOp}

/-- An instance depends on the entry of its own PID and on its own report only. -/
lemma WellKept.congr {id : ℕ} {inst : Instance} (h : s.WellKept id inst)
    (hruntimes : inst.Unfinished → t.runtimes.get inst.pid = s.runtimes.get inst.pid)
    (hreports : id ∈ t.reports ↔ id ∈ s.reports) : t.WellKept id inst where
  own := by
    intro hu ht
    rw [hruntimes hu]
    exact h.own hu ht
  unique := by
    intro hu other ho
    rw [hruntimes hu] at ho
    exact h.unique hu other ho
  exitedTracked := h.exitedTracked
  left := h.left
  promised := h.promised
  reported := fun hr => h.reported (hreports.mp hr)
  kept := fun he => (h.kept he).imp_right (fun h' => h'.imp_right hreports.mpr)

/-- Replacing one instance, with the map and the reports as they are. -/
lemma Sound.set {id : ℕ} {inst inst' : Instance} (h : s.Sound) (hi : s.instances.get id = some inst)
    (hpid : inst'.pid = inst.pid) (htaken : inst'.taken = inst.taken)
    (hwatcher : inst.watcher = .absent ∨ inst.Unfinished → inst'.watcher = .absent ∨ inst'.Unfinished)
    (hkept : s.WellKept id inst') : ({ s with instances := s.instances.set id inst' } : InstanceBoard).Sound where
  instances := by
    intro j inst_j hj
    rcases Table.get_set_some hj with ⟨rfl,rfl⟩ | ⟨-,hj⟩
    · exact hkept.congr (fun _ => rfl) .rfl
    · exact (h.instances j inst_j hj).congr (fun _ => rfl) .rfl
  runtimes := by
    intro pid j hj
    obtain ⟨inst_j,hget,hp,ht,hw⟩ := h.runtimes pid j hj
    by_cases hji : j = id
    · subst hji
      obtain rfl : inst = inst_j := Option.some.inj (hi.symm.trans hget)
      exact ⟨inst',Table.get_set_self _ _ _,hpid.trans hp,htaken.trans ht,hwatcher hw⟩
    · exact ⟨inst_j,(Table.get_set_of_ne hji).trans hget,hp,ht,hw⟩
  reports := fun j hj => Table.isSome_get_set _ _ (h.reports j hj)
  nodup := h.nodup

lemma sound_start : start.Sound where
  instances := by
    intro id inst hi
    cases hi
  runtimes := by
    intro pid id hp
    cases hp
  reports := by simp [start]
  nodup := List.nodup_nil

/-- Dropping the entry of an instance, which is its own if there is one. -/
lemma Sound.drop {id : ℕ} {inst inst' : Instance} (h : s.Sound) (hi : s.instances.get id = some inst)
    (hown : ∀ other, s.runtimes.get inst.pid = some other → other = id)
    (hinstances : t.instances = s.instances.set id inst')
    (hruntimes : ∀ q, t.runtimes.get q = if q = inst.pid then none else s.runtimes.get q)
    (hreports : t.reports = s.reports) (hkept : t.WellKept id inst') : t.Sound where
  instances := by
    intro j inst_j hj
    rw [hinstances] at hj
    rcases Table.get_set_some hj with ⟨rfl,rfl⟩ | ⟨hji,hj⟩
    · exact hkept
    · have hj' := h.instances j inst_j hj
      by_cases hpid : inst_j.pid = inst.pid
      · have hnot : inst_j.Unfinished → inst_j.taken = true := by
          intro hu
          cases ht : inst_j.taken with
          | true => rfl
          | false => exact absurd (hown j (hpid ▸ hj'.own hu ht)) hji
        refine ⟨fun hu ht => ?_,fun _ other ho => ?_,hj'.exitedTracked,hj'.left,hj'.promised,?_,?_⟩
        · rw [hnot hu] at ht
          cases ht
        · rw [hruntimes,if_pos hpid] at ho
          cases ho
        · rw [hreports]
          exact hj'.reported
        · rw [hreports]
          exact hj'.kept
      · exact hj'.congr (fun _ => by rw [hruntimes,if_neg hpid]) (by rw [hreports])
  runtimes := by
    intro q j hj
    rw [hruntimes] at hj
    split_ifs at hj with hq
    obtain ⟨inst_j,hget,rfl,ht,hw⟩ := h.runtimes q j hj
    have hji : j ≠ id := by
      rintro rfl
      exact hq (congrArg Instance.pid (Option.some.inj (hget.symm.trans hi)))
    rw [hinstances]
    exact ⟨inst_j,(Table.get_set_of_ne hji).trans hget,rfl,ht,hw⟩
  reports := by
    intro j hj
    rw [hreports] at hj
    rw [hinstances]
    exact Table.isSome_get_set _ _ (h.reports j hj)
  nodup := by
    rw [hreports]
    exact h.nodup

/-- Taking a live instance out of the map. -/
lemma Sound.take {pid : ℕ} (h : s.Sound)
    (hlive : ∀ id ∈ s.runtimes.get pid, ∀ inst ∈ s.instances.get id, inst.exited = false) :
    (s.take pid).Sound := by
  unfold InstanceBoard.take
  cases hp : s.runtimes.get pid with
  | none => exact h
  | some id =>
    obtain ⟨inst,hi,rfl,-,hw⟩ := h.runtimes pid id hp
    have hkept := h.instances id inst hi
    have hnot : inst.watcher ≠ .done ∧ inst.watcher ≠ .checked true := by
      rcases hw with hw | hw | hw <;> simp [hw]
    have hnone : inst.exitedTracked ≠ true := by
      intro he
      have hexited := hlive id hp inst hi
      rw [(hkept.exitedTracked he).1] at hexited
      cases hexited
    simp only [hi]
    refine h.drop hi (fun other ho => Option.some.inj (ho.symm.trans hp)) rfl (Table.get_erase _ _) rfl ?_
    constructor
    · intro _ ht
      cases ht
    · intro _ other ho
      exact absurd rfl (Table.get_erase_some ho).1
    · exact fun he => absurd he hnone
    · exact hkept.left
    · exact fun hc => absurd hc hnot.2
    · exact fun hr => absurd (hkept.reported hr).1 hnot.1
    · exact fun he => absurd he hnone

/-- After a live instance is taken, the instances behind the other entries are what they were. -/
lemma runtimes_take {pid q id : ℕ} (h : (s.take pid).runtimes.get q = some id) :
    s.runtimes.get q = some id := by
  unfold InstanceBoard.take at h
  split at h
  · exact h
  · split at h
    · exact h
    · exact (Table.get_erase_some h).2

lemma exited_take {pid id : ℕ} {inst : Instance} (h : (s.take pid).instances.get id = some inst) :
    ∃ old, s.instances.get id = some old ∧ old.exited = inst.exited := by
  unfold InstanceBoard.take at h
  split at h
  · exact ⟨inst,h,rfl⟩
  · split at h
    · exact ⟨inst,h,rfl⟩
    · rename_i hi
      rcases Table.get_set_some h with ⟨rfl,rfl⟩ | ⟨-,h⟩
      · exact ⟨_,hi,rfl⟩
      · exact ⟨inst,h,rfl⟩

lemma Sound.takeAll {order : List ℕ} (h : s.Sound)
    (hlive : ∀ pid id, s.runtimes.get pid = some id → ∀ inst ∈ s.instances.get id, inst.exited = false) :
    (order.foldl InstanceBoard.take s).Sound := by
  induction order generalizing s with
  | nil => exact h
  | cons pid order ih =>
    refine ih (h.take (hlive pid)) (fun q id hq inst hi => ?_)
    obtain ⟨old,hold,heq⟩ := exited_take hi
    rw [← heq]
    exact hlive q id (runtimes_take hq) old hold

/-- The end of a watcher, with a report or without. -/
lemma Sound.report {id : ℕ} {inst : Instance} {stillTracked : Bool} (h : s.Sound)
    (hi : s.instances.get id = some inst) (habsent : inst.watcher ≠ .absent) (hnot : ¬inst.Unfinished)
    (htaken : stillTracked = true → inst.taken = false) (hexited : inst.exited = true)
    (hfresh : id ∉ s.reports) (hkept : inst.exitedTracked = true → stillTracked = true) :
    ({ s with
        instances := s.instances.set id { inst with watcher := .done }
        reports := if stillTracked then s.reports ++ [id] else s.reports } : InstanceBoard).Sound where
  instances := by
    intro j inst_j hj
    rcases Table.get_set_some hj with ⟨rfl,rfl⟩ | ⟨hji,hj⟩
    · constructor
      · intro hu
        rcases hu with hu | hu <;> cases hu
      · intro hu
        rcases hu with hu | hu <;> cases hu
      · exact (h.instances j inst hi).exitedTracked
      · exact fun _ _ => hexited
      · intro hc
        cases hc
      · intro hr
        cases stillTracked with
        | true => exact ⟨rfl,htaken rfl,hexited⟩
        | false => exact absurd hr hfresh
      · intro he
        simp [hkept he]
    · refine (h.instances j inst_j hj).congr (fun _ => rfl) ?_
      cases stillTracked <;> simp [hji]
  runtimes := by
    intro q j hj
    obtain ⟨inst_j,hget,hq,ht,hw⟩ := h.runtimes q j hj
    have hji : j ≠ id := by
      rintro rfl
      obtain rfl : inst = inst_j := Option.some.inj (hi.symm.trans hget)
      exact hw.elim habsent hnot
    exact ⟨inst_j,(Table.get_set_of_ne hji).trans hget,hq,ht,hw⟩
  reports := by
    intro j hj
    by_cases hji : j = id
    · rw [hji,Table.get_set_self]
      rfl
    · refine Table.isSome_get_set _ _ (h.reports j ?_)
      cases stillTracked with
      | true => simpa [hji] using hj
      | false => exact hj
  nodup := by
    cases stillTracked with
    | true => exact h.nodup.append (List.nodup_singleton id) (by simpa using hfresh)
    | false => exact h.nodup

/-- The steps of a watcher. -/
lemma Sound.watch {id : ℕ} {inst : Instance} (h : s.Sound) (hi : s.instances.get id = some inst)
    (hw : s.watch id inst = some t) : t.Sound := by
  have hkept := h.instances id inst hi
  cases hst : inst.watcher with
  | absent => simp [InstanceBoard.watch,hst] at hw
  | waiting =>
    simp only [InstanceBoard.watch,hst] at hw
    split_ifs at hw with hex
    cases hw
    have hu : inst.Unfinished := .inl hst
    refine h.set hi rfl rfl (fun _ => .inr (.inr rfl)) ?_
    constructor
    · exact fun _ => hkept.own hu
    · exact fun _ => hkept.unique hu
    · exact hkept.exitedTracked
    · exact fun _ _ => hex
    · simp
    · exact fun hr => absurd (hkept.reported hr).1 (by simp [hst])
    · exact fun _ => .inl (.inr rfl)
  | closed =>
    simp only [InstanceBoard.watch,hst,Option.some.injEq] at hw
    subst hw
    have hu : inst.Unfinished := .inr hst
    have hnot : ¬({ inst with watcher := .checked (s.runtimes.get inst.pid).isSome } : Instance).Unfinished :=
      by simp [Instance.Unfinished]
    refine h.drop hi (hkept.unique hu) rfl (fun q => ?_) rfl ?_
    · cases hp : s.runtimes.get inst.pid with
      | none =>
        simp only [Option.isSome_none,Bool.false_eq_true,if_false]
        split_ifs with hq
        · rw [hq,hp]
        · rfl
      | some other =>
        simp only [Option.isSome_some,if_true]
        exact Table.get_erase _ _ _
    · constructor
      · exact fun hu' => absurd hu' hnot
      · exact fun hu' => absurd hu' hnot
      · exact hkept.exitedTracked
      · exact fun _ _ => hkept.left (by simp [hst]) (by simp [hst])
      · intro hc
        obtain ⟨other,ho⟩ := Option.isSome_iff_exists.mp (WatchStage.checked.inj hc)
        obtain rfl := hkept.unique hu other ho
        obtain ⟨inst_o,hget,-,ht,-⟩ := h.runtimes _ _ ho
        obtain rfl : inst = inst_o := Option.some.inj (hi.symm.trans hget)
        exact ht
      · exact fun hr => absurd (hkept.reported hr).1 (by simp [hst])
      · intro he
        have hp := hkept.own hu (hkept.exitedTracked he).2
        exact .inr (.inl (by simp [hp]))
  | checked stillTracked =>
    simp only [InstanceBoard.watch,hst,Option.some.injEq] at hw
    subst hw
    have hfresh : id ∉ s.reports := fun hr => absurd (hkept.reported hr).1 (by simp [hst])
    have hnot : ¬inst.Unfinished := by simp [Instance.Unfinished,hst]
    exact h.report hi (by simp [hst]) hnot (fun hs => hkept.promised (by rw [hst,hs]))
      (hkept.left (by simp [hst]) (by simp [hst])) hfresh (fun he => by
        rcases hkept.kept he with hu | hc | hr
        · exact absurd hu hnot
        · exact WatchStage.checked.inj (hst.symm.trans hc)
        · exact absurd hr hfresh)
  | done => simp [InstanceBoard.watch,hst] at hw

/-- A new instance, for a PID whose earlier watchers are through. -/
lemma Sound.launch {id pid : ℕ} {watcher : WatchStage} (h : s.Sound) (hid : s.instances.get id = none)
    (hwatcher : watcher = .absent ∨ watcher = .waiting)
    (hfree : ∀ j inst, s.instances.get j = some inst → inst.pid = pid → ¬inst.Unfinished) :
    ({ s with
        instances := s.instances.set id { pid := pid, watcher := watcher }
        runtimes := s.runtimes.set pid id } : InstanceBoard).Sound where
  instances := by
    intro j inst_j hj
    rcases Table.get_set_some hj with ⟨rfl,rfl⟩ | ⟨hji,hj⟩
    · constructor
      · exact fun _ _ => Table.get_set_self _ _ _
      · intro _ other ho
        exact Option.some.inj (ho.symm.trans (Table.get_set_self _ _ _))
      · intro he
        cases he
      · intro hne hne'
        rcases hwatcher with rfl | rfl
        · exact absurd rfl hne
        · exact absurd rfl hne'
      · exact fun _ => rfl
      · intro hr
        have := h.reports j hr
        simp [hid] at this
      · intro he
        cases he
    · refine (h.instances j inst_j hj).congr (fun hu => ?_) .rfl
      rw [Table.get_set_of_ne (fun heq => hfree j inst_j hj heq hu)]
  runtimes := by
    intro q j hj
    rcases Table.get_set_some hj with ⟨rfl,rfl⟩ | ⟨-,hj⟩
    · refine ⟨_,Table.get_set_self _ _ _,rfl,rfl,?_⟩
      rcases hwatcher with rfl | rfl
      · exact .inl rfl
      · exact .inr (.inl rfl)
    · obtain ⟨inst_j,hget,hq,ht,hw⟩ := h.runtimes q j hj
      have hji : j ≠ id := by
        rintro rfl
        simp [hid] at hget
      exact ⟨inst_j,(Table.get_set_of_ne hji).trans hget,hq,ht,hw⟩
  reports := fun j hj => Table.isSome_get_set _ _ (h.reports j hj)
  nodup := h.nodup

lemma Sound.exit {id : ℕ} {inst inst' : Instance} (h : s.Sound) (hi : s.instances.get id = some inst)
    (habsent : inst.watcher ≠ .absent) (hlive : inst.exited ≠ true)
    (hinst : inst' = { inst with exited := true, exitedTracked := s.runtimes.get inst.pid = some id }) :
    ({ s with instances := s.instances.set id inst' } : InstanceBoard).Sound := by
  subst hinst
  have hkept := h.instances id inst hi
  refine h.set hi rfl rfl (fun hw => hw) ?_
  have htracked : s.runtimes.get inst.pid = some id → inst.taken = false ∧ inst.Unfinished := by
    intro hp
    obtain ⟨inst',hget,-,ht,hw⟩ := h.runtimes _ _ hp
    obtain rfl : inst = inst' := Option.some.inj (hi.symm.trans hget)
    exact ⟨ht,hw.resolve_left habsent⟩
  constructor
  · exact hkept.own
  · exact hkept.unique
  · exact fun he => ⟨rfl,(htracked (of_decide_eq_true he)).1⟩
  · exact fun _ _ => rfl
  · exact hkept.promised
  · exact fun hr => absurd (hkept.reported hr).2.2 hlive
  · exact fun he => .inl (htracked (of_decide_eq_true he)).2

/-- The stages of a stop after it has let go of the lock do not touch the map. -/
lemma Sound.of_stops (h : s.Sound) (stops : Table ℕ StopStage) :
    ({ s with stops := stops } : InstanceBoard).Sound :=
  ⟨fun id inst hi => (h.instances id inst hi).congr (fun _ => rfl) .rfl,h.runtimes,h.reports,h.nodup⟩

/-- An orderly step keeps the map, the watchers and the stops in agreement. -/
theorem sound_step (h : s.Sound) (hop : s.Orderly op) (hs : s.step op = some t) : t.Sound := by
  cases op with
  | startRuntime id pid isVirtual =>
    simp only [step] at hs
    split_ifs at hs with hid hp
    · cases hs
      exact h
    · cases hs
      exact h.launch (by simpa using hid) (.inl rfl) (hop (by simpa using hp))
    · cases hs
      exact h.launch (by simpa using hid) (.inr rfl) (hop (by simpa using hp))
  | osExit id =>
    cases hi : s.instances.get id with
    | none => simp [step,hi] at hs
    | some inst =>
      simp only [step,hi] at hs
      split_ifs at hs with hex
      cases hs
      exact h.exit hi (fun ha => hex (.inl ha)) (fun he => hex (.inr he)) rfl
  | watchProcessExit id =>
    cases hi : s.instances.get id with
    | none => simp [step,hi] at hs
    | some inst =>
      simp only [step,hi] at hs
      exact h.watch hi hs
  | stopRuntime i pid =>
    simp only [step] at hs
    split_ifs at hs
    split at hs
    · cases hs
      exact h
    · cases hs
      split_ifs
      · exact h.take hop
      · exact (h.take hop).of_stops _
  | shutdown i =>
    simp only [step] at hs
    split at hs
    · cases hs
      exact h.of_stops _
    · cases hs
  | exited i =>
    simp only [step] at hs
    split at hs
    · split_ifs at hs
      cases hs
      exact h.of_stops _
    · split_ifs at hs
      cases hs
      exact h.of_stops _
    · cases hs
  | timeout i =>
    simp only [step] at hs
    split at hs
    · cases hs
      exact h.of_stops _
    · cases hs
  | abandon i =>
    simp only [step] at hs
    split at hs
    · cases hs
      exact h.of_stops _
    · cases hs
  | killAll order =>
    simp only [step] at hs
    split_ifs at hs
    cases hs
    exact h.takeAll hop

/-- The watcher of this instance, left alone for `n` steps, reports it. -/
def Reports (s : InstanceBoard) (id n : ℕ) : Prop :=
  ∃ t, exec step (List.replicate n (.watchProcessExit id)) s = some t ∧ id ∈ t.reports

lemma Reports.of_step {id n : ℕ} (hs : s.step (.watchProcessExit id) = some t) (h : t.Reports id n) :
    s.Reports id (n+1) := by
  obtain ⟨u,hu,hr⟩ := h
  refine ⟨u,?_,hr⟩
  rw [List.replicate_succ,exec,hs]
  exact hu

/-- Each stage of a watcher leads to the next. -/
lemma reports_of_checked {id : ℕ} {inst : Instance} (hi : s.instances.get id = some inst)
    (hw : inst.watcher = .checked true) : s.Reports id 1 := by
  have hs : s.step (.watchProcessExit id) = some { s with
      instances := s.instances.set id { inst with watcher := .done }
      reports := s.reports ++ [id] } := by
    simp only [step,hi,watch,hw,if_true]
  exact .of_step (n := 0) hs ⟨_,rfl,by simp⟩

lemma reports_of_closed {id : ℕ} {inst : Instance} (hi : s.instances.get id = some inst)
    (hw : inst.watcher = .closed) (hp : s.runtimes.get inst.pid = some id) : s.Reports id 2 := by
  have hs : s.step (.watchProcessExit id) = some { s with
      runtimes := s.runtimes.erase inst.pid
      instances := s.instances.set id { inst with watcher := .checked true } } := by
    simp only [step,hi,watch,hw,hp,Option.isSome_some,if_true]
  exact .of_step hs (reports_of_checked (Table.get_set_self _ _ _) rfl)

lemma reports_of_waiting {id : ℕ} {inst : Instance} (hi : s.instances.get id = some inst)
    (hw : inst.watcher = .waiting) (hexited : inst.exited = true) (hp : s.runtimes.get inst.pid = some id) :
    s.Reports id 3 := by
  have hs : s.step (.watchProcessExit id) = some { s with
      instances := s.instances.set id { inst with watcher := .closed } } := by
    simp only [step,hi,watch,hw,hexited,if_true]
  exact .of_step hs (reports_of_closed (Table.get_set_self _ _ _) rfl hp)

lemma Sound.reports_of_exitedTracked {id : ℕ} {inst : Instance} (h : s.Sound)
    (hi : s.instances.get id = some inst) (he : inst.exitedTracked = true) : ∃ n ≤ 3, s.Reports id n := by
  have hkept := h.instances id inst hi
  obtain ⟨hexited,htaken⟩ := hkept.exitedTracked he
  rcases hkept.kept he with hu | hc | hr
  · have hp := hkept.own hu htaken
    rcases hu with hw | hw
    · exact ⟨3,le_rfl,reports_of_waiting hi hw hexited hp⟩
    · exact ⟨2,by omega,reports_of_closed hi hw hp⟩
  · exact ⟨1,by omega,reports_of_checked hi hc⟩
  · exact ⟨0,by omega,s,rfl,hr⟩

/-- An entry that a watcher deletes is the entry of its own instance. -/
lemma Sound.own_of_deleted {id pid other : ℕ} (h : s.Sound)
    (hs : s.step (.watchProcessExit id) = some t) (hold : s.runtimes.get pid = some other)
    (hnew : t.runtimes.get pid ≠ some other) : other = id := by
  cases hi : s.instances.get id with
  | none => simp [step,hi] at hs
  | some inst =>
    simp only [step,hi] at hs
    cases hw : inst.watcher with
    | closed =>
      simp only [InstanceBoard.watch,hw,Option.some.injEq] at hs
      subst hs
      by_cases hp : pid = inst.pid
      · exact (h.instances id inst hi).unique (.inr hw) other (hp ▸ hold)
      · refine absurd ?_ hnew
        simp only
        split_ifs
        · rw [Table.get_erase_of_ne hp,hold]
        · exact hold
    | absent => simp [InstanceBoard.watch,hw] at hs
    | waiting =>
      simp only [InstanceBoard.watch,hw] at hs
      split_ifs at hs
      cases hs
      exact absurd hold hnew
    | checked stillTracked =>
      simp only [InstanceBoard.watch,hw,Option.some.injEq] at hs
      subst hs
      exact absurd hold hnew
    | done => simp [InstanceBoard.watch,hw] at hs

/-- In an orderly run a watcher deletes only the entry of its own instance, an instance is reported
at most once and only if it exited and nobody took it, and one that exited while it was tracked is
reported as soon as its watcher gets to run. -/
theorem reported_once_of_run {trace : List (Transition InstanceBoard InstanceOp)}
    (run : Run step start trace s) (hops : ∀ e ∈ trace, e.source.Orderly e.label) :
    (∀ e ∈ trace, ∀ id pid other, e.label = .watchProcessExit id →
      e.source.runtimes.get pid = some other → e.target.runtimes.get pid ≠ some other → other = id) ∧
    s.reports.Nodup ∧
    (∀ id ∈ s.reports, ∃ inst ∈ s.instances.get id, inst.exited = true ∧ inst.taken = false) ∧
    ∀ id, ∀ inst ∈ s.instances.get id, inst.exitedTracked = true → ∃ n ≤ 3, s.Reports id n := by
  obtain ⟨htrace,hs⟩ := run.invariant_of_allowed
    (fun s op t (h : s.Sound) hop hs => sound_step h hop hs) sound_start hops
  refine ⟨fun e he id pid other hlabel hold hnew => ?_,hs.nodup,fun id hid => ?_,fun id inst hi he => ?_⟩
  · obtain ⟨hsound,hstep⟩ := htrace e he
    rw [hlabel] at hstep
    exact hsound.own_of_deleted hstep hold hnew
  · obtain ⟨inst,hi⟩ := Option.isSome_iff_exists.mp (hs.reports id hid)
    obtain ⟨-,htaken,hexited⟩ := (hs.instances id inst hi).reported hid
    exact ⟨inst,hi,hexited,htaken⟩
  · exact hs.reports_of_exitedTracked hi he

/-- An instance crashes and is reported; its successor is stopped; then a third one starts. -/
def crashThenStop : List InstanceOp :=
  [.startRuntime 0 2 false,.osExit 0,.watchProcessExit 0,.watchProcessExit 0,.watchProcessExit 0,
    .startRuntime 1 2 false,.stopRuntime 0 2,.shutdown 0,.timeout 0,.osExit 1,.watchProcessExit 1,.exited 0,
    .watchProcessExit 1,.watchProcessExit 1,.startRuntime 2 2 false,.osExit 2]

theorem reported_once_of_run_crashThenStop :
    ∃ s, exec step crashThenStop start = some s ∧ s.reports = [0] ∧ s.reports.Nodup ∧
      ∃ n ≤ 3, s.Reports 2 n := by
  obtain ⟨s,hs,hreports,inst,hi,hexited⟩ : ∃ s, exec step crashThenStop start = some s ∧ s.reports = [0] ∧
      ∃ inst ∈ s.instances.get 2, inst.exitedTracked = true := ⟨_,rfl,rfl,_,rfl,rfl⟩
  obtain ⟨-,hnodup,-,hreported⟩ := reported_once_of_run (.of_exec hs) (by decide)
  exact ⟨s,hs,hreports,hnodup,hreported 2 inst hi hexited⟩

/-- A stop is abandoned and a new instance starts. When the old one exits at last, its watcher
deletes the entry of the new one. -/
theorem watcher_deletes_successor : ¬ ∀ (trace : List (Transition InstanceBoard InstanceOp))
    (s : InstanceBoard), Run step start trace s →
    (∀ e ∈ trace, ∀ id pid other, e.label = .watchProcessExit id →
      e.source.runtimes.get pid = some other → e.target.runtimes.get pid ≠ some other → other = id) ∧
    s.reports.Nodup ∧
    (∀ id ∈ s.reports, ∃ inst ∈ s.instances.get id, inst.exited = true ∧ inst.taken = false) ∧
    ∀ id, ∀ inst ∈ s.instances.get id, inst.exitedTracked = true → ∃ n ≤ 3, s.Reports id n := by
  intro h
  let ops : List InstanceOp := [.startRuntime 0 2 false,.stopRuntime 0 2,.shutdown 0,.timeout 0,.abandon 0,
    .startRuntime 1 2 false,.osExit 0,.watchProcessExit 0]
  obtain ⟨s,t,hs,ht,hold,hnew⟩ : ∃ s t, exec step ops start = some s ∧
      s.step (.watchProcessExit 0) = some t ∧ s.runtimes.get 2 = some 1 ∧ t.runtimes.get 2 = none :=
    ⟨_,_,rfl,rfl,rfl,rfl⟩
  have hdeletes := (h _ t ((Run.of_exec hs).snoc ht)).1 ⟨s,.watchProcessExit 0,t⟩ (by simp) 0 2 1 rfl hold
    (by simp [hnew])
  cases hdeletes

end InstanceBoard
end HiveKernel
