import HiveKernel.Lib.Regroup
import HiveKernel.Sdk.Orchestrator

/-! How the orchestrator reads a plan: as a JSON object with groups, as a JSON list of subtasks, or line by line.
With more groups than workers, those left over are merged into the first ones. -/
namespace HiveKernel.Orchestrator
open Lib Dashboard
variable {F : Type}

/-- `s.strip(chars)`. -/
def stripWhere (p : Char → Bool) (s : String) : String :=
  String.ofList ((s.toList.dropWhile p).reverse.dropWhile p).reverse

def splitLines (s : String) : List String := (s.toList.splitOn '\n').map String.ofList

def blank (s : String) : Bool := strip s = ""

/-- A line that begins or ends a block of code. -/
def fence (line : String) : Bool := "```".toList.isPrefixOf (strip line).toList

/-- The text without the lines around a block of code. -/
def unfenced (raw : String) : String :=
  let text := strip raw
  if "```".toList.isPrefixOf text.toList then
    strip ("\n".intercalate ((splitLines text).filter (fun line => !fence line)))
  else text

/-- A line without quotes, bullet and number. -/
def planLine (line : String) : String :=
  stripWhere ("0123456789.)".toList.contains ·) (stripWhere ("- ".toList.contains ·)
    (stripWhere (· = '"') (strip line)))

/-- What is left of the lines, if anything is. -/
def planLines (raw : String) : List String :=
  (((splitLines (strip raw)).filter (fun line => !blank line && !fence line)).map planLine).filter (· ≠ "")

/-- `min(int(param), MAX_WORKERS)`. -/
def maxWorkers (py : Python F) (param : String) : Option ℤ := (py.int param).map (min · 5)

/-- The place of `l[k]` in a list of length `n`; `none` is an `IndexError`. -/
def pyIndex (n : ℕ) (k : ℤ) : Option ℕ :=
  if 0 ≤ k then if k < n then some k.toNat else none
  else if 0 ≤ n+k then some (n+k).toNat else none

/-- The loop over the groups that are too many. The remainder raises for zero. -/
def mergeExtras (maxWorkers : ℤ) : ℕ → List SubtaskGroup → List SubtaskGroup → Except PyError (List SubtaskGroup)
  | _,merged,[] => .ok merged
  | i,merged,extra::extras =>
    if maxWorkers = 0 then .error .other
    else match pyIndex merged.length ((i : ℤ).fmod maxWorkers) with
      | none => .error .other
      | some j =>
        mergeExtras maxWorkers (i+1)
          (merged.modify j (fun target => { target with subtasks := target.subtasks++extra.subtasks })) extras

/-- `_cap_groups`. A negative bound counts from the end. -/
def capGroups (groups : List SubtaskGroup) (maxWorkers : ℤ) : Except PyError (List SubtaskGroup) :=
  if groups.length ≤ maxWorkers then .ok groups
  else
    let cut := if maxWorkers < 0 then (groups.length+maxWorkers).toNat else maxWorkers.toNat
    mergeExtras maxWorkers 0 (groups.take cut) (groups.drop cut)

/-- The groups of an object, where `n` are known already. -/
def validGroups (py : TextPython F) : ℕ → List (Json F) → List SubtaskGroup
  | _,[] => []
  | n,.object g::groups => match g.lookup "subtasks" with
    | some (.array (task::tasks)) =>
      ⟨((g.lookup "name").map py.format).getD s!"group-{n+1}",
        ((task::tasks).map py.format).filter (fun s => !blank s)⟩::validGroups py (n+1) groups
    | _ => validGroups py n groups
  | n,_::groups => validGroups py n groups

/-- A group of its own for a subtask. -/
def taskGroup (task : String × ℕ) : SubtaskGroup := ⟨s!"task-{task.2+1}",[task.1]⟩

/-- `try: … except (JSONDecodeError, TypeError, ValueError): pass`. -/
def guarded {α : Type} : Except PyError (Option α) → Except PyError (Option α)
  | .error .valueError | .error .typeError => .ok none
  | result => result

/-- The first strategy. -/
def fromGroups (py : TextPython F) (text : String) (maxWorkers : ℤ) : Except PyError (Option (List SubtaskGroup)) :=
  match py.loads text with
  | .error e => .error e
  | .ok (.object members) => match members.lookup "groups" with
    | some (.array groups) =>
      if (validGroups py 0 groups).isEmpty then .ok none
      else (capGroups (validGroups py 0 groups) maxWorkers).map some
    | _ => .ok none
  | .ok _ => .ok none

/-- The second strategy. -/
def fromList (py : TextPython F) (text : String) (maxWorkers : ℤ) : Except PyError (Option (List SubtaskGroup)) :=
  match py.loads text with
  | .error e => .error e
  | .ok (.array items) =>
    let groups := ((items.map py.format).zipIdx.filter (fun task => !blank task.1)).map taskGroup
    if groups.isEmpty then .ok none else (capGroups groups maxWorkers).map some
  | .ok _ => .ok none

/-- The third strategy. -/
def fromLines (raw : String) (maxWorkers : ℤ) : Except PyError (List SubtaskGroup) :=
  if (planLines raw).isEmpty then .ok [] else capGroups ((planLines raw).zipIdx.map taskGroup) maxWorkers

/-- The groups that a strategy has returned, or those of the next one. -/
def orNext {α : Type} : Except PyError (Option α) → Except PyError α → Except PyError α
  | .error e,_ => .error e
  | .ok (some groups),_ => .ok groups
  | .ok none,next => next

def parseGroups (py : TextPython F) (raw : String) (maxWorkers : ℤ) : Except PyError (List SubtaskGroup) :=
  orNext (guarded (fromGroups py (unfenced raw) maxWorkers))
    (orNext (guarded (fromList py (unfenced raw) maxWorkers)) (fromLines raw maxWorkers))

lemma orNext_map_some {α : Type} (found next : Except PyError α) : orNext (found.map some) next = found := by
  cases found <;> rfl

/-- The group at this place has a subtask. -/
def HasWork (groups : List SubtaskGroup) (i : ℕ) : Prop := ∃ group, groups[i]? = some group ∧ group.subtasks ≠ []

/-- What `_cap_groups` does not lose. -/
structure KeepsSubtasks (groups merged : List SubtaskGroup) : Prop where
  multiset : (merged.flatMap SubtaskGroup.subtasks).Perm (groups.flatMap SubtaskGroup.subtasks)
  order : ∀ group ∈ groups, ∃ target ∈ merged, group.subtasks <:+: target.subtasks

/-- What a plan has to look like before it is given to the workers. -/
def Workable (maxWorkers : ℤ) (groups : List SubtaskGroup) : Prop :=
  (groups.length : ℤ) ≤ max 1 maxWorkers ∧
    ∀ group ∈ groups, group.subtasks ≠ [] ∧ ∀ subtask ∈ group.subtasks, ¬blank subtask

variable {maxWorkers : ℤ} {i : ℕ} {groups merged extras result : List SubtaskGroup}

lemma hasWork_lt (h : HasWork groups i) : i < groups.length := by
  obtain ⟨group,hgroup,-⟩ := h
  exact (List.getElem?_eq_some_iff.mp hgroup).1

lemma hasWork_cons_zero (group : SubtaskGroup) : HasWork (group::groups) 0 ↔ group.subtasks ≠ [] := by
  simp [HasWork]

lemma hasWork_cons_succ (group : SubtaskGroup) : HasWork (group::groups) (i+1) ↔ HasWork groups i := by
  simp [HasWork]

lemma hasWork_take {n : ℕ} : HasWork (groups.take n) i ↔ i < n ∧ HasWork groups i := by
  unfold HasWork
  by_cases h : i < n
  · simp [h]
  · simp [h]

lemma hasWork_drop {n : ℕ} : HasWork (groups.drop n) i ↔ HasWork groups (n+i) := by
  unfold HasWork
  rw [List.getElem?_drop]

lemma forall_hasWork : (∀ i < groups.length, HasWork groups i) ↔ ∀ group ∈ groups, group.subtasks ≠ [] := by
  constructor
  · intro h group hgroup
    obtain ⟨i,hi,rfl⟩ := List.getElem_of_mem hgroup
    obtain ⟨group,hget,hne⟩ := h i hi
    rw [List.getElem?_eq_getElem hi,Option.some_inj] at hget
    rwa [hget]
  · exact fun h i hi => ⟨groups[i],List.getElem?_eq_getElem hi,h _ (List.getElem_mem hi)⟩

/-- One turn of the loop. -/
lemma mergeExtras_cons {extra : SubtaskGroup} (hzero : maxWorkers ≠ 0) {j : ℕ}
    (hj : pyIndex merged.length ((i : ℤ).fmod maxWorkers) = some j) :
    mergeExtras maxWorkers i merged (extra::extras) = mergeExtras maxWorkers (i+1)
      (merged.modify j (fun target => { target with subtasks := target.subtasks++extra.subtasks })) extras := by
  rw [mergeExtras,if_neg hzero]
  simp only [hj]

lemma pyIndex_lt {n j : ℕ} {k : ℤ} (h : pyIndex n k = some j) : j < n := by
  unfold pyIndex at h
  split_ifs at h with hk hlt hneg <;> cases h <;> omega

/-- If the loop comes to its end, it has merged every group as a whole. -/
lemma mergeExtras_ok {lists : List (List String)} (h : mergeExtras maxWorkers i merged extras = .ok result)
    (hmerged : Regroups lists (merged.map SubtaskGroup.subtasks)) : result.length = merged.length ∧
      Regroups (lists++extras.map SubtaskGroup.subtasks) (result.map SubtaskGroup.subtasks) := by
  induction extras generalizing i merged lists with
  | nil =>
    cases h
    simpa using hmerged
  | cons extra extras ih =>
    rw [mergeExtras] at h
    split_ifs at h with hzero
    cases hj : pyIndex merged.length ((i : ℤ).fmod maxWorkers) with
    | none => simp [hj] at h
    | some j =>
      simp only [hj] at h
      have hstep := hmerged.modify (by simpa using pyIndex_lt hj) extra.subtasks
      have hmap : (merged.map SubtaskGroup.subtasks).modify j (·++extra.subtasks) = (merged.modify j
          (fun target => { target with subtasks := target.subtasks++extra.subtasks })).map SubtaskGroup.subtasks := by
        apply List.ext_getElem?
        intro t
        simp only [List.getElem?_modify,List.getElem?_map]
        cases merged[t]? with
        | none => rfl
        | some target => by_cases htj : j = t <;> simp [htj]
      rw [hmap] at hstep
      obtain ⟨hlength,hresult⟩ := ih h hstep
      exact ⟨by simpa using hlength,by simpa using hresult⟩

/-- Only a division by zero and a place that does not exist can go wrong. -/
lemma mergeExtras_error {e : PyError} (h : mergeExtras maxWorkers i merged extras = .error e) : e = .other := by
  induction extras generalizing i merged with
  | nil => cases h
  | cons extra extras ih =>
    rw [mergeExtras] at h
    split_ifs at h with hzero
    · cases h
      rfl
    · cases hj : pyIndex merged.length ((i : ℤ).fmod maxWorkers) with
      | none =>
        simp only [hj] at h
        cases h
        rfl
      | some j =>
        simp only [hj] at h
        exact ih h

lemma capGroups_error {e : PyError} (h : capGroups groups maxWorkers = .error e) : e = .other := by
  unfold capGroups at h
  split_ifs at h <;> exact mergeExtras_error h

/-- Whatever the bound, groups that are returned have all their subtasks. -/
lemma capGroups_regroups (h : capGroups groups maxWorkers = .ok result) :
    Regroups (groups.map SubtaskGroup.subtasks) (result.map SubtaskGroup.subtasks) := by
  unfold capGroups at h
  by_cases hfits : groups.length ≤ maxWorkers
  · rw [if_pos hfits] at h
    cases h
    exact Regroups.refl _
  · rw [if_neg hfits] at h
    have hresult := (mergeExtras_ok h (Regroups.refl _)).2
    rwa [← List.map_append,List.take_append_drop] at hresult

theorem capGroups_keepsSubtasks (h : capGroups groups maxWorkers = .ok result) : KeepsSubtasks groups result := by
  have hregroups := capGroups_regroups h
  constructor
  · exact hregroups.flatten_perm
  · intro group hgroup
    obtain ⟨subtasks,hmem,hwithin⟩ := hregroups.exists_infix (List.mem_map_of_mem hgroup)
    obtain ⟨target,htarget,rfl⟩ := List.mem_map.mp hmem
    exact ⟨target,htarget,hwithin⟩

lemma hasWork_modify {j : ℕ} (hj : j < merged.length) (extra : List String) :
    HasWork (merged.modify j (fun target => { target with subtasks := target.subtasks++extra })) i ↔
      HasWork merged i ∨ (i = j ∧ extra ≠ []) := by
  unfold HasWork
  rw [List.getElem?_modify]
  by_cases hij : j = i
  · subst hij
    rw [List.getElem?_eq_getElem hj]
    simp [List.append_eq_nil_iff,or_iff_not_imp_left]
  · have hne : i ≠ j := fun h => hij h.symm
    cases merged[i]? <;> simp [hij,hne]

/-- With a positive bound the loop always comes to its end, and each place gets every group that is so many places
further on. -/
lemma mergeExtras_pos {m : ℕ} (hm : 0 < m) (i : ℕ) (hlength : merged.length = m) (extras : List SubtaskGroup) :
    ∃ result, mergeExtras m i merged extras = .ok result ∧
      ∀ t, HasWork result t ↔ HasWork merged t ∨ ∃ k, HasWork extras k ∧ (i+k)%m = t := by
  induction extras generalizing i merged with
  | nil =>
    refine ⟨merged,rfl,fun t => ?_⟩
    simp [HasWork]
  | cons extra extras ih =>
    have hj : pyIndex merged.length ((i : ℤ).fmod m) = some (i%m) := by
      have hlt := Nat.mod_lt i hm
      rw [Int.fmod_eq_emod_of_nonneg _ (by omega),← Int.natCast_emod,pyIndex,if_pos (by omega),
        if_pos (by omega),Int.toNat_natCast]
    rw [mergeExtras_cons (by omega) hj]
    have hlength' := (List.length_modify (fun target : SubtaskGroup =>
      { target with subtasks := target.subtasks++extra.subtasks }) merged (i%m)).trans hlength
    obtain ⟨result,hresult,hwork⟩ := ih (i+1) hlength'
    refine ⟨result,hresult,fun t => ?_⟩
    rw [hwork t,hasWork_modify (pyIndex_lt hj),or_assoc]
    apply or_congr_right
    constructor
    · rintro (⟨rfl,hextra⟩ | ⟨k,hk,rfl⟩)
      · exact ⟨0,(hasWork_cons_zero extra).mpr hextra,rfl⟩
      · exact ⟨k+1,(hasWork_cons_succ extra).mpr hk,by rw [Nat.add_assoc,Nat.add_comm 1]⟩
    · rintro ⟨k,hk,rfl⟩
      cases k with
      | zero => exact .inl ⟨rfl,(hasWork_cons_zero extra).mp hk⟩
      | succ k => exact .inr ⟨k,(hasWork_cons_succ extra).mp hk,by rw [Nat.add_assoc,Nat.add_comm 1]⟩

/-- With a positive bound, a worker has something to do if a group at its place, or one that is a multiple of the
bound further on, has a subtask. -/
lemma capGroups_pos {m : ℕ} (hm : 0 < m) (groups : List SubtaskGroup) :
    ∃ result, capGroups groups m = .ok result ∧ result.length = min groups.length m ∧
      ∀ t < min groups.length m, HasWork result t ↔ ∃ i, HasWork groups i ∧ i%m = t := by
  by_cases hfits : (groups.length : ℤ) ≤ m
  · refine ⟨groups,by rw [capGroups,if_pos hfits],by omega,fun t ht => ⟨fun h => ⟨t,h,?_⟩,?_⟩⟩
    · exact Nat.mod_eq_of_lt (by omega)
    · rintro ⟨i,hi,rfl⟩
      have hlt := hasWork_lt hi
      rwa [Nat.mod_eq_of_lt (by omega)]
  · have hlength : (groups.take m).length = m := by
      rw [List.length_take]
      omega
    obtain ⟨result,hresult,hwork⟩ := mergeExtras_pos hm 0 hlength (groups.drop m)
    have hcap : capGroups groups m = .ok result := by
      rw [capGroups,if_neg hfits]
      simp only [if_neg (show ¬(m : ℤ) < 0 by omega),Int.toNat_natCast]
      exact hresult
    refine ⟨result,hcap,?_,fun t ht => ?_⟩
    · rw [(mergeExtras_ok hresult (Regroups.refl _)).1,List.length_take,Nat.min_comm]
    rw [hwork t,hasWork_take]
    simp only [hasWork_drop,Nat.zero_add]
    constructor
    · rintro (⟨hlt,h⟩ | ⟨k,hk,rfl⟩)
      · exact ⟨t,h,Nat.mod_eq_of_lt hlt⟩
      · exact ⟨m+k,hk,Nat.add_mod_left m k⟩
    · rintro ⟨i,hi,rfl⟩
      by_cases hlt : i < m
      · exact .inl ⟨Nat.mod_lt i hm,by rwa [Nat.mod_eq_of_lt hlt]⟩
      · refine .inr ⟨i-m,by rwa [Nat.add_sub_cancel' (by omega)],?_⟩
        exact (Nat.mod_eq_sub_mod (by omega)).symm

/-- Without a bound to divide by, nothing is returned. -/
lemma capGroups_zero (hne : groups ≠ []) : capGroups groups 0 = .error .other := by
  obtain ⟨group,rest,rfl⟩ := List.exists_cons_of_ne_nil hne
  rw [capGroups,if_neg (by simp only [List.length_cons]; omega)]
  rfl

/-- With a negative bound one group is returned, or none at all, or too many. -/
lemma capGroups_neg (k : ℕ) (hne : groups ≠ []) :
    (∃ result, capGroups groups (.negSucc k) = .ok result ∧ result.length ≤ 1) ↔ groups.length = k+2 ∧ k ≤ 1 := by
  have hpos := List.length_pos_iff.mpr hne
  have hcap : capGroups groups (.negSucc k) = mergeExtras (.negSucc k) 0 (groups.take (groups.length-(k+1)))
      (groups.drop (groups.length-(k+1))) := by
    have hcut : ((groups.length : ℤ)+.negSucc k).toNat = groups.length-(k+1) := by omega
    rw [capGroups,if_neg (by omega)]
    simp only [Int.negSucc_lt_zero,if_true,hcut]
  rw [hcap]
  obtain ⟨first,rest,hdrop⟩ : ∃ first rest, groups.drop (groups.length-(k+1)) = first::rest := by
    apply List.exists_cons_of_ne_nil
    rw [ne_eq,List.drop_eq_nil_iff]
    omega
  have hrest : rest.length+1 = min (k+1) groups.length := by
    have hlength := congrArg List.length hdrop
    rw [List.length_drop,List.length_cons] at hlength
    omega
  constructor
  · rintro ⟨result,hresult,hone⟩
    have hlength := (mergeExtras_ok hresult (Regroups.refl _)).1
    rw [List.length_take] at hlength
    by_cases hnone : groups.length ≤ k+1
    · rw [hdrop,show groups.length-(k+1) = 0 by omega] at hresult
      exact absurd hresult (by simp [mergeExtras,pyIndex])
    obtain ⟨target,htarget⟩ : ∃ target, groups.take (groups.length-(k+1)) = [target] := by
      apply List.length_eq_one_iff.mp
      rw [List.length_take]
      omega
    refine ⟨by omega,?_⟩
    by_contra hk
    obtain ⟨k,rfl⟩ : ∃ k', k = k'+2 := ⟨k-2,by omega⟩
    cases rest with
    | nil => simp at hrest; omega
    | cons second rest =>
      rw [hdrop,htarget] at hresult
      have hmod : (1 : ℤ).fmod (.negSucc (k+2)) = .negSucc (k+1) := rfl
      have hbefore : ¬(0 : ℤ) ≤ 1+.negSucc (k+1) := by omega
      simp [mergeExtras,hmod,hbefore,pyIndex] at hresult
  · rintro ⟨hlength,hk⟩
    obtain ⟨target,htarget⟩ : ∃ target, groups.take (groups.length-(k+1)) = [target] := by
      apply List.length_eq_one_iff.mp
      rw [List.length_take]
      omega
    rw [htarget,hdrop]
    obtain rfl | rfl : k = 0 ∨ k = 1 := by omega
    · obtain rfl : rest = [] := List.length_eq_zero_iff.mp (by omega)
      exact ⟨_,rfl,Nat.le_refl 1⟩
    · obtain ⟨second,rfl⟩ := List.length_eq_one_iff.mp (show rest.length = 1 by omega)
      exact ⟨_,rfl,Nat.le_refl 1⟩

/-- So many groups, of which those that are `full` have a subtask, can be spread over the workers. -/
def Spreads (maxWorkers : ℤ) (n : ℕ) (full : ℕ → Prop) : Prop :=
  (0 < maxWorkers ∧ ∀ t < n, t < maxWorkers → ∃ i < n, full i ∧ i%maxWorkers.toNat = t) ∨
    (n = 1-maxWorkers ∧ maxWorkers < 0 ∧ -2 ≤ maxWorkers ∧ ∃ i < n, full i)

lemma exists_hasWork : (∃ i < groups.length, HasWork groups i) ↔ groups.flatMap SubtaskGroup.subtasks ≠ [] := by
  rw [ne_eq,List.flatMap_eq_nil_iff]
  constructor
  · rintro ⟨i,-,group,hgroup,hne⟩ h
    exact hne (h group (List.mem_of_getElem? hgroup))
  · intro h
    push Not at h
    obtain ⟨group,hgroup,hne⟩ := h
    obtain ⟨i,hi,rfl⟩ := List.getElem_of_mem hgroup
    exact ⟨i,hi,_,List.getElem?_eq_getElem hi,hne⟩

/-- When every worker has something to do. -/
lemma capGroups_iff (hne : groups ≠ []) : (∃ result, capGroups groups maxWorkers = .ok result ∧
    (result.length : ℤ) ≤ max 1 maxWorkers ∧ ∀ group ∈ result, group.subtasks ≠ []) ↔
      Spreads maxWorkers groups.length (HasWork groups) := by
  have hpos := List.length_pos_iff.mpr hne
  rcases maxWorkers with m | k
  · rcases Nat.eq_zero_or_pos m with rfl | hm
    · refine iff_of_false ?_ ?_
      · rintro ⟨result,hresult,-⟩
        rw [show (Int.ofNat 0) = 0 from rfl,capGroups_zero hne] at hresult
        cases hresult
      · rintro (⟨h,-⟩ | ⟨-,h,-⟩) <;> exact absurd h (lt_irrefl (0 : ℤ))
    · obtain ⟨result,hresult,hlength,hwork⟩ := capGroups_pos hm groups
      have hiff : (∀ group ∈ result, group.subtasks ≠ []) ↔
          ∀ t < groups.length, t < m → ∃ i < groups.length, HasWork groups i ∧ i%m = t := by
        rw [← forall_hasWork,hlength]
        constructor
        · intro h t hn ht
          obtain ⟨i,hi,hmod⟩ := (hwork t (by omega)).mp (h t (by omega))
          exact ⟨i,hasWork_lt hi,hi,hmod⟩
        · intro h t ht
          obtain ⟨i,-,hi⟩ := h t (by omega) (by omega)
          exact (hwork t ht).mpr ⟨i,hi⟩
      constructor
      · rintro ⟨_,hcap,-,hall⟩
        obtain rfl := Except.ok.inj (hresult.symm.trans hcap)
        exact .inl ⟨by simpa using hm,fun t hn ht => hiff.mp hall t hn (by simpa using ht)⟩
      · rintro (⟨-,h⟩ | ⟨-,h,-⟩)
        · refine ⟨result,hresult,?_,hiff.mpr (fun t hn ht => h t hn (by simpa using ht))⟩
          simp only [Int.ofNat_eq_natCast]
          omega
        · simp only [Int.ofNat_eq_natCast] at h
          omega
  · have hsubtasks : ∀ result, capGroups groups (.negSucc k) = .ok result → result.length = 1 →
        ((∀ group ∈ result, group.subtasks ≠ []) ↔ ∃ i < groups.length, HasWork groups i) := by
      intro result hresult hone
      obtain ⟨target,rfl⟩ := List.length_eq_one_iff.mp hone
      have hperm := (capGroups_keepsSubtasks hresult).multiset
      rw [exists_hasWork,ne_eq,← List.length_eq_zero_iff,← hperm.length_eq]
      simp
    constructor
    · rintro ⟨result,hresult,hbound,hall⟩
      have hone : result.length ≤ 1 := by omega
      obtain ⟨hlength,hk⟩ := (capGroups_neg k hne).mp ⟨result,hresult,hone⟩
      refine .inr ⟨by omega,by omega,by omega,(hsubtasks result hresult ?_).mp hall⟩
      have hregroups := (capGroups_keepsSubtasks hresult).order
      obtain ⟨group,hgroup⟩ := List.exists_mem_of_ne_nil groups hne
      obtain ⟨target,htarget,-⟩ := hregroups group hgroup
      have := List.length_pos_of_mem htarget
      omega
    · rintro (⟨h,-⟩ | ⟨hlength,-,hk,hwork⟩)
      · omega
      obtain ⟨result,hresult,hone⟩ := (capGroups_neg k hne).mpr ⟨by omega,by omega⟩
      have hregroups := (capGroups_keepsSubtasks hresult).order
      obtain ⟨group,hgroup⟩ := List.exists_mem_of_ne_nil groups hne
      obtain ⟨target,htarget,-⟩ := hregroups group hgroup
      have := List.length_pos_of_mem htarget
      exact ⟨result,hresult,by omega,(hsubtasks result hresult (by omega)).mpr hwork⟩

lemma capGroups_workable (hne : groups ≠ []) : (∃ result, capGroups groups maxWorkers = .ok result ∧
    Workable maxWorkers result) ↔ Spreads maxWorkers groups.length (HasWork groups) ∧
      ∀ group ∈ groups, ∀ subtask ∈ group.subtasks, ¬blank subtask := by
  rw [← capGroups_iff hne]
  have hblank : ∀ result, capGroups groups maxWorkers = .ok result →
      ((∀ group ∈ result, ∀ subtask ∈ group.subtasks, ¬blank subtask) ↔
        ∀ group ∈ groups, ∀ subtask ∈ group.subtasks, ¬blank subtask) := by
    intro result hresult
    simp only [← List.forall_mem_flatMap]
    exact forall_congr' fun subtask => by rw [(capGroups_keepsSubtasks hresult).multiset.mem_iff]
  constructor
  · rintro ⟨result,hresult,hbound,hall⟩
    exact ⟨⟨result,hresult,hbound,fun group h => (hall group h).1⟩,
      (hblank result hresult).mp (fun group h => (hall group h).2)⟩
  · rintro ⟨⟨result,hresult,hbound,hwork⟩,hall⟩
    exact ⟨result,hresult,hbound,fun group h => ⟨hwork group h,(hblank result hresult).mpr hall group h⟩⟩

/-- So many groups that all have a subtask. -/
def Fits (maxWorkers : ℤ) (n : ℕ) : Prop :=
  0 < maxWorkers ∨ (n = 1-maxWorkers ∧ maxWorkers < 0 ∧ -2 ≤ maxWorkers)

lemma spreads_of_all {n : ℕ} {full : ℕ → Prop} (hn : 0 < n) (h : ∀ i < n, full i) :
    Spreads maxWorkers n full ↔ Fits maxWorkers n := by
  constructor
  · rintro (⟨hpos,-⟩ | ⟨hn,hneg,htwo,-⟩)
    · exact .inl hpos
    · exact .inr ⟨hn,hneg,htwo⟩
  · rintro (hpos | ⟨hlength,hneg,htwo⟩)
    · exact .inl ⟨hpos,fun t ht hlt => ⟨t,ht,h t ht,Nat.mod_eq_of_lt (by omega)⟩⟩
    · exact .inr ⟨hlength,hneg,htwo,0,hn,h 0 hn⟩

/-- The list of subtasks of an entry, if it counts as a group. -/
def entryTasks : Json F → Option (List (Json F))
  | .object g => match g.lookup "subtasks" with
    | some (.array (task::tasks)) => some (task::tasks)
    | _ => none
  | _ => none

/-- The list `groups` of an object. -/
def planEntries : Json F → List (Json F)
  | .object members => match members.lookup "groups" with
    | some (.array groups) => groups
    | _ => []
  | _ => []

/-- The lists of subtasks that an object offers. -/
def offered (data : Json F) : List (List (Json F)) := (planEntries data).filterMap entryTasks

/-- The items of a list that are not blank. -/
def listed (py : TextPython F) : Json F → List (Json F)
  | .array items => items.filter (fun item => !blank (py.format item))
  | _ => []

/-- The lines do as a plan. -/
def LinesReadable (raw : String) (maxWorkers : ℤ) : Prop :=
  planLines raw = [] ∨ (Fits maxWorkers (planLines raw).length ∧ ∀ line ∈ planLines raw, ¬blank line)

/-- The text does as a plan for so many workers: it is an object whose groups can be spread such that every worker
gets a subtask, or a list that fits, or else its lines do. A text that the decoder gives up on never does. -/
def Readable (py : TextPython F) (raw : String) (maxWorkers : ℤ) : Prop :=
  match py.loads (unfenced raw) with
  | .ok data =>
    if offered data ≠ [] then
      Spreads maxWorkers (offered data).length
        (fun i => ∃ tasks, (offered data)[i]? = some tasks ∧ ∃ task ∈ tasks, ¬blank (py.format task))
    else if listed py data ≠ [] then Fits maxWorkers (listed py data).length
    else LinesReadable raw maxWorkers
  | .error .valueError | .error .typeError => LinesReadable raw maxWorkers
  | .error .attributeError | .error .other => False

/-- The plan is read without an exception, for at most so many workers and at least one, each of which gets a
subtask and none a blank one; and merging loses nothing. -/
def ReadsTotally (py : TextPython F) (raw : String) (maxWorkers : ℤ) : Prop :=
  (∃ groups, parseGroups py raw maxWorkers = .ok groups ∧ Workable maxWorkers groups) ∧
    ∀ groups merged, capGroups groups maxWorkers = .ok merged → KeepsSubtasks groups merged

variable {py : TextPython F} {raw : String}

lemma validGroups_subtasks (py : TextPython F) (n : ℕ) (entries : List (Json F)) :
    (validGroups py n entries).map SubtaskGroup.subtasks =
      (entries.filterMap entryTasks).map (fun tasks => (tasks.map py.format).filter (fun s => !blank s)) := by
  induction entries generalizing n with
  | nil => rfl
  | cons entry entries ih =>
    cases entry with
    | object g =>
      cases hlookup : g.lookup "subtasks" with
      | none => simpa [validGroups,entryTasks,hlookup] using ih n
      | some value =>
        cases value with
        | array items =>
          cases items with
          | nil => simpa [validGroups,entryTasks,hlookup] using ih n
          | cons task tasks => simp [validGroups,entryTasks,hlookup,ih]
        | _ => simpa [validGroups,entryTasks,hlookup] using ih n
    | _ => exact ih n

lemma validGroups_eq_nil (py : TextPython F) {data : Json F} :
    validGroups py 0 (planEntries data) = [] ↔ offered data = [] := by
  rw [← List.map_eq_nil_iff (f := SubtaskGroup.subtasks),validGroups_subtasks,List.map_eq_nil_iff]
  rfl

/-- An object whose groups are used. -/
lemma validGroups_workable {data : Json F} (hne : offered data ≠ []) :
    (∃ result, capGroups (validGroups py 0 (planEntries data)) maxWorkers = .ok result ∧
      Workable maxWorkers result) ↔ Spreads maxWorkers (offered data).length
        (fun i => ∃ tasks, (offered data)[i]? = some tasks ∧ ∃ task ∈ tasks, ¬blank (py.format task)) := by
  have hmap := validGroups_subtasks py 0 (planEntries data)
  change _ = (offered data).map _ at hmap
  have hlength : (validGroups py 0 (planEntries data)).length = (offered data).length := by
    simpa using congrArg List.length hmap
  rw [capGroups_workable (fun h => hne ((validGroups_eq_nil py).mp h)),hlength,and_iff_left]
  · congr! 2 with i
    have hget := congrArg (fun groups => groups[i]?) hmap
    simp only [List.getElem?_map] at hget
    rw [HasWork]
    cases hentry : (offered data)[i]? with
    | none =>
      rw [hentry,Option.map_none,Option.map_eq_none_iff] at hget
      simp [hget]
    | some tasks =>
      rw [hentry,Option.map_some] at hget
      obtain ⟨group,hgroup,hsubtasks⟩ := Option.map_eq_some_iff.mp hget
      simp [hgroup,hsubtasks]
  · intro group hgroup subtask hsubtask
    have hmem := List.mem_map_of_mem (f := SubtaskGroup.subtasks) hgroup
    rw [hmap] at hmem
    obtain ⟨tasks,-,htasks⟩ := List.mem_map.mp hmem
    rw [← htasks] at hsubtask
    simpa using (List.mem_filter.mp hsubtask).2

/-- Subtasks that get a group each. -/
lemma taskGroups_workable {tasks : List (String × ℕ)} (hne : tasks ≠ []) :
    (∃ result, capGroups (tasks.map taskGroup) maxWorkers = .ok result ∧ Workable maxWorkers result) ↔
      Fits maxWorkers tasks.length ∧ ∀ task ∈ tasks, ¬blank task.1 := by
  have hwork : ∀ i < (tasks.map taskGroup).length, HasWork (tasks.map taskGroup) i := by
    rw [forall_hasWork]
    intro group hgroup
    obtain ⟨task,-,rfl⟩ := List.mem_map.mp hgroup
    exact List.cons_ne_nil _ _
  rw [capGroups_workable (by simpa using hne),spreads_of_all (by simpa [List.length_pos_iff] using hne) hwork,
    List.length_map]
  apply and_congr_right
  rintro -
  rw [List.forall_mem_map]
  exact forall₂_congr (fun task _ => List.forall_mem_singleton)

lemma guarded_capGroups (groups : List SubtaskGroup) :
    guarded ((capGroups groups maxWorkers).map some) = (capGroups groups maxWorkers).map some := by
  cases hcap : capGroups groups maxWorkers with
  | ok result => rfl
  | error e =>
    obtain rfl := capGroups_error hcap
    rfl

/-- The lines as a plan. -/
lemma fromLines_workable : (∃ result, fromLines raw maxWorkers = .ok result ∧ Workable maxWorkers result) ↔
    LinesReadable raw maxWorkers := by
  unfold fromLines LinesReadable
  by_cases hnone : planLines raw = []
  · rw [hnone]
    refine iff_of_true ⟨[],rfl,?_,fun group hgroup => absurd hgroup List.not_mem_nil⟩ (.inl rfl)
    exact Int.le_trans (by decide) (Int.le_max_left 1 maxWorkers)
  · have hzip : (planLines raw).zipIdx ≠ [] := fun h => hnone (List.zipIdx_eq_nil_iff.mp h)
    rw [if_neg (by simpa using hnone),or_iff_right hnone,taskGroups_workable hzip,List.length_zipIdx,
      ← List.forall_mem_map (f := Prod.fst) (P := fun line => ¬blank line),List.zipIdx_map_fst]

/-- The first strategy takes the groups of an object, if any counts. -/
lemma fromGroups_ok {text : String} {data : Json F} (h : py.loads text = .ok data) :
    guarded (fromGroups py text maxWorkers) = if offered data = [] then .ok none
      else (capGroups (validGroups py 0 (planEntries data)) maxWorkers).map some := by
  have hnone : offered data = [] → fromGroups py text maxWorkers = .ok none →
      guarded (fromGroups py text maxWorkers) = if offered data = [] then .ok none
        else (capGroups (validGroups py 0 (planEntries data)) maxWorkers).map some := by
    intro hoffered hresult
    rw [if_pos hoffered,hresult]
    rfl
  cases data with
  | object members =>
    cases hlookup : members.lookup "groups" with
    | none => exact hnone (by simp [offered,planEntries,hlookup]) (by simp [fromGroups,h,hlookup])
    | some value =>
      cases value with
      | array groups =>
        have hentries : planEntries (.object members) = groups := by simp [planEntries,hlookup]
        rw [fromGroups,h]
        simp only [hlookup,hentries,← validGroups_eq_nil py,List.isEmpty_iff]
        split_ifs
        · rfl
        · exact guarded_capGroups _
      | _ => exact hnone (by simp [offered,planEntries,hlookup]) (by simp [fromGroups,h,hlookup])
  | _ => exact hnone rfl (by simp [fromGroups,h])

/-- The items of a list that are not blank, as texts with their places. -/
def listedTasks (py : TextPython F) : Json F → List (String × ℕ)
  | .array items => (items.map py.format).zipIdx.filter (fun task => !blank task.1)
  | _ => []

lemma listedTasks_map_fst (py : TextPython F) (data : Json F) :
    (listedTasks py data).map Prod.fst = (listed py data).map py.format := by
  cases data with
  | array items =>
    have hfilter := List.filter_map (f := Prod.fst) (p := fun s => !blank s) (l := (items.map py.format).zipIdx)
    rw [List.zipIdx_map_fst,List.filter_map] at hfilter
    exact hfilter.symm
  | _ => rfl

lemma listedTasks_eq_nil {data : Json F} : listedTasks py data = [] ↔ listed py data = [] := by
  rw [← List.map_eq_nil_iff (f := Prod.fst),listedTasks_map_fst,List.map_eq_nil_iff]

/-- The second strategy takes the items of a list. -/
lemma fromList_ok {text : String} {data : Json F} (h : py.loads text = .ok data) :
    guarded (fromList py text maxWorkers) = if listed py data = [] then .ok none
      else (capGroups ((listedTasks py data).map taskGroup) maxWorkers).map some := by
  cases data with
  | array items =>
    rw [fromList,h]
    simp only [← listedTasks_eq_nil,List.isEmpty_iff,List.map_eq_nil_iff,listedTasks]
    split_ifs
    · rfl
    · exact guarded_capGroups _
  | _ => simp [fromList,h,listed,guarded]

lemma listedTasks_workable {data : Json F} (hne : listed py data ≠ []) :
    (∃ result, capGroups ((listedTasks py data).map taskGroup) maxWorkers = .ok result ∧
      Workable maxWorkers result) ↔ Fits maxWorkers (listed py data).length := by
  have hmap := listedTasks_map_fst py data
  have hlength : (listedTasks py data).length = (listed py data).length := by
    simpa using congrArg List.length hmap
  rw [taskGroups_workable (fun h => hne (listedTasks_eq_nil.mp h)),hlength,and_iff_left]
  rw [← List.forall_mem_map (f := Prod.fst) (P := fun s => ¬blank s),hmap,List.forall_mem_map]
  intro item hitem
  cases data with
  | array items => simpa using (List.mem_filter.mp hitem).2
  | _ => cases hitem

/-- Which strategy reads the plan. -/
lemma parseGroups_eq (py : TextPython F) (raw : String) (maxWorkers : ℤ) : parseGroups py raw maxWorkers =
    match py.loads (unfenced raw) with
    | .ok data =>
      if offered data ≠ [] then capGroups (validGroups py 0 (planEntries data)) maxWorkers
      else if listed py data ≠ [] then capGroups ((listedTasks py data).map taskGroup) maxWorkers
      else fromLines raw maxWorkers
    | .error .valueError | .error .typeError => fromLines raw maxWorkers
    | .error e => .error e := by
  unfold parseGroups
  cases hloads : py.loads (unfenced raw) with
  | error e =>
    have hgroups : fromGroups py (unfenced raw) maxWorkers = .error e := by simp only [fromGroups,hloads]
    have hlist : fromList py (unfenced raw) maxWorkers = .error e := by simp only [fromList,hloads]
    rw [hgroups,hlist]
    cases e <;> simp only [guarded,orNext]
  | ok data =>
    rw [fromGroups_ok hloads,fromList_ok hloads]
    simp only
    by_cases hoffered : offered data = []
    · rw [if_neg (not_not_intro hoffered),if_pos hoffered,orNext]
      by_cases hlisted : listed py data = []
      · rw [if_neg (not_not_intro hlisted),if_pos hlisted,orNext]
      · rw [if_pos hlisted,if_neg hlisted,orNext_map_some]
    · rw [if_pos hoffered,if_neg hoffered,orNext_map_some]

/-- The plan is read as it should be exactly if the text does for so many workers. -/
theorem readsTotally_iff (py : TextPython F) (raw : String) (maxWorkers : ℤ) :
    ReadsTotally py raw maxWorkers ↔ Readable py raw maxWorkers := by
  rw [ReadsTotally,and_iff_left (fun _ _ => capGroups_keepsSubtasks),parseGroups_eq]
  unfold Readable
  cases hloads : py.loads (unfenced raw) with
  | error e =>
    cases e with
    | valueError | typeError => exact fromLines_workable
    | attributeError | other => exact iff_of_false (fun ⟨_,h,_⟩ => by cases h) id
  | ok data =>
    simp only
    split_ifs with hoffered hlisted
    · exact validGroups_workable hoffered
    · exact listedTasks_workable hlisted
    · exact fromLines_workable

/-- An interpreter that decodes a plan with a blank subtask. -/
def blankPlanPython : TextPython ℕ where
  toPython := { zeroPython with loads := fun _ => .ok (.object [("groups",.array [.object [("name",.string "search"),
    ("subtasks",.array [.string " "])]])]) }
  decode _ := none
  decodeReplace _ := ""
  format
    | .string s => s
    | _ => ""

/-- A group of the plan has only a blank subtask, so its worker gets nothing to do. -/
theorem blank_plan_gives_empty_group : ¬∀ (F : Type) (py : TextPython F) (raw : String) (maxWorkers : ℤ),
    ReadsTotally py raw maxWorkers := by
  intro h
  let raw := "\x7b\"groups\": [\x7b\"name\": \"search\", \"subtasks\": [\" \"]\x7d]\x7d"
  obtain ⟨⟨groups,hparse,-,hwork⟩,-⟩ := h ℕ blankPlanPython raw 3
  have hparsed : parseGroups blankPlanPython raw 3 = .ok [⟨"search",[]⟩] := rfl
  obtain rfl := Except.ok.inj (hparsed.symm.trans hparse)
  exact (hwork _ List.mem_cons_self).1 rfl

/-- The groups from the plan among the parameters, or else from the answer of the model. -/
def plannedGroups (py : TextPython F) (plan param : String) (planLog : AwaitOutcome Unit)
    (answer : AwaitOutcome String) : Option (List SubtaskGroup) := do
  let maxWorkers ← Orchestrator.maxWorkers py.toPython param
  if plan = "" then
    let raw ← answer.value
    (parseGroups py raw maxWorkers).toOption
  else
    let groups ← (parseGroups py plan maxWorkers).toOption
    planLog.value
    if groups.isEmpty then
      let raw ← answer.value
      (parseGroups py raw maxWorkers).toOption
    else pure groups

end HiveKernel.Orchestrator
