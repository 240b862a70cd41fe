import HiveKernel.Process.Spawner
import HiveKernel.Resources.Accounting
import Mathlib.Data.UInt

/-! What the accountant's sums say about what was recorded. They agree with each other for every tier, also
when a process changes its user or node, and do not depend on the order of the records. -/
namespace HiveKernel
open Lib

section Collected
variable {κ : Type} [DecidableEq κ]

/-- The amounts that are recorded under a key. -/
def amountsOf (entries : List (κ × UInt64)) (key : κ) : List UInt64 :=
  (entries.filter (fun e => e.1 = key)).map Prod.snd

/-- Their sum, if there are any. -/
def collectedTokens (entries : List (κ × UInt64)) (key : κ) : Option UInt64 :=
  if amountsOf entries key = [] then none else some (amountsOf entries key).sum

lemma getD_collectedTokens (entries : List (κ × UInt64)) (key : κ) :
    (collectedTokens entries key).getD 0 = (amountsOf entries key).sum := by
  unfold collectedTokens
  split_ifs with h
  · rw [h]
    rfl
  · rfl

lemma amountsOf_eq_nil_iff {entries : List (κ × UInt64)} {key : κ} :
    amountsOf entries key = [] ↔ ∀ e ∈ entries, e.1 ≠ key := by
  simp [amountsOf]

lemma isSome_collected_iff {entries : List (κ × UInt64)} {key : κ} :
    (collectedTokens entries key).isSome ↔ ∃ e ∈ entries, e.1 = key := by
  have hsome : (collectedTokens entries key).isSome ↔ ¬amountsOf entries key = [] := by
    unfold collectedTokens
    split_ifs with h <;> simp [h]
  rw [hsome,amountsOf_eq_nil_iff]
  simp only [not_forall,not_not,exists_prop]

lemma collectedTokens_perm {entries entries' : List (κ × UInt64)} (h : entries.Perm entries') (key : κ) :
    collectedTokens entries key = collectedTokens entries' key := by
  have hamounts : (amountsOf entries key).Perm (amountsOf entries' key) := (h.filter _).map Prod.snd
  have hnil : amountsOf entries key = [] ↔ amountsOf entries' key = [] := by
    rw [← List.length_eq_zero_iff,hamounts.length_eq,List.length_eq_zero_iff]
  simp only [collectedTokens,hnil,hamounts.sum_eq]

lemma amountsOf_snoc (entries : List (κ × UInt64)) (k key : κ) (tokens : UInt64) :
    amountsOf (entries++[(k,tokens)]) key = amountsOf entries key++if key = k then [tokens] else [] := by
  unfold amountsOf
  by_cases hk : key = k
  · simp [hk]
  · simp [hk,Ne.symm hk]

lemma collectedTokens_snoc (entries : List (κ × UInt64)) (k key : κ) (tokens : UInt64) :
    collectedTokens (entries++[(k,tokens)]) key =
      if key = k then some ((collectedTokens entries key).getD 0+tokens) else collectedTokens entries key := by
  by_cases hk : key = k
  · rw [if_pos hk,getD_collectedTokens,collectedTokens,amountsOf_snoc,if_pos hk,if_neg (by simp),List.sum_append]
    simp
  · rw [if_neg hk,collectedTokens,amountsOf_snoc,if_neg hk,List.append_nil]
    rfl

/-- The table holds what is added up under each key. -/
def Collects (m : Table κ UInt64) (entries : List (κ × UInt64)) : Prop :=
  ∀ key, m.get key = collectedTokens entries key

lemma Collects.add {m : Table κ UInt64} {entries : List (κ × UInt64)} (h : Collects m entries) (k : κ)
    (tokens : UInt64) : Collects (m.set k ((m.get k).getD 0+tokens)) (entries++[(k,tokens)]) := by
  intro key
  rw [Table.get_set,collectedTokens_snoc]
  split_ifs with hk
  · rw [hk,h k]
  · exact h key

end Collected

/-- The sum over all keys, for one tier. -/
def tierSum {κ : Type} (m : Table (κ × ModelTier) UInt64) (tier : ModelTier) : UInt64 :=
  m.sum (fun key tokens => if key.2 = tier then tokens else 0)

lemma tierSum_addTo {κ : Type} [DecidableEq κ] (m : Table (κ × ModelTier) UInt64) (key : κ) (tier j : ModelTier)
    (tokens : UInt64) : tierSum (Accountant.addTo m key tier tokens) j =
      tierSum m j+if tier = j then tokens else 0 := by
  unfold tierSum Accountant.addTo
  cases hold : m.get (key,tier) with
  | none =>
    rw [Table.sum_set_of_none _ hold,Option.getD_none,zero_add,add_comm]
  | some before =>
    have hsum := Table.sum_set_of_some m hold (before+tokens) (fun k v => if k.2 = j then v else 0)
    rw [Option.getD_some]
    split_ifs at hsum ⊢ with htier
    · exact add_right_cancel (hsum.trans (by rw [add_comm before,add_assoc]))
    · rw [add_zero] at hsum
      exact hsum

namespace Accountant

/-- A consumption that is recorded. -/
structure RecordCall where
  now : ℤ
  pid : ℕ
  tier : ModelTier
  tokens : UInt64

/-- Record one consumption after the other, each with the registry as it is then. -/
def recordAll (a : Accountant) (history : List (Registry × RecordCall)) : Accountant :=
  history.foldl (fun a event => a.record event.1 event.2.now event.2.pid event.2.tier event.2.tokens) a

/-- What is logged of a consumption. -/
def usageRecord (r : Registry) (call : RecordCall) : UsageRecord where
  pid := call.pid
  user := ((r.get call.pid).map Process.user).getD "unknown"
  vps := ((r.get call.pid).map Process.vps).getD "unknown"
  tier := call.tier
  tokens := call.tokens
  timestamp := call.now

/-- The tokens of one tier among the records. -/
def tierTokens (records : List UsageRecord) (tier : ModelTier) : List UInt64 :=
  (records.filter (fun r => r.tier = tier)).map UsageRecord.tokens

/-- Every table holds what the records say. -/
structure Aggregated (a : Accountant) : Prop where
  byUser : Collects a.byUser (a.records.map (fun r => ((r.user,r.tier),r.tokens)))
  byVPS : Collects a.byVPS (a.records.map (fun r => ((r.vps,r.tier),r.tokens)))
  byPID : Collects a.byPID (a.records.map (fun r => ((r.pid,r.tier),r.tokens)))

variable {a : Accountant}

lemma aggregated_new : Aggregated new := ⟨fun _ => rfl,fun _ => rfl,fun _ => rfl⟩

lemma Aggregated.record (h : Aggregated a) (r : Registry) (now : ℤ) (pid : ℕ) (tier : ModelTier)
    (tokens : UInt64) : Aggregated (a.record r now pid tier tokens) := by
  constructor
  · simp only [Accountant.record,List.map_append]
    exact h.byUser.add _ tokens
  · simp only [Accountant.record,List.map_append]
    exact h.byVPS.add _ tokens
  · simp only [Accountant.record,List.map_append]
    exact h.byPID.add _ tokens

lemma Aggregated.recordAll (h : Aggregated a) (history : List (Registry × RecordCall)) :
    Aggregated (a.recordAll history) := by
  induction history generalizing a with
  | nil => exact h
  | cons event history ih => exact ih (h.record _ _ _ _ _)

lemma tierTokens_append (records records' : List UsageRecord) (tier : ModelTier) :
    tierTokens (records++records') tier = tierTokens records tier++tierTokens records' tier := by
  simp only [tierTokens,List.filter_append,List.map_append]

lemma records_recordAll (a : Accountant) (history : List (Registry × RecordCall)) :
    (a.recordAll history).records = a.records++history.map (fun event => usageRecord event.1 event.2) := by
  induction history generalizing a with
  | nil => exact (List.append_nil _).symm
  | cons event history ih =>
    refine (ih (a.record _ _ _ _ _)).trans ?_
    rw [List.map_cons]
    exact List.append_assoc _ [_] _

/-- A record adds its tokens to the sum of its tier in each table. -/
lemma tierSum_record (a : Accountant) (r : Registry) (now : ℤ) (pid : ℕ) (tier j : ModelTier) (tokens : UInt64) :
    tierSum (a.record r now pid tier tokens).byUser j = tierSum a.byUser j+(if tier = j then tokens else 0) ∧
    tierSum (a.record r now pid tier tokens).byVPS j = tierSum a.byVPS j+(if tier = j then tokens else 0) ∧
    tierSum (a.record r now pid tier tokens).byPID j = tierSum a.byPID j+(if tier = j then tokens else 0) ∧
    (tierTokens (a.record r now pid tier tokens).records j).sum =
      (tierTokens a.records j).sum+(if tier = j then tokens else 0) := by
  refine ⟨tierSum_addTo _ _ _ _ _,tierSum_addTo _ _ _ _ _,tierSum_addTo _ _ _ _ _,?_⟩
  rw [Accountant.record,tierTokens_append,List.sum_append]
  by_cases htier : tier = j
  · simp [tierTokens,htier]
  · simp [tierTokens,htier]

/-- So the sums over users, nodes, processes and records stay equal. -/
structure Balanced (a : Accountant) : Prop where
  byUser : ∀ tier, tierSum a.byUser tier = (tierTokens a.records tier).sum
  byVPS : ∀ tier, tierSum a.byVPS tier = (tierTokens a.records tier).sum
  byPID : ∀ tier, tierSum a.byPID tier = (tierTokens a.records tier).sum

lemma balanced_new : Balanced new := ⟨fun _ => rfl,fun _ => rfl,fun _ => rfl⟩

lemma Balanced.recordAll (h : Balanced a) (history : List (Registry × RecordCall)) :
    Balanced (a.recordAll history) := by
  induction history generalizing a with
  | nil => exact h
  | cons event history ih =>
    refine ih ⟨fun tier => ?_,fun tier => ?_,fun tier => ?_⟩
    · obtain ⟨huser,-,-,hrecords⟩ := a.tierSum_record event.1 event.2.now event.2.pid event.2.tier tier event.2.tokens
      rw [huser,hrecords,h.byUser]
    · obtain ⟨-,hvps,-,hrecords⟩ := a.tierSum_record event.1 event.2.now event.2.pid event.2.tier tier event.2.tokens
      rw [hvps,hrecords,h.byVPS]
    · obtain ⟨-,-,hpid,hrecords⟩ := a.tierSum_record event.1 event.2.now event.2.pid event.2.tier tier event.2.tokens
      rw [hpid,hrecords,h.byPID]

/-- What a loop over the table of the processes comes across. -/
def visited (a : Accountant) (order : List (ℕ × ModelTier)) : List (ModelTier × UInt64) :=
  order.filterMap (fun key => (a.byPID.get key).map (fun tokens => (key.2,tokens)))

lemma byTier_totalUsage (a : Accountant) (order : List (ℕ × ModelTier)) (tier : ModelTier) :
    (a.totalUsage order).byTier tier = collectedTokens (a.visited order) tier := by
  have hloop : ∀ (order : List (ℕ × ModelTier)) (total : Table ModelTier UInt64) (entries : List (ModelTier × UInt64)),
      Collects total entries → Collects (order.foldl a.addUsage total) (entries++a.visited order) := by
    intro order
    induction order with
    | nil =>
      intro total entries h
      simpa [visited] using h
    | cons key order ih =>
      intro total entries h
      rw [List.foldl_cons]
      cases hkey : a.byPID.get key with
      | none =>
        have hvisited : a.visited (key::order) = a.visited order := by simp [visited,hkey]
        have hadd : a.addUsage total key = total := by simp only [addUsage,hkey]
        rw [hvisited,hadd]
        exact ih total entries h
      | some tokens =>
        have hvisited : a.visited (key::order) = [(key.2,tokens)]++a.visited order := by simp [visited,hkey]
        have hadd : a.addUsage total key = total.set key.2 ((total.get key.2).getD 0+tokens) := by
          simp only [addUsage,hkey]
        rw [hvisited,← List.append_assoc,hadd]
        exact ih _ _ (h.add key.2 tokens)
  exact hloop order .empty [] (fun _ => rfl) tier

lemma sum_visited {order : List (ℕ × ModelTier)} (horder : a.byPID.Enumerates order) (tier : ModelTier) :
    (amountsOf (a.visited order) tier).sum = tierSum a.byPID tier := by
  rw [tierSum,Table.sum_eq_of_enumerates a.byPID horder]
  clear horder
  induction order with
  | nil => rfl
  | cons key order ih =>
    rw [List.map_cons,List.sum_cons,← ih]
    cases hkey : a.byPID.get key with
    | none => simp [visited,hkey]
    | some tokens =>
      by_cases htier : key.2 = tier
      · simp [visited,amountsOf,hkey,htier]
      · simp [visited,amountsOf,hkey,htier]

lemma collectedTokens_tier (records : List UsageRecord) (tier : ModelTier) :
    amountsOf (records.map (fun r => (r.tier,r.tokens))) tier = tierTokens records tier := by
  simp only [amountsOf,tierTokens,List.filter_map,List.map_map]
  rfl

/-- The loop comes across a tier exactly if there is a record of it. -/
lemma visited_eq_nil_iff (h : Aggregated a) {order : List (ℕ × ModelTier)} (horder : a.byPID.Enumerates order)
    (tier : ModelTier) : amountsOf (a.visited order) tier = [] ↔ tierTokens a.records tier = [] := by
  rw [← collectedTokens_tier,amountsOf_eq_nil_iff,amountsOf_eq_nil_iff,List.forall_mem_map]
  constructor
  · intro hnone r hr htier
    have hsome : (a.byPID.get (r.pid,r.tier)).isSome := by
      rw [h.byPID,isSome_collected_iff]
      exact ⟨_,List.mem_map_of_mem hr,rfl⟩
    obtain ⟨tokens,htokens⟩ := Option.isSome_iff_exists.mp hsome
    refine hnone (r.tier,tokens) (List.mem_filterMap.mpr ⟨(r.pid,r.tier),?_,by simp [htokens]⟩) htier
    exact (horder.mem_iff _).mpr hsome
  · intro hnone e he htier
    obtain ⟨key,-,hkey⟩ := List.mem_filterMap.mp he
    obtain ⟨tokens,htokens,rfl⟩ := Option.map_eq_some_iff.mp hkey
    have hsome : (a.byPID.get key).isSome := by simp [htokens]
    rw [h.byPID,isSome_collected_iff] at hsome
    obtain ⟨_,hmem,rfl⟩ := hsome
    obtain ⟨r,hr,rfl⟩ := List.mem_map.mp hmem
    exact hnone r hr htier

/-- The total usage of a tier is what all records of it add up to. -/
lemma byTier_totalUsage_eq (h : Aggregated a) (hb : Balanced a) {order : List (ℕ × ModelTier)}
    (horder : a.byPID.Enumerates order) (tier : ModelTier) :
    (a.totalUsage order).byTier tier = collectedTokens (a.records.map (fun r => (r.tier,r.tokens))) tier := by
  rw [byTier_totalUsage]
  simp only [collectedTokens,sum_visited horder,hb.byPID,visited_eq_nil_iff h horder,collectedTokens_tier]

/-- What a consumption is recorded of: process, tier and amount. -/
def RecordCall.triple (call : RecordCall) : ℕ × ModelTier × UInt64 := (call.pid,call.tier,call.tokens)

/-- With the registry unchanged, the accountant after these consumptions. -/
def recordUnder (r : Registry) (calls : List RecordCall) : Accountant :=
  new.recordAll (calls.map (fun call => (r,call)))

/-- What is read off the records without looking at their times is the same for the same consumptions in
another order. -/
lemma records_perm (r : Registry) {calls calls' : List RecordCall}
    (h : (calls.map RecordCall.triple).Perm (calls'.map RecordCall.triple)) {β : Type} (f : UsageRecord → β)
    (hf : ∀ record, f record = f { record with timestamp := 0 }) :
    ((recordUnder r calls).records.map f).Perm ((recordUnder r calls').records.map f) := by
  have hrecords : ∀ calls, (recordUnder r calls).records.map f =
      (calls.map RecordCall.triple).map (fun t => f (usageRecord r ⟨0,t.1,t.2.1,t.2.2⟩)) := by
    intro calls
    rw [recordUnder,records_recordAll]
    change ([]++_ : List UsageRecord).map f = _
    rw [List.nil_append,List.map_map,List.map_map,List.map_map]
    exact List.map_congr_left (fun call _ => hf (usageRecord r call))
  rw [hrecords,hrecords]
  exact h.map _

lemma summarize_congr {f g : ModelTier → Option UInt64} (h : ∀ tier, f tier = g tier) : summarize f = summarize g :=
  congrArg summarize (funext h)

lemma toNat_sum (amounts : List UInt64) : amounts.sum.toNat = (amounts.map UInt64.toNat).sum%2^64 := by
  induction amounts with
  | nil => rfl
  | cons amount amounts ih =>
    rw [List.sum_cons,List.map_cons,List.sum_cons,UInt64.toNat_add,ih,Nat.add_mod_mod]

/-- After any records, whatever the registry was at each of them, the sums of a tier over users, nodes, processes
and records are the same, modulo `2^64`, and the total usage reports it. As long as the registry does not change,
no summary depends on the order of the records. -/
theorem usage_identities :
    (∀ (history : List (Registry × RecordCall)) (tier : ModelTier) (order : List (ℕ × ModelTier)),
      (new.recordAll history).byPID.Enumerates order →
      tierSum (new.recordAll history).byUser tier = (tierTokens (new.recordAll history).records tier).sum ∧
      tierSum (new.recordAll history).byVPS tier = (tierTokens (new.recordAll history).records tier).sum ∧
      tierSum (new.recordAll history).byPID tier = (tierTokens (new.recordAll history).records tier).sum ∧
      (((new.recordAll history).totalUsage order).byTier tier).getD 0 =
        (tierTokens (new.recordAll history).records tier).sum ∧
      (new.recordAll history).records = history.map (fun event => usageRecord event.1 event.2) ∧
      (tierTokens (new.recordAll history).records tier).sum.toNat =
        ((tierTokens (new.recordAll history).records tier).map UInt64.toNat).sum%2^64) ∧
    ∀ (r : Registry) (calls calls' : List RecordCall),
      (calls.map RecordCall.triple).Perm (calls'.map RecordCall.triple) →
      (∀ user, (recordUnder r calls).userUsage user = (recordUnder r calls').userUsage user) ∧
      (∀ vps, (recordUnder r calls).vpsUsage vps = (recordUnder r calls').vpsUsage vps) ∧
      (∀ pid, (recordUnder r calls).processUsage pid = (recordUnder r calls').processUsage pid) ∧
      ∀ order order', (recordUnder r calls).byPID.Enumerates order → (recordUnder r calls').byPID.Enumerates order' →
        (recordUnder r calls).totalUsage order = (recordUnder r calls').totalUsage order' := by
  refine ⟨fun history tier order horder => ?_,fun r calls calls' hperm => ?_⟩
  · have h := aggregated_new.recordAll history
    have hb := balanced_new.recordAll history
    refine ⟨hb.byUser tier,hb.byVPS tier,hb.byPID tier,?_,records_recordAll new history,toNat_sum _⟩
    rw [byTier_totalUsage_eq h hb horder,getD_collectedTokens,collectedTokens_tier]
  · have h : ∀ calls, Aggregated (recordUnder r calls) := fun calls => aggregated_new.recordAll _
    have hb : ∀ calls, Balanced (recordUnder r calls) := fun calls => balanced_new.recordAll _
    refine ⟨fun user => ?_,fun vps => ?_,fun pid => ?_,fun order order' horder horder' => ?_⟩
    · refine summarize_congr (fun tier => ?_)
      rw [(h calls).byUser,(h calls').byUser]
      exact collectedTokens_perm (records_perm r hperm _ (fun _ => rfl)) _
    · refine summarize_congr (fun tier => ?_)
      rw [(h calls).byVPS,(h calls').byVPS]
      exact collectedTokens_perm (records_perm r hperm _ (fun _ => rfl)) _
    · refine summarize_congr (fun tier => ?_)
      rw [(h calls).byPID,(h calls').byPID]
      exact collectedTokens_perm (records_perm r hperm _ (fun _ => rfl)) _
    · refine summarize_congr (fun tier => ?_)
      change ((recordUnder r calls).totalUsage order).byTier tier =
        ((recordUnder r calls').totalUsage order').byTier tier
      rw [byTier_totalUsage_eq (h calls) (hb calls) horder,byTier_totalUsage_eq (h calls') (hb calls') horder']
      exact collectedTokens_perm (records_perm r hperm _ (fun _ => rfl)) _

/-- A registry with the kernel alone. -/
def kernelOn (nodeName : String) : Registry := (Registry.new.spawnKernel 0 "king" "root" nodeName).2

theorem usage_identities_moved :
    tierSum (new.recordAll [(kernelOn "vps1",⟨0,1,.mini,5⟩),(kernelOn "vps2",⟨1,1,.mini,7⟩),
      (Registry.new,⟨2,4,.opus,3⟩)]).byVPS .mini = 12 ∧
    (recordUnder (kernelOn "vps1") [⟨0,1,.mini,5⟩,⟨1,3,.opus,2⟩]).vpsUsage "vps1" =
      (recordUnder (kernelOn "vps1") [⟨4,3,.opus,2⟩,⟨8,1,.mini,5⟩]).vpsUsage "vps1" := by
  obtain ⟨htotals,horders⟩ := usage_identities
  refine ⟨?_,(horders (kernelOn "vps1") _ _ (by decide)).2.1 "vps1"⟩
  rw [(htotals _ .mini [(1,.mini),(4,.opus)] (by decide)).2.1]
  decide

end Accountant
end HiveKernel
