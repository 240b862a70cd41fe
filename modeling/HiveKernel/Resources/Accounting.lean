import HiveKernel.Resources.Budget

/-! Usage accounting: every report is recorded and added up per user, node and process. -/
namespace HiveKernel
open Lib

structure UsageRecord where
  pid : ℕ
  user : String
  vps : String
  tier : ModelTier
  tokens : UInt64
  timestamp : ℤ
  deriving DecidableEq, Repr

structure Accountant where
  records : List UsageRecord
  byUser : Table (String × ModelTier) UInt64
  byVPS : Table (String × ModelTier) UInt64
  byPID : Table (ℕ × ModelTier) UInt64

namespace Accountant

def new : Accountant := ⟨[],.empty,.empty,.empty⟩

def addTo {κ : Type} [DecidableEq κ] (m : Table (κ × ModelTier) UInt64) (key : κ) (tier : ModelTier)
    (tokens : UInt64) : Table (κ × ModelTier) UInt64 :=
  m.set (key,tier) ((m.get (key,tier)).getD 0+tokens)

/-- Record a consumption; a process that is gone counts under an unknown user and node. -/
def record (a : Accountant) (r : Registry) (now : ℤ) (pid : ℕ) (tier : ModelTier) (tokens : UInt64) :
    Accountant :=
  let user := ((r.get pid).map Process.user).getD "unknown"
  let vps := ((r.get pid).map Process.vps).getD "unknown"
  { records := a.records ++ [⟨pid,user,vps,tier,tokens,now⟩]
    byUser := addTo a.byUser user tier tokens
    byVPS := addTo a.byVPS vps tier tokens
    byPID := addTo a.byPID pid tier tokens }

/-- Usage by tier and in total. -/
structure UsageSummary where
  totalTokens : UInt64
  byTier : ModelTier → Option UInt64

def summarize (tierMap : ModelTier → Option UInt64) : UsageSummary where
  totalTokens := (tierMap .opus).getD 0+(tierMap .sonnet).getD 0+(tierMap .mini).getD 0
  byTier := tierMap

def userUsage (a : Accountant) (user : String) : UsageSummary := summarize (fun tier => a.byUser.get (user,tier))

def vpsUsage (a : Accountant) (vps : String) : UsageSummary := summarize (fun tier => a.byVPS.get (vps,tier))

def processUsage (a : Accountant) (pid : ℕ) : UsageSummary := summarize (fun tier => a.byPID.get (pid,tier))

/-- What the loop over the table adds for a key. -/
def addUsage (a : Accountant) (total : Table ModelTier UInt64) (key : ℕ × ModelTier) : Table ModelTier UInt64 :=
  match a.byPID.get key with
  | none => total
  | some tokens => total.set key.2 ((total.get key.2).getD 0+tokens)

/-- The sum over all processes, visited in some order. -/
def totalUsage (a : Accountant) (order : List (ℕ × ModelTier)) : UsageSummary :=
  summarize (order.foldl a.addUsage .empty).get

/-- A record raises the total of its process. -/
lemma totalTokens_record (a : Accountant) (r : Registry) (now : ℤ) (pid j : ℕ) (tier : ModelTier)
    (tokens : UInt64) : ((a.record r now pid tier tokens).processUsage j).totalTokens =
      (a.processUsage j).totalTokens+(if j = pid then tokens else 0) := by
  simp only [processUsage,summarize,record,addTo,Table.get_set,Prod.mk.injEq]
  by_cases hj : j = pid
  · subst hj
    cases tier <;> simp <;> ac_rfl
  · simp [hj]

end Accountant
end HiveKernel
