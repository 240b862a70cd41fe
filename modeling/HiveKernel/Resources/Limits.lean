import HiveKernel.Lib.Table
import HiveKernel.Process.Types

/-! The limit on calls per minute. -/
namespace HiveKernel
open Lib

structure RateWindow where
  calls : List ℤ
  maxPerMin : UInt32
  deriving DecidableEq, Repr

structure RateLimiter where
  windows : Table ℕ RateWindow

namespace RateLimiter

def new : RateLimiter := ⟨.empty⟩

def setLimit (rl : RateLimiter) (pid : ℕ) (maxPerMin : UInt32) : RateLimiter :=
  ⟨rl.windows.set pid ⟨[],maxPerMin⟩⟩

/-- Whether a call is allowed. Calls of more than a minute ago are forgotten, and an allowed call is
recorded. -/
def allowAt (rl : RateLimiter) (pid : ℕ) (now : ℤ) : Bool × RateLimiter :=
  match rl.windows.get pid with
  | none => (true,rl)
  | some w =>
    let fresh := w.calls.filter (fun t => now-minute < t)
    if w.maxPerMin ≤ UInt32.ofNat fresh.length then (false,⟨rl.windows.set pid ⟨fresh,w.maxPerMin⟩⟩)
    else (true,⟨rl.windows.set pid ⟨fresh ++ [now],w.maxPerMin⟩⟩)

/-- Clean up after a dead process. -/
def remove (rl : RateLimiter) (pid : ℕ) : RateLimiter := ⟨rl.windows.erase pid⟩

/-- A call opens no window. -/
lemma window_of_allowAt {rl : RateLimiter} {pid j : ℕ} {now : ℤ} (h : rl.windows.get j = none) :
    (rl.allowAt pid now).2.windows.get j = none := by
  unfold allowAt
  cases hw : rl.windows.get pid with
  | none => exact h
  | some w =>
    have hne : j ≠ pid := by
      rintro rfl
      rw [h] at hw
      cases hw
    simp only
    split_ifs
    · exact (Table.get_set_of_ne hne).trans h
    · exact (Table.get_set_of_ne hne).trans h

end RateLimiter
end HiveKernel
