import HiveKernel.Process.Registry

/-! Signal delivery. The kernel installs no signal handlers, so what a signal does is the state
it writes; `SIGCHLD`, `SIGHUP` and unknown numbers write none. -/
namespace HiveKernel

inductive Signal
  | sigterm | sigkill | sigchld | sigstop | sigcont | sighup
  | unknown (code : ℤ)
  deriving DecidableEq, Repr

/-- The state a signal puts its process into. -/
def Signal.state : Signal → Option ProcessState
  | sigkill => some .dead
  | sigterm => some .blocked
  | sigstop => some .sleeping
  | sigcont => some .running
  | sigchld => none
  | sighup => none
  | unknown _ => none

namespace Registry

/-- Deliver a signal. An unknown PID changes nothing; the source also returns an error. -/
def send (r : Registry) (now : ℤ) (pid : ℕ) (sig : Signal) : Registry :=
  match r.get pid with
  | none => r
  | some _ => match sig.state with
    | none => r
    | some state => r.setState now pid state

/-- Tell the parent of an exited process, with `SIGCHLD`. -/
def notifyParent (r : Registry) (now : ℤ) (exited : ℕ) : Registry :=
  match r.get exited with
  | none => r
  | some p => if p.ppid = 0 then r else r.send now p.ppid .sigchld

lemma send_of_state_none (r : Registry) (now : ℤ) (pid : ℕ) {sig : Signal} (h : sig.state = none) :
    r.send now pid sig = r := by
  unfold send
  cases r.get pid <;> simp [h]

lemma get_send_of_state (r : Registry) (now : ℤ) (pid : ℕ) {sig : Signal} {state : ProcessState}
    (h : sig.state = some state) (k : ℕ) :
    (r.send now pid sig).get k = (r.setState now pid state).get k := by
  unfold send
  cases hp : r.get pid with
  | none =>
    rw [get_setState]
    split_ifs with hk
    · subst hk; simp [hp]
    · rfl
  | some p => simp [h]

@[simp] lemma nextPID_send (r : Registry) (now : ℤ) (pid : ℕ) (sig : Signal) :
    (r.send now pid sig).nextPID = r.nextPID := by
  unfold send
  split
  · rfl
  · split
    · rfl
    · exact nextPID_setState _ _ _ _

@[simp] lemma notifyParent_eq (r : Registry) (now : ℤ) (exited : ℕ) :
    r.notifyParent now exited = r := by
  unfold notifyParent
  cases r.get exited with
  | none => rfl
  | some p => simp [send_of_state_none r now p.ppid (show Signal.state .sigchld = none from rfl)]

end Registry
end HiveKernel
