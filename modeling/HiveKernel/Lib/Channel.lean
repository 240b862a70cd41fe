import Mathlib.Data.List.Basic

/-! A buffered channel of Go with sends that do not block. What was sent and what was received are kept
beside the buffer. -/
namespace HiveKernel.Lib

/-- Nothing gets lost or overtaken in a channel. -/
structure Channel (α : Type) where
  capacity : ℕ
  buffer : List α
  sent : List α
  received : List α
  closed : Bool
  sent_eq : sent = received++buffer

/-- How a send that does not block can end. -/
inductive SendOutcome (α : Type)
  | sent (ch : Channel α)
  | full
  | panic

namespace Channel
variable {α : Type} {ch ch' : Channel α} {a : α}

def make (α : Type) (capacity : ℕ) : Channel α := ⟨capacity,[],[],[],false,rfl⟩

/-- Put a value into the buffer. -/
def push (ch : Channel α) (a : α) : Channel α :=
  { ch with
    buffer := ch.buffer++[a]
    sent := ch.sent++[a]
    sent_eq := by rw [ch.sent_eq,List.append_assoc] }

def trySend (ch : Channel α) (a : α) : SendOutcome α :=
  if ch.closed then .panic
  else if ch.buffer.length < ch.capacity then .sent (ch.push a)
  else .full

/-- Take the next value, also from a closed channel; without one a receive blocks or gets no value. -/
def receive (ch : Channel α) : Option (Channel α) :=
  match h : ch.buffer with
  | [] => none
  | a::rest => some
    { ch with
      buffer := rest
      received := ch.received++[a]
      sent_eq := by rw [ch.sent_eq,h,List.append_assoc]; rfl }

def close (ch : Channel α) : Channel α := { ch with closed := true }

@[simp] theorem sent_push : (ch.push a).sent = ch.sent++[a] := rfl

theorem trySend_sent (h : ch.trySend a = .sent ch') : ch.closed = false ∧ ch' = ch.push a := by
  unfold trySend at h
  split_ifs at h with hclosed
  cases h
  exact ⟨by simpa using hclosed,rfl⟩

theorem trySend_panic_iff : ch.trySend a = .panic ↔ ch.closed = true := by
  unfold trySend
  split_ifs <;> simp_all

theorem receive_some (h : ch.receive = some ch') :
    ch'.sent = ch.sent ∧ ch'.closed = ch.closed ∧ ch.buffer.length = ch'.buffer.length+1 := by
  unfold receive at h
  split at h
  next => cases h
  next a rest hbuffer =>
    cases h
    exact ⟨rfl,rfl,congrArg List.length hbuffer⟩

theorem receive_isSome (h : ch.buffer ≠ []) : ∃ ch', ch.receive = some ch' := by
  unfold receive
  split
  next hnil => exact absurd hnil h
  next => exact ⟨_,rfl⟩

theorem received_eq_sent (h : ch.buffer = []) : ch.received = ch.sent := by
  rw [ch.sent_eq,h,List.append_nil]

end Channel
end HiveKernel.Lib
