import HiveKernel.Lib.Table

/-! A store with one slot per key whose values are taken out by the first who asks. To say that
nothing is taken twice, a deposit gets a ticket, and the tickets of what was taken are recorded. -/
namespace HiveKernel.Lib
variable {κ α : Type}

structure TicketStore (κ α : Type) where
  slots : Table κ (α × Option ℕ)
  count : ℕ
  taken : List ℕ

namespace TicketStore

def empty : TicketStore κ α := ⟨.empty,0,[]⟩

variable [DecidableEq κ]

/-- The slot holds a deposit. -/
def Holds (m : TicketStore κ α) (k : κ) : Prop := ∃ v n, m.slots.get k = some (v,some n)

/-- Put a value into its slot, over whatever is there. -/
def deposit (m : TicketStore κ α) (k : κ) (v : α) : TicketStore κ α :=
  ⟨m.slots.set k (v,some m.count),m.count+1,m.taken⟩

/-- The same for a filler, which gets no ticket. -/
def fill (m : TicketStore κ α) (k : κ) (v : α) : TicketStore κ α :=
  { m with slots := m.slots.set k (v,none) }

def take (m : TicketStore κ α) (k : κ) : TicketStore κ α :=
  { m with
    slots := m.slots.erase k
    taken := m.taken ++ ((m.slots.get k).bind Prod.snd).toList }

/-- Tickets are given out once and taken once, and never lie in a slot after that. -/
structure Sound (m : TicketStore κ α) : Prop where
  taken : m.taken.Nodup
  taken_lt : ∀ n ∈ m.taken, n < m.count
  slot_lt : ∀ k v n, m.slots.get k = some (v,some n) → n < m.count
  slot_fresh : ∀ k v n, m.slots.get k = some (v,some n) → n ∉ m.taken
  slot_eq : ∀ k j v w n, m.slots.get k = some (v,some n) → m.slots.get j = some (w,some n) → k = j

theorem sound_empty : (empty : TicketStore κ α).Sound := by
  constructor <;> simp [empty]

theorem Sound.deposit {m : TicketStore κ α} (h : m.Sound) (k : κ) (v : α) : (m.deposit k v).Sound := by
  have hslot : ∀ j w n, (m.deposit k v).slots.get j = some (w,some n) →
      (j = k ∧ n = m.count) ∨ (n < m.count ∧ m.slots.get j = some (w,some n)) := by
    intro j w n hj
    rcases Table.get_set_some hj with ⟨hjk,heq⟩ | ⟨-,hj⟩
    · cases heq
      exact .inl ⟨hjk,rfl⟩
    · exact .inr ⟨h.slot_lt j w n hj,hj⟩
  refine ⟨h.taken,fun n hn => (h.taken_lt n hn).trans (Nat.lt_succ_self _),fun j w n hj => ?_,
    fun j w n hj hn => ?_,fun j l w x n hj hl => ?_⟩
  · rcases hslot j w n hj with ⟨-,rfl⟩ | ⟨hlt,-⟩
    · exact Nat.lt_succ_self _
    · exact hlt.trans (Nat.lt_succ_self _)
  · rcases hslot j w n hj with ⟨-,rfl⟩ | ⟨-,hj⟩
    · exact Nat.lt_irrefl _ (h.taken_lt _ hn)
    · exact h.slot_fresh j w n hj hn
  · rcases hslot j w n hj with ⟨hjk,hn⟩ | ⟨hlt,hj⟩
    · rcases hslot l x n hl with ⟨hlk,-⟩ | ⟨hlt,-⟩
      · exact hjk.trans hlk.symm
      · omega
    · rcases hslot l x n hl with ⟨-,hn⟩ | ⟨-,hl⟩
      · omega
      · exact h.slot_eq j l w x n hj hl

theorem Sound.fill {m : TicketStore κ α} (h : m.Sound) (k : κ) (v : α) : (m.fill k v).Sound := by
  have hslot : ∀ j w n, (m.fill k v).slots.get j = some (w,some n) → m.slots.get j = some (w,some n) := by
    intro j w n hj
    rcases Table.get_set_some hj with ⟨-,heq⟩ | ⟨-,hj⟩
    · cases heq
    · exact hj
  exact ⟨h.taken,h.taken_lt,fun j w n hj => h.slot_lt j w n (hslot j w n hj),
    fun j w n hj => h.slot_fresh j w n (hslot j w n hj),
    fun j l w x n hj hl => h.slot_eq j l w x n (hslot j w n hj) (hslot l x n hl)⟩

theorem Sound.take {m : TicketStore κ α} (h : m.Sound) (k : κ) : (m.take k).Sound := by
  have hslot : ∀ j w n, (m.take k).slots.get j = some (w,some n) →
      j ≠ k ∧ m.slots.get j = some (w,some n) := fun j w n hj => Table.get_erase_some hj
  have hnew : ∀ n ∈ ((m.slots.get k).bind Prod.snd).toList, ∃ v, m.slots.get k = some (v,some n) := by
    intro n hn
    obtain ⟨⟨v,o⟩,hv,ho⟩ := Option.bind_eq_some_iff.mp (Option.mem_toList.mp hn)
    exact ⟨v,by rw [hv]; exact congrArg (fun o => some (v,o)) ho⟩
  refine ⟨?_,fun n hn => ?_,fun j w n hj => h.slot_lt j w n (hslot j w n hj).2,fun j w n hj hn => ?_,
    fun j l w x n hj hl => h.slot_eq j l w x n (hslot j w n hj).2 (hslot l x n hl).2⟩
  · refine h.taken.append (by cases (m.slots.get k).bind Prod.snd <;> simp) (fun n hn hn' => ?_)
    obtain ⟨v,hv⟩ := hnew n hn'
    exact h.slot_fresh k v n hv hn
  · rcases List.mem_append.mp hn with hn | hn
    · exact h.taken_lt n hn
    · obtain ⟨v,hv⟩ := hnew n hn
      exact h.slot_lt k v n hv
  · obtain ⟨hne,hj⟩ := hslot j w n hj
    rcases List.mem_append.mp hn with hn | hn
    · exact h.slot_fresh j w n hj hn
    · obtain ⟨v,hv⟩ := hnew n hn
      exact hne (h.slot_eq j k w v n hj hv)

end TicketStore
end HiveKernel.Lib
