import HiveKernel.Lib.Run
import HiveKernel.Lib.Table

/-! Programs that share a state and give up control only where they wait for an answer. What holds when a program is
over is shown by weakest preconditions: between two waits a program has the state to itself, and across a wait only an
invariant of the state is known. A note is kept of the requests and answers of each program. -/
namespace HiveKernel.Lib

inductive Coro (σ Req : Type) (Res : Req → Type) (α : Type) : Type
  | done (a : α)
  | get (next : σ → Coro σ Req Res α)
  | put (s : σ) (next : Coro σ Req Res α)
  | await (q : Req) (next : Res q → Coro σ Req Res α)
  /-- The program goes on for longer than it is modelled. -/
  | stuck

/-- A request with its answer. -/
abbrev Interaction (Req : Type) (Res : Req → Type) : Type := (q : Req) × Res q

namespace Coro
variable {σ Req μ ε α β : Type} {Res : Req → Type}

def bind : Coro σ Req Res α → (α → Coro σ Req Res β) → Coro σ Req Res β
  | done a,f => f a
  | get next,f => get (fun s => (next s).bind f)
  | put s next,f => put s (next.bind f)
  | await q next,f => await q (fun r => (next r).bind f)
  | stuck,_ => stuck

instance : Monad (Coro σ Req Res) where
  pure := done
  bind := bind

/-- Every way the program can go from this state and these notes ends as `post` says. -/
def wp (inv : σ → Prop) (note : μ → Interaction Req Res → μ) :
    Coro σ Req Res α → (α → σ → μ → Prop) → σ → μ → Prop
  | done a,post,s,m => post a s m
  | get next,post,s,m => wp inv note (next s) post s m
  | put s next,post,_,m => wp inv note next post s m
  | await q next,post,s,m => inv s ∧ ∀ r s', inv s' → wp inv note (next r) post s' (note m ⟨q,r⟩)
  | stuck,_,_,_ => True

variable {inv : σ → Prop} {note : μ → Interaction Req Res → μ}

theorem wp_mono {c : Coro σ Req Res α} {post post' : α → σ → μ → Prop} (himp : ∀ a s m, post a s m → post' a s m)
    {s : σ} {m : μ} (h : c.wp inv note post s m) : c.wp inv note post' s m := by
  induction c generalizing s m with
  | done a => exact himp a s m h
  | get next ih => exact ih s h
  | put s' next ih => exact ih h
  | await q next ih => exact ⟨h.1,fun r s' hs' => ih r (h.2 r s' hs')⟩
  | stuck => exact trivial

/-- What always holds, holds at the end. -/
theorem wp_of_forall (c : Coro σ Req Res α) {post : α → σ → μ → Prop} (hinv : ∀ s, inv s)
    (hpost : ∀ a s m, post a s m) (s : σ) (m : μ) : c.wp inv note post s m := by
  induction c generalizing s m with
  | done a => exact hpost a s m
  | get next ih => exact ih s s m
  | put s' next ih => exact ih s' m
  | await q next ih => exact ⟨hinv s,fun r s' _ => ih r s' _⟩
  | stuck => exact trivial

theorem wp_bind (c : Coro σ Req Res α) (f : α → Coro σ Req Res β) (post : β → σ → μ → Prop) (s : σ) (m : μ) :
    (c.bind f).wp inv note post s m ↔ c.wp inv note (fun a => (f a).wp inv note post) s m := by
  induction c generalizing s m with
  | done a => exact .rfl
  | get next ih => exact ih s s m
  | put s' next ih => exact ih s' m
  | await q next ih =>
    exact and_congr_right (fun _ => forall_congr' (fun r => forall_congr' (fun s' => imp_congr_right (fun _ =>
      ih r s' _))))
  | stuck => exact .rfl

/-- The same for a program that may raise. -/
def wpE (inv : σ → Prop) (note : μ → Interaction Req Res → μ) (c : ExceptT ε (Coro σ Req Res) α)
    (post : α → σ → μ → Prop) (raised : ε → σ → μ → Prop) : σ → μ → Prop :=
  wp inv note c.run (fun result s m => match result with
    | .ok a => post a s m
    | .error e => raised e s m)

variable {post : α → σ → μ → Prop} {raised : ε → σ → μ → Prop} {s : σ} {m : μ}

theorem wpE_mono {c : ExceptT ε (Coro σ Req Res) α} {post' : α → σ → μ → Prop} {raised' : ε → σ → μ → Prop}
    (hpost : ∀ a s m, post a s m → post' a s m) (hraised : ∀ e s m, raised e s m → raised' e s m)
    (h : wpE inv note c post raised s m) : wpE inv note c post' raised' s m := by
  refine wp_mono (fun result s m hresult => ?_) h
  cases result with
  | ok a => exact hpost a s m hresult
  | error e => exact hraised e s m hresult

@[simp] theorem wpE_pure (a : α) :
    wpE inv note (pure a : ExceptT ε (Coro σ Req Res) α) post raised s m ↔ post a s m := .rfl

@[simp] theorem wpE_throw (e : ε) :
    wpE inv note (throw e : ExceptT ε (Coro σ Req Res) α) post raised s m ↔ raised e s m := .rfl

@[simp] theorem wpE_bind (c : ExceptT ε (Coro σ Req Res) α) (f : α → ExceptT ε (Coro σ Req Res) β)
    (post : β → σ → μ → Prop) :
    wpE inv note (c >>= f) post raised s m ↔ wpE inv note c (fun a => wpE inv note (f a) post raised) raised s m := by
  refine (wp_bind c.run _ _ s m).trans ⟨wp_mono ?_,wp_mono ?_⟩
  · intro result s m h
    cases result with
    | ok a => exact h
    | error e => exact h
  · intro result s m h
    cases result with
    | ok a => exact h
    | error e => exact h

/-- Read the state. -/
def read : ExceptT ε (Coro σ Req Res) σ := ExceptT.mk (get (fun s => done (.ok s)))

/-- Write the state. -/
def write (s : σ) : ExceptT ε (Coro σ Req Res) Unit := ExceptT.mk (put s (done (.ok ())))

/-- Wait for an answer, which may be an exception. -/
def ask (q : Req) (raise : Res q → Except ε α) : ExceptT ε (Coro σ Req Res) α :=
  ExceptT.mk (await q (fun r => done (raise r)))

/-- Go on in another way after an exception of the kind that `handle` takes. -/
def attempt (c : ExceptT ε (Coro σ Req Res) α) (handle : ε → Option (ExceptT ε (Coro σ Req Res) α)) :
    ExceptT ε (Coro σ Req Res) α :=
  ExceptT.mk (c.run.bind fun result => match result with
    | .ok a => done (.ok a)
    | .error e => match handle e with
      | some h => h.run
      | none => done (.error e))

@[simp] theorem wpE_read (post : σ → σ → μ → Prop) :
    wpE inv note (read : ExceptT ε (Coro σ Req Res) σ) post raised s m ↔ post s s m := .rfl

@[simp] theorem wpE_write (s' : σ) (post : Unit → σ → μ → Prop) :
    wpE inv note (write s' : ExceptT ε (Coro σ Req Res) Unit) post raised s m ↔ post () s' m := .rfl

theorem wpE_ask (q : Req) (raise : Res q → Except ε α) :
    wpE inv note (ask q raise) post raised s m ↔ inv s ∧ ∀ r s', inv s' → match raise r with
      | .ok a => post a s' (note m ⟨q,r⟩)
      | .error e => raised e s' (note m ⟨q,r⟩) := .rfl

@[simp] theorem wpE_attempt (c : ExceptT ε (Coro σ Req Res) α) (handle : ε → Option (ExceptT ε (Coro σ Req Res) α)) :
    wpE inv note (attempt c handle) post raised s m ↔ wpE inv note c post (fun e s m => match handle e with
      | some h => wpE inv note h post raised s m
      | none => raised e s m) s m := by
  refine (wp_bind c.run _ _ s m).trans ⟨wp_mono ?_,wp_mono ?_⟩
  · intro result s m h
    cases result with
    | ok a => exact h
    | error e =>
      dsimp only at h ⊢
      split at h
      · exact h
      · exact h
  · intro result s m h
    cases result with
    | ok a => exact h
    | error e =>
      dsimp only at h ⊢
      split
      next handler hhandle =>
        rw [hhandle] at h
        exact h
      next hhandle =>
        rw [hhandle] at h
        exact h

/-- A program at the end of its turn. -/
inductive Turn (σ Req : Type) (Res : Req → Type) (α : Type) : Type
  | ended (a : α)
  | waiting (q : Req) (next : Res q → Coro σ Req Res α)

/-- A turn of a program, if it comes to an end. -/
def advance : Coro σ Req Res α → σ → Option (σ × Turn σ Req Res α)
  | done a,s => some (s,.ended a)
  | get next,s => (next s).advance s
  | put s next,_ => next.advance s
  | await q next,s => some (s,.waiting q next)
  | stuck,_ => none

theorem advance_cases {c : Coro σ Req Res α} {post : α → σ → μ → Prop} {s s' : σ} {m : μ} {turn : Turn σ Req Res α}
    (h : c.wp inv note post s m) (hc : c.advance s = some (s',turn)) :
    (∃ a, turn = .ended a ∧ post a s' m) ∨ ∃ q next, turn = .waiting q next ∧ inv s' ∧
      ∀ r s'', inv s'' → (next r).wp inv note post s'' (note m ⟨q,r⟩) := by
  induction c generalizing s with
  | done a =>
    cases hc
    exact .inl ⟨a,rfl,h⟩
  | get next ih => exact ih s h hc
  | put s' next ih => exact ih h hc
  | await q next =>
    cases hc
    exact .inr ⟨q,next,rfl,h.1,h.2⟩
  | stuck => cases hc

end Coro

/-- Programs that are waiting or over, with the interactions of each so far. -/
structure Pool (σ Req : Type) (Res : Req → Type) (α : Type) where
  shared : σ
  turns : Table ℕ (Coro.Turn σ Req Res α) := .empty
  past : Table ℕ (List (Interaction Req Res)) := .empty

inductive PoolOp (σ Req : Type) (Res : Req → Type) (α : Type)
  | start (i : ℕ) (program : Coro σ Req Res α)
  | answer (i : ℕ) (answers : (q : Req) → Res q)

namespace Pool
variable {σ Req μ α : Type} {Res : Req → Type}

/-- The turn of a program, which has had these interactions. -/
def turn (p : Pool σ Req Res α) (i : ℕ) (past : List (Interaction Req Res)) (program : Coro σ Req Res α) :
    Option (Pool σ Req Res α) :=
  (program.advance p.shared).map fun next =>
    { shared := next.1,turns := p.turns.set i next.2,past := p.past.set i past }

def step (p : Pool σ Req Res α) : PoolOp σ Req Res α → Option (Pool σ Req Res α)
  | .start i program => match p.turns.get i with
    | some _ => none
    | none => p.turn i [] program
  | .answer i answers => match p.turns.get i with
    | some (.waiting q next) => p.turn i ((p.past.get i).getD []++[⟨q,answers q⟩]) (next (answers q))
    | _ => none

/-- What is noted of the interactions of a program. -/
def noted (note : μ → Interaction Req Res → μ) (m₀ : μ) (p : Pool σ Req Res α) (i : ℕ) : μ :=
  ((p.past.get i).getD []).foldl note m₀

/-- The programs keep to what was shown of them. -/
structure Kept (inv : σ → Prop) (note : μ → Interaction Req Res → μ) (m₀ : μ) (post : ℕ → α → μ → Prop)
    (p : Pool σ Req Res α) : Prop where
  shared : inv p.shared
  ended : ∀ i a, p.turns.get i = some (.ended a) → post i a (p.noted note m₀ i)
  waiting : ∀ i q next, p.turns.get i = some (.waiting q next) → ∀ r s, inv s →
    (next r).wp inv note (fun a s m => inv s ∧ post i a m) s (note (p.noted note m₀ i) ⟨q,r⟩)

variable {inv : σ → Prop} {note : μ → Interaction Req Res → μ} {m₀ : μ} {post : ℕ → α → μ → Prop}
  {p p' : Pool σ Req Res α}

theorem Kept.turn (h : p.Kept inv note m₀ post) {i : ℕ} {past : List (Interaction Req Res)} {program : Coro σ Req Res α}
    (hs : p.turn i past program = some p')
    (hprogram : program.wp inv note (fun a s m => inv s ∧ post i a m) p.shared (past.foldl note m₀)) :
    p'.Kept inv note m₀ post := by
  obtain ⟨⟨s,turn⟩,hturn,rfl⟩ := Option.map_eq_some_iff.mp hs
  have hself : Pool.noted note m₀ ⟨s,p.turns.set i turn,p.past.set i past⟩ i = past.foldl note m₀ := by
    simp only [noted,Table.get_set_self,Option.getD_some]
  have hother : ∀ j, j ≠ i → Pool.noted note m₀ ⟨s,p.turns.set i turn,p.past.set i past⟩ j = p.noted note m₀ j := by
    intro j hj
    simp only [noted,Table.get_set_of_ne hj]
  have hcases := Coro.advance_cases hprogram hturn
  refine ⟨?_,fun j a hj => ?_,fun j q next hj r s' hs' => ?_⟩
  · rcases hcases with ⟨a,-,hinv,-⟩ | ⟨q,next,-,hinv,-⟩
    · exact hinv
    · exact hinv
  · rcases Table.get_set_some hj with ⟨rfl,hover⟩ | ⟨hne,hj⟩
    · rw [hself]
      rcases hcases with ⟨b,rfl,-,hpost⟩ | ⟨q,next,rfl,-⟩
      · cases hover
        exact hpost
      · cases hover
    · rw [hother j hne]
      exact h.ended j a hj
  · rcases Table.get_set_some hj with ⟨rfl,hwaiting⟩ | ⟨hne,hj⟩
    · rw [hself]
      rcases hcases with ⟨b,rfl,-⟩ | ⟨q',next',rfl,-,hnext⟩
      · cases hwaiting
      · cases hwaiting
        exact hnext r s' hs'
    · rw [hother j hne]
      exact h.waiting j q next hj r s' hs'

/-- Whatever the order of turns and whatever the answers, what was shown of each program alone holds of it in the
pool. -/
theorem kept_of_run {s₀ : σ} {trace : List (Transition (Pool σ Req Res α) (PoolOp σ Req Res α))}
    (run : Run step { shared := s₀ } trace p) (h₀ : inv s₀)
    (hprograms : ∀ e ∈ trace, ∀ i program, e.label = .start i program → ∀ s, inv s →
      program.wp inv note (fun a s m => inv s ∧ post i a m) s m₀) : p.Kept inv note m₀ post := by
  have hstep : ∀ p op p', Kept inv note m₀ post p → (∀ i program, op = .start i program → ∀ s, inv s →
      program.wp inv note (fun a s m => inv s ∧ post i a m) s m₀) → step p op = some p' → Kept inv note m₀ post p' := by
    intro p op p' h hop hs
    cases op with
    | start i program =>
      simp only [step] at hs
      split at hs
      · cases hs
      · exact h.turn hs (hop i program rfl p.shared h.shared)
    | answer i answers =>
      simp only [step] at hs
      split at hs
      next q next hwaiting =>
        refine h.turn hs ?_
        rw [List.foldl_append]
        exact h.waiting i q next hwaiting (answers q) p.shared h.shared
      next => cases hs
  exact (run.invariant_of_allowed hstep ⟨h₀,(fun i a hi => by cases hi),(fun i q next hi => by cases hi)⟩ hprograms).2

theorem isSome_step {op : PoolOp σ Req Res α} {i : ℕ} (hs : p.step op = some p') (hi : (p.turns.get i).isSome) :
    (p'.turns.get i).isSome := by
  have hturn : ∀ j past program, p.turn j past program = some p' → (p'.turns.get i).isSome := by
    intro j past program hs
    obtain ⟨⟨s,turn⟩,-,rfl⟩ := Option.map_eq_some_iff.mp hs
    rcases eq_or_ne i j with rfl | hij
    · simp only [Table.get_set_self,Option.isSome_some]
    · simpa only [Table.get_set_of_ne hij] using hi
  cases op with
  | start j program =>
    simp only [step] at hs
    split at hs
    · cases hs
    · exact hturn j _ _ hs
  | answer j answers =>
    simp only [step] at hs
    split at hs
    · exact hturn j _ _ hs
    · cases hs

theorem not_started_again {trace : List (Transition (Pool σ Req Res α) (PoolOp σ Req Res α))} {i : ℕ}
    (run : Run step p trace p') (hi : (p.turns.get i).isSome) {e : Transition _ _} (he : e ∈ trace)
    (program : Coro σ Req Res α) : e.label ≠ .start i program := by
  induction run with
  | nil => cases he
  | cons first rest ih =>
    rcases List.mem_cons.mp he with rfl | he
    · rintro rfl
      obtain ⟨turn,hturn⟩ := Option.isSome_iff_exists.mp hi
      simp only [step,hturn] at first
      cases first
    · exact ih (isSome_step first hi) he

theorem isSome_start {i : ℕ} {program : Coro σ Req Res α} (hs : p.step (.start i program) = some p') :
    (p'.turns.get i).isSome := by
  simp only [step] at hs
  split at hs
  · cases hs
  · obtain ⟨⟨s,turn⟩,-,rfl⟩ := Option.map_eq_some_iff.mp hs
    simp only [Table.get_set_self,Option.isSome_some]

theorem started_once {trace : List (Transition (Pool σ Req Res α) (PoolOp σ Req Res α))} {i : ℕ}
    (run : Run step p trace p') {e e' : Transition _ _} (he : e ∈ trace) (he' : e' ∈ trace)
    {program program' : Coro σ Req Res α} (h : e.label = .start i program) (h' : e'.label = .start i program') :
    program = program' := by
  induction run with
  | nil => cases he
  | cons first rest ih =>
    rcases List.mem_cons.mp he with rfl | hlater
    · rcases List.mem_cons.mp he' with rfl | hlater'
      · cases h.symm.trans h'
        rfl
      · cases h
        exact absurd h' (not_started_again rest (isSome_start first) hlater' program')
    · rcases List.mem_cons.mp he' with rfl | hlater'
      · cases h'
        exact absurd h (not_started_again rest (isSome_start first) hlater program)
      · exact ih hlater hlater'

/-- What was shown of one program holds when it is over, whatever the others are, as long as they keep the
invariant. -/
theorem ended_of_run {s₀ : σ} {trace : List (Transition (Pool σ Req Res α) (PoolOp σ Req Res α))}
    (run : Run step { shared := s₀ } trace p) (h₀ : inv s₀)
    (hothers : ∀ e ∈ trace, ∀ j program, e.label = .start j program → ∀ s, inv s →
      program.wp inv note (fun _ s _ => inv s) s m₀)
    {e : Transition _ _} (he : e ∈ trace) {i : ℕ} {program : Coro σ Req Res α} (hstart : e.label = .start i program)
    {post : α → μ → Prop}
    (hprogram : ∀ s, inv s → program.wp inv note (fun a s m => inv s ∧ post a m) s m₀) {a : α}
    (hover : p.turns.get i = some (.ended a)) : post a (p.noted note m₀ i) := by
  have hkept : p.Kept inv note m₀ (fun j a m => j = i → post a m) := by
    refine kept_of_run run h₀ (fun e' he' j program' hstart' s hs => ?_)
    rcases eq_or_ne j i with rfl | hij
    · cases started_once run he' he hstart' hstart
      exact Coro.wp_mono (fun a s m h => ⟨h.1,fun _ => h.2⟩) (hprogram s hs)
    · exact Coro.wp_mono (fun a s m h => ⟨h,fun hji => absurd hji hij⟩) (hothers e' he' j program' hstart' s hs)
  exact hkept.ended i a hover rfl

end Pool
end HiveKernel.Lib
