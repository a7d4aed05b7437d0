import Mathlib.Order.Defs.Unbundled
import StepGraph.Attempt

/-!
What a program does from a given state: its result and the state that it leaves, a fault included.
`Keeps` is what every execution of a program does to its state, whatever the result; it is closed
under the ways in which programs are put together.
-/
namespace StepGraph.Attempt

variable {σ α β ι : Type}

/-- The result of a program from a state, with the state that it leaves. -/
def exec (p : Attempt σ α) (s : σ) : Except Fault α × σ := ExceptT.run p s

@[simp] theorem exec_pure (x : α) (s : σ) : (pure x : Attempt σ α).exec s = (.ok x, s) := rfl
@[simp] theorem exec_throw (f : Fault) (s : σ) : (throw f : Attempt σ α).exec s = (.error f, s) :=
  rfl
@[simp] theorem exec_of (r : Except Fault α) (s : σ) : (of r : Attempt σ α).exec s = (r, s) := rfl
@[simp] theorem exec_get (s : σ) : (get : Attempt σ σ).exec s = (.ok s, s) := rfl
@[simp] theorem exec_set (s s' : σ) : (set s' : Attempt σ PUnit).exec s = (.ok ⟨⟩, s') := rfl
@[simp] theorem exec_modify (f : σ → σ) (s : σ) :
    (modify f : Attempt σ PUnit).exec s = (.ok ⟨⟩, f s) := rfl
@[simp] theorem exec_mk (f : σ → Except Fault α × σ) (s : σ) :
    Attempt.exec (ExceptT.mk f : Attempt σ α) s = f s := rfl

theorem exec_retry (again : Fault → Bool) (body : Attempt σ α) (more : Nat) (s : σ) :
    (Attempt.retry again body (more + 1)).exec s =
      match body.exec s with
      | (.ok x, s') => (.ok x, s')
      | (.error f, s') =>
        if again f then (Attempt.retry again body more).exec s' else (.error f, s') := by
  rw [Attempt.retry.eq_2, exec_mk]
  rcases hb : body.exec s with ⟨f | x, s'⟩ <;> change ExceptT.run body s = _ at hb <;> rw [hb]
  rfl

theorem exec_caught (p : Attempt σ α) (s : σ) :
    (caught p).exec s = (.ok (p.exec s).1, (p.exec s).2) := rfl

theorem exec_bind (p : Attempt σ α) (f : α → Attempt σ β) (s : σ) :
    (p >>= f).exec s =
      match p.exec s with
      | (.ok x, s') => (f x).exec s'
      | (.error e, s') => (.error e, s') := by
  change ExceptT.bindCont f (p.exec s).1 (p.exec s).2 = _
  rcases p.exec s with ⟨_ | _, _⟩ <;> rfl

theorem exec_bind_ok {p : Attempt σ α} {s s' : σ} {x : α} (h : p.exec s = (.ok x, s'))
    (f : α → Attempt σ β) : (p >>= f).exec s = (f x).exec s' := by rw [exec_bind, h]

theorem exec_bind_error {p : Attempt σ α} {s s' : σ} {e : Fault} (h : p.exec s = (.error e, s'))
    (f : α → Attempt σ β) : (p >>= f).exec s = (.error e, s') := by rw [exec_bind, h]

theorem exec_map (p : Attempt σ α) (f : α → β) (s : σ) :
    (f <$> p).exec s = ((p.exec s).1.map f, (p.exec s).2) := by
  rw [map_eq_pure_bind, exec_bind]
  rcases p.exec s with ⟨_ | _, _⟩ <;> rfl

theorem exec_discard (p : Attempt σ α) (s : σ) :
    (discard p : Attempt σ PUnit).exec s = ((p.exec s).1.map fun _ => ⟨⟩,(p.exec s).2) :=
  exec_map p _ s

theorem eq_error_of_map {r : Except Fault α} {f : α → β} {e : Fault} (h : r.map f = .error e) :
    r = .error e := by
  cases r with
  | error e' =>
    cases h
    rfl
  | ok x => cases h

theorem eq_ok_of_toOption {ε : Type} {r : Except ε α} {x : α} (h : r.toOption = some x) :
    r = .ok x := by
  cases r with
  | error e => cases h
  | ok y => exact congrArg Except.ok (Option.some.inj h)

theorem eq_ok_of_bind {r : Except Fault α} {f : α → Except Fault β} {y : β}
    (h : r >>= f = .ok y) : ∃ x, r = .ok x ∧ f x = .ok y := by
  cases r with
  | error e => cases h
  | ok x => exact ⟨x, rfl, h⟩

theorem bind_ok_iff {r : Except Fault α} {f : α → Except Fault β} {P : Prop}
    (hf : ∀ x, (∃ y, f x = .ok y) ↔ P) :
    (∃ y, r >>= f = .ok y) ↔ (∃ x, r = .ok x) ∧ P := by
  constructor
  · rintro ⟨y,hy⟩
    obtain ⟨x,hx,hy⟩ := eq_ok_of_bind hy
    exact ⟨⟨x,hx⟩,(hf x).1 ⟨y,hy⟩⟩
  · rintro ⟨⟨x,rfl⟩,hP⟩
    exact (hf x).2 hP

theorem map_ok_iff {r : Except Fault α} {g : α → β} :
    (∃ y, (r >>= fun x => pure (g x)) = .ok y) ↔ ∃ x, r = .ok x :=
  (bind_ok_iff fun x => iff_true_intro ⟨g x,rfl⟩).trans (iff_of_eq (and_true _))

theorem both_ok_iff {γ : Type} {r : Except Fault α} {r' : Except Fault β} {g : α → β → γ} :
    (∃ y, (r >>= fun x => r' >>= fun x' => pure (g x x')) = .ok y) ↔
      (∃ x, r = .ok x) ∧ ∃ x', r' = .ok x' :=
  bind_ok_iff fun _ => map_ok_iff

theorem mapM_ok_iff {f : α → Except Fault β} {xs : List α} :
    (∃ ys, xs.mapM f = .ok ys) ↔ ∀ x ∈ xs, ∃ y, f x = .ok y := by
  induction xs with
  | nil => exact ⟨fun _ => by simp,fun _ => ⟨[],rfl⟩⟩
  | cons x xs ih => rw [List.mapM_cons,both_ok_iff,ih,List.forall_mem_cons]

theorem exists_of_mapM_error {f : α → Except Fault β} {xs : List α} {e : Fault}
    (h : xs.mapM f = .error e) : ∃ x ∈ xs, f x = .error e := by
  induction xs with
  | nil => cases h
  | cons x xs ih =>
    rw [List.mapM_cons] at h
    cases hx : f x with
    | error e' =>
      rw [hx] at h
      cases h
      exact ⟨x,List.mem_cons_self,hx⟩
    | ok y =>
      rw [hx] at h
      have hrest : xs.mapM f = .error e := by
        cases hxs : xs.mapM f with
        | error e' =>
          rw [hxs] at h
          exact h
        | ok ys =>
          rw [hxs] at h
          cases h
      obtain ⟨x',hx',he⟩ := ih hrest
      exact ⟨x',List.mem_cons_of_mem x hx',he⟩

theorem of_foldlM {ι : Type} {P : β → Prop} {f : β → ι → Except Fault β} {is : List ι}
    (hf : ∀ x y, ∀ i ∈ is, f x i = .ok y → P x → P y) {x y : β} (hx : P x)
    (h : is.foldlM f x = .ok y) : P y := by
  induction is generalizing x with
  | nil =>
    cases h
    exact hx
  | cons i is ih =>
    rw [List.foldlM_cons] at h
    obtain ⟨z,hz,h⟩ := eq_ok_of_bind h
    exact ih (fun x y j hj => hf x y j (List.mem_cons_of_mem i hj))
      (hf x z i List.mem_cons_self hz hx) h

theorem exec_bind_eq_ok {p : Attempt σ α} {f : α → Attempt σ β} {s s' : σ} {y : β}
    (h : (p >>= f).exec s = (.ok y, s')) :
    ∃ x s₁, p.exec s = (.ok x, s₁) ∧ (f x).exec s₁ = (.ok y, s') := by
  rw [exec_bind] at h
  rcases hp : p.exec s with ⟨e | x, s₁⟩ <;> rw [hp] at h
  · cases h
  · exact ⟨x, s₁, rfl, h⟩

theorem exec_bind_eq_error {p : Attempt σ α} {f : α → Attempt σ β} {s s' : σ} {e : Fault}
    (h : (p >>= f).exec s = (.error e, s')) :
    p.exec s = (.error e, s') ∨ ∃ x s₁, p.exec s = (.ok x, s₁) ∧ (f x).exec s₁ = (.error e, s') := by
  rw [exec_bind] at h
  rcases hp : p.exec s with ⟨e | x, s₁⟩ <;> rw [hp] at h
  · cases h
    exact .inl rfl
  · exact .inr ⟨x, s₁, rfl, h⟩

/-- A class of programs that is closed under putting programs one after the other. -/
structure Closed (C : {α : Type} → Attempt σ α → Prop) : Prop where
  pure {α : Type} (x : α) : C (pure x : Attempt σ α)
  bind {α β : Type} {p : Attempt σ α} {f : α → Attempt σ β} : C p → (∀ x, C (f x)) → C (p >>= f)

namespace Closed

variable {C : {α : Type} → Attempt σ α → Prop}

theorem map (hC : Closed C) {p : Attempt σ α} (hp : C p) (f : α → β) : C (f <$> p) := by
  rw [map_eq_pure_bind]
  exact hC.bind hp fun x => hC.pure (f x)

theorem mapM (hC : Closed C) {f : ι → Attempt σ β} {is : List ι} (hf : ∀ i ∈ is, C (f i)) :
    C (is.mapM f) := by
  induction is with
  | nil => exact hC.pure []
  | cons i is ih =>
    rw [List.mapM_cons]
    refine hC.bind (hf i List.mem_cons_self) fun _ => hC.bind ?_ fun _ => hC.pure _
    exact ih fun j hj => hf j (List.mem_cons_of_mem i hj)

theorem forM (hC : Closed C) {f : ι → Attempt σ PUnit} {is : List ι} (hf : ∀ i ∈ is, C (f i)) :
    C (is.forM f) := by
  induction is with
  | nil => exact hC.pure PUnit.unit
  | cons i is ih =>
    refine hC.bind (hf i List.mem_cons_self) fun _ => ?_
    exact ih fun j hj => hf j (List.mem_cons_of_mem i hj)

theorem foldlM (hC : Closed C) {f : β → ι → Attempt σ β} (hf : ∀ b i, C (f b i)) (is : List ι)
    (b : β) : C (is.foldlM f b) := by
  induction is generalizing b with
  | nil => exact hC.pure b
  | cons i is ih =>
    rw [List.foldlM_cons]
    exact hC.bind (hf b i) fun b' => ih b'

theorem guard (hC : Closed C) {c : Prop} {_ : Decidable c} {p : Attempt σ PUnit}
    {f : PUnit → Attempt σ β} (hp : C p) (hf : ∀ u, C (f u)) :
    C (if c then p >>= f else f ⟨⟩) := by
  split
  · exact hC.bind hp hf
  · exact hf ⟨⟩

end Closed

/-- Every execution relates the state that it meets to the one that it leaves. -/
def Keeps (R : σ → σ → Prop) (p : Attempt σ α) : Prop := ∀ s, R s (p.exec s).2

namespace Keeps

variable {R S : σ → σ → Prop}

theorem mono {p : Attempt σ α} (h : Keeps R p) (hRS : ∀ s s', R s s' → S s s') : Keeps S p :=
  fun s => hRS _ _ (h s)

theorem caught {p : Attempt σ α} (h : Keeps R p) : Keeps R (Attempt.caught p) := h

variable [IsPreorder σ R]

theorem of (r : Except Fault α) : Keeps R (Attempt.of r) := fun s => refl_of R s

theorem throw (f : Fault) : Keeps R (throw f : Attempt σ α) := fun s => refl_of R s

theorem get : Keeps R (get : Attempt σ σ) := fun s => refl_of R s

theorem bind {p : Attempt σ α} {f : α → Attempt σ β} (hp : Keeps R p) (hf : ∀ x, Keeps R (f x)) :
    Keeps R (p >>= f) := by
  intro s
  have h := hp s
  rw [exec_bind]
  rcases hs : p.exec s with ⟨_ | x, s'⟩ <;> rw [hs] at h
  · exact h
  · exact trans_of R h (hf x s')

theorem closed : Closed (Keeps R) where
  pure _ := fun s => refl_of R s
  bind := bind

omit [IsPreorder σ R] in
theorem ahead {p : Attempt σ α} {f : α → Attempt σ β} {s s' : σ} {y : β} (hp : Keeps R p)
    (h : (p >>= f).exec s = (.ok y, s')) :
    ∃ x s₁, R s s₁ ∧ (f x).exec s₁ = (.ok y, s') := by
  obtain ⟨x, s₁, hx, h⟩ := exec_bind_eq_ok h
  have hs := hp s
  rw [hx] at hs
  exact ⟨x, s₁, hs, h⟩

theorem further {p : Attempt σ α} {f : α → Attempt σ β} {s₀ s s' : σ} {y : β} (hp : Keeps R p)
    (h₀ : R s₀ s) (h : (p >>= f).exec s = (.ok y,s')) :
    ∃ x s₁, R s₀ s₁ ∧ (f x).exec s₁ = (.ok y,s') := by
  obtain ⟨x,s₁,hs,h⟩ := hp.ahead h
  exact ⟨x,s₁,trans_of R h₀ hs,h⟩

theorem retry (again : Fault → Bool) {body : Attempt σ α} (h : Keeps R body) (more : Nat) :
    Keeps R (Attempt.retry again body more) := by
  induction more with
  | zero => exact h
  | succ more ih =>
    intro s
    have hs := h s
    rw [exec_retry]
    rcases hb : body.exec s with ⟨f | x, s'⟩ <;> rw [hb] at hs
    · simp only
      split
      · exact trans_of R hs (ih s')
      · exact hs
    · exact hs

end Keeps

/-- A program does not notice a change of the state: it does the same, and the change stays. -/
def Oblivious (u : σ → σ) (p : Attempt σ α) : Prop :=
  ∀ s, p.exec (u s) = ((p.exec s).1, u (p.exec s).2)

namespace Oblivious

variable {u : σ → σ}

theorem bind {p : Attempt σ α} {f : α → Attempt σ β} (hp : Oblivious u p)
    (hf : ∀ x, Oblivious u (f x)) :
    Oblivious u (p >>= f) := by
  intro s
  rw [exec_bind, exec_bind, hp s]
  rcases p.exec s with ⟨e | x, s'⟩
  · rfl
  · exact hf x s'

theorem modify {f : σ → σ} (h : ∀ s, f (u s) = u (f s)) :
    Oblivious u (modify f : Attempt σ PUnit) := by
  intro s
  rw [exec_modify, exec_modify, h]

theorem caught {p : Attempt σ α} (h : Oblivious u p) : Oblivious u (Attempt.caught p) := by
  intro s
  rw [exec_caught, exec_caught, h s]

theorem get_bind {k : σ → Attempt σ α} (hk : ∀ s, Oblivious u (k s)) (hu : ∀ s, k (u s) = k s) :
    Oblivious u (get >>= k) := by
  intro s
  change (k (u s)).exec (u s) = _
  rw [hu]
  exact hk s s

end Oblivious

def Never (P : Fault → Prop) (p : Attempt σ α) : Prop := ∀ s f, (p.exec s).1 = .error f → ¬ P f

namespace Never

variable {P : Fault → Prop}

theorem pure (x : α) : Never P (pure x : Attempt σ α) := by
  intro s f h
  cases h

theorem of {r : Except Fault α} (h : ∀ f, r = .error f → ¬ P f) :
    Never P (Attempt.of r : Attempt σ α) := fun _ f hf => h f hf

theorem throw {f : Fault} (h : ¬ P f) : Never P (throw f : Attempt σ α) := by
  intro s e he
  cases he
  exact h

theorem bind {p : Attempt σ α} {f : α → Attempt σ β} (hp : Never P p) (hf : ∀ x, Never P (f x)) :
    Never P (p >>= f) := by
  intro s e h
  have h' := hp s
  rw [exec_bind] at h
  rcases hs : p.exec s with ⟨_ | x, s'⟩ <;> rw [hs] at h h'
  · cases h
    exact h' _ rfl
  · exact hf x s' e h

theorem closed : Closed (Never P : {α : Type} → Attempt σ α → Prop) where
  pure := pure
  bind := bind

end Never

def Gives (P : α → Prop) (p : Attempt σ α) : Prop := ∀ s x, (p.exec s).1 = .ok x → P x

namespace Gives

variable {P : β → Prop}

theorem pure {x : β} (h : P x) : Gives P (Pure.pure x : Attempt σ β) := by
  intro s y hy
  cases hy
  exact h

theorem next {Q : α → Prop} {p : Attempt σ α} {f : α → Attempt σ β} (hp : Gives Q p)
    (hf : ∀ x, Q x → Gives P (f x)) : Gives P (p >>= f) := by
  intro s y hy
  obtain ⟨x,s',hx,hy⟩ := exec_bind_eq_ok (Prod.ext hy rfl)
  exact hf x (hp s x (congrArg Prod.fst hx)) s' y (congrArg Prod.fst hy)

theorem bind {p : Attempt σ α} {f : α → Attempt σ β} (hf : ∀ x, Gives P (f x)) :
    Gives P (p >>= f) := next (Q := fun _ => True) (fun _ _ _ => trivial) fun x _ => hf x

theorem throw (f : Fault) : Gives P (throw f : Attempt σ β) := by
  intro s y hy
  cases hy

theorem of_bind {r : Except Fault α} {f : α → Attempt σ β} (hf : ∀ x, r = .ok x → Gives P (f x)) :
    Gives P (Attempt.of r >>= f) := by
  cases r with
  | error e =>
    intro s y hy
    cases hy
  | ok x => exact hf x rfl

end Gives

/-- A program that never lowers a count, and does as told where the count stays. -/
def Unless (μ : σ → Nat) (Q : σ → Except Fault α → σ → Prop) (p : Attempt σ α) : Prop :=
  ∀ s, μ s ≤ μ (p.exec s).2 ∧ (μ (p.exec s).2 = μ s → Q s (p.exec s).1 (p.exec s).2)

variable {μ : σ → Nat} {Q Q' : σ → Except Fault α → σ → Prop}

theorem Unless.mono {p : Attempt σ α} (h : Unless μ Q p) (hQ : ∀ s r s', Q s r s' → Q' s r s') :
    Unless μ Q' p := fun s => ⟨(h s).1,fun hs => hQ _ _ _ ((h s).2 hs)⟩

theorem Unless.pure (x : α) :
    Unless μ (fun s r s' => r = .ok x ∧ s' = s) (pure x : Attempt σ α) :=
  fun _ => ⟨Nat.le_refl _,fun _ => ⟨rfl,rfl⟩⟩

def Then (Q : σ → Except Fault α → σ → Prop) (R : α → σ → Except Fault β → σ → Prop) (s : σ)
    (r : Except Fault β) (s'' : σ) : Prop :=
  (∃ e, Q s (.error e) s'' ∧ r = .error e) ∨ ∃ x s', Q s (.ok x) s' ∧ R x s' r s''

theorem Unless.bind {p : Attempt σ α} {f : α → Attempt σ β}
    {R : α → σ → Except Fault β → σ → Prop} (hp : Unless μ Q p) (hf : ∀ x, Unless μ (R x) (f x)) :
    Unless μ (Then Q R) (p >>= f) := by
  intro s
  obtain ⟨hle,hq⟩ := hp s
  rw [exec_bind]
  rcases hs : p.exec s with ⟨e | x,s'⟩ <;> rw [hs] at hle hq
  · exact ⟨hle,fun he => .inl ⟨e,hq he,rfl⟩⟩
  · obtain ⟨hle',hr⟩ := hf x s'
    refine ⟨Nat.le_trans hle hle',fun he => .inr ⟨x,s',hq ?_,hr ?_⟩⟩
    all_goals
      simp only at hle he ⊢
      omega

end StepGraph.Attempt
