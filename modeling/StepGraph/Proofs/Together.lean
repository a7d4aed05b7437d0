import Mathlib.Data.Option.Defs
import StepGraph.Proofs.Executors

/-!
Two runs of one program that differ in their audit trails only. Where the first run loses no write,
the second does and answers the same, whichever of its writes are lost: what is written to the
audit trail is never read back by a step.
-/
namespace StepGraph

open Attempt

namespace Attempt

variable {σ α β γ δ : Type}

/-- Two endings of one kind: results that go together, or faults that do. -/
inductive Agree (E : Fault → Fault → Prop) (F : α → β → Prop) : Except Fault α → Except Fault β → Prop
  | ok {x : α} {y : β} (h : F x y) : Agree E F (.ok x) (.ok y)
  | error {e f : Fault} (h : E e f) : Agree E F (.error e) (.error f)

theorem Agree.of_ok {E : Fault → Fault → Prop} {F : α → β → Prop} {x : α} {r : Except Fault β}
    (h : Agree E F (.ok x) r) : ∃ y, r = .ok y ∧ F x y := by
  cases h with
  | ok h => exact ⟨_,rfl,h⟩

theorem Agree.of_error {E : Fault → Fault → Prop} {F : α → β → Prop} {e : Fault}
    {r : Except Fault β} (h : Agree E F (.error e) r) : ∃ f, r = .error f ∧ E e f := by
  cases h with
  | error h => exact ⟨_,rfl,h⟩

theorem Agree.mono {E E' : Fault → Fault → Prop} {F F' : α → β → Prop} {r : Except Fault α}
    {r' : Except Fault β} (h : Agree E F r r') (hE : ∀ e f, E e f → E' e f)
    (hF : ∀ x y, F x y → F' x y) : Agree E' F' r r' := by
  cases h with
  | ok h => exact .ok (hF _ _ h)
  | error h => exact .error (hE _ _ h)

theorem Agree.of_eq {E : Fault → Fault → Prop} {F : α → α → Prop} (hE : ∀ e, E e e) (hF : ∀ x, F x x)
    (r : Except Fault α) : Agree E F r r := by
  cases r with
  | ok x => exact .ok (hF x)
  | error e => exact .error (hE e)

theorem Agree.eq {r r' : Except Fault α} (h : Agree Eq Eq r r') : r' = r := by
  cases h with
  | ok h => rw [h]
  | error h => rw [h]

/-- What there was is still there, or it is gone. -/
inductive MayBeGone (F : α → β → Prop) : Option α → Option β → Prop
  | kept {x : α} {y : β} (h : F x y) : MayBeGone F (some x) (some y)
  | gone (x : Option α) : MayBeGone F x none

theorem MayBeGone.refl {F : α → α → Prop} (h : ∀ x, F x x) (x : Option α) : MayBeGone F x x := by
  cases x with
  | none => exact .gone none
  | some x => exact .kept (h x)

theorem MayBeGone.exists {F : α → β → Prop} (x : Option α) : ∃ y, MayBeGone F x y := ⟨none,.gone x⟩

theorem rel_imp {F G : α → β → Prop} (h : ∀ x y, F x y → G x y) {x : Option α} {y : Option β}
    (hxy : Option.Rel F x y) : Option.Rel G x y := by
  cases hxy with
  | none => exact .none
  | some hxy => exact .some (h _ _ hxy)

section At

variable (μ : σ → Nat) (S : σ → σ → Prop) (E : Fault → Fault → Prop) (F : α → β → Prop)

/-- Two programs from two states: where the first one leaves the count as it is, they lead to states
that go together, with endings of one kind. -/
def MatchesAt (s s' : σ) (p : Attempt σ α) (q : Attempt σ β) : Prop :=
  μ (p.exec s).2 = μ s → S (p.exec s).2 (q.exec s').2 ∧ Agree E F (p.exec s).1 (q.exec s').1

/-- Two programs that go together from all states that do; the first one never lowers a count. -/
structure Matches (p : Attempt σ α) (q : Attempt σ β) : Prop where
  le : ∀ s, μ s ≤ μ (p.exec s).2
  alike : ∀ s s', S s s' → MatchesAt μ S E F s s' p q

end At

theorem le_bind {μ : σ → Nat} {p : Attempt σ α} {f : α → Attempt σ β} {s : σ}
    (hp : μ s ≤ μ (p.exec s).2) (hf : ∀ x t, μ t ≤ μ ((f x).exec t).2) :
    μ s ≤ μ ((p >>= f).exec s).2 := by
  rw [exec_bind]
  rcases hx : p.exec s with ⟨e | x,t⟩ <;> rw [hx] at hp
  · exact hp
  · exact Nat.le_trans hp (hf x t)

theorem MatchesAt.mono {μ : σ → Nat} {S : σ → σ → Prop} {E E' : Fault → Fault → Prop}
    {F F' : α → β → Prop} {s s' : σ} {p : Attempt σ α} {q : Attempt σ β}
    (h : MatchesAt μ S E F s s' p q) (hE : ∀ e f, E e f → E' e f) (hF : ∀ x y, F x y → F' x y) :
    MatchesAt μ S E' F' s s' p q := fun hl => ⟨(h hl).1,(h hl).2.mono hE hF⟩

theorem MatchesAt.bind {μ : σ → Nat} {S : σ → σ → Prop} {E : Fault → Fault → Prop} {F : α → β → Prop}
    {G : γ → δ → Prop} {s s' : σ} {p : Attempt σ α} {q : Attempt σ β} {f : α → Attempt σ γ}
    {g : β → Attempt σ δ} (hp : MatchesAt μ S E F s s' p q) (hle : μ s ≤ μ (p.exec s).2)
    (hle' : ∀ x t, μ t ≤ μ ((f x).exec t).2)
    (hf : ∀ x y t t', p.exec s = (.ok x,t) → q.exec s' = (.ok y,t') → F x y → S t t' →
      MatchesAt μ S E G t t' (f x) (g y)) :
    MatchesAt μ S E G s s' (p >>= f) (q >>= g) := by
  unfold MatchesAt at hp ⊢
  rw [exec_bind,exec_bind]
  rcases hx : p.exec s with ⟨r,t⟩
  rcases hy : q.exec s' with ⟨r',t'⟩
  rw [hx] at hle hp
  rw [hy] at hp
  simp only at hle hp
  cases r with
  | error e =>
    intro hl
    obtain ⟨ht,hr⟩ := hp hl
    obtain ⟨e',rfl,he⟩ := hr.of_error
    exact ⟨ht,.error he⟩
  | ok x =>
    intro hl
    simp only at hl
    have hstays : μ t = μ s := Nat.le_antisymm (Nat.le_trans (hle' x t) (Nat.le_of_eq hl)) hle
    obtain ⟨ht,hr⟩ := hp hstays
    obtain ⟨y,rfl,hxy⟩ := hr.of_ok
    exact hf x y t t' hx hy hxy ht (hl.trans hstays.symm)

namespace Matches

variable {μ : σ → Nat} {S : σ → σ → Prop} {E E' : Fault → Fault → Prop} {F F' : α → β → Prop}
  {p : Attempt σ α} {q : Attempt σ β}

theorem mono (h : Matches μ S E F p q) (hE : ∀ e f, E e f → E' e f) (hF : ∀ x y, F x y → F' x y) :
    Matches μ S E' F' p q :=
  ⟨h.le,fun s s' hs => (h.alike s s' hs).mono hE hF⟩

theorem of_iff {S' : σ → σ → Prop} (h : Matches μ S E F p q) (hS : ∀ s s', S s s' ↔ S' s s') :
    Matches μ S' E F p q := by
  obtain rfl : S = S' := funext fun s => funext fun s' => propext (hS s s')
  exact h

theorem pure {x : α} {y : β} (h : F x y) :
    Matches μ S E F (pure x : Attempt σ α) (pure y : Attempt σ β) :=
  ⟨fun _ => Nat.le_refl _,fun _ _ hs _ => ⟨hs,.ok h⟩⟩

theorem throw {e f : Fault} (h : E e f) :
    Matches μ S E F (throw e : Attempt σ α) (throw f : Attempt σ β) :=
  ⟨fun _ => Nat.le_refl _,fun _ _ hs _ => ⟨hs,.error h⟩⟩

theorem bind {G : γ → δ → Prop} {f : α → Attempt σ γ} {g : β → Attempt σ δ}
    (hp : Matches μ S E F p q) (hF : ∀ x, ∃ y, F x y)
    (hf : ∀ x y, F x y → Matches μ S E G (f x) (g y)) : Matches μ S E G (p >>= f) (q >>= g) := by
  have hle (x : α) (t : σ) : μ t ≤ μ ((f x).exec t).2 := by
    obtain ⟨y,hxy⟩ := hF x
    exact (hf x y hxy).le t
  refine ⟨fun s => le_bind (hp.le s) hle,fun s s' hs => ?_⟩
  exact (hp.alike s s' hs).bind (hp.le s) hle fun x y t t' _ _ hxy ht => (hf x y hxy).alike t t' ht

theorem next {G : γ → δ → Prop} {p q : Attempt σ α} {f : α → Attempt σ γ} {g : α → Attempt σ δ}
    (hp : Matches μ S E Eq p q) (hf : ∀ x, Matches μ S E G (f x) (g x)) :
    Matches μ S E G (p >>= f) (q >>= g) :=
  hp.bind (fun x => ⟨x,rfl⟩) fun x _ hx => hx ▸ hf x

theorem guard {G : γ → δ → Prop} {c : Prop} {_ : Decidable c} {p q : Attempt σ PUnit}
    {f : PUnit → Attempt σ γ} {g : PUnit → Attempt σ δ} (hp : Matches μ S E Eq p q)
    (hf : ∀ u, Matches μ S E G (f u) (g u)) :
    Matches μ S E G (if c then p >>= f else f ⟨⟩) (if c then q >>= g else g ⟨⟩) := by
  split
  · exact hp.next hf
  · exact hf ⟨⟩

theorem caught {p q : Attempt σ α} (h : Matches μ S Eq Eq p q) :
    Matches μ S E Eq (Attempt.caught p) (Attempt.caught q) :=
  ⟨h.le,fun s s' hs hl => ⟨(h.alike s s' hs hl).1,.ok (h.alike s s' hs hl).2.eq.symm⟩⟩

theorem discard (h : Matches μ S E F p q) (hF : ∀ x, ∃ y, F x y) :
    Matches μ S E Eq (Functor.discard p : Attempt σ PUnit) (Functor.discard q) := by
  unfold Functor.discard Functor.mapConst
  exact h.bind hF fun _ _ _ => .pure rfl

end Matches

end Attempt

def World.Alike (w w' : World) : Prop := ∃ l, w' = w.withLogs l

namespace World.Alike

theorem symm {w w' : World} (h : w.Alike w') : w'.Alike w := by
  obtain ⟨l,rfl⟩ := h
  exact ⟨w.logs,rfl⟩

theorem trans {w w' w'' : World} (h : w.Alike w') (h' : w'.Alike w'') : w.Alike w'' := by
  obtain ⟨l,rfl⟩ := h
  obtain ⟨l',rfl⟩ := h'
  exact ⟨l',rfl⟩

theorem pop (w : World) : w.Alike w.popped := ⟨{ w.logs with outages := w.outages.tail },rfl⟩

theorem popped {w w' : World} (h : w.Alike w') : w.popped.Alike w'.popped :=
  (pop w).symm.trans (h.trans (pop w'))

theorem lose (w : World) : w.Alike { w with lost := w.lost + 1 } :=
  ⟨{ w.logs with lost := w.lost + 1 },rfl⟩

end World.Alike

instance : IsPreorder World World.Alike where
  refl w := ⟨w.logs,rfl⟩
  trans _ _ _ := World.Alike.trans

namespace Work

variable {α β γ : Type}

abbrev Together (p q : Work α) : Prop := Matches World.lost World.Alike Eq Eq p q

namespace Together

theorem plain {p : Work α} (h : Unlogged p) : Together p p where
  le w := Nat.le_of_eq (congrArg World.Logs.lost (h.logs w)).symm
  alike w w' := by
    rintro ⟨l,rfl⟩ -
    rw [h l w]
    exact ⟨⟨l,rfl⟩,.of_eq (fun _ => rfl) (fun _ => rfl) _⟩

theorem next {p q : Work α} {f g : α → Work β} (h : Together p q)
    (hf : ∀ x, Together (f x) (g x)) : Together (p >>= f) (q >>= g) := Matches.next h hf

theorem unlogged {p : Work α} {f g : α → Work β} (hp : Unlogged p)
    (hf : ∀ x, Together (f x) (g x)) : Together (p >>= f) (p >>= g) := next (plain hp) hf

theorem appendOnly {p : Work α} {f g : α → Work β} (hp : AppendOnly p)
    (hf : ∀ x, Together (f x) (g x)) :
    Together (p >>= f) (p >>= g) := unlogged hp.unlogged hf

theorem forLog {E : Fault → Fault → Prop} {F : α → β → Prop} {p : Work α} {q : Work β}
    (h : Matches World.lost World.Alike E F p q) :
    Matches World.lost World.Alike E F (Work.forLog p) (Work.forLog q) where
  le w := by
    have hle := h.le w
    rw [exec_forLog]
    rcases hw : p.exec w with ⟨e | x,w₁⟩ <;> rw [hw] at hle
    · exact Nat.le_succ_of_le hle
    · exact hle
  alike w w' hs := by
    have hle := h.le w
    have ha := h.alike w w' hs
    unfold MatchesAt at ha ⊢
    rw [exec_forLog,exec_forLog]
    rcases hw : p.exec w with ⟨e | x,w₁⟩ <;> rw [hw] at hle ha <;> intro hl
    · simp only at hl hle
      omega
    · obtain ⟨ha,hr⟩ := ha hl
      obtain ⟨y,hy,hxy⟩ := hr.of_ok
      rcases hw' : q.exec w' with ⟨r,w₁'⟩
      rw [hw'] at ha hy
      obtain rfl : r = .ok y := hy
      exact ⟨ha,.ok hxy⟩

end Together

/-- A write at two worlds: where it comes about in the first one, it comes about in the second one
as well, or fails there in a way that nobody has to hear of. -/
def Tolerates (F : α → β → Prop) (w w' : World) (p : Work α) (q : Work β) : Prop :=
  ∀ x w₁, p.exec w = (.ok x,w₁) →
    (∃ y w₁', q.exec w' = (.ok y,w₁') ∧ w'.Alike w₁' ∧ F x y) ∨
      ∃ f, q.exec w' = (.error f,w') ∧ f.isHarmless = true

namespace Tolerates

variable {F : α → β → Prop} {w w' : World} {ι κ : Type} {u : Work ι} {v : Work κ}
  {f : ι → Work α} {g : κ → Work β}

theorem look {r : Except Fault ι} {r' : Except Fault κ} (hu : u.exec w = (r,w))
    (hv : v.exec w' = (r',w'))
    (h : ∀ x, r = .ok x → (∃ y, r' = .ok y ∧ Tolerates F w w' (f x) (g y)) ∨
      ∃ e, r' = .error e ∧ e.isHarmless = true) :
    Tolerates F w w' (u >>= f) (v >>= g) := by
  intro x w₁ hx
  obtain ⟨y,w₂,hy,hx⟩ := exec_bind_eq_ok hx
  obtain ⟨rfl,rfl⟩ := Prod.mk.inj (hu.symm.trans hy)
  rcases h y rfl with ⟨z,rfl,ht⟩ | ⟨e,rfl,he⟩
  · rw [exec_bind_ok hv]
    exact ht x w₁ hx
  · rw [exec_bind_error hv]
    exact .inr ⟨e,rfl,he⟩

theorem same {g : ι → Work β} {v : Work ι} {r : Except Fault ι} (hu : u.exec w = (r,w))
    (hv : v.exec w' = (r,w')) (h : ∀ x, r = .ok x → Tolerates F w w' (f x) (g x)) :
    Tolerates F w w' (u >>= f) (v >>= g) :=
  look hu hv fun x hx => .inl ⟨x,hx,h x hx⟩

theorem set {db db' : Database} {x : α} {y : β} (ha : w'.Alike { w' with db := db' }) (h : F x y) :
    Tolerates F w w' (setDatabase db >>= fun _ => pure x) (setDatabase db' >>= fun _ => pure y) := by
  rintro _ _ ⟨⟩
  exact .inl ⟨y,_,rfl,ha,h⟩

end Tolerates

theorem exec_of_logWrite {p : Work α} {w w₁ : World} {x : α}
    (h : (logWrite p).exec w = (.ok (some x),w₁)) : p.exec w.popped = (.ok x,w₁) := by
  rw [exec_logWrite] at h
  rcases exposed_cases (bestEffort p) w with he | he <;> rw [he] at h
  · rw [exec_bestEffort] at h
    rcases hp : p.exec w.popped with ⟨f | y,w₂⟩ <;> rw [hp] at h
    · cases hf : f.isHarmless <;> simp only [hf,Bool.false_eq_true,if_false,if_true] at h <;> cases h
    · cases h
      rfl
  · cases h

theorem logWrite_harmless {P : β → Prop} {q : Work β} {w : World}
    (h : (∃ y w₁, q.exec w.popped = (.ok y,w₁) ∧ w.popped.Alike w₁ ∧ P y) ∨
      ∃ f, q.exec w.popped = (.error f,w.popped) ∧ f.isHarmless = true) :
    ∃ o w₁, (logWrite q).exec w = (.ok o,w₁) ∧ w.Alike w₁ ∧ ∀ y, o = some y → P y := by
  rw [exec_logWrite]
  rcases exposed_cases (bestEffort q) w with he | he <;> rw [he]
  · rw [exec_bestEffort]
    rcases h with ⟨y,w₁,hy,ha,hP⟩ | ⟨f,hf,hf'⟩
    · rw [hy]
      exact ⟨some y,w₁,rfl,(World.Alike.pop w).trans ha,fun z hz => by cases hz; exact hP⟩
    · rw [hf]
      simp only [hf',if_true]
      exact ⟨none,_,rfl,(World.Alike.pop w).trans (.lose _),fun z hz => by cases hz⟩
  · exact ⟨none,_,rfl,(World.Alike.pop w).trans (.lose _),fun z hz => by cases hz⟩

section Write

variable {F : α → β → Prop} {Post : World → α → Database → Prop} {p : Work α}

theorem logWrite_omitted (hp : Writes Post p)
    (hlog : ∀ w x db, Post w x db → w.Alike { w with db := db }) :
    Matches World.lost World.Alike Eq (MayBeGone F) (logWrite p) (pure none : Work (Option β)) where
  le w := (logWrite_unless hp w).1
  alike w w' hs hl := by
    obtain ⟨x,db,hx,hw,hpost⟩ := (logWrite_unless hp w).2 hl
    rw [hx,hw]
    exact ⟨(hlog _ _ _ hpost).symm.trans ((World.Alike.pop w).symm.trans hs),.ok (.gone _)⟩

theorem logWrite_alike {q : Work β} (hp : Writes Post p)
    (hlog : ∀ w x db, Post w x db → w.Alike { w with db := db }) {w w' : World} (hs : w.Alike w')
    (ht : Tolerates F w.popped w'.popped p q) :
    MatchesAt World.lost World.Alike Eq (MayBeGone F) w w' (logWrite p) (logWrite q) := by
  intro hl
  obtain ⟨x,db,hx,hw,hpost⟩ := (logWrite_unless hp w).2 hl
  have hp : (logWrite p).exec w = (.ok (some x),{ w.popped with db := db }) := Prod.ext hx hw
  obtain ⟨o,w₁,hq,ha,ho⟩ := logWrite_harmless (ht x _ (exec_of_logWrite hp))
  rw [hp,hq]
  refine ⟨?_,.ok ?_⟩
  · exact (hlog _ _ _ hpost).symm.trans ((World.Alike.pop w).symm.trans (hs.trans ha))
  · cases o with
    | none => exact .gone _
    | some y => exact .kept (ho y rfl)

theorem logWrite_together {q : Work β} (hp : Writes Post p)
    (hlog : ∀ w x db, Post w x db → w.Alike { w with db := db })
    (ht : ∀ w w', w.Alike w' → Tolerates F w w' p q) :
    Matches World.lost World.Alike Eq (MayBeGone F) (logWrite p) (logWrite q) where
  le w := (logWrite_unless hp w).1
  alike w w' hs := logWrite_alike hp hlog hs (ht w.popped w'.popped hs.popped)

end Write

end Work

end StepGraph

/-!
Steps of two runs that differ in their recorders only. Where the two recorders write level, from
worlds that go together to worlds that go together, so do the steps: a step looks at nothing that was
written, and its outcome does not say what was.
-/
namespace StepGraph

open Attempt Work

section

variable (μ : World → Nat) (S : World → World → Prop)

/-- Two recorders that write level: from worlds that go together, both write or neither does. -/
structure Recorder.Level (r r' : Recorder) : Prop where
  add (n : Node Item) (e : LogEntry) :
    Matches μ S Eq Eq (discard (r.add n e) : Work Unit) (discard (r'.add n e))
  change (context : Option Value) {f : Time.Moment → ExecutionLog → ExecutionLog}
    (hf : ∀ now, ExecutionLog.Blind (f now)) :
    Matches μ S Eq Eq (r.change context f) (r'.change context f)

/-- Runs that keep in step: they differ in recorders that write level, and whatever leaves the audit
trail alone does the same in both of their worlds. -/
structure Run.InStep (R : Run → Run → Prop) : Prop where
  plain {α : Type} {p : Work α} : Unlogged p → Matches μ S Eq Eq p p
  forLog {α : Type} {p : Work α} : Unlogged p → Matches μ S Eq Eq (Work.forLog p) (Work.forLog p)
  runs {run run' : Run} : R run run' → ∃ recorder, run' = { run with recorder := recorder } ∧
    Option.Rel (Recorder.Level μ S) run.recorder recorder
  respond {run run' : Run} (x : Item) : R run run' → R { run with last := x } { run' with last := x }
  /-- There is no count of lost writes, or every run keeps in step with itself. -/
  counts : (∀ w, μ w = 0) ∨ ∀ run, R run run

end

namespace Run.InStep

variable {μ : World → Nat} {S : World → World → Prop} {R : Run → Run → Prop}
  {E : Fault → Fault → Prop} {α β γ : Type} {F : β → γ → Prop}

theorem appendOnly (hS : InStep μ S R) {p : Work α} {f : α → Work β} {g : α → Work γ}
    (hp : AppendOnly p)
    (hf : ∀ x, Matches μ S Eq F (f x) (g x)) : Matches μ S Eq F (p >>= f) (p >>= g) :=
  (hS.plain hp.unlogged).next hf

theorem failsOnData (hS : InStep μ S R) {p : Work α} {f : α → Work β} {g : α → Work γ}
    (hp : FailsOnData p)
    (hf : ∀ x, Matches μ S Eq F (f x) (g x)) : Matches μ S Eq F (p >>= f) (p >>= g) :=
  (hS.plain hp.unlogged).next hf

theorem isSome (hS : InStep μ S R) {run run' : Run} (h : R run run') :
    run'.recorder.isSome = run.recorder.isSome := by
  obtain ⟨recorder,rfl,hr⟩ := hS.runs h
  generalize run.recorder = before at hr
  cases hr <;> rfl

end Run.InStep

namespace Steps

variable {μ : World → Nat} {S : World → World → Prop} {R : Run → Run → Prop}
  {run run' : Run} {node : Step Item}

theorem logPhase_level (hS : Run.InStep μ S R) (hr : R run run') (phase status : String)
    (input output : Item) (error : Option String) :
    Matches μ S Eq Eq (run.logPhase node phase status input output error)
      (run'.logPhase node phase status input output error) := by
  obtain ⟨recorder,rfl,hl⟩ := hS.runs hr
  unfold Run.logPhase
  generalize run.recorder = before at hl
  cases hl with
  | none => exact .pure rfl
  | some hl => exact hS.appendOnly .moment fun now => hl.add _ _

theorem perform_recorder {k : StepKind} (hk : k.recordsPhases = false) (recorder : Option Recorder) :
    k.perform { run with recorder := recorder } node = k.perform run node := by
  cases k with
  | aiDecision => cases hk
  | readEmail => cases hk
  | _ => rfl

theorem perform_unlogged {k : StepKind} (hk : node.kind? = some k) :
    Unlogged (k.perform { run with recorder := none } node) := by
  refine (perform_contextLast _ hk).within Unlogged.closed (fun h _ => h) ?_
  exact fun _ _ _ _ _ => Unlogged.closed.pure ()

theorem resolveSource_level (hS : Run.InStep μ S R) (hr : R run run') (config : Value) :
    Matches μ S Eq Eq (resolveSource run node config) (resolveSource run' node config) := by
  obtain ⟨recorder,rfl,-⟩ := hS.runs hr
  refine hS.appendOnly (scope_readOnly run).appendOnly fun scope =>
    hS.appendOnly (.of _) fun source => ?_
  refine hS.appendOnly (.plant _) fun input => hS.appendOnly (.plant _) fun output => ?_
  exact (logPhase_level hS hr _ _ _ _ _).next fun _ => .pure rfl

theorem refuseLookup_level (hS : Run.InStep μ S R) (hr : R run run') (request : Entries Value)
    (url : String) (r : Response) :
    Matches μ S Eq Eq (refuseLookup run node request url r)
      (refuseLookup run' node request url r) := by
  refine hS.appendOnly (.read _) fun body => hS.appendOnly (.of _) fun text => ?_
  refine hS.appendOnly (.plant _) fun input => hS.appendOnly (.plant _) fun output => ?_
  exact (logPhase_level hS hr _ _ _ _ _).next fun _ => .throw rfl

theorem lookUp_level (hS : Run.InStep μ S R) (hr : R run run') (config : Value) :
    Matches μ S Eq Eq (lookUp run node config) (lookUp run' node config) := by
  unfold lookUp
  refine (resolveSource_level hS hr config).next fun source => ?_
  obtain ⟨recorder,rfl,-⟩ := hS.runs hr
  refine hS.appendOnly (scope_readOnly run).appendOnly fun scope => ?_
  refine hS.appendOnly (profileOf_appendOnly config _) fun p => hS.appendOnly (.of _) fun method => ?_
  refine hS.appendOnly (.of _) fun url => hS.appendOnly (.require _) fun _ => ?_
  refine hS.appendOnly (.send _) fun r => .guard (refuseLookup_level hS hr _ url r) fun _ => ?_
  refine hS.appendOnly .store fun s => hS.appendOnly (.of _) fun candidates => ?_
  refine hS.appendOnly (.plant _) fun input => ?_
  refine hS.appendOnly (shownCandidates_appendOnly candidates) fun shown => ?_
  refine hS.appendOnly (.newObject _) fun output => ?_
  exact (logPhase_level hS hr _ _ _ _ _).next fun _ => .pure rfl

theorem decideNone_level (hS : Run.InStep μ S R) (l : Lookup) :
    Matches μ S Eq Eq (decideNone l) (decideNone l) := by
  unfold decideNone
  exact .guard (.throw rfl) fun _ => hS.appendOnly (.newObject _) fun _ => .pure rfl

theorem decideSingle_level (hS : Run.InStep μ S R) (hr : R run run') (config : Value) (l : Lookup)
    (matched : Item) :
    Matches μ S Eq Eq (decideSingle run node config l matched)
      (decideSingle run' node config l matched) := by
  obtain ⟨recorder,rfl,-⟩ := hS.runs hr
  refine hS.failsOnData (choose_failsOnData run config _ matched) fun x =>
    hS.appendOnly (.plant _) fun name => ?_
  refine hS.appendOnly (.plant _) fun input => hS.appendOnly (.newObject _) fun result => ?_
  refine (logPhase_level hS hr _ _ _ _ _).next fun _ => ?_
  exact hS.appendOnly (.newObject _) fun _ => .pure rfl

theorem refuseUnmatched_level (hS : Run.InStep μ S R) (hr : R run run') (l : Lookup) (input : Item)
    (result : Entries Value) (message : String) :
    Matches μ S Eq Eq (refuseUnmatched run node l input result message)
      (refuseUnmatched run' node l input result message) :=
  hS.appendOnly (.plant _) fun _ => (logPhase_level hS hr _ _ _ _ _).next fun _ => .throw rfl

theorem acceptUnmatched_level (hS : Run.InStep μ S R) (hr : R run run') (l : Lookup) (input : Item)
    (result : Entries Value) :
    Matches μ S Eq Eq (acceptUnmatched run node l input result)
      (acceptUnmatched run' node l input result) := by
  obtain ⟨recorder,rfl,-⟩ := hS.runs hr
  refine hS.appendOnly (.plant _) fun _ => (logPhase_level hS hr _ _ _ _ _).next fun _ => ?_
  refine hS.failsOnData (storeOutput_failsOnData run _ _) fun _ =>
    hS.appendOnly (.plant _) fun parts => ?_
  exact hS.appendOnly .store fun s => hS.appendOnly (.newObject _) fun _ => .pure rfl

theorem decideAsked_level (hS : Run.InStep μ S R) (hr : R run run') (config : Value) (l : Lookup) :
    Matches μ S Eq Eq (decideAsked run node config l) (decideAsked run' node config l) := by
  refine hS.appendOnly .provider fun provider => hS.appendOnly (ask_appendOnly l) fun result => ?_
  refine hS.appendOnly (.plant _) fun input => ?_
  split
  · refine hS.appendOnly (.of _) fun message => ?_
    split
    · exact refuseUnmatched_level hS hr l input result message
    · exact acceptUnmatched_level hS hr l input result
  · obtain ⟨recorder,rfl,-⟩ := hS.runs hr
    refine hS.failsOnData (choose_failsOnData run config _ _) fun x =>
      hS.appendOnly (.plant _) fun _ => ?_
    refine hS.appendOnly (.plant _) fun _ => hS.appendOnly (.newObject _) fun found => ?_
    refine (logPhase_level hS hr _ _ _ _ _).next fun _ => ?_
    exact hS.appendOnly (.newObject _) fun _ => .pure rfl

theorem aiDecision_level (hS : Run.InStep μ S R) (hr : R run run') :
    Matches μ S Eq Eq (aiDecision run node) (aiDecision run' node) := by
  refine hS.appendOnly (.read _) fun config => (lookUp_level hS hr config).next fun l => ?_
  split
  · exact decideNone_level hS l
  · split
    · exact decideSingle_level hS hr config l _
    · exact decideAsked_level hS hr config l
  · exact decideAsked_level hS hr config l

theorem askFields_level (hS : Run.InStep μ S R) (hr : R run run') (mappings : List Value)
    (done : Filled) :
    Matches μ S Eq Eq (askFields run node mappings done) (askFields run' node mappings done) := by
  obtain ⟨recorder,rfl,-⟩ := hS.runs hr
  refine hS.appendOnly .provider fun provider => ?_
  refine hS.appendOnly (entryValue_readOnly run _).appendOnly fun subject => ?_
  refine hS.appendOnly (entryValue_readOnly run _).appendOnly fun body =>
    hS.appendOnly (.of _) fun question => ?_
  refine hS.appendOnly (.complete _ _ _) fun text => hS.appendOnly (.of _) fun reply => ?_
  extract_lets kept
  refine hS.appendOnly (.of _) fun filled => hS.appendOnly (.of _) fun _ =>
    hS.appendOnly (.of _) fun _ => ?_
  refine hS.appendOnly (.plant _) fun input => hS.appendOnly (.of _) fun _ => ?_
  refine hS.appendOnly (.plant _) fun output => ?_
  exact (logPhase_level hS hr _ _ _ _ _).next fun _ => .pure rfl

theorem readMappings_level (hS : Run.InStep μ S R) (hr : R run run') (mappings : List Value) :
    Matches μ S Eq Eq (readMappings run node mappings) (readMappings run' node mappings) := by
  have asked (ms : List Value) (done : Filled) :
      Matches μ S Eq Eq (askFields run node ms done) (askFields run' node ms done) :=
    askFields_level hS hr ms done
  obtain ⟨recorder,rfl,-⟩ := hS.runs hr
  unfold readMappings
  refine hS.appendOnly (.of _) fun done =>
    hS.appendOnly (scope_readOnly run).appendOnly fun scope => ?_
  refine hS.appendOnly (.of _) fun done => hS.appendOnly (.plant _) fun input => ?_
  refine hS.appendOnly (.plant _) fun output => (logPhase_level hS hr _ _ _ _ _).next fun _ => ?_
  extract_lets rest rest'
  have written (fields : Filled) : Matches μ S Eq Eq (rest fields) (rest' fields) := by
    refine hS.failsOnData (writeFields_failsOnData run fields) fun _ => ?_
    refine hS.failsOnData (noteFields_failsOnData run _) fun _ => ?_
    exact hS.appendOnly (.plant _) fun _ => .pure rfl
  split
  · exact hS.appendOnly (AppendOnly.closed.pure _) written
  · exact (asked _ _).next written

theorem readEmail_level (hS : Run.InStep μ S R) (hr : R run run') :
    Matches μ S Eq Eq (readEmail run node) (readEmail run' node) := by
  refine hS.appendOnly (.read _) fun config => hS.appendOnly (.of _) fun ms => ?_
  simp only
  split
  · exact hS.appendOnly (.plant _) fun _ => .pure rfl
  · exact readMappings_level hS hr _

/-- A step does the same in runs that keep in step. -/
theorem perform_level (hS : Run.InStep μ S R) (hr : R run run') {k : StepKind}
    (hk : node.kind? = some k) :
    Matches μ S Eq Eq (k.perform run node) (k.perform run' node) := by
  have same (hp : k.recordsPhases = false) :
      Matches μ S Eq Eq (k.perform run node) (k.perform run' node) := by
    obtain ⟨recorder,rfl,-⟩ := hS.runs hr
    rw [perform_recorder hp recorder,← perform_recorder hp none]
    exact hS.plain (perform_unlogged hk)
  cases k with
  | aiDecision => exact aiDecision_level hS hr
  | readEmail => exact readEmail_level hS hr
  | _ => exact same rfl

end Steps

end StepGraph
