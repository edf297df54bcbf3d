import Mathlib.Logic.Function.Basic
import Storyline.Prog

/-!
# Programs and their runs

What holds of every call that a program may come to, and of every end that it may have, can be told
from the program alone. Programs that share one store take turns: at each turn one of them makes its
next call. A schedule says whose turn it is, so a state is reachable if some schedule leads to it.

* `Prog.Throughout`, `Prog.Asks`: all calls of a program, with `Prog.Throughout.bind` and
  `Prog.Asks.bind`;
* `Prog.Ends`: all ends of a program, with `Prog.Ends.run`;
* `Pool`, `Pool.step`, `Pool.run`;
* `Pool.run_induction`: what every turn keeps, every run keeps;
* `Pool.throughout`: programs side by side make no other calls than each by itself.
-/

namespace Storyline

/-! ## Programs by themselves -/

namespace Prog

variable {I J : Interface} {α β σ : Type}

/-- `R` holds of every call that the program may come to, and of how it goes on by the answer. -/
def Throughout (R : (c : I.Call) → (I.Answer c → Prog I α) → Prop) : Prog I α → Prop
  | .done _ => True
  | .ask c k => R c k ∧ ∀ answer, (k answer).Throughout R

theorem Throughout.bind {R : (c : I.Call) → (I.Answer c → Prog I α) → Prop}
    {R' : (c : I.Call) → (I.Answer c → Prog I β) → Prop} {p : Prog I α} {f : α → Prog I β}
    (h : p.Throughout R) (hR : ∀ c k, R c k → R' c fun answer => (k answer).bind f)
    (hf : ∀ a, (f a).Throughout R') :
    (p.bind f).Throughout R' := by
  induction p with
  | done a => exact hf a
  | ask c k ih => exact ⟨hR c k h.1, fun answer => ih answer (h.2 answer)⟩

/-- The program makes only calls of which `P` holds. -/
def Asks (P : I.Call → Prop) (p : Prog I α) : Prop := p.Throughout fun c _ => P c

theorem Asks.bind {P : I.Call → Prop} {p : Prog I α} {f : α → Prog I β} (h : p.Asks P)
    (hf : ∀ a, (f a).Asks P) :
    (p.bind f).Asks P :=
  Throughout.bind h (fun _ _ => id) hf

theorem Asks.imp {P Q : I.Call → Prop} {p : Prog I α} (h : p.Asks P) (hPQ : ∀ c, P c → Q c) :
    p.Asks Q := by
  induction p with
  | done a => trivial
  | ask c k ih => exact ⟨hPQ c h.1, fun answer => ih answer (h.2 answer)⟩

theorem Asks.interpret {P : I.Call → Prop} {Q : J.Call → Prop}
    {f : (c : I.Call) → Prog J (I.Answer c)} {p : Prog I α} (h : p.Asks P)
    (hf : ∀ c, P c → (f c).Asks Q) : (Prog.interpret f p).Asks Q := by
  induction p with
  | done a => trivial
  | ask c k ih => exact (hf c h.1).bind fun answer => ih answer (h.2 answer)

/-- Whatever the program is told, it ends with `P`. -/
def Ends (P : α → Prop) : Prog I α → Prop
  | .done a => P a
  | .ask _ k => ∀ answer, (k answer).Ends P

theorem Ends.run {P : α → Prop} {p : Prog I α} (hp : p.Ends P) (h : Handler I σ) (state : σ) :
    P (p.run h state).1 := by
  induction p generalizing state with
  | done a => exact hp
  | ask c k ih => exact ih _ (hp _) _

theorem ends_bind {P : β → Prop} (p : Prog I α) {f : α → Prog I β} (hf : ∀ a, (f a).Ends P) :
    (p.bind f).Ends P := by
  induction p with
  | done a => exact hf a
  | ask c k ih => exact ih

end Prog

/-! ## Programs side by side -/

/-- Programs that share a store. -/
structure Pool (I : Interface) (ι α σ : Type) where
  progs : ι → Prog I α
  store : σ

namespace Pool

variable {I : Interface} {ι α σ : Type} [DecidableEq ι] (h : Prog.Handler I σ)

/-- The turn of program `i`: it makes its next call, unless it has ended. -/
def step (i : ι) (p : Pool I ι α σ) : Pool I ι α σ :=
  match p.progs i with
  | .done _ => p
  | .ask c k => ⟨Function.update p.progs i (k (h c p.store).1), (h c p.store).2⟩

/-- The turns of a schedule. -/
def run (schedule : List ι) (p : Pool I ι α σ) : Pool I ι α σ :=
  schedule.foldl (fun p i => p.step h i) p

variable {h} {p : Pool I ι α σ} {i : ι}

theorem step_done {a : α} (hp : p.progs i = .done a) : p.step h i = p := by
  simp only [step, hp]

theorem step_ask {c : I.Call} {k : I.Answer c → Prog I α} (hp : p.progs i = .ask c k) :
    p.step h i = ⟨Function.update p.progs i (k (h c p.store).1), (h c p.store).2⟩ := by
  simp only [step, hp]

theorem run_append (before after : List ι) :
    p.run h (before ++ after) = (p.run h before).run h after :=
  List.foldl_append

theorem run_concat (before : List ι) : p.run h (before ++ [i]) = (p.run h before).step h i :=
  run_append before [i]

/-- **What every turn keeps, every run keeps.** -/
theorem run_induction {P : Pool I ι α σ → Prop} (hs : ∀ p i, P p → P (p.step h i)) (hp : P p)
    (schedule : List ι) : P (p.run h schedule) := by
  induction schedule generalizing p with
  | nil => exact hp
  | cons i schedule ih => exact ih (hs p i hp)

theorem throughout {R : (c : I.Call) → (I.Answer c → Prog I α) → Prop}
    (hp : (p.progs i).Throughout R) (schedule : List ι) :
    ((p.run h schedule).progs i).Throughout R := by
  refine run_induction (P := fun p => (p.progs i).Throughout R) (fun p j hi => ?_) hp schedule
  cases hj : p.progs j with
  | done a => rwa [step_done hj]
  | ask c k =>
    rw [step_ask hj]
    by_cases hij : i = j
    · subst hij
      rw [hj] at hi
      simpa only [Function.update_self] using hi.2 _
    · simpa only [Function.update_of_ne hij] using hi

end Pool

end Storyline
