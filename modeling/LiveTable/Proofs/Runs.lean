import LiveTable.Session.Run
import Mathlib.Logic.Relation

/-!
# Runs

A configuration is a session with the tasks that are still to be done. It changes when its first
task is advanced, when time passes, and, once nothing is left to do, when the caller gives a
command. What happened stays in the history, so what holds of a whole history held of every earlier
one.
-/

namespace LiveTable.Session

variable {σ : Type} {backend : Backend σ}

/-- One configuration directly follows another. -/
inductive Step (backend : Backend σ) : Progress σ → Progress σ → Prop
  | advance (s : Session σ) (task : Task) (rest : List Task) :
    Step backend (s, task :: rest) ((s.advance backend task).1, (s.advance backend task).2 ++ rest)
  | tick (s : Session σ) (tasks : List Task) (now : Int64) :
    Step backend (s, tasks) ({ s with now }, tasks)
  | give (s : Session σ) (command : Command) : Step backend (s, []) (s.ask backend .top command)

/-- One configuration comes after another in a run. -/
abbrev Later (backend : Backend σ) : Progress σ → Progress σ → Prop :=
  Relation.ReflTransGen (Step backend)

/-- The configurations of the runs that begin without observers. -/
inductive Reachable (backend : Backend σ) : Progress σ → Prop
  | start (storage : σ) (scripted : Bool) (now : Int64) :
    Reachable backend (.start storage scripted now, [])
  | step {p p' : Progress σ} : Reachable backend p → Step backend p p' → Reachable backend p'

theorem Reachable.later {p p' : Progress σ} (r : Reachable backend p) (l : Later backend p p') :
    Reachable backend p' := by
  induction l with
  | refl => exact r
  | tail _ step ih => exact ih.step step

/-! ## Whole runs -/

variable (backend) in
theorem later_run (s : Session σ) (tasks rest : List Task) :
    Later backend (s, tasks ++ rest) (s.run backend tasks, rest) := by
  fun_induction run backend s tasks with
  | case1 s => exact .refl
  | case2 s task later p ih =>
    refine .head (.advance s task (later ++ rest)) ?_
    rwa [← List.append_assoc]

/-- Tasks are run one after the other. -/
theorem run_append (s : Session σ) (tasks more : List Task) :
    s.run backend (tasks ++ more) = (s.run backend tasks).run backend more := by
  fun_induction run backend s tasks with
  | case1 s => rfl
  | case2 s task rest p ih =>
    rw [← ih, List.cons_append, run, List.append_assoc]

/-- A command that is given is a part of a run. -/
theorem later_give (s : Session σ) (command : Command) :
    Later backend (s, []) (s.give backend command, []) := by
  refine .head (.give s command) ?_
  have done := later_run backend (s.ask backend .top command).1
    (s.ask backend .top command).2 []
  rwa [List.append_nil] at done

theorem Reachable.give {s : Session σ} (r : Reachable backend (s, [])) (command : Command) :
    Reachable backend (s.give backend command, []) := r.later (later_give s command)

/-! ## Runs of known length -/

variable (backend) in
/-- Advance the first task, a number of times. -/
def steps : Nat → Progress σ → Progress σ
  | 0, p => p
  | _, (s, []) => (s, [])
  | n + 1, (s, task :: rest) =>
    steps n ((s.advance backend task).1, (s.advance backend task).2 ++ rest)

variable (backend) in
/-- Give commands, one as soon as all is done that the one before it set off. -/
def play (bound : Nat) : Progress σ → List Command → Progress σ
  | p, [] => p
  | (s, []), command :: rest => play bound (steps backend bound (s.ask backend .top command)) rest
  | p, _ => p

theorem later_steps (n : Nat) (p : Progress σ) : Later backend p (steps backend n p) := by
  induction n generalizing p with
  | zero => exact .refl
  | succ n ih =>
    obtain ⟨s, tasks⟩ := p
    cases tasks with
    | nil => exact .refl
    | cons task rest => exact .head (.advance s task rest) (ih _)

theorem later_play (bound : Nat) (p : Progress σ) (commands : List Command) :
    Later backend p (play backend bound p commands) := by
  induction commands generalizing p with
  | nil => exact .refl
  | cons command rest ih =>
    obtain ⟨s, tasks⟩ := p
    cases tasks with
    | nil => exact .head (.give s command) ((later_steps bound _).trans (ih _))
    | cons task waiting => exact .refl

theorem reachable_play (bound : Nat) (storage : σ) (commands : List Command) :
    Reachable backend (play backend bound (.start storage true 0, []) commands) :=
  (Reachable.start storage true 0).later (later_play bound _ commands)

end LiveTable.Session
