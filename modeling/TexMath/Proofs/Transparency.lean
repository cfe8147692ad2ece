/-
The expander is transparent, whoever else reads from its lexer.

# No expander

A step through the expander is the same step on its lexer: it answers the
same and leaves the same session (`Session.step_direct`), so that in any
interleaving the expander may be taken away, and its registry may be any
other (`Session.step_withRegistry`).

# One queue

What readers that take tokens have in front of them is then a queue, the
outcomes of the lexer (`Lexer.outcomes`). Asking for a token takes the
first outcome off it, and asking for all tokens takes those up to the
first fault, which replaces them, or up to the end (`Session.run_serves`).
Nothing in it tells who has asked: every outcome goes to one of the
readers and to no other, in order, and an empty queue stays empty.
-/
import TexMath.Proofs.Fused

namespace TexMath

/-- What a call for a token comes to that does not find the end. -/
abbrev Outcome := Except Fault (Located Token)

namespace Session

variable {ε δ : Type}

-- ================================================================= no expander

/-- The same step, taken on the lexer. -/
def Step.direct : Step → Step
  | .expanded => .token
  | .expandedTokens => .tokens
  | other => other

theorem step_direct (s : Session ε) (x : Step) : s.step x.direct = s.step x := by
  cases x with
  | expandedTokens =>
    show s.onLexer (s.lexer.collect []) .tokens = onExpander (s.expander.collect []) .tokens
    rw [Expander.collect_eq]
    rfl
  | _ => rfl

/-- Taking the expander away changes no run. -/
theorem run_direct (s : Session ε) (steps : List Step) :
    s.run (steps.map Step.direct) = s.run steps := by
  induction steps generalizing s with
  | nil => rfl
  | cons x steps ih => simp only [List.map_cons, run, step_direct, ih]

/-- The same session with another registry in its expander. -/
def withRegistry (s : Session ε) (other : Registry δ) : Session δ :=
  ⟨s.lexer, other⟩

theorem step_withRegistry (s : Session ε) (other : Registry δ) (x : Step) :
    (s.withRegistry other).step x = ((s.step x).1, (s.step x).2.withRegistry other) := by
  rw [← step_direct, ← step_direct s]
  cases x <;> rfl

/-- No run depends on the registry, or changes it. -/
theorem run_withRegistry (s : Session ε) (other : Registry δ) (steps : List Step) :
    (s.withRegistry other).run steps = ((s.run steps).1, (s.run steps).2.withRegistry other) := by
  induction steps generalizing s with
  | nil => rfl
  | cons x steps ih => simp only [run, step_withRegistry, ih]

-- =================================================================== one queue

/-- Who reads: a consumer of the lexer, or a consumer of its expander. -/
inductive Reader where
  | direct
  | expander

/-- What a reader asks for: a token, or all tokens that are left. -/
inductive Demand where
  | next
  | rest

/-- The step by which a reader makes a demand. -/
def Demand.step : Reader → Demand → Step
  | .direct, .next => .token
  | .direct, .rest => .tokens
  | .expander, .next => .expanded
  | .expander, .rest => .expandedTokens

/-- Takes the tokens up to the first fault, which replaces them, or up to
the end of the queue, in front of which the tokens `found` have been
taken, the last one first. -/
def drain (found : List (Located Token)) :
    List Outcome → Attempt (List Outcome) (List (Located Token))
  | [] => (.ok found.reverse, [])
  | .ok token :: later => drain (token :: found) later
  | .error fault :: later => (.error fault, later)

/-- Serves a demand from a queue of outcomes. -/
def Demand.serve : Demand → List Outcome → Attempt (List Outcome) Answer
  | .next, [] => (.ok (.token none), [])
  | .next, .ok token :: later => (.ok (.token (some token)), later)
  | .next, .error fault :: later => (.error fault, later)
  | .rest, queue => (drain [] queue).map .tokens

/-- Serves demands in order, and gives the answers with the queue that is
left. -/
def serve (queue : List Outcome) : List Demand → List (Except Fault Answer) × List Outcome
  | [] => ([], queue)
  | d :: demands =>
    let (answer, later) := d.serve queue
    let (answers, left) := serve later demands
    (answer :: answers, left)

/-- A fault takes the token in front of it from a reader that asks for
all, and the next one is served from behind it. -/
example (t u : Located Token) :
    serve [.ok t, .error (.source "lost"), .ok u] [.rest, .next]
      = ([.error (.source "lost"), .ok (.token (some u))], []) := rfl

/-- The tokens that an answer brings. -/
def received : Except Fault Answer → List (Located Token)
  | .ok (.token t) => t.toList
  | .ok (.tokens ts) => ts
  | _ => []

/-- The tokens among outcomes. -/
def arrivals (queue : List Outcome) : List (Located Token) :=
  queue.filterMap Except.toOption

variable {found tokens : List (Located Token)} {queue : List Outcome}

theorem arrivals_drain (h : (drain found queue).1 = .ok tokens) :
    tokens ++ arrivals (drain found queue).2 = found.reverse ++ arrivals queue := by
  fun_induction drain found queue with
  | case1 found =>
    cases h
    rfl
  | case2 found token later ih =>
    rw [ih h, List.reverse_cons, List.append_assoc]
    rfl
  | case3 found fault later => cases h

/-- A demand is served the tokens that it takes off the queue, unless it
asks for all of them and a fault is in the way. -/
theorem arrivals_demand (d : Demand) (queue : List Outcome)
    (h : d = .rest → (d.serve queue).1.isOk = true) :
    received (d.serve queue).1 ++ arrivals (d.serve queue).2 = arrivals queue := by
  cases d with
  | next =>
    cases queue with
    | nil => rfl
    | cons outcome later => cases outcome <;> rfl
  | rest =>
    have hok := h rfl
    simp only [Demand.serve] at hok ⊢
    cases hdrain : (drain [] queue).1 with
    | error fault =>
      simp only [Attempt.map, hdrain] at hok
      cases hok
    | ok tokens =>
      have htokens := arrivals_drain hdrain
      simp only [Attempt.map, hdrain]
      exact htokens

/-- Served in order, demands get every token of the queue once: those that
they are served, and then those that are left. -/
theorem arrivals_serve (queue : List Outcome) (demands : List Demand)
    (h : ∀ answer, (.rest, answer) ∈ demands.zip (serve queue demands).1 → answer.isOk = true) :
    (serve queue demands).1.flatMap received ++ arrivals (serve queue demands).2
      = arrivals queue := by
  induction demands generalizing queue with
  | nil => rfl
  | cons d demands ih =>
    have hfirst := arrivals_demand d queue fun hd => h _ (hd ▸ List.mem_cons_self)
    have hlater := ih (d.serve queue).2 fun answer hmem => h answer (List.mem_cons_of_mem _ hmem)
    rw [← hfirst, ← hlater, ← List.append_assoc]
    rfl

end Session

-- ================================================================== the lexer

namespace Lexer

open Session (drain)

variable {lexer later : Lexer}

/-- Behind the end there are no outcomes. -/
theorem outcomes_of_ended (h : lexer.chars.lookahead = .ended) : lexer.outcomes = [] :=
  outcomes_of_end (nextToken_of_ended h)

/-- A call for a token takes the first outcome. -/
theorem nextToken_serves (lexer : Lexer) :
    Session.Demand.next.serve lexer.outcomes
      = (lexer.nextToken.1.map .token, lexer.nextToken.2.outcomes) := by
  rcases hcall : lexer.nextToken with ⟨fault | (_ | token), later⟩
  · rw [outcomes_of_outcome (.error fault) hcall]
    rfl
  · rw [outcomes_of_end hcall, outcomes_of_ended (ended_of_nextToken hcall)]
    rfl
  · rw [outcomes_of_outcome (.ok token) hcall]
    rfl

/-- Taking all tokens takes the outcomes up to the first fault. -/
theorem collect_drains (found : List (Located Token)) (lexer : Lexer) :
    drain found lexer.outcomes = ((lexer.collect found).1, (lexer.collect found).2.outcomes) := by
  fun_induction collect found lexer with
  | case1 found lexer token later call ih =>
    rw [outcomes_of_outcome (.ok token) call]
    exact ih
  | case2 found lexer later call =>
    rw [outcomes_of_end call, outcomes_of_ended (ended_of_nextToken call)]
    rfl
  | case3 found lexer fault later call =>
    rw [outcomes_of_outcome (.error fault) call]
    rfl

end Lexer

-- =============================================================== several readers

namespace Session

variable {ε δ : Type}

/-- A demand is served from the outcomes of the lexer, whoever makes it. -/
theorem step_serves (s : Session ε) (reader : Reader) (d : Demand) :
    d.serve s.lexer.outcomes
      = ((s.step (d.step reader)).1, (s.step (d.step reader)).2.lexer.outcomes) := by
  have hdirect : (d.step reader).direct = d.step .direct := by
    cases reader <;> cases d <;> rfl
  rw [← step_direct, hdirect]
  cases d with
  | next => exact s.lexer.nextToken_serves
  | rest =>
    have hdrain := Lexer.collect_drains [] s.lexer
    show (drain [] s.lexer.outcomes).map Answer.tokens = _
    rw [hdrain]
    rfl

/-- Demands are served in order from the outcomes of the lexer, whoever
makes them. -/
theorem run_serves (s : Session ε) (demands : List (Reader × Demand)) :
    serve s.lexer.outcomes (demands.map Prod.snd)
      = ((s.run (demands.map fun (reader, d) => d.step reader)).1,
        (s.run (demands.map fun (reader, d) => d.step reader)).2.lexer.outcomes) := by
  induction demands generalizing s with
  | nil => rfl
  | cons first demands ih =>
    obtain ⟨reader, d⟩ := first
    simp only [List.map_cons, serve, run, s.step_serves reader d, ih]

/-- Taking the expander away changes no answer of a run and nothing of the
session that it leaves, the number of pulled characters included, and nor
does another registry in the expander; the registry itself is left as it
is. Readers on both sides of the expander that ask for tokens, one by one
or all that are left, are served from one queue in the order in which they
ask, the outcomes of the lexer: unless a demand for all of them fails,
they receive every token once and in order, up to those that are still
ahead. -/
theorem run_transparent (s : Session ε) :
    (∀ steps, s.run (steps.map Step.direct) = s.run steps)
    ∧ (∀ (other : Registry δ) (steps : List Step),
        (s.withRegistry other).run steps
          = ((s.run steps).1, (s.run steps).2.withRegistry other))
    ∧ (∀ steps, (s.run steps).2.registry = s.registry)
    ∧ ∀ demands : List (Reader × Demand),
        let r := s.run (demands.map fun (reader, d) => d.step reader)
        serve s.lexer.outcomes (demands.map Prod.snd) = (r.1, r.2.lexer.outcomes)
        ∧ ((∀ answer, (.rest, answer) ∈ (demands.map Prod.snd).zip r.1 → answer.isOk = true) →
            r.1.flatMap received ++ arrivals r.2.lexer.outcomes = arrivals s.lexer.outcomes) := by
  refine ⟨s.run_direct, s.run_withRegistry, fun steps => ?_, fun demands => ?_⟩
  · have hsame := s.run_withRegistry s.registry steps
    exact congrArg (fun r => r.2.registry) hsame
  · intro r
    have hserve := s.run_serves demands
    refine ⟨hserve, fun hrests => ?_⟩
    have harrivals := arrivals_serve s.lexer.outcomes (demands.map Prod.snd)
    rw [hserve] at harrivals
    exact harrivals hrests

end Session

end TexMath
