/-
Spans increase along every run, whoever reads.

# What is consumed

What a stream has not consumed, each character where it stands
(`CharStream.unconsumed`), starts out as the located text of its source,
and every step takes some characters off its front, whether the step
answers or fails (`CharStream.Consumes`). No rule about positions is
needed for that: the tracker has given the locations away before anybody
asks.

# What is handed out

A step hands out tokens, or a character, or nothing. For each of them it
consumes a block of characters that starts at the span handed out, and
only a step that fails consumes characters besides
(`Session.consumes_step`). So the spans of a whole run are some of the
spans of the text in their order (`Session.handedOut_sublist`), and in a
text each character stands behind the one before it
(`increasing_locate`), newlines, failures and lost tokens notwithstanding.
-/
import Mathlib.Data.List.Forall2
import TexMath.Proofs.Coordinates
import TexMath.Proofs.Transparency

namespace TexMath

-- =============================================================== consumption

namespace CharStream

variable {s t u : CharStream} {taken later : List (Located Char)}

/-- Between the states `s` and `t` of a run the characters `taken` have
been consumed, and no others. -/
def Consumes (s : CharStream) (taken : List (Located Char)) (t : CharStream) : Prop :=
  s.unconsumed = taken ++ t.unconsumed

theorem Consumes.trans (h : s.Consumes taken t) (h' : t.Consumes later u) :
    s.Consumes (taken ++ later) u := by
  unfold Consumes at *
  rw [h, h', List.append_assoc]

theorem consumes_step (s : CharStream) (x : Step) :
    s.Consumes (x.consumed? (s.step x).1).toList (s.step x).2 := by
  obtain ⟨events, h⟩ := s.accounts_step x
  exact h.unconsumed.symm

/-- Whatever run of steps has led from one state to the other, some
characters have been consumed. -/
theorem Reaches.consumes (h : s.Reaches t) : ∃ taken, s.Consumes taken t := by
  obtain ⟨steps, rfl⟩ := h
  obtain ⟨events, haccounts⟩ := s.accounts_run steps
  exact ⟨_, haccounts.unconsumed.symm⟩

theorem consumes_advance {c : Option (Located Char)} (h : s.advance = (.ok c, t)) :
    s.Consumes c.toList t := by
  have hstep := s.consumes_step .advance
  change s.Consumes (Step.advance.consumed? s.advance.1).toList s.advance.2 at hstep
  rw [h] at hstep
  exact hstep

/-- A test takes the character that it answers, and none when it refuses
one or the source fails. -/
theorem consumes_advanceIf {p : Char → Bool} {answer : Answer} (h : s.advanceIf p = (answer, t)) :
    s.Consumes (Step.advance.consumed? answer).toList t := by
  have hstep := s.consumes_step (.advanceIf fun c => .ok (p c))
  change s.Consumes ((Step.advanceIf _).consumed? (s.advanceIf p).1).toList (s.advanceIf p).2
    at hstep
  rw [h] at hstep
  cases answer <;> exact hstep

/-- The characters start with one that stands at the span. -/
def StartsAt (span : Span) (block : List (Located Char)) : Prop :=
  ∃ c more, block = c :: more ∧ c.span = span

/-- A call that gives a token consumes a block that starts where the token
stands. -/
theorem consumes_nextToken {token : Located Token} (h : s.nextToken = (.ok (some token), t)) :
    ∃ block, StartsAt token.span block ∧ s.Consumes block t := by
  rcases nextToken_cases h with ⟨hnone, -⟩ | ⟨c, u, read, hsome, hadvance, hread⟩
  · cases hnone
  · cases hsome
    obtain ⟨more, hmore⟩ := (reaches_tokenFrom c.val u).consumes
    rw [hread] at hmore
    exact ⟨c :: more, ⟨c, more, rfl, rfl⟩, (consumes_advance hadvance).trans hmore⟩

/-- A call that finds the end consumes nothing. -/
theorem consumes_nextToken_end (h : s.nextToken = (.ok none, t)) : s.Consumes [] t := by
  rcases nextToken_cases h with ⟨-, hadvance⟩ | ⟨c, u, read, hsome, -⟩
  · exact consumes_advance hadvance
  · cases hsome

end CharStream

open CharStream (StartsAt)

namespace Lexer

variable {lexer later : Lexer}

theorem consumes_nextToken {token : Located Token}
    (h : lexer.nextToken = (.ok (some token), later)) :
    ∃ block, StartsAt token.span block ∧ lexer.chars.Consumes block later.chars := by
  apply CharStream.consumes_nextToken
  exact Prod.ext (by rw [← nextToken_fst, h]) (by rw [← chars_nextToken, h])

theorem consumes_nextToken_end (h : lexer.nextToken = (.ok none, later)) :
    lexer.chars.Consumes [] later.chars := by
  apply CharStream.consumes_nextToken_end
  exact Prod.ext (by rw [← nextToken_fst, h]) (by rw [← chars_nextToken, h])

/-- Taking all tokens consumes a block for each of them. -/
theorem consumes_collect {found tokens : List (Located Token)}
    (h : lexer.collect found = (.ok tokens, later)) :
    ∃ more blocks, tokens = found.reverse ++ more
      ∧ List.Forall₂ StartsAt (more.map (·.span)) blocks
      ∧ lexer.chars.Consumes blocks.flatten later.chars := by
  fun_induction collect found lexer with
  | case1 found lexer token next call ih =>
    obtain ⟨block, hstart, hblock⟩ := consumes_nextToken call
    obtain ⟨more, blocks, rfl, hblocks, hrest⟩ := ih h
    refine ⟨token :: more, block :: blocks, ?_, .cons hstart hblocks, hblock.trans hrest⟩
    rw [List.reverse_cons, List.append_assoc]
    rfl
  | case2 found lexer next call =>
    cases h
    exact ⟨[], [], (List.append_nil _).symm, .nil, consumes_nextToken_end call⟩
  | case3 found lexer fault next call => cases h

end Lexer

-- ================================================================== sessions

namespace Session

variable {ε : Type}

/-- The spans of the tokens, or of the character, that an answer holds. -/
def Answer.spans : Answer → List Span
  | .token t => t.toList.map (·.span)
  | .tokens ts => ts.map (·.span)
  | .char c => c.toList.map (·.span)
  | .count _ | .done => []

/-- The spans that a step hands out when this is its answer. A peek shows
a character and hands out none. -/
def Step.handsOut : Step → Except Fault Answer → List Span
  | _, .error _ => []
  | .chars .peek, .ok _ => []
  | _, .ok answer => answer.spans

/-- The spans that are handed out in a run, in order. -/
def handedOut (s : Session ε) (steps : List Step) : List Span :=
  (List.zipWith Step.handsOut steps (s.run steps).1).flatten

theorem handedOut_cons (s : Session ε) (x : Step) (steps : List Step) :
    s.handedOut (x :: steps) = x.handsOut (s.step x).1 ++ (s.step x).2.handedOut steps := rfl

/-- The step `x` of `s` consumes a block for everything that it hands out,
which starts at the span handed out. What it consumes besides is lost, and
only a step that fails loses anything. -/
def ConsumesBlocks (s : Session ε) (x : Step) : Prop :=
  ∃ blocks lost, List.Forall₂ StartsAt (x.handsOut (s.step x).1) blocks
    ∧ s.lexer.chars.Consumes (blocks.flatten ++ lost) (s.step x).2.lexer.chars
    ∧ ((s.step x).1.isOk = true → lost = [])

variable {s : Session ε} {x : Step}

theorem consumesBlocks_of_error {fault : Fault} (hx : x ≠ .restart)
    (h : (s.step x).1 = .error fault) : s.ConsumesBlocks x := by
  obtain ⟨lost, hlost⟩ := (s.reaches_step hx).consumes
  refine ⟨[], lost, ?_, hlost, ?_⟩
  · rw [h]
    cases x <;> exact .nil
  · rw [h]
    exact nofun

theorem consumesBlocks_of_ok {answer : Answer} {spans : List Span}
    {blocks : List (List (Located Char))} (h : (s.step x).1 = .ok answer)
    (hspans : x.handsOut (.ok answer) = spans) (hstarts : List.Forall₂ StartsAt spans blocks)
    (hblocks : s.lexer.chars.Consumes blocks.flatten (s.step x).2.lexer.chars) :
    s.ConsumesBlocks x := by
  refine ⟨blocks, [], ?_, ?_, fun _ => rfl⟩
  · rw [h, hspans]
    exact hstarts
  · rw [List.append_nil]
    exact hblocks

theorem handsOut_direct (x : Step) (answer : Except Fault Answer) :
    x.direct.handsOut answer = x.handsOut answer := by
  cases x <;> cases answer <;> rfl

theorem consumesBlocks_of_direct (h : s.ConsumesBlocks x.direct) : s.ConsumesBlocks x := by
  unfold ConsumesBlocks at *
  rwa [step_direct, handsOut_direct] at h

theorem consumesBlocks_token (s : Session ε) : s.ConsumesBlocks .token := by
  rcases hcall : s.lexer.nextToken with ⟨fault | (_ | token), later⟩
  · have hx : Step.token ≠ .restart := nofun
    apply consumesBlocks_of_error hx
    simp only [step, onLexer, hcall]
    rfl
  · have hanswer : (s.step .token).1 = .ok (.token none) := by
      simp only [step, onLexer, hcall]
      rfl
    apply consumesBlocks_of_ok hanswer rfl .nil
    simp only [step, onLexer, hcall]
    exact Lexer.consumes_nextToken_end hcall
  · obtain ⟨block, hstart, hblock⟩ := Lexer.consumes_nextToken hcall
    have hanswer : (s.step .token).1 = .ok (.token (some token)) := by
      simp only [step, onLexer, hcall]
      rfl
    apply consumesBlocks_of_ok hanswer rfl (.cons hstart .nil)
    simp only [step, onLexer, hcall, List.flatten_singleton]
    exact hblock

theorem consumesBlocks_tokens (s : Session ε) : s.ConsumesBlocks .tokens := by
  rcases hcall : s.lexer.collect [] with ⟨fault | tokens, later⟩
  · have hx : Step.tokens ≠ .restart := nofun
    apply consumesBlocks_of_error hx
    simp only [step, Lexer.rest, onLexer, hcall]
    rfl
  · obtain ⟨more, blocks, htokens, hspans, hblocks⟩ := Lexer.consumes_collect hcall
    have hanswer : (s.step .tokens).1 = .ok (.tokens more) := by
      simp only [step, Lexer.rest, onLexer, hcall, htokens]
      rfl
    apply consumesBlocks_of_ok hanswer rfl hspans
    simp only [step, Lexer.rest, onLexer, hcall]
    exact hblocks

/-- A step of the stream consumes the character that it hands out. -/
theorem consumesBlocks_of_char {r : Attempt CharStream (Option (Located Char))}
    (hx : x ≠ .restart) (hstep : s.step x = s.onChars r .char)
    (hok : ∀ c, r.1 = .ok c → ∃ taken : Option (Located Char),
      x.handsOut (.ok (.char c)) = taken.toList.map (·.span)
        ∧ s.lexer.chars.Consumes taken.toList r.2) : s.ConsumesBlocks x := by
  obtain ⟨answer, chars⟩ := r
  cases answer with
  | error fault =>
    have hanswer : (s.step x).1 = .error fault := by
      rw [hstep]
      rfl
    exact consumesBlocks_of_error hx hanswer
  | ok c =>
    obtain ⟨taken, hspans, htaken⟩ := hok c rfl
    have hanswer : (s.step x).1 = .ok (.char c) := by
      rw [hstep]
      rfl
    cases taken with
    | none =>
      apply consumesBlocks_of_ok hanswer hspans .nil
      rw [hstep]
      exact htaken
    | some d =>
      apply consumesBlocks_of_ok hanswer hspans (.cons ⟨d, [], rfl, rfl⟩ .nil)
      rw [hstep]
      exact htaken

/-- Asking for an announced length consumes nothing. -/
theorem consumesBlocks_of_count {r : Except Fault Nat} (hx : x ≠ .restart)
    (hstep : s.step x = (r.map .count, s)) : s.ConsumesBlocks x := by
  cases r with
  | error fault =>
    have hanswer : (s.step x).1 = .error fault := by rw [hstep]; rfl
    exact consumesBlocks_of_error hx hanswer
  | ok n =>
    have hanswer : (s.step x).1 = .ok (.count n) := by rw [hstep]; rfl
    have hspans : x.handsOut (.ok (.count n)) = [] := by
      cases x with
      | chars y => cases y <;> rfl
      | _ => rfl
    apply consumesBlocks_of_ok hanswer hspans .nil
    rw [hstep]
    rfl

/-- Every step consumes a block for everything that it hands out. -/
theorem consumes_step (s : Session ε) (hx : x ≠ .restart) : s.ConsumesBlocks x := by
  cases x with
  | token => exact s.consumesBlocks_token
  | tokens => exact s.consumesBlocks_tokens
  | expanded => exact consumesBlocks_of_direct s.consumesBlocks_token
  | expandedTokens => exact consumesBlocks_of_direct s.consumesBlocks_tokens
  | restart => exact absurd rfl hx
  | chars y =>
    refine consumesBlocks_of_char hx rfl fun c hc => ⟨y.consumed? (.ok c), ?_, ?_⟩
    · cases y <;> rfl
    · have hstep := s.lexer.chars.consumes_step y
      rwa [hc] at hstep
  | hint => exact consumesBlocks_of_count hx rfl
  | charHint => exact consumesBlocks_of_count hx rfl

-- ====================================================================== runs

theorem sublist_of_startsAt {spans : List Span} {blocks : List (List (Located Char))}
    (h : List.Forall₂ StartsAt spans blocks) :
    spans.Sublist (blocks.flatten.map (·.span)) := by
  induction h with
  | nil => exact .slnil
  | @cons span block spans blocks hstart _ ih =>
    obtain ⟨c, more, rfl, rfl⟩ := hstart
    rw [List.flatten_cons, List.map_append]
    exact .cons_cons c.span (ih.trans (List.sublist_append_right _ _))

/-- The spans handed out in a run are some of those of the characters that
it consumes, in their order. -/
theorem handedOut_sublist (s : Session ε) {steps : List Step} (h : .restart ∉ steps) :
    ∃ taken, s.lexer.chars.Consumes taken (s.run steps).2.lexer.chars
      ∧ (s.handedOut steps).Sublist (taken.map (·.span)) := by
  induction steps generalizing s with
  | nil => exact ⟨[], rfl, .slnil⟩
  | cons x steps ih =>
    have hx : x ≠ .restart := fun hx => h (hx ▸ List.mem_cons_self)
    obtain ⟨blocks, lost, hspans, hstep, -⟩ := s.consumes_step hx
    obtain ⟨later, hlater, hsublist⟩ :=
      ih (s.step x).2 fun hmem => h (List.mem_cons_of_mem x hmem)
    refine ⟨blocks.flatten ++ lost ++ later, hstep.trans hlater, ?_⟩
    rw [handedOut_cons, List.map_append, List.map_append]
    exact ((sublist_of_startsAt hspans).trans (List.sublist_append_left _ _)).append hsublist

/-- Whatever consumers do to one lexer over a source, directly or through
the expander, the spans of the tokens and characters that are handed out
increase strictly, and their lines and columns count from one. At any
point of it a step that answers consumes as many blocks of characters as
it hands out tokens or characters, each of them located where its block
starts; a step that fails hands out nothing, and what it consumes is
lost. -/
theorem run_increases (events : List Event) (debug : Bool) (registry : Registry ε)
    {steps : List Step} (h : .restart ∉ steps) :
    let s := ofSource (.ofEvents events .exact) debug registry
    (s.handedOut steps).Pairwise (· < ·)
    ∧ (∀ span ∈ s.handedOut steps, 1 ≤ span.line ∧ 1 ≤ span.column)
    ∧ ∀ x ≠ .restart, (s.run steps).2.ConsumesBlocks x := by
  intro s
  obtain ⟨taken, htaken, hsublist⟩ := s.handedOut_sublist h
  have hwhole : s.lexer.chars.unconsumed = locate .origin (Event.handed events) := rfl
  have hall : (s.handedOut steps).Sublist
      ((locate .origin (Event.handed events)).map (·.span)) := by
    rw [← hwhole, htaken, List.map_append]
    exact hsublist.trans (List.sublist_append_left _ _)
  refine ⟨(increasing_locate _ _).sublist hall, fun span hspan => ?_,
    fun x hx => (s.run steps).2.consumes_step hx⟩
  obtain ⟨c, hc, rfl⟩ := List.mem_map.1 (hall.subset hspan)
  obtain ⟨pre, -, -, hpre⟩ := exists_of_mem_locate hc
  rw [hpre]
  exact Span.positive_afterAll ⟨Int.le_refl 1, Int.le_refl 1⟩ pre

/-- A newline as the name of a control sequence, a peek that fails, and a
blank that is lost with its token. -/
theorem run_increases_lost :
    let s := ofSource (.ofEvents [.char '\\', .char '\n', .fail "peek", .char ' ', .fail "blank",
      .char 'a'] .exact) false (Registry.empty : Registry Unit)
    let steps : List Step := [.expanded, .chars .peek, .token, .chars .advance]
    .restart ∉ steps
    ∧ s.handedOut steps = [⟨1, 1⟩, ⟨2, 2⟩]
    ∧ ([⟨1, 1⟩, ⟨2, 2⟩] : List Span).Pairwise (· < ·)
    ∧ (s.run steps).2.ConsumesBlocks .expandedTokens := by
  intro s steps
  have hsteps : .restart ∉ steps := by simp [steps]
  have hspans : s.handedOut steps = [⟨1, 1⟩, ⟨2, 2⟩] := by decide +kernel
  obtain ⟨hincreasing, -, hblocks⟩ := run_increases [.char '\\', .char '\n', .fail "peek",
    .char ' ', .fail "blank", .char 'a'] false (Registry.empty : Registry Unit) hsteps
  refine ⟨hsteps, hspans, ?_, hblocks .expandedTokens nofun⟩
  rw [← hspans]
  exact hincreasing

end Session

end TexMath
