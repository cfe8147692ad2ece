/-
What a lexer logs, and what its tokens report.

# One log

A call that answers with a token logs the record of that token, if it has
one; the end and the faults are not logged (`Lexer.log_nextToken`). So the
log of any run of calls is read off the answers (`Lexer.log_after`), those
in front of a failing call and those behind it alike. Taking all tokens is
such a run of calls, up to the first that gives no token
(`Lexer.collect_of_callsUntil`).

# One report

A lexical error is reported three times over: as a token, as a record and
as a diagnostic. The record says what the diagnostic says
(`Lexer.filterMap_record?`), and there is one exactly for a `#` that starts
a token and has no digit behind it: the grammar has no other rule for an
error, and no other rule for such a `#` (`Munch.isError_iff`).
-/
import TexMath.Diagnostic
import TexMath.Proofs.Laziness

namespace TexMath

open Text

-- ================================================================== records

/-- The record of a message about a location. -/
def Lexer.recordOf (message : String) (span : Span) : Log.Record :=
  ⟨.debug, "watex.lexer", message ++ " at " ++ span.text⟩

/-- The record that says what the diagnostic says. -/
def Diagnostic.record (d : Diagnostic) : Log.Record :=
  Lexer.recordOf d.message d.span

namespace Lexer

/-- The record of a token when every token has one: what its diagnostic
says, and the token itself when it has none. -/
def recordOfToken (token : Located Token) : Log.Record :=
  match Diagnostic.ofToken? token with
  | some d => d.record
  | none => recordOf token.val.display token.span

/-- The records of some tokens in order: one for each token when tokens
are logged, and else one for each of their diagnostics. -/
def records (debug : Bool) (tokens : List (Located Token)) : List Log.Record :=
  if debug then tokens.map recordOfToken
  else (Diagnostic.collect tokens).map Diagnostic.record

theorem record?_debug (token : Located Token) :
    record? true token = some (recordOfToken token) := by
  obtain ⟨t, span⟩ := token
  cases t <;> rfl

theorem record?_quiet (token : Located Token) :
    record? false token = (Diagnostic.ofToken? token).map Diagnostic.record := by
  obtain ⟨t, span⟩ := token
  cases t <;> rfl

theorem filterMap_record? (debug : Bool) (tokens : List (Located Token)) :
    tokens.filterMap (record? debug) = records debug tokens := by
  cases debug with
  | true =>
    rw [funext record?_debug, List.filterMap_eq_map']
    rfl
  | false =>
    rw [funext record?_quiet, ← List.map_filterMap]
    rfl

theorem records_append (debug : Bool) (tokens more : List (Located Token)) :
    records debug (tokens ++ more) = records debug tokens ++ records debug more := by
  simp only [← filterMap_record?, List.filterMap_append]

/-- The records of the errors are some of the records of all tokens, in
their order. -/
theorem records_sublist (tokens : List (Located Token)) :
    (records false tokens).Sublist (records true tokens) := by
  induction tokens with
  | nil => exact .slnil
  | cons token tokens ih =>
    rw [← filterMap_record?, ← filterMap_record?] at *
    rw [List.filterMap_cons, List.filterMap_cons, record?_debug, record?_quiet]
    unfold recordOfToken
    cases Diagnostic.ofToken? token with
    | none => exact .cons _ ih
    | some d => exact .cons_cons _ ih

-- ==================================================================== calls

/-- The token that a call answers with, if it does. -/
def answered? : Except Fault (Option (Located Token)) → Option (Located Token)
  | .ok token? => token?
  | .error _ => none

theorem debug_nextToken (lexer : Lexer) : lexer.nextToken.2.debug = lexer.debug := by
  unfold nextToken
  split
  · unfold logged
    split <;> rfl
  · rfl
  · rfl

theorem log_logged (lexer : Lexer) (token : Located Token) :
    (lexer.logged token).log.toList = lexer.log.toList ++ (record? lexer.debug token).toList := by
  unfold logged
  cases record? lexer.debug token with
  | none => exact (List.append_nil _).symm
  | some record => exact Array.toList_push

/-- A call logs the record of the token it answers with, and nothing when
it fails or finds the end. -/
theorem log_nextToken (lexer : Lexer) :
    lexer.nextToken.2.log.toList
      = lexer.log.toList ++ records lexer.debug (answered? lexer.nextToken.1).toList := by
  rw [← filterMap_record?]
  unfold nextToken
  rcases lexer.chars.nextToken with ⟨fault | (_ | token), chars⟩
  · exact (List.append_nil _).symm
  · exact (List.append_nil _).symm
  · exact log_logged { lexer with chars } token

/-- Behind some calls the log has the records of the tokens they have
answered with, whichever of them have failed. -/
theorem log_after (lexer : Lexer) (k : Nat) :
    (lexer.after k).log.toList
      = lexer.log.toList ++ records lexer.debug ((lexer.calls k).filterMap answered?) := by
  induction k generalizing lexer with
  | zero => simp [after, calls, ← filterMap_record?]
  | succ k ih =>
    have hcalls : lexer.calls (k + 1) = [lexer.nextToken.1] ++ lexer.nextToken.2.calls k := rfl
    have hfirst : [lexer.nextToken.1].filterMap answered? = (answered? lexer.nextToken.1).toList :=
      rfl
    show (lexer.nextToken.2.after k).log.toList = _
    rw [ih, log_nextToken, debug_nextToken, hcalls, List.filterMap_append, hfirst, records_append,
      List.append_assoc]

/-- The outcomes of calls that give these tokens, and of the call behind
them, which finds the end or fails. -/
def callsUntil (tokens : List (Located Token)) (stop : Except Fault Unit) :
    List (Except Fault (Option (Located Token))) :=
  tokens.map (fun token => .ok (some token)) ++ [stop.map fun _ => none]

theorem filterMap_answered? (tokens : List (Located Token)) :
    (tokens.map fun token => Except.ok (some token)).filterMap answered? = tokens := by
  rw [List.filterMap_map]
  exact List.filterMap_some

/-- Behind the last token, and behind the call that gives none, the log has
the records of the tokens. -/
theorem log_of_callsUntil {lexer : Lexer} {tokens : List (Located Token)}
    {stop : Except Fault Unit} (h : lexer.calls (tokens.length + 1) = callsUntil tokens stop) :
    (lexer.after tokens.length).log.toList = lexer.log.toList ++ records lexer.debug tokens
      ∧ (lexer.after (tokens.length + 1)).log.toList
          = lexer.log.toList ++ records lexer.debug tokens := by
  have hstop : [stop.map fun _ => none].filterMap answered? = [] := by cases stop <;> rfl
  have hbefore : lexer.calls tokens.length = tokens.map fun token => .ok (some token) := by
    rw [calls_succ] at h
    exact (List.append_inj' h rfl).1
  constructor
  · rw [log_after, hbefore, filterMap_answered?]
  · rw [log_after, h, callsUntil, List.filterMap_append, filterMap_answered?, hstop,
      List.append_nil]

/-- Calls give tokens up to one that gives none. -/
theorem exists_callsUntil (lexer : Lexer) :
    ∃ tokens stop, lexer.calls (tokens.length + 1) = callsUntil tokens stop := by
  fun_induction collect [] lexer with
  | case1 found lexer token later call ih =>
    obtain ⟨tokens, stop, hcalls⟩ := ih
    refine ⟨token :: tokens, stop, ?_⟩
    show lexer.nextToken.1 :: lexer.nextToken.2.calls (tokens.length + 1) = _
    rw [call, hcalls]
    rfl
  | case2 found lexer later call =>
    refine ⟨[], .ok (), ?_⟩
    show [lexer.nextToken.1] = _
    rw [call]
    rfl
  | case3 found lexer fault later call =>
    refine ⟨[], .error fault, ?_⟩
    show [lexer.nextToken.1] = _
    rw [call]
    rfl

/-- Taking all tokens is calling for them up to the call that gives none. -/
theorem collect_of_callsUntil {lexer : Lexer} {tokens : List (Located Token)}
    {stop : Except Fault Unit} (found : List (Located Token))
    (h : lexer.calls (tokens.length + 1) = callsUntil tokens stop) :
    lexer.collect found
      = (stop.map fun _ => found.reverse ++ tokens, lexer.after (tokens.length + 1)) := by
  induction tokens generalizing lexer found with
  | nil =>
    have hcall : lexer.nextToken = (stop.map fun _ => none, lexer.nextToken.2) :=
      Prod.ext (List.cons.inj h).1 rfl
    rw [collect.eq_def, hcall, List.append_nil]
    cases stop <;> rfl
  | cons token tokens ih =>
    obtain ⟨hfirst, hlater⟩ := List.cons.inj h
    have hcall : lexer.nextToken = (.ok (some token), lexer.nextToken.2) := Prod.ext hfirst rfl
    rw [collect.eq_def, hcall]
    refine (ih (token :: found) hlater).trans ?_
    rw [List.reverse_cons, List.append_assoc]
    rfl

/-- Calls over a string answer the same whether tokens are logged or not. -/
theorem calls_ofString (code : String) (debug : Bool) (n : Nat) :
    (ofString code debug).calls n = (ofString code false).calls n := by
  have hstart (debug : Bool) : (ofString code debug).chars.Coherent :=
    CharStream.coherent_ofSource _
  exact (calls_eq (hstart debug) n).trans (calls_eq (hstart false) n).symm

/-- Over a string the calls give the tokens up to a call that gives none,
which ends as `tokenize` does. Taking all tokens makes these calls, and the
last one logs nothing. -/
theorem exists_log_rest (code : String) :
    ∃ tokens stop, tokenize code = stop.map (fun _ => tokens)
      ∧ ∀ debug, let lexer := ofString code debug
        lexer.calls (tokens.length + 1) = callsUntil tokens stop
        ∧ lexer.rest = (stop.map fun _ => tokens, lexer.after (tokens.length + 1))
        ∧ (lexer.after tokens.length).log.toList = records debug tokens
        ∧ lexer.rest.2.log.toList = records debug tokens := by
  obtain ⟨tokens, stop, hstop⟩ := exists_callsUntil (ofString code false)
  have hcalls (debug : Bool) :
      (ofString code debug).calls (tokens.length + 1) = callsUntil tokens stop :=
    (calls_ofString code debug _).trans hstop
  have hrest (debug : Bool) := collect_of_callsUntil [] (hcalls debug)
  refine ⟨tokens, stop, congrArg Prod.fst (hrest false), fun debug => ?_⟩
  obtain ⟨hbefore, hbehind⟩ := log_of_callsUntil (hcalls debug)
  refine ⟨hcalls debug, hrest debug, hbefore, ?_⟩
  show ((ofString code debug).collect []).2.log.toList = _
  rw [hrest]
  exact hbehind

end Lexer

-- ============================================================== diagnostics

/-- A lexeme reads as an error exactly when it starts with a `#` that has
no digit behind it. -/
theorem Munch.isError_iff {r w : List Char} {t : Token} (h : Munch r w t) :
    t.isError = true
      ↔ ∃ post, r = '#' :: post ∧ ∀ c ∈ post.head?, isDigit c = false := by
  cases h with
  | illegal post hpost => exact iff_of_true rfl ⟨post, rfl, hpost⟩
  | number c rest hdigit =>
    refine iff_of_false nofun ?_
    rintro ⟨post, hr, hpost⟩
    cases hr
    rw [hpost c rfl] at hdigit
    cases hdigit
  | blank c rest hblank =>
    refine iff_of_false nofun ?_
    rintro ⟨post, hr, -⟩
    cases hr
    exact absurd hblank (by decide)
  | char c rest _ hplain =>
    refine iff_of_false nofun ?_
    rintro ⟨post, hr, -⟩
    cases hr
    exact hplain (by decide)
  | _ =>
    refine iff_of_false nofun ?_
    rintro ⟨post, hr, -⟩
    cases hr

/-- At the span the text has a `#` without a digit behind it. -/
def IllegalMarkerAt (text : List Char) (span : Span) : Prop :=
  ∃ pre post, text = pre ++ '#' :: post ∧ span = Span.origin.afterAll pre
    ∧ ∀ c ∈ post.head?, isDigit c = false

namespace Diagnostic

theorem exists_mem_collect_iff {tokens : List (Located Token)} {span : Span} :
    (∃ d ∈ collect tokens, d.span = span)
      ↔ ∃ token ∈ tokens, token.span = span ∧ token.val.isError = true := by
  unfold collect
  constructor
  · rintro ⟨d, hd, rfl⟩
    obtain ⟨⟨t, s⟩, htoken, hof⟩ := List.mem_filterMap.1 hd
    cases t with
    | error cause =>
      cases hof
      exact ⟨_, htoken, rfl, rfl⟩
    | _ => cases hof
  · rintro ⟨⟨t, s⟩, htoken, rfl, herror⟩
    cases t with
    | error cause => exact ⟨_, List.mem_filterMap.2 ⟨_, htoken, rfl⟩, rfl⟩
    | _ => cases herror

/-- The tokens of a string have a diagnostic at a location exactly when one
of them starts there with a `#` that has no digit behind it. -/
theorem exists_mem_collect_tokenize_iff {code : String} {tokens : List (Located Token)}
    (h : tokenize code = .ok tokens) (span : Span) :
    (∃ d ∈ collect tokens, d.span = span)
      ↔ (∃ token ∈ tokens, token.span = span) ∧ IllegalMarkerAt code.toList span := by
  have hreadings := tokenize_eq_ok_iff.1 h
  rw [exists_mem_collect_iff]
  constructor
  · rintro ⟨token, htoken, rfl, herror⟩
    obtain ⟨pre, rest, w, hcode, hmunch, hspan⟩ := Lexeme.exists_munch_of_mem hreadings htoken
    obtain ⟨post, rfl, hpost⟩ := hmunch.isError_iff.1 herror
    exact ⟨⟨token, htoken, rfl⟩, pre, post, hcode, hspan, hpost⟩
  · rintro ⟨⟨token, htoken, rfl⟩, pre, post, hcode, hspan, hpost⟩
    obtain ⟨pre', rest, w, hcode', hmunch, hspan'⟩ := Lexeme.exists_munch_of_mem hreadings htoken
    -- one location is one place of the text, so that the token starts with the `#`
    rw [hcode] at hcode'
    obtain rfl := Span.eq_of_afterAll_eq hcode' (hspan.symm.trans hspan')
    have hrest : rest = '#' :: post := (List.append_cancel_left hcode').symm
    exact ⟨token, htoken, rfl, hmunch.isError_iff.2 ⟨post, hrest, hpost⟩⟩

end Diagnostic

-- ============================================================= whole strings

/-- Over a string that has tokens the logs, the diagnostics and the tokens
report the same errors: the tokens do not depend on whether they are
logged, the log has the diagnostics, or every token with the diagnostics
among them, the tokens that come through an expander have the same
diagnostics, and these stand where a token starts with a `#` that has no
digit behind it. Over a string that has none, the tokens in front of the
call that fails have been logged, and that call logs nothing. At any point
of any calls the log has the records of the tokens given so far. -/
theorem reports_agree (code : String) :
    (∀ tokens, tokenize code = .ok tokens →
      (∀ debug, (Lexer.ofString code debug).rest.1 = .ok tokens)
      ∧ (Lexer.ofString code false).rest.2.log.toList
          = (Diagnostic.collect tokens).map Diagnostic.record
      ∧ (Lexer.ofString code true).rest.2.log.toList = tokens.map Lexer.recordOfToken
      ∧ (Lexer.ofString code false).rest.2.log.toList.Sublist
          (Lexer.ofString code true).rest.2.log.toList
      ∧ (∀ (ε : Type) (registry : Registry ε) (debug : Bool),
          (Expander.mk (.ofString code debug) registry).rest.1.map Diagnostic.collect
            = .ok (Diagnostic.collect tokens))
      ∧ ∀ span, (∃ d ∈ Diagnostic.collect tokens, d.span = span)
          ↔ (∃ token ∈ tokens, token.span = span) ∧ IllegalMarkerAt code.toList span)
    ∧ (∀ fault, tokenize code = .error fault → ∃ tokens, ∀ debug,
        let lexer := Lexer.ofString code debug
        lexer.calls (tokens.length + 1) = Lexer.callsUntil tokens (.error fault)
        ∧ lexer.rest = (.error fault, lexer.after (tokens.length + 1))
        ∧ (lexer.after tokens.length).log.toList = Lexer.records debug tokens
        ∧ lexer.rest.2.log.toList = Lexer.records debug tokens)
    ∧ ∀ debug k, ((Lexer.ofString code debug).after k).log.toList
        = Lexer.records debug (((Lexer.ofString code debug).calls k).filterMap Lexer.answered?) := by
  obtain ⟨all, stop, htokenize, hlog⟩ := Lexer.exists_log_rest code
  refine ⟨fun tokens h => ?_, fun fault h => ⟨all, fun debug => ?_⟩, fun debug k => ?_⟩
  · obtain ⟨rfl, rfl⟩ : stop = .ok () ∧ all = tokens := by
      rw [htokenize] at h
      cases stop <;> cases h
      exact ⟨rfl, rfl⟩
    have hanswer (debug : Bool) : (Lexer.ofString code debug).rest.1 = .ok all :=
      congrArg Prod.fst (hlog debug).2.1
    have hquiet := (hlog false).2.2.2
    have hdebug := (hlog true).2.2.2
    refine ⟨hanswer, hquiet, hdebug, ?_, fun ε registry debug => ?_,
      Diagnostic.exists_mem_collect_tokenize_iff h⟩
    · rw [hquiet, hdebug]
      exact Lexer.records_sublist all
    · have hforwarded : (Expander.mk (.ofString code debug) registry).rest.1
          = (Lexer.ofString code debug).rest.1 :=
        congrArg Prod.fst (Expander.collect_eq [] ⟨.ofString code debug, registry⟩)
      rw [hforwarded, hanswer]
      rfl
  · obtain rfl : stop = .error fault := by
      rw [htokenize] at h
      cases stop <;> cases h
      rfl
    exact hlog debug
  · exact Lexer.log_after _ k

/-- The first `#` has swallowed a newline, and the second one a digit. -/
theorem reports_agree_swallowed :
    tokenize "a#\n#1" = .ok
        [⟨.char "a", ⟨1, 1⟩⟩, ⟨.error ⟨"#"⟩, ⟨1, 2⟩⟩, ⟨.arg 1, ⟨2, 1⟩⟩]
      ∧ (Lexer.ofString "a#\n#1" false).rest.2.log.toList.map (·.message)
        = ["Illegal character '#' at line 1, column 2"]
      ∧ (Lexer.ofString "a#\n#1" true).rest.2.log.toList.map (·.message)
        = ["Token(CHAR, 'a') at line 1, column 1", "Illegal character '#' at line 1, column 2",
          "Token(ARG, 1) at line 2, column 1"]
      ∧ IllegalMarkerAt "a#\n#1".toList ⟨1, 2⟩
      ∧ ¬ IllegalMarkerAt "a#\n#1".toList ⟨2, 1⟩ := by
  have h : tokenize "a#\n#1" = .ok
      [⟨.char "a", ⟨1, 1⟩⟩, ⟨.error ⟨"#"⟩, ⟨1, 2⟩⟩, ⟨.arg 1, ⟨2, 1⟩⟩] := by
    decide +kernel
  obtain ⟨-, hquiet, hdebug, -, -, hwhere⟩ := (reports_agree "a#\n#1").1 _ h
  refine ⟨h, ?_, ?_, ((hwhere ⟨1, 2⟩).1 (by decide)).2, fun hmarker => ?_⟩
  · rw [hquiet]
    decide +kernel
  · rw [hdebug]
    decide +kernel
  · have hdiagnostic := (hwhere ⟨2, 1⟩).2 ⟨by decide, hmarker⟩
    exact absurd hdiagnostic (by decide)

end TexMath
