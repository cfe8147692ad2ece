/-
Responses: what a run writes, in terms of the tokens of its source.

# Before the tokens

The lexer of the program answers what `tokenize` answers, whether it logs
its tokens or not (`Lexer.rest_ofString_fst`). What it logs is of the
least grave level (`Lexer.level_of_mem_collect`), so none of it is seen
from a graver one (`filter_lexingEntries`).

# Behind the tokens

The diagnostics of a string's own tokens can always be printed
(`exists_renderAll`), so a source that has tokens has one response
(`respondToText_of_ok`), and a source that has none fails in front of all
output (`respondToText_of_error`).

# Sources

The options decide how a text is answered. Where there is none, because
its bytes cannot be had or encode none, of the options only the name of
the source matters (`respondInFull_cases`).
-/
import TexMath.CommandLine.Response
import TexMath.Proofs.Caret
import TexMath.Proofs.Decoding
import TexMath.Proofs.Outcomes

namespace TexMath

-- =============================================================== the lexer

namespace Lexer

/-- A lexer answers the same whether it logs its tokens or not. -/
theorem rest_ofString_fst (code : String) (debug : Bool) :
    (ofString code debug).rest.1 = tokenize code := by
  cases h : tokenize code with
  | ok tokens => rw [rest_eq_ok_iff, outcomes_ofString, ← tokenize_eq_ok_iff, h]
  | error fault =>
    have hfault := tokenize_eq_error_iff.1 h
    unfold Lexeme.fault? at hfault
    unfold rest
    rw [collect_eq_error_iff, outcomes_ofString, Lexeme.findSome?_readings, hfault]

theorem level_of_record? {debug : Bool} {token : Located Token} {r : Log.Record}
    (h : record? debug token = some r) : r.level = .debug := by
  unfold record? at h
  split at h
  · cases h
    rfl
  · split at h <;> cases h
    rfl

theorem level_of_mem_nextToken {lexer : Lexer} (h : ∀ r ∈ lexer.log, r.level = .debug) :
    ∀ r ∈ lexer.nextToken.2.log, r.level = .debug := by
  intro r hr
  unfold nextToken at hr
  split at hr
  · next token chars _ =>
    unfold logged at hr
    split at hr
    · next record hrecord =>
      rcases Array.mem_push.1 hr with hold | rfl
      · exact h r hold
      · exact level_of_record? hrecord
    · exact h r hr
  · exact h r hr
  · exact h r hr

/-- All that a lexer logs is of the least grave level. -/
theorem level_of_mem_collect (lexer : Lexer) (found : List (Located Token))
    (h : ∀ r ∈ lexer.log, r.level = .debug) :
    ∀ r ∈ (lexer.collect found).2.log, r.level = .debug := by
  have hnext := level_of_mem_nextToken h
  fun_induction collect found lexer with
  | case1 found lexer token later call ih =>
    rw [call] at hnext
    exact ih hnext (level_of_mem_nextToken hnext)
  | case2 found lexer later call =>
    rw [call] at hnext
    exact hnext
  | case3 found lexer fault later call =>
    rw [call] at hnext
    exact hnext

end Lexer

-- ============================================================= diagnostics

/-- The diagnostics of a string's own tokens can be printed. -/
theorem exists_renderAll {code : String} {tokens : List (Located Token)}
    (h : tokenize code = .ok tokens) :
    ∃ text, Diagnostic.renderAll code (Diagnostic.collect tokens) = .ok text := by
  have herrors : ∀ token ∈ tokens, ∀ cause, token.val = .error cause →
      ∃ block, token.span.highlight code cause.message = .ok block
        ∧ CaretUnder code.toList token.span block.toList := by
    intro token htoken cause hcause
    obtain ⟨rfl, pre, post, hcode, hspan⟩ :=
      Lexeme.exists_marker_of_error (tokenize_eq_ok_iff.1 h) htoken hcause
    rw [hspan]
    exact exists_highlight_marker hcode
  obtain ⟨blocks, hblocks, -⟩ := exists_blocks herrors
  exact ⟨String.join blocks, by rw [Diagnostic.renderAll, hblocks]; rfl⟩

/-- There are diagnostics when there are errors. -/
theorem not_isEmpty_collect (tokens : List (Located Token)) :
    (!(Diagnostic.collect tokens).isEmpty) = tokens.any (·.val.isError) := by
  induction tokens with
  | nil => rfl
  | cons token tokens ih =>
    obtain ⟨t, s⟩ := token
    cases t with
    | error cause => rfl
    | _ => exact ih

namespace CommandLine

open Text

-- =============================================================== responses

/-- What is written before the tokens are printed. -/
def lexingEntries (debug : Bool) (sourceName code : String) : List Entry :=
  programRecord .info s!"Lexing {sourceName}"
    :: (Lexer.ofString code debug).rest.2.log.toList.map .record

variable {o : Options} {source code : String} {tokens : List (Located Token)}

/-- From a level above DEBUG on the records of the tokens are not seen. -/
theorem filter_lexingEntries (level : Log.Level) (h : level ≠ .debug) (debug : Bool) :
    (lexingEntries debug source code).filter (·.seenFrom level)
      = [programRecord .info s!"Lexing {source}"].filter (·.seenFrom level) := by
  have hlog : ((Lexer.ofString code debug).rest.2.log.toList.map Entry.record).filter
      (·.seenFrom level) = [] := by
    rw [List.filter_eq_nil_iff]
    intro e he
    obtain ⟨r, hr, rfl⟩ := List.mem_map.1 he
    have hdebug := (Lexer.ofString code debug).level_of_mem_collect [] nofun r
      (Array.mem_toList_iff.1 hr)
    show ¬ decide (level.gravity ≤ r.level.gravity) = true
    rw [hdebug]
    cases level with
    | debug => exact absurd rfl h
    | _ => decide
  rw [lexingEntries, ← List.singleton_append, List.filter_append, hlog, List.append_nil]

theorem respondToText_of_ok (h : tokenize code = .ok tokens) {text : String}
    (htext : Diagnostic.renderAll code (Diagnostic.collect tokens) = .ok text) :
    respondToText o source code =
      ⟨tokenLines tokens,
        lexingEntries (o.level = some .debug) source code
          ++ diagnosticEntries text (Diagnostic.collect tokens),
        .exit (if o.strict && tokens.any (·.val.isError) then 1 else 0)⟩ := by
  have hrest := Lexer.rest_ofString_fst code (o.level = some .debug)
  rw [h] at hrest
  unfold respondToText lexingEntries
  simp only [hrest, htext, not_isEmpty_collect]

theorem respondToText_of_error {fault : Fault} (h : tokenize code = .error fault) :
    respondToText o source code =
      ⟨"", lexingEntries (o.level = some .debug) source code, .fault fault⟩ := by
  have hrest := Lexer.rest_ofString_fst code (o.level = some .debug)
  rw [h] at hrest
  unfold respondToText lexingEntries
  simp only [hrest]

-- ================================================================= sources

theorem respondToBytes_encode (o : Options) (source code : String) :
    respondToBytes o source (Utf8.encode code.toList) = respondToText o source code := by
  unfold respondToBytes
  simp only [Utf8.decode_encode, String.ofList_toList]

theorem respondToBytes_of_refusal {bytes : List UInt8} {refusal : Utf8.Refusal}
    (h : Utf8.decode bytes = .error refusal) :
    respondToBytes o source bytes = unreadable source refusal.message := by
  unfold respondToBytes
  simp only [h]

/-- A source that can be read is answered by its bytes. -/
theorem respondInFull_of_contents {read : String → Contents} {input : Contents}
    {bytes : List UInt8} (h : o.contents read input = .ok bytes) :
    respondInFull o read input = respondToBytes o o.sourceName bytes := by
  unfold respondInFull
  rw [h]

/-- A run over a text answers by the text, and any other run answers
whatever the level and strictness are. -/
theorem respondInFull_cases (o : Options) (read : String → Contents) (input : Contents) :
    (∃ code : String, o.contents read input = .ok (Utf8.encode code.toList)
      ∧ ∀ p : Options, p.filename = o.filename →
        respondInFull p read input = respondToText p o.sourceName code)
    ∨ ∀ p : Options, p.filename = o.filename →
        respondInFull p read input = respondInFull o read input := by
  have hname : ∀ p : Options, p.filename = o.filename → p.sourceName = o.sourceName :=
    fun p hp => congrArg (fun name => (Option.filter (· ≠ "") name).getD "<stdin>") hp
  have hsame : ∀ p : Options, p.filename = o.filename →
      p.contents read input = o.contents read input := by
    rintro ⟨filename, level, strict⟩ rfl
    rfl
  cases hcontents : o.contents read input with
  | error refusal =>
    refine .inr fun p hp => ?_
    unfold respondInFull
    rw [hsame p hp, hname p hp, hcontents]
    cases refusal <;> rfl
  | ok bytes =>
    have hbytes : ∀ p : Options, p.filename = o.filename →
        respondInFull p read input = respondToBytes p o.sourceName bytes := by
      intro p hp
      rw [← hname p hp]
      exact respondInFull_of_contents ((hsame p hp).trans hcontents)
    by_cases hwell : Utf8.WellFormed bytes
    · obtain ⟨text, rfl⟩ := hwell
      refine .inl ⟨String.ofList text, by rw [String.toList_ofList], fun p hp => ?_⟩
      rw [hbytes p hp, ← respondToBytes_encode, String.toList_ofList]
    · obtain ⟨refusal, -, -, hdecode, -⟩ := Utf8.exists_refusal hwell
      refine .inr fun p hp => ?_
      rw [hbytes p hp, hbytes o rfl, respondToBytes_of_refusal hdecode,
        respondToBytes_of_refusal hdecode]

end CommandLine

end TexMath
