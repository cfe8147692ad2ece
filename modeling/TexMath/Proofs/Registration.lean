/-
A registration is all or nothing, and refused for one reason.

# The reason

A definition is looked at as a whole first, and then name by name. What is
wrong with a single name depends on the name and on what is bound
(`Offends`); what a definition is refused for is the first thing wrong
with it (`Refuses`). Neither mentions the search that the registry makes,
and the search finds exactly that (`refusal?_eq_some_iff`), so a definition
has one reason at most.

# All or nothing

All names are looked at before any of them is bound. A definition without
a reason has names that can be bound and that are free
(`refusal?_eq_none_iff`), and binding them is all that is left to do. In
a registry with a history no other name can be bound to a definition than
its own (`mem_names_of_lookup_run`), so that a registration which succeeds
binds exactly the names that are listed.

# Numbers with too many digits

The record of a registration and the words of a refusal write numbers
out. Where a number has too many digits for that, its fault is raised: in
the place of the error when the definition is refused, and in the place of
the answer and the record when it is not, with the names bound by then
(`register_unprintable`).
-/
import Mathlib.Data.List.Basic
import TexMath.Proofs.LatestRegistration

namespace TexMath

/-- The numbers of a definition can be written out. -/
structure Macro.Writable {ε : Type} (m : Macro ε) : Prop where
  arity : m.arity.natAbs < Text.decimalBound
  names : ∀ d ∈ m.names, ∃ text, d.display = .ok text

namespace Registry

variable {ε : Type} {r : Registry ε} {m : Macro ε} {replace : Bool}

-- ================================================================ the reason

/-- What is wrong with a value that is offered as a name. -/
inductive Offends (r : Registry ε) (replace : Bool) : Macro.Datum → Macro.Refusal → Prop
  /-- It is no string, or the empty one. -/
  | invalid (d : Macro.Datum) (h : ∀ name, d = .string name → name = "") :
      Offends r replace d (.invalidName d)
  | taken (name : String) (named : name ≠ "") (keeps : replace = false)
      (bound : r.lookup name ≠ none) : Offends r replace (.string name) (.taken name)

/-- What a definition is refused for: the first thing that is wrong with
it. -/
inductive Refuses (r : Registry ε) (m : Macro ε) (replace : Bool) : Macro.Refusal → Prop
  | noNames (h : m.names = []) : Refuses r m replace .noNames
  | negativeArity (named : m.names ≠ []) (h : m.arity < 0) :
      Refuses r m replace (.negativeArity m.arity)
  /-- Nothing is wrong with the names in front of the one that offends. -/
  | name {before after : List Macro.Datum} {d : Macro.Datum} {why : Macro.Refusal}
      (arity : 0 ≤ m.arity) (names : m.names = before ++ d :: after)
      (first : ∀ e ∈ before, ∀ other, ¬ Offends r replace e other)
      (h : Offends r replace d why) : Refuses r m replace why

theorem nameRefusal?_of_unnamed {d : Macro.Datum} (h : d.name? = none) :
    r.nameRefusal? replace d = some (.invalidName d) := by
  unfold nameRefusal?
  rw [h]

theorem nameRefusal?_of_named {name : String} (h : name ≠ "") :
    r.nameRefusal? replace (.string name)
      = if replace = false ∧ r.lookup name ≠ none then some (.taken name) else none := by
  have hname : (Macro.Datum.string name).name? = some name :=
    Macro.Datum.name?_eq_some_iff.2 ⟨rfl, h⟩
  have htaken : (r.contains name && !replace) = true ↔ replace = false ∧ r.lookup name ≠ none := by
    unfold contains
    rw [Bool.and_eq_true, Bool.not_eq_true', Option.isSome_iff_ne_none, and_comm]
  unfold nameRefusal?
  rw [hname]
  simp only [htaken]

/-- What the registry finds wrong with a name is what is wrong with it. -/
theorem nameRefusal?_eq_some_iff {d : Macro.Datum} {why : Macro.Refusal} :
    r.nameRefusal? replace d = some why ↔ r.Offends replace d why := by
  cases hname : d.name? with
  | none =>
    rw [nameRefusal?_of_unnamed hname]
    have hinvalid : ∀ name, d = .string name → name = "" := by
      intro name hd
      by_contra hne
      rw [Macro.Datum.name?_eq_some_iff.2 ⟨hd, hne⟩] at hname
      cases hname
    constructor
    · intro h
      cases h
      exact .invalid d hinvalid
    · intro h
      cases h with
      | invalid _ => rfl
      | taken name named => exact absurd (hinvalid name rfl) named
  | some name =>
    obtain ⟨rfl, hne⟩ := Macro.Datum.name?_eq_some_iff.1 hname
    rw [nameRefusal?_of_named hne]
    constructor
    · intro h
      split at h
      · next htaken =>
        cases h
        exact .taken name hne htaken.1 htaken.2
      · cases h
    · intro h
      cases h with
      | invalid _ h => exact absurd (h name rfl) hne
      | taken _ _ keeps bound => exact if_pos ⟨keeps, bound⟩

/-- Nothing is wrong with a name that can be bound and is free. -/
theorem nameRefusal?_eq_none_iff {d : Macro.Datum} :
    r.nameRefusal? replace d = none
      ↔ ∃ name, d = .string name ∧ name ≠ "" ∧ (replace = true ∨ r.lookup name = none) := by
  cases hname : d.name? with
  | none =>
    rw [nameRefusal?_of_unnamed hname]
    refine iff_of_false nofun ?_
    rintro ⟨name, hd, hne, -⟩
    rw [Macro.Datum.name?_eq_some_iff.2 ⟨hd, hne⟩] at hname
    cases hname
  | some name =>
    obtain ⟨rfl, hne⟩ := Macro.Datum.name?_eq_some_iff.1 hname
    have hfree : ¬ (replace = false ∧ r.lookup name ≠ none)
        ↔ replace = true ∨ r.lookup name = none := by
      rw [not_and_or, Bool.not_eq_false, not_not]
    rw [nameRefusal?_of_named hne, ite_eq_right_iff]
    constructor
    · intro h
      exact ⟨name, rfl, hne, hfree.1 fun htaken => Option.some_ne_none _ (h htaken)⟩
    · rintro ⟨other, hsame, -, h⟩ htaken
      cases hsame
      exact absurd htaken (hfree.2 h)

-- ========================================================= whole definitions

theorem refusal?_of_unnamed (h : m.names = []) : r.refusal? m replace = some .noNames := by
  unfold refusal?
  rw [h]
  rfl

theorem refusal?_of_negative (h : m.names ≠ []) (harity : m.arity < 0) :
    r.refusal? m replace = some (.negativeArity m.arity) := by
  unfold refusal?
  rw [if_neg (mt List.isEmpty_iff.1 h), if_pos harity]

/-- With names and an arity, a definition is searched for a name that
offends. -/
theorem refusal?_of_named (h : m.names ≠ []) (harity : 0 ≤ m.arity) :
    r.refusal? m replace = m.names.findSome? (r.nameRefusal? replace) := by
  unfold refusal?
  rw [if_neg (mt List.isEmpty_iff.1 h), if_neg (Int.not_lt.2 harity)]

/-- The registry finds the first thing that is wrong with a definition. -/
theorem refusal?_eq_some_iff {why : Macro.Refusal} :
    r.refusal? m replace = some why ↔ r.Refuses m replace why := by
  by_cases hnames : m.names = []
  · rw [refusal?_of_unnamed hnames]
    constructor
    · intro h
      cases h
      exact .noNames hnames
    · intro h
      cases h with
      | noNames => rfl
      | negativeArity named => exact absurd hnames named
      | name _ names => simp [hnames] at names
  by_cases harity : m.arity < 0
  · rw [refusal?_of_negative hnames harity]
    constructor
    · intro h
      cases h
      exact .negativeArity hnames harity
    · intro h
      cases h with
      | noNames h => exact absurd h hnames
      | negativeArity => rfl
      | name arity => exact absurd arity (Int.not_le.2 harity)
  rw [Int.not_lt] at harity
  rw [refusal?_of_named hnames harity, List.findSome?_eq_some_iff]
  constructor
  · rintro ⟨before, d, after, hsplit, hwhy, hbefore⟩
    refine .name harity hsplit (fun e he other hother => ?_) (nameRefusal?_eq_some_iff.1 hwhy)
    have hnone := hbefore e he
    rw [nameRefusal?_eq_some_iff.2 hother] at hnone
    cases hnone
  · intro h
    cases h with
    | noNames h => exact absurd h hnames
    | negativeArity _ h => exact absurd harity (Int.not_le.2 h)
    | name _ names first h =>
      refine ⟨_, _, _, names, nameRefusal?_eq_some_iff.2 h, fun e he => ?_⟩
      rw [Option.eq_none_iff_forall_ne_some]
      intro other hother
      exact first e he other (nameRefusal?_eq_some_iff.1 hother)

/-- A definition that is not refused has an arity, and names that can be
bound and are free. -/
theorem refusal?_eq_none_iff :
    r.refusal? m replace = none ↔ m.names ≠ [] ∧ 0 ≤ m.arity
      ∧ (∀ d ∈ m.names, ∃ name, d = .string name ∧ name ≠ "")
      ∧ (replace = true ∨ ∀ name, .string name ∈ m.names → r.lookup name = none) := by
  by_cases hnames : m.names = []
  · rw [refusal?_of_unnamed hnames]
    exact iff_of_false nofun fun h => h.1 hnames
  by_cases harity : m.arity < 0
  · rw [refusal?_of_negative hnames harity]
    exact iff_of_false nofun fun h => Int.not_le.2 harity h.2.1
  rw [Int.not_lt] at harity
  rw [refusal?_of_named hnames harity, List.findSome?_eq_none_iff]
  simp only [nameRefusal?_eq_none_iff]
  constructor
  · intro h
    refine ⟨hnames, harity, fun d hd => ?_, ?_⟩
    · obtain ⟨name, hname, hne, -⟩ := h d hd
      exact ⟨name, hname, hne⟩
    · rw [or_iff_not_imp_left]
      intro hkeeps name hname
      obtain ⟨other, hsame, -, hfree⟩ := h _ hname
      cases hsame
      exact hfree.resolve_left hkeeps
  · rintro ⟨-, -, hvalid, hfree⟩ d hd
    obtain ⟨name, rfl, hne⟩ := hvalid d hd
    exact ⟨name, rfl, hne, hfree.imp_right fun h => h name hd⟩

-- ============================================================ all or nothing

/-- In a registry with a history a name that is bound to a definition is
one of its names. -/
theorem mem_names_of_lookup_run {steps : List (Step ε)} {name : String}
    (h : ((empty : Registry ε).run steps).2.lookup name = some m) : .string name ∈ m.names := by
  rw [lookup_run_empty, latest_eq_some_iff_names (wellFormed_of_registered _ steps)] at h
  obtain ⟨-, -, -, hname, -⟩ := h
  exact hname

/-- The record of the registration of `m`. -/
def registrationRecord (m : Macro ε) : Log.Record :=
  ⟨.debug, "watex.registry", s!"Registered {m.callText (toString m.arity)}"⟩

/-- What becomes of a definition that is not refused: the names are bound
in any case, and the record decides about the answer. -/
theorem register_of_not_refused (h : r.refusal? m replace = none) :
    r.Binds m (r.register m replace).2
      ∧ ((r.register m replace).1, (r.register m replace).2.log)
        = if m.arity < Text.decimalBound then (.ok m, r.log.push (registrationRecord m))
          else (.error (.fault .numberTooLong), r.log) := by
  refine ⟨binds_register h, ?_⟩
  rw [register_of_accepted h]
  split <;> rfl

/-- What is wrong with a definition that can be written out can be put into
words. -/
theorem Refuses.exists_message {why : Macro.Refusal} (h : r.Refuses m replace why)
    (hm : m.Writable) : ∃ text, why.message = .ok text := by
  cases h with
  | noNames => exact ⟨_, rfl⟩
  | negativeArity => exact ⟨_, by rw [Macro.Refusal.message, Text.decimal_of_lt hm.arity]; rfl⟩
  | name _ names _ h =>
    cases h with
    | taken => exact ⟨_, rfl⟩
    | invalid d =>
      obtain ⟨text, htext⟩ := hm.names _ (names ▸ List.mem_append_right _ List.mem_cons_self)
      exact ⟨_, by rw [Macro.Refusal.message, htext]; rfl⟩

/-- Whatever has been done to a registry, a definition is accepted exactly
when there are names, the arity is one, each name is a string that is not
empty, and none of them is bound already or they may be replaced. Then the
definition is bound to its own names and to no others, all other names keep
what they had, and the definition is the answer, with one record more; only
where the arity has too many digits for the record there is none, and its
fault is raised. Otherwise the registry stays as it was, log included, and
the error is the first thing that is wrong, unless a number in it has too
many digits. A handler that is registered under names of its own choice, or
under its own name, is the same definition, which may not replace. -/
theorem register_atomic (steps : List (Step ε)) (id : Nat) (handler : Macro.Handler ε)
    (given : Macro.Given) (arity : Int) (replace : Bool) :
    let r := ((empty : Registry ε).run steps).2
    let m := Macro.ofGiven id handler given arity
    let t := (r.register m replace).2
    let valid := given.values ≠ [] ∧ 0 ≤ arity
      ∧ (∀ d ∈ given.values, ∃ name, d = .string name ∧ name ≠ "")
      ∧ (replace = true ∨ ∀ name, .string name ∈ given.values → r.lookup name = none)
    ((∃ registered, (r.register m replace).1 = .ok registered)
      ↔ valid ∧ arity < Text.decimalBound)
    ∧ (valid →
      (∀ name, t.lookup name = some m ↔ .string name ∈ given.values)
      ∧ (∀ name, .string name ∉ given.values → t.lookup name = r.lookup name)
      ∧ (replace = false → ∀ name, r.lookup name ≠ none → t.lookup name = r.lookup name)
      ∧ ((r.register m replace).1, t.log)
        = if arity < Text.decimalBound then (.ok m, r.log.push (registrationRecord m))
          else (.error (.fault .numberTooLong), r.log))
    ∧ (¬ valid → t = r ∧ ∃ why, (∀ other, r.Refuses m replace other ↔ other = why)
      ∧ (r.register m replace).1 = .error (Macro.Error.raise ⟨.registration why, none⟩)
      ∧ (m.Writable → (r.register m replace).1 = .error (.error ⟨.registration why, none⟩)))
    ∧ r.decorate id handler [] arity
      = r.register (.ofGiven id handler (.single handler.name) arity) false
    ∧ ∀ d names, r.decorate id handler (d :: names) arity
      = r.register (.ofGiven id handler (.several (d :: names)) arity) false := by
  intro r m t valid
  have hvalid : r.refusal? m replace = none ↔ valid := refusal?_eq_none_iff
  cases hwhy : r.refusal? m replace with
  | some why =>
    have hregister : r.register m replace
        = (.error (Macro.Error.raise ⟨.registration why, none⟩), r) :=
      register_of_refused hwhy
    have hinvalid : ¬ valid := by
      rw [← hvalid, hwhy]
      exact Option.some_ne_none why
    have hrefuses (other : Macro.Refusal) : r.Refuses m replace other ↔ other = why := by
      rw [← refusal?_eq_some_iff, hwhy, Option.some.injEq]
      exact eq_comm
    have hsame : t = r := congrArg Prod.snd hregister
    rw [hregister]
    refine ⟨iff_of_false nofun fun h => hinvalid h.1, fun h => absurd h hinvalid,
      fun _ => ⟨hsame, why, hrefuses, rfl, fun hm => ?_⟩, rfl, fun d names => rfl⟩
    obtain ⟨text, htext⟩ := ((hrefuses why).2 rfl).exists_message hm
    exact congrArg Except.error (Macro.Error.raise_of_message htext)
  | none =>
    have haccepted : valid := hvalid.1 hwhy
    obtain ⟨hbinds, houtcome⟩ := register_of_not_refused hwhy
    have hlisted (name : String) : name ∈ m.boundNames ↔ .string name ∈ given.values :=
      (wellFormed_of_not_refused hwhy).mem_boundNames_iff
    refine ⟨?_, fun _ => ⟨fun name => ?_, fun name hname => ?_, fun hkeeps name hbound => ?_,
      houtcome⟩, fun h => absurd haccepted h, rfl, fun d names => rfl⟩
    · rw [register_fst_of_accepted hwhy]
      split
      · next harity => exact iff_of_true ⟨m, rfl⟩ ⟨haccepted, harity⟩
      · next harity => exact iff_of_false nofun fun h => harity h.2
    · rw [← hlisted, hbinds]
      split
      · next hname => exact iff_of_true rfl hname
      · next hname =>
        refine iff_of_false (fun h => hname ?_) hname
        exact (hlisted name).2 (mem_names_of_lookup_run h)
    · rw [hbinds, if_neg (mt (hlisted name).1 hname)]
    · obtain ⟨-, -, -, hreplace | hunbound⟩ := haccepted
      · rw [hkeeps] at hreplace
        cases hreplace
      · rw [hbinds, if_neg fun hname => hbound (hunbound name ((hlisted name).1 hname))]

/-- Of a definition with too many digits in its arity every name is bound,
and yet there is no answer and no record; with a negative arity that has
too many digits the refusal is not the error. -/
theorem register_unprintable :
    let handler : Macro.Handler Unit := ⟨"frac", fun _ => .ok []⟩
    let long : Macro Unit := ⟨0, handler, [.string "a"], Text.decimalBound⟩
    let short : Macro Unit := ⟨1, handler, [.string "a"], -Text.decimalBound⟩
    let r : Registry Unit := (empty.register long false).2
    r.lookup "a" = some long ∧ r.log = #[]
    ∧ (empty.register long false).1 = .error (.fault .numberTooLong)
    ∧ (empty : Registry Unit).Refuses short false (.negativeArity (-Text.decimalBound))
    ∧ (empty.register short false).1 = .error (.fault .numberTooLong) := by
  intro handler long short r
  have hlong : (empty : Registry Unit).refusal? long false = none := by
    rw [refusal?_eq_none_iff]
    refine ⟨nofun, Int.natCast_nonneg _, fun d hd => ?_, .inr fun name _ => rfl⟩
    rw [List.mem_singleton.1 hd]
    exact ⟨"a", rfl, by decide⟩
  obtain ⟨hbinds, houtcome⟩ := register_of_not_refused hlong
  rw [if_neg (Int.lt_irrefl _), Prod.mk.injEq] at houtcome
  have hshort :
      (empty : Registry Unit).Refuses short false (.negativeArity (-Text.decimalBound)) := by
    refine .negativeArity nofun ?_
    show -(Text.decimalBound : Int) < 0
    decide +kernel
  refine ⟨(hbinds "a").trans (if_pos (by decide)), houtcome.2, houtcome.1, hshort, ?_⟩
  rw [register_of_refused (refusal?_eq_some_iff.2 hshort)]
  have hmessage : (Macro.Refusal.negativeArity (-Text.decimalBound)).message
      = .error .numberTooLong := by
    rw [Macro.Refusal.message, Text.decimal_of_le (by omega)]
    rfl
  exact congrArg Except.error (Macro.Error.raise_of_fault hmessage)

end Registry

end TexMath
