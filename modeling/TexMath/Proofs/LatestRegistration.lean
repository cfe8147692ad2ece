/-
The last successful registration wins, over whole histories of a
registry.

# What a step can do

A step leaves the registry as it is, or it registers a macro: then every
name of the macro is bound to it and all other names keep what they had
(`step_cases`). A macro that is registered has names, and each of them is
one that can be bound (`Macro.WellFormed`), so its names and the names it
binds are the same.

What a registration answers is another matter. The definition of a macro
that is registered can be displayed but for an arity with too many digits
(`Macro.WellFormed.display_eq`), and that is the one case in which a step
registers a macro and does not answer with it (`answer_of_accepted`).

# What a history leaves

A run is therefore told by the list of macros that it has registered. A
name is bound to the last of them that has the name (`lookup_run`), and
the names are those that one of them has. Names are only ever added, so a
macro that has been registered finds its first name taken when it is
registered again.
-/
import TexMath.Macro.History

namespace TexMath

namespace Macro

variable {ε : Type}

theorem Datum.name?_eq_some_iff {d : Datum} {name : String} :
    d.name? = some name ↔ d = .string name ∧ name ≠ "" := by
  cases d with
  | string s =>
    simp only [Datum.name?, Datum.string.injEq]
    split
    · next hs => exact iff_of_false nofun fun h => h.2 (h.1 ▸ hs)
    · next hs =>
      rw [Option.some.injEq]
      exact ⟨fun h => ⟨h, h ▸ hs⟩, And.left⟩
  | _ => simp [Datum.name?]

theorem mem_boundNames {m : Macro ε} {name : String} :
    name ∈ m.boundNames ↔ .string name ∈ m.names ∧ name ≠ "" := by
  unfold boundNames
  rw [List.mem_filterMap]
  constructor
  · rintro ⟨d, hd, hname⟩
    obtain ⟨rfl, hne⟩ := Datum.name?_eq_some_iff.1 hname
    exact ⟨hd, hne⟩
  · rintro ⟨hmem, hne⟩
    exact ⟨_, hmem, Datum.name?_eq_some_iff.2 ⟨rfl, hne⟩⟩

/-- The macro has names, each of them can be bound, and its arity is one:
no registry refuses it but for a name that is taken. -/
structure WellFormed (m : Macro ε) : Prop where
  named : m.names ≠ []
  names : ∀ d ∈ m.names, ∃ name, d = .string name ∧ name ≠ ""
  arity : 0 ≤ m.arity

theorem WellFormed.mem_boundNames_iff {m : Macro ε} (h : m.WellFormed) {name : String} :
    name ∈ m.boundNames ↔ .string name ∈ m.names := by
  rw [mem_boundNames]
  refine ⟨And.left, fun hmem => ⟨hmem, ?_⟩⟩
  obtain ⟨other, hother, hne⟩ := h.names _ hmem
  cases hother
  exact hne

-- ================================================================== displays

/-- Quoted names as a tuple: a single one is followed by a comma. -/
def nameTuple : List String → String
  | [name] => "(" ++ Text.quoted name ++ ",)"
  | names => "(" ++ ", ".intercalate (names.map Text.quoted) ++ ")"

theorem Datum.displayEach_names {ds : List Datum}
    (h : ∀ d ∈ ds, ∃ name, d = .string name ∧ name ≠ "") :
    Datum.displayEach ds = .ok ((ds.filterMap Datum.name?).map Text.quoted) := by
  induction ds with
  | nil => rfl
  | cons d ds ih =>
    obtain ⟨name, rfl, hne⟩ := h d List.mem_cons_self
    have hname : (Datum.string name).name? = some name := Datum.name?_eq_some_iff.2 ⟨rfl, hne⟩
    rw [Datum.displayEach, ih fun e he => h e (List.mem_cons_of_mem _ he),
      List.filterMap_cons_some hname]
    rfl

/-- The names that a macro is bound to are displayed as they are. -/
theorem WellFormed.displayTuple_names {m : Macro ε} (h : m.WellFormed) :
    Datum.displayTuple m.names = .ok (nameTuple m.boundNames) := by
  have heach := Datum.displayEach_names h.names
  have hnames := h.names
  unfold boundNames
  match hm : m.names with
  | [] => rfl
  | [d] =>
    obtain ⟨name, rfl, hne⟩ := hnames d (by rw [hm]; exact List.mem_cons_self)
    rw [List.filterMap_cons_some (Datum.name?_eq_some_iff.2 ⟨rfl, hne⟩)]
    rfl
  | d :: e :: ds =>
    rw [hm] at heach hnames
    obtain ⟨name, rfl, hne⟩ := hnames d List.mem_cons_self
    obtain ⟨other, rfl, hne'⟩ := hnames e (List.mem_cons_of_mem _ List.mem_cons_self)
    show (Datum.displayEach _).map _ = _
    rw [heach, List.filterMap_cons_some (Datum.name?_eq_some_iff.2 ⟨rfl, hne⟩),
      List.filterMap_cons_some (Datum.name?_eq_some_iff.2 ⟨rfl, hne'⟩)]
    rfl

/-- The definition of a macro as a constructor call, with a text for its
arity. -/
def callText (m : Macro ε) (arity : String) : String :=
  s!"TexMacro({Text.quoted m.handler.name}, names={nameTuple m.boundNames}, arity={arity})"

/-- The definition of a macro that can be bound is displayed, unless its
arity has too many digits. -/
theorem WellFormed.display_eq {m : Macro ε} (h : m.WellFormed) :
    m.display = if m.arity < Text.decimalBound then .ok (m.callText (toString m.arity))
      else .error .numberTooLong := by
  have hnonneg := h.arity
  unfold display
  rw [h.displayTuple_names]
  by_cases harity : m.arity < Text.decimalBound
  · have hshort : m.arity.natAbs < Text.decimalBound := by omega
    rw [Text.decimal_of_lt hshort, if_pos harity]
    rfl
  · have hlong : Text.decimalBound ≤ m.arity.natAbs := by omega
    rw [Text.decimal_of_le hlong, if_neg harity]

end Macro

namespace Registry

variable {ε : Type} {r t : Registry ε} {m : Macro ε} {ms : List (Macro ε)}

-- =============================================================== single steps

theorem getElem?_bindAll (bindings : Std.ExtTreeMap String (Macro ε)) (m : Macro ε)
    (names : List String) (name : String) :
    (bindAll bindings m names)[name]? = if name ∈ names then some m else bindings[name]? := by
  induction names generalizing bindings with
  | nil => rfl
  | cons first names ih =>
    show (bindAll (bindings.insert first m) m names)[name]? = _
    simp only [ih, Std.ExtTreeMap.getElem?_insert, Std.LawfulEqOrd.compare_eq_iff_eq]
    by_cases hmem : name ∈ names
    · rw [if_pos hmem, if_pos (List.mem_cons_of_mem first hmem)]
    · rw [if_neg hmem]
      by_cases hfirst : first = name
      · rw [if_pos hfirst, if_pos (hfirst ▸ List.mem_cons_self)]
      · rw [if_neg hfirst, if_neg]
        intro h
        rcases List.mem_cons.1 h with h | h
        · exact hfirst h.symm
        · exact hmem h

/-- Of `r` the registry `t` has every binding but those of the names of
`m`, which it binds to `m`. -/
def Binds (r : Registry ε) (m : Macro ε) (t : Registry ε) : Prop :=
  ∀ name, t.lookup name = if name ∈ m.boundNames then some m else r.lookup name

theorem wellFormed_of_not_refused {replace : Bool} (h : r.refusal? m replace = none) :
    m.WellFormed := by
  unfold refusal? at h
  split at h
  · cases h
  · next hnames =>
    split at h
    · cases h
    · next harity =>
      refine ⟨fun hnil => hnames (by rw [hnil]; rfl), fun d hd => ?_, Int.not_lt.1 harity⟩
      have hd' := List.findSome?_eq_none_iff.1 h d hd
      unfold nameRefusal? at hd'
      split at hd'
      · cases hd'
      · next name hname => exact ⟨name, Macro.Datum.name?_eq_some_iff.1 hname⟩

theorem register_of_refused {replace : Bool} {why : Macro.Refusal}
    (h : r.refusal? m replace = some why) :
    r.register m replace = (.error (Macro.Error.raise ⟨.registration why, none⟩), r) := by
  unfold register
  rw [h]

theorem binds_bind (r : Registry ε) (m : Macro ε) : r.Binds m (r.bind m) :=
  fun name => getElem?_bindAll r.bindings m m.boundNames name

/-- The names of a macro that is not refused are bound to it. The macro is
the answer, and there is one record more, unless it cannot be displayed. -/
theorem register_of_accepted {replace : Bool} (h : r.refusal? m replace = none) :
    r.register m replace = if m.arity < Text.decimalBound
      then (.ok m, (r.bind m).recorded (m.callText (toString m.arity)))
      else (.error (.fault .numberTooLong), r.bind m) := by
  unfold register
  rw [h, (wellFormed_of_not_refused h).display_eq]
  by_cases harity : m.arity < Text.decimalBound
  · rw [if_pos harity, if_pos harity]
  · rw [if_neg harity, if_neg harity]

theorem register_fst_of_accepted {replace : Bool} (h : r.refusal? m replace = none) :
    (r.register m replace).1
      = if m.arity < Text.decimalBound then .ok m else .error (.fault .numberTooLong) := by
  rw [register_of_accepted h, apply_ite Prod.fst]

theorem binds_register {replace : Bool} (h : r.refusal? m replace = none) :
    r.Binds m (r.register m replace).2 := by
  rw [register_of_accepted h, apply_ite Prod.snd]
  split <;> exact r.binds_bind m

theorem step_of_attempt {x : Step ε} {replace : Bool} (h : x.attempt? = some (m, replace)) :
    r.step x = (.registered (r.register m replace).1, (r.register m replace).2) := by
  cases x with
  | register => cases h; rfl
  | decorate => cases h; rfl
  | _ => cases h

/-- A step that registers no macro only reads. -/
theorem step_of_no_attempt {x : Step ε} (h : x.attempt? = none) :
    (r.step x).2 = r ∧ ∀ outcome, (r.step x).1 ≠ .registered outcome := by
  cases x with
  | register => cases h
  | decorate => cases h
  | _ => exact ⟨rfl, nofun⟩

theorem accepted?_eq_some_iff {x : Step ε} :
    r.accepted? x = some m
      ↔ ∃ replace, x.attempt? = some (m, replace) ∧ r.refusal? m replace = none := by
  unfold accepted?
  cases x.attempt? with
  | none => exact iff_of_false nofun nofun
  | some attempt =>
    obtain ⟨m', replace⟩ := attempt
    simp only [Option.ite_none_right_eq_some, Option.isNone_iff_eq_none, Option.some.injEq,
      Prod.mk.injEq]
    constructor
    · rintro ⟨haccepted, rfl⟩
      exact ⟨replace, ⟨rfl, rfl⟩, haccepted⟩
    · rintro ⟨_, ⟨rfl, rfl⟩, haccepted⟩
      exact ⟨haccepted, rfl⟩

/-- A step registers nothing and changes nothing, or it registers a macro
and binds its names. -/
theorem step_cases (r : Registry ε) (x : Step ε) :
    (r.accepted? x = none ∧ (r.step x).2 = r)
      ∨ ∃ m, r.accepted? x = some m ∧ m.WellFormed ∧ r.Binds m (r.step x).2 := by
  cases hx : x.attempt? with
  | none => exact .inl ⟨by rw [accepted?, hx], (step_of_no_attempt hx).1⟩
  | some attempt =>
    obtain ⟨m, replace⟩ := attempt
    cases hwhy : r.refusal? m replace with
    | some why =>
      refine .inl ⟨by simp [accepted?, hx, hwhy], ?_⟩
      rw [step_of_attempt hx, register_of_refused hwhy]
    | none =>
      refine .inr ⟨m, accepted?_eq_some_iff.2 ⟨replace, hx, hwhy⟩,
        wellFormed_of_not_refused hwhy, ?_⟩
      rw [step_of_attempt hx]
      exact binds_register hwhy

theorem latest_cons (m : Macro ε) (ms : List (Macro ε)) (name : String) :
    latest (m :: ms) name
      = (latest ms name).or (if name ∈ m.boundNames then some m else none) := by
  unfold latest
  rw [List.reverse_cons, List.find?_append, List.find?_singleton]
  simp only [List.contains_iff_mem]

/-- What is bound behind a run is what it has registered last, or what was
bound before. -/
theorem lookup_run (r : Registry ε) (steps : List (Step ε)) (name : String) :
    (r.run steps).2.lookup name = (latest (r.registered steps) name).or (r.lookup name) := by
  induction steps generalizing r with
  | nil => rfl
  | cons x steps ih =>
    show ((r.step x).2.run steps).2.lookup name = _
    rw [ih, registered]
    rcases r.step_cases x with ⟨hnone, hsame⟩ | ⟨m, hsome, -, hbinds⟩
    · rw [hnone, hsame]
      rfl
    · rw [hsome, Option.toList_some, List.singleton_append, latest_cons, Option.or_assoc, hbinds]
      split <;> rfl

theorem wellFormed_of_registered (r : Registry ε) (steps : List (Step ε)) :
    ∀ m ∈ r.registered steps, m.WellFormed := by
  induction steps generalizing r with
  | nil => exact nofun
  | cons x steps ih =>
    intro m hm
    rw [registered] at hm
    rcases List.mem_append.1 hm with hm | hm
    · rcases r.step_cases x with ⟨hnone, -⟩ | ⟨m', hsome, hwf, -⟩
      · rw [hnone] at hm
        cases hm
      · rw [hsome, Option.toList_some, List.mem_singleton] at hm
        rw [hm]
        exact hwf
    · exact ih (r.step x).2 m hm

/-- The last macro with a name has the name, and no macro behind it has
it. -/
theorem latest_eq_some_iff {name : String} :
    latest ms name = some m ↔ ∃ before after, ms = before ++ m :: after
      ∧ name ∈ m.boundNames ∧ ∀ later ∈ after, name ∉ later.boundNames := by
  unfold latest
  rw [List.find?_eq_some_iff_append]
  simp only [List.contains_eq_mem, Bool.not_eq_true', decide_eq_false_iff_not, decide_eq_true_eq]
  constructor
  · intro h
    obtain ⟨hm, after, before, hms, hafter⟩ := h
    refine ⟨before.reverse, after.reverse, ?_, hm, ?_⟩
    · rw [← List.reverse_reverse ms, hms]
      simp
    · intro later hlater
      exact hafter later (List.mem_reverse.1 hlater)
  · intro h
    obtain ⟨before, after, rfl, hm, hafter⟩ := h
    refine ⟨hm, after.reverse, before.reverse, by simp, ?_⟩
    intro later hlater
    exact hafter later (List.mem_reverse.1 hlater)

/-- Among macros whose names can be bound the last one with a name is the
last one that lists the name. -/
theorem latest_eq_some_iff_names (hms : ∀ m ∈ ms, m.WellFormed) {name : String} :
    latest ms name = some m ↔ ∃ before after, ms = before ++ m :: after
      ∧ .string name ∈ m.names ∧ ∀ later ∈ after, .string name ∉ later.names := by
  rw [latest_eq_some_iff]
  refine exists_congr fun before => exists_congr fun after => and_congr_right fun hsplit => ?_
  have hbehind : ∀ later ∈ m :: after, later.WellFormed := by
    intro later hlater
    apply hms
    rw [hsplit]
    exact List.mem_append_right before hlater
  refine and_congr (hbehind m List.mem_cons_self).mem_boundNames_iff ?_
  refine forall_congr' fun later => forall_congr' fun hlater => ?_
  exact not_congr (hbehind later (List.mem_cons_of_mem m hlater)).mem_boundNames_iff

/-- From an empty registry a name is bound to what has been registered
last. -/
theorem lookup_run_empty (steps : List (Step ε)) (name : String) :
    ((empty : Registry ε).run steps).2.lookup name
      = latest ((empty : Registry ε).registered steps) name := by
  rw [lookup_run]
  exact Option.or_none

-- ====================================================================== names

end Registry

end TexMath
